import ClashVerge.Library.UnixPath

/-!
# Destinations of provider files

A provider names its file by a raw path, which may be absolute or below the config root. The runtime
bundle turns it into a destination: a relative path written with `/` on every platform. Here the
platform is unix, whose paths do not separate at backslashes.

The components are checked before backslashes become separators: a destination is clean if no
component has an empty piece, a dot or a double dot between its backslashes.
-/

namespace ClashVerge.RuntimeBundle

open UnixPath

/-- What the file system answers about a path. -/
structure Filesystem where
  canonicalize : Text → Except String Text
  exists_ : Text → Bool
  isFile : Text → Bool

/-- The errors, with the path that they name. -/
inductive Refusal where
  | io (message : String)
  | unavailable (source : Text)
  | sourceOutsideRoot (source : Text)
  | traversesOutside
  | noExistingAncestor (path : Text)
  | outsideRoot (path : Text)
  | localTraversesOutside
  | emptyDestination
  | differentSources (destination : String)
  | claimedTwice (destination : String)
deriving DecidableEq

/-- `replace('\\', "/")`. -/
def slashes (path : Text) : Text := path.map fun char => if char = '\\' then '/' else char

/-- The names that are pushed onto the destination, unless a component traverses. -/
def normalNames : List Component → Option (List Text)
  | [] => some []
  | .normal name :: rest => (normalNames rest).map (name :: ·)
  | .curDir :: rest => normalNames rest
  | .rootDir :: _ => none
  | .parentDir :: _ => none

def normalizedDestination (relative : List Component) : Except Refusal String :=
  match normalNames relative with
  | none => .error .localTraversesOutside
  | some names =>
    if join names = [] then .error .emptyDestination
    else .ok (String.ofList (slashes (join names)))

def destinationBelowRoot (configRoot path : Text) : Except Refusal String :=
  match stripPrefix configRoot path with
  | none => .error (.outsideRoot path)
  | some relative => normalizedDestination relative

/-- Every path is there and stands for itself, and no geo file is there. -/
def plainFiles : Filesystem := ⟨.ok, fun _ => true, fun _ => false⟩

namespace Filesystem

variable (files : Filesystem)

/-- The loop of `canonicalize_with_missing_tail`: the first ancestor that exists, and the names below
it. -/
def existingAncestor (path ancestor : Text) (tail : List Text) :
    Except Refusal (Text × List Text) :=
  if files.exists_ ancestor then .ok (ancestor, tail)
  else
    match named : fileName ancestor with
    | none => .error (.noExistingAncestor path)
    | some name =>
      have : (directory ancestor).length < ancestor.length :=
        directory_length_lt (by rw [named]; rfl)
      existingAncestor path (directory ancestor) (name :: tail)
termination_by ancestor.length

def canonicalizeWithMissingTail (path : Text) : Except Refusal Text :=
  match files.existingAncestor path path [] with
  | .error refusal => .error refusal
  | .ok (ancestor, tail) =>
    match files.canonicalize ancestor with
    | .error message => .error (.io message)
    | .ok normalized => .ok (tail.foldl push normalized)

def localProviderSource (configRoot rawPath : Text) : Except Refusal Text :=
  let source := if isAbsolute rawPath then rawPath else push configRoot rawPath
  match files.canonicalize source with
  | .error _ => .error (.unavailable source)
  | .ok canonical =>
    match stripPrefix configRoot canonical with
    | none => .error (.sourceOutsideRoot canonical)
    | some _ => .ok canonical

def providerDestination (configRoot rawPath : Text) : Except Refusal String :=
  if .parentDir ∈ components rawPath then .error .traversesOutside
  else if isAbsolute rawPath then
    match files.canonicalizeWithMissingTail rawPath with
    | .error refusal => .error refusal
    | .ok normalized => destinationBelowRoot configRoot normalized
  else normalizedDestination (components rawPath)

end Filesystem

/-- Read at backslashes too, each name that a component gives is proper. -/
def ProperNames (relative : List Component) : Prop :=
  ∀ name, .normal name ∈ relative → Clean (slashes name)

theorem slashes_append (first second : Text) :
    slashes (first ++ second) = slashes first ++ slashes second := List.map_append

theorem backslash_not_mem (path : Text) : '\\' ∉ slashes path := by
  intro member
  obtain ⟨char, -, is_⟩ := List.mem_map.mp member
  split at is_
  · exact absurd is_ (by decide)
  · contradiction

theorem slashes_of_not_mem {path : Text} (plain : '\\' ∉ path) : slashes path = path := by
  induction path with
  | nil => rfl
  | cons char rest ih =>
    rw [List.mem_cons, not_or] at plain
    rw [slashes, List.map_cons, if_neg (Ne.symm plain.1)]
    exact congrArg (char :: ·) (ih plain.2)

variable {relative : List Component}

theorem mem_normalNames {names : List Text}
    (pushed : normalNames relative = some names) (name : Text) :
    name ∈ names ↔ .normal name ∈ relative := by
  induction relative generalizing names with
  | nil =>
    obtain rfl : [] = names := by simpa [normalNames] using pushed
    simp
  | cons component rest ih =>
    cases component with
    | rootDir | parentDir => simp [normalNames] at pushed
    | curDir => simpa using ih pushed
    | normal own =>
      rw [normalNames, Option.map_eq_some_iff] at pushed
      obtain ⟨others, below, rfl⟩ := pushed
      simp [ih below]

theorem clean_join_iff {names : List Text} (some_ : names ≠ []) :
    Clean (slashes (join names)) ↔ ∀ name ∈ names, Clean (slashes name) := by
  induction names with
  | nil => contradiction
  | cons lead rest ih =>
    cases rest with
    | nil => simp [join]
    | cons next rest =>
      have split : pieces (slashes (join (lead :: next :: rest))) =
          pieces (slashes lead) ++ pieces (slashes (join (next :: rest))) := by
        rw [join, List.intercalate_cons_of_ne_nil (List.cons_ne_nil next rest), slashes_append,
          slashes_append, List.append_assoc]
        exact pieces_append_separator (slashes lead) (slashes (join (next :: rest)))
      have both : Clean (slashes (join (lead :: next :: rest))) ↔
          Clean (slashes lead) ∧ Clean (slashes (join (next :: rest))) := by
        simp only [Clean, split, List.mem_append, or_imp, forall_and]
      simp only [both, ih (List.cons_ne_nil next rest), List.forall_mem_cons]

variable {destination : String}

section

variable (normalized : normalizedDestination relative = .ok destination)
include normalized

theorem clean_destination_iff : Clean destination.toList ↔ ProperNames relative := by
  unfold normalizedDestination at normalized
  split at normalized
  · contradiction
  · rename_i names pushed
    split at normalized
    · contradiction
    · rename_i some_
      cases normalized
      have inhabited : names ≠ [] := by
        rintro rfl
        exact some_ rfl
      rw [String.toList_ofList, clean_join_iff inhabited]
      exact forall_congr' fun name => imp_congr_left (mem_normalNames pushed name)

theorem destination_plain : '\\' ∉ destination.toList := by
  unfold normalizedDestination at normalized
  split at normalized
  · contradiction
  · split at normalized
    · contradiction
    · cases normalized
      rw [String.toList_ofList]
      exact backslash_not_mem _

theorem destination_ne_nil : destination.toList ≠ [] := by
  unfold normalizedDestination at normalized
  split at normalized
  · contradiction
  · split at normalized
    · contradiction
    · rename_i some_
      cases normalized
      simpa [slashes] using some_

end

theorem normalizedDestination_of_clean {path : Text} (clean : Clean path) (plain : '\\' ∉ path) :
    normalizedDestination (components path) = .ok (String.ofList path) := by
  have pushed : ∀ names : List Text, normalNames (names.map .normal) = some names := by
    intro names
    induction names with
    | nil => rfl
    | cons name rest ih => simp [normalNames, ih]
  simp only [normalizedDestination, clean.components, pushed, join_pieces, if_neg clean.ne_nil,
    slashes_of_not_mem plain]

theorem destinationBelowRoot_eq_ok {configRoot path : Text} :
    destinationBelowRoot configRoot path = .ok destination ↔
      ∃ relative, stripPrefix configRoot path = some relative ∧
        normalizedDestination relative = .ok destination := by
  unfold destinationBelowRoot
  split <;> simp_all

namespace Filesystem

variable {files : Filesystem}

theorem providerDestination_normalized {configRoot rawPath : Text} {destination : String}
    (provides : files.providerDestination configRoot rawPath = .ok destination) :
    ∃ relative, normalizedDestination relative = .ok destination := by
  unfold providerDestination at provides
  split at provides
  · contradiction
  · split at provides
    · split at provides
      · contradiction
      · obtain ⟨relative, -, normalized⟩ := destinationBelowRoot_eq_ok.mp provides
        exact ⟨relative, normalized⟩
    · exact ⟨_, provides⟩

theorem providerDestination_of_clean {configRoot path : Text} (clean : Clean path)
    (plain : '\\' ∉ path) :
    files.providerDestination configRoot path = .ok (String.ofList path) := by
  have stays : Component.parentDir ∉ components path := by
    rw [clean.components]
    simp
  rw [providerDestination, if_neg stays, clean.not_absolute, if_neg Bool.false_ne_true]
  exact normalizedDestination_of_clean clean plain

end Filesystem

end ClashVerge.RuntimeBundle
