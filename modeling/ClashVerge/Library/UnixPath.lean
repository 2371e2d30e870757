import Mathlib.Data.List.DropRight
import Mathlib.Data.List.Infix

/-!
# Paths of unix

A path is a text whose only separator is `/`. Its components are read from the pieces between the
separators: empty pieces and single dots are skipped, a leading separator is the root, and a leading
single dot is the current directory. A path is clean if none of its pieces is empty, a single dot or
a double dot.
-/

namespace UnixPath

abbrev Text : Type := List Char

inductive Component where
  | rootDir
  | curDir
  | parentDir
  | normal (name : Text)
deriving DecidableEq

def pieces (path : Text) : List Text := path.splitOn '/'

def join (names : List Text) : Text := ['/'].intercalate names

/-- What a piece stands for, except at the beginning. -/
def pieceComponent : Text → Option Component
  | [] => none
  | ['.'] => none
  | ['.', '.'] => some .parentDir
  | name => some (.normal name)

/-- A piece that stands for nothing. -/
def skipped (piece : Text) : Bool := (pieceComponent piece).isNone

def isAbsolute : Text → Bool
  | '/' :: _ => true
  | _ => false

def components (path : Text) : List Component :=
  let body := (pieces path).filterMap pieceComponent
  if isAbsolute path then .rootDir :: body
  else if (pieces path).head? = some ['.'] then .curDir :: body
  else body

def fileName (path : Text) : Option Text :=
  match (components path).getLast? with
  | some (.normal name) => some name
  | _ => none

/-- The path up to its first pieces, without what stands for nothing at their end. -/
def leading : List Text → Text
  | [] => []
  | lead :: rest =>
    if lead = [] ∧ rest.rdropWhile skipped = [] then ['/']
    else join (lead :: rest.rdropWhile skipped)

/-- The parent of a path that has a file name. -/
def directory (path : Text) : Text := leading ((pieces path).rdropWhile skipped).dropLast

/-- A relative name below a path. -/
def push (base name : Text) : Text :=
  if base = [] then name
  else if base.getLast? = some '/' then base ++ name
  else base ++ '/' :: name

/-- The last component is replaced, or a name is added where it names nothing. -/
def withFileName (path name : Text) : Text :=
  push (if (fileName path).isSome then directory path else path) name

/-- What follows the last dot of a name that does not begin with it. -/
def nameExtension (name : Text) : Option Text :=
  match name.splitOn '.' with
  | [] | [_] => none
  | [[], _] => none
  | _ :: rest => rest.getLast?

def extension (path : Text) : Option Text := (fileName path).bind nameExtension

/-- What is left of a path below another one. -/
def stripPrefix (base path : Text) : Option (List Component) :=
  if components base <+: components path then
    some ((components path).drop (components base).length)
  else none

/-- A piece that names something. -/
def Proper (piece : Text) : Prop := piece ≠ [] ∧ piece ≠ ['.'] ∧ piece ≠ ['.', '.']

instance (piece : Text) : Decidable (Proper piece) := inferInstanceAs (Decidable (_ ∧ _ ∧ _))

/-- Each piece names something. -/
def Clean (path : Text) : Prop := ∀ piece ∈ pieces path, Proper piece

instance (path : Text) : Decidable (Clean path) :=
  inferInstanceAs (Decidable (∀ piece ∈ pieces path, Proper piece))

theorem pieces_ne_nil (path : Text) : pieces path ≠ [] := List.splitOn_ne_nil _ _

@[simp] theorem join_pieces (path : Text) : join (pieces path) = path := List.intercalate_splitOn _

theorem pieces_join {names : List Text} (apart : ∀ name ∈ names, '/' ∉ name) (some_ : names ≠ []) :
    pieces (join names) = names := List.splitOn_intercalate _ apart some_

theorem not_mem_of_mem_pieces {path piece : Text} (member : piece ∈ pieces path) : '/' ∉ piece := by
  induction path generalizing piece with
  | nil =>
    obtain rfl : piece = [] := by simpa [pieces] using member
    exact List.not_mem_nil
  | cons char rest ih =>
    have shape : pieces (char :: rest) =
        if char = '/' then [] :: pieces rest else (pieces rest).modifyHead (char :: ·) := by
      simpa [pieces] using List.splitOn_cons_eq_if_modifyHead char rest
    rw [shape] at member
    split at member
    · obtain rfl | inside := List.mem_cons.mp member
      · exact List.not_mem_nil
      · exact ih inside
    · rename_i other
      obtain ⟨head, tail, split⟩ := List.exists_cons_of_ne_nil (pieces_ne_nil rest)
      rw [split, List.modifyHead_cons, List.mem_cons] at member
      obtain rfl | inside := member
      · rw [List.mem_cons, not_or]
        exact ⟨fun same => other same.symm, ih (by rw [split]; exact List.mem_cons_self)⟩
      · exact ih (by rw [split]; exact List.mem_cons_of_mem _ inside)

theorem pieceComponent_of_proper {piece : Text} (proper : Proper piece) :
    pieceComponent piece = some (.normal piece) := by
  obtain ⟨first, second, third⟩ := proper
  unfold pieceComponent
  split <;> simp_all

theorem skipped_of_proper {piece : Text} (proper : Proper piece) : skipped piece = false := by
  simp [skipped, pieceComponent_of_proper proper]

theorem isAbsolute_iff (path : Text) :
    isAbsolute path = true ↔ ∃ rest, pieces path = [] :: rest ∧ rest ≠ [] := by
  cases path with
  | nil => simp [isAbsolute, pieces]
  | cons char rest =>
    have shape : pieces (char :: rest) =
        if char = '/' then [] :: pieces rest else (pieces rest).modifyHead (char :: ·) := by
      simpa [pieces] using List.splitOn_cons_eq_if_modifyHead char rest
    rw [shape]
    by_cases separator : char = '/'
    · subst separator
      simp [isAbsolute, pieces_ne_nil]
    · obtain ⟨head, tail, split⟩ := List.exists_cons_of_ne_nil (pieces_ne_nil rest)
      have not_ : isAbsolute (char :: rest) = false := by
        unfold isAbsolute
        split
        · rename_i same
          exact absurd (List.cons.inj same).1 separator
        · rfl
      simp [not_, separator, split]

section Clean

variable {path : Text}

theorem Clean.not_absolute (clean : Clean path) : isAbsolute path = false := by
  rw [← Bool.not_eq_true, isAbsolute_iff]
  rintro ⟨rest, split, -⟩
  exact (clean [] (by rw [split]; exact List.mem_cons_self)).1 rfl

theorem Clean.components (clean : Clean path) :
    UnixPath.components path = (pieces path).map .normal := by
  have body : (pieces path).filterMap pieceComponent = (pieces path).map .normal := by
    rw [← List.filterMap_eq_map]
    exact List.filterMap_congr fun piece member => pieceComponent_of_proper (clean piece member)
  have head : (pieces path).head? ≠ some ['.'] := by
    intro is_
    exact (clean ['.'] (List.mem_of_mem_head? is_)).2.1 rfl
  simp only [UnixPath.components, clean.not_absolute, Bool.false_eq_true, if_false, if_neg head, body]

theorem Clean.fileName (clean : Clean path) : UnixPath.fileName path = (pieces path).getLast? := by
  unfold UnixPath.fileName
  rw [clean.components, List.getLast?_map]
  cases (pieces path).getLast? with
  | none => rfl
  | some name => rfl

end Clean

theorem pieces_append_separator (path rest : Text) :
    pieces (path ++ '/' :: rest) = pieces path ++ pieces rest :=
  List.splitOn_append_cons_self path rest

theorem pieces_name {name : Text} (apart : '/' ∉ name) : pieces name = [name] :=
  List.splitOn_eq_singleton apart

theorem pieces_push {base name : Text} (some_ : base ≠ []) (open_ : base.getLast? ≠ some '/')
    (apart : '/' ∉ name) : pieces (push base name) = pieces base ++ [name] := by
  rw [push, if_neg some_, if_neg open_, pieces_append_separator, pieces_name apart]

theorem pieces_of_getLast {path : Text} (ends : path.getLast? = some '/') :
    ∃ front, path = front ++ ['/'] ∧ pieces path = pieces front ++ [[]] := by
  obtain ⟨front, rfl⟩ := List.getLast?_eq_some_iff.mp ends
  exact ⟨front, rfl, pieces_append_separator front []⟩

theorem Clean.ne_nil {path : Text} (clean : Clean path) : path ≠ [] := by
  rintro rfl
  exact (clean [] (by simp [pieces])).1 rfl

theorem Clean.open_ {path : Text} (clean : Clean path) : path.getLast? ≠ some '/' := by
  intro ends
  obtain ⟨front, -, split⟩ := pieces_of_getLast ends
  exact (clean [] (by rw [split]; simp)).1 rfl

variable {path name : Text}

theorem getLast?_filterMap {Item Value : Type} {read : Item → Option Value} {items : List Item}
    {value : Value} (last : (items.filterMap read).getLast? = some value) :
    ∃ front item back, items = front ++ item :: back ∧ read item = some value ∧
      ∀ other ∈ back, read other = none := by
  induction items using List.reverseRecOn with
  | nil => simp at last
  | append_singleton items item ih =>
    cases reads : read item with
    | some other =>
      obtain rfl : other = value := by simpa [reads] using last
      exact ⟨items, item, [], rfl, reads, by simp⟩
    | none =>
      obtain ⟨front, source, back, rfl, found, none_⟩ :=
        ih (by simpa [reads] using last)
      refine ⟨front, source, back ++ [item], by simp, found, fun other member => ?_⟩
      obtain before | rfl := by simpa using member
      · exact none_ other before
      · exact reads

theorem proper_of_pieceComponent {piece name : Text}
    (is_ : pieceComponent piece = some (.normal name)) : piece = name ∧ Proper piece := by
  unfold pieceComponent at is_
  split at is_
  · contradiction
  · contradiction
  · simp at is_
  · rename_i first second third
    obtain rfl : piece = name := by simpa using is_
    exact ⟨rfl, first, second, third⟩

theorem fileName_eq_some (named : fileName path = some name) :
    ∃ front back, pieces path = front ++ name :: back ∧ Proper name ∧
      ∀ piece ∈ back, skipped piece = true := by
  have last : ((pieces path).filterMap pieceComponent).getLast? = some (.normal name) := by
    unfold fileName components at named
    generalize (pieces path).filterMap pieceComponent = body at named ⊢
    cases body using List.reverseRecOn with
    | nil =>
      split at named
      · rename_i is_
        split at is_ <;> simp at is_
        split at is_ <;> simp at is_
      · contradiction
    | append_singleton body component =>
      rw [List.getLast?_concat]
      split at named
      · rename_i own is_
        cases named
        split at is_
        · simpa [List.getLast?_cons] using is_
        · split at is_ <;> simpa [List.getLast?_cons] using is_
      · contradiction
  obtain ⟨front, piece, back, split, is_, none_⟩ := getLast?_filterMap last
  obtain ⟨rfl, proper⟩ := proper_of_pieceComponent is_
  exact ⟨front, back, split, proper, fun other member => by simp [skipped, none_ other member]⟩

theorem rdropWhile_append_skipped {names back : List Text}
    (skips : ∀ piece ∈ back, skipped piece = true) :
    (names ++ back).rdropWhile skipped = names.rdropWhile skipped := by
  induction back using List.reverseRecOn with
  | nil => rw [List.append_nil]
  | append_singleton back piece ih =>
    rw [← List.append_assoc, List.rdropWhile_concat_pos _ _ _ (skips piece (by simp))]
    exact ih fun other member => skips other (List.mem_append_left _ member)

theorem directory_eq {front back : List Text}
    (split : pieces path = front ++ name :: back) (proper : Proper name)
    (skips : ∀ piece ∈ back, skipped piece = true) : directory path = leading front := by
  have trimmed : (pieces path).rdropWhile skipped = front ++ [name] := by
    rw [split, ← List.singleton_append, ← List.append_assoc, rdropWhile_append_skipped skips,
      List.rdropWhile_concat_neg]
    rw [skipped_of_proper proper]
    exact Bool.false_ne_true
  rw [directory, trimmed, List.dropLast_concat]

theorem length_join_append {first second : List Text} (some_ : first ≠ []) (other : second ≠ []) :
    (join (first ++ second)).length = (join first).length + 1 + (join second).length := by
  induction first with
  | nil => exact absurd rfl some_
  | cons lead rest ih =>
    cases rest with
    | nil =>
      rw [List.singleton_append, join, List.intercalate_cons_of_ne_nil other]
      simp only [join, List.intercalate_singleton, List.length_append, List.length_singleton]
    | cons next rest =>
      have shorter := ih (List.cons_ne_nil _ _)
      rw [List.cons_append, join, List.intercalate_cons_of_ne_nil (by simp), join,
        List.intercalate_cons_of_ne_nil (List.cons_ne_nil _ _)]
      simp only [List.length_append, join] at shorter ⊢
      omega

theorem directory_length_lt {path : Text} (named : (fileName path).isSome = true) :
    (directory path).length < path.length := by
  obtain ⟨name, named⟩ := Option.isSome_iff_exists.mp named
  obtain ⟨front, back, split, proper, skips⟩ := fileName_eq_some named
  have size : path.length = (join (front ++ name :: back)).length := by rw [← split, join_pieces]
  have positive : 0 < (join (name :: back)).length := by
    cases back with
    | nil => simpa [join] using List.length_pos_iff.mpr proper.1
    | cons next rest =>
      rw [join, List.intercalate_cons_of_ne_nil (List.cons_ne_nil _ _)]
      simp only [List.length_append, List.length_singleton]
      omega
  rw [directory_eq split proper skips]
  cases front with
  | nil =>
    rw [size]
    exact positive
  | cons lead rest =>
    have whole := length_join_append (List.cons_ne_nil lead rest) (List.cons_ne_nil name back)
    rw [leading]
    split
    · rw [size, whole, List.length_singleton]
      omega
    · have kept : (join (lead :: rest.rdropWhile skipped)).length ≤ (join (lead :: rest)).length := by
        obtain ⟨tail, whole⟩ := List.rdropWhile_prefix skipped rest
        cases tail with
        | nil => rw [← whole, List.append_nil, List.rdropWhile_idempotent]
        | cons next tail =>
          have parts := length_join_append (List.cons_ne_nil lead (rest.rdropWhile skipped))
            (List.cons_ne_nil next tail)
          rw [List.cons_append, whole] at parts
          omega
      omega

theorem fileName_of_pieces {front back : List Text}
    (split : pieces path = front ++ name :: back) (proper : Proper name)
    (skips : ∀ piece ∈ back, skipped piece = true) : fileName path = some name := by
  have none_ : back.filterMap pieceComponent = [] := by
    rw [List.filterMap_eq_nil_iff]
    intro piece member
    simpa [skipped] using skips piece member
  have body : (pieces path).filterMap pieceComponent =
      front.filterMap pieceComponent ++ [.normal name] := by
    rw [split, List.filterMap_append, List.filterMap_cons, pieceComponent_of_proper proper, none_]
  have last : (components path).getLast? = some (.normal name) := by
    unfold components
    rw [body]
    split
    · rw [← List.cons_append, List.getLast?_concat]
    · split
      · rw [← List.cons_append, List.getLast?_concat]
      · rw [List.getLast?_concat]
  rw [fileName, last]

theorem leading_getLast {names : List Text} (apart : ∀ name ∈ names, '/' ∉ name)
    (ends : (leading names).getLast? = some '/') : leading names = ['/'] := by
  cases names with
  | nil => simp [leading] at ends
  | cons lead rest =>
    rw [leading] at ends ⊢
    split
    · rfl
    · rename_i body
      rw [if_neg body] at ends
      have kept : (rest.rdropWhile skipped).Sublist rest := (List.rdropWhile_prefix _ rest).sublist
      have names : pieces (join (lead :: rest.rdropWhile skipped)) = lead :: rest.rdropWhile skipped :=
        pieces_join (fun name member => apart name ((kept.cons_cons lead).subset member)) (by simp)
      obtain ⟨front, -, split⟩ := pieces_of_getLast ends
      rw [names] at split
      have last := congrArg List.getLast? split
      rw [List.getLast?_concat] at last
      exfalso
      cases trimmed : rest.rdropWhile skipped with
      | nil =>
        rw [trimmed] at last
        obtain rfl : lead = [] := by simpa using last
        exact body ⟨rfl, trimmed⟩
      | cons next more =>
        have some_ : rest.rdropWhile skipped ≠ [] := by simp [trimmed]
        have final := List.rdropWhile_last_not skipped rest some_
        rw [List.getLast?_cons_of_ne_nil some_, List.getLast?_eq_some_getLast some_] at last
        rw [Option.some.inj last] at final
        exact final rfl

/-- A path with another file name is clean if it had a file name and its directory is empty or
clean, and only then. -/
theorem clean_withFileName_iff (some_ : path ≠ []) (apart : '/' ∉ name)
    (proper : Proper name) : Clean (withFileName path name) ↔
      (fileName path).isSome = true ∧ (directory path = [] ∨ Clean (directory path)) := by
  have clean_push : ∀ base : Text, base ≠ [] → base.getLast? ≠ some '/' →
      (Clean (push base name) ↔ Clean base) := by
    intro base inhabited open_
    rw [Clean, pieces_push inhabited open_ apart]
    simp [Clean, or_imp, forall_and, proper]
  cases named : fileName path with
  | none =>
    refine iff_of_false (fun clean => ?_) (by simp)
    rw [withFileName, named, if_neg (by simp)] at clean
    by_cases ends : path.getLast? = some '/'
    · -- The name follows the last separator, and what precedes it is clean.
      obtain ⟨front, rfl, split⟩ := pieces_of_getLast ends
      have all : pieces (push (front ++ ['/']) name) = pieces front ++ [name] := by
        rw [push, if_neg some_, if_pos ends, List.append_assoc, List.singleton_append,
          pieces_append_separator, pieces_name apart]
      have before : Clean front := fun piece member =>
        clean piece (by rw [all]; exact List.mem_append_left _ member)
      obtain ⟨others, last, whole⟩ := (pieces front).eq_nil_or_concat'.resolve_left
        (pieces_ne_nil front)
      have split : pieces (front ++ ['/']) = others ++ last :: [[]] := by
        rw [split, whole]
        simp
      have found := fileName_of_pieces split (before last (by simp [whole]))
        (by simp [skipped, pieceComponent])
      rw [named] at found
      contradiction
    · have before := (clean_push path some_ ends).mp clean
      have found := before.fileName
      rw [named, eq_comm, List.getLast?_eq_none_iff] at found
      exact pieces_ne_nil path found
  | some own =>
    rw [withFileName, named, if_pos Option.isSome_some]
    obtain ⟨front, back, split, properName, skips⟩ := fileName_eq_some named
    have parent := directory_eq split properName skips
    by_cases empty : directory path = []
    · refine iff_of_true ?_ ⟨rfl, .inl empty⟩
      intro piece member
      rw [empty, push, if_pos rfl, pieces_name apart] at member
      obtain rfl := List.mem_singleton.mp member
      exact proper
    · by_cases ends : (directory path).getLast? = some '/'
      · have root : directory path = ['/'] := by
          rw [parent] at ends ⊢
          refine leading_getLast (fun piece member => ?_) ends
          exact not_mem_of_mem_pieces (by rw [split]; exact List.mem_append_left _ member)
        refine iff_of_false (fun clean => ?_) ?_
        · rw [root] at clean
          have absolute : isAbsolute (push ['/'] name) = true := by simp [push, isAbsolute]
          rw [clean.not_absolute] at absolute
          contradiction
        · rw [root]
          rintro ⟨-, none | clean⟩
          · simp at none
          · exact clean.open_ rfl
      · rw [clean_push _ empty ends]
        simp [empty]

section Characters

variable {path : Text} {char : Char}

theorem mem_join {names : List Text} (member : char ∈ join names) :
    char = '/' ∨ ∃ name ∈ names, char ∈ name := by
  induction names with
  | nil => simp [join] at member
  | cons name rest ih =>
    by_cases last : rest = []
    · subst last
      exact .inr ⟨name, List.mem_cons_self, by simpa [join] using member⟩
    · rw [join, List.intercalate_cons_of_ne_nil last, List.mem_append, List.mem_append,
        List.mem_singleton] at member
      obtain (here | separator) | later := member
      · exact .inr ⟨name, List.mem_cons_self, here⟩
      · exact .inl separator
      · exact (ih later).imp_right fun ⟨other, inside, own⟩ =>
          ⟨other, List.mem_cons_of_mem _ inside, own⟩

theorem mem_intercalate {separator piece : Text} {names : List Text} (inside : piece ∈ names)
    (member : char ∈ piece) : char ∈ separator.intercalate names := by
  induction names with
  | nil => contradiction
  | cons name rest ih =>
    by_cases last : rest = []
    · subst last
      obtain rfl := List.mem_singleton.mp inside
      simpa using member
    · rw [List.intercalate_cons_of_ne_nil last]
      obtain rfl | later := List.mem_cons.mp inside
      · simp [member]
      · exact List.mem_append_right _ (ih later)

theorem mem_of_mem_pieces {piece : Text} (inside : piece ∈ pieces path) (member : char ∈ piece) :
    char ∈ path := by
  rw [← join_pieces path]
  exact mem_intercalate inside member

theorem mem_directory (member : char ∈ directory path) : char = '/' ∨ char ∈ path := by
  have kept : ((pieces path).rdropWhile skipped).dropLast.Sublist (pieces path) :=
    (List.dropLast_sublist _).trans (List.rdropWhile_prefix _ _).sublist
  have fromPieces : ∀ names : List Text, names.Sublist (pieces path) → char ∈ join names →
      char = '/' ∨ char ∈ path := by
    intro names inside joined
    obtain separator | ⟨name, own, here⟩ := mem_join joined
    · exact .inl separator
    · exact .inr (mem_of_mem_pieces (inside.subset own) here)
  rw [directory] at member
  generalize ((pieces path).rdropWhile skipped).dropLast = names at member kept
  cases names with
  | nil => contradiction
  | cons lead rest =>
    rw [leading] at member
    split at member
    · exact .inl (List.mem_singleton.mp member)
    · refine fromPieces _ (List.Sublist.trans ?_ kept) member
      exact (List.rdropWhile_prefix _ _).sublist.cons_cons lead

theorem mem_push {base name : Text} (member : char ∈ push base name) :
    char = '/' ∨ char ∈ base ∨ char ∈ name := by
  unfold push at member
  split at member
  · exact .inr (.inr member)
  · split at member
    · exact .inr (List.mem_append.mp member)
    · obtain inside | other := List.mem_append.mp member
      · exact .inr (.inl inside)
      · exact (List.mem_cons.mp other).imp_right .inr

theorem mem_withFileName {name : Text} (member : char ∈ withFileName path name) :
    char = '/' ∨ char ∈ path ∨ char ∈ name := by
  obtain separator | base | own := mem_push member
  · exact .inl separator
  · split at base
    · exact (mem_directory base).imp_right .inl
    · exact .inr (.inl base)
  · exact .inr (.inr own)

theorem mem_of_nameExtension {name own : Text} (has : nameExtension name = some own)
    (member : char ∈ own) : char ∈ name := by
  have inside : own ∈ name.splitOn '.' := by
    unfold nameExtension at has
    split at has
    · contradiction
    · contradiction
    · contradiction
    · rename_i first rest shape
      rw [shape]
      exact List.mem_cons_of_mem _ (List.mem_of_getLast? has)
  have whole : ['.'].intercalate (name.splitOn '.') = name := List.intercalate_splitOn _
  rw [← whole]
  exact mem_intercalate inside member

theorem mem_of_extension {own : Text} (has : extension path = some own) (member : char ∈ own) :
    char ∈ path ∧ char ≠ '/' := by
  obtain ⟨name, named, has⟩ := Option.bind_eq_some_iff.mp has
  obtain ⟨front, back, split, -, -⟩ := fileName_eq_some named
  have inside : name ∈ pieces path := by simp [split]
  have here := mem_of_nameExtension has member
  refine ⟨mem_of_mem_pieces inside here, ?_⟩
  rintro rfl
  exact not_mem_of_mem_pieces inside here

end Characters

end UnixPath
