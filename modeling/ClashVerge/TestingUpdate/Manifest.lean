import ClashVerge.Library.Delimited

/-!
# The manifest of a testing release

A manifest is accepted when it is for this program, names an installer of the testing repository
with its digest, and has a version above the running one, which is also part of the installer's file
name.

How a URL is parsed is a parameter.
-/

namespace ClashVerge.TestingUpdate

open Delimited

def DOWNLOAD_PREFIX : String :=
  "https://github.com/VinHanakan/Clash-Verge-Clew-Testing/releases/download/"

def MAX_INSTALLER_BYTES : Nat := 256 * 1024 * 1024

/-- What `validate` reads of a parsed URL. -/
structure Url where
  asStr : String
  username : String
deriving DecidableEq, Repr

structure Platform where
  packageVersion : String
  appHomeDir : Except String String
  parseUrl : String → Except String Url
  sha256 : List UInt8 → List UInt8

structure Manifest where
  schemaVersion : Nat
  target : String
  available : Bool
  version : Option String
  url : Option String
  sha256 : Option String
  sourceCommit : Option String
deriving DecidableEq, Repr

structure TestVersion where
  major : Nat
  minor : Nat
  patch : Nat
  test : Nat
deriving DecidableEq, Repr

namespace TestVersion

/-- The order of the tuples: the first difference decides. -/
def lt (a b : TestVersion) : Prop :=
  a.major < b.major ∨ a.major = b.major ∧ (a.minor < b.minor ∨ a.minor = b.minor ∧
    (a.patch < b.patch ∨ a.patch = b.patch ∧ a.test < b.test))

instance : LT TestVersion := ⟨lt⟩

theorem lt_def (a b : TestVersion) : a < b ↔ lt a b := Iff.rfl

instance (a b : TestVersion) : Decidable (a < b) :=
  inferInstanceAs (Decidable (a.major < b.major ∨ a.major = b.major ∧ (a.minor < b.minor ∨
    a.minor = b.minor ∧ (a.patch < b.patch ∨ a.patch = b.patch ∧ a.test < b.test))))

theorem lt_irrefl (a : TestVersion) : ¬ a < a := by
  simp [lt_def, lt]

theorem lt_trans {a b c : TestVersion} (first : a < b) (second : b < c) : a < c := by
  simp only [lt_def, lt] at first second ⊢
  omega

theorem lt_trichotomy (a b : TestVersion) : a < b ∨ a = b ∨ b < a := by
  cases a
  cases b
  simp only [lt_def, lt, TestVersion.mk.injEq]
  omega

end TestVersion

/-- The digits of a `u32`; the value so far stays below its bound. -/
def parseDigits (value : Nat) : List Char → Except String Nat
  | [] => .ok value
  | digit :: rest =>
    if digit.isDigit then
      let grown := value * 10 + (digit.toNat - '0'.toNat)
      if grown < UInt32.size then parseDigits grown rest
      else .error "number too large to fit in target type"
    else .error "invalid digit found in string"

/-- `str::parse::<u32>`, which takes a leading plus. -/
def parseU32 : List Char → Except String Nat
  | [] => .error "cannot parse integer from empty string"
  | ['+'] => .error "invalid digit found in string"
  | '+' :: digits => parseDigits 0 digits
  | digits => parseDigits 0 digits

def context {α : Type} (message : String) : Option α → Except String α
  | none => .error message
  | some value => .ok value

def ensure (condition : Bool) (message : String) : Except String Unit :=
  if condition then .ok () else .error message

def testVersion (version : String) : Except String TestVersion := do
  let (base, iteration) ←
    context "unsupported testing version" (splitOnceAt "-test.".toList version.toList)
  let numbers ← (base.splitOn '.').mapM parseU32
  match numbers with
  | [major, minor, patch] => return ⟨major, minor, patch, ← parseU32 iteration⟩
  | _ => .error "invalid version"

/-- `u8::is_ascii_hexdigit`, on every byte; no other byte is part of an ASCII digit. -/
def isHex (text : String) : Bool :=
  text.toList.all fun character =>
    character.isDigit || ('a' ≤ character && character ≤ 'f') ||
      ('A' ≤ character && character ≤ 'F')

def validate (platform : Platform) (manifest : Manifest) : Except String Bool := do
  ensure (manifest.schemaVersion == 1 && manifest.target == "windows-x64-internal-test")
    "unsupported update manifest"
  if !manifest.available then
    return false
  let version ← context "missing update version" manifest.version
  let url ← context "missing installer URL" manifest.url
  let parsed ← platform.parseUrl url
  ensure (parsed.asStr.startsWith DOWNLOAD_PREFIX && url.endsWith ".exe" &&
      !(url.toList.contains '?' || url.toList.contains '#') && parsed.username == "")
    "installer must belong to the Testing repository"
  let hash ← context "missing SHA-256" manifest.sha256
  ensure (hash.utf8ByteSize == 64 && isHex hash) "invalid installer SHA-256"
  let source ← context "missing source commit" manifest.sourceCommit
  ensure (source.utf8ByteSize == 40 && isHex source) "invalid source commit"
  let offered ← testVersion version
  let running ← testVersion platform.packageVersion
  return decide (running < offered)

/-- The file name of an installer without its extension. -/
def installerStem (version : String) : String :=
  "Clash-Verge-Clew-Internal_" ++ version ++ "_x64-setup"

def installerName (version : String) : String := installerStem version ++ ".exe"

/-- The part of a file name before its last dot; a name that only begins with a dot has none. -/
def fileStem (name : String) : String :=
  match splitOnce '.' name.toList.reverse with
  | some (_, []) => name
  | some (_, stem) => String.ofList stem.reverse
  | none => name

def withExtension (name extension : String) : String := fileStem name ++ "." ++ extension

def partialName (version : String) : String := withExtension (installerName version) "exe.part"

/-- A name that stays in the directory it is joined to, on every system. -/
def StaysInside (name : String) : Prop :=
  name ≠ "" ∧ name ≠ "." ∧ name ≠ ".." ∧
    ∀ separator ∈ ['/', '\\', ':', Char.ofNat 0], separator ∉ name.toList

/-- What accepting a manifest settles: it names an installer of the testing repository, its
digest, and a version above the running one. -/
structure Accepted (platform : Platform) (manifest : Manifest) (version url hash : String)
    (running offered : TestVersion) : Prop where
  versioned : manifest.version = some version
  located : manifest.url = some url
  hashed : manifest.sha256 = some hash
  hex : hash.utf8ByteSize = 64 ∧ isHex hash
  own : testVersion platform.packageVersion = .ok running
  offers : testVersion version = .ok offered
  newer : running < offered

@[simp] theorem ensure_eq_ok_iff (condition : Bool) (message : String) :
    ensure condition message = .ok () ↔ condition = true := by
  cases condition <;> simp [ensure]

@[simp] theorem context_eq_ok_iff {α : Type} (message : String) (value : Option α) (found : α) :
    context message value = .ok found ↔ value = some found := by
  cases value <;> simp [context]

theorem bind_eq_ok_iff {ε α β : Type} (result : Except ε α) (next : α → Except ε β) (value : β) :
    (result >>= next) = .ok value ↔ ∃ found, result = .ok found ∧ next found = .ok value := by
  cases result with
  | error message | ok found => simp [bind, Except.bind]

theorem validate_accepted {platform : Platform} {manifest : Manifest}
    (valid : validate platform manifest = .ok true) :
    ∃ version url hash running offered,
      Accepted platform manifest version url hash running offered := by
  simp only [validate, bind_eq_ok_iff] at valid
  obtain ⟨-, -, rest⟩ := valid
  split at rest
  · simp [pure, Except.pure] at rest
  · simp only [bind_eq_ok_iff, context_eq_ok_iff] at rest
    obtain ⟨version, versioned, url, located, parsed, -, -, -, hash, hashed, ⟨⟩, hex, source,
      -, -, -, offered, new, running, own, decided⟩ := rest
    refine ⟨version, url, hash, running, offered, versioned, located, hashed, ?_, own, new, ?_⟩
    · simpa only [ensure_eq_ok_iff, Bool.and_eq_true, beq_iff_eq] using hex
    · simpa [pure, Except.pure] using decided

def IsVersionChar (character : Char) : Prop := character.isDigit ∨ character ∈ "+.-test".toList

theorem parseDigits_chars {value number : Nat} {text : List Char}
    (parsed : parseDigits value text = .ok number) : ∀ digit ∈ text, digit.isDigit := by
  induction text generalizing value with
  | nil => simp
  | cons digit rest ih =>
    by_cases isDigit : digit.isDigit
    · by_cases small : value * 10 + (digit.toNat - '0'.toNat) < UInt32.size
      · simp only [parseDigits, if_pos isDigit, if_pos small] at parsed
        exact List.forall_mem_cons.mpr ⟨isDigit, ih parsed⟩
      · simp only [parseDigits, if_pos isDigit, if_neg small, reduceCtorEq] at parsed
    · simp [parseDigits, isDigit] at parsed

theorem parseU32_chars {number : Nat} {text : List Char} (parsed : parseU32 text = .ok number) :
    ∀ character ∈ text, IsVersionChar character := by
  unfold parseU32 at parsed
  split at parsed
  · cases parsed
  · cases parsed
  · refine List.forall_mem_cons.mpr ⟨.inr (by decide), fun digit member => ?_⟩
    exact .inl (parseDigits_chars parsed digit member)
  · exact fun digit member => .inl (parseDigits_chars parsed digit member)

theorem mapM_parseU32_chars {numbers : List Nat} {parts : List (List Char)}
    (parsed : parts.mapM parseU32 = .ok numbers) :
    ∀ part ∈ parts, ∀ character ∈ part, IsVersionChar character := by
  induction parts generalizing numbers with
  | nil => simp
  | cons part rest ih =>
    simp only [List.mapM_cons, bind_eq_ok_iff] at parsed
    obtain ⟨number, first, others, remaining, -⟩ := parsed
    exact List.forall_mem_cons.mpr ⟨parseU32_chars first, ih remaining⟩

theorem testVersion_chars {version : String} {parsed : TestVersion}
    (accepted : testVersion version = .ok parsed) :
    ∀ character ∈ version.toList, IsVersionChar character := by
  simp only [testVersion, bind_eq_ok_iff, context_eq_ok_iff, Prod.exists] at accepted
  obtain ⟨base, iteration, cut, numbers, read, rest⟩ := accepted
  obtain ⟨joined, -⟩ := (splitOnceAt_eq_some_iff _ _ _ _).mp cut
  have last : ∀ character ∈ iteration, IsVersionChar character := by
    split at rest
    · obtain ⟨test, number, -⟩ := (bind_eq_ok_iff _ _ _).mp rest
      exact parseU32_chars number
    · cases rest
  intro character member
  rw [joined, List.mem_append, List.mem_append] at member
  rcases member with inBase | inMark | inIteration
  · rcases mem_of_mem_splitOn '.' base character inBase with rfl | ⟨part, listed, inside⟩
    · exact .inr (by decide)
    · exact mapM_parseU32_chars read part listed character inside
  · have marks : "-test.".toList ⊆ "+.-test".toList := by simp
    exact .inr (marks inMark)
  · exact last character inIteration

theorem installerStem_toList (version : String) : (installerStem version).toList =
      "Clash-Verge-Clew-Internal_".toList ++ version.toList ++ "_x64-setup".toList := by
  have parts : ∀ a b c : String, (a ++ b ++ c).toList = a.toList ++ b.toList ++ c.toList := by
    simp
  exact parts _ _ _

theorem installerName_toList (version : String) :
    (installerName version).toList = (installerStem version).toList ++ ".exe".toList :=
  String.toList_append

theorem installerStem_head (version : String) : (installerStem version).toList.head? = some 'C' := by
  have lead : "Clash-Verge-Clew-Internal_".toList.head? = some 'C' := rfl
  rw [installerStem_toList, List.head?_append, List.head?_append, lead]
  rfl

theorem installerName_reverse (version : String) : (installerName version).toList.reverse =
      "exe".toList ++ '.' :: (installerStem version).toList.reverse := by
  have ending : ".exe".toList.reverse = "exe".toList ++ ['.'] := by decide
  rw [installerName_toList, List.reverse_append, ending, List.append_assoc]
  rfl

theorem partialName_toList (version : String) :
    (partialName version).toList = (installerName version).toList ++ ".part".toList := by
  have cut := (splitOnce_join_iff '.' "exe".toList (installerStem version).toList.reverse).mpr
    (by decide)
  have stem : fileStem (installerName version) = installerStem version := by
    rw [fileStem, installerName_reverse, cut]
    cases backwards : (installerStem version).toList.reverse with
    | nil =>
      have head := installerStem_head version
      rw [List.reverse_eq_nil_iff.mp backwards] at head
      cases head
    | cons last others =>
      change String.ofList (last :: others).reverse = installerStem version
      rw [← backwards, List.reverse_reverse, String.ofList_toList]
  have parts : ∀ a b c : String, (a ++ b ++ c).toList = a.toList ++ (b.toList ++ c.toList) := by
    simp
  have ending : ".".toList ++ "exe.part".toList = ".exe".toList ++ ".part".toList := by decide
  rw [partialName, withExtension, stem, installerName_toList, List.append_assoc, ← ending]
  exact parts _ _ _

theorem partialName_ne_installerName (version other : String) :
    partialName version ≠ installerName other := by
  intro same
  have last := congrArg (fun name => name.toList.reverse.head?) same
  have part : ".part".toList.reverse.head? = some 't' := by decide
  have exe : ".exe".toList.reverse.head? = some 'e' := by decide
  simp only [partialName_toList, installerName_toList other, List.reverse_append,
    List.head?_append, part, exe, Option.some_or] at last
  exact absurd last (by decide)

theorem staysInside_of_head {name : String} (head : name.toList.head? = some 'C')
    (clean : ∀ separator ∈ ['/', '\\', ':', Char.ofNat 0], separator ∉ name.toList) :
    StaysInside name := by
  refine ⟨?_, ?_, ?_, clean⟩ <;> rintro rfl <;> exact absurd head (by decide)

theorem names_stayInside {version : String} {parsed : TestVersion}
    (accepted : testVersion version = .ok parsed) :
    StaysInside (installerName version) ∧ StaysInside (partialName version) := by
  have outside : ∀ separator ∈ ['/', '\\', ':', Char.ofNat 0], ¬ IsVersionChar separator := by
    simp only [List.forall_mem_cons, IsVersionChar]
    refine ⟨?_, ?_, ?_, ?_, nofun⟩ <;> decide
  have frame : ∀ separator ∈ ['/', '\\', ':', Char.ofNat 0],
      separator ∉ "Clash-Verge-Clew-Internal_".toList ∧ separator ∉ "_x64-setup".toList ∧
        separator ∉ ".exe".toList ∧ separator ∉ ".part".toList := by
    simp only [List.forall_mem_cons]
    refine ⟨?_, ?_, ?_, ?_, nofun⟩ <;> decide
  have clean : ∀ separator ∈ ['/', '\\', ':', Char.ofNat 0],
      separator ∉ (installerName version).toList := by
    intro separator listed
    obtain ⟨lead, trail, exe, -⟩ := frame separator listed
    have inside := fun member =>
      outside separator listed (testVersion_chars accepted separator member)
    simp only [installerName_toList, installerStem_toList, List.mem_append, not_or]
    exact ⟨⟨⟨lead, inside⟩, trail⟩, exe⟩
  have head : (installerName version).toList.head? = some 'C' := by
    rw [installerName_toList, List.head?_append, installerStem_head]
    rfl
  constructor
  · exact staysInside_of_head head clean
  · refine staysInside_of_head ?_ fun separator listed => ?_
    · rw [partialName_toList, List.head?_append, head]
      rfl
    rw [partialName_toList, List.mem_append, not_or]
    exact ⟨clean separator listed, (frame separator listed).2.2.2⟩

end ClashVerge.TestingUpdate
