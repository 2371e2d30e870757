import Mathlib.Data.List.Infix
import ClashVerge.ProxyList.FilterSort

/-!
# Searching for names

With the option for whole words the text that is searched for stands between two `\b`, which ask for
a change between word characters and others. Without regard to case the pattern compares what
`Canonicalize` makes of the code units, and the search without it compares lower case.
-/

namespace ClashVerge.ProxyList

open UriParser (Text CodeUnit unit text isDigit isLetter isWhiteSpace)

/-- `\w`. -/
def isWordChar (char : CodeUnit) : Bool := isDigit char || isLetter char || char == unit '_'

/-- `\b` between two parts of a text. -/
def boundary (before after : Text) : Bool :=
  before.getLast?.any isWordChar != after.head?.any isWordChar

/-- What a text between two `\b` finds in a content. -/
def findsWord (fold : CodeUnit → CodeUnit) (query content : Text) : Bool :=
  (List.range (content.length + 1)).any fun start =>
    let behind := content.drop start
    (behind.take query.length).map fold == query.map fold &&
      boundary (content.take start) behind &&
      boundary (content.take (start + query.length)) (behind.drop query.length)

def upperAscii (char : CodeUnit) : CodeUnit :=
  if unit 'a' ≤ char ∧ char ≤ unit 'z' then char - 32 else char

/-- `Canonicalize` without the flag `u`. -/
def canonicalize (toUpperCase : CodeUnit → Text) (char : CodeUnit) : CodeUnit :=
  match toUpperCase char with
  | [upper] => if 128 ≤ char ∧ upper < 128 then char else upper
  | _ => char

def WordEnds (query : Text) : Prop := query.head?.any isWordChar ∧ query.getLast?.any isWordChar

/-- What ECMAScript says. Lower case does not look over a word character, and of texts that only
differ in case it is equally long. -/
structure ECMAScript (platform : Platform) (toUpperCase : CodeUnit → Text) (query : Text) : Prop where
  exact : platform.regExp (text "\\b" ++ escapeRegex query ++ text "\\b") [] =
    some (findsWord id query)
  folded : platform.regExp (text "\\b" ++ escapeRegex query ++ text "\\b") (text "i") =
    some (findsWord (canonicalize toUpperCase) query)
  ascii : ∀ char < 128, toUpperCase char = [upperAscii char]
  apart : ∀ before found after, WordEnds found → ∃ left right,
    platform.toLowerCase (before ++ (found ++ after)) =
      left ++ (platform.toLowerCase found ++ right)
  length : ∀ one other,
    one.map (canonicalize toUpperCase) = other.map (canonicalize toUpperCase) →
      (platform.toLowerCase one).length = (platform.toLowerCase other).length

/-- The search, without regular expressions, accepts the content. -/
def Accepts (platform : Platform) (query : Text) (matchCase matchWholeWord : Bool)
    (content : Text) : Prop :=
  ∃ matcher, compileStringMatcher platform query matchCase matchWholeWord false = some matcher ∧
    matcher content = true

structure Narrows (platform : Platform) (query : Text) : Prop where
  itself : ∀ matchCase matchWholeWord, Accepts platform query matchCase matchWholeWord query
  bounded : ∀ matchCase before after, before.getLast?.all isWhiteSpace →
    after.head?.all isWhiteSpace →
    Accepts platform query matchCase true (before ++ (query ++ after))
  narrower : ∀ matchCase content, Accepts platform query matchCase true content →
    Accepts platform query matchCase false content

def Folds (platform : Platform) (toUpperCase : CodeUnit → Text) (query : Text) : Prop :=
  ∀ other : Text, other.map (canonicalize toUpperCase) = query.map (canonicalize toUpperCase) →
    platform.toLowerCase other = platform.toLowerCase query

section

variable {platform : Platform} {toUpperCase : CodeUnit → Text} {query found content : Text}
  {fold : CodeUnit → CodeUnit}

theorem includes_iff {target : Text} : includes content target = true ↔ target <:+: content := by
  simp [includes, List.any_eq_true, List.infix_iff_prefix_suffix, List.mem_tails, and_comm]

theorem findsWord_iff : findsWord fold query content = true ↔ ∃ before found after,
    content = before ++ (found ++ after) ∧ found.map fold = query.map fold ∧
      boundary before (found ++ after) ∧ boundary (before ++ found) after := by
  simp only [findsWord, List.any_eq_true, List.mem_range, Bool.and_eq_true, beq_iff_eq]
  constructor
  · rintro ⟨start, -, ⟨same, first⟩, last⟩
    refine ⟨content.take start, (content.drop start).take query.length,
      (content.drop start).drop query.length, ?_, same, ?_, ?_⟩
    · rw [List.take_append_drop, List.take_append_drop]
    · rwa [List.take_append_drop]
    · rwa [← List.take_add]
  · rintro ⟨before, found, after, rfl, same, first, last⟩
    have length : query.length = found.length := by simpa using (congrArg List.length same).symm
    refine ⟨before.length, by simp only [List.length_append]; omega, ⟨?_, ?_⟩, ?_⟩
    · simpa [length] using same
    · simpa using first
    · simpa [length, ← List.append_assoc, List.take_left'] using last

theorem isWordChar_high {char : CodeUnit} (high : 128 ≤ char) : isWordChar char = false := by
  have above : 128 ≤ char.toNat := UInt16.le_iff_toNat_le.mp high
  have apart (letter : CodeUnit) (low : letter.toNat < 128) : ¬ char ≤ letter := fun within => by
    have := UInt16.le_iff_toNat_le.mp within
    omega
  have other : char ≠ unit '_' := fun same => apart char (by rw [same]; decide) (UInt16.le_refl _)
  simp [isWordChar, isDigit, isLetter, apart (unit '9') (by decide), apart (unit 'z') (by decide),
    apart (unit 'Z') (by decide), other]

theorem of_low {property : CodeUnit → Prop} (all : ∀ code : Fin 128, property (UInt16.ofNat code))
    {char : CodeUnit} (low : char < 128) : property char := by
  have own := all ⟨char.toNat, UInt16.lt_iff_toNat_lt.mp low⟩
  rwa [UInt16.ofNat_toNat] at own

theorem isWordChar_of_isWhiteSpace {char : CodeUnit} (blank : isWhiteSpace char) :
    isWordChar char = false := by
  by_cases low : char < 128
  · exact @of_low (fun char => isWhiteSpace char → isWordChar char = false) (by decide) char low
      blank
  · exact isWordChar_high (UInt16.not_lt.mp low)

theorem isWordChar_canonicalize (ascii : ∀ char < 128, toUpperCase char = [upperAscii char])
    (char : CodeUnit) : isWordChar (canonicalize toUpperCase char) = isWordChar char := by
  by_cases low : char < 128
  · have own : isWordChar (upperAscii char) = isWordChar char :=
      @of_low (fun char => isWordChar (upperAscii char) = isWordChar char) (by decide) char low
    rw [canonicalize, ascii char low]
    simpa [UInt16.not_le.mpr low] using own
  · have high : 128 ≤ char := UInt16.not_lt.mp low
    rw [isWordChar_high high, isWordChar_high]
    unfold canonicalize
    split
    · split
      · exact high
      · rename_i kept
        exact UInt16.not_lt.mp fun small => kept ⟨high, small⟩
    · exact high

theorem wordEnds_congr (same : found.map fold = query.map fold)
    (word : ∀ char, isWordChar (fold char) = isWordChar char) : WordEnds found ↔ WordEnds query := by
  have head (value : Text) : value.head?.any isWordChar = (value.map fold).head?.any isWordChar := by
    cases value <;> simp [word]
  have last (value : Text) :
      value.getLast?.any isWordChar = (value.map fold).getLast?.any isWordChar := by
    rw [List.getLast?_map]
    cases value.getLast? <;> simp [word]
  rw [WordEnds, WordEnds, head, last, same, ← head, ← last]

theorem findsWord_of_ends {before after : Text} (same : found.map fold = query.map fold)
    (ends : WordEnds found) (left : before.getLast?.any isWordChar = false)
    (right : after.head?.any isWordChar = false) :
    findsWord fold query (before ++ (found ++ after)) = true := by
  refine findsWord_iff.mpr ⟨before, found, after, rfl, same, ?_, ?_⟩
  · have head : (found ++ after).head?.any isWordChar = true := by
      cases found with
      | nil => cases ends.1
      | cons first rest => exact ends.1
    rw [boundary, left, head]
    rfl
  · have last : (before ++ found).getLast?.any isWordChar = true := by
      have nonempty : found ≠ [] := by
        rintro rfl
        cases ends.1
      rw [List.getLast?_append_of_ne_nil _ nonempty]
      exact ends.2
    rw [boundary, right, last]
    rfl

theorem accepts_word (script : ECMAScript platform toUpperCase query) (some_ : query ≠ [])
    (matchCase : Bool) : Accepts platform query matchCase true content ↔
      findsWord (if matchCase then id else canonicalize toUpperCase) query content = true := by
  cases matchCase <;>
    simp [-List.append_assoc, Accepts, compileStringMatcher, some_, script.exact, script.folded]

theorem accepts_plain (some_ : query ≠ []) (matchCase : Bool) :
    Accepts platform query matchCase false content ↔
      if matchCase then query <:+: content
      else platform.toLowerCase query <:+: platform.toLowerCase content := by
  cases matchCase <;> simp [Accepts, compileStringMatcher, some_, includes_iff]

theorem wordEnds_of_itself (script : ECMAScript platform toUpperCase query) (some_ : query ≠ [])
    (itself : Accepts platform query true true query) : WordEnds query := by
  obtain ⟨before, found, after, whole, same, first, last⟩ :=
    findsWord_iff.mp ((accepts_word script some_ true).mp itself)
  obtain rfl : found = query := by simpa using same
  have lengths := congrArg List.length whole
  simp only [List.length_append] at lengths
  obtain rfl : before = [] := List.eq_nil_of_length_eq_zero (by omega)
  obtain rfl : after = [] := List.eq_nil_of_length_eq_zero (by omega)
  exact ⟨by simpa [boundary] using first, by simpa [boundary] using last⟩

/-- The search narrows what it finds, and finds the query itself, just if the query begins and ends
with word characters and its lower case is that of the query in other cases. -/
theorem narrows_iff (script : ECMAScript platform toUpperCase query) (some_ : query ≠ []) :
    Narrows platform query ↔ WordEnds query ∧ Folds platform toUpperCase query := by
  have word := isWordChar_canonicalize script.ascii
  constructor
  · intro narrows
    have ends := wordEnds_of_itself script some_ (narrows.itself true true)
    refine ⟨ends, fun other same => ?_⟩
    have whole : findsWord (canonicalize toUpperCase) query other = true := by
      simpa using @findsWord_of_ends query other _ [] [] same
        ((wordEnds_congr same word).mpr ends) rfl rfl
    have found := (accepts_plain some_ false).mp
      (narrows.narrower false other ((accepts_word script some_ false).mpr whole))
    exact (found.eq_of_length (script.length _ _ same).symm).symm
  · rintro ⟨ends, folds⟩
    have outside {char : Option CodeUnit} (blank : char.all isWhiteSpace) :
        char.any isWordChar = false := by
      cases char with
      | none => rfl
      | some char => exact isWordChar_of_isWhiteSpace blank
    have bounded (matchCase : Bool) (before after : Text) (left : before.getLast?.all isWhiteSpace)
        (right : after.head?.all isWhiteSpace) :
        Accepts platform query matchCase true (before ++ (query ++ after)) :=
      (accepts_word script some_ matchCase).mpr
        (findsWord_of_ends rfl ends (outside left) (outside right))
    refine ⟨fun matchCase matchWholeWord => ?_, bounded, fun matchCase content accepted => ?_⟩
    · cases matchWholeWord with
      | true => simpa using bounded matchCase [] [] rfl rfl
      | false => cases matchCase <;> simp [accepts_plain some_]
    · obtain ⟨before, found, after, rfl, same, -⟩ :=
        findsWord_iff.mp ((accepts_word script some_ matchCase).mp accepted)
      rw [accepts_plain some_]
      cases matchCase with
      | true =>
        obtain rfl : found = query := by simpa using same
        simp
      | false =>
        have same : found.map (canonicalize toUpperCase) =
          query.map (canonicalize toUpperCase) := same
        obtain ⟨left, right, parts⟩ := script.apart before found after
          ((wordEnds_congr same word).mpr ends)
        rw [parts, folds found same]
        exact ⟨left, right, by simp⟩

end

def wordPlatform (query : Text) : Platform :=
  { asciiPlatform with
    regExp := fun _ flags =>
      some (findsWord (if flags = [] then id else canonicalize fun char => [upperAscii char]) query) }

theorem script_wordPlatform (query : Text) :
    ECMAScript (wordPlatform query) (fun char => [upperAscii char]) query where
  exact := rfl
  folded := rfl
  ascii _ _ := rfl
  apart before found after _ := ⟨_, _, by simp [wordPlatform, asciiPlatform]; rfl⟩
  length one other same := by simpa [wordPlatform, asciiPlatform] using congrArg List.length same

theorem narrows_iff_mark : ¬ Narrows (wordPlatform (text "!")) (text "!") := fun narrows =>
  absurd ((narrows_iff (script_wordPlatform _) (by decide)).mp narrows).1.1 (by decide)

/-- Searched for as a whole word, an exclamation mark is not found in itself. -/
theorem mark_not_found :
    ¬ ∀ (platform : Platform) (toUpperCase : CodeUnit → Text) (query : Text), query ≠ [] →
      ECMAScript platform toUpperCase query → Narrows platform query := by
  intro all
  have narrows := all _ _ (text "!") (by decide) (script_wordPlatform _)
  have ends := wordEnds_of_itself (script_wordPlatform _) (by decide) (narrows.itself true true)
  exact absurd ends.1 (by decide)

end ClashVerge.ProxyList
