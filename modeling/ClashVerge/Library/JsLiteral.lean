import Mathlib.Data.List.Basic

/-!
# String literals of JavaScript

A literal begins with one of two quotes and ends with the next one that no backslash escapes. Its
value is a list of UTF-16 code units. The escape sequences are those of programs that are not
strict, so that octal ones are read as well.
-/

namespace JsLiteral

def encodeCodePoint (point : Nat) : List UInt16 :=
  if point < 0x10000 then [UInt16.ofNat point]
  else [UInt16.ofNat (0xD800 + (point - 0x10000) / 0x400),
    UInt16.ofNat (0xDC00 + (point - 0x10000) % 0x400)]

def encodeChar (char : Char) : List UInt16 := encodeCodePoint char.toNat

def utf16 (text : List Char) : List UInt16 := text.flatMap encodeChar

def lineTerminators : List Char := ['\n', '\r', '\u2028', '\u2029']

def digitValue (char : Char) : Option Nat :=
  if '0' ≤ char ∧ char ≤ '9' then some (char.toNat - '0'.toNat)
  else if 'a' ≤ char ∧ char ≤ 'f' then some (char.toNat - 'a'.toNat + 10)
  else if 'A' ≤ char ∧ char ≤ 'F' then some (char.toNat - 'A'.toNat + 10)
  else none

def isOctalDigit (char : Char) : Bool := '0' ≤ char && char ≤ '7'

def number (base : Nat) (digits : List Char) : Option Nat :=
  digits.foldlM (fun value char => (digitValue char).map (value * base + ·)) 0

/-- What a backslash makes of a character that begins no longer sequence. -/
def escapedChar (char : Char) : Char :=
  match char with
  | 'b' => '\x08'
  | 't' => '\t'
  | 'n' => '\n'
  | 'v' => '\x0B'
  | 'f' => '\x0C'
  | 'r' => '\r'
  | char => char

def bracedEscape (rest : List Char) : Option (List UInt16 × Nat) :=
  let digits := rest.takeWhile fun char => (digitValue char).isSome
  match number 16 digits with
  | some point =>
    if digits ≠ [] ∧ point ≤ 0x10FFFF ∧ rest[digits.length]? = some '}' then
      some (encodeCodePoint point, digits.length + 3)
    else none
  | none => none

/-- A number of hexadecimal digits. -/
def hexEscape (count : Nat) (rest : List Char) : Option (List UInt16 × Nat) :=
  if rest.length < count then none
  else (number 16 (rest.take count)).map fun unit => ([UInt16.ofNat unit], count + 1)

/-- At most three octal digits, and two if the number would not fit into a byte. -/
def octalEscape (text : List Char) : Option (List UInt16 × Nat) :=
  let width := if text.head?.any (· ≤ '3') then 3 else 2
  let digits := (text.take width).takeWhile isOctalDigit
  (number 8 digits).map fun unit => ([UInt16.ofNat unit], digits.length)

/-- The sequence behind a backslash: what it stands for, and how many characters it has. -/
def escape : List Char → Option (List UInt16 × Nat)
  | [] => none
  | '\r' :: '\n' :: _ => some ([], 2)
  | 'x' :: rest => hexEscape 2 rest
  | 'u' :: '{' :: rest => bracedEscape rest
  | 'u' :: rest => hexEscape 4 rest
  | char :: rest =>
    if char ∈ lineTerminators then some ([], 1)
    else if isOctalDigit char then octalEscape (char :: rest)
    else some (encodeChar (escapedChar char), 1)

/-- Put code units before a value. -/
def before (units : List UInt16) (read : List UInt16 × List Char) : List UInt16 × List Char :=
  (units ++ read.1, read.2)

/-- The value up to the quote, and what comes behind it. -/
def scan (quote : Char) : List Char → Option (List UInt16 × List Char)
  | [] => none
  | char :: rest =>
    if char = quote then some ([], rest)
    else if char = '\\' then
      match escape rest with
      | some (units, length) => (scan quote (rest.drop length)).map (before units)
      | none => none
    else if char = '\n' ∨ char = '\r' then none
    else (scan quote rest).map (before (encodeChar char))
termination_by text => text.length
decreasing_by
  · rw [List.length_drop, List.length_cons]
    omega
  · exact Nat.lt_succ_self _

/-- The literal at the start of a text: its value, and what comes behind it. -/
def stringLiteral : List Char → Option (List UInt16 × List Char)
  | quote :: rest => if quote = '\'' ∨ quote = '"' then scan quote rest else none
  | [] => none

/-- The characters that no backslash escapes, with the backslashes that escape nothing. -/
def unescaped : List Char → List Char
  | '\\' :: _ :: rest => unescaped rest
  | char :: rest => char :: unescaped rest
  | [] => []

theorem scan_quote (quote : Char) (rest : List Char) :
    scan quote (quote :: rest) = some ([], rest) := by
  rw [scan, if_pos rfl]

/-- A character that stands for itself. The separators of lines and paragraphs are such. -/
theorem scan_plain {quote char : Char} (rest : List Char) (other : char ≠ quote)
    (unescaped : char ≠ '\\') (inLine : char ≠ '\n' ∧ char ≠ '\r') :
    scan quote (char :: rest) = (scan quote rest).map (before (encodeChar char)) := by
  rw [scan, if_neg other, if_neg unescaped, if_neg (not_or.mpr inLine)]

/-- A character that begins no longer sequence behind the backslash. -/
def Single (char : Char) : Prop :=
  char ∉ lineTerminators ∧ isOctalDigit char = false ∧ char ≠ 'x' ∧ char ≠ 'u'

instance : DecidablePred Single := fun _ => inferInstanceAs (Decidable (_ ∧ _ ∧ _ ∧ _))

theorem escape_single {char : Char} (single : Single char) (rest : List Char) :
    escape (char :: rest) = some (encodeChar (escapedChar char), 1) := by
  obtain ⟨inLine, octal, hex, braced⟩ := single
  unfold escape
  split
  · contradiction
  · simp_all [lineTerminators]
  · simp_all
  · simp_all
  · simp_all
  · simp_all

theorem scan_single {quote char : Char} (single : Single char) (rest : List Char)
    (other : '\\' ≠ quote) : scan quote ('\\' :: char :: rest) =
      (scan quote rest).map (before (encodeChar (escapedChar char))) := by
  rw [scan, if_neg other, if_pos rfl, escape_single single]
  rfl

theorem scan_flatMap {quote : Char} {write : Char → List Char} {text : List Char}
    (reads : ∀ char ∈ text, ∀ rest,
      scan quote (write char ++ rest) = (scan quote rest).map (before (encodeChar char)))
    (rest : List Char) :
    scan quote (text.flatMap write ++ rest) = (scan quote rest).map (before (utf16 text)) := by
  induction text with
  | nil =>
    have same : before (utf16 []) = id := rfl
    rw [List.flatMap_nil, List.nil_append, same, Option.map_id_fun, id]
  | cons char others ih =>
    have later := ih fun each listed => reads each (List.mem_cons_of_mem _ listed)
    rw [List.flatMap_cons, List.append_assoc, reads char List.mem_cons_self, later, Option.map_map]
    congr 1
    funext read
    simp [before, utf16]

theorem unescaped_plain {char : Char} (plain : char ≠ '\\') (rest : List Char) :
    unescaped (char :: rest) = char :: unescaped rest := by
  rw [unescaped]
  intro _ _ same
  exact absurd same plain

end JsLiteral
