import ClashVerge.Library.Delimited
import Mathlib.Data.List.TakeWhile

/-!
# Texts and values of the link parsers

A text is its UTF-16 code units. A value is what `JSON.parse` can give, or `undefined`; that no such
value is a function decides which of them can be turned into a text.

The functions of the platform that are large tables or decoders are parameters.
-/

namespace ClashVerge.UriParser

open Delimited

abbrev CodeUnit : Type := UInt16

abbrev Text : Type := List CodeUnit

def unit (char : Char) : CodeUnit := UInt16.ofNat char.toNat

def text (literal : String) : Text := literal.toList.map unit

theorem unit_toNat {char : Char} (small : char.toNat < 0x10000) :
    (unit char).toNat = char.toNat := by
  rw [unit, UInt16.toNat_ofNat']
  exact Nat.mod_eq_of_lt small

theorem forall_of_all {Member : Type} {property : Member → Prop} [DecidablePred property]
    {members : List Member} (all : members.all (fun each => property each) = true) :
    ∀ each ∈ members, property each := by
  simpa using all

/-! ## Texts -/

/-- The code units `.` does not match in a pattern. -/
def isLineTerminator (char : CodeUnit) : Bool :=
  char == 0x0A || char == 0x0D || char == 0x2028 || char == 0x2029

/-- White space and line terminators, which are what `trim` takes off and what `\s` matches. -/
def isWhiteSpace (char : CodeUnit) : Bool :=
  (0x09 ≤ char && char ≤ 0x0D) || char == 0x20 || char == 0xA0 || char == 0x1680 ||
    (0x2000 ≤ char && char ≤ 0x200A) || isLineTerminator char || char == 0x202F ||
    char == 0x205F || char == 0x3000 || char == 0xFEFF

def isDigit (char : CodeUnit) : Bool := unit '0' ≤ char && char ≤ unit '9'

def isLetter (char : CodeUnit) : Bool :=
  (unit 'a' ≤ char && char ≤ unit 'z') || (unit 'A' ≤ char && char ≤ unit 'Z')

def isUpper (char : CodeUnit) : Bool := unit 'A' ≤ char && char ≤ unit 'Z'

def isHexDigit (char : CodeUnit) : Bool :=
  isDigit char || (unit 'a' ≤ char && char ≤ unit 'f') || (unit 'A' ≤ char && char ≤ unit 'F')

/-- An ASCII letter in lower case, as a pattern that ignores the case sees it. -/
def lowerAscii (char : CodeUnit) : CodeUnit :=
  if unit 'A' ≤ char && char ≤ unit 'Z' then char + 32 else char

theorem isUpper_lowerAscii (char : CodeUnit) : isUpper (lowerAscii char) = false := by
  have first : (unit 'A').toNat = 65 := rfl
  have last : (unit 'Z').toNat = 90 := rfl
  have gap : (32 : CodeUnit).toNat = 32 := rfl
  unfold lowerAscii isUpper
  split <;>
    simp_all only [Bool.and_eq_true, Bool.and_eq_false_iff, decide_eq_true_eq,
      decide_eq_false_iff_not, UInt16.le_iff_toNat_le, UInt16.toNat_add] <;>
    omega

theorem isUpper_of_mem_map {value : Text} {char : CodeUnit}
    (inside : char ∈ value.map lowerAscii) : isUpper char = false := by
  obtain ⟨each, -, rfl⟩ := List.mem_map.mp inside
  exact isUpper_lowerAscii each

def trim (value : Text) : Text :=
  ((value.dropWhile isWhiteSpace).reverse.dropWhile isWhiteSpace).reverse

theorem trim_ne_nil {value : Text} {char : CodeUnit} (inside : char ∈ value)
    (visible : isWhiteSpace char = false) : trim value ≠ [] := by
  intro empty
  have left : char ∈ value.dropWhile isWhiteSpace := by
    rw [← List.takeWhile_append_dropWhile (p := isWhiteSpace) (l := value)] at inside
    refine (List.mem_append.mp inside).resolve_left fun taken => ?_
    simp [List.mem_takeWhile_imp taken] at visible
  rw [trim, List.reverse_eq_nil_iff, List.dropWhile_eq_nil_iff] at empty
  simp [empty char (List.mem_reverse.mpr left)] at visible

theorem trim_of_visible {value : Text} (visible : ∀ each ∈ value, isWhiteSpace each = false) :
    trim value = value := by
  have same (text_ : Text) (clear : ∀ each ∈ text_, isWhiteSpace each = false) :
      text_.dropWhile isWhiteSpace = text_ := by
    cases text_ with
    | nil => rfl
    | cons first rest => rw [List.dropWhile_cons, if_neg (by simp [clear first List.mem_cons_self])]
  rw [trim, same value visible, same _ fun each inside => visible each (List.mem_reverse.mp inside),
    List.reverse_reverse]

/-- `lastIndexOf`: what is before the last occurrence of the mark, and what is behind it. -/
def splitLast (mark : CodeUnit) (value : Text) : Option (Text × Text) :=
  (splitOnce mark value.reverse).map fun parts => (parts.2.reverse, parts.1.reverse)

/-- `split(delimiter)[0]`. -/
def beforeFirst (delimiter value : Text) : Text :=
  match splitOnceAt delimiter value with
  | some (before, _) => before
  | none => value

/-- `split(delimiter)[1]`. -/
def betweenFirst (delimiter value : Text) : Option Text :=
  (splitOnceAt delimiter value).map fun parts => beforeFirst delimiter parts.2

/-- The number that decimal digits denote. -/
def digitsValue (digits : Text) : Nat :=
  digits.foldl (fun value digit => value * 10 + (digit.toNat - 48)) 0

def decimal (value : Nat) : Text := (Nat.toDigits 10 value).map unit

theorem digit_of_mem {value : Nat} {char : Char} (inside : char ∈ Nat.toDigits 10 value) :
    char.isDigit = true := Nat.isDigit_of_mem_toDigits (by decide) (by decide) inside

theorem isDigit_range {char : Char} (digit : char.isDigit = true) :
    48 ≤ char.toNat ∧ char.toNat ≤ 57 := by
  simp only [Char.isDigit, Bool.and_eq_true, decide_eq_true_eq] at digit
  exact digit

theorem digitsValue_map (digits : List Char) (all : ∀ char ∈ digits, char.isDigit = true)
    (start : Nat) :
    (digits.map unit).foldl (fun value digit => value * 10 + (digit.toNat - 48)) start =
      Nat.ofDigitChars 10 digits start := by
  induction digits generalizing start with
  | nil => rfl
  | cons char rest ih =>
    have range := isDigit_range (all char List.mem_cons_self)
    have others := ih fun each listed => all each (List.mem_cons_of_mem _ listed)
    rw [List.map_cons, List.foldl_cons, Nat.ofDigitChars_cons, unit_toNat (by omega), others,
      Nat.mul_comm]
    rfl

theorem digitsValue_decimal (value : Nat) : digitsValue (decimal value) = value := by
  rw [digitsValue, decimal, digitsValue_map _ fun _ => digit_of_mem]
  exact Nat.ofDigitChars_ten_toDigits

theorem decimal_digits (value : Nat) : ∀ each ∈ decimal value, isDigit each = true := by
  intro each inside
  obtain ⟨char, listed, rfl⟩ := List.mem_map.mp inside
  have range := isDigit_range (digit_of_mem listed)
  have own := unit_toNat (show char.toNat < 0x10000 by omega)
  simp only [isDigit, Bool.and_eq_true, decide_eq_true_eq, UInt16.le_iff_toNat_le, own]
  exact range

theorem digit_visible {each : CodeUnit} (digit : isDigit each = true) :
    isWhiteSpace each = false := by
  have range : 48 ≤ each.toNat ∧ each.toNat ≤ 57 := by
    simp only [isDigit, Bool.and_eq_true, decide_eq_true_eq, UInt16.le_iff_toNat_le] at digit
    exact digit
  have all : ∀ code < 58, 48 ≤ code → isWhiteSpace (UInt16.ofNat code) = false := by decide
  have found := all each.toNat (by omega) range.1
  rwa [UInt16.ofNat_toNat] at found

/-! ## Values -/

inductive Number where
  | integer (value : Int)
  | other (shown : Text)
deriving DecidableEq, Repr

namespace Number

def shown : Number → Text
  | integer value => if value < 0 then unit '-' :: decimal value.natAbs else decimal value.natAbs
  | other shown => shown

/-- Only zero is falsy; what is not a number does not occur. -/
def truthy : Number → Bool
  | integer value => value != 0
  | other _ => true

end Number

inductive Js where
  | undefined
  | null
  | bool (value : Bool)
  | number (value : Number)
  | string (value : Text)
  | array (items : List Js)
  | object (entries : List (Text × Js))

inductive Failure where
  | error (message : Text)
  | typeError
deriving DecidableEq, Repr

/-- `throw new Error(message)`. -/
def fails {Result : Type} (message : String) : Except Failure Result :=
  .error (.error (text message))

namespace Js

def isNullish : Js → Bool
  | undefined | null => true
  | _ => false

def truthy : Js → Bool
  | undefined | null => false
  | bool value => value
  | number value => value.truthy
  | string value => !value.isEmpty
  | array _ | object _ => true

/-- `??`. -/
def orElse (value other : Js) : Js := if value.isNullish then other else value

/-- A property of an object; the parsers read none that objects inherit. -/
def get (key : String) : Js → Js
  | object entries => ((entries.find? fun entry => entry.1 == text key).map Prod.snd).getD undefined
  | _ => undefined

mutual

/-- `String(value)`. An own property `toString` hides the inherited method. -/
def toStr : Js → Except Failure Text
  | undefined => .ok (text "undefined")
  | null => .ok (text "null")
  | bool value => .ok (text (if value then "true" else "false"))
  | number value => .ok value.shown
  | string value => .ok value
  | array items => do
    let shown ← itemsToStr items
    return [unit ','].intercalate shown
  | object entries =>
    if entries.any fun entry => entry.1 == text "toString" then .error .typeError
    else .ok (text "[object Object]")

/-- The items of an array as `join` shows them. -/
def itemsToStr : List Js → Except Failure (List Text)
  | [] => .ok []
  | item :: rest => do
    let shown ← if item.isNullish then .ok [] else toStr item
    let others ← itemsToStr rest
    return shown :: others

end

end Js

/-! ## The platform -/

/-- What the parsers use of the platform. -/
structure Platform where
  toLowerCase : Text → Text
  /-- No letter that has a lower case is left. -/
  lower : ∀ value, ∀ char ∈ toLowerCase value, isUpper char = false
  /-- The bytes that a base64 text stands for, if it is one. -/
  atob : Text → Option (List UInt8)
  /-- `TextDecoder` for UTF-8, which is told to fail. -/
  decodeUtf8 : List UInt8 → Option Text
  decodeURIComponent : Text → Option Text
  jsonParse : Text → Option Js
  /-- The text of the number nearest to an integer that is not represented exactly. -/
  nearest : Int → Text

def Platform.ofInt (platform : Platform) (value : Int) : Number :=
  if value.natAbs < 9007199254740992 then .integer value else .other (platform.nearest value)

end ClashVerge.UriParser
