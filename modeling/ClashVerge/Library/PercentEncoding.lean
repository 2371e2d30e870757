import ClashVerge.Library.Delimited
import ClashVerge.Library.Utf8

/-!
# Percent encoding

A percent sign with two hexadecimal digits stands for a byte; one without them stands for itself. An
encoding escapes at least the bytes that have a meaning in a URL and is read back as the text.
-/

namespace PercentEncoding

open Delimited

def hexValue (digit : UInt8) : Option Nat :=
  let value := digit.toNat
  if 48 ≤ value ∧ value ≤ 57 then some (value - 48)
  else if 65 ≤ value ∧ value ≤ 70 then some (value - 55)
  else if 97 ≤ value ∧ value ≤ 102 then some (value - 87)
  else none

/-- The bytes that are meant. -/
def percentDecode : List UInt8 → List UInt8
  | first :: second :: third :: rest =>
    if first = 37 then
      match hexValue second, hexValue third with
      | some high, some low => UInt8.ofNat (high * 16 + low) :: percentDecode rest
      | _, _ => first :: percentDecode (second :: third :: rest)
    else first :: percentDecode (second :: third :: rest)
  | short => short

/-- The text that is meant, read without failing. -/
def decode (encoded : List UInt8) : List UInt8 := Utf8.lossy (percentDecode encoded)

/-- Letters, digits and the marks that no URL gives a meaning. -/
def isUnreserved (byte : UInt8) : Bool :=
  (48 ≤ byte && byte ≤ 57) || (65 ≤ byte && byte ≤ 90) || (97 ≤ byte && byte ≤ 122) ||
    byte ∈ ([45, 95, 46, 33, 126, 42, 39, 40, 41] : List UInt8)

inductive Encodes : List UInt8 → List UInt8 → Prop where
  | nil : Encodes [] []
  | kept {byte encoded text} (unreserved : isUnreserved byte) (rest : Encodes encoded text) :
      Encodes (byte :: encoded) (byte :: text)
  | escaped {byte first second high low encoded text} (upper : hexValue first = some high)
      (lower : hexValue second = some low) (value : byte = UInt8.ofNat (high * 16 + low))
      (rest : Encodes encoded text) :
      Encodes (37 :: first :: second :: encoded) (byte :: text)

theorem percentDecode_cons_of_ne {byte : UInt8} (other : byte ≠ 37) (rest : List UInt8) :
    percentDecode (byte :: rest) = byte :: percentDecode rest := by
  rcases rest with _ | ⟨second, _ | ⟨third, others⟩⟩
  · rfl
  · rfl
  · rw [percentDecode, if_neg other]

theorem percentDecode_escaped {first second : UInt8} {high low : Nat}
    (upper : hexValue first = some high) (lower : hexValue second = some low)
    (rest : List UInt8) :
    percentDecode (37 :: first :: second :: rest) =
      UInt8.ofNat (high * 16 + low) :: percentDecode rest := by
  rw [percentDecode, if_pos rfl, upper, lower]

/-- Two digits follow. -/
def opens : List UInt8 → Bool
  | first :: second :: _ => (hexValue first).isSome && (hexValue second).isSome
  | _ => false

theorem percentDecode_of_not_opens {rest : List UInt8} (alone : opens rest = false) :
    percentDecode (37 :: rest) = 37 :: percentDecode rest := by
  rcases rest with _ | ⟨first, _ | ⟨second, others⟩⟩
  · rfl
  · rfl
  · rw [percentDecode, if_pos rfl]
    split
    · rename_i upper lower
      simp [opens, upper, lower] at alone
    · rfl

theorem opens_append {mark : UInt8} (digit : hexValue mark = none) (rest after : List UInt8) :
    opens (rest ++ mark :: after) = opens rest := by
  rcases rest with _ | ⟨first, _ | ⟨second, others⟩⟩
  · cases after <;> simp [opens, digit]
  · simp [opens, digit]
  · rfl

theorem percentDecode_worksApart {mark : UInt8} (plain : mark ≠ 37) (digit : hexValue mark = none) :
    WorksApart mark percentDecode := by
  intro before after
  have short : ∀ first rest, (first = 37 → opens rest = false) →
      percentDecode (rest ++ mark :: after) = percentDecode rest ++ mark :: percentDecode after →
        percentDecode (first :: (rest ++ mark :: after)) =
          percentDecode (first :: rest) ++ mark :: percentDecode after := by
    intro first rest alone ih
    by_cases percent : first = 37
    · subst percent
      rw [percentDecode_of_not_opens ((opens_append digit rest after).trans (alone rfl)),
        percentDecode_of_not_opens (alone rfl), ih]
      rfl
    · rw [percentDecode_cons_of_ne percent, percentDecode_cons_of_ne percent, ih]
      rfl
  induction before using percentDecode.induct with
  | case1 first second rest high low lower upper ih =>
    rw [List.cons_append, List.cons_append, List.cons_append, percentDecode_escaped upper lower,
      percentDecode_escaped upper lower, ih]
    rfl
  | case2 first second rest broken ih =>
    refine short 37 (first :: second :: rest) (fun _ => ?_) ih
    cases upper : hexValue first with
    | none => simp [opens, upper]
    | some high =>
      cases lower : hexValue second with
      | none => simp [opens, lower]
      | some low => exact (broken high low upper lower).elim
  | case3 first second third rest other ih =>
    exact short first (second :: third :: rest) (fun same => absurd same other) ih
  | case4 rest few =>
    have nothing := percentDecode_cons_of_ne plain after
    rcases rest with _ | ⟨first, _ | ⟨second, _ | ⟨third, others⟩⟩⟩
    · exact nothing
    · exact short first [] (fun _ => rfl) nothing
    · exact short first [second] (fun _ => rfl) (short second [] (fun _ => rfl) nothing)
    · exact absurd rfl (few first second third others)

theorem decode_worksApart {mark : UInt8} (ascii : mark.toNat < 128) (plain : mark ≠ 37)
    (digit : hexValue mark = none) : WorksApart mark decode :=
  WorksApart.comp (Utf8.lossy_append mark ascii) (percentDecode_worksApart plain digit)

/-- The digit of a value below sixteen, in upper case. -/
def hexDigit (value : Nat) : UInt8 :=
  if value < 10 then UInt8.ofNat (48 + value) else UInt8.ofNat (55 + value)

/-- The encoding that escapes every byte but the unreserved ones. -/
def percentEncode (text : List UInt8) : List UInt8 :=
  text.flatMap fun byte =>
    if isUnreserved byte then [byte]
    else [37, hexDigit (byte.toNat / 16), hexDigit (byte.toNat % 16)]

theorem hexValue_hexDigit {value : Nat} (small : value < 16) :
    hexValue (hexDigit value) = some value := by
  have byte : ∀ n, n < 256 → (UInt8.ofNat n).toNat = n := fun n bound => by
    simpa using Nat.mod_eq_of_lt bound
  by_cases decimal : value < 10
  · simp only [hexDigit, if_pos decimal, hexValue, byte (48 + value) (by omega)]
    rw [if_pos (by omega), Nat.add_sub_cancel_left]
  · simp only [hexDigit, if_neg decimal, hexValue, byte (55 + value) (by omega)]
    rw [if_neg (by omega), if_pos (by omega), Nat.add_sub_cancel_left]

theorem encodes_percentEncode (text : List UInt8) : Encodes (percentEncode text) text := by
  induction text with
  | nil => exact .nil
  | cons byte rest ih =>
    rw [percentEncode, List.flatMap_cons]
    by_cases unreserved : isUnreserved byte
    · rw [if_pos unreserved]
      exact .kept unreserved ih
    · rw [if_neg unreserved]
      have bound : byte.toNat < 256 := byte.toNat_lt
      have value : byte.toNat / 16 * 16 + byte.toNat % 16 = byte.toNat := Nat.div_add_mod' _ _
      refine .escaped (hexValue_hexDigit (by omega)) (hexValue_hexDigit (by omega)) ?_
        ih
      rw [value, UInt8.ofNat_toNat]

theorem printable_of_isUnreserved {byte : UInt8} (unreserved : isUnreserved byte) :
    33 ≤ byte ∧ byte ≤ 126 := by
  simp only [isUnreserved, Bool.or_eq_true, Bool.and_eq_true, decide_eq_true_eq] at unreserved
  rcases unreserved with ((⟨least, most⟩ | ⟨least, most⟩) | ⟨least, most⟩) | mark
  · exact ⟨UInt8.le_trans (by decide) least, UInt8.le_trans most (by decide)⟩
  · exact ⟨UInt8.le_trans (by decide) least, UInt8.le_trans most (by decide)⟩
  · exact ⟨UInt8.le_trans (by decide) least, UInt8.le_trans most (by decide)⟩
  · simp only [List.mem_cons, List.not_mem_nil, or_false] at mark
    rcases mark with rfl | rfl | rfl | rfl | rfl | rfl | rfl | rfl | rfl <;> decide

namespace Encodes
variable {encoded text : List UInt8}

theorem percentDecode_eq (encodes : Encodes encoded text) : percentDecode encoded = text := by
  induction encodes with
  | nil => rfl
  | @kept byte encoded text unreserved rest ih =>
    have other : byte ≠ 37 := by
      rintro rfl
      exact absurd unreserved (by decide)
    rw [percentDecode_cons_of_ne other, ih]
  | escaped upper lower value rest ih =>
    rw [percentDecode_escaped upper lower, ih, value]

theorem decode_eq {characters : List Char} (encodes : Encodes encoded (Utf8.encode characters)) :
    decode encoded = Utf8.encode characters := by
  rw [decode, encodes.percentDecode_eq, Utf8.lossy_encode]

theorem length_le (encodes : Encodes encoded text) : text.length ≤ encoded.length := by
  induction encodes with
  | nil => exact Nat.le_refl _
  | kept unreserved rest ih => simpa using ih
  | escaped upper lower value rest ih =>
    simp only [List.length_cons]
    omega

theorem isUnreserved_of_hexValue {digit : UInt8} {value : Nat} (hex : hexValue digit = some value) :
    isUnreserved digit := by
  have kinds : (48 ≤ digit.toNat ∧ digit.toNat ≤ 57 ∨ 65 ≤ digit.toNat ∧ digit.toNat ≤ 90) ∨
      97 ≤ digit.toNat ∧ digit.toNat ≤ 122 := by
    simp only [hexValue] at hex
    split_ifs at hex <;> omega
  simp only [isUnreserved, Bool.or_eq_true, Bool.and_eq_true, decide_eq_true_eq,
    UInt8.le_iff_toNat_le]
  exact .inl kinds

theorem bytes (encodes : Encodes encoded text) :
    ∀ byte ∈ encoded, byte = 37 ∨ isUnreserved byte := by
  induction encodes with
  | nil => exact fun _ member => nomatch member
  | kept unreserved rest ih =>
    exact List.forall_mem_cons.mpr ⟨.inr unreserved, ih⟩
  | escaped upper lower value rest ih =>
    exact List.forall_mem_cons.mpr ⟨.inl rfl, List.forall_mem_cons.mpr
      ⟨.inr (isUnreserved_of_hexValue upper), List.forall_mem_cons.mpr
        ⟨.inr (isUnreserved_of_hexValue lower), ih⟩⟩⟩

end Encodes

end PercentEncoding
