import Mathlib.Data.List.Basic

/-!
# UTF-8 read without failing

A chunk of bytes is the encoding of one character, or a maximal part of one that is not continued,
which is replaced. A byte below 128 is always a chunk of its own, so reading starts afresh behind
it; and what encodes a text is read as that text.
-/

namespace Utf8

/-- How many bytes a character has whose first byte this is; none where no character begins so. -/
def width (first : Nat) : Nat :=
  if first < 0x80 then 1
  else if 0xC2 ≤ first ∧ first ≤ 0xDF then 2
  else if 0xE0 ≤ first ∧ first ≤ 0xEF then 3
  else if 0xF0 ≤ first ∧ first ≤ 0xF4 then 4
  else 0

/-- Every byte of a character but the first. -/
def isContinuation (byte : UInt8) : Bool := 0x80 ≤ byte.toNat && byte.toNat ≤ 0xBF

/-- The second byte is bounded further where the first one is the least or the greatest of its
kind, and below the surrogates. -/
def secondFits (first : Nat) (byte : UInt8) : Bool :=
  isContinuation byte && (first != 0xE0 || 0xA0 ≤ byte.toNat) &&
    (first != 0xED || byte.toNat ≤ 0x9F) && (first != 0xF0 || 0x90 ≤ byte.toNat) &&
      (first != 0xF4 || byte.toNat ≤ 0x8F)

/-- The length of the next chunk and whether it encodes a character. -/
def chunk (first : UInt8) (rest : List UInt8) : Nat × Bool :=
  if width first.toNat = 1 then (1, true)
  else if width first.toNat = 0 ∨ rest[0]?.all (fun byte => !secondFits first.toNat byte) then
    (1, false)
  else if width first.toNat = 2 then (2, true)
  else if rest[1]?.all (fun byte => !isContinuation byte) then (2, false)
  else if width first.toNat = 3 then (3, true)
  else if rest[2]?.all (fun byte => !isContinuation byte) then (3, false)
  else (4, true)

/-- The encoding of U+FFFD. -/
def replacement : List UInt8 := [0xEF, 0xBF, 0xBD]

/-- Read behind the bytes that the last chunk still takes. -/
def lossyAfter : Nat → List UInt8 → List UInt8
  | _, [] => []
  | skip + 1, _ :: rest => lossyAfter skip rest
  | 0, first :: rest =>
    (if (chunk first rest).2 then (first :: rest).take (chunk first rest).1 else replacement) ++
      lossyAfter ((chunk first rest).1 - 1) rest

/-- The text that is read, in its encoding. -/
def lossy (bytes : List UInt8) : List UInt8 := lossyAfter 0 bytes

def encode (text : List Char) : List UInt8 := text.flatMap String.utf8EncodeChar

theorem lossyAfter_eq (skip : Nat) (bytes : List UInt8) :
    lossyAfter skip bytes = lossy (bytes.drop skip) := by
  induction bytes generalizing skip with
  | nil => cases skip <;> rfl
  | cons first rest ih =>
    cases skip with
    | zero => rfl
    | succ fewer => exact ih fewer

theorem chunk_bounds (first : UInt8) (rest : List UInt8) :
    1 ≤ (chunk first rest).1 ∧ (chunk first rest).1 ≤ rest.length + 1 := by
  rcases rest with _ | ⟨second, _ | ⟨third, _ | ⟨fourth, others⟩⟩⟩ <;> simp [chunk] <;> grind

theorem chunk_append (first byte : UInt8) (rest after : List UInt8) (ascii : byte.toNat < 128) :
    chunk first (rest ++ byte :: after) = chunk first rest := by
  have ends : isContinuation byte = false := by
    simp [isContinuation]
    omega
  have unfit : secondFits first.toNat byte = false := by simp [secondFits, ends]
  rcases rest with _ | ⟨second, _ | ⟨third, _ | ⟨fourth, others⟩⟩⟩ <;>
    simp [chunk, ends, unfit]

theorem lossyAfter_append (byte : UInt8) (after : List UInt8) (ascii : byte.toNat < 128)
    (before : List UInt8) (skip : Nat) (short : skip ≤ before.length) :
    lossyAfter skip (before ++ byte :: after) = lossyAfter skip before ++ byte :: lossy after := by
  induction before generalizing skip with
  | nil =>
    obtain rfl : skip = 0 := Nat.le_zero.mp short
    have single : chunk byte after = (1, true) := by
      rw [chunk, if_pos (by rw [width, if_pos ascii])]
    simp [lossyAfter, single, lossy]
  | cons first rest ih =>
    cases skip with
    | succ fewer => exact ih fewer (Nat.le_of_succ_le_succ short)
    | zero =>
      obtain ⟨least, most⟩ := chunk_bounds first rest
      simp only [List.cons_append, lossyAfter, chunk_append first byte rest after ascii]
      rw [ih _ (by omega), List.append_assoc]
      congr 1
      have inside : (chunk first rest).1 - 1 ≤ rest.length := by omega
      by_cases valid : (chunk first rest).2
      · rw [if_pos valid, if_pos valid, ← List.cons_append,
          List.take_append_of_le_length (by simpa using most)]
      · rw [if_neg valid, if_neg valid]

theorem lossy_append (byte : UInt8) (ascii : byte.toNat < 128) (before after : List UInt8) :
    lossy (before ++ byte :: after) = lossy before ++ byte :: lossy after :=
  lossyAfter_append byte after ascii before 0 (Nat.zero_le _)

theorem isContinuation_iff (byte : UInt8) :
    isContinuation byte = true ↔ 0x80 ≤ byte.toNat ∧ byte.toNat ≤ 0xBF := by
  simp [isContinuation]

theorem secondFits_iff (first : Nat) (byte : UInt8) :
    secondFits first byte = true ↔ isContinuation byte ∧ (first = 0xE0 → 0xA0 ≤ byte.toNat) ∧
      (first = 0xED → byte.toNat ≤ 0x9F) ∧ (first = 0xF0 → 0x90 ≤ byte.toNat) ∧
        (first = 0xF4 → byte.toNat ≤ 0x8F) := by
  simp only [secondFits, Bool.and_eq_true, Bool.or_eq_true, bne_iff_ne, decide_eq_true_eq, ne_eq]
  grind

theorem chunk_one {first : UInt8} (rest : List UInt8) (one : width first.toNat = 1) :
    chunk first rest = (1, true) := by
  simp [chunk, one]

theorem chunk_two {first second : UInt8} (rest : List UInt8) (two : width first.toNat = 2)
    (fits : secondFits first.toNat second) : chunk first (second :: rest) = (2, true) := by
  simp [chunk, two, fits]

theorem chunk_three {first second third : UInt8} (rest : List UInt8) (three : width first.toNat = 3)
    (fits : secondFits first.toNat second) (continues : isContinuation third) :
    chunk first (second :: third :: rest) = (3, true) := by
  simp [chunk, three, fits, continues]

theorem chunk_four {first second third fourth : UInt8} (rest : List UInt8)
    (four : width first.toNat = 4) (fits : secondFits first.toNat second)
    (continues : isContinuation third) (ends : isContinuation fourth) :
    chunk first (second :: third :: fourth :: rest) = (4, true) := by
  simp [chunk, four, fits, continues, ends]

theorem lossy_of_chunk {first : UInt8} {rest : List UInt8} {length : Nat}
    (valid : chunk first rest = (length, true)) :
    lossy (first :: rest) = (first :: rest).take length ++ lossy ((first :: rest).drop length) := by
  have least := (chunk_bounds first rest).1
  rw [valid] at least
  obtain ⟨fewer, rfl⟩ := Nat.exists_eq_add_of_le' least
  simp only [lossy, lossyAfter, valid, if_true]
  rw [Nat.add_sub_cancel, lossyAfter_eq fewer rest]
  rfl

theorem lossy_utf8EncodeChar (character : Char) (rest : List UInt8) :
    lossy (String.utf8EncodeChar character ++ rest) =
      String.utf8EncodeChar character ++ lossy rest := by
  have scalar : character.val.toNat < 0xD800 ∨
      0xDFFF < character.val.toNat ∧ character.val.toNat < 0x110000 := character.valid
  have byte : ∀ n, n < 256 → (UInt8.ofNat n).toNat = n := fun n small => by
    simpa using Nat.mod_eq_of_lt small
  unfold String.utf8EncodeChar
  generalize character.val.toNat = value at scalar
  dsimp only
  split
  · refine (lossy_of_chunk (chunk_one _ ?_)).trans rfl
    rw [byte value (by omega), width]
    split_ifs <;> omega
  split
  · refine (lossy_of_chunk (chunk_two _ ?_ ?_)).trans rfl
    · rw [byte _ (by omega), width]
      split_ifs <;> omega
    · rw [secondFits_iff, isContinuation_iff, byte _ (by omega), byte _ (by omega)]
      omega
  split
  · refine (lossy_of_chunk (chunk_three _ ?_ ?_ ?_)).trans rfl
    · rw [byte _ (by omega), width]
      split_ifs <;> omega
    · rw [secondFits_iff, isContinuation_iff, byte _ (by omega), byte _ (by omega)]
      omega
    · rw [isContinuation_iff, byte _ (by omega)]
      omega
  · refine (lossy_of_chunk (chunk_four _ ?_ ?_ ?_ ?_)).trans rfl
    · rw [byte _ (by omega), width]
      split_ifs <;> omega
    · rw [secondFits_iff, isContinuation_iff, byte _ (by omega), byte _ (by omega)]
      omega
    · rw [isContinuation_iff, byte _ (by omega)]
      omega
    · rw [isContinuation_iff, byte _ (by omega)]
      omega

theorem lossy_encode (text : List Char) : lossy (encode text) = encode text := by
  induction text with
  | nil => rfl
  | cons character rest ih =>
    rw [encode, List.flatMap_cons, lossy_utf8EncodeChar]
    exact congrArg _ ih

end Utf8
