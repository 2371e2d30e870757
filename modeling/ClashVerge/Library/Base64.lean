import Mathlib.Data.List.Basic

/-!
# Base64

Three bytes are written in four digits of 64; the last one or two bytes of a text are filled up with
a pad. What is written is read back, and a text with any other symbol is refused.
-/

namespace Base64

/-- `=`. -/
def pad : UInt8 := 61

def digit (value : Nat) : UInt8 :=
  UInt8.ofNat (if value < 26 then 65 + value else if value < 52 then 71 + value
    else if value < 62 then value - 4 else if value = 62 then 43 else 47)

def digitValue (digit : UInt8) : Option Nat :=
  let code := digit.toNat
  if 65 ≤ code ∧ code ≤ 90 then some (code - 65)
  else if 97 ≤ code ∧ code ≤ 122 then some (code - 71)
  else if 48 ≤ code ∧ code ≤ 57 then some (code + 4)
  else if code = 43 then some 62
  else if code = 47 then some 63
  else none

def group (first second third : Nat) : List UInt8 :=
  [digit (first / 4), digit (first % 4 * 16 + second / 16), digit (second % 16 * 4 + third / 64),
    digit (third % 64)]

def encode : List UInt8 → List UInt8
  | [] => []
  | [first] => (group first.toNat 0 0).take 2 ++ [pad, pad]
  | [first, second] => (group first.toNat second.toNat 0).take 3 ++ [pad]
  | first :: second :: third :: rest =>
    group first.toNat second.toNat third.toNat ++ encode rest

def bytes (one two three four : Nat) : List UInt8 :=
  [UInt8.ofNat (one * 4 + two / 16), UInt8.ofNat (two % 16 * 16 + three / 4),
    UInt8.ofNat (three % 4 * 64 + four)]

def decodeLast (one two : Nat) (third fourth : UInt8) : Option (List UInt8) :=
  if fourth = pad then
    if third = pad then some ((bytes one two 0 0).take 1)
    else (digitValue third).map fun three => (bytes one two three 0).take 2
  else (digitValue third).bind fun three => (digitValue fourth).map fun four =>
    bytes one two three four

def decode : List UInt8 → Option (List UInt8)
  | [] => some []
  | first :: second :: third :: fourth :: rest =>
    (digitValue first).bind fun one => (digitValue second).bind fun two =>
      if rest.isEmpty then decodeLast one two third fourth
      else (digitValue third).bind fun three => (digitValue fourth).bind fun four =>
        (decode rest).map fun others => bytes one two three four ++ others
  | _ => none

theorem digitValue_digit {value : Nat} (small : value < 64) :
    digitValue (digit value) = some value := by
  have all : ∀ each < 64, digitValue (digit each) = some each := by decide
  exact all value small

theorem digit_ne_pad {value : Nat} (small : value < 64) : digit value ≠ pad := by
  have all : ∀ each < 64, digit each ≠ pad := by decide
  exact all value small

theorem bytes_group {first second third : Nat} (one : first < 256) (two : second < 256)
    (three : third < 256) :
    bytes (first / 4) (first % 4 * 16 + second / 16) (second % 16 * 4 + third / 64) (third % 64) =
      [UInt8.ofNat first, UInt8.ofNat second, UInt8.ofNat third] := by
  have upper : first / 4 * 4 + (first % 4 * 16 + second / 16) / 16 = first := by omega
  have middle : (first % 4 * 16 + second / 16) % 16 * 16 + (second % 16 * 4 + third / 64) / 4 =
      second := by omega
  have lower : (second % 16 * 4 + third / 64) % 4 * 64 + third % 64 = third := by omega
  rw [bytes, upper, middle, lower]

theorem encode_length (text : List UInt8) : (encode text).length % 4 = 0 := by
  induction text using encode.induct with
  | case1 => rfl
  | case2 first | case3 first second => simp [encode, group]
  | case4 first second third rest ih =>
    simp only [encode, group, List.length_append, List.length_cons, List.length_nil]
    omega

theorem encode_ne_nil (first : UInt8) (rest : List UInt8) : encode (first :: rest) ≠ [] := by
  rcases rest with _ | ⟨second, _ | ⟨third, others⟩⟩ <;> simp [encode, group]

theorem decode_encode (text : List UInt8) : decode (encode text) = some text := by
  induction text using encode.induct with
  | case1 => rfl
  | case2 first =>
    have small := first.toNat_lt
    have read := bytes_group (show first.toNat < 256 by omega) (show 0 < 256 by omega)
      (show 0 < 256 by omega)
    simp only [encode, group, List.take_succ_cons, List.take_zero, List.cons_append, List.nil_append,
      decode, digitValue_digit (show first.toNat / 4 < 64 by omega),
      digitValue_digit (show first.toNat % 4 * 16 + 0 / 16 < 64 by omega), Option.bind_some,
      List.isEmpty_nil, if_true, decodeLast]
    simpa using congrArg (List.take 1) read
  | case3 first second =>
    have small := first.toNat_lt
    have also := second.toNat_lt
    have read := bytes_group (show first.toNat < 256 by omega) (show second.toNat < 256 by omega)
      (show 0 < 256 by omega)
    have third : second.toNat % 16 * 4 + 0 / 64 < 64 := by omega
    simp only [encode, group, List.take_succ_cons, List.take_zero, List.cons_append, List.nil_append,
      decode, digitValue_digit (show first.toNat / 4 < 64 by omega),
      digitValue_digit (show first.toNat % 4 * 16 + second.toNat / 16 < 64 by omega),
      digitValue_digit third, if_neg (digit_ne_pad third), Option.bind_some, List.isEmpty_nil, if_true,
      decodeLast, Option.map_some]
    simpa using congrArg (List.take 2) read
  | case4 first second third rest ih =>
    have small := first.toNat_lt
    have also := second.toNat_lt
    have last := third.toNat_lt
    have read := bytes_group (show first.toNat < 256 by omega) (show second.toNat < 256 by omega)
      (show third.toNat < 256 by omega)
    have fourth : third.toNat % 64 < 64 := by omega
    simp only [encode, group, List.cons_append, List.nil_append, decode,
      digitValue_digit (show first.toNat / 4 < 64 by omega),
      digitValue_digit (show first.toNat % 4 * 16 + second.toNat / 16 < 64 by omega),
      digitValue_digit (show second.toNat % 16 * 4 + third.toNat / 64 < 64 by omega),
      digitValue_digit fourth, Option.bind_some]
    cases rest with
    | nil =>
      have third_ : second.toNat % 16 * 4 + third.toNat / 64 < 64 := by omega
      simpa [encode, decodeLast, digitValue_digit third_, digitValue_digit fourth,
        digit_ne_pad fourth] using read
    | cons next others =>
      have more : (encode (next :: others)).isEmpty = false := by
        simpa using encode_ne_nil next others
      rw [UInt8.ofNat_toNat, UInt8.ofNat_toNat, UInt8.ofNat_toNat] at read
      simp [more, ih, read]

theorem decode_of_other {text : List UInt8} {symbol : UInt8} (inside : symbol ∈ text)
    (other : digitValue symbol = none) (unpadded : symbol ≠ pad) : decode text = none := by
  induction text using decode.induct with
  | case1 => simp at inside
  | case2 first second third fourth rest ih =>
    rw [decode]
    cases one : digitValue first with
    | none => rfl
    | some _ =>
      cases two : digitValue second with
      | none => rfl
      | some _ =>
        have apart : symbol ≠ first ∧ symbol ≠ second := by
          constructor <;> rintro rfl <;> simp_all
        simp only [List.mem_cons, apart.1, apart.2, false_or] at inside
        simp only [Option.bind_some]
        split
        · rename_i last
          obtain rfl : rest = [] := List.isEmpty_iff.mp last
          simp only [List.not_mem_nil, or_false] at inside
          unfold decodeLast
          obtain rfl | rfl := inside
          · simp [other, unpadded]
          · simp [other, unpadded]
        · cases three : digitValue third with
          | none => rfl
          | some _ =>
            cases four : digitValue fourth with
            | none => rfl
            | some _ =>
              have further : symbol ≠ third ∧ symbol ≠ fourth := by
                constructor <;> rintro rfl <;> simp_all
              simp only [further.1, further.2, false_or] at inside
              simp [ih inside]
  | case3 text short long => exact decode.eq_3 text short long

/-! ## The pads -/

def pads (text : List UInt8) : Nat := (3 - text.length % 3) % 3

def encodeBare : List UInt8 → List UInt8
  | [] => []
  | [first] => (group first.toNat 0 0).take 2
  | [first, second] => (group first.toNat second.toNat 0).take 3
  | first :: second :: third :: rest =>
    group first.toNat second.toNat third.toNat ++ encodeBare rest

theorem encode_eq (text : List UInt8) :
    encode text = encodeBare text ++ List.replicate (pads text) pad := by
  induction text using encode.induct with
  | case1 => rfl
  | case2 first => rfl
  | case3 first second => rfl
  | case4 first second third rest ih =>
    have same : pads (first :: second :: third :: rest) = pads rest := by
      simp only [pads, List.length_cons]
      omega
    rw [encode, encodeBare, ih, same, List.append_assoc]

theorem group_digits {first second third : Nat} (one : first < 256) (two : second < 256)
    (three : third < 256) : ∀ symbol ∈ group first second third, ∃ value < 64, symbol = digit value := by
  intro symbol inside
  simp only [group, List.mem_cons, List.not_mem_nil, or_false] at inside
  obtain rfl | rfl | rfl | rfl := inside
  · exact ⟨_, by omega, rfl⟩
  · exact ⟨_, by omega, rfl⟩
  · exact ⟨_, by omega, rfl⟩
  · exact ⟨_, by omega, rfl⟩

theorem encodeBare_digits (text : List UInt8) :
    ∀ symbol ∈ encodeBare text, ∃ value < 64, symbol = digit value := by
  have small (byte : UInt8) : byte.toNat < 256 := byte.toNat_lt
  induction text using encodeBare.induct with
  | case1 => simp [encodeBare]
  | case2 first =>
    intro symbol inside
    exact group_digits (small first) (by omega) (by omega) symbol (List.mem_of_mem_take inside)
  | case3 first second =>
    intro symbol inside
    exact group_digits (small first) (small second) (by omega) symbol (List.mem_of_mem_take inside)
  | case4 first second third rest ih =>
    intro symbol inside
    obtain here | later := List.mem_append.mp inside
    · exact group_digits (small first) (small second) (small third) symbol here
    · exact ih symbol later

end Base64
