import ClashVerge.Library.PercentEncoding
import Mathlib.Data.List.Induction

/-!
# Hexadecimal text

Two digits stand for a byte. A text is read as bytes exactly when it consists of digits and their
number is even.
-/

namespace Hex

open PercentEncoding (hexValue)

/-- A text of digits in either case, and the bytes that it stands for. -/
inductive Writes : List UInt8 → List UInt8 → Prop where
  | nil : Writes [] []
  | pair {first second high low text bytes} (upper : hexValue first = some high)
      (lower : hexValue second = some low) (rest : Writes text bytes) :
      Writes (first :: second :: text) (UInt8.ofNat (high * 16 + low) :: bytes)

/-- Digits, and an even number of them. -/
def IsHex (text : List UInt8) : Prop :=
  text.length % 2 = 0 ∧ ∀ digit ∈ text, (hexValue digit).isSome = true

theorem isHex_pair {first second : UInt8} {text : List UInt8} : IsHex (first :: second :: text) ↔
      ((hexValue first).isSome = true ∧ (hexValue second).isSome = true) ∧ IsHex text := by
  unfold IsHex
  rw [List.forall_mem_cons, List.forall_mem_cons, List.length_cons, List.length_cons]
  constructor
  · rintro ⟨even, upper, lower, rest⟩
    exact ⟨⟨upper, lower⟩, by omega, rest⟩
  · rintro ⟨⟨upper, lower⟩, even, rest⟩
    exact ⟨by omega, upper, lower, rest⟩

theorem Writes.isHex {text bytes : List UInt8} (writes : Writes text bytes) : IsHex text := by
  induction writes with
  | nil => exact ⟨rfl, by simp⟩
  | pair upper lower _ ih =>
    exact isHex_pair.mpr ⟨⟨by simp [upper], by simp [lower]⟩, ih⟩

/-- The lower-case digit of a value below 16. -/
def digit (value : Nat) : UInt8 := UInt8.ofNat (if value < 10 then 48 + value else 87 + value)

def encode (bytes : List UInt8) : List UInt8 :=
  bytes.flatMap fun byte => [digit (byte.toNat / 16), digit (byte.toNat % 16)]

end Hex
