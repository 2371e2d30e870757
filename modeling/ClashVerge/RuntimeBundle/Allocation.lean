import Mathlib.Data.List.GetD
import Mathlib.Data.Set.Finite.Basic
import Mathlib.Data.Set.Finite.Range
import ClashVerge.Library.SortedMap
import ClashVerge.RuntimeBundle.Providers

/-!
# Allocating provider paths

The new name of a cache is made of the digest of its destination and its url, with a number behind
it where that name is reserved. The numbers are tried in turn, and finitely many names are reserved.
Nothing is asked of the digest.
-/

namespace ClashVerge.RuntimeBundle

open UnixPath

def hexDigits : List Char :=
  ['0', '1', '2', '3', '4', '5', '6', '7', '8', '9', 'a', 'b', 'c', 'd', 'e', 'f']

/-- `format!("{byte:02x}")`. -/
def hexByte (byte : UInt8) : Text :=
  [hexDigits.getD (byte.toNat / 16) '0', hexDigits.getD (byte.toNat % 16) '0']

def digestInput (destination url : String) : List UInt8 :=
  destination.toUTF8.toList ++ [0] ++ url.toUTF8.toList

def suffix (sequence : Nat) : Text := if sequence = 0 then [] else '-' :: Nat.toDigits 10 sequence

section

variable (sha256 : List UInt8 → List UInt8) (destination url : String)

def digest : Text := (sha256 (digestInput destination url)).flatMap hexByte

def dotExtension : Text :=
  match extension destination.toList with
  | some extension => '.' :: extension
  | none => []

def candidateName (sequence : Nat) : Text :=
  "cvr-".toList ++ digest sha256 destination url ++ suffix sequence ++ dotExtension destination

theorem candidateName_eq (sequence : Nat) : candidateName sha256 destination url sequence =
    "cvr-".toList ++ digest sha256 destination url ++ suffix sequence ++
      dotExtension destination := rfl

def candidate (sequence : Nat) : String :=
  String.ofList (slashes (withFileName destination.toList (candidateName sha256 destination url sequence)))

end

theorem push_eq_append (base : Text) : ∃ front, ∀ name, push base name = front ++ name := by
  by_cases empty : base = []
  · exact ⟨[], fun name => by simp [push, empty]⟩
  · by_cases ends : base.getLast? = some '/'
    · exact ⟨base, fun name => by simp [push, empty, ends]⟩
    · exact ⟨base ++ ['/'], fun name => by simp [push, empty, ends]⟩

theorem suffix_injective : Function.Injective suffix := by
  intro first second same
  have digits : ∀ number : Nat, suffix number = [] ∨
      ∃ rest, suffix number = '-' :: rest ∧ Nat.ofDigitChars 10 rest 0 = number := by
    intro number
    unfold suffix
    split
    · exact .inl rfl
    · exact .inr ⟨_, rfl, Nat.ofDigitChars_ten_toDigits⟩
  by_cases zero : first = 0
  · subst zero
    by_contra other
    simp [suffix, Ne.symm other] at same
  · obtain none_ | ⟨rest, shape, number⟩ := digits first
    · simp [suffix, zero] at none_
    · obtain none_ | ⟨other, otherShape, otherNumber⟩ := digits second
      · rw [shape, none_] at same
        contradiction
      · rw [shape, otherShape] at same
        rw [← number, ← otherNumber, (List.cons.inj same).2]

theorem plain_suffix {sequence : Nat} {char : Char} (member : char ∈ suffix sequence) :
    char ≠ '/' ∧ char ≠ '\\' := by
  unfold suffix at member
  split at member
  · contradiction
  · obtain rfl | digit := List.mem_cons.mp member
    · decide
    · have isDigit : char.isDigit = true :=
        Nat.isDigit_of_mem_toDigits (by decide) (by decide) digit
      constructor <;> (rintro rfl; revert isDigit; decide)

theorem plain_hexByte {byte : UInt8} {char : Char} (member : char ∈ hexByte byte) :
    char ≠ '/' ∧ char ≠ '\\' := by
  have inside : char ∈ hexDigits := by
    have known : ∀ index, hexDigits.getD index '0' ∈ hexDigits := by
      intro index
      by_cases small : index < hexDigits.length
      · rw [List.getD_eq_getElem _ _ small]
        exact List.getElem_mem small
      · rw [List.getD_eq_default _ _ (by omega)]
        decide
    simp only [hexByte, List.mem_cons, List.not_mem_nil, or_false] at member
    obtain rfl | rfl := member <;> exact known _
  have all : ∀ char ∈ hexDigits, char ≠ '/' ∧ char ≠ '\\' := by simp [hexDigits]
  exact all char inside

section

variable {sha256 : List UInt8 → List UInt8} {destination url : String} {sequence : Nat}

theorem plain_digest {char : Char} (member : char ∈ digest sha256 destination url) :
    char ≠ '/' ∧ char ≠ '\\' := by
  obtain ⟨byte, -, inside⟩ := List.mem_flatMap.mp member
  exact plain_hexByte inside

theorem plain_candidateName {char : Char}
    (member : char ∈ candidateName sha256 destination url sequence) :
    char ≠ '/' ∧ (char = '\\' → char ∈ destination.toList) := by
  have plain : char ≠ '/' ∧ char ≠ '\\' → char ≠ '/' ∧ (char = '\\' → char ∈ destination.toList) :=
    fun both => ⟨both.1, fun is_ => absurd is_ both.2⟩
  rw [candidateName_eq, List.mem_append, List.mem_append, List.mem_append] at member
  obtain ((lead | inDigest) | inSuffix) | inExtension := member
  · have all : ∀ char ∈ "cvr-".toList, char ≠ '/' ∧ char ≠ '\\' := by simp
    exact plain (all char lead)
  · exact plain (plain_digest inDigest)
  · exact plain (plain_suffix inSuffix)
  · unfold dotExtension at inExtension
    split at inExtension
    · rename_i own has
      obtain rfl | inside := List.mem_cons.mp inExtension
      · exact plain (by decide)
      · exact ⟨(mem_of_extension has inside).2, fun _ => (mem_of_extension has inside).1⟩
    · contradiction

theorem proper_candidateName : Proper (candidateName sha256 destination url sequence) := by
  have shape : ∃ rest, candidateName sha256 destination url sequence = 'c' :: rest := ⟨_, rfl⟩
  obtain ⟨rest, shape⟩ := shape
  rw [shape]
  exact ⟨by simp, by simp, by simp⟩

theorem candidate_plain : '\\' ∉ (candidate sha256 destination url sequence).toList := by
  rw [candidate, String.toList_ofList]
  exact backslash_not_mem _

theorem candidate_toList (plain : '\\' ∉ destination.toList) :
    (candidate sha256 destination url sequence).toList =
      withFileName destination.toList (candidateName sha256 destination url sequence) := by
  rw [candidate, String.toList_ofList]
  refine slashes_of_not_mem fun member => ?_
  obtain separator | inside | own := mem_withFileName member
  · contradiction
  · exact plain inside
  · exact plain ((plain_candidateName own).2 rfl)

theorem clean_candidate_iff (some_ : destination.toList ≠ []) (plain : '\\' ∉ destination.toList) :
    Clean (candidate sha256 destination url sequence).toList ↔
      (fileName destination.toList).isSome = true ∧
        (directory destination.toList = [] ∨ Clean (directory destination.toList)) := by
  rw [candidate_toList plain]
  exact clean_withFileName_iff some_ (fun member => (plain_candidateName member).1 rfl)
    proper_candidateName

end

section

variable (sha256 : List UInt8 → List UInt8) (destination url : String)

theorem candidate_injective : Function.Injective (candidate sha256 destination url) := by
  intro first second same
  obtain ⟨front, pushes⟩ := push_eq_append
    (if (fileName destination.toList).isSome then directory destination.toList
      else destination.toList)
  have texts := String.ofList_inj.mp same
  simp only [withFileName, pushes, candidateName_eq, slashes_append, List.append_assoc,
    List.append_cancel_left_eq, List.append_cancel_right_eq] at texts
  have keeps : ∀ number, slashes (suffix number) = suffix number :=
    fun number => slashes_of_not_mem fun member => (plain_suffix member).2 rfl
  rw [keeps, keeps] at texts
  exact suffix_injective texts

theorem exists_free (reserved : List String) :
    ∃ sequence, candidate sha256 destination url sequence ∉ reserved := by
  by_contra none_
  have all : ∀ sequence, candidate sha256 destination url sequence ∈ reserved := by
    simpa using none_
  have finite : (Set.range (candidate sha256 destination url)).Finite := by
    refine reserved.toFinset.finite_toSet.subset ?_
    rintro _ ⟨sequence, rfl⟩
    simpa using all sequence
  exact Set.infinite_range_of_injective (candidate_injective sha256 destination url) finite

def allocateProviderDestination (reserved : List String) : String :=
  candidate sha256 destination url (Nat.find (exists_free sha256 destination url reserved))

variable {sha256 destination url}

theorem allocated_free (reserved : List String) :
    allocateProviderDestination sha256 destination url reserved ∉ reserved :=
  Nat.find_spec (exists_free sha256 destination url reserved)

theorem allocated_eq_candidate (reserved : List String) :
    ∃ sequence, allocateProviderDestination sha256 destination url reserved =
      candidate sha256 destination url sequence := ⟨_, rfl⟩

theorem allocated_of_free {reserved : List String}
    (free : candidate sha256 destination url 0 ∉ reserved) :
    allocateProviderDestination sha256 destination url reserved =
      candidate sha256 destination url 0 := by
  rw [allocateProviderDestination, (Nat.find_eq_zero _).mpr free]

theorem allocated_congr {reserved others : List String}
    (same : ∀ path, path ∈ reserved ↔ path ∈ others) :
    allocateProviderDestination sha256 destination url reserved =
      allocateProviderDestination sha256 destination url others := by
  have first : Nat.find (exists_free sha256 destination url reserved) =
      Nat.find (exists_free sha256 destination url others) := by
    refine Nat.find_congr' fun {sequence} => ?_
    rw [same]
  rw [allocateProviderDestination, allocateProviderDestination, first]

end

end ClashVerge.RuntimeBundle
