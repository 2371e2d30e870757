import Mathlib.Algebra.GroupWithZero.Nat
import ClashVerge.Yaml.Value
import Mathlib.Data.List.Perm.Subperm

/-!
# Equality of YAML values

The `==` of `serde_yaml_ng::Value`. The order of a mapping's entries does not matter, nor does the
leading mark of a tag, and all floating-point numbers that are not numbers are equal.
-/

namespace ClashVerge.Yaml

open OrderedMap (get get_eq_some_iff keys)

/-- Floating-point numbers are equal as numbers, and those that are none are all equal. -/
def Number.equals : Number → Number → Bool
  | .integer left, .integer right => left == right
  | .float left, .float right =>
    left == right || (notANumber left && notANumber right) || (zero left && zero right)
  | _, _ => false
where
  notANumber (bits : Nat) : Bool := 0x7FF0000000000000 < bits % 2 ^ 63
  zero (bits : Nat) : Bool := bits % 2 ^ 63 == 0

/-- A tag without its leading mark, unless that is all of it. -/
def nobang (tag : String) : List Char :=
  match tag.toList with
  | '!' :: first :: rest => first :: rest
  | chars => chars

namespace Value

mutual

def equals : Value → Value → Bool
  | null, null => true
  | bool left, bool right => left == right
  | number left, number right => left.equals right
  | string left, string right => left == right
  | sequence left, sequence right => equalsItems left right
  | mapping left, mapping right => left.length == right.length && equalsEntries left right
  | tagged leftTag left, tagged rightTag right =>
    nobang leftTag == nobang rightTag && equals left right
  | _, _ => false

def equalsItems : List Value → List Value → Bool
  | [], [] => true
  | left :: leftRest, right :: rightRest => equals left right && equalsItems leftRest rightRest
  | _, _ => false

def equalsEntries : List (Value × Value) → List (Value × Value) → Bool
  | [], _ => true
  | (key, value) :: rest, entries =>
    (match get entries key with
      | some other => equals value other
      | none => false) && equalsEntries rest entries

end

theorem equalsEntries_iff (entries others : List (Value × Value)) :
    equalsEntries entries others = true ↔ ∀ entry ∈ entries,
      ∃ other, get others entry.1 = some other ∧ equals entry.2 other = true := by
  induction entries with
  | nil => simp [equalsEntries]
  | cons entry rest ih =>
    obtain ⟨key, value⟩ := entry
    rw [equalsEntries, Bool.and_eq_true, ih, List.forall_mem_cons]
    refine and_congr_left fun _ => ?_
    cases get others key <;> simp

theorem number_equals_symm {left right : Number} (equal : left.equals right = true) :
    right.equals left = true := by
  cases left with
  | integer left =>
    cases right with
    | integer right =>
      simp only [Number.equals, beq_iff_eq] at equal ⊢
      exact equal.symm
    | float right => exact absurd equal (by simp [Number.equals])
  | float left =>
    cases right with
    | integer right => exact absurd equal (by simp [Number.equals])
    | float right =>
      simp only [Number.equals, Bool.or_eq_true, Bool.and_eq_true, beq_iff_eq] at equal ⊢
      obtain (same | both) | both := equal
      · exact .inl (.inl same.symm)
      · exact .inl (.inr both.symm)
      · exact .inr both.symm

theorem keys_subset_of_equalsEntries {left right : List (Value × Value)}
    (distinct : OrderedMap.Distinct left) (size : left.length = right.length)
    (equal : equalsEntries left right = true) : keys right ⊆ keys left := by
  have subset : keys left ⊆ keys right := by
    intro key listed
    obtain ⟨entry, member, rfl⟩ := List.mem_map.mp listed
    obtain ⟨other, found, _⟩ := (equalsEntries_iff left right).mp equal entry member
    exact List.mem_map.mpr ⟨_, OrderedMap.mem_of_get found, rfl⟩
  have whole : (keys left).Perm (keys right) :=
    (List.Nodup.subperm distinct subset).perm_of_length_le (by simp [keys, size])
  exact whole.symm.subset

mutual

theorem equals_symm : ∀ {left right : Value}, left.WellFormed → right.WellFormed →
    equals left right = true → equals right left = true
  | .null, right, _, _, equal => by cases right <;> simp_all [equals]
  | .bool _, right, _, _, equal => by cases right <;> simp_all [equals]
  | .number _, right, _, _, equal => by
    cases right with
    | number right => exact number_equals_symm equal
    | _ => exact absurd equal (by simp [equals])
  | .string _, right, _, _, equal => by cases right <;> simp_all [equals]
  | .sequence left, right, wellFormed, wellFormedToo, equal => by
    cases right with
    | sequence right => exact equalsItems_symm wellFormed wellFormedToo equal
    | _ => exact absurd equal (by simp [equals])
  | .mapping left, right, wellFormed, wellFormedToo, equal => by
    cases right with
    | mapping right =>
      obtain ⟨distinct, each⟩ := wellFormed
      obtain ⟨distinctToo, eachToo⟩ := wellFormedToo
      simp only [equals, Bool.and_eq_true, beq_iff_eq] at equal ⊢
      obtain ⟨size, equal⟩ := equal
      refine ⟨size.symm, (equalsEntries_iff right left).mpr fun entry listed => ?_⟩
      have known := keys_subset_of_equalsEntries distinct size equal
        (List.mem_map.mpr ⟨entry, listed, rfl⟩)
      obtain ⟨⟨key, value⟩, member, same⟩ := List.mem_map.mp known
      obtain ⟨other, found, matching⟩ := (equalsEntries_iff left right).mp equal _ member
      dsimp only at same found matching
      rw [same, (get_eq_some_iff distinctToo _ _).mpr listed] at found
      cases found
      refine ⟨value, (get_eq_some_iff distinct _ _).mpr (same ▸ member), ?_⟩
      exact equals_symm_of_mem each member (wellFormed_of_mem eachToo listed) matching
    | _ => exact absurd equal (by simp [equals])
  | .tagged _ left, right, wellFormed, wellFormedToo, equal => by
    cases right with
    | tagged tag right =>
      simp only [equals, Bool.and_eq_true, beq_iff_eq] at equal ⊢
      exact ⟨equal.1.symm, equals_symm wellFormed wellFormedToo equal.2⟩
    | _ => exact absurd equal (by simp [equals])

theorem equalsItems_symm : ∀ {left right : List Value}, WellFormedItems left →
    WellFormedItems right → equalsItems left right = true → equalsItems right left = true
  | [], right, _, _, equal => by cases right <;> simp_all [equalsItems]
  | first :: rest, right, wellFormed, wellFormedToo, equal => by
    cases right with
    | nil => exact absurd equal (by simp [equalsItems])
    | cons other others =>
      simp only [equalsItems, Bool.and_eq_true] at equal ⊢
      exact ⟨equals_symm wellFormed.1 wellFormedToo.1 equal.1,
        equalsItems_symm wellFormed.2 wellFormedToo.2 equal.2⟩

theorem equals_symm_of_mem : ∀ {entries : List (Value × Value)}, WellFormedEntries entries →
    ∀ {key value : Value}, (key, value) ∈ entries → ∀ {other : Value}, other.WellFormed →
      equals value other = true → equals other value = true
  | [], _, _, _, listed, _, _, _ => by contradiction
  | (key, value) :: rest, wellFormed, _, _, listed, _, wellFormedToo, equal => by
    obtain ⟨_, here, later⟩ := wellFormed
    rcases List.mem_cons.mp listed with same | listed
    · cases same
      exact equals_symm here wellFormedToo equal
    · exact equals_symm_of_mem later listed wellFormedToo equal

end

end Value

/-- The `==` of two values that may be missing. -/
def sameValue : Option Value → Option Value → Bool
  | none, none => true
  | some left, some right => left.equals right
  | _, _ => false

theorem sameValue_comm {left right : Option Value} (wellFormed : ∀ value ∈ left, value.WellFormed)
    (wellFormedToo : ∀ value ∈ right, value.WellFormed) :
    sameValue left right = sameValue right left := by
  cases left with
  | none => cases right <;> rfl
  | some left =>
    cases right with
    | none => rfl
    | some right =>
      have here : left.WellFormed := wellFormed left rfl
      have there : right.WellFormed := wellFormedToo right rfl
      exact Bool.eq_iff_iff.mpr
        ⟨Value.equals_symm here there, Value.equals_symm there here⟩

end ClashVerge.Yaml
