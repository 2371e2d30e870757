import ClashVerge.Library.OrderedMap

/-!
# YAML values

`serde_yaml_ng::Value` and its `Mapping`, an insertion-ordered map from values to values. Mappings
that come out of the parser or of the map operations have distinct keys on every level;
`Value.WellFormed` says so.

Text looks up and inserts under the string value of that text, which is another key than the same
text with a tag. Integers cover both signed and unsigned numbers of the source; a floating-point
number is kept by its bits.
-/

namespace ClashVerge.Yaml

inductive Number where
  | integer (value : Int)
  | float (bits : Nat)
deriving DecidableEq, Repr

inductive Value where
  | null
  | bool (value : Bool)
  | number (value : Number)
  | string (text : String)
  | sequence (items : List Value)
  | mapping (entries : List (Value × Value))
  | tagged (tag : String) (value : Value)
deriving Repr

/-- An insertion-ordered map, given by its entries. -/
abbrev Mapping : Type := List (Value × Value)

namespace Value

mutual

def beq : Value → Value → Bool
  | null, null => true
  | bool left, bool right => left == right
  | number left, number right => left == right
  | string left, string right => left == right
  | sequence left, sequence right => beqItems left right
  | mapping left, mapping right => beqEntries left right
  | tagged leftTag left, tagged rightTag right => leftTag == rightTag && beq left right
  | _, _ => false

def beqItems : List Value → List Value → Bool
  | [], [] => true
  | left :: leftRest, right :: rightRest => beq left right && beqItems leftRest rightRest
  | _, _ => false

def beqEntries : List (Value × Value) → List (Value × Value) → Bool
  | [], [] => true
  | (leftKey, left) :: leftRest, (rightKey, right) :: rightRest =>
      beq leftKey rightKey && beq left right && beqEntries leftRest rightRest
  | _, _ => false

end

mutual

theorem beq_iff : ∀ left right : Value, beq left right = true ↔ left = right
  | null, right => by cases right <;> simp [beq]
  | bool left, right => by cases right <;> simp [beq]
  | number left, right => by cases right <;> simp [beq]
  | string left, right => by cases right <;> simp [beq]
  | sequence left, right => by
      cases right with
      | sequence right => simpa [beq] using beqItems_iff left right
      | _ => simp [beq]
  | mapping left, right => by
      cases right with
      | mapping right => simpa [beq] using beqEntries_iff left right
      | _ => simp [beq]
  | tagged leftTag left, right => by
      cases right with
      | tagged rightTag right => simpa [beq] using fun _ => beq_iff left right
      | _ => simp [beq]

theorem beqItems_iff : ∀ left right : List Value, beqItems left right = true ↔ left = right
  | [], right => by cases right <;> simp [beqItems]
  | left :: leftRest, right => by
      cases right with
      | nil => simp [beqItems]
      | cons right rightRest =>
        simp [beqItems, beq_iff left right, beqItems_iff leftRest rightRest]

theorem beqEntries_iff :
    ∀ left right : List (Value × Value), beqEntries left right = true ↔ left = right
  | [], right => by cases right <;> simp [beqEntries]
  | (leftKey, left) :: leftRest, right => by
      cases right with
      | nil => simp [beqEntries]
      | cons entry rightRest =>
        obtain ⟨rightKey, right⟩ := entry
        simp [beqEntries, beq_iff leftKey rightKey, beq_iff left right,
          beqEntries_iff leftRest rightRest]

end

instance : DecidableEq Value := fun left right => decidable_of_iff _ (beq_iff left right)

mutual

/-- Every mapping in the value has distinct keys. -/
def WellFormed : Value → Prop
  | sequence items => WellFormedItems items
  | mapping entries => OrderedMap.Distinct entries ∧ WellFormedEntries entries
  | tagged _ value => WellFormed value
  | _ => True

def WellFormedItems : List Value → Prop
  | [] => True
  | item :: rest => WellFormed item ∧ WellFormedItems rest

def WellFormedEntries : List (Value × Value) → Prop
  | [] => True
  | (key, value) :: rest => WellFormed key ∧ WellFormed value ∧ WellFormedEntries rest

end

theorem wellFormed_of_mem_items {items : List Value} (wellFormed : WellFormedItems items)
    {item : Value} (member : item ∈ items) : item.WellFormed := by
  induction items with
  | nil => contradiction
  | cons first rest ih =>
    obtain ⟨here, later⟩ := wellFormed
    obtain rfl | inside := List.mem_cons.mp member
    · exact here
    · exact ih later inside

theorem wellFormed_of_mem {entries : List (Value × Value)}
    (wellFormed : WellFormedEntries entries) {entry : Value × Value} (member : entry ∈ entries) :
    entry.2.WellFormed := by
  induction entries with
  | nil => contradiction
  | cons first rest ih =>
    obtain ⟨key, value⟩ := first
    obtain ⟨-, here, later⟩ := wellFormed
    obtain rfl | inside := List.mem_cons.mp member
    · exact here
    · exact ih later inside

/-- What is left without the tags around it; the `as_` functions look through tags. -/
def untag : Value → Value
  | tagged _ value => untag value
  | value => value

def asStr (value : Value) : Option String :=
  match value.untag with
  | string text => some text
  | _ => none

def asBool (value : Value) : Option Bool :=
  match value.untag with
  | bool value => some value
  | _ => none

def asSequence (value : Value) : Option (List Value) :=
  match value.untag with
  | sequence items => some items
  | _ => none

def asMapping (value : Value) : Option Mapping :=
  match value.untag with
  | mapping entries => some entries
  | _ => none

@[simp] theorem asStr_string (text : String) : (string text).asStr = some text := rfl

@[simp] theorem asMapping_mapping (entries : Mapping) :
    (mapping entries).asMapping = some entries := rfl

end Value

namespace Mapping

def get (mapping : Mapping) (key : String) : Option Value := OrderedMap.get mapping (.string key)

/-- `Mapping::insert`: overwrite in place, or append. -/
def insert (mapping : Mapping) (key : Value) (value : Value) : Mapping :=
  OrderedMap.insert mapping key value

/-- `Mapping::remove` with a text, which moves the last entry into the removed position. -/
def remove (mapping : Mapping) (key : String) : Mapping := OrderedMap.remove mapping (.string key)

def containsKey (mapping : Mapping) (key : String) : Bool :=
  OrderedMap.contains mapping (.string key)

def WellFormed (mapping : Mapping) : Prop :=
  OrderedMap.Distinct mapping ∧ Value.WellFormedEntries mapping

theorem wellFormed_of_get {mapping : Mapping} (wellFormed : mapping.WellFormed) {key value : Value}
    (found : OrderedMap.get mapping key = some value) : value.WellFormed :=
  Value.wellFormed_of_mem wellFormed.2 (OrderedMap.mem_of_get found)

theorem wellFormed_of_asMapping : ∀ {value : Value} {mapping : Mapping}, value.WellFormed →
    value.asMapping = some mapping → mapping.WellFormed
  | .mapping _, _, wellFormed, is_ => Option.some.inj is_ ▸ wellFormed
  | .tagged _ inner, _, wellFormed, is_ =>
    wellFormed_of_asMapping (show inner.WellFormed from wellFormed) is_
  | .null, _, _, is_ | .bool _, _, _, is_ | .number _, _, _, is_ | .string _, _, _, is_
  | .sequence _, _, _, is_ => nomatch is_

end Mapping

end ClashVerge.Yaml
