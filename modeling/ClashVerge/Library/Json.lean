import Mathlib.Data.List.Basic

/-!
# JSON values

Natural numbers, negative integers and floating-point numbers are told apart; a floating-point
number is kept by its bits, both zeros by the same. An object is the list of its members in the
order of their names, so equal values are equal objects.
-/

inductive Json where
  | null
  | bool (value : Bool)
  | natural (value : Nat)
  | negative (value : Nat)
  | float (bits : Nat)
  | string (text : String)
  | array (items : List Json)
  | object (members : List (String × Json))
deriving Repr

namespace Json

mutual

def beq : Json → Json → Bool
  | null, null => true
  | bool left, bool right => left == right
  | natural left, natural right => left == right
  | negative left, negative right => left == right
  | float left, float right => left == right
  | string left, string right => left == right
  | array left, array right => beqItems left right
  | object left, object right => beqMembers left right
  | _, _ => false

def beqItems : List Json → List Json → Bool
  | [], [] => true
  | left :: leftRest, right :: rightRest => beq left right && beqItems leftRest rightRest
  | _, _ => false

def beqMembers : List (String × Json) → List (String × Json) → Bool
  | [], [] => true
  | (leftName, left) :: leftRest, (rightName, right) :: rightRest =>
      leftName == rightName && beq left right && beqMembers leftRest rightRest
  | _, _ => false

end

mutual

theorem beq_iff : ∀ left right : Json, beq left right = true ↔ left = right
  | null, right => by cases right <;> simp [beq]
  | bool left, right => by cases right <;> simp [beq]
  | natural left, right => by cases right <;> simp [beq]
  | negative left, right => by cases right <;> simp [beq]
  | float left, right => by cases right <;> simp [beq]
  | string left, right => by cases right <;> simp [beq]
  | array left, right => by
      cases right with
      | array right => simpa [beq] using beqItems_iff left right
      | _ => simp [beq]
  | object left, right => by
      cases right with
      | object right => simpa [beq] using beqMembers_iff left right
      | _ => simp [beq]

theorem beqItems_iff : ∀ left right : List Json, beqItems left right = true ↔ left = right
  | [], right => by cases right <;> simp [beqItems]
  | left :: leftRest, right => by
      cases right with
      | nil => simp [beqItems]
      | cons right rightRest =>
        simp [beqItems, beq_iff left right, beqItems_iff leftRest rightRest]

theorem beqMembers_iff :
    ∀ left right : List (String × Json), beqMembers left right = true ↔ left = right
  | [], right => by cases right <;> simp [beqMembers]
  | (leftName, left) :: leftRest, right => by
      cases right with
      | nil => simp [beqMembers]
      | cons member rightRest =>
        obtain ⟨rightName, right⟩ := member
        simp [beqMembers, beq_iff left right, beqMembers_iff leftRest rightRest]

end

instance instDecidableEqJson : DecidableEq Json := fun left right => decidable_of_iff _ (beq_iff left right)

def get (name : String) : Json → Option Json
  | object members => (members.find? fun member => member.1 = name).map Prod.snd
  | _ => none

def asStr : Json → Option String
  | string text => some text
  | _ => none

def asBool : Json → Option Bool
  | bool value => some value
  | _ => none

/-- The value of a natural number; no other number has one. -/
def asU64 : Json → Option Nat
  | natural value => some value
  | _ => none

def asArray : Json → Option (List Json)
  | array items => some items
  | _ => none

end Json
