import Mathlib.Data.List.Basic

/-!
# Objects and references

A program that hands out references to objects works on a store. A new object gets a reference that
none had before; writing changes one object. A store extends another when every object of that one
is still there with its old value. The stores of several kinds make up the memory of a program.
-/

namespace Objects

universe u
variable {Value : Type u}

/-- A reference to an object of one kind. -/
structure Ref (Value : Type u) where
  index : Nat
deriving DecidableEq, Repr

/-- The objects of one kind in the order they were made. -/
abbrev Store (Value : Type u) : Type u := List Value

namespace Store

def read (store : Store Value) (ref : Ref Value) : Option Value := store[ref.index]?

def alloc (store : Store Value) (value : Value) : Ref Value × Store Value :=
  (⟨store.length⟩, store ++ [value])

def write (store : Store Value) (ref : Ref Value) (value : Value) : Store Value :=
  store.set ref.index value

/-- No object is lost or changed. -/
def Extends (old new : Store Value) : Prop :=
  ∀ ref value, old.read ref = some value → new.read ref = some value

theorem Extends.refl (store : Store Value) : store.Extends store := fun _ _ found => found

theorem Extends.trans {first middle last : Store Value} (one : first.Extends middle)
    (two : middle.Extends last) : first.Extends last :=
  fun ref value found => two ref value (one ref value found)

@[simp] theorem read_alloc (store : Store Value) (value : Value) :
    (store.alloc value).2.read (store.alloc value).1 = some value := by
  simp [read, alloc]

theorem read_fresh (store : Store Value) (value : Value) :
    store.read (store.alloc value).1 = none := by
  simp [read, alloc]

theorem extends_alloc (store : Store Value) (value : Value) :
    store.Extends (store.alloc value).2 := by
  intro ref old found
  have inside := (List.getElem?_eq_some_iff.mp found).1
  rw [read, alloc, List.getElem?_append_left inside]
  exact found

theorem read_write_same {store : Store Value} {ref : Ref Value} {old : Value}
    (found : store.read ref = some old) (value : Value) :
    (store.write ref value).read ref = some value := by
  have inside := (List.getElem?_eq_some_iff.mp found).1
  simp [read, write, inside]

theorem read_write_other (store : Store Value) {ref other : Ref Value} (value : Value)
    (different : other ≠ ref) : (store.write ref value).read other = store.read other := by
  have apart : ref.index ≠ other.index := by
    intro same
    cases ref
    cases other
    exact different (congrArg Ref.mk same).symm
  rw [read, write, List.getElem?_set_ne apart, read]

theorem Extends.write {old store : Store Value} (extends_ : old.Extends store) {ref : Ref Value}
    (fresh : old.read ref = none) (value : Value) : old.Extends (store.write ref value) := by
  intro other held found
  have different : other ≠ ref := by
    rintro rfl
    rw [fresh] at found
    contradiction
  rw [read_write_other store value different]
  exact extends_ other held found

end Store

end Objects
