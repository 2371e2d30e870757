/-!
# The two-slot draft

`Draft<T>` keeps a committed value and at most one staged draft behind one mutex, which each of its
synchronous operations takes once. `Slot` holds the two values; `DraftData` holds the two `Arc`s,
whose addresses `with_data_modify` compares.

`Arc::make_mut` edits a draft nobody else holds in place, or moves the edited copy to another
allocation, so the address is an argument of the operations. Forgetting the addresses turns each
operation into its `Slot` form.
-/

namespace ClashVerge.Draft

variable {T : Type}

/-- The contents of a draft layer: the committed value and the staged draft. -/
structure Slot (T : Type) where
  data : T
  draft : Option T
deriving DecidableEq, Repr

namespace Slot

/-- A layer just created: nothing is staged. -/
def new (data : T) : Slot T := ⟨data, none⟩

/-- The draft when present, otherwise the committed value. -/
def latest (slot : Slot T) : T := slot.draft.getD slot.data

/-- Edit the draft, cloning the committed value when nothing is staged. -/
def editDraft (slot : Slot T) (edit : T → T) : Slot T :=
  { slot with draft := some (edit slot.latest) }

/-- Commit and clear the draft. Without a draft nothing changes. -/
def apply (slot : Slot T) : Slot T :=
  match slot.draft with
  | none => slot
  | some draft => ⟨draft, none⟩

def discard (slot : Slot T) : Slot T := { slot with draft := none }

@[simp] theorem new_data (data : T) : (new data).data = data := rfl
@[simp] theorem new_draft (data : T) : (new data).draft = none := rfl
@[simp] theorem new_latest (data : T) : (new data).latest = data := rfl
section

variable (slot : Slot T)
include slot

@[simp] theorem editDraft_data (edit : T → T) : (slot.editDraft edit).data = slot.data := rfl
@[simp] theorem editDraft_draft (edit : T → T) :
    (slot.editDraft edit).draft = some (edit slot.latest) := rfl
@[simp] theorem editDraft_latest (edit : T → T) :
    (slot.editDraft edit).latest = edit slot.latest := rfl
@[simp] theorem discard_data : slot.discard.data = slot.data := rfl
@[simp] theorem discard_draft : slot.discard.draft = none := rfl
@[simp] theorem discard_latest : slot.discard.latest = slot.data := rfl

@[simp] theorem apply_data : slot.apply.data = slot.latest := by
  rcases slot with ⟨data, _ | draft⟩ <;> rfl

@[simp] theorem apply_draft : slot.apply.draft = none := by
  rcases slot with ⟨data, _ | draft⟩ <;> rfl

@[simp] theorem apply_latest : slot.apply.latest = slot.latest := by
  rcases slot with ⟨data, _ | draft⟩ <;> rfl

end

theorem latest_of_draft_none {slot : Slot T} (empty : slot.draft = none) :
    slot.latest = slot.data := by
  simp [latest, empty]

theorem discard_of_draft_none {slot : Slot T} (empty : slot.draft = none) :
    slot.discard = slot := by
  rcases slot with ⟨data, _ | draft⟩
  · rfl
  · simp at empty

end Slot

/-- An `Arc<Box<T>>`: the address of its allocation and the value stored there. -/
structure SharedDraft (T : Type) where
  address : Nat
  value : T

/-- The pair a `Draft<T>` keeps under its mutex. -/
structure DraftData (T : Type) where
  committed : SharedDraft T
  draft : Option (SharedDraft T)

namespace DraftData

def dataArc (data : DraftData T) : SharedDraft T := data.committed

/-- The draft when present, otherwise the committed snapshot. -/
def latestArc (data : DraftData T) : SharedDraft T := data.draft.getD data.committed

/-- Edit the draft; `address` is where `Arc::make_mut` leaves the edited value. -/
def editDraft (data : DraftData T) (edit : T → T) (address : Nat) : DraftData T :=
  { data with draft := some ⟨address, edit data.latestArc.value⟩ }

/-- Commit and clear the draft. The draft's own `Arc` becomes the committed one. -/
def apply (data : DraftData T) : DraftData T :=
  match data.draft with
  | none => data
  | some draft => ⟨draft, none⟩

def discard (data : DraftData T) : DraftData T := { data with draft := none }

/-- The layer's contents without addresses. -/
def slot (data : DraftData T) : Slot T := ⟨data.committed.value, data.draft.map SharedDraft.value⟩

theorem slot_editDraft (data : DraftData T) (edit : T → T) (address : Nat) :
    (data.editDraft edit address).slot = data.slot.editDraft edit := by
  rcases data with ⟨committed, _ | draft⟩ <;> rfl

theorem slot_apply (data : DraftData T) : data.apply.slot = data.slot.apply := by
  rcases data with ⟨committed, _ | draft⟩ <;> rfl

end DraftData

end ClashVerge.Draft
