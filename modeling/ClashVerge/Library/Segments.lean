import Mathlib.Data.List.Nodup

/-!
# Lists of segments

A list may be put together from segments, one for each item, whose rows say which item they belong
to. When the items have distinct keys, each segment can be read off the whole again.
-/

namespace Segments

universe u v w
variable {Item : Type u} {Row : Type v} {Key : Type w}
variable {items : List Item}

theorem length_flatMap_le {one other : Item → List Row}
    (le : ∀ item ∈ items, (one item).length ≤ (other item).length) :
    (items.flatMap one).length ≤ (items.flatMap other).length := by
  induction items with
  | nil => exact Nat.le_refl _
  | cons first rest ih =>
    have leRest := ih fun item later => le item (List.mem_cons_of_mem _ later)
    have leFirst := le first List.mem_cons_self
    rw [List.flatMap_cons, List.flatMap_cons, List.length_append, List.length_append]
    omega

theorem length_eq_of_le {one other : Item → List Row}
    (le : ∀ item ∈ items, (one item).length ≤ (other item).length)
    (total : (items.flatMap other).length ≤ (items.flatMap one).length) :
    ∀ item ∈ items, (one item).length = (other item).length := by
  induction items with
  | nil => simp
  | cons first rest ih =>
    have leRest : ∀ item ∈ rest, (one item).length ≤ (other item).length :=
      fun item later => le item (List.mem_cons_of_mem _ later)
    have whole := length_flatMap_le leRest
    have leFirst := le first List.mem_cons_self
    rw [List.flatMap_cons, List.flatMap_cons, List.length_append, List.length_append] at total
    intro item member
    obtain rfl | later := List.mem_cons.mp member
    · omega
    · exact ih leRest (by omega) item later

theorem flatMap_unless {Other : Type*} (items : List Item) (drop : Item → Bool)
    (make : Item → Other) :
    (items.flatMap fun item => if drop item = true then [] else [make item]) =
      (items.filter fun item => !drop item).map make := by
  induction items with
  | nil => rfl
  | cons first rest ih =>
    rw [List.flatMap_cons, ih, List.filter_cons]
    cases drop first <;> rfl

theorem flatMap_filter_isEmpty (items : List Item) (segment : Item → List Row) :
    (items.filter fun item => !(segment item).isEmpty).flatMap segment = items.flatMap segment := by
  induction items with
  | nil => rfl
  | cons first rest ih =>
    rw [List.filter_cons, List.flatMap_cons, ← ih]
    cases empty : segment first <;> simp [empty]

theorem flatMap_marks {Mark : Type*} {keys : List Key} {segment : Key → List Row}
    {mark : List Row → List Mark} {make : Key → Mark} (none : mark [] = [])
    (marked : ∀ key ∈ keys, segment key ≠ [] → mark (segment key) = [make key]) :
    (keys.flatMap fun key => mark (segment key)) =
      (keys.filter fun key => !(segment key).isEmpty).map make := by
  rw [← flatMap_unless]
  apply List.flatMap_congr
  intro key member
  split
  · rename_i empty
    rw [List.isEmpty_iff.mp empty, none]
  · rename_i nonempty
    exact marked key member fun empty => nonempty (List.isEmpty_iff.mpr empty)

theorem flatMap_eq_of_marks {Mark : Type*} {keys others : List Key} {segment : Key → List Row}
    {mark : List Row → List Mark} {make : Key → Mark} (injective : Function.Injective make)
    (none : mark [] = [])
    (marked : ∀ key ∈ keys, segment key ≠ [] → mark (segment key) = [make key])
    (markedToo : ∀ key ∈ others, segment key ≠ [] → mark (segment key) = [make key])
    (same : (keys.flatMap fun key => mark (segment key)) =
      others.flatMap fun key => mark (segment key)) :
    keys.flatMap segment = others.flatMap segment := by
  rw [flatMap_marks none marked, flatMap_marks none markedToo] at same
  rw [← flatMap_filter_isEmpty keys, ← flatMap_filter_isEmpty others,
    injective.list_map same]

section

variable [DecidableEq Key] {key : Item → Key} {own : Row → Key}

theorem filter_flatMap_absent {segment : Item → List Row}
    (owned : ∀ item ∈ items, ∀ row ∈ segment item, own row = key item) {other : Key}
    (absent : other ∉ items.map key) :
    (items.flatMap segment).filter (fun row => own row = other) = [] := by
  rw [List.filter_eq_nil_iff]
  intro row inside
  obtain ⟨item, member, within⟩ := List.mem_flatMap.mp inside
  rw [decide_eq_true_iff, owned item member row within]
  intro same
  exact absent (List.mem_map.mpr ⟨item, member, same⟩)

theorem filter_flatMap (distinct : (items.map key).Nodup) {segment : Item → List Row}
    (owned : ∀ item ∈ items, ∀ row ∈ segment item, own row = key item) {item : Item}
    (member : item ∈ items) :
    (items.flatMap segment).filter (fun row => own row = key item) = segment item := by
  induction items with
  | nil => cases member
  | cons first rest ih =>
    obtain ⟨fresh, restDistinct⟩ := List.nodup_cons.mp distinct
    have ownedRest : ∀ item ∈ rest, ∀ row ∈ segment item, own row = key item :=
      fun item later => owned item (List.mem_cons_of_mem _ later)
    have ownedFirst : ∀ row ∈ segment first, own row = key first := owned first List.mem_cons_self
    rw [List.flatMap_cons, List.filter_append]
    obtain rfl | later := List.mem_cons.mp member
    · rw [filter_flatMap_absent ownedRest fresh, List.append_nil, List.filter_eq_self]
      intro row inside
      exact decide_eq_true (ownedFirst row inside)
    · have different : key first ≠ key item := fun same =>
        fresh (List.mem_map.mpr ⟨item, later, same.symm⟩)
      rw [ih restDistinct ownedRest later, List.filter_eq_nil_iff.mpr,
        List.nil_append]
      intro row inside
      rw [decide_eq_true_iff, ownedFirst row inside]
      exact different

theorem flatMap_eq_iff (distinct : (items.map key).Nodup) {one other : Item → List Row}
    (owned : ∀ item ∈ items, ∀ row ∈ one item, own row = key item)
    (ownedToo : ∀ item ∈ items, ∀ row ∈ other item, own row = key item) :
    items.flatMap one = items.flatMap other ↔ ∀ item ∈ items, one item = other item := by
  constructor
  · intro same item member
    rw [← filter_flatMap distinct owned member, same, filter_flatMap distinct ownedToo member]
  · intro same
    exact List.flatMap_congr same

end

end Segments
