import Mathlib.Data.List.Induction
import Mathlib.Data.List.Nodup
import Mathlib.Data.List.Pairwise

/-!
# Batches

Items are collected one by one. When enough have been collected the batch is closed, and the next
one begins.
-/

namespace Batches

universe u v
variable {Item : Type u} {Other : Type v} (full : Nat → Bool)

def collect (batches : List (List Item) × List Item) (item : Item) : List (List Item) × List Item :=
  let batch := batches.2 ++ [item]
  if full batch.length then (batches.1 ++ [batch], []) else (batches.1, batch)

def split (items : List Item) : List (List Item) × List Item := items.foldl (collect full) ([], [])

def closed (items : List Item) : List (List Item) := (split full items).1

def pending (items : List Item) : List Item := (split full items).2

theorem split_concat (items : List Item) (item : Item) :
    split full (items ++ [item]) = collect full (split full items) item := by
  rw [split, List.foldl_append]
  rfl

theorem closed_concat (items : List Item) (item : Item) : closed full (items ++ [item]) =
      if full (pending full items ++ [item]).length then
        closed full items ++ [pending full items ++ [item]]
      else closed full items := by
  rw [closed, split_concat, collect]
  unfold closed pending
  split
  · rfl
  · rfl

theorem pending_concat (items : List Item) (item : Item) : pending full (items ++ [item]) =
      if full (pending full items ++ [item]).length then [] else pending full items ++ [item] := by
  rw [pending, split_concat, collect]
  unfold pending
  split
  · rfl
  · rfl

theorem flatten_closed (items : List Item) :
    (closed full items).flatten ++ pending full items = items := by
  induction items using List.reverseRecOn with
  | nil => rfl
  | append_singleton items item ih =>
    rw [closed_concat, pending_concat]
    split
    · rw [List.flatten_append, List.flatten_singleton, List.append_nil, ← List.append_assoc,
        ih]
    · rw [← List.append_assoc, ih]

theorem closed_ne_nil {items batch : List Item} (isClosed : batch ∈ closed full items) : batch ≠ [] := by
  induction items using List.reverseRecOn with
  | nil => cases isClosed
  | append_singleton items item ih =>
    rw [closed_concat] at isClosed
    split at isClosed
    · obtain earlier | last := List.mem_append.mp isClosed
      · exact ih earlier
      · rw [List.mem_singleton.mp last]
        exact List.append_ne_nil_of_right_ne_nil _ (List.cons_ne_nil _ _)
    · exact ih isClosed

theorem split_map (change : Item → Other) (items : List Item) : split full (items.map change) =
      ((closed full items).map (List.map change), (pending full items).map change) := by
  induction items using List.reverseRecOn with
  | nil => rfl
  | append_singleton items item ih =>
    unfold closed pending at ih ⊢
    rw [List.map_append, List.map_singleton, split_concat, split_concat, ih,
      collect, collect]
    rw [show (split full items).2.map change ++ [change item] =
      ((split full items).2 ++ [item]).map change by rw [List.map_append, List.map_singleton],
      List.length_map]
    split
    · simp only [List.map_append, List.map_singleton, List.map_nil]
    · rfl

theorem closed_map (change : Item → Other) (items : List Item) :
    closed full (items.map change) = (closed full items).map (List.map change) := by
  rw [closed, split_map]

theorem pending_map (change : Item → Other) (items : List Item) :
    pending full (items.map change) = (pending full items).map change := by
  rw [pending, split_map]

theorem pairwise_closed {before : Item → Item → Prop} {items : List Item}
    (ordered : items.Pairwise before) :
    (closed full items).Pairwise fun one other => ∀ item ∈ one, ∀ later ∈ other, before item later := by
  rw [← flatten_closed full items] at ordered
  exact (List.pairwise_flatten.mp (List.pairwise_append.mp ordered).1).2

/-! ## Where an item is -/

theorem countP_eq_one_iff (test : Item → Bool) (items : List Item) : items.countP test = 1 ↔
      ∃! position : Nat, ∃ item, items[position]? = some item ∧ test item = true := by
  induction items with
  | nil => simp [ExistsUnique]
  | cons first rest ih =>
    by_cases passes : test first = true
    · rw [List.countP_cons_of_pos passes, Nat.add_eq_right, List.countP_eq_zero]
      constructor
      · intro others
        refine ⟨0, ⟨first, rfl, passes⟩, ?_⟩
        rintro (_ | position) ⟨item, found, passesToo⟩
        · rfl
        · exact absurd passesToo (others item (List.mem_of_getElem? found))
      · rintro ⟨position, -, unique⟩ item member passesToo
        obtain ⟨later, found⟩ := List.getElem?_of_mem member
        have atFirst := unique 0 ⟨first, rfl, passes⟩
        have atLater := unique (later + 1) ⟨item, found, passesToo⟩
        omega
    · rw [List.countP_cons_of_neg passes, ih]
      constructor
      · rintro ⟨position, found, unique⟩
        refine ⟨position + 1, found, ?_⟩
        rintro (_ | other) ⟨item, foundToo, passesToo⟩
        · cases foundToo
          exact absurd passesToo passes
        · rw [unique other ⟨item, foundToo, passesToo⟩]
      · rintro ⟨_ | position, ⟨item, found, passesToo⟩, unique⟩
        · cases found
          exact absurd passesToo passes
        · refine ⟨position, ⟨item, found, passesToo⟩, ?_⟩
          intro other foundToo
          have same := unique (other + 1) foundToo
          omega

theorem countP_mem [DecidableEq Item] {batches : List (List Item)} (distinct : batches.flatten.Nodup)
    (item : Item) :
    batches.countP (fun batch => item ∈ batch) = if item ∈ batches.flatten then 1 else 0 := by
  induction batches with
  | nil => rfl
  | cons batch rest ih =>
    rw [List.flatten_cons, List.nodup_append] at distinct
    obtain ⟨-, restDistinct, apart⟩ := distinct
    rw [List.countP_cons, ih restDistinct, List.flatten_cons]
    by_cases here : item ∈ batch
    · have elsewhere : item ∉ rest.flatten := fun later => apart item here item later rfl
      simp [here, elsewhere]
    · simp [here]

theorem eq_of_mem {batches : List (List Item)} (distinct : batches.flatten.Nodup)
    {one other : List Item} (member : one ∈ batches) (memberToo : other ∈ batches) {item : Item}
    (inOne : item ∈ one) (inOther : item ∈ other) : one = other := by
  by_contra different
  have disjoint := (List.nodup_flatten.mp distinct).2
  have symmetric : Std.Symm (List.Disjoint : List Item → List Item → Prop) := ⟨fun _ _ apart _ second first =>
    apart first second⟩
  exact disjoint.forall member memberToo different inOne inOther

end Batches
