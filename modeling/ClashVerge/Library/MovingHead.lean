import Mathlib.Order.Lattice

/-!
# Buffers with a moving head

Items are added at the end of a buffer and removed at its front. To remove an item only the head is
moved past it; now and then the items before the head are dropped.
-/

namespace MovingHead

universe u v
variable {Item : Type u}

structure Buffer (Item : Type u) where
  items : List Item
  head : Nat
  inside : head ≤ items.length

def moveHead (expired : Item → Bool) : List Item → Nat → Nat
  | [], head => head
  | item :: rest, head => if expired item then moveHead expired rest (head + 1) else head

theorem moveHead_eq (expired : Item → Bool) (items : List Item) (head : Nat) :
    moveHead expired items head = head + (items.takeWhile expired).length := by
  induction items generalizing head with
  | nil => rfl
  | cons item rest ih =>
    rw [moveHead, List.takeWhile_cons]
    split
    · rw [ih, List.length_cons]
      omega
    · rfl

theorem drop_takeWhile (expired : Item → Bool) (items : List Item) :
    items.drop (items.takeWhile expired).length = items.dropWhile expired := by
  induction items with
  | nil => rfl
  | cons item rest ih =>
    rw [List.takeWhile_cons, List.dropWhile_cons]
    split
    · exact ih
    · rfl

namespace Buffer

def empty : Buffer Item := ⟨[], 0, Nat.le_refl 0⟩

variable (buffer : Buffer Item)

def live : List Item := buffer.items.drop buffer.head

/-- How many items are live. -/
def size : Nat := buffer.items.length - buffer.head

def push (item : Item) : Buffer Item where
  items := buffer.items ++ [item]
  head := buffer.head
  inside := by
    rw [List.length_append]
    exact Nat.le_add_right_of_le buffer.inside

def trim (expired : Item → Bool) : Buffer Item where
  items := buffer.items
  head := moveHead expired buffer.live buffer.head
  inside := by
    have most := (buffer.live.takeWhile_prefix expired).length_le
    have inside := buffer.inside
    rw [live, List.length_drop] at most
    rw [moveHead_eq, live]
    omega

def compact (limit : Nat) : Buffer Item :=
  if limit < buffer.head ∧ buffer.items.length < 2 * buffer.head then
    ⟨buffer.live, 0, Nat.zero_le _⟩
  else buffer

@[simp] theorem live_empty : (empty : Buffer Item).live = [] := rfl

@[simp] theorem size_eq : buffer.size = buffer.live.length := by
  rw [size, live, List.length_drop]

@[simp] theorem live_push (item : Item) : (buffer.push item).live = buffer.live ++ [item] :=
  List.drop_append_of_le_length buffer.inside

@[simp] theorem live_trim (expired : Item → Bool) :
    (buffer.trim expired).live = buffer.live.dropWhile expired := by
  have moved : (buffer.trim expired).live = buffer.items.drop
      (buffer.head + (buffer.live.takeWhile expired).length) := by
    rw [← moveHead_eq]
    rfl
  rw [moved, ← List.drop_drop]
  exact drop_takeWhile expired buffer.live

@[simp] theorem live_compact (limit : Nat) : (buffer.compact limit).live = buffer.live := by
  unfold compact
  split
  · rfl
  · rfl

end Buffer

theorem dropWhile_eq_filter {Time : Type v} [LinearOrder Time] {time : Item → Time}
    {items : List Item} (ordered : items.Pairwise fun one other => time one ≤ time other)
    (cutoff : Time) :
    items.dropWhile (fun item => time item ≤ cutoff) = items.filter fun item => cutoff < time item := by
  induction items with
  | nil => rfl
  | cons item rest ih =>
    obtain ⟨first, restOrdered⟩ := List.pairwise_cons.mp ordered
    rw [List.dropWhile_cons, List.filter_cons]
    by_cases expired : time item ≤ cutoff
    · rw [if_pos (decide_eq_true expired), ih restOrdered]
      rw [if_neg (by simpa using expired)]
    · rw [if_neg (by simpa using expired), if_pos (by simpa using expired)]
      congr 1
      symm
      rw [List.filter_eq_self]
      intro later member
      exact decide_eq_true (lt_of_lt_of_le (not_le.mp expired) (first later member))

theorem dropWhile_filter_append {Time : Type v} [LinearOrder Time] {time : Item → Time}
    {items added : List Item} {cutoff : Time} {kept : Item → Bool}
    (ordered : (items ++ added).Pairwise fun one other => time one ≤ time other)
    (still : ∀ item, cutoff < time item → kept item = true) :
    (items.filter kept ++ added).dropWhile (fun item => time item ≤ cutoff) =
      (items ++ added).filter fun item => cutoff < time item := by
  have sublist : (items.filter kept ++ added).Sublist (items ++ added) :=
    List.filter_sublist.append (List.Sublist.refl added)
  rw [dropWhile_eq_filter (ordered.sublist sublist), List.filter_append, List.filter_append,
    List.filter_filter]
  congr 1
  apply List.filter_congr
  intro item _
  by_cases live : cutoff < time item
  · simp [live, still item live]
  · simp [live]

end MovingHead
