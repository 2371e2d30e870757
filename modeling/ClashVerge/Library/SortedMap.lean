import Mathlib.Data.String.Basic
import ClashVerge.Library.OrderedMap

/-!
# Maps sorted by key

A map whose entries are kept in the order of their keys. A new key goes to its place, and a key that
is there keeps it. The entries are read with the lookup of maps in insertion order.
-/

namespace SortedMap

open OrderedMap

universe u v
variable {Key : Type u} {Val : Type v} [LinearOrder Key]

/-- Overwrite in place, or insert before the first larger key. -/
def insert : List (Key × Val) → Key → Val → List (Key × Val)
  | [], key, value => [(key, value)]
  | (own, current) :: rest, key, value =>
    if key < own then (key, value) :: (own, current) :: rest
    else if own = key then (key, value) :: rest
    else (own, current) :: insert rest key value

/-- The map of some entries, of which the last one of a key counts. -/
def ofList (entries : List (Key × Val)) : List (Key × Val) :=
  entries.foldl (fun entries entry => insert entries entry.1 entry.2) []

def Sorted (entries : List (Key × Val)) : Prop := (keys entries).Pairwise (· < ·)

theorem sorted_nil : Sorted ([] : List (Key × Val)) := List.Pairwise.nil

variable {entries : List (Key × Val)}

theorem Sorted.distinct (sorted : Sorted entries) :
    Distinct entries :=
  sorted.imp fun less => less.ne

theorem get_insert (entries : List (Key × Val)) (key other : Key) (value : Val) :
    get (insert entries key value) other = if key = other then some value else get entries other := by
  induction entries with
  | nil => rfl
  | cons entry rest ih =>
    obtain ⟨own, current⟩ := entry
    by_cases smaller : key < own
    · simp only [insert, if_pos smaller, OrderedMap.get]
    · by_cases same : own = key
      · subst same
        simp only [insert, lt_irrefl, if_false, if_true, OrderedMap.get]
        by_cases target : own = other
        · simp only [if_pos target]
        · simp only [if_neg target]
      · simp only [insert, if_neg smaller, if_neg same, OrderedMap.get, ih]
        by_cases target : key = other
        · simp only [if_pos target, if_neg (target ▸ same)]
        · simp only [if_neg target]

theorem mem_keys_insert (entries : List (Key × Val)) (key other : Key) (value : Val) :
    other ∈ keys (insert entries key value) ↔ other = key ∨ other ∈ keys entries := by
  have found : ∀ entries : List (Key × Val), other ∈ keys entries ↔ get entries other ≠ none := by
    intro entries
    rw [ne_eq, get_eq_none_iff, not_not]
  rw [found, found, get_insert]
  by_cases same : key = other
  · simp [same]
  · simp [same, eq_comm]

theorem Sorted.insert (sorted : Sorted entries) (key : Key)
    (value : Val) : Sorted (insert entries key value) := by
  induction entries with
  | nil => exact List.pairwise_singleton ..
  | cons entry rest ih =>
    obtain ⟨own, current⟩ := entry
    obtain ⟨first, later⟩ := List.pairwise_cons.mp sorted
    unfold SortedMap.insert
    split_ifs with smaller same
    · refine List.pairwise_cons.mpr ⟨fun other is_ => ?_, sorted⟩
      rcases List.mem_cons.mp is_ with rfl | inside
      · exact smaller
      · exact smaller.trans (first other inside)
    · subst same
      exact sorted
    · refine List.pairwise_cons.mpr ⟨fun other is_ => ?_, ih later⟩
      rcases (mem_keys_insert rest key other value).mp is_ with rfl | inside
      · exact lt_of_le_of_ne (not_lt.mp smaller) same
      · exact first other inside

theorem sorted_ofList (entries : List (Key × Val)) : Sorted (ofList entries) := by
  have keeps : ∀ (entries done : List (Key × Val)), Sorted done →
      Sorted (entries.foldl (fun entries entry => SortedMap.insert entries entry.1 entry.2) done) := by
    intro entries
    induction entries with
    | nil => exact fun done sorted => sorted
    | cons entry rest ih =>
      exact fun done sorted => ih _ (sorted.insert entry.1 entry.2)
  exact keeps entries [] sorted_nil

theorem insert_perm {key : Key} (fresh : key ∉ keys entries)
    (value : Val) : (insert entries key value).Perm ((key, value) :: entries) := by
  induction entries with
  | nil => exact List.Perm.refl _
  | cons entry rest ih =>
    obtain ⟨own, current⟩ := entry
    obtain ⟨other, away⟩ := not_or.mp fun inside => fresh (List.mem_cons.mpr inside)
    unfold insert
    split_ifs with smaller same
    · exact List.Perm.refl _
    · exact absurd same.symm other
    · exact ((ih away).cons _).trans (List.Perm.swap ..)

theorem mem_insert {key : Key} {value : Val} {entry : Key × Val}
    (inside : entry ∈ insert entries key value) : entry = (key, value) ∨ entry ∈ entries := by
  induction entries with
  | nil => exact .inl (List.mem_singleton.mp inside)
  | cons first rest ih =>
    obtain ⟨own, current⟩ := first
    unfold insert at inside
    split_ifs at inside with smaller same
    · exact List.mem_cons.mp inside
    · rcases List.mem_cons.mp inside with new | later
      · exact .inl new
      · exact .inr (List.mem_cons_of_mem _ later)
    · rcases List.mem_cons.mp inside with rfl | later
      · exact .inr (List.mem_cons_self ..)
      · rcases ih later with new | old
        · exact .inl new
        · exact .inr (List.mem_cons_of_mem _ old)

theorem ofList_perm (distinct : Distinct entries) : (ofList entries).Perm entries := by
  have joins : ∀ (entries done : List (Key × Val)), Distinct (done ++ entries) →
      (entries.foldl (fun entries entry => insert entries entry.1 entry.2) done).Perm
        (done ++ entries) := by
    intro entries
    induction entries with
    | nil => simp
    | cons entry rest ih =>
      intro done distinct
      have moved : (done ++ entry :: rest).Perm (entry :: done ++ rest) := List.perm_middle
      have keyed : Distinct (entry :: done ++ rest) := (moved.map Prod.fst).nodup_iff.mp distinct
      have fresh : entry.1 ∉ keys done := by
        intro inside
        refine (distinct_cons.mp keyed).1 ?_
        change entry.1 ∈ keys (done ++ rest)
        rw [keys_append]
        exact List.mem_append_left _ inside
      have placed := insert_perm fresh entry.2
      have both : (insert done entry.1 entry.2 ++ rest).Perm (entry :: done ++ rest) :=
        placed.append_right rest
      have still : Distinct (insert done entry.1 entry.2 ++ rest) :=
        (both.map Prod.fst).nodup_iff.mpr keyed
      exact (ih _ still).trans (both.trans moved.symm)
  simpa [ofList] using joins entries [] (by simpa using distinct)

theorem eq_of_perm {one other : List (Key × Val)} (sorted : Sorted one) (sortedToo : Sorted other)
    (permuted : one.Perm other) : one = other := by
  have ordered {entries : List (Key × Val)} (sorted : Sorted entries) :
      entries.Pairwise fun first second => first.1 < second.1 := List.pairwise_map.mp sorted
  refine permuted.eq_of_pairwise ?_ (ordered sorted) (ordered sortedToo)
  exact fun first second _ _ less more => absurd more (lt_asymm less)

theorem ofList_congr {entries others : List (Key × Val)} (distinct : Distinct entries)
    (permuted : others.Perm entries) : ofList others = ofList entries := by
  have distinctToo : Distinct others := (permuted.map Prod.fst).nodup_iff.mpr distinct
  refine eq_of_perm (sorted_ofList _) (sorted_ofList _) ?_
  exact (ofList_perm distinctToo).trans (permuted.trans (ofList_perm distinct).symm)

end SortedMap
