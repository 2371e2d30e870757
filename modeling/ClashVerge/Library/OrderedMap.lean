import Mathlib.Data.List.Perm.Lattice

/-!
# Insertion-ordered maps as lists of entries

A map that remembers the order of insertion is the list of its entries. Inserting an existing key
overwrites its value in place, inserting a new key appends it, and removing a key moves the last
entry into its position. A list is a map when its keys are distinct, which the operations preserve.
-/

namespace OrderedMap

universe u v
variable {Key : Type u} {Val : Type v}

def keys (entries : List (Key × Val)) : List Key := entries.map Prod.fst

def Distinct (entries : List (Key × Val)) : Prop := (keys entries).Nodup

@[simp] theorem keys_nil : keys ([] : List (Key × Val)) = [] := rfl

@[simp] theorem keys_cons (entry : Key × Val) (rest : List (Key × Val)) :
    keys (entry :: rest) = entry.1 :: keys rest := rfl

@[simp] theorem keys_append (left right : List (Key × Val)) :
    keys (left ++ right) = keys left ++ keys right :=
  List.map_append

theorem distinct_nil : Distinct ([] : List (Key × Val)) := List.nodup_nil

theorem distinct_cons {entry : Key × Val} {rest : List (Key × Val)} :
    Distinct (entry :: rest) ↔ entry.1 ∉ keys rest ∧ Distinct rest :=
  List.nodup_cons

variable [DecidableEq Key]

def get : List (Key × Val) → Key → Option Val
  | [], _ => none
  | (own, value) :: rest, key => if own = key then some value else get rest key

def contains (entries : List (Key × Val)) (key : Key) : Bool := (get entries key).isSome

/-- Overwrite in place, or append. -/
def insert : List (Key × Val) → Key → Val → List (Key × Val)
  | [], key, value => [(key, value)]
  | (own, current) :: rest, key, value =>
      if own = key then (key, value) :: rest else (own, current) :: insert rest key value

/-- Move the last entry into the position of the removed one. -/
def remove : List (Key × Val) → Key → List (Key × Val)
  | [], _ => []
  | (own, value) :: rest, key =>
      if own = key then
        match rest.getLast? with
        | none => []
        | some last => last :: rest.dropLast
      else (own, value) :: remove rest key

/-- Drop the entry of the key and keep the order of the others. -/
def erase (entries : List (Key × Val)) (key : Key) : List (Key × Val) :=
  entries.filter fun entry => entry.1 ≠ key

def extend (entries new : List (Key × Val)) : List (Key × Val) :=
  new.foldl (fun map entry => insert map entry.1 entry.2) entries

@[simp] theorem get_nil (key : Key) : get ([] : List (Key × Val)) key = none := rfl

theorem get_cons (own : Key) (value : Val) (rest : List (Key × Val)) (key : Key) :
    get ((own, value) :: rest) key = if own = key then some value else get rest key := rfl

theorem get_eq_none_iff (entries : List (Key × Val)) (key : Key) :
    get entries key = none ↔ key ∉ keys entries := by
  induction entries with
  | nil => simp
  | cons entry rest ih =>
    obtain ⟨own, value⟩ := entry
    by_cases same : own = key
    · simp [get_cons, same]
    · simp [get_cons, same, ih, Ne.symm same]

theorem contains_iff (entries : List (Key × Val)) (key : Key) :
    contains entries key = true ↔ key ∈ keys entries := by
  rw [contains, ← not_iff_not, Bool.not_eq_true, Option.isSome_eq_false_iff,
    Option.isNone_iff_eq_none]
  exact get_eq_none_iff entries key

variable {entries : List (Key × Val)}

theorem mem_of_get {key : Key} {value : Val}
    (found : get entries key = some value) : (key, value) ∈ entries := by
  induction entries with
  | nil => simp at found
  | cons entry rest ih =>
    obtain ⟨own, current⟩ := entry
    by_cases same : own = key
    · simp_all [get_cons]
    · rw [get_cons, if_neg same] at found
      exact List.mem_cons_of_mem _ (ih found)

theorem get_eq_some_iff (distinct : Distinct entries) (key : Key)
    (value : Val) : get entries key = some value ↔ (key, value) ∈ entries := by
  refine ⟨mem_of_get, fun member => ?_⟩
  induction entries with
  | nil => simp at member
  | cons entry rest ih =>
    obtain ⟨own, current⟩ := entry
    obtain ⟨fresh, remaining⟩ := distinct_cons.mp distinct
    rcases List.mem_cons.mp member with same | later
    · obtain ⟨rfl, rfl⟩ := Prod.mk.injEq .. ▸ same
      simp [get_cons]
    · have different : own ≠ key := by
        rintro rfl
        exact fresh (List.mem_map.mpr ⟨_, later, rfl⟩)
      rw [get_cons, if_neg different]
      exact ih remaining later

theorem get_append (left right : List (Key × Val)) (key : Key) :
    get (left ++ right) key = (get left key).or (get right key) := by
  induction left with
  | nil => simp
  | cons entry rest ih =>
    obtain ⟨own, value⟩ := entry
    by_cases same : own = key
    · simp [get_cons, same]
    · simp [get_cons, same, ih]

@[simp] theorem get_insert_same (entries : List (Key × Val)) (key : Key) (value : Val) :
    get (insert entries key value) key = some value := by
  induction entries with
  | nil => simp [insert, get_cons]
  | cons entry rest ih =>
    obtain ⟨own, current⟩ := entry
    by_cases same : own = key
    · simp [insert, same, get_cons]
    · simp [insert, same, get_cons, ih]

theorem get_insert_other (entries : List (Key × Val)) {key other : Key} (value : Val)
    (different : other ≠ key) : get (insert entries key value) other = get entries other := by
  induction entries with
  | nil => simp [insert, get_cons, different.symm]
  | cons entry rest ih =>
    obtain ⟨own, current⟩ := entry
    by_cases same : own = key
    · simp [insert, same, get_cons, different.symm]
    · simp [insert, same, get_cons, ih]

theorem get_insert (entries : List (Key × Val)) (key other : Key) (value : Val) :
    get (insert entries key value) other = if other = key then some value else get entries other := by
  by_cases same : other = key
  · simp [same]
  · rw [get_insert_other entries value same, if_neg same]

theorem keys_insert (entries : List (Key × Val)) (key : Key) (value : Val) :
    keys (insert entries key value) =
      if key ∈ keys entries then keys entries else keys entries ++ [key] := by
  induction entries with
  | nil => simp [insert]
  | cons entry rest ih =>
    obtain ⟨own, current⟩ := entry
    by_cases same : own = key
    · simp [insert, same]
    · by_cases later : key ∈ keys rest
      · simp [insert, same, ih, later]
      · simp [insert, same, ih, later, Ne.symm same]

theorem insert_append (left right : List (Key × Val)) (key : Key) (value : Val) :
    insert (left ++ right) key value =
      if key ∈ keys left then insert left key value ++ right else left ++ insert right key value := by
  induction left with
  | nil => simp
  | cons entry rest ih =>
    obtain ⟨own, current⟩ := entry
    by_cases same : own = key
    · simp [insert, same]
    · by_cases later : key ∈ keys rest
      · simp [insert, same, ih, later]
      · simp [insert, same, ih, later, Ne.symm same]

theorem distinct_insert (distinct : Distinct entries) (key : Key)
    (value : Val) : Distinct (insert entries key value) := by
  unfold Distinct
  rw [keys_insert]
  split
  · exact distinct
  · rename_i fresh
    rw [← List.concat_eq_append]
    exact distinct.concat fresh

theorem mem_keys_insert (entries : List (Key × Val)) (key other : Key) (value : Val) :
    other ∈ keys (insert entries key value) ↔ other ∈ keys entries ∨ other = key := by
  rw [keys_insert]
  split
  · rename_i present
    exact ⟨.inl, fun either => either.elim id fun same => same ▸ present⟩
  · rw [List.mem_append, List.mem_singleton]

theorem mem_insert {key : Key} {value : Val} {entry : Key × Val}
    (listed : entry ∈ insert entries key value) : entry = (key, value) ∨ entry ∈ entries := by
  induction entries with
  | nil => exact .inl (List.mem_singleton.mp listed)
  | cons first rest ih =>
    obtain ⟨own, current⟩ := first
    by_cases same : own = key
    · rw [insert, if_pos same] at listed
      exact (List.mem_cons.mp listed).imp_right (List.mem_cons_of_mem _)
    · rw [insert, if_neg same] at listed
      obtain rfl | later := List.mem_cons.mp listed
      · exact .inr List.mem_cons_self
      · exact (ih later).imp_right (List.mem_cons_of_mem _)

theorem remove_perm (distinct : Distinct entries) (key : Key) :
    (remove entries key).Perm (entries.filter fun entry => entry.1 ≠ key) := by
  induction entries with
  | nil => exact List.Perm.refl _
  | cons entry rest ih =>
    obtain ⟨own, value⟩ := entry
    obtain ⟨fresh, remaining⟩ := distinct_cons.mp distinct
    by_cases same : own = key
    · subst own
      have others : rest.filter (fun entry => entry.1 ≠ key) = rest := by
        rw [List.filter_eq_self]
        intro entry member
        have different : entry.1 ≠ key := by
          rintro rfl
          exact fresh (List.mem_map.mpr ⟨entry, member, rfl⟩)
        simpa using different
      simp only [remove, if_true, ne_eq, not_true_eq_false, decide_false, Bool.false_eq_true,
        not_false_eq_true, List.filter_cons_of_neg]
      rw [others]
      cases last : rest.getLast? with
      | none => rw [List.getLast?_eq_none_iff.mp last]
      | some entry =>
        have whole : rest.dropLast ++ [entry] = rest := List.dropLast_append_getLast? entry last
        have moved : (entry :: rest.dropLast).Perm (rest.dropLast ++ [entry]) :=
          (List.perm_append_singleton entry rest.dropLast).symm
        rwa [whole] at moved
    · simp only [remove, same, if_false, ne_eq, not_false_eq_true, decide_true,
        List.filter_cons_of_pos]
      exact (ih remaining).cons _

theorem distinct_remove (distinct : Distinct entries) (key : Key) :
    Distinct (remove entries key) := by
  have permuted : (keys (remove entries key)).Perm
      (keys (entries.filter fun entry => entry.1 ≠ key)) :=
    (remove_perm distinct key).map Prod.fst
  exact permuted.nodup_iff.mpr (distinct.sublist (List.filter_sublist.map Prod.fst))

theorem get_remove (distinct : Distinct entries) (key other : Key) :
    get (remove entries key) other = if other = key then none else get entries other := by
  have members : ∀ value, (other, value) ∈ remove entries key ↔
      (other, value) ∈ entries ∧ other ≠ key := by
    intro value
    rw [(remove_perm distinct key).mem_iff]
    simp
  refine Option.ext fun value => ?_
  rw [get_eq_some_iff (distinct_remove distinct key), members]
  by_cases same : other = key
  · simp [same]
  · simp [same, get_eq_some_iff distinct]

theorem insert_of_get {key : Key} {value : Val}
    (found : get entries key = some value) : insert entries key value = entries := by
  induction entries with
  | nil => simp at found
  | cons entry rest ih =>
    obtain ⟨own, current⟩ := entry
    by_cases same : own = key
    · simp_all [insert, get_cons]
    · rw [get_cons, if_neg same] at found
      rw [insert, if_neg same, ih found]

theorem remove_of_get {key : Key}
    (absent : get entries key = none) : remove entries key = entries := by
  induction entries with
  | nil => rfl
  | cons entry rest ih =>
    obtain ⟨own, value⟩ := entry
    by_cases same : own = key
    · simp [get_cons, same] at absent
    · rw [get_cons, if_neg same] at absent
      rw [remove, if_neg same, ih absent]

theorem remove_insert {key : Key} (absent : get entries key = none) (value : Val) :
    remove (insert entries key value) key = entries := by
  induction entries with
  | nil => simp [insert, remove]
  | cons entry rest ih =>
    obtain ⟨own, current⟩ := entry
    by_cases same : own = key
    · simp [get_cons, same] at absent
    · rw [get_cons, if_neg same] at absent
      rw [insert, if_neg same, remove, if_neg same, ih absent]

@[simp] theorem extend_nil (entries : List (Key × Val)) : extend entries [] = entries := rfl

theorem extend_cons (entries : List (Key × Val)) (entry : Key × Val) (rest : List (Key × Val)) :
    extend entries (entry :: rest) = extend (insert entries entry.1 entry.2) rest := rfl

theorem distinct_extend (distinct : Distinct entries)
    (new : List (Key × Val)) : Distinct (extend entries new) := by
  induction new generalizing entries with
  | nil => exact distinct
  | cons entry rest ih =>
    exact ih (distinct_insert distinct entry.1 entry.2)

theorem get_extend (entries new : List (Key × Val)) (key : Key) :
    get (extend entries new) key = (get new.reverse key).or (get entries key) := by
  induction new generalizing entries with
  | nil => simp
  | cons entry rest ih =>
    obtain ⟨own, value⟩ := entry
    rw [extend_cons, ih, get_insert, List.reverse_cons, get_append]
    by_cases same : key = own
    · subst own
      cases get rest.reverse key <;> simp [get_cons]
    · simp [get_cons, Ne.symm same, same]

theorem get_reverse (distinct : Distinct entries) (key : Key) :
    get entries.reverse key = get entries key := by
  have reversed : Distinct entries.reverse := by
    rw [Distinct, keys, List.map_reverse]
    exact List.nodup_reverse.mpr distinct
  refine Option.ext fun value => ?_
  rw [get_eq_some_iff reversed, get_eq_some_iff distinct, List.mem_reverse]

theorem get_perm {entries others : List (Key × Val)} (distinct : Distinct entries)
    (permuted : others.Perm entries) (key : Key) : get others key = get entries key := by
  have still : Distinct others := (permuted.map Prod.fst).nodup_iff.mpr distinct
  refine Option.ext fun value => ?_
  rw [get_eq_some_iff still, get_eq_some_iff distinct, permuted.mem_iff]

theorem perm_of_get {entries others : List (Key × Val)} (distinct : Distinct entries)
    (distinctToo : Distinct others) (same : ∀ key, get entries key = get others key) :
    entries.Perm others := by
  refine (List.perm_ext_iff_of_nodup (List.Nodup.of_map _ distinct)
    (List.Nodup.of_map _ distinctToo)).mpr fun entry => ?_
  obtain ⟨key, value⟩ := entry
  rw [← get_eq_some_iff distinct, ← get_eq_some_iff distinctToo, same]

theorem get_filter (entries : List (Key × Val)) (keep : Key → Bool) (key : Key) :
    get (entries.filter fun entry => keep entry.1) key = if keep key then get entries key else none := by
  induction entries with
  | nil => simp [get]
  | cons entry rest ih =>
    obtain ⟨own, value⟩ := entry
    by_cases kept : keep own = true
    · have first : ((own, value) :: rest).filter (fun entry => keep entry.1) =
          (own, value) :: rest.filter fun entry => keep entry.1 := List.filter_cons_of_pos kept
      rw [first, get_cons, get_cons, ih]
      by_cases same : own = key
      · simp [same, same ▸ kept]
      · simp [same]
    · have gone : ((own, value) :: rest).filter (fun entry => keep entry.1) =
          rest.filter fun entry => keep entry.1 := List.filter_cons_of_neg kept
      rw [gone, ih, get_cons]
      by_cases same : own = key
      · simp [same ▸ kept]
      · simp [same]

theorem erase_insert (entries : List (Key × Val)) (key : Key) (value : Val) :
    erase (insert entries key value) key = erase entries key := by
  induction entries with
  | nil => simp [insert, erase]
  | cons entry rest ih =>
    obtain ⟨own, current⟩ := entry
    unfold erase at ih
    by_cases same : own = key
    · simp [insert, erase, same]
    · simpa [insert, erase, same] using ih

theorem get_erase (entries : List (Key × Val)) (key other : Key) :
    get (erase entries key) other = if other = key then none else get entries other := by
  have kept := get_filter entries (fun own => own ≠ key) other
  by_cases same : other = key
  · simpa [erase, same] using kept
  · simpa [erase, same] using kept

theorem get_map {Other : Type*} (entries : List (Key × Val)) (change : Val → Other) (key : Key) :
    get (entries.map fun entry => (entry.1, change entry.2)) key = (get entries key).map change := by
  induction entries with
  | nil => rfl
  | cons entry rest ih =>
    obtain ⟨own, value⟩ := entry
    rw [List.map_cons, get_cons, get_cons, ih]
    split <;> rfl

theorem get_extend_distinct {new : List (Key × Val)} (distinct : Distinct new)
    (entries : List (Key × Val)) (key : Key) :
    get (extend entries new) key = (get new key).or (get entries key) := by
  rw [get_extend, get_reverse distinct]

theorem extend_of_get {entries new : List (Key × Val)}
    (held : ∀ entry ∈ new, get entries entry.1 = some entry.2) : extend entries new = entries := by
  induction new with
  | nil => rfl
  | cons entry rest ih =>
    rw [extend_cons, insert_of_get (held entry List.mem_cons_self)]
    exact ih fun later listed => held later (List.mem_cons_of_mem _ listed)

theorem insert_insert (entries : List (Key × Val)) (key : Key) (first second : Val) :
    insert (insert entries key first) key second = insert entries key second := by
  induction entries with
  | nil => simp [insert]
  | cons entry rest ih =>
    obtain ⟨own, current⟩ := entry
    by_cases same : own = key
    · simp [insert, same]
    · simp [insert, same, ih]

theorem insert_comm {key other : Key} (different : key ≠ other)
    (here : key ∈ keys entries) (there : other ∈ keys entries) (value otherValue : Val) :
    insert (insert entries key value) other otherValue =
      insert (insert entries other otherValue) key value := by
  induction entries with
  | nil => simp at here
  | cons entry rest ih =>
    obtain ⟨own, current⟩ := entry
    by_cases same : own = key
    · subst same
      simp [insert, different]
    · by_cases otherSame : own = other
      · subst otherSame
        simp [insert, different.symm]
      · have hereLater : key ∈ keys rest := by simpa [Ne.symm same] using here
        have thereLater : other ∈ keys rest := by simpa [Ne.symm otherSame] using there
        simp [insert, same, otherSame, ih hereLater thereLater]

theorem insert_eq_map (distinct : Distinct entries) {key : Key}
    {value : Val} (found : get entries key = some value) (change : Val → Val) :
    insert entries key (change value) =
      entries.map fun entry => if entry.1 = key then (entry.1, change entry.2) else entry := by
  induction entries with
  | nil => simp at found
  | cons entry rest ih =>
    obtain ⟨own, current⟩ := entry
    obtain ⟨fresh, remaining⟩ := distinct_cons.mp distinct
    by_cases same : own = key
    · subst same
      obtain rfl : current = value := by simpa [get_cons] using found
      have others : rest.map (fun entry => if entry.1 = own then (entry.1, change entry.2) else entry) =
          rest := by
        refine (List.map_congr_left fun entry member => ?_).trans (List.map_id rest)
        have away : entry.1 ≠ own := by
          rintro rfl
          exact fresh (List.mem_map.mpr ⟨entry, member, rfl⟩)
        exact if_neg away
      rw [List.map_cons, others]
      simp [insert]
    · rw [get_cons, if_neg same] at found
      simp [insert, same, ih remaining found]

end OrderedMap
