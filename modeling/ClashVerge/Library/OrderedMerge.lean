import ClashVerge.Library.OrderedMap

/-!
# Merging insertion-ordered maps

The entries of one map are put into another one after the other, each with a value made of the key,
the value that is there, if any, and the new one. Merging the same map again changes nothing if the
same is true of each value.
-/

namespace OrderedMap

universe u v
variable {Key : Type u} {Val : Type v} [DecidableEq Key] {combine : Key → Option Val → Val → Val}
  {entries new : List (Key × Val)}

def mergeWith (combine : Key → Option Val → Val → Val) (entries new : List (Key × Val)) :
    List (Key × Val) :=
  new.foldl (fun map entry => insert map entry.1 (combine entry.1 (get map entry.1) entry.2))
    entries

@[simp] theorem mergeWith_nil (entries : List (Key × Val)) : mergeWith combine entries [] = entries :=
  rfl

theorem mergeWith_cons (entries : List (Key × Val)) (key : Key) (value : Val)
    (rest : List (Key × Val)) : mergeWith combine entries ((key, value) :: rest) =
      mergeWith combine (insert entries key (combine key (get entries key) value)) rest := rfl

theorem get_mergeWith (distinct : Distinct new) (entries : List (Key × Val)) (key : Key) :
    get (mergeWith combine entries new) key = (get new key).elim (get entries key)
      fun value => some (combine key (get entries key) value) := by
  induction new generalizing entries with
  | nil => rfl
  | cons entry rest ih =>
    obtain ⟨own, value⟩ := entry
    obtain ⟨fresh, distinct⟩ := distinct_cons.mp distinct
    rw [mergeWith_cons, ih distinct, get_cons]
    by_cases same : own = key
    · subst same
      rw [(get_eq_none_iff rest own).mpr fresh, if_pos rfl, get_insert_same]
      rfl
    · rw [if_neg same, get_insert_other _ _ (Ne.symm same)]

theorem get_mergeWith_of_none (distinct : Distinct new) {key : Key} (absent : get new key = none) :
    get (mergeWith combine entries new) key = get entries key := by
  rw [get_mergeWith distinct, absent, Option.elim_none]

theorem get_mergeWith_of_some (distinct : Distinct new) {key : Key} {value : Val}
    (is_ : get new key = some value) : get (mergeWith combine entries new) key =
      some (combine key (get entries key) value) := by
  rw [get_mergeWith distinct, is_, Option.elim_some]

theorem keys_prefix_mergeWith (entries new : List (Key × Val)) :
    keys entries <+: keys (mergeWith combine entries new) := by
  induction new generalizing entries with
  | nil => exact List.prefix_refl _
  | cons entry rest ih =>
    refine List.IsPrefix.trans ?_ (ih _)
    rw [keys_insert]
    split
    · exact List.prefix_refl _
    · exact List.prefix_append _ _

theorem mergeWith_of_fixed (fixed : ∀ entry ∈ new, ∃ value, get entries entry.1 = some value ∧
      combine entry.1 (some value) entry.2 = value) : mergeWith combine entries new = entries := by
  induction new with
  | nil => rfl
  | cons entry rest ih =>
    obtain ⟨own, value⟩ := entry
    obtain ⟨⟨current, here, same⟩, later⟩ := List.forall_mem_cons.mp fixed
    rw [mergeWith_cons, here, same, insert_of_get here]
    exact ih later

theorem mergeWith_mergeWith (distinct : Distinct new)
    (again : ∀ entry ∈ new, ∀ current, combine entry.1
      (some (combine entry.1 current entry.2)) entry.2 = combine entry.1 current entry.2)
    (entries : List (Key × Val)) :
    mergeWith combine (mergeWith combine entries new) new = mergeWith combine entries new := by
  refine mergeWith_of_fixed fun entry listed => ?_
  have is_ := (get_eq_some_iff distinct entry.1 entry.2).mpr listed
  exact ⟨_, get_mergeWith_of_some distinct is_, again entry listed _⟩

end OrderedMap
