import ClashVerge.Enhance.Field
import ClashVerge.Library.SwapRemoval
import Mathlib.Data.List.Perm.Subperm

/-!
# The order of sorted fields

Sorting lists the handled fields first and the default fields last, each in their fixed order. The
handled fields are taken out one by one, and each time the last field moves into the freed place, so
the fields in neither list may lose their order, and sorting again may change it once more.
-/

namespace ClashVerge.Enhance

open ClashVerge.Yaml SwapRemoval
open OrderedMap (Distinct get_eq_none_iff insert keys_insert)

def fieldNames (config : Mapping) : List String := (OrderedMap.keys config).filterMap Value.asStr

/-- Every key is a text without a tag. -/
def StringKeys (config : Mapping) : Prop :=
  ∀ key ∈ OrderedMap.keys config, ∃ name, key = .string name

/-- Listed neither first nor last. -/
def Unlisted (name : String) : Prop := name ∉ handleFields ∧ name ∉ defaultFields

instance (name : String) : Decidable (Unlisted name) := inferInstanceAs (Decidable (_ ∧ _))

def handledOf (names : List String) : List String := handleFields.filter (· ∈ names)

def defaultsOf (names : List String) : List String := defaultFields.filter (· ∈ names)

def unlistedOf (names : List String) : List String := names.filter fun name => Unlisted name

def canonicalOrder (names : List String) : List String :=
  handledOf names ++ unlistedOf names ++ defaultsOf names

/-- What sorting is for: nothing is lost, the order is the canonical one, and a second time changes
no order. -/
structure SortedStably (config : Mapping) : Prop where
  kept : (useSort config).Perm config
  ordered : fieldNames (useSort config) = canonicalOrder (fieldNames config)
  settled : OrderedMap.keys (useSort (useSort config)) = OrderedMap.keys (useSort config)

/-- The first handled field is paired with the last name, the second with the one before it, and so
on. Following the pairs from a field leads to the name that comes in its place. -/
def StandsIn (names : List String) : String → String → Prop :=
  Resolves ((handledOf names).zip names.reverse)

def front (names : List String) : List String :=
  names.take (names.length - (handledOf names).length)

/-- No unlisted name in the front comes after a handled field that an unlisted name stands in for,
and these stand-ins are in order. Besides, there is at most one unlisted name, or there are not more
handled fields than default ones. -/
structure Undisturbed (names : List String) : Prop where
  nothingAfter : (front names).Pairwise fun field later => field ∈ handleFields →
    ∀ standIn, StandsIn names field standIn → Unlisted standIn → ¬ Unlisted later
  inOrder : (front names).Pairwise fun field later => field ∈ handleFields → later ∈ handleFields →
    ∀ first second, StandsIn names field first → StandsIn names later second →
      Unlisted first → Unlisted second → names.idxOf first < names.idxOf second
  few : (unlistedOf names).length ≤ 1 ∨ (handledOf names).length ≤ (defaultsOf names).length

theorem keys_eq_of_stringKeys {config : Mapping} (texts : StringKeys config) :
    OrderedMap.keys config = (fieldNames config).map Value.string := by
  unfold fieldNames
  unfold StringKeys at texts
  generalize OrderedMap.keys config = keys at texts
  induction keys with
  | nil => rfl
  | cons key rest ih =>
    obtain ⟨name, rfl⟩ := texts key List.mem_cons_self
    have later := ih fun key member => texts key (List.mem_cons_of_mem _ member)
    have first : (Value.string name :: rest).filterMap Value.asStr =
        name :: rest.filterMap Value.asStr := List.filterMap_cons_some rfl
    rw [first, List.map_cons, ← later]

theorem fieldNames_of_keys {config : Mapping} {names : List String}
    (keys : OrderedMap.keys config = names.map Value.string) : fieldNames config = names := by
  rw [fieldNames, keys, List.filterMap_map]
  exact List.filterMap_some

theorem string_injective : Function.Injective Value.string := fun _ _ => Value.string.inj

theorem handleFields_nodup : handleFields.Nodup := by decide

theorem defaultFields_nodup : defaultFields.Nodup := by decide

theorem moveField_keys (source : Mapping) {target : Mapping} {field : String}
    (absent : Value.string field ∉ OrderedMap.keys target) :
    OrderedMap.keys (moveField source target field).1 =
        swapRemove (OrderedMap.keys source) (.string field) ∧
      OrderedMap.keys (moveField source target field).2 =
        OrderedMap.keys target ++
          if Value.string field ∈ OrderedMap.keys source then [.string field] else [] := by
  unfold moveField
  split
  · rename_i value found
    have present : Value.string field ∈ OrderedMap.keys source :=
      List.mem_map.mpr ⟨_, OrderedMap.mem_of_get found, rfl⟩
    refine ⟨keys_remove source _, ?_⟩
    rw [Mapping.insert, keys_insert, if_neg absent, if_pos present]
  · rename_i missing
    have missing : Value.string field ∉ OrderedMap.keys source :=
      (get_eq_none_iff source _).mp missing
    rw [swapRemove_of_not_mem missing, if_neg missing, List.append_nil]
    exact ⟨rfl, rfl⟩

section

variable {source : Mapping}

theorem moveFields_keys (distinct : Distinct source) (target : Mapping)
    {fields : List String} (once : fields.Nodup)
    (absent : ∀ field ∈ fields, Value.string field ∉ OrderedMap.keys target) :
    OrderedMap.keys (moveFields source target fields).1 =
        swapRemoveAll (OrderedMap.keys source) (fields.map Value.string) ∧
      OrderedMap.keys (moveFields source target fields).2 =
        OrderedMap.keys target ++
          (fields.filter (Value.string · ∈ OrderedMap.keys source)).map Value.string := by
  induction fields generalizing source target with
  | nil => exact ⟨rfl, (List.append_nil _).symm⟩
  | cons field rest ih =>
    obtain ⟨fresh, remaining⟩ := List.nodup_cons.mp once
    obtain ⟨left, moved⟩ := moveField_keys source (absent field List.mem_cons_self)
    have other {name : String} (member : name ∈ rest) : Value.string name ≠ .string field :=
      fun same => fresh (string_injective same ▸ member)
    have absentMoved : ∀ name ∈ rest,
        Value.string name ∉ OrderedMap.keys (moveField source target field).2 := by
      intro name member
      rw [moved, List.mem_append, not_or]
      refine ⟨absent name (List.mem_cons_of_mem _ member), ?_⟩
      split
      · simpa using other member
      · exact List.not_mem_nil
    obtain ⟨leftAll, movedAll⟩ := ih
      (moveField_distinct distinct target field) _ remaining absentMoved
    rw [moveFields, List.foldl_cons, ← moveFields]
    refine ⟨by rw [leftAll, left]; rfl, ?_⟩
    have same : rest.filter (Value.string · ∈ OrderedMap.keys (moveField source target field).1) =
        rest.filter (Value.string · ∈ OrderedMap.keys source) := by
      refine List.filter_congr fun name member => ?_
      simp [left, mem_swapRemove distinct, other member]
    rw [movedAll, moved, same, List.append_assoc]
    by_cases present : Value.string field ∈ OrderedMap.keys source
    · simp [present]
    · simp [present]

theorem sortEntries_keys {names : List String}
    (keys : OrderedMap.keys source = names.map Value.string) (once : names.Nodup)
    (sorted defaults : Mapping)
    (absent : ∀ name ∈ names, Unlisted name → Value.string name ∉ OrderedMap.keys sorted)
    (absentDefault : ∀ name ∈ names, Value.string name ∉ OrderedMap.keys defaults) :
    OrderedMap.keys (sortEntries source sorted defaults).1 =
        OrderedMap.keys sorted ++ (unlistedOf names).map Value.string ∧
      OrderedMap.keys (sortEntries source sorted defaults).2 =
        OrderedMap.keys defaults ++ (names.filter (· ∈ defaultFields)).map Value.string := by
  induction source generalizing names sorted defaults with
  | nil =>
    obtain rfl : names = [] := List.map_eq_nil_iff.mp keys.symm
    exact ⟨(List.append_nil _).symm, (List.append_nil _).symm⟩
  | cons entry rest ih =>
    obtain ⟨key, value⟩ := entry
    cases names with
    | nil => exact absurd keys (List.cons_ne_nil _ _)
    | cons name others =>
      obtain ⟨rfl, keysRest⟩ := List.cons.inj keys
      obtain ⟨fresh, remaining⟩ := List.nodup_cons.mp once
      have other {later : String} (member : later ∈ others) :
          Value.string later ≠ .string name :=
        fun same => fresh (string_injective same ▸ member)
      have laterDefault : ∀ later ∈ others, Value.string later ∉ OrderedMap.keys defaults :=
        fun later member => absentDefault later (List.mem_cons_of_mem _ member)
      have laterSorted : ∀ later ∈ others, Unlisted later →
          Value.string later ∉ OrderedMap.keys sorted :=
        fun later member => absent later (List.mem_cons_of_mem _ member)
      rw [sortEntries, List.foldl_cons, ← sortEntries]
      unfold sortEntry
      rw [Value.asStr_string]
      dsimp only
      by_cases default : name ∈ defaultFields
      · have listed : ¬ Unlisted name := fun unlisted => unlisted.2 default
        have appended : OrderedMap.keys (insert defaults (.string name) value) =
            OrderedMap.keys defaults ++ [.string name] := by
          rw [keys_insert, if_neg (absentDefault name List.mem_cons_self)]
        rw [if_pos default]
        have laterInserted : ∀ later ∈ others, Value.string later ∉
            OrderedMap.keys (insert defaults (.string name) value) := by
          intro later member
          rw [appended, List.mem_append, not_or]
          exact ⟨laterDefault later member, by simpa using other member⟩
        obtain ⟨left, right⟩ :=
          ih keysRest remaining _ _ laterSorted laterInserted
        refine ⟨left.trans ?_, right.trans ?_⟩
        · simp [unlistedOf, listed]
        · simp [appended, default]
      · rw [if_neg default]
        by_cases handled : name ∈ handleFields
        · have listed : ¬ Unlisted name := fun unlisted => unlisted.1 handled
          rw [if_pos handled]
          obtain ⟨left, right⟩ := ih keysRest remaining _ _ laterSorted laterDefault
          refine ⟨left.trans ?_, right.trans ?_⟩
          · simp [unlistedOf, listed]
          · simp [default]
        · have unlisted : Unlisted name := ⟨handled, default⟩
          have appended : OrderedMap.keys (insert sorted (.string name) value) =
              OrderedMap.keys sorted ++ [.string name] := by
            rw [keys_insert, if_neg (absent name List.mem_cons_self unlisted)]
          rw [if_neg handled]
          have laterInserted : ∀ later ∈ others, Unlisted later → Value.string later ∉
              OrderedMap.keys (insert sorted (.string name) value) := by
            intro later member apart
            rw [appended, List.mem_append, not_or]
            exact ⟨laterSorted later member apart, by simpa using other member⟩
          obtain ⟨left, right⟩ :=
            ih keysRest remaining _ _ laterInserted laterDefault
          refine ⟨left.trans ?_, right.trans ?_⟩
          · simp [unlistedOf, appended, unlisted]
          · simp [default]

end

/-- The names of what sorting gives. Those in neither list are as the removals leave them. -/
def sortedNames (names : List String) : List String :=
  handledOf names ++ unlistedOf (swapRemoveAll names handleFields) ++ defaultsOf names

section

variable {config : Mapping} {names : List String}

theorem useSort_keys (keys : OrderedMap.keys config = names.map Value.string) (once : names.Nodup) :
    OrderedMap.keys (useSort config) =
      (sortedNames names).map Value.string := by
  have distinct : Distinct config := by
    rw [Distinct, keys]
    exact once.map string_injective
  have here : ∀ name, Value.string name ∈ OrderedMap.keys config ↔ name ∈ names := by
    intro name
    rw [keys, List.mem_map_of_injective string_injective]
  obtain ⟨left, handled⟩ := moveFields_keys distinct [] handleFields_nodup
    fun _ _ => List.not_mem_nil
  have handled : OrderedMap.keys (moveFields config [] handleFields).2 =
      (handledOf names).map Value.string := by
    simpa [here, handledOf] using handled
  rw [keys, swapRemoveAll_map string_injective] at left
  have notHandled : ∀ name ∈ swapRemoveAll names handleFields, Unlisted name →
      Value.string name ∉ OrderedMap.keys (moveFields config [] handleFields).2 := by
    intro name _ unlisted
    rw [handled, List.mem_map_of_injective string_injective]
    exact fun listed => unlisted.1 (List.mem_of_mem_filter listed)
  obtain ⟨sorted, defaults⟩ := sortEntries_keys left (nodup_swapRemoveAll once handleFields)
    (moveFields config [] handleFields).2 [] notHandled fun _ _ => List.not_mem_nil
  rw [handled, ← List.map_append] at sorted
  have notSorted : ∀ field ∈ defaultFields, Value.string field ∉ OrderedMap.keys
      (sortEntries (moveFields config [] handleFields).1
        (moveFields config [] handleFields).2 []).1 := by
    intro field default
    rw [sorted, List.mem_map_of_injective string_injective, List.mem_append, not_or]
    refine ⟨fun listed => ?_, fun listed => ?_⟩
    · exact default_not_handled field default (List.mem_of_mem_filter listed)
    · have unlisted : Unlisted field := by simpa using List.of_mem_filter listed
      exact unlisted.2 default
  have joined := (moveFields_keys (sortEntries_distinct (moveFields config [] handleFields).1
    (moveFields config [] handleFields).2 OrderedMap.distinct_nil) _ defaultFields_nodup
    notSorted).2
  have present : defaultFields.filter (Value.string · ∈ OrderedMap.keys (sortEntries
      (moveFields config [] handleFields).1 (moveFields config [] handleFields).2 []).2) =
        defaultsOf names := by
    refine List.filter_congr fun field default => ?_
    rw [defaults]
    simp [List.mem_map_of_injective string_injective, mem_swapRemoveAll once, default,
      default_not_handled field default]
  rw [useSort, joined, present, sorted, ← List.map_append, sortedNames]

theorem mem_handledOf {name : String} :
    name ∈ handledOf names ↔ name ∈ handleFields ∧ name ∈ names := by
  simp [handledOf]

theorem mem_defaultsOf {name : String} :
    name ∈ defaultsOf names ↔ name ∈ defaultFields ∧ name ∈ names := by
  simp [defaultsOf]

theorem mem_unlistedOf {name : String} :
    name ∈ unlistedOf names ↔ Unlisted name ∧ name ∈ names := by
  simp [unlistedOf, and_comm]

theorem mem_unlistedOf_swapRemoveAll (once : names.Nodup) {name : String} :
    name ∈ unlistedOf (swapRemoveAll names handleFields) ↔ Unlisted name ∧ name ∈ names := by
  rw [mem_unlistedOf, mem_swapRemoveAll once]
  exact and_congr_right fun unlisted => and_iff_right unlisted.1

theorem mem_sortedNames (once : names.Nodup) {name : String} :
    name ∈ sortedNames names ↔ name ∈ names := by
  rw [sortedNames, List.mem_append, List.mem_append, mem_handledOf, mem_defaultsOf,
    mem_unlistedOf_swapRemoveAll once]
  by_cases handled : name ∈ handleFields <;> by_cases default : name ∈ defaultFields <;>
    simp [Unlisted, handled, default]

theorem nodup_sortedNames (once : names.Nodup) : (sortedNames names).Nodup := by
  have unlisted {name : String}
      (listed : name ∈ unlistedOf (swapRemoveAll names handleFields)) : Unlisted name :=
    (mem_unlistedOf.mp listed).1
  refine ((handleFields_nodup.filter _).append
    ((nodup_swapRemoveAll once handleFields).filter _) ?_).append
    (defaultFields_nodup.filter _) ?_
  · exact fun name handled other => (unlisted other).1 (mem_handledOf.mp handled).1
  · intro name first default
    obtain ⟨default, _⟩ := mem_defaultsOf.mp default
    obtain handled | other := List.mem_append.mp first
    · exact default_not_handled name default (mem_handledOf.mp handled).1
    · exact (unlisted other).2 default

theorem useSort_perm (texts : StringKeys config) (distinct : Distinct config) :
    (useSort config).Perm config := by
  have keys := keys_eq_of_stringKeys texts
  have once : (fieldNames config).Nodup := by
    rw [Distinct, keys] at distinct
    exact distinct.of_map _
  have sorted := useSort_keys keys once
  have still : Distinct (useSort config) := by
    rw [Distinct, sorted]
    exact (nodup_sortedNames once).map string_injective
  refine OrderedMap.perm_of_get still distinct fun key => ?_
  by_cases text : ∃ name, key = .string name
  · obtain ⟨name, rfl⟩ := text
    exact get_useSort distinct name
  · have absent : ∀ names : List String, key ∉ names.map Value.string := by
      intro names listed
      obtain ⟨name, _, same⟩ := List.mem_map.mp listed
      exact text ⟨name, same.symm⟩
    rw [(get_eq_none_iff _ key).mpr (sorted ▸ absent _),
      (get_eq_none_iff _ key).mpr (keys ▸ absent _)]

theorem sortedNames_canonical_iff : sortedNames names = canonicalOrder names ↔
      unlistedOf (swapRemoveAll names handleFields) = unlistedOf names := by
  rw [sortedNames, canonicalOrder, List.append_left_inj, List.append_right_inj]

theorem handledOf_sortedNames (once : names.Nodup) :
    handledOf (sortedNames names) = handledOf names := by
  refine List.filter_congr fun name _ => ?_
  simp [mem_sortedNames once]

theorem defaultsOf_sortedNames (once : names.Nodup) :
    defaultsOf (sortedNames names) = defaultsOf names := by
  refine List.filter_congr fun name _ => ?_
  simp [mem_sortedNames once]

theorem unlistedOf_eq_nil {listed : List String} (none_ : ∀ name ∈ listed, ¬ Unlisted name) :
    unlistedOf listed = [] :=
  List.filter_eq_nil_iff.mpr fun name member => by simpa using none_ name member

theorem unlistedOf_eq_self {others : List String} (all : ∀ name ∈ others, Unlisted name) :
    unlistedOf others = others :=
  List.filter_eq_self.mpr fun name member => by simpa using all name member

theorem unlistedOf_append (first second : List String) :
    unlistedOf (first ++ second) = unlistedOf first ++ unlistedOf second :=
  List.filter_append ..

theorem unlistedOf_again (once : names.Nodup) :
    unlistedOf (swapRemoveAll (sortedNames names) handleFields) =
      (unlistedOf (swapRemoveAll names handleFields)).reverse.take
          ((handledOf names).length - (defaultsOf names).length) ++
        (unlistedOf (swapRemoveAll names handleFields)).take
          ((unlistedOf (swapRemoveAll names handleFields)).length +
            (defaultsOf names).length - (handledOf names).length) := by
  have still := nodup_sortedNames once
  rw [← swapRemoveAll_filter still handleFields_nodup]
  change unlistedOf (swapRemoveAll (sortedNames names) (handledOf (sortedNames names))) = _
  rw [handledOf_sortedNames once]
  rw [sortedNames, List.append_assoc] at still ⊢
  rw [swapRemoveAll_head still]
  generalize others_ : unlistedOf (swapRemoveAll names handleFields) = others
  have unlisted : ∀ name ∈ others, Unlisted name := fun name member =>
    (mem_unlistedOf.mp (others_ ▸ member)).1
  have default : ∀ name ∈ defaultsOf names, ¬ Unlisted name := fun name member apart =>
    apart.2 (mem_defaultsOf.mp member).1
  have none_ {listed : List String} (part : listed ⊆ defaultsOf names) : unlistedOf listed = [] :=
    unlistedOf_eq_nil fun name member => default name (part member)
  have all {listed : List String} (part : listed ⊆ others) : unlistedOf listed = listed :=
    unlistedOf_eq_self fun name member => unlisted name (part member)
  rw [List.reverse_append, List.take_append, List.take_append, List.length_reverse,
    List.length_append, unlistedOf_append, unlistedOf_append, unlistedOf_append,
    none_ fun name member => List.mem_reverse.mp (List.mem_of_mem_take member),
    all fun name member => List.mem_reverse.mp (List.mem_of_mem_take member),
    all fun name member => List.mem_of_mem_take member,
    none_ fun name member => List.mem_of_mem_take member, List.nil_append, List.append_nil]

/-- Taking from the end and from the front gives the whole list if nothing is taken from the end, or
if there is no other element. -/
theorem take_ends_iff {others : List String} (distinct : others.Nodup) (handled defaults : Nat) :
    others.reverse.take (handled - defaults) ++ others.take (others.length + defaults - handled) =
      others ↔ others.length ≤ 1 ∨ handled ≤ defaults := by
  constructor
  · intro same
    by_contra neither
    obtain ⟨several, more⟩ := not_or.mp neither
    obtain rfl | ⟨before, last, rfl⟩ := List.eq_nil_or_concat others
    · exact absurd several (by simp)
    obtain _ | ⟨first, middle⟩ := before
    · exact absurd several (by simp)
    obtain ⟨taken, is_⟩ := Nat.exists_eq_succ_of_ne_zero
      (Nat.sub_ne_zero_of_lt (Nat.lt_of_not_le more))
    rw [List.concat_eq_append] at *
    rw [is_, List.reverse_append, List.reverse_singleton, List.singleton_append,
      List.take_succ_cons, List.cons_append, List.cons_append] at same
    have equal : last = first := (List.cons.inj same).1
    exact (List.nodup_cons.mp distinct).1 (equal ▸ by simp)
  · rintro (single | enough)
    · obtain _ | ⟨only, rest⟩ := others
      · simp
      · obtain rfl : rest = [] := by simpa using single
        obtain more | enough := Nat.lt_or_ge defaults handled
        · obtain ⟨taken, is_⟩ := Nat.exists_eq_succ_of_ne_zero (Nat.sub_ne_zero_of_lt more)
          have none_ : [only].length + defaults - handled = 0 := by
            rw [List.length_singleton]
            omega
          rw [is_, none_]
          simp
        · rw [Nat.sub_eq_zero_of_le enough, List.take_zero, List.nil_append]
          exact List.take_of_length_le (by rw [List.length_singleton]; omega)
    · rw [Nat.sub_eq_zero_of_le enough, List.take_zero, List.nil_append]
      exact List.take_of_length_le (by omega)

section

variable (once : names.Nodup)
include once

theorem nodup_unlistedOf : (unlistedOf names).Nodup := once.filter _

theorem unlistedOf_perm :
    (unlistedOf (swapRemoveAll names handleFields)).Perm (unlistedOf names) := by
  refine (List.perm_ext_iff_of_nodup (nodup_unlistedOf (nodup_swapRemoveAll once handleFields))
    (nodup_unlistedOf once)).mpr fun name => ?_
  rw [mem_unlistedOf_swapRemoveAll once, mem_unlistedOf]

/-- Sorting again changes no order if there is at most one unlisted name, or if the default fields
are enough to fill the places of the handled ones. -/
theorem sortedNames_again_iff : sortedNames (sortedNames names) = sortedNames names ↔
      (unlistedOf names).length ≤ 1 ∨
        (handledOf names).length ≤ (defaultsOf names).length := by
  have whole : sortedNames (sortedNames names) = handledOf names ++
      unlistedOf (swapRemoveAll (sortedNames names) handleFields) ++ defaultsOf names := by
    conv_rhs => rw [← handledOf_sortedNames once, ← defaultsOf_sortedNames once]
    rfl
  rw [whole, unlistedOf_again once, sortedNames, List.append_left_inj, List.append_right_inj,
    take_ends_iff (nodup_unlistedOf (nodup_swapRemoveAll once handleFields)),
    (unlistedOf_perm once).length_eq]

theorem places_ordered :
    names.Pairwise fun first second => names.idxOf first < names.idxOf second := by
  rw [List.pairwise_iff_getElem]
  intro first second inside insideToo before
  rwa [once.idxOf_getElem, once.idxOf_getElem]

theorem unlistedOf_swapRemoveAll_eq_iff :
    unlistedOf (swapRemoveAll names handleFields) = unlistedOf names ↔
      (swapRemoveAll names handleFields).Pairwise fun first second =>
        Unlisted first → Unlisted second → names.idxOf first < names.idxOf second := by
  have ordered : (unlistedOf names).Pairwise fun first second =>
      names.idxOf first < names.idxOf second := (places_ordered once).filter _
  have filtered : (swapRemoveAll names handleFields).Pairwise (fun first second =>
        Unlisted first → Unlisted second → names.idxOf first < names.idxOf second) ↔
      (unlistedOf (swapRemoveAll names handleFields)).Pairwise fun first second =>
        names.idxOf first < names.idxOf second := by
    rw [unlistedOf, List.pairwise_filter]
    simp
  rw [filtered]
  constructor
  · intro same
    rwa [same]
  · intro places
    exact List.Perm.eq_of_pairwise (fun _ _ _ _ less more => absurd more (Nat.lt_asymm less))
      places ordered (unlistedOf_perm once)

end

theorem handledOf_length_le (names : List String) : (handledOf names).length ≤ names.length :=
  (List.Nodup.subperm (handleFields_nodup.filter _) fun _ listed => (mem_handledOf.mp listed).2).length_le

theorem standIn_pairs (names : List String) :
    ((handledOf names).zip names.reverse).map Prod.fst = handledOf names :=
  List.map_fst_zip (by simpa using handledOf_length_le names)

theorem StandsIn.unique {field first second : String} (one : StandsIn names field first)
    (other : StandsIn names field second) : first = second :=
  Resolves.unique (by rw [standIn_pairs]; exact handleFields_nodup.filter _) one other

theorem StandsIn.eq_of_not_mem {field standIn : String} (is_ : StandsIn names field standIn)
    (unhandled : field ∉ handleFields) : standIn = field := by
  refine is_.unique (.ends ?_)
  rw [standIn_pairs, mem_handledOf, not_and]
  exact fun handled => absurd handled unhandled

theorem StandsIn.mem_drop {field standIn : String} (is_ : StandsIn names field standIn)
    (handled : field ∈ handleFields) (listed : field ∈ names) :
    standIn ∈ names.drop (names.length - (handledOf names).length) := by
  obtain ⟨_, unpaired⟩ | paired := is_.origin
  · rw [standIn_pairs, mem_handledOf] at unpaired
    exact absurd ⟨handled, listed⟩ unpaired
  · have taken : ((handledOf names).zip names.reverse).map Prod.snd =
        names.reverse.take (handledOf names).length := by
      conv_lhs =>
        rw [← List.append_nil (handledOf names),
          ← List.take_append_drop (handledOf names).length names.reverse,
          List.zip_append (by simp [handledOf_length_le names]), List.zip_nil_left, List.append_nil]
      exact List.map_snd_zip (by simp [Nat.min_le_left])
    rw [taken, List.take_reverse] at paired
    exact List.mem_reverse.mp paired

theorem front_ordered (once : names.Nodup) {first second : String} (here : first ∈ front names)
    (there : second ∈ names.drop (names.length - (handledOf names).length)) :
    names.idxOf first < names.idxOf second := by
  have ordered := places_ordered once
  have pieces : (front names ++ names.drop (names.length - (handledOf names).length)).Pairwise
      fun first second => names.idxOf first < names.idxOf second := by
    rwa [front, List.take_append_drop]
  exact (List.pairwise_append.mp pieces).2.2 first here second there

/-- The places do not go down if no unlisted name comes after a handled field with an unlisted
stand-in, and the stand-ins are in order. -/
theorem ordered_iff (once : names.Nodup) :
    ((front names).Pairwise fun field later => ∀ first second, StandsIn names field first →
        StandsIn names later second → Unlisted first → Unlisted second →
          names.idxOf first < names.idxOf second) ↔
      ((front names).Pairwise fun field later => field ∈ handleFields →
        ∀ standIn, StandsIn names field standIn → Unlisted standIn → ¬ Unlisted later) ∧
      (front names).Pairwise fun field later => field ∈ handleFields → later ∈ handleFields →
        ∀ first second, StandsIn names field first → StandsIn names later second →
          Unlisted first → Unlisted second → names.idxOf first < names.idxOf second := by
  have inNames {name : String} (member : name ∈ front names) : name ∈ names :=
    List.mem_of_mem_take member
  have itself {name : String} (unhandled : name ∉ handleFields) : StandsIn names name name :=
    .ends (by rw [standIn_pairs, mem_handledOf]; exact fun listed => unhandled listed.1)
  have frontOrdered : (front names).Pairwise fun first second =>
      names.idxOf first < names.idxOf second := (places_ordered once).sublist (List.take_sublist ..)
  constructor
  · intro ordered
    refine ⟨ordered.imp_of_mem ?_, ordered.imp ?_⟩
    · intro field later here there inOrder handled standIn is_ unlisted laterUnlisted
      have after := inOrder standIn later is_ (itself laterUnlisted.1) unlisted laterUnlisted
      have before := front_ordered once there (is_.mem_drop handled (inNames here))
      exact absurd after (Nat.lt_asymm before)
    · intro field later inOrder _ _
      exact inOrder
  · rintro ⟨nothingAfter, inOrder⟩
    have both := (nothingAfter.and inOrder).and frontOrdered
    refine both.imp_of_mem ?_
    rintro field later here there ⟨⟨nothing, standInsOrdered⟩, before⟩ first second is_ laterIs
      unlisted laterUnlisted
    by_cases handled : field ∈ handleFields
    · by_cases laterHandled : later ∈ handleFields
      · exact standInsOrdered handled laterHandled first second is_ laterIs unlisted laterUnlisted
      · obtain rfl := laterIs.eq_of_not_mem laterHandled
        exact absurd laterUnlisted (nothing handled first is_ unlisted)
    · obtain rfl := is_.eq_of_not_mem handled
      by_cases laterHandled : later ∈ handleFields
      · exact front_ordered once here (laterIs.mem_drop laterHandled (inNames there))
      · obtain rfl := laterIs.eq_of_not_mem laterHandled
        exact before

theorem swapRemoveAll_ordered_iff (once : names.Nodup) :
    ((swapRemoveAll names handleFields).Pairwise fun first second =>
        Unlisted first → Unlisted second → names.idxOf first < names.idxOf second) ↔
      (front names).Pairwise fun field later => ∀ first second, StandsIn names field first →
        StandsIn names later second → Unlisted first → Unlisted second →
          names.idxOf first < names.idxOf second := by
  have landed := swapRemoveAll_resolves once (handleFields_nodup.filter (· ∈ names))
    fun name listed => (mem_handledOf.mp listed).2
  rw [swapRemoveAll_filter once handleFields_nodup] at landed
  exact pairwise_of_forall₂ (fun _ _ _ one other => StandsIn.unique one other) landed

end

section

variable {config : Mapping}

theorem nodup_fieldNames (texts : StringKeys config) (distinct : Distinct config) :
    (fieldNames config).Nodup := by
  rw [Distinct, keys_eq_of_stringKeys texts] at distinct
  exact distinct.of_map _

theorem useSort_ordered_iff (texts : StringKeys config) (once : (fieldNames config).Nodup) :
    fieldNames (useSort config) = canonicalOrder (fieldNames config) ↔
      ((front (fieldNames config)).Pairwise fun field later => field ∈ handleFields →
        ∀ standIn, StandsIn (fieldNames config) field standIn → Unlisted standIn →
          ¬ Unlisted later) ∧
      (front (fieldNames config)).Pairwise fun field later => field ∈ handleFields →
        later ∈ handleFields → ∀ first second, StandsIn (fieldNames config) field first →
          StandsIn (fieldNames config) later second → Unlisted first → Unlisted second →
            (fieldNames config).idxOf first < (fieldNames config).idxOf second := by
  rw [fieldNames_of_keys (useSort_keys (keys_eq_of_stringKeys texts) once),
    sortedNames_canonical_iff, unlistedOf_swapRemoveAll_eq_iff once,
    swapRemoveAll_ordered_iff once, ordered_iff once]

theorem useSort_settled_iff (texts : StringKeys config) (once : (fieldNames config).Nodup) :
    OrderedMap.keys (useSort (useSort config)) = OrderedMap.keys (useSort config) ↔
      (unlistedOf (fieldNames config)).length ≤ 1 ∨
        (handledOf (fieldNames config)).length ≤ (defaultsOf (fieldNames config)).length := by
  have sorted := useSort_keys (keys_eq_of_stringKeys texts) once
  rw [useSort_keys sorted (nodup_sortedNames once), sorted,
    (List.map_injective_iff.mpr string_injective).eq_iff, sortedNames_again_iff once]

/-- Sorting gives the canonical order, and a stable one, exactly for undisturbed names. -/
theorem useSort_sortedStably_iff (texts : StringKeys config) (distinct : Distinct config) :
    SortedStably config ↔ Undisturbed (fieldNames config) := by
  have once := nodup_fieldNames texts distinct
  constructor
  · intro stably
    obtain ⟨nothingAfter, inOrder⟩ := (useSort_ordered_iff texts once).mp stably.ordered
    exact ⟨nothingAfter, inOrder, (useSort_settled_iff texts once).mp stably.settled⟩
  · intro undisturbed
    exact ⟨useSort_perm texts distinct,
      (useSort_ordered_iff texts once).mpr ⟨undisturbed.nothingAfter, undisturbed.inOrder⟩,
      (useSort_settled_iff texts once).mpr undisturbed.few⟩

end

/-- A handled field before two unlisted ones. -/
def modeFirst : Mapping :=
  [(.string "mode", .string "rule"), (.string "tun", .null), (.string "dns", .null)]

theorem modeFirst_texts : StringKeys modeFirst := by
  simp [StringKeys, modeFirst]

theorem modeFirst_distinct : Distinct modeFirst := by
  simp [Distinct, modeFirst]

theorem modeFirst_sortedStably_iff : SortedStably modeFirst ↔ Undisturbed (fieldNames modeFirst) :=
  useSort_sortedStably_iff modeFirst_texts modeFirst_distinct

/-- The last field moves to the front, and to the end again when it is sorted once more. -/
theorem modeFirst_not_sortedStably :
    StringKeys modeFirst ∧ Distinct modeFirst ∧ ¬ SortedStably modeFirst := by
  refine ⟨modeFirst_texts, modeFirst_distinct, fun stably => ?_⟩
  have moved : fieldNames (useSort modeFirst) = ["mode", "dns", "tun"] := by decide
  have wanted : canonicalOrder (fieldNames modeFirst) = ["mode", "tun", "dns"] := by decide
  have same := stably.ordered
  rw [moved, wanted] at same
  exact absurd same (by decide)

end ClashVerge.Enhance
