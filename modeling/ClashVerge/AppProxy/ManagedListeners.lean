import ClashVerge.Config.Generate

/-!
# Managed listeners in a generated configuration

Generating a configuration puts the desired listeners into its `listeners`: each takes the place of
the items with its name and goes to the end. Where `listeners` is neither absent nor a sequence, the
configuration is left as it is, so a desired listener is missing from it.
-/

namespace ClashVerge.AppProxy

open ClashVerge.Yaml ClashVerge.Config

def namedItems (name : String) (items : List Value) : List Value :=
  items.filter fun item => itemName item = some name

/-- The items that have none of the names of the desired listeners. -/
def otherItems (desired : List ManagedListenerSpec) (items : List Value) : List Value :=
  items.filter fun item => ∀ spec ∈ desired, itemName item ≠ some spec.name

/-- What is asked of a configuration that the desired listeners were merged into. -/
structure ListenersSurvive (desired : List ManagedListenerSpec) (config merged : Mapping) :
    Prop where
  loaded : ∀ spec ∈ desired, managedListenerLoaded spec (some merged) = true
  once : ∀ spec ∈ desired, (namedItems spec.name (listenerItems (some merged))).length = 1
  kept : otherItems desired (listenerItems (some merged)) =
    otherItems desired (listenerItems (some config))
  keys : OrderedMap.erase merged (.string "listeners") =
    OrderedMap.erase config (.string "listeners")
  again : mergeManagedListener (some desired) merged = merged
  configured : ∀ spec ∈ desired, namedItems spec.name (listenerItems (some merged)) =
    namedItems spec.name (listenerItems (some (putListener spec config)))
  removed : ∀ spec ∈ desired, ∃ item ∈ listenerItems (some merged),
    itemName item = some spec.name ∧
      listenerItems (some (takeListener spec.name merged)) =
        (listenerItems (some merged)).erase item ∧
      OrderedMap.erase (takeListener spec.name merged) (.string "listeners") =
        OrderedMap.erase config (.string "listeners")

def TakesListeners (config : Mapping) : Prop :=
  ∀ listeners, config.get "listeners" = some listeners → listeners.asSequence.isSome = true

section

variable {desired : List ManagedListenerSpec} {config : Mapping} {spec : ManagedListenerSpec}
  {name : String} {items : List Value}

@[simp] theorem itemName_item (spec : ManagedListenerSpec) :
    itemName spec.item = some spec.name := by
  cases spec
  rfl

theorem filter_not_eq_erase {Item : Type} [DecidableEq Item] {passes : Item → Bool} {one : Item}
    {all : List Item} (only : all.filter passes = [one]) :
    (all.filter fun item => !passes item) = all.erase one := by
  induction all with
  | nil => simp at only
  | cons item rest ih =>
    by_cases passed : passes item = true
    · rw [List.filter_cons_of_pos passed] at only
      obtain ⟨rfl, none⟩ := List.cons.inj only
      rw [List.erase_cons_head, List.filter_cons_of_neg (by simp [passed]), List.filter_eq_self]
      intro other member
      simpa using List.filter_eq_nil_iff.mp none other member
    · rw [List.filter_cons_of_neg passed] at only
      have different : item ≠ one := by
        rintro rfl
        have member : item ∈ rest.filter passes := by rw [only]; exact List.mem_singleton_self _
        exact passed (List.mem_filter.mp member).2
      rw [List.erase_cons_tail (by simpa using different),
        List.filter_cons_of_pos (by simp [passed]), ih only]

theorem without_eq_erase {item : Value} (only : namedItems name items = [item]) :
    without name items = items.erase item := by
  rw [← filter_not_eq_erase only, without]
  exact List.filter_congr fun item _ => decide_not

theorem foldl_put (distinct : (desired.map (·.name)).Nodup) (items : List Value) :
    desired.foldl (fun items spec => without spec.name items ++ [spec.item]) items =
      otherItems desired items ++ desired.map ManagedListenerSpec.item := by
  induction desired generalizing items with
  | nil => simp [otherItems]
  | cons spec rest ih =>
    obtain ⟨fresh, distinct⟩ := List.nodup_cons.mp distinct
    have apart : ∀ other ∈ rest, spec.name ≠ other.name := fun other member same =>
      fresh (List.mem_map.mpr ⟨other, member, same.symm⟩)
    have own : otherItems rest [spec.item] = [spec.item] := by
      rw [otherItems, List.filter_eq_self]
      simpa using apart
    have both : otherItems rest (without spec.name items) = otherItems (spec :: rest) items := by
      rw [otherItems, without, List.filter_filter, otherItems]
      refine List.filter_congr fun item _ => ?_
      rw [← Bool.decide_and, decide_eq_decide, List.forall_mem_cons, and_comm]
    rw [List.foldl_cons, ih distinct, otherItems, List.filter_append,
      ← otherItems, ← otherItems, own, both, List.map_cons, List.append_assoc]
    rfl

def mergedItems (desired : List ManagedListenerSpec) (items : List Value) : List Value :=
  otherItems desired items ++ desired.map ManagedListenerSpec.item

theorem otherItems_item : otherItems desired (desired.map ManagedListenerSpec.item) = [] := by
  rw [otherItems, List.filter_eq_nil_iff]
  intro item member
  obtain ⟨spec, listed, rfl⟩ := List.mem_map.mp member
  simp only [itemName_item, decide_eq_true_eq]
  exact fun apart => apart spec listed rfl

theorem otherItems_mergedItems : otherItems desired (mergedItems desired items) =
    otherItems desired items := by
  rw [mergedItems, otherItems, List.filter_append, ← otherItems, ← otherItems, otherItems_item,
    List.append_nil, otherItems, otherItems, List.filter_filter]
  exact List.filter_congr fun item _ => Bool.and_self _

theorem mergedItems_mergedItems : mergedItems desired (mergedItems desired items) =
    mergedItems desired items := by
  rw [mergedItems, otherItems_mergedItems, ← mergedItems]

theorem namedItems_mergedItems (distinct : (desired.map (·.name)).Nodup) (listed : spec ∈ desired) :
    namedItems spec.name (mergedItems desired items) = [spec.item] := by
  have apart : namedItems spec.name (otherItems desired items) = [] := by
    rw [namedItems, List.filter_eq_nil_iff]
    intro item member
    have other := (List.mem_filter.mp member).2
    simp only [decide_eq_true_eq] at other ⊢
    exact other spec listed
  have own : namedItems spec.name (desired.map ManagedListenerSpec.item) = [spec.item] := by
    clear apart
    induction desired with
    | nil => contradiction
    | cons first rest ih =>
      obtain ⟨fresh, distinct⟩ := List.nodup_cons.mp distinct
      rcases List.mem_cons.mp listed with rfl | later
      · rw [List.map_cons, namedItems, List.filter_cons_of_pos (by simp), List.filter_eq_nil_iff.mpr]
        intro item member
        obtain ⟨other, present, rfl⟩ := List.mem_map.mp member
        simp only [itemName_item, Option.some.injEq, decide_eq_true_eq]
        exact fun same => fresh (List.mem_map.mpr ⟨other, present, same⟩)
      · have different : first.name ≠ spec.name := fun same =>
          fresh (List.mem_map.mpr ⟨spec, later, same.symm⟩)
        rw [List.map_cons, namedItems, List.filter_cons_of_neg (by simpa using different),
          ← namedItems, ih distinct later]
  rw [mergedItems, namedItems, List.filter_append, ← namedItems, ← namedItems, apart, own,
    List.nil_append]

theorem mapSequence_mapSequence (first second : List Value → List Value) (value : Value) :
    mapSequence second (mapSequence first value) =
      mapSequence (fun items => second (first items)) value := by
  induction value using mapSequence.induct with
  | case1 items => rfl
  | case2 tag value ih =>
    simp only [mapSequence, ih]
  | case3 value notSequence notTagged =>
    cases value <;> first
      | rfl
      | exact absurd rfl (notSequence _)
      | exact absurd rfl (notTagged _ _)

theorem mergeManagedListener_eq (distinct : (desired.map (·.name)).Nodup) (config : Mapping) :
    mergeManagedListener (some desired) config = config.insert (.string "listeners")
      (mapSequence (mergedItems desired) ((config.get "listeners").getD (.sequence []))) := by
  have folds : (fun items => desired.foldl (fun items spec => without spec.name items ++
      [spec.item]) items) = mergedItems desired := funext (foldl_put distinct)
  rw [mergeManagedListener, folds]

theorem listenerItems_insert (config : Mapping) (value : Value) :
    listenerItems (some (config.insert (.string "listeners") value)) =
      value.asSequence.getD [] := by
  rw [listenerItems, Option.bind_some, get_listeners, Option.bind_some]

section

variable (distinct : (desired.map (·.name)).Nodup)
include distinct

theorem listenerItems_merge (takes : TakesListeners config) :
    listenerItems (some (mergeManagedListener (some desired) config)) =
      mergedItems desired (listenerItems (some config)) := by
  rw [mergeManagedListener_eq distinct, listenerItems_insert, asSequence_mapSequence, listenerItems,
    Option.bind_some]
  cases found : config.get "listeners" with
  | none => rfl
  | some listeners =>
    obtain ⟨items, is_⟩ := Option.isSome_iff_exists.mp (takes listeners found)
    simp [is_]

theorem listenerItems_merge_of_not (not : ¬ TakesListeners config) :
    listenerItems (some (mergeManagedListener (some desired) config)) = [] := by
  obtain ⟨listeners, not⟩ := not_forall.mp not
  obtain ⟨found, not⟩ := Classical.not_imp.mp not
  rw [mergeManagedListener_eq distinct, listenerItems_insert, asSequence_mapSequence, found,
    Option.getD_some, Option.not_isSome_iff_eq_none.mp not]
  rfl

theorem merge_merge (config : Mapping) :
    mergeManagedListener (some desired) (mergeManagedListener (some desired) config) =
      mergeManagedListener (some desired) config := by
  have same : (fun items => mergedItems desired (mergedItems desired items)) =
      mergedItems desired := funext fun items => mergedItems_mergedItems
  rw [mergeManagedListener_eq distinct, mergeManagedListener_eq distinct, get_listeners,
    Option.getD_some, mapSequence_mapSequence, same, Mapping.insert, Mapping.insert,
    OrderedMap.insert_insert]

end

theorem loaded_item (port : spec.port < UInt16.size) (listed : spec.item ∈ items)
    (are : listenerItems (some config) = items) :
    managedListenerLoaded spec (some config) = true := by
  rw [managedListenerLoaded, are, List.any_eq_true]
  refine ⟨spec.item, listed, ?_⟩
  obtain ⟨name, number, group⟩ := spec
  have fits : number < UInt64.size := Nat.lt_trans port (by decide)
  cases group <;>
    simp [ManagedListenerSpec.item, Value.asMapping, Mapping.get, OrderedMap.get, asU64, Value.untag, fits, Value.asStr]

theorem namedItems_putListener (takes : TakesListeners config) (spec : ManagedListenerSpec) :
    namedItems spec.name (listenerItems (some (putListener spec config))) = [spec.item] := by
  have put : ∀ items, namedItems spec.name (without spec.name items ++ [spec.item]) =
      [spec.item] := by
    intro items
    have apart : namedItems spec.name (without spec.name items) = [] := by
      rw [namedItems, List.filter_eq_nil_iff]
      intro item member
      simpa using (List.mem_filter.mp member).2
    rw [namedItems, List.filter_append, ← namedItems, apart, List.nil_append,
      List.filter_cons_of_pos (by simp), List.filter_nil]
  rw [putListener, listenerItems_insert, asSequence_mapSequence]
  cases found : config.get "listeners" with
  | none => exact put []
  | some listeners =>
    obtain ⟨items, is_⟩ := Option.isSome_iff_exists.mp (takes listeners found)
    rw [Option.getD_some, is_]
    exact put items

theorem erase_takeListener (name : String) (config : Mapping) :
    OrderedMap.erase (takeListener name config) (.string "listeners") =
      OrderedMap.erase config (.string "listeners") := by
  unfold takeListener
  cases config.get "listeners" with
  | none => rfl
  | some listeners => exact OrderedMap.erase_insert ..

/-- The desired listeners survive if there are none, or if `listeners` is absent or a sequence, and
otherwise they do not. -/
theorem listenersSurvive_iff (distinct : (desired.map (·.name)).Nodup)
    (ports : ∀ spec ∈ desired, spec.port < UInt16.size) (config : Mapping) :
    ListenersSurvive desired config (mergeManagedListener (some desired) config) ↔
      desired = [] ∨ TakesListeners config := by
  have keys : OrderedMap.erase (mergeManagedListener (some desired) config) (.string "listeners") =
      OrderedMap.erase config (.string "listeners") := by
    rw [mergeManagedListener_eq distinct]
    exact OrderedMap.erase_insert ..
  constructor
  · intro survive
    by_contra neither
    obtain ⟨some_, not⟩ := not_or.mp neither
    obtain ⟨spec, listed⟩ := List.exists_mem_of_ne_nil desired some_
    have once := survive.once spec listed
    rw [listenerItems_merge_of_not distinct not] at once
    contradiction
  · intro accepted
    by_cases takes : TakesListeners config
    · have items := listenerItems_merge distinct takes
      refine ⟨fun spec listed => ?_, fun spec listed => ?_, ?_, keys, merge_merge distinct config,
        fun spec listed => ?_, fun spec listed => ?_⟩
      · exact loaded_item (ports spec listed)
          (List.mem_append_right _ (List.mem_map_of_mem listed)) items
      · rw [items, namedItems_mergedItems distinct listed, List.length_singleton]
      · rw [items, otherItems_mergedItems]
      · rw [items, namedItems_mergedItems distinct listed, namedItems_putListener takes]
      · refine ⟨spec.item, ?_, itemName_item spec, ?_, ?_⟩
        · rw [items]
          exact List.mem_append_right _ (List.mem_map_of_mem listed)
        · rw [← Option.map_some, listenerItems_takeListener, items]
          exact without_eq_erase (namedItems_mergedItems distinct listed)
        · rw [erase_takeListener, keys]
    · obtain rfl := accepted.resolve_right takes
      have none_ : listenerItems (some config) = [] := by
        obtain ⟨listeners, not⟩ := not_forall.mp takes
        obtain ⟨found, not⟩ := Classical.not_imp.mp not
        rw [listenerItems, Option.bind_some, found, Option.bind_some,
          Option.not_isSome_iff_eq_none.mp not, Option.getD_none]
      refine ⟨fun _ listed => ?_, fun _ listed => ?_, ?_, keys, merge_merge distinct config,
        fun _ listed => ?_, fun _ listed => ?_⟩
      · contradiction
      · contradiction
      · rw [listenerItems_merge_of_not distinct takes, none_]
      · contradiction
      · contradiction

end

/-- A profile with a listener of its own and one that has the name of a managed one. -/
def declaredListeners : Mapping :=
  [(.string "mode", .string "rule"), (.string "listeners", .sequence
    [.mapping [(.string "name", .string "clew-app")], .mapping [(.string "name", .string "own")]])]

theorem declared_survive : ListenersSurvive [⟨"clew-app", 12001, some "GROUP_A"⟩] declaredListeners
    (mergeManagedListener (some [⟨"clew-app", 12001, some "GROUP_A"⟩]) declaredListeners) := by
  refine (listenersSurvive_iff (by decide) (by decide) _).mpr (.inr ?_)
  rintro listeners found
  cases found
  rfl

/-- With an empty `listeners`, the desired listener is not put in. -/
theorem emptyListeners_not_survive :
    ¬ ∀ (desired : List ManagedListenerSpec) (config : Mapping), (desired.map (·.name)).Nodup →
      (∀ spec ∈ desired, spec.port < UInt16.size) →
      (config.get "listeners" = none ∨ config.get "listeners" = some .null ∨
        ∃ items, config.get "listeners" = some (.sequence items)) →
      ListenersSurvive desired config (mergeManagedListener (some desired) config) := by
  intro all
  have survive := all [⟨"clew-app", 12001, none⟩] [(.string "listeners", .null)] (by decide)
    (by decide) (.inr (.inl rfl))
  have missing : managedListenerLoaded ⟨"clew-app", 12001, none⟩
      (some (mergeManagedListener (some [⟨"clew-app", 12001, none⟩])
        [(.string "listeners", .null)])) = false := by decide
  rw [survive.loaded _ (List.mem_singleton_self _)] at missing
  contradiction

end ClashVerge.AppProxy
