import Mathlib.Algebra.BigOperators.Group.List.Basic
import Mathlib.Algebra.GroupWithZero.Nat
import ClashVerge.ProxyView.Records
import ClashVerge.Enhance.Sequences

/-!
# The view is complete

Every reference leads to a record, the groups of the core and its nodes are all in the view, each of
them once, and the order in which the core reports them does not matter.
-/

namespace ClashVerge.ProxyView

open OrderedMap (Distinct contains contains_iff erase get get_eq_none_iff get_eq_some_iff get_erase
  keys mem_of_get)

variable {ProxyType DelayHistory : Type}

/-! ## Members -/

def isGroup (input : ProxyViewInput ProxyType DelayHistory) (name : String) : Bool :=
  (get input.proxies.entries name).any fun proxy => proxy.all.isSome

def isNode (input : ProxyViewInput ProxyType DelayHistory) (name : String) : Bool :=
  (get input.proxies.entries name).any fun proxy => proxy.all.isNone

/-- What a member refers to: a group before a node of the core, and that before the only node with the
name that the providers have. -/
inductive Resolves (input : ProxyViewInput ProxyType DelayHistory)
    (records : Records ProxyType DelayHistory) (name : String) : ProxyMemberRef → Prop where
  | group (is_ : isGroup input name = true) : Resolves input records name (.group name)
  | core {recordId record} (other : isGroup input name = false)
      (found : get records recordId = some record)
      (source : record.source = .core name) : Resolves input records name (.node name recordId)
  | provider {recordId record providerName} (other : isGroup input name = false)
      (away : isNode input name = false) (found : get records recordId = some record)
      (source : record.source = .provider providerName name)
      (only : ∀ otherId otherRecord otherName, get records otherId = some otherRecord →
        otherRecord.source = .provider otherName name → otherId = recordId) :
      Resolves input records name (.node name recordId)
  | unavailable (other : isGroup input name = false) (away : isNode input name = false)
      (none_ : input.providers.isNone = true) :
      Resolves input records name (.unresolved name .providerUnavailable)
  | missing (other : isGroup input name = false) (away : isNode input name = false)
      (some_ : input.providers.isSome = true)
      (nowhere : ∀ recordId record providerName, get records recordId = some record →
        record.source ≠ .provider providerName name) :
      Resolves input records name (.unresolved name .missing)
  | ambiguous {firstId firstRecord firstName secondId secondRecord secondName}
      (other : isGroup input name = false) (away : isNode input name = false)
      (some_ : input.providers.isSome = true)
      (first : get records firstId = some firstRecord)
      (firstSource : firstRecord.source = .provider firstName name)
      (second : get records secondId = some secondRecord)
      (secondSource : secondRecord.source = .provider secondName name)
      (different : firstId ≠ secondId) : Resolves input records name (.unresolved name .ambiguous)

/-- The resolver of `build`. -/
def resolver (input : ProxyViewInput ProxyType DelayHistory) : MemberResolver where
  groupNames := keys (partitionCore input.proxies).1
  coreNodeIds := (buildCoreRecords (coreNodes input)).2
  providerCandidates := (buildProviderRecords input.providers
    (buildCoreRecords (coreNodes input)).1).candidates
  providerAvailable := input.providers.isSome

def listedGroups (input : ProxyViewInput ProxyType DelayHistory) :
    List (String × Proxy ProxyType DelayHistory) :=
  erase (partitionCore input.proxies).1 "GLOBAL"

theorem build_groups (input : ProxyViewInput ProxyType DelayHistory) : (build input).groups =
        (buildOrderedGroups (listedGroups input) input.runtimeGroupOrder (resolver input)).1 ∧
      (build input).global = (get (partitionCore input.proxies).1 "GLOBAL").map
        fun proxy => proxy.buildGroup "GLOBAL" (resolver input) := by
  obtain ⟨order, proxies, providers⟩ := input
  cases providers <;> exact ⟨rfl, rfl⟩

theorem mem_partition (proxies : HashMap (Proxy ProxyType DelayHistory))
    (entry : String × Proxy ProxyType DelayHistory) :
    (entry ∈ (partitionCore proxies).1 ↔ entry ∈ proxies.entries ∧ entry.2.all.isSome = true) ∧
      (entry ∈ (partitionCore proxies).2 ↔
        entry ∈ proxies.entries ∧ entry.2.all.isSome = false) := by
  have part (keep : String × Proxy ProxyType DelayHistory → Bool) :
      (SortedMap.ofList (proxies.entries.filter keep)).Perm (proxies.entries.filter keep) :=
    SortedMap.ofList_perm (proxies.distinct.sublist (List.filter_sublist.map Prod.fst))
  rw [partitionCore_eq]
  dsimp only
  rw [(part _).mem_iff, (part _).mem_iff, List.mem_filter, List.mem_filter, Bool.not_eq_true']
  exact ⟨Iff.rfl, Iff.rfl⟩

theorem distinct_partition (proxies : HashMap (Proxy ProxyType DelayHistory)) :
    Distinct (partitionCore proxies).1 ∧ Distinct (partitionCore proxies).2 := by
  rw [partitionCore_eq]
  exact ⟨(SortedMap.sorted_ofList _).distinct, (SortedMap.sorted_ofList _).distinct⟩

theorem isGroup_iff (input : ProxyViewInput ProxyType DelayHistory) (name : String) :
    isGroup input name = true ↔ name ∈ keys (partitionCore input.proxies).1 := by
  rw [isGroup, Option.any_eq_true, keys, List.mem_map]
  constructor
  · rintro ⟨proxy, found, is_⟩
    exact ⟨(name, proxy), (mem_partition _ _).1.mpr ⟨mem_of_get found, is_⟩, rfl⟩
  · rintro ⟨⟨own, proxy⟩, listed, rfl⟩
    obtain ⟨member, is_⟩ := (mem_partition _ _).1.mp listed
    exact ⟨proxy, (get_eq_some_iff input.proxies.distinct _ _).mpr member, is_⟩

theorem isNode_iff (input : ProxyViewInput ProxyType DelayHistory) (name : String) :
    isNode input name = true ↔ name ∈ keys (coreNodes input) := by
  rw [isNode, Option.any_eq_true, keys, List.mem_map]
  constructor
  · rintro ⟨proxy, found, is_⟩
    have plain : proxy.all.isSome = false := by simpa using is_
    exact ⟨(name, proxy), (mem_partition _ _).2.mpr ⟨mem_of_get found, plain⟩, rfl⟩
  · rintro ⟨⟨own, proxy⟩, listed, rfl⟩
    obtain ⟨member, is_⟩ := (mem_partition _ _).2.mp listed
    have plain : proxy.all.isNone = true := by simpa using is_
    exact ⟨proxy, (get_eq_some_iff input.proxies.distinct _ _).mpr member, plain⟩

theorem names_coreEntries (nodes : List (String × Proxy ProxyType DelayHistory)) :
    (coreEntries nodes).map (fun entry => entry.2.name) = keys nodes := by
  rw [coreEntries, List.map_map, keys, ← List.zipIdx_map_fst 0 nodes, List.map_map,
    List.zipIdx_map_fst]
  rfl

theorem coreNodeIds_perm (input : ProxyViewInput ProxyType DelayHistory) :
    (resolver input).coreNodeIds.Perm
      ((coreEntries (coreNodes input)).map fun entry => (entry.2.name, entry.1)) := by
  rw [resolver, buildCoreRecords_eq]
  refine SortedMap.ofList_perm ?_
  rw [Distinct, keys, List.map_map]
  exact (names_coreEntries (coreNodes input)).symm ▸ (distinct_partition input.proxies).2

section Sources

variable {input : ProxyViewInput ProxyType DelayHistory} {recordId name : String}
  {record : ProxyNodeView ProxyType DelayHistory}

theorem mem_entries_core (listed : (recordId, record) ∈ entries input)
    (source : record.source = .core name) :
    (recordId, record) ∈ coreEntries (coreNodes input) ∧ record.name = name := by
  obtain here | there := List.mem_append.mp listed
  · obtain ⟨node, _, same⟩ := mem_coreEntries here
    dsimp only at same
    subst same
    exact ⟨here, ProxyNodeSource.core.inj source⟩
  · obtain ⟨_, _, _, same⟩ := mem_providedEntries there
    dsimp only at same
    subst same
    cases source

theorem mem_entries_provider {providerName : String} (listed : (recordId, record) ∈ entries input)
    (source : record.source = .provider providerName name) :
    (recordId, record) ∈ providedEntries 0 (sortedProviders input) ∧ record.name = name := by
  obtain here | there := List.mem_append.mp listed
  · obtain ⟨_, _, same⟩ := mem_coreEntries here
    dsimp only at same
    subst same
    cases source
  · obtain ⟨_, proxy, _, same⟩ := mem_providedEntries there
    dsimp only at same
    subst same
    exact ⟨there, (ProxyNodeSource.provider.inj source).2⟩

theorem get_coreNodeIds : get (resolver input).coreNodeIds name = some recordId ↔
    ∃ record, get (build input).records recordId = some record ∧
      record.source = .core name := by
  have distinct : Distinct (resolver input).coreNodeIds := by
    rw [resolver, buildCoreRecords_eq]
    exact (SortedMap.sorted_ofList _).distinct
  rw [get_eq_some_iff distinct, (coreNodeIds_perm input).mem_iff, List.mem_map]
  constructor
  · rintro ⟨⟨ownId, record⟩, listed, same⟩
    cases same
    refine ⟨record, (get_records_iff input _ _).mpr (List.mem_append_left _ listed), ?_⟩
    obtain ⟨node, _, same⟩ := mem_coreEntries listed
    dsimp only at same
    rw [same]
    rfl
  · rintro ⟨record, found, source⟩
    obtain ⟨listed, named⟩ := mem_entries_core ((get_records_iff input _ _).mp found) source
    exact ⟨(recordId, record), listed, by rw [named]⟩

theorem contains_coreNodeIds : isNode input name = true ↔
    name ∈ keys (resolver input).coreNodeIds := by
  have names : (keys (resolver input).coreNodeIds).Perm
      (keys (coreNodes input)) := by
    refine ((coreNodeIds_perm input).map Prod.fst).trans (List.Perm.of_eq ?_)
    rw [List.map_map]
    exact names_coreEntries (coreNodes input)
  rw [isNode_iff, names.mem_iff]

theorem get_nominateAll (entries : Records ProxyType DelayHistory)
    (candidates : List (String × List String)) :
    get (ProviderRecords.nominateAll candidates entries) name =
      let ids := keys (entries.filter fun entry => entry.2.name = name)
      if ids = [] then get candidates name
      else some ((get candidates name).getD [] ++ ids) := by
  induction entries generalizing candidates with
  | nil => rfl
  | cons entry rest ih =>
    refine (ih (ProviderRecords.nominate candidates entry.2.name entry.1)).trans ?_
    rw [ProviderRecords.nominate, SortedMap.get_insert, List.filter_cons]
    by_cases own : entry.2.name = name
    · simp only [own, if_true, decide_true, OrderedMap.keys_cons, Option.getD_some]
      split <;> simp_all
    · simp [own]

variable (input name recordId)

def candidateIds : List String :=
  keys ((providedEntries 0 (sortedProviders input)).filter
    fun entry => entry.2.name = name)

theorem get_candidates : get (resolver input).providerCandidates name =
    if candidateIds input name = [] then none else some (candidateIds input name) := by
  have loop := (ProviderRecords.foldl_addProvider (sortedProviders input)
    { views := [], candidates := [], records := (buildCoreRecords (coreNodes input)).1 }).1
  rw [show (resolver input).providerCandidates = _ from loop, get_nominateAll]
  rfl

theorem mem_candidateIds : recordId ∈ candidateIds input name ↔
    ∃ record providerName, get (build input).records recordId = some record ∧
      record.source = .provider providerName name := by
  rw [candidateIds, keys, List.mem_map]
  constructor
  · rintro ⟨⟨ownId, record⟩, listed, rfl⟩
    obtain ⟨listed, named⟩ := List.mem_filter.mp listed
    obtain ⟨providerName, proxy, _, same⟩ := mem_providedEntries listed
    refine ⟨record, providerName,
      (get_records_iff input _ _).mpr (List.mem_append_right _ listed), ?_⟩
    dsimp only at same named
    have named : proxy.name = name := by
      rw [same] at named
      exact of_decide_eq_true named
    rw [same, ← named]
    rfl
  · rintro ⟨record, providerName, found, source⟩
    obtain ⟨listed, named⟩ := mem_entries_provider ((get_records_iff input _ _).mp found) source
    exact ⟨(recordId, record), List.mem_filter.mpr ⟨listed, decide_eq_true named⟩, rfl⟩

end Sources

theorem resolve_resolves (input : ProxyViewInput ProxyType DelayHistory) (name : String) :
    Resolves input (build input).records name ((resolver input).resolve name) := by
  unfold MemberResolver.resolve
  by_cases group : name ∈ (resolver input).groupNames
  · rw [if_pos group]
    exact .group ((isGroup_iff input name).mpr group)
  have other : isGroup input name = false :=
    Bool.eq_false_iff.mpr fun is_ => group ((isGroup_iff input name).mp is_)
  rw [if_neg group]
  cases ids : get (resolver input).coreNodeIds name with
  | some recordId =>
    obtain ⟨record, found, source⟩ := get_coreNodeIds.mp ids
    exact .core other found source
  | none =>
    have away : isNode input name = false := by
      refine Bool.eq_false_iff.mpr fun is_ => ?_
      exact (get_eq_none_iff _ _).mp ids (contains_coreNodeIds.mp is_)
    dsimp only
    by_cases available : input.providers.isSome = true
    · have ready : (resolver input).providerAvailable = true := available
      rw [ready, Bool.not_true, if_neg Bool.false_ne_true, get_candidates]
      have listed (recordId : String) := mem_candidateIds input recordId name
      have distinct : (candidateIds input name).Nodup :=
        (distinct_providedEntries 0 _).sublist (List.filter_sublist.map Prod.fst)
      generalize candidateIds input name = candidates at listed distinct
      cases candidates with
      | nil =>
        refine .missing other away available fun recordId record providerName found source => ?_
        exact absurd ((listed recordId).mpr ⟨record, providerName, found, source⟩) List.not_mem_nil
      | cons firstId rest =>
        obtain ⟨firstRecord, firstName, first, firstSource⟩ :=
          (listed firstId).mp List.mem_cons_self
        cases rest with
        | nil =>
          refine .provider other away first firstSource ?_
          intro otherId otherRecord otherName is_ from_
          exact List.mem_singleton.mp ((listed otherId).mpr ⟨otherRecord, otherName, is_, from_⟩)
        | cons secondId rest =>
          obtain ⟨_, _, second, secondSource⟩ :=
            (listed secondId).mp (List.mem_cons_of_mem _ List.mem_cons_self)
          refine .ambiguous other away available first firstSource second secondSource ?_
          exact fun same => (List.nodup_cons.mp distinct).1 (same ▸ List.mem_cons_self)
    · have none_ : input.providers.isSome = false := Bool.eq_false_iff.mpr available
      have absent : (resolver input).providerAvailable = false := none_
      rw [absent, Bool.not_false, if_pos rfl]
      refine .unavailable other away ?_
      simpa using none_

theorem Resolves.record {input : ProxyViewInput ProxyType DelayHistory} {name own recordId : String}
    (resolves : Resolves input (build input).records name (.node own recordId)) :
    own = name ∧ ∃ record, get (build input).records recordId = some record ∧
      record.name = name := by
  cases resolves with
  | core _ found source =>
    exact ⟨rfl, _, found, (mem_entries_core ((get_records_iff input _ _).mp found) source).2⟩
  | provider _ _ found source _ =>
    exact ⟨rfl, _, found, (mem_entries_provider ((get_records_iff input _ _).mp found) source).2⟩

/-! ## Groups -/

theorem eraseDups_filter (keep : String → Bool) : ∀ names : List String,
    (names.filter keep).eraseDups = names.eraseDups.filter keep
  | [] => rfl
  | name :: rest => by
    have later := eraseDups_filter keep (rest.filter fun other => !(other == name))
    rw [List.eraseDups_cons, List.filter_cons, List.filter_cons, ← later, List.filter_filter]
    split
    · rw [List.eraseDups_cons, List.filter_filter]
      simp only [Bool.and_comm]
    · rename_i gone
      refine congrArg List.eraseDups (List.filter_congr fun other _ => ?_)
      by_cases same : other = name
      · simp [same, gone]
      · simp [same]
termination_by names => names.length
decreasing_by exact Nat.lt_succ_of_le (List.length_filter_le ..)

def isListed (input : ProxyViewInput ProxyType DelayHistory) (name : String) : Bool :=
  isGroup input name && name ≠ "GLOBAL"

theorem isListed_iff (input : ProxyViewInput ProxyType DelayHistory) (name : String) :
    isListed input name = true ↔ name ∈ keys (listedGroups input) := by
  rw [isListed, Bool.and_eq_true, isGroup_iff, decide_eq_true_iff, keys,
    keys, List.mem_map, List.mem_map]
  constructor
  · rintro ⟨⟨entry, listed, rfl⟩, other⟩
    exact ⟨entry, List.mem_filter.mpr ⟨listed, decide_eq_true other⟩, rfl⟩
  · rintro ⟨entry, listed, rfl⟩
    obtain ⟨listed, other⟩ := List.mem_filter.mp listed
    exact ⟨⟨entry, listed, rfl⟩, of_decide_eq_true other⟩

theorem erase_of_get {Val : Type} {map : List (String × Val)} {name : String}
    (absent : get map name = none) : erase map name = map := by
  refine List.filter_eq_self.mpr fun entry listed => decide_eq_true ?_
  rintro rfl
  exact (get_eq_none_iff _ _).mp absent (List.mem_map_of_mem listed)

theorem takeGroup_eq (resolver : MemberResolver)
    (coreGroups : List (String × Proxy ProxyType DelayHistory))
    (groups : List (ProxyGroupView ProxyType DelayHistory)) (name : String) :
    takeGroup resolver (coreGroups, groups) name = (erase coreGroups name,
      groups ++ ((get coreGroups name).map
        fun proxy => proxy.buildGroup name resolver).toList) := by
  rw [takeGroup]
  cases found : get coreGroups name with
  | none => rw [erase_of_get found, Option.map_none, Option.toList_none, List.append_nil]
  | some proxy => rfl

theorem buildOrderedGroups_eq (coreGroups : List (String × Proxy ProxyType DelayHistory))
    (runtimeGroupOrder : List String) (resolver : MemberResolver) :
    (buildOrderedGroups coreGroups runtimeGroupOrder resolver).1 =
      (runtimeGroupOrder.eraseDups.filterMap fun name =>
          (get coreGroups name).map fun proxy => proxy.buildGroup name resolver) ++
        (coreGroups.filter fun entry => entry.1 ∉ runtimeGroupOrder).map
          fun entry => entry.2.buildGroup entry.1 resolver := by
  have loop : ∀ (order : List String) (groups : List (ProxyGroupView ProxyType DelayHistory))
      (coreGroups : List (String × Proxy ProxyType DelayHistory)),
      order.foldl (takeGroup resolver) (coreGroups, groups) =
        (coreGroups.filter fun entry => entry.1 ∉ order,
          groups ++ order.eraseDups.filterMap fun name =>
            (get coreGroups name).map fun proxy => proxy.buildGroup name resolver) := by
    intro order
    induction order with
    | nil => simp
    | cons name rest ih =>
      intro groups coreGroups
      have later : (rest.filter fun other => !(other == name)).eraseDups.filterMap (fun other =>
            (get coreGroups other).map fun proxy => proxy.buildGroup other resolver) =
          rest.eraseDups.filterMap fun other =>
            (get (erase coreGroups name) other).map
              fun proxy => proxy.buildGroup other resolver := by
        rw [eraseDups_filter, List.filterMap_filter]
        refine List.filterMap_congr fun other _ => ?_
        rw [get_erase]
        by_cases same : other = name <;> simp [same]
      have remaining : (erase coreGroups name).filter (fun entry => entry.1 ∉ rest) =
          coreGroups.filter fun entry => entry.1 ∉ name :: rest := by
        rw [erase, List.filter_filter]
        refine List.filter_congr fun entry _ => ?_
        simp [Bool.and_comm]
      rw [List.foldl_cons, takeGroup_eq, ih, remaining, List.append_assoc,
        List.eraseDups_cons, List.filterMap_cons, later]
      cases get coreGroups name <;> rfl
  unfold buildOrderedGroups
  rw [loop]
  rfl

theorem names_filterMap (coreGroups : List (String × Proxy ProxyType DelayHistory))
    (order : List String) (resolver : MemberResolver) :
    (order.filterMap fun name => (get coreGroups name).map
      fun proxy => proxy.buildGroup name resolver).map ProxyGroupView.name =
        order.filter fun name => contains coreGroups name := by
  induction order with
  | nil => rfl
  | cons name rest ih =>
    rw [List.filterMap_cons, List.filter_cons, contains]
    cases get coreGroups name with
    | none => exact ih
    | some proxy => exact congrArg (name :: ·) ih

theorem names_groups (input : ProxyViewInput ProxyType DelayHistory) :
    (build input).groups.map ProxyGroupView.name =
      input.runtimeGroupOrder.eraseDups.filter (isListed input) ++
        (keys (listedGroups input)).filter (· ∉ input.runtimeGroupOrder) := by
  rw [(build_groups input).1, buildOrderedGroups_eq, List.map_append, names_filterMap, List.map_map]
  congr 1
  · refine List.filter_congr fun name _ => Bool.eq_iff_iff.mpr ?_
    rw [contains_iff, isListed_iff]
  · rw [keys, List.filter_map]
    rfl

theorem mem_groups (input : ProxyViewInput ProxyType DelayHistory)
    {group : ProxyGroupView ProxyType DelayHistory}
    (listed : group ∈ (build input).global.toList ++ (build input).groups) :
    ∃ proxy members, get input.proxies.entries group.name = some proxy ∧
      proxy.all = some members ∧ group.members = members.map (resolver input).resolve := by
  have known {name : String} {proxy : Proxy ProxyType DelayHistory}
      (found : get (partitionCore input.proxies).1 name = some proxy) :
      ∃ own members, get input.proxies.entries name = some own ∧
        own.all = some members ∧
          (proxy.buildGroup name (resolver input)).members = members.map (resolver input).resolve := by
    obtain ⟨member, is_⟩ := (mem_partition _ _).1.mp (mem_of_get found)
    obtain ⟨members, has⟩ := Option.isSome_iff_exists.mp is_
    refine ⟨proxy, members, (get_eq_some_iff input.proxies.distinct _ _).mpr member,
      has, ?_⟩
    dsimp only at has
    rw [Proxy.buildGroup, has, Option.getD_some]
  have erased {name : String} {proxy : Proxy ProxyType DelayHistory}
      (found : get (listedGroups input) name = some proxy) :
      get (partitionCore input.proxies).1 name = some proxy := by
    rw [listedGroups, get_erase] at found
    split at found
    · cases found
    · exact found
  rw [(build_groups input).1, (build_groups input).2, buildOrderedGroups_eq] at listed
  obtain global | declared | other := List.mem_append.mp listed |>.imp_right List.mem_append.mp
  · obtain ⟨proxy, found, rfl⟩ := Option.map_eq_some_iff.mp (Option.mem_toList.mp global)
    exact known found
  · obtain ⟨name, _, is_⟩ := List.mem_filterMap.mp declared
    obtain ⟨proxy, found, rfl⟩ := Option.map_eq_some_iff.mp is_
    exact known (erased found)
  · obtain ⟨⟨name, proxy⟩, inside, rfl⟩ := List.mem_map.mp other
    have distinct : Distinct (listedGroups input) :=
      (distinct_partition input.proxies).1.sublist (List.filter_sublist.map Prod.fst)
    have found := (get_eq_some_iff distinct name proxy).mpr (List.mem_filter.mp inside).1
    exact known (erased found)

/-! ## The standalone nodes -/

theorem standalone_build (input : ProxyViewInput ProxyType DelayHistory) :
    (build input).standalone = buildStandalone (resolver input).coreNodeIds := rfl

theorem get_toList {map : List (String × String)} (distinct : Distinct map) (name : String) :
    (get map name).toList = (map.filter fun entry => entry.1 = name).map Prod.snd := by
  induction map with
  | nil => rfl
  | cons entry rest ih =>
    obtain ⟨own, recordId⟩ := entry
    obtain ⟨fresh, later⟩ := OrderedMap.distinct_cons.mp distinct
    rw [OrderedMap.get_cons, List.filter_cons]
    by_cases same : own = name
    · subst same
      have none_ : get rest own = none := (get_eq_none_iff _ _).mpr fresh
      have others := ih later
      rw [none_, Option.toList_none] at others
      rw [if_pos rfl, if_pos (decide_eq_true rfl), List.map_cons, ← others]
      rfl
    · rw [if_neg same, if_neg (by simpa using same)]
      exact ih later

theorem buildStandalone_perm {coreNodeIds : List (String × String)}
    (distinct : Distinct coreNodeIds) :
    (buildStandalone coreNodeIds).Perm (coreNodeIds.map Prod.snd) := by
  have special : ["DIRECT", "REJECT"].filterMap (get coreNodeIds) =
      (get coreNodeIds "DIRECT").toList ++
        (get coreNodeIds "REJECT").toList := by
    cases direct : get coreNodeIds "DIRECT" <;>
      cases reject : get coreNodeIds "REJECT" <;> simp [direct, reject]
  have reject : (coreNodeIds.filter fun entry => entry.1 = "REJECT") =
      (coreNodeIds.filter fun entry => !decide (entry.1 = "DIRECT")).filter
        fun entry => entry.1 = "REJECT" := by
    rw [List.filter_filter]
    refine List.filter_congr fun entry _ => ?_
    by_cases same : entry.1 = "REJECT" <;> simp [same]
  have others : (coreNodeIds.filter fun entry => entry.1 ≠ "DIRECT" && entry.1 ≠ "REJECT") =
      (coreNodeIds.filter fun entry => !decide (entry.1 = "DIRECT")).filter
        fun entry => !decide (entry.1 = "REJECT") := by
    rw [List.filter_filter]
    refine List.filter_congr fun entry _ => ?_
    simp [Bool.and_comm]
  rw [buildStandalone, special, get_toList distinct, get_toList distinct, reject, others,
    List.append_assoc, ← List.map_append, ← List.map_append]
  refine List.Perm.map _ ?_
  have inner := List.filter_append_perm (fun entry : String × String => decide (entry.1 = "REJECT"))
    (coreNodeIds.filter fun entry => !decide (entry.1 = "DIRECT"))
  exact (inner.append_left _).trans
    (List.filter_append_perm (fun entry : String × String => decide (entry.1 = "DIRECT")) _)

/-! ## The whole view -/

def reportedProviders (input : ProxyViewInput ProxyType DelayHistory) :
    List (String × ProxyProvider ProxyType DelayHistory) :=
  (input.providers.map HashMap.entries).getD []

/-- Every node that is reported has one record, every reference leads to a record, and the groups and
the nodes of the core are all there, each of them once. -/
structure ReferentiallyComplete (input : ProxyViewInput ProxyType DelayHistory)
    (view : ProxyViewV1 ProxyType DelayHistory) : Prop where
  distinct : Distinct view.records
  ownId : ∀ entry ∈ view.records, entry.2.recordId = entry.1
  /-- No record has taken the place of another. -/
  size : view.records.length =
    (input.proxies.entries.filter fun entry => !entry.2.all.isSome).length +
      (((reportedProviders input).filter fun entry => (shownVehicle entry.2.vehicleType).isSome).map
        fun entry => entry.2.proxies.length).sum
  core : ∀ name proxy, get input.proxies.entries name = some proxy → proxy.all = none →
    ∃ recordId, get view.records recordId =
      some (proxy.buildNode recordId name (.core name))
  provider : ∀ providerName proxy, Provided (reportedProviders input) providerName proxy →
    ∃ recordId, get view.records recordId =
      some (proxy.buildNode recordId proxy.name (.provider providerName proxy.name))
  references : ∀ group ∈ view.global.toList ++ view.groups, ∀ name recordId,
    .node name recordId ∈ group.members →
      ∃ record, get view.records recordId = some record ∧ record.name = name
  members : ∀ group ∈ view.global.toList ++ view.groups, ∃ proxy members,
    get input.proxies.entries group.name = some proxy ∧ proxy.all = some members ∧
      List.Forall₂ (Resolves input view.records) members group.members
  global : view.global.map ProxyGroupView.name =
    if isGroup input "GLOBAL" then some "GLOBAL" else none
  once : (view.groups.map ProxyGroupView.name).Nodup ∧
    ∀ name, name ∈ view.groups.map ProxyGroupView.name ↔ isListed input name = true
  ordered : ∃ rest, view.groups.map ProxyGroupView.name =
      input.runtimeGroupOrder.eraseDups.filter (isListed input) ++ rest ∧
    rest.Pairwise (· < ·) ∧ ∀ name ∈ rest, name ∉ input.runtimeGroupOrder
  standalone : view.standalone.Nodup ∧ ∀ recordId ∈ view.standalone, ∃ record name,
    get view.records recordId = some record ∧ record.source = .core name ∧
      isNode input name = true
  nodes : ∀ name, isNode input name = true → ∃! recordId, recordId ∈ view.standalone ∧
    ∃ record, get view.records recordId = some record ∧ record.source = .core name

/-- The same report, with its maps iterated over in another order. -/
structure Reordered (input other : ProxyViewInput ProxyType DelayHistory) : Prop where
  order : other.runtimeGroupOrder = input.runtimeGroupOrder
  proxies : other.proxies.entries.Perm input.proxies.entries
  available : other.providers.isSome = input.providers.isSome
  providers : (reportedProviders other).Perm (reportedProviders input)

section

variable (input : ProxyViewInput ProxyType DelayHistory)

theorem distinct_reportedProviders : Distinct (reportedProviders input) := by
  unfold reportedProviders
  cases input.providers with
  | none => exact List.nodup_nil
  | some providers => exact providers.distinct

theorem sortedProviders_perm : (sortedProviders input).Perm (reportedProviders input) :=
  SortedMap.ofList_perm (distinct_reportedProviders input)

theorem length_providedEntries (start : Nat)
    (providers : List (String × ProxyProvider ProxyType DelayHistory)) :
    (providedEntries start providers).length =
      ((providers.filter fun entry => (shownVehicle entry.2.vehicleType).isSome).map
        fun entry => entry.2.proxies.length).sum := by
  induction providers generalizing start with
  | nil => rfl
  | cons entry rest ih =>
    obtain ⟨name, provider⟩ := entry
    rw [providedEntries, List.filter_cons]
    dsimp only
    split
    · rw [List.length_append, ih, List.map_cons, List.sum_cons, memberEntries,
        List.length_map, List.length_zipIdx]
    · exact ih start

theorem length_records : (build input).records.length =
    (input.proxies.entries.filter fun entry => !entry.2.all.isSome).length +
      (((reportedProviders input).filter fun entry => (shownVehicle entry.2.vehicleType).isSome).map
        fun entry => entry.2.proxies.length).sum := by
  have nodes : (coreNodes input).Perm
      (input.proxies.entries.filter fun entry => !entry.2.all.isSome) := by
    rw [coreNodes, partitionCore_eq]
    exact SortedMap.ofList_perm (input.proxies.distinct.sublist (List.filter_sublist.map Prod.fst))
  rw [(records_perm input).length_eq, entries, List.length_append, length_providedEntries, coreEntries,
    List.length_map, List.length_zipIdx, nodes.length_eq]
  refine congrArg _ (List.Perm.sum_nat (List.Perm.map _ ?_))
  exact (sortedProviders_perm input).filter _

theorem entry_ownId {entry : String × ProxyNodeView ProxyType DelayHistory}
    (listed : entry ∈ (build input).records) : entry.2.recordId = entry.1 := by
  obtain here | there := List.mem_append.mp ((records_perm input).mem_iff.mp listed)
  · obtain ⟨_, _, same⟩ := mem_coreEntries here
    rw [same]
    rfl
  · obtain ⟨_, _, _, same⟩ := mem_providedEntries there
    rw [same]
    rfl

theorem core_recorded {name : String} {proxy : Proxy ProxyType DelayHistory}
    (found : get input.proxies.entries name = some proxy) (plain : proxy.all = none) :
    ∃ recordId, get (build input).records recordId =
      some (proxy.buildNode recordId name (.core name)) := by
  have node : (name, proxy) ∈ coreNodes input :=
    (mem_partition _ _).2.mpr ⟨mem_of_get found, by rw [plain]; rfl⟩
  obtain ⟨index, _, there⟩ := List.mem_iff_getElem.mp node
  refine ⟨coreRecordId index, (get_records_iff input _ _).mpr (List.mem_append_left _ ?_)⟩
  refine List.mem_map.mpr ⟨((name, proxy), index), List.mem_zipIdx_iff_getElem?.mpr ?_, rfl⟩
  exact List.getElem?_eq_some_iff.mpr ⟨_, there⟩

theorem provided_recorded {providers : List (String × ProxyProvider ProxyType DelayHistory)}
    {providerName : String} {proxy : Proxy ProxyType DelayHistory}
    (provided : Provided providers providerName proxy) (start : Nat) :
    ∃ recordId, (recordId, proxy.buildNode recordId proxy.name
      (.provider providerName proxy.name)) ∈ providedEntries start providers := by
  induction providers generalizing start with
  | nil =>
    obtain ⟨_, member, _⟩ := provided
    contradiction
  | cons entry rest ih =>
    obtain ⟨name, own⟩ := entry
    obtain ⟨provider, member, shown, has⟩ := provided
    rw [providedEntries]
    obtain here | later := List.mem_cons.mp member
    · cases here
      rw [if_pos shown]
      obtain ⟨index, _, there⟩ := List.mem_iff_getElem.mp has
      refine ⟨providerRecordId start index, List.mem_append_left _ ?_⟩
      refine List.mem_map.mpr ⟨(proxy, index), List.mem_zipIdx_iff_getElem?.mpr ?_, rfl⟩
      exact List.getElem?_eq_some_iff.mpr ⟨_, there⟩
    · split
      · obtain ⟨recordId, listed⟩ := ih ⟨provider, later, shown, has⟩ (start + 1)
        exact ⟨recordId, List.mem_append_right _ listed⟩
      · exact ih ⟨provider, later, shown, has⟩ start

theorem global_build : (build input).global.map ProxyGroupView.name =
    if isGroup input "GLOBAL" then some "GLOBAL" else none := by
  rw [(build_groups input).2, Option.map_map]
  by_cases is_ : isGroup input "GLOBAL" = true
  · rw [if_pos is_]
    obtain ⟨proxy, found⟩ := Option.isSome_iff_exists.mp
      ((contains_iff _ _).mpr ((isGroup_iff input "GLOBAL").mp is_))
    rw [found]
    rfl
  · rw [if_neg is_]
    have absent := (get_eq_none_iff _ _).mpr fun listed =>
      is_ ((isGroup_iff input "GLOBAL").mpr listed)
    rw [absent]
    rfl

theorem once_build : ((build input).groups.map ProxyGroupView.name).Nodup ∧
    ∀ name, name ∈ (build input).groups.map ProxyGroupView.name ↔ isListed input name = true := by
  have distinct : Distinct (listedGroups input) :=
    (distinct_partition input.proxies).1.sublist (List.filter_sublist.map Prod.fst)
  rw [names_groups]
  constructor
  · refine List.nodup_append.mpr ⟨(Enhance.nodup_eraseDups _).filter _, distinct.filter _, ?_⟩
    intro first declared second other same
    have here := List.mem_eraseDups.mp (List.mem_filter.mp declared).1
    exact of_decide_eq_true (List.mem_filter.mp other).2 (same ▸ here)
  · intro name
    rw [List.mem_append, List.mem_filter, List.mem_filter, List.mem_eraseDups, ← isListed_iff,
      decide_eq_true_iff]
    by_cases declared : name ∈ input.runtimeGroupOrder <;> simp [declared]

theorem ordered_build : ∃ rest, (build input).groups.map ProxyGroupView.name =
      input.runtimeGroupOrder.eraseDups.filter (isListed input) ++ rest ∧
    rest.Pairwise (· < ·) ∧ ∀ name ∈ rest, name ∉ input.runtimeGroupOrder := by
  refine ⟨_, names_groups input, ?_, ?_⟩
  · have sorted : SortedMap.Sorted (partitionCore input.proxies).1 := by
      rw [partitionCore_eq]
      exact SortedMap.sorted_ofList _
    exact (List.Pairwise.sublist (List.filter_sublist.map Prod.fst) sorted).filter _
  · exact fun name listed => of_decide_eq_true (List.mem_filter.mp listed).2

theorem distinct_coreNodeIds : Distinct (resolver input).coreNodeIds ∧
    ((resolver input).coreNodeIds.map Prod.snd).Nodup := by
  constructor
  · rw [resolver, buildCoreRecords_eq]
    exact (SortedMap.sorted_ofList _).distinct
  · have ids : ((resolver input).coreNodeIds.map Prod.snd).Perm
        (keys (coreEntries (coreNodes input))) := by
      refine ((coreNodeIds_perm input).map Prod.snd).trans (List.Perm.of_eq ?_)
      rw [List.map_map]
      rfl
    exact ids.nodup_iff.mpr ((List.sublist_append_left _ _).map Prod.fst |>.nodup
      (distinct_entries input))

theorem mem_standalone (recordId : String) : recordId ∈ (build input).standalone ↔
    ∃ name, get (resolver input).coreNodeIds name = some recordId := by
  have distinct := (distinct_coreNodeIds input).1
  rw [standalone_build, (buildStandalone_perm distinct).mem_iff, List.mem_map]
  constructor
  · rintro ⟨⟨name, own⟩, listed, rfl⟩
    exact ⟨name, (get_eq_some_iff distinct _ _).mpr listed⟩
  · rintro ⟨name, found⟩
    exact ⟨(name, recordId), mem_of_get found, rfl⟩

theorem standalone_nodes : (build input).standalone.Nodup ∧
    ∀ recordId ∈ (build input).standalone, ∃ record name,
      get (build input).records recordId = some record ∧ record.source = .core name ∧
        isNode input name = true := by
  obtain ⟨distinct, ids⟩ := distinct_coreNodeIds input
  constructor
  · rw [standalone_build]
    exact (buildStandalone_perm distinct).nodup_iff.mpr ids
  · intro recordId listed
    obtain ⟨name, is_⟩ := (mem_standalone input recordId).mp listed
    obtain ⟨record, found, source⟩ := get_coreNodeIds.mp is_
    refine ⟨record, name, found, source, contains_coreNodeIds.mpr ?_⟩
    exact List.mem_map.mpr ⟨_, mem_of_get is_, rfl⟩

theorem node_standalone {name : String} (node : isNode input name = true) :
    ∃! recordId, recordId ∈ (build input).standalone ∧ ∃ record,
      get (build input).records recordId = some record ∧ record.source = .core name := by
  obtain ⟨recordId, is_⟩ := Option.isSome_iff_exists.mp
    ((contains_iff _ _).mpr (contains_coreNodeIds.mp node))
  refine ⟨recordId, ⟨(mem_standalone input recordId).mpr ⟨name, is_⟩, get_coreNodeIds.mp is_⟩, ?_⟩
  rintro other ⟨_, recorded⟩
  exact Option.some.inj ((get_coreNodeIds.mpr recorded).symm.trans is_)

theorem members_build {group : ProxyGroupView ProxyType DelayHistory}
    (listed : group ∈ (build input).global.toList ++ (build input).groups) : ∃ proxy members,
    get input.proxies.entries group.name = some proxy ∧ proxy.all = some members ∧
      List.Forall₂ (Resolves input (build input).records) members group.members := by
  obtain ⟨proxy, members, found, has, resolved⟩ := mem_groups input listed
  refine ⟨proxy, members, found, has, resolved ▸ ?_⟩
  exact List.forall₂_map_right_iff.mpr (List.forall₂_same.mpr fun name _ =>
    resolve_resolves input name)

theorem references_build {group : ProxyGroupView ProxyType DelayHistory}
    (listed : group ∈ (build input).global.toList ++ (build input).groups) {name recordId : String}
    (refers : .node name recordId ∈ group.members) :
    ∃ record, get (build input).records recordId = some record ∧ record.name = name := by
  obtain ⟨_, _, _, _, resolved⟩ := mem_groups input listed
  rw [resolved] at refers
  obtain ⟨own, _, same⟩ := List.mem_map.mp refers
  have resolves := resolve_resolves input own
  rw [same] at resolves
  obtain ⟨rfl, record⟩ := resolves.record
  exact record

theorem build_referentiallyComplete : ReferentiallyComplete input (build input) where
  distinct := (records_perm input |>.map Prod.fst).nodup_iff.mpr (distinct_entries input)
  ownId _ listed := entry_ownId input listed
  size := length_records input
  core _ _ found plain := core_recorded input found plain
  provider _ _ provided := by
    obtain ⟨owner, member, shown, has⟩ := provided
    have sorted := (sortedProviders_perm input).mem_iff.mpr member
    obtain ⟨recordId, listed⟩ := provided_recorded ⟨owner, sorted, shown, has⟩ 0
    exact ⟨recordId, (get_records_iff input _ _).mpr (List.mem_append_right _ listed)⟩
  references _ listed _ _ refers := references_build input listed refers
  members _ listed := members_build input listed
  global := global_build input
  once := once_build input
  ordered := ordered_build input
  standalone := standalone_nodes input
  nodes _ node := node_standalone input node

theorem build_reordered {input other : ProxyViewInput ProxyType DelayHistory}
    (reordered : Reordered input other) : build other = build input := by
  have filtered (keep : String × Proxy ProxyType DelayHistory → Bool) :
      SortedMap.ofList (other.proxies.entries.filter keep) =
        SortedMap.ofList (input.proxies.entries.filter keep) :=
    SortedMap.ofList_congr (input.proxies.distinct.sublist (List.filter_sublist.map Prod.fst))
      (reordered.proxies.filter keep)
  have core : partitionCore other.proxies = partitionCore input.proxies := by
    rw [partitionCore_eq, partitionCore_eq, filtered, filtered]
  have provided : SortedMap.ofList (reportedProviders other) =
      SortedMap.ofList (reportedProviders input) :=
    SortedMap.ofList_congr (distinct_reportedProviders input) reordered.providers
  unfold build buildProviderRecords
  unfold reportedProviders at provided
  rw [core, provided, reordered.available, reordered.order]

end

/-- The view has everything that is reported, all its references lead somewhere, and it is the same
for every order in which the maps of the report are iterated over. -/
theorem view_complete (input : ProxyViewInput ProxyType DelayHistory) :
    ReferentiallyComplete input (build input) ∧
      ∀ other, Reordered input other → build other = build input :=
  ⟨build_referentiallyComplete input, fun _ reordered => build_reordered reordered⟩

/-- A group and its only member, reported in either order. -/
theorem view_complete_swapped :
    let group : Proxy Unit Unit := {
      name := "Auto", id := none, proxyType := (), all := some ["node"], alive := true
      now := none, fixed := none, hidden := none, icon := none, testUrl := none, history := []
      udp := true, xudp := false, tfo := false, mptcp := false, smux := false }
    let node : Proxy Unit Unit := { group with name := "node", all := none }
    let proxies : HashMap (Proxy Unit Unit) :=
      ⟨[("Auto", group), ("node", node)], show ["Auto", "node"].Nodup by decide⟩
    let swapped : HashMap (Proxy Unit Unit) :=
      ⟨[("node", node), ("Auto", group)], show ["node", "Auto"].Nodup by decide⟩
    build { runtimeGroupOrder := ["Auto"], proxies := swapped, providers := none } =
      build { runtimeGroupOrder := ["Auto"], proxies, providers := none } :=
  (view_complete _).2 _ ⟨rfl, List.Perm.swap .., rfl, List.Perm.refl _⟩

end ClashVerge.ProxyView
