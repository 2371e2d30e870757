import ClashVerge.ProxyView.Builder

/-!
# The records of the view

The loops of the builder insert one record after another. Here they are read as one list of records,
those of the core first, whose ids are all different, so that no record takes the place of another.
-/

namespace ClashVerge.ProxyView

open OrderedMap (Distinct get keys keys_append)

variable {ProxyType DelayHistory : Type}

/-! ## Ids -/

theorem toList_toString (number : Nat) : (toString number).toList = Nat.toDigits 10 number := by
  rw [Nat.toString_eq_repr, Nat.repr, String.toList_ofList]

theorem toString_injective {one other : Nat}
    (same : (toString one).toList = (toString other).toList) : one = other := by
  rw [toList_toString, toList_toString] at same
  calc one = Nat.ofDigitChars 10 (Nat.toDigits 10 one) 0 := Nat.ofDigitChars_ten_toDigits.symm
    _ = Nat.ofDigitChars 10 (Nat.toDigits 10 other) 0 := by rw [same]
    _ = other := Nat.ofDigitChars_ten_toDigits

theorem colon_not_mem (number : Nat) : ':' ∉ (toString number).toList := by
  intro listed
  rw [toList_toString] at listed
  exact absurd (Nat.isDigit_of_mem_toDigits (by decide) (by decide) listed) (by decide)

theorem coreRecordId_injective {one other : Nat} (same : coreRecordId one = coreRecordId other) :
    one = other := by
  have texts := congrArg String.toList same
  rw [coreRecordId, coreRecordId, String.toList_append, String.toList_append,
    List.append_cancel_left_eq] at texts
  exact toString_injective texts

theorem providerRecordId_injective {provider member otherProvider otherMember : Nat}
    (same : providerRecordId provider member = providerRecordId otherProvider otherMember) :
    provider = otherProvider ∧ member = otherMember := by
  have texts := congrArg String.toList same
  simp only [providerRecordId, String.toList_append, List.append_assoc,
    List.append_cancel_left_eq] at texts
  have colon : ":".toList = [':'] := rfl
  rw [colon, List.singleton_append, List.singleton_append,
    List.append_cons_inj_of_notMem (colon_not_mem _) (colon_not_mem _)] at texts
  obtain ⟨first, -, second⟩ := texts
  exact ⟨toString_injective first, toString_injective second⟩

theorem coreRecordId_ne (index provider member : Nat) :
    coreRecordId index ≠ providerRecordId provider member := by
  intro same
  have texts := congrArg String.toList same
  simp [coreRecordId, providerRecordId] at texts

/-! ## The loops -/

def insertAll {Val : Type} (map entries : List (String × Val)) : List (String × Val) :=
  entries.foldl (fun map entry => SortedMap.insert map entry.1 entry.2) map

theorem insertAll_ofList {Val : Type} (first second : List (String × Val)) :
    insertAll (SortedMap.ofList first) second = SortedMap.ofList (first ++ second) :=
  List.foldl_append.symm

theorem partitionCore_eq (proxies : HashMap (Proxy ProxyType DelayHistory)) :
    partitionCore proxies =
      (SortedMap.ofList (proxies.entries.filter fun entry => entry.2.all.isSome),
        SortedMap.ofList (proxies.entries.filter fun entry => !entry.2.all.isSome)) := by
  have loop : ∀ (entries groups nodes : List (String × Proxy ProxyType DelayHistory)),
      entries.foldl
        (fun parts entry =>
          if entry.2.all.isSome then (SortedMap.insert parts.1 entry.1 entry.2, parts.2)
          else (parts.1, SortedMap.insert parts.2 entry.1 entry.2)) (groups, nodes) =
        (insertAll groups (entries.filter fun entry => entry.2.all.isSome),
          insertAll nodes (entries.filter fun entry => !entry.2.all.isSome)) := by
    intro entries
    induction entries with
    | nil => exact fun _ _ => rfl
    | cons entry rest ih =>
      intro groups nodes
      rw [List.foldl_cons, List.filter_cons, List.filter_cons]
      cases is_ : entry.2.all.isSome <;> simp [is_, insertAll, ih]
  exact loop proxies.entries [] []

def coreEntries (coreNodes : List (String × Proxy ProxyType DelayHistory)) :
    Records ProxyType DelayHistory :=
  coreNodes.zipIdx.map fun entry => (coreRecordId entry.2,
    entry.1.2.buildNode (coreRecordId entry.2) entry.1.1 (.core entry.1.1))

theorem buildCoreRecords_eq (coreNodes : List (String × Proxy ProxyType DelayHistory)) :
    buildCoreRecords coreNodes =
      (SortedMap.ofList (coreEntries coreNodes),
        SortedMap.ofList ((coreEntries coreNodes).map fun entry => (entry.2.name, entry.1))) := by
  have loop : ∀ (indexed : List ((String × Proxy ProxyType DelayHistory) × Nat))
      (records : Records ProxyType DelayHistory) (ids : List (String × String)),
      indexed.foldl
        (fun built entry =>
          let recordId := coreRecordId entry.2
          (SortedMap.insert built.1 recordId (entry.1.2.buildNode recordId entry.1.1 (.core entry.1.1)),
            SortedMap.insert built.2 entry.1.1 recordId)) (records, ids) =
        (insertAll records (indexed.map fun entry => (coreRecordId entry.2,
            entry.1.2.buildNode (coreRecordId entry.2) entry.1.1 (.core entry.1.1))),
          insertAll ids (indexed.map fun entry => (entry.1.1, coreRecordId entry.2))) := by
    intro indexed
    induction indexed with
    | nil => exact fun _ _ => rfl
    | cons entry rest ih =>
      intro records ids
      exact ih _ _
  refine (loop coreNodes.zipIdx [] []).trans ?_
  rw [coreEntries, List.map_map]
  rfl

def memberEntries (providerName : String) (providerIndex start : Nat)
    (proxies : List (Proxy ProxyType DelayHistory)) : Records ProxyType DelayHistory :=
  (proxies.zipIdx start).map fun entry => (providerRecordId providerIndex entry.2,
    entry.1.buildNode (providerRecordId providerIndex entry.2) entry.1.name
      (.provider providerName entry.1.name))

def providedEntries : Nat → List (String × ProxyProvider ProxyType DelayHistory) →
    Records ProxyType DelayHistory
  | _, [] => []
  | providerIndex, (name, provider) :: rest =>
    if (shownVehicle provider.vehicleType).isSome then
      memberEntries name providerIndex 0 provider.proxies ++
        providedEntries (providerIndex + 1) rest
    else providedEntries providerIndex rest

namespace ProviderRecords

def nominateAll (candidates : List (String × List String))
    (entries : Records ProxyType DelayHistory) : List (String × List String) :=
  entries.foldl (fun candidates entry => nominate candidates entry.2.name entry.1) candidates

theorem foldl_addMember (providerName : String) (providerIndex start : Nat)
    (proxies : List (Proxy ProxyType DelayHistory)) (state : ProviderRecords ProxyType DelayHistory)
    (ids : List String) :
    (proxies.zipIdx start).foldl (addMember providerName providerIndex) (state, ids) =
      let entries := memberEntries providerName providerIndex start proxies
      ({ state with
          candidates := nominateAll state.candidates entries
          records := insertAll state.records entries },
        ids ++ keys entries) := by
  induction proxies generalizing start state ids with
  | nil => simp [memberEntries, nominateAll, insertAll]
  | cons proxy rest ih =>
    rw [List.zipIdx_cons, List.foldl_cons, addMember, ih]
    simp [memberEntries, nominateAll, insertAll, Proxy.buildNode]

theorem foldl_addProvider (providers : List (String × ProxyProvider ProxyType DelayHistory))
    (state : ProviderRecords ProxyType DelayHistory) :
    let entries := providedEntries state.views.length providers
    (providers.foldl addProvider state).candidates = nominateAll state.candidates entries ∧
      (providers.foldl addProvider state).records = insertAll state.records entries := by
  induction providers generalizing state with
  | nil => exact ⟨rfl, rfl⟩
  | cons entry rest ih =>
    obtain ⟨name, provider⟩ := entry
    rw [List.foldl_cons, providedEntries, addProvider]
    cases shown : shownVehicle provider.vehicleType with
    | none => exact ih state
    | some vehicleType =>
      dsimp only
      rw [foldl_addMember, if_pos (by rfl)]
      have later := ih {
        candidates := nominateAll state.candidates
          (memberEntries name state.views.length 0 provider.proxies)
        records := insertAll state.records
          (memberEntries name state.views.length 0 provider.proxies)
        views := state.views ++ [{
          name, vehicleType
          updatedAt := provider.updatedAt
          subscriptionInfo := provider.subscriptionInfo
          proxyRecordIds := keys
            (memberEntries name state.views.length 0 provider.proxies) }] }
      rw [List.length_append, List.length_singleton] at later
      obtain ⟨candidates, records⟩ := later
      constructor
      · refine candidates.trans ?_
        rw [nominateAll, nominateAll, nominateAll, List.foldl_append]
      · refine records.trans ?_
        rw [insertAll, insertAll, insertAll, List.foldl_append]

end ProviderRecords

/-! ## All records -/

section Records

variable (input : ProxyViewInput ProxyType DelayHistory)

def coreNodes : List (String × Proxy ProxyType DelayHistory) := (partitionCore input.proxies).2

def sortedProviders : List (String × ProxyProvider ProxyType DelayHistory) :=
  SortedMap.ofList ((input.providers.map HashMap.entries).getD [])

/-- The records in the order in which the builder inserts them. -/
def entries : Records ProxyType DelayHistory :=
  coreEntries (coreNodes input) ++ providedEntries 0 (sortedProviders input)

theorem records_build : (build input).records = SortedMap.ofList (entries input) := by
  have core : (buildCoreRecords (coreNodes input)).1 =
      SortedMap.ofList (coreEntries (coreNodes input)) :=
    congrArg Prod.fst (buildCoreRecords_eq (coreNodes input))
  have provided := (ProviderRecords.foldl_addProvider (sortedProviders input)
    { views := [], candidates := [], records := (buildCoreRecords (coreNodes input)).1 }).2
  refine provided.trans ?_
  dsimp only
  rw [core, insertAll_ofList]
  rfl

end Records

theorem keys_coreEntries (nodes : List (String × Proxy ProxyType DelayHistory)) :
    keys (coreEntries nodes) = (List.range nodes.length).map coreRecordId := by
  rw [coreEntries, keys, List.map_map, List.range_eq_range', ← List.zipIdx_map_snd 0 nodes,
    List.map_map]
  rfl

theorem keys_memberEntries (providerName : String) (providerIndex : Nat)
    (proxies : List (Proxy ProxyType DelayHistory)) :
    keys (memberEntries providerName providerIndex 0 proxies) =
      (List.range proxies.length).map (providerRecordId providerIndex) := by
  rw [memberEntries, keys, List.map_map, List.range_eq_range',
    ← List.zipIdx_map_snd 0 proxies, List.map_map]
  rfl

theorem mem_keys_providedEntries {providers : List (String × ProxyProvider ProxyType DelayHistory)}
    {start : Nat} {recordId : String}
    (listed : recordId ∈ keys (providedEntries start providers)) :
    ∃ provider member, start ≤ provider ∧ recordId = providerRecordId provider member := by
  induction providers generalizing start with
  | nil => contradiction
  | cons entry rest ih =>
    obtain ⟨name, provider⟩ := entry
    rw [providedEntries] at listed
    split at listed
    · rw [keys_append, keys_memberEntries] at listed
      obtain here | later := List.mem_append.mp listed
      · obtain ⟨member, _, rfl⟩ := List.mem_map.mp here
        exact ⟨start, member, Nat.le_refl _, rfl⟩
      · obtain ⟨provider, member, after, same⟩ := ih later
        exact ⟨provider, member, by omega, same⟩
    · exact ih listed

theorem distinct_providedEntries (start : Nat)
    (providers : List (String × ProxyProvider ProxyType DelayHistory)) :
    Distinct (providedEntries start providers) := by
  induction providers generalizing start with
  | nil => exact List.nodup_nil
  | cons entry rest ih =>
    obtain ⟨name, provider⟩ := entry
    rw [providedEntries]
    split
    · rw [Distinct, keys_append, keys_memberEntries]
      refine List.nodup_append.mpr ⟨?_, ih (start + 1), ?_⟩
      · exact List.nodup_range.map fun _ _ same => (providerRecordId_injective same).2
      · intro first here second there same
        obtain ⟨member, _, rfl⟩ := List.mem_map.mp here
        obtain ⟨provider, other, after, rfl⟩ := mem_keys_providedEntries there
        have := (providerRecordId_injective same).1
        omega
    · exact ih start

section

variable (input : ProxyViewInput ProxyType DelayHistory)
include input

theorem distinct_entries : Distinct (entries input) := by
  rw [Distinct, entries, keys_append, keys_coreEntries]
  refine List.nodup_append.mpr ⟨?_, distinct_providedEntries 0 _, ?_⟩
  · exact List.nodup_range.map fun _ _ same => coreRecordId_injective same
  · intro first here second there same
    obtain ⟨index, _, rfl⟩ := List.mem_map.mp here
    obtain ⟨provider, member, -, rfl⟩ := mem_keys_providedEntries there
    exact coreRecordId_ne index provider member same

theorem records_perm : (build input).records.Perm (entries input) := by
  rw [records_build]
  exact SortedMap.ofList_perm (distinct_entries input)

theorem get_records (recordId : String) :
    get (build input).records recordId = get (entries input) recordId :=
  OrderedMap.get_perm (distinct_entries input) (records_perm input) recordId

theorem get_records_iff (recordId : String) (record : ProxyNodeView ProxyType DelayHistory) :
    get (build input).records recordId = some record ↔
      (recordId, record) ∈ entries input := by
  rw [get_records, OrderedMap.get_eq_some_iff (distinct_entries input)]

end

/-! ## Where the records come from -/

theorem mem_coreEntries {nodes : List (String × Proxy ProxyType DelayHistory)}
    {entry : String × ProxyNodeView ProxyType DelayHistory} (listed : entry ∈ coreEntries nodes) :
    ∃ node ∈ nodes, entry.2 = node.2.buildNode entry.1 node.1 (.core node.1) := by
  obtain ⟨⟨node, index⟩, indexed, rfl⟩ := List.mem_map.mp listed
  exact ⟨node, List.fst_mem_of_mem_zipIdx indexed, rfl⟩

theorem mem_memberEntries {providerName : String} {providerIndex start : Nat}
    {proxies : List (Proxy ProxyType DelayHistory)}
    {entry : String × ProxyNodeView ProxyType DelayHistory}
    (listed : entry ∈ memberEntries providerName providerIndex start proxies) :
    ∃ proxy ∈ proxies,
      entry.2 = proxy.buildNode entry.1 proxy.name (.provider providerName proxy.name) := by
  obtain ⟨⟨proxy, index⟩, indexed, rfl⟩ := List.mem_map.mp listed
  exact ⟨proxy, List.fst_mem_of_mem_zipIdx indexed, rfl⟩

def Provided (providers : List (String × ProxyProvider ProxyType DelayHistory))
    (providerName : String) (proxy : Proxy ProxyType DelayHistory) : Prop :=
  ∃ provider, (providerName, provider) ∈ providers ∧
    (shownVehicle provider.vehicleType).isSome = true ∧ proxy ∈ provider.proxies

theorem mem_providedEntries {providers : List (String × ProxyProvider ProxyType DelayHistory)}
    {start : Nat} {entry : String × ProxyNodeView ProxyType DelayHistory}
    (listed : entry ∈ providedEntries start providers) :
    ∃ providerName proxy, Provided providers providerName proxy ∧
      entry.2 = proxy.buildNode entry.1 proxy.name (.provider providerName proxy.name) := by
  induction providers generalizing start with
  | nil => contradiction
  | cons first rest ih =>
    obtain ⟨name, provider⟩ := first
    have further {start : Nat} (listed : entry ∈ providedEntries start rest) :
        ∃ providerName proxy, Provided ((name, provider) :: rest) providerName proxy ∧
          entry.2 = proxy.buildNode entry.1 proxy.name (.provider providerName proxy.name) := by
      obtain ⟨providerName, proxy, ⟨owner, member, shown, has⟩, same⟩ := ih listed
      exact ⟨providerName, proxy, ⟨owner, List.mem_cons_of_mem _ member, shown, has⟩, same⟩
    rw [providedEntries] at listed
    split at listed
    · rename_i shown
      obtain here | later := List.mem_append.mp listed
      · obtain ⟨proxy, has, same⟩ := mem_memberEntries here
        exact ⟨name, proxy, ⟨provider, List.mem_cons_self, shown, has⟩, same⟩
      · exact further later
    · exact further listed

end ClashVerge.ProxyView
