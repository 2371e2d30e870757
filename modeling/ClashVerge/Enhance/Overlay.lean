import ClashVerge.Enhance.Stages
import ClashVerge.Library.OrderedMerge

/-!
# A merge as an overlay

Merging lays the lowercased keys of one mapping over a configuration: mappings are merged deeply,
but `dns` is extended and `hosts` replaced. Merging once more changes nothing; what the overlay says
at its leaves holds, and the rest keeps its value and its place.

Of the keys that become the same in lower case only the last one takes part.
-/

namespace ClashVerge.Enhance

open ClashVerge.Yaml
open OrderedMap (Distinct extend extend_of_get get get_eq_some_iff get_mergeWith_of_none
  get_mergeWith_of_some keys keys_prefix_mergeWith mem_of_get mergeWith)

def mergedAt : Option Value → Value → Value
  | some existing, value => deepMerge existing value
  | none, value => value

def overlayAt (key : Value) : Option Value → Value → Value
  | some (.mapping existing), .mapping overlay =>
    if key = .string "dns" then .mapping (extend existing overlay)
    else if key = .string "hosts" then .mapping overlay
    else deepMerge (.mapping existing) (.mapping overlay)
  | some existing, value => if key = .string "hosts" then value else deepMerge existing value
  | none, value => value

theorem deepMergeEntries_eq (into entries : Mapping) : deepMergeEntries into entries =
    mergeWith (fun _ => mergedAt) into entries := by
  induction entries generalizing into with
  | nil => rfl
  | cons entry rest ih =>
    obtain ⟨key, value⟩ := entry
    rw [deepMergeEntries, OrderedMap.mergeWith_cons]
    cases get into key <;> exact ih _

theorem mergeOverride_eq (config : Mapping) (key value : Value) : mergeOverride config key value =
    config.insert key (overlayAt key (get config key) value) := by
  unfold mergeOverride overlayAt
  cases get config key with
  | none => rfl
  | some existing =>
    cases existing with
    | mapping existing =>
      cases value with
      | mapping overlay => dsimp only; split_ifs <;> rfl
      | _ => dsimp only; split_ifs <;> rfl
    | _ => dsimp only; split_ifs <;> rfl

theorem useMerge_eq (merge config : Mapping) : useMerge merge config =
    mergeWith overlayAt config (useLowercase merge) := by
  rw [useMerge, mergeWith]
  exact List.foldl_ext _ _ _ fun config entry _ => mergeOverride_eq config entry.1 entry.2

mutual

theorem deepMerge_self : ∀ value : Value, value.WellFormed → deepMerge value value = value
  | .mapping entries, wellFormed => by
    obtain ⟨distinct, each⟩ := wellFormed
    rw [deepMerge, deepMergeEntries_eq]
    refine congrArg Value.mapping (OrderedMap.mergeWith_of_fixed fun entry listed => ?_)
    exact ⟨entry.2, (get_eq_some_iff distinct _ _).mpr listed,
      deepMerge_self_of_mem entries each entry listed⟩
  | .null, _ | .bool _, _ | .number _, _ | .string _, _ | .sequence _, _ | .tagged _ _, _ => rfl

theorem deepMerge_self_of_mem : ∀ entries : List (Value × Value), Value.WellFormedEntries entries →
    ∀ entry ∈ entries, deepMerge entry.2 entry.2 = entry.2
  | [], _, _, listed => by contradiction
  | (key, value) :: rest, wellFormed, entry, listed => by
    obtain ⟨_, here, later⟩ := wellFormed
    rcases List.mem_cons.mp listed with rfl | listed
    · exact deepMerge_self value here
    · exact deepMerge_self_of_mem rest later entry listed

end

mutual

theorem deepMerge_again : ∀ (existing value : Value), value.WellFormed →
    deepMerge (deepMerge existing value) value = deepMerge existing value
  | existing, .mapping entries, wellFormed => by
    cases existing with
    | mapping into =>
      obtain ⟨distinct, each⟩ := wellFormed
      rw [deepMerge, deepMergeEntries_eq, deepMerge, deepMergeEntries_eq]
      refine congrArg Value.mapping
        (OrderedMap.mergeWith_mergeWith distinct (fun entry listed current => ?_) into)
      exact mergedAt_again_of_mem entries each entry listed current
    | _ => exact deepMerge_self _ wellFormed
  | existing, .null, _ | existing, .bool _, _ | existing, .number _, _ | existing, .string _, _
  | existing, .sequence _, _ | existing, .tagged _ _, _ => by cases existing <;> rfl

theorem mergedAt_again_of_mem : ∀ entries : List (Value × Value), Value.WellFormedEntries entries →
    ∀ entry ∈ entries, ∀ current, mergedAt (some (mergedAt current entry.2)) entry.2 =
      mergedAt current entry.2
  | [], _, _, listed, _ => by contradiction
  | (key, value) :: rest, wellFormed, entry, listed, current => by
    obtain ⟨_, here, later⟩ := wellFormed
    rcases List.mem_cons.mp listed with rfl | listed
    · cases current with
      | none => exact deepMerge_self value here
      | some existing => exact deepMerge_again existing value here
    · exact mergedAt_again_of_mem rest later entry listed current

end

def valueAt : List Value → Value → Option Value
  | [], value => some value
  | key :: path, .mapping entries => (get entries key).bind (valueAt path)
  | _, _ => none

/-- The value is not merged into: it is no mapping without a tag. -/
def Leaf (value : Value) : Prop := ∀ entries, value ≠ .mapping entries

/-- The overlay has mappings on the path up to a key that it does not have. -/
def Spared : List Value → Value → Prop
  | key :: path, .mapping entries => (get entries key).elim True (Spared path)
  | _, _ => False

/-- The overlay is a mapping without the first key of the path. -/
def Outside : List Value → Value → Prop
  | key :: _, .mapping entries => get entries key = none
  | _, _ => False

/-- The value of an overlay for a key at the top says nothing about what the path leads to from
there. -/
def SparedAt (key : Value) (path : List Value) (value : Value) : Prop :=
  if key = .string "hosts" then False
  else if key = .string "dns" then Outside path value
  else Spared path value

/-- The overlay says nothing about what the path leads to. -/
def Untouched (overlay : Mapping) : List Value → Prop
  | [] => False
  | key :: path => (get overlay key).elim True (SparedAt key path)

structure Overlaid (merge config result : Mapping) : Prop where
  again : useMerge merge result = result
  merged : ∀ key value, get (useLowercase merge) key = some value →
    key ≠ .string "dns" → key ≠ .string "hosts" →
    get result key = some (mergedAt (get config key) value)
  dns : ∀ existing overlay, (useLowercase merge).get "dns" = some (.mapping overlay) →
    config.get "dns" = some (.mapping existing) →
    result.get "dns" = some (.mapping (extend existing overlay))
  dnsReplaced : ∀ value, (useLowercase merge).get "dns" = some value →
    (Leaf value ∨ ∀ existing, config.get "dns" ≠ some (.mapping existing)) →
    result.get "dns" = some value
  hosts : ∀ value, (useLowercase merge).get "hosts" = some value → result.get "hosts" = some value
  leaves : ∀ path leaf, valueAt path (.mapping (useLowercase merge)) = some leaf → Leaf leaf →
    valueAt path (.mapping result) = some leaf
  kept : ∀ path, Untouched (useLowercase merge) path →
    valueAt path (.mapping result) = valueAt path (.mapping config)
  places : ∀ path key entries, Untouched (useLowercase merge) (path ++ [key]) →
    valueAt path (.mapping config) = some (.mapping entries) →
    ∃ merged, valueAt path (.mapping result) = some (.mapping merged) ∧
      keys entries <+: keys merged

section

variable {existing value leaf : Value} {path : List Value} {entries into : Mapping}

variable {key : Value}

theorem wellFormed_get (wellFormed : Value.WellFormedEntries entries)
    (is_ : get entries key = some value) : value.WellFormed :=
  Value.wellFormed_of_mem wellFormed (mem_of_get is_)

theorem deepMerge_of_leaf (leaf : Leaf value) : deepMerge existing value = value := by
  cases value with
  | mapping entries => exact absurd rfl (leaf entries)
  | _ => cases existing <;> rfl

theorem deepMerge_of_existing (leaf : Leaf existing) : deepMerge existing value = value := by
  cases existing with
  | mapping entries => exact absurd rfl (leaf entries)
  | _ => cases value <;> rfl

theorem leaf_or_mapping (value : Value) : Leaf value ∨ ∃ entries, value = .mapping entries := by
  by_cases mapping : ∃ entries, value = .mapping entries
  · exact .inr mapping
  · exact .inl (not_exists.mp mapping)

theorem valueAt_cons_eq_some (found : valueAt (key :: path) value = some leaf) :
    ∃ entries inner, value = .mapping entries ∧ get entries key = some inner ∧
      valueAt path inner = some leaf := by
  cases value with
  | mapping entries =>
    obtain ⟨inner, is_, found⟩ := Option.bind_eq_some_iff.mp found
    exact ⟨entries, inner, rfl, is_, found⟩
  | _ => contradiction

theorem valueAt_cons_of_leaf (leaf : Leaf value) (key : Value) (path : List Value) :
    valueAt (key :: path) value = none := by
  cases value with
  | mapping entries => exact absurd rfl (leaf entries)
  | _ => rfl

theorem valueAt_of_spared (spared : Spared path value) : valueAt path value = none := by
  induction path generalizing value with
  | nil => exact absurd spared (by cases value <;> exact id)
  | cons key path ih =>
    cases value with
    | mapping entries =>
      rw [Spared] at spared
      rw [valueAt]
      cases is_ : get entries key with
      | none => rfl
      | some inner =>
        rw [is_] at spared
        exact ih spared
    | _ => rfl

theorem exists_mapping_of_spared (spared : Spared path value) :
    ∃ key rest entries, path = key :: rest ∧ value = .mapping entries := by
  cases path with
  | nil => exact absurd spared (by cases value <;> exact id)
  | cons key rest =>
    cases value with
    | mapping entries => exact ⟨key, rest, entries, rfl, rfl⟩
    | _ => exact absurd spared id

theorem leaf_deepMerge (wellFormed : value.WellFormed) (found : valueAt path value = some leaf)
    (is_ : Leaf leaf) : valueAt path (deepMerge existing value) = some leaf := by
  induction path generalizing existing value with
  | nil =>
    cases found
    rw [deepMerge_of_leaf is_]
    rfl
  | cons key path ih =>
    obtain ⟨entries, inner, rfl, here, found⟩ := valueAt_cons_eq_some found
    obtain ⟨distinct, each⟩ := wellFormed
    rcases leaf_or_mapping existing with none_ | ⟨into, rfl⟩
    · rw [deepMerge_of_existing none_, valueAt, here]
      exact found
    · rw [deepMerge, deepMergeEntries_eq, valueAt, get_mergeWith_of_some distinct here,
        Option.bind_some]
      cases get into key with
      | none => exact found
      | some current => exact ih (wellFormed_get each here) found

theorem kept_deepMerge (wellFormed : value.WellFormed) (spared : Spared path value) :
    valueAt path (deepMerge existing value) = valueAt path existing := by
  induction path generalizing existing value with
  | nil => exact absurd spared (by cases value <;> exact id)
  | cons key path ih =>
    obtain ⟨_, _, entries, _, rfl⟩ := exists_mapping_of_spared spared
    obtain ⟨distinct, each⟩ := id wellFormed
    rcases leaf_or_mapping existing with none_ | ⟨into, rfl⟩
    · rw [deepMerge_of_existing none_, valueAt_of_spared spared, valueAt_cons_of_leaf none_]
    · rw [deepMerge, deepMergeEntries_eq, valueAt, valueAt]
      rw [Spared] at spared
      cases here : get entries key with
      | none => rw [get_mergeWith_of_none distinct here]
      | some inner =>
        rw [here, Option.elim_some] at spared
        rw [get_mergeWith_of_some distinct here, Option.bind_some]
        cases get into key with
        | none => exact valueAt_of_spared spared
        | some current => exact ih (wellFormed_get each here) spared

theorem places_deepMerge (wellFormed : value.WellFormed) (spared : Spared (path ++ [key]) value)
    (found : valueAt path existing = some (.mapping entries)) :
    ∃ merged, valueAt path (deepMerge existing value) = some (.mapping merged) ∧
      keys entries <+: keys merged := by
  induction path generalizing existing value with
  | nil =>
    cases found
    obtain ⟨_, _, overlay, _, rfl⟩ := exists_mapping_of_spared spared
    refine ⟨deepMergeEntries entries overlay, by rw [deepMerge]; rfl, ?_⟩
    rw [deepMergeEntries_eq]
    exact keys_prefix_mergeWith ..
  | cons own path ih =>
    obtain ⟨into, current, rfl, there, found⟩ := valueAt_cons_eq_some found
    obtain ⟨_, _, overlay, _, rfl⟩ := exists_mapping_of_spared spared
    obtain ⟨distinct, each⟩ := id wellFormed
    rw [deepMerge, deepMergeEntries_eq, valueAt]
    rw [List.cons_append, Spared] at spared
    cases here : get overlay own with
    | none =>
      rw [get_mergeWith_of_none distinct here, there]
      exact ⟨entries, found, List.prefix_refl _⟩
    | some inner =>
      rw [here, Option.elim_some] at spared
      rw [get_mergeWith_of_some distinct here, there]
      exact ih (wellFormed_get each here) spared found

theorem overlayAt_other (dns : key ≠ .string "dns") (hosts : key ≠ .string "hosts")
    (current : Option Value) (value : Value) :
    overlayAt key current value = mergedAt current value := by
  cases current with
  | none => rfl
  | some existing =>
    cases existing <;> cases value <;> simp only [overlayAt, mergedAt, if_neg dns, if_neg hosts]

theorem overlayAt_hosts (current : Option Value) (value : Value) :
    overlayAt (.string "hosts") current value = value := by
  cases current with
  | none => rfl
  | some existing =>
    cases existing <;> cases value <;> simp [overlayAt]

theorem overlayAt_dns (existing overlay : Mapping) :
    overlayAt (.string "dns") (some (.mapping existing)) (.mapping overlay) =
      .mapping (extend existing overlay) := by
  rw [overlayAt, if_pos rfl]

theorem overlayAt_of_leaf (key : Value) (apart : Leaf value ∨ Leaf existing) :
    overlayAt key (some existing) value = value := by
  cases existing with
  | mapping into =>
    cases value with
    | mapping overlay =>
      rcases apart with leaf | leaf
      · exact absurd rfl (leaf overlay)
      · exact absurd rfl (leaf into)
    | _ => simp [overlayAt, deepMerge]
  | _ => cases value <;> simp [overlayAt, deepMerge]

theorem overlayAt_dns_replaced {current : Option Value}
    (apart : Leaf value ∨ ∀ existing, current ≠ some (.mapping existing)) :
    overlayAt (.string "dns") current value = value := by
  cases current with
  | none => rfl
  | some existing =>
    exact overlayAt_of_leaf _ (apart.imp_right fun none_ entries same => none_ entries (same ▸ rfl))

theorem get_extend (wellFormed : Value.WellFormed (.mapping entries)) (key : Value) :
    get (extend into entries) key =
      (get entries key).or (get into key) :=
  OrderedMap.get_extend_distinct wellFormed.1 into key

theorem overlayAt_again (key : Value) (current : Option Value) (wellFormed : value.WellFormed) :
    overlayAt key (some (overlayAt key current value)) value = overlayAt key current value := by
  by_cases hosts : key = .string "hosts"
  · rw [hosts, overlayAt_hosts, overlayAt_hosts]
  · by_cases dns : key = .string "dns"
    · subst dns
      rcases leaf_or_mapping value with leaf | ⟨overlay, rfl⟩
      · exact (overlayAt_dns_replaced (.inl leaf)).trans
          (overlayAt_dns_replaced (.inl leaf)).symm
      · have held (into : Mapping) : extend (extend into overlay) overlay =
            extend into overlay := by
          refine extend_of_get fun entry listed => ?_
          rw [get_extend wellFormed,
            (get_eq_some_iff wellFormed.1 _ _).mpr listed, Option.some_or]
        by_cases mapping : ∃ existing, current = some (.mapping existing)
        · obtain ⟨existing, rfl⟩ := mapping
          rw [overlayAt_dns, overlayAt_dns, held]
        · rw [overlayAt_dns_replaced (.inr (not_exists.mp mapping)), overlayAt_dns]
          exact congrArg Value.mapping (extend_of_get fun entry listed =>
            (get_eq_some_iff wellFormed.1 _ _).mpr listed)
    · rw [overlayAt_other dns hosts, overlayAt_other dns hosts]
      cases current with
      | none => exact deepMerge_self value wellFormed
      | some existing => exact deepMerge_again existing value wellFormed

theorem leaf_overlayAt (key : Value) (current : Option Value) (wellFormed : value.WellFormed)
    (found : valueAt path value = some leaf) (is_ : Leaf leaf) :
    valueAt path (overlayAt key current value) = some leaf := by
  by_cases hosts : key = .string "hosts"
  · rw [hosts, overlayAt_hosts]
    exact found
  · by_cases dns : key = .string "dns"
    · subst dns
      by_cases both : (∃ overlay, value = .mapping overlay) ∧
          ∃ existing, current = some (.mapping existing)
      · obtain ⟨⟨overlay, rfl⟩, existing, rfl⟩ := both
        rw [overlayAt_dns]
        cases path with
        | nil => exact absurd (Option.some.inj found).symm (is_ overlay)
        | cons own path =>
          rw [valueAt] at found ⊢
          obtain ⟨inner, here, found⟩ := Option.bind_eq_some_iff.mp found
          rw [get_extend wellFormed, here, Option.some_or]
          exact found
      · rw [overlayAt_dns_replaced ((not_and_or.mp both).imp not_exists.mp not_exists.mp)]
        exact found
    · rw [overlayAt_other dns hosts]
      cases current with
      | none => exact found
      | some existing => exact leaf_deepMerge wellFormed found is_

theorem exists_mapping_of_outside (outside : Outside path value) :
    ∃ key rest entries, path = key :: rest ∧ value = .mapping entries ∧
      get entries key = none := by
  cases path with
  | nil => exact absurd outside (by cases value <;> exact id)
  | cons key rest =>
    cases value with
    | mapping entries => exact ⟨key, rest, entries, rfl, rfl, outside⟩
    | _ => exact absurd outside id

theorem kept_overlayAt (current : Option Value) (wellFormed : value.WellFormed)
    (spared : SparedAt key path value) :
    valueAt path (overlayAt key current value) = current.bind (valueAt path) := by
  unfold SparedAt at spared
  split_ifs at spared with hosts dns
  · subst dns
    obtain ⟨own, rest, overlay, rfl, rfl, absent⟩ := exists_mapping_of_outside spared
    have nothing : valueAt (own :: rest) (.mapping overlay) = none := by rw [valueAt, absent]; rfl
    cases current with
    | none => exact nothing
    | some existing =>
      rcases leaf_or_mapping existing with leaf | ⟨into, rfl⟩
      · rw [overlayAt_of_leaf _ (.inr leaf), nothing, Option.bind_some,
          valueAt_cons_of_leaf leaf]
      · rw [overlayAt_dns, valueAt, get_extend wellFormed, absent, Option.none_or]
        rfl
  · rw [overlayAt_other dns hosts]
    cases current with
    | none => exact valueAt_of_spared spared
    | some existing => exact kept_deepMerge wellFormed spared

theorem keys_prefix_extend (into entries : Mapping) : keys into <+: keys (extend into entries) := by
  have placed : keys into <+:
      keys (mergeWith (fun _ _ value => value) into entries) :=
    keys_prefix_mergeWith into entries
  exact placed

theorem places_overlayAt {key own : Value} (wellFormed : value.WellFormed)
    (spared : SparedAt key (path ++ [own]) value)
    (found : valueAt path existing = some (.mapping entries)) :
    ∃ merged, valueAt path (overlayAt key (some existing) value) = some (.mapping merged) ∧
      keys entries <+: keys merged := by
  unfold SparedAt at spared
  split_ifs at spared with hosts dns
  · subst dns
    obtain ⟨next, rest, overlay, is_, rfl, absent⟩ := exists_mapping_of_outside spared
    cases path with
    | nil =>
      cases found
      rw [overlayAt_dns]
      exact ⟨_, rfl, keys_prefix_extend entries overlay⟩
    | cons first path =>
      obtain ⟨into, current, rfl, there, found⟩ := valueAt_cons_eq_some found
      obtain ⟨rfl, _⟩ := List.cons.inj is_
      rw [overlayAt_dns, valueAt, get_extend wellFormed, absent, Option.none_or, there]
      exact ⟨entries, found, List.prefix_refl _⟩
  · rw [overlayAt_other dns hosts]
    exact places_deepMerge wellFormed spared found

theorem exists_of_mem_useLowercase {merge : Mapping} {entry : Value × Value}
    (listed : entry ∈ useLowercase merge) : ∃ key, (key, entry.2) ∈ merge := by
  induction merge using List.reverseRecOn with
  | nil => contradiction
  | append_singleton before last ih =>
    rw [useLowercase, List.foldl_append, List.foldl_cons, List.foldl_nil, ← useLowercase] at listed
    have earlier : entry ∈ useLowercase before → ∃ key, (key, entry.2) ∈ before ++ [last] := by
      intro listed
      obtain ⟨key, member⟩ := ih listed
      exact ⟨key, List.mem_append_left _ member⟩
    split at listed
    · rcases OrderedMap.mem_insert listed with rfl | listed
      · exact ⟨last.1, List.mem_append_right _ (List.mem_singleton_self _)⟩
      · exact earlier listed
    · exact earlier listed

theorem wellFormed_useLowercase {merge : Mapping} (wellFormed : merge.WellFormed)
    (is_ : get (useLowercase merge) key = some value) : value.WellFormed := by
  obtain ⟨own, listed⟩ := exists_of_mem_useLowercase (mem_of_get is_)
  exact Value.wellFormed_of_mem wellFormed.2 listed

/-- A merge is an overlay that says its last word at once. -/
theorem useMerge_overlaid {merge : Mapping} (wellFormed : merge.WellFormed) (config : Mapping) :
    Overlaid merge config (useMerge merge config) := by
  have distinct := distinct_useLowercase merge
  have each {key value : Value} (is_ : get (useLowercase merge) key = some value) :
      get (useMerge merge config) key =
        some (overlayAt key (get config key) value) := by
    rw [useMerge_eq, get_mergeWith_of_some distinct is_]
  have others {key : Value} (absent : get (useLowercase merge) key = none) :
      get (useMerge merge config) key = get config key := by
    rw [useMerge_eq, get_mergeWith_of_none distinct absent]
  refine ⟨?_, ?_, ?_, ?_, ?_, ?_, ?_, ?_⟩
  · rw [useMerge_eq, useMerge_eq]
    refine OrderedMap.mergeWith_mergeWith distinct (fun entry listed current => ?_) config
    exact overlayAt_again _ _ (wellFormed_useLowercase wellFormed
      ((get_eq_some_iff distinct _ _).mpr listed))
  · intro key value is_ dns hosts
    rw [each is_, overlayAt_other dns hosts]
  · intro existing overlay is_ here
    have here : get config (.string "dns") = some (.mapping existing) := here
    exact (each is_).trans (by rw [here, overlayAt_dns])
  · intro value is_ apart
    exact (each is_).trans (congrArg some (overlayAt_dns_replaced apart))
  · intro value is_
    exact (each is_).trans (congrArg some (overlayAt_hosts _ value))
  · intro path leaf found is_
    cases path with
    | nil => exact absurd (Option.some.inj found).symm (is_ _)
    | cons key path =>
      obtain ⟨value, here, found⟩ := Option.bind_eq_some_iff.mp found
      rw [valueAt, each here]
      exact leaf_overlayAt key _ (wellFormed_useLowercase wellFormed here) found is_
  · intro path untouched
    cases path with
    | nil => exact absurd untouched id
    | cons key path =>
      rw [valueAt, valueAt]
      rw [Untouched] at untouched
      cases here : get (useLowercase merge) key with
      | none => rw [others here]
      | some value =>
        rw [here, Option.elim_some] at untouched
        rw [each here]
        exact kept_overlayAt _ (wellFormed_useLowercase wellFormed here) untouched
  · intro path own entries untouched found
    cases path with
    | nil =>
      obtain rfl := Value.mapping.inj (Option.some.inj found)
      refine ⟨_, rfl, ?_⟩
      rw [useMerge_eq]
      exact keys_prefix_mergeWith ..
    | cons key path =>
      obtain ⟨existing, there, found⟩ := Option.bind_eq_some_iff.mp found
      rw [valueAt]
      rw [List.cons_append, Untouched] at untouched
      cases here : get (useLowercase merge) key with
      | none =>
        rw [others here, there]
        exact ⟨entries, found, List.prefix_refl _⟩
      | some value =>
        rw [here, Option.elim_some] at untouched
        rw [each here, there]
        exact places_overlayAt (wellFormed_useLowercase wellFormed here) untouched found

end

/-- A mapping with two keys that become the same in lower case. -/
def twoCases : Mapping :=
  [(.string "Tun", .mapping [(.string "mtu", .number (.integer 9000))]),
    (.string "tun", .mapping [(.string "enable", .bool true)])]

def tunMtu : Mapping := [(.string "tun", .mapping [(.string "mtu", .number (.integer 1500))])]

theorem twoCases_wellFormed : twoCases.WellFormed := by
  simp [twoCases, Mapping.WellFormed, Value.WellFormedEntries, Value.WellFormed,
    Distinct]

theorem twoCases_overlaid : Overlaid twoCases tunMtu (useMerge twoCases tunMtu) :=
  useMerge_overlaid twoCases_wellFormed tunMtu

/-- Of two keys that become the same, the first one is lost, and the configuration keeps its own
value. -/
theorem twoCases_lost : ¬ ∀ merge config : Mapping, merge.WellFormed → config.WellFormed →
      ∀ (key : String) (value leaf : Value) (path : List Value), (.string key, value) ∈ merge →
        valueAt path value = some leaf → Leaf leaf →
        valueAt (lowercaseKey key :: path) (.mapping (useMerge merge config)) = some leaf := by
  intro all
  have won := all twoCases tunMtu twoCases_wellFormed
    (by simp [tunMtu, Mapping.WellFormed, Value.WellFormedEntries, Value.WellFormed,
      Distinct])
    "Tun" (.mapping [(.string "mtu", .number (.integer 9000))]) (.number (.integer 9000))
    [.string "mtu"] (by decide) (by decide) (fun entries same => by cases same)
  have kept : valueAt [lowercaseKey "Tun", .string "mtu"]
      (.mapping (useMerge twoCases tunMtu)) = some (.number (.integer 1500)) := by decide
  rw [won] at kept
  exact absurd kept (by decide)

end ClashVerge.Enhance
