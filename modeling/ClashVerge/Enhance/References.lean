import ClashVerge.Enhance.Sequences

/-!
# References of the proxy groups

The last edit of the groups drops references that lead nowhere: providers that do not exist, and
names of no proxy, group, provider or built-in outbound. The proxies of a group with an existing
provider stay, since the provider may bring them. A second run finds nothing to drop.
-/

namespace ClashVerge.Enhance

open ClashVerge.Verge ClashVerge.Yaml
open OrderedMap (Distinct erase get get_insert_same insert_of_get keys keys_insert mem_of_get)

/-- The name of something that a group may refer to. -/
def Known (config : Mapping) (name : String) : Prop :=
  name ∈ proxyNames config ∨ name ∈ groupNames config ∨ name ∈ providerNames config ∨
    name ∈ builtinPolicies

def allowedNames (config : Mapping) : List String :=
  proxyNames config ++ groupNames config ++ providerNames config ++ builtinPolicies

/-- The member is no text, or a name that a group may refer to. -/
def validMember (config : Mapping) : Value → Bool
  | .string name => (allowedNames config).contains name
  | _ => true

/-- What is asked of a group after its references were cleaned up, in a configuration. -/
structure GroupCleaned (config old new : Mapping) : Prop where
  keys : keys new = keys old
  others : ∀ key, key ≠ Value.string "proxies" → key ≠ Value.string "use" →
    get new key = get old key
  notLists : ∀ key, (∀ items, old.get key ≠ some (.sequence items)) → new.get key = old.get key
  fewer : ∀ key, (plainItems new key).Sublist (plainItems old key)
  members : (plainItems new "proxies").filter (validMember config) =
    (plainItems old "proxies").filter (validMember config)
  uses : plainItems new "use" = (plainItems old "use").filter (namesProvider (providerNames config))
  closed : ∀ name, Value.string name ∈ plainItems new "proxies" → Known config name ∨
    ∃ provider ∈ providerNames config, Value.string provider ∈ plainItems new "use"

/-- The mappings below the same tags are related, and values without one are the same. -/
inductive Below (related : Mapping → Mapping → Prop) : Value → Value → Prop
  | mapping {old new : Mapping} (are : related old new) :
      Below related (.mapping old) (.mapping new)
  | tagged {old new : Value} (tag : String) (below : Below related old new) :
      Below related (.tagged tag old) (.tagged tag new)
  | other {value : Value} (none : value.asMapping = none) : Below related value value

/-- What is asked of a configuration after its groups were cleaned up. -/
structure Cleaned (config after : Mapping) : Prop where
  names : proxyNames after = proxyNames config ∧ groupNames after = groupNames config ∧
    providerNames after = providerNames config
  groups : ∀ groups, config.get "proxy-groups" = some (.sequence groups) →
    ∃ cleaned, after.get "proxy-groups" = some (.sequence cleaned) ∧
      List.Forall₂ (Below (GroupCleaned after)) groups cleaned
  noGroups : (∀ groups, config.get "proxy-groups" ≠ some (.sequence groups)) → after = config
  keys : keys after = keys config
  others : erase after (.string "proxy-groups") =
    erase config (.string "proxy-groups")
  again : cleanupProxyGroups after = after

section

variable {config map group : Mapping} {key other : String} {keep : Value → Bool}

theorem retainUnder_eq {items : List Value} (is_ : map.get key = some (.sequence items)) :
    retainUnder map key keep = map.insert (.string key) (.sequence (items.filter keep)) := by
  rw [retainUnder, is_]

theorem retainUnder_of_not (notList : ∀ items, map.get key ≠ some (.sequence items)) :
    retainUnder map key keep = map := by
  unfold retainUnder
  split
  · rename_i items is_
    exact absurd is_ (notList items)
  · rfl

theorem retainUnder_of_all (all : ∀ item ∈ plainItems map key, keep item = true) :
    retainUnder map key keep = map := by
  by_cases list : ∃ items, map.get key = some (.sequence items)
  · obtain ⟨items, is_⟩ := list
    rw [plainItems, is_] at all
    rw [retainUnder_eq is_, List.filter_eq_self.mpr all]
    exact insert_of_get is_
  · exact retainUnder_of_not (not_exists.mp list)

theorem get_retainUnder_other {key : String} {other : Value} (different : other ≠ .string key) :
    get (retainUnder map key keep) other = get map other := by
  unfold retainUnder
  split
  · exact OrderedMap.get_insert_other _ _ different
  · rfl

theorem plainItems_retainUnder :
    plainItems (retainUnder map key keep) key = (plainItems map key).filter keep := by
  by_cases list : ∃ items, map.get key = some (.sequence items)
  · obtain ⟨items, is_⟩ := list
    have put : (map.insert (.string key) (.sequence (items.filter keep))).get key =
        some (.sequence (items.filter keep)) := get_insert_same ..
    rw [retainUnder_eq is_, plainItems, put, plainItems, is_]
  · rw [retainUnder_of_not (not_exists.mp list)]
    have none_ : plainItems map key = [] := by
      unfold plainItems
      split
      · rename_i items is_
        exact absurd ⟨items, is_⟩ list
      · rfl
    rw [none_, List.filter_nil]

theorem plainItems_retainUnder_other (different : other ≠ key) :
    plainItems (retainUnder map key keep) other = plainItems map other := by
  have same : (retainUnder map key keep).get other = map.get other :=
    get_retainUnder_other (by simpa using different)
  rw [plainItems, plainItems, same]

theorem keys_retainUnder : keys (retainUnder map key keep) = keys map := by
  unfold retainUnder
  split
  · rename_i items is_
    have inside : Value.string key ∈ keys map :=
      List.mem_map.mpr ⟨_, mem_of_get is_, rfl⟩
    rw [Mapping.insert, keys_insert, if_pos inside]
  · rfl

theorem get_retainUnder_of_not (notList : ∀ items, map.get key ≠ some (.sequence items))
    (under : String) : (retainUnder map under keep).get key = map.get key := by
  by_cases same : key = under
  · subst same
    rw [retainUnder_of_not notList]
  · exact get_retainUnder_other (by simpa using same)

/-- The member stays in a group, which has an existing provider or not. -/
def keepsMember (allowed : List String) (hasValidProvider : Bool) : Value → Bool
  | .string name => allowed.contains name || hasValidProvider
  | _ => true

def hasProvider (providers : List String) (group : Mapping) : Bool :=
  (plainItems group "use").any (namesProvider providers)

variable {allowed providers : List String}

theorem cleanupGroup_eq : cleanupGroup allowed providers group =
    retainUnder (retainUnder group "use" (namesProvider providers)) "proxies"
      (keepsMember allowed (hasProvider providers group)) := by
  have members (valid : Bool) (used : Mapping) : (retainUnder used "proxies" fun proxy =>
      match proxy with
      | .string name => allowed.contains name || valid
      | _ => true) = retainUnder used "proxies" (keepsMember allowed valid) :=
    congrArg _ (funext fun member => by cases member <;> rfl)
  unfold cleanupGroup hasProvider plainItems
  cases group.get "use" with
  | none => exact members _ _
  | some value => cases value <;> exact members _ _

theorem plainItems_use_cleanupGroup : plainItems (cleanupGroup allowed providers group) "use" =
    (plainItems group "use").filter (namesProvider providers) := by
  rw [cleanupGroup_eq, plainItems_retainUnder_other (by decide), plainItems_retainUnder]

theorem plainItems_proxies_cleanupGroup :
    plainItems (cleanupGroup allowed providers group) "proxies" =
      (plainItems group "proxies").filter
        (keepsMember allowed (hasProvider providers group)) := by
  rw [cleanupGroup_eq, plainItems_retainUnder, plainItems_retainUnder_other (by decide)]

theorem hasProvider_cleanupGroup :
    hasProvider providers (cleanupGroup allowed providers group) = hasProvider providers group := by
  rw [hasProvider, plainItems_use_cleanupGroup, hasProvider, List.any_filter]
  exact congrArg _ (funext fun item => Bool.and_self _)

theorem cleanupGroup_cleanupGroup :
    cleanupGroup allowed providers (cleanupGroup allowed providers group) =
      cleanupGroup allowed providers group := by
  have uses : retainUnder (cleanupGroup allowed providers group) "use" (namesProvider providers) =
      cleanupGroup allowed providers group := by
    refine retainUnder_of_all fun item listed => ?_
    rw [plainItems_use_cleanupGroup] at listed
    exact (List.mem_filter.mp listed).2
  have members : retainUnder (cleanupGroup allowed providers group) "proxies"
      (keepsMember allowed (hasProvider providers group)) =
      cleanupGroup allowed providers group := by
    refine retainUnder_of_all fun item listed => ?_
    rw [plainItems_proxies_cleanupGroup] at listed
    exact (List.mem_filter.mp listed).2
  rw [cleanupGroup_eq, hasProvider_cleanupGroup, uses, members]

theorem mem_allowedNames {name : String} : name ∈ allowedNames config ↔ Known config name := by
  simp only [allowedNames, List.mem_append, Known, or_assoc]

theorem namesProvider_iff {value : Value} : namesProvider providers value = true ↔
    ∃ name ∈ providers, value = .string name := by
  cases value <;> simp [namesProvider]

theorem groupCleaned (config group : Mapping) : GroupCleaned config group
    (cleanupGroup (allowedNames config) (providerNames config) group) where
  keys := by rw [cleanupGroup_eq, keys_retainUnder, keys_retainUnder]
  others key proxies use := by
    rw [cleanupGroup_eq, get_retainUnder_other proxies, get_retainUnder_other use]
  notLists key notList := by
    have used : (retainUnder group "use" (namesProvider (providerNames config))).get key =
        group.get key := get_retainUnder_of_not notList "use"
    rw [cleanupGroup_eq, get_retainUnder_of_not (fun items => used ▸ notList items), used]
  fewer key := by
    by_cases proxies : key = "proxies"
    · subst proxies
      rw [plainItems_proxies_cleanupGroup]
      exact List.filter_sublist
    · by_cases use : key = "use"
      · subst use
        rw [plainItems_use_cleanupGroup]
        exact List.filter_sublist
      · rw [cleanupGroup_eq, plainItems_retainUnder_other proxies,
          plainItems_retainUnder_other use]
  members := by
    rw [plainItems_proxies_cleanupGroup, List.filter_filter]
    refine List.filter_congr fun member _ => ?_
    cases member with
    | string name =>
      rw [validMember, keepsMember]
      cases (allowedNames config).contains name <;> rfl
    | _ => rfl
  uses := plainItems_use_cleanupGroup
  closed name listed := by
    rw [plainItems_proxies_cleanupGroup] at listed
    have kept := (List.mem_filter.mp listed).2
    rw [keepsMember, Bool.or_eq_true, List.contains_iff_mem, mem_allowedNames] at kept
    refine kept.imp_right fun valid => ?_
    obtain ⟨value, used, exists_⟩ := List.any_eq_true.mp valid
    obtain ⟨provider, known, rfl⟩ := namesProvider_iff.mp exists_
    refine ⟨provider, known, ?_⟩
    rw [plainItems_use_cleanupGroup]
    exact List.mem_filter.mpr ⟨used, exists_⟩

theorem below_modifyMapping {related : Mapping → Mapping → Prop} {change : Mapping → Mapping}
    (changes : ∀ map, related map (change map)) (value : Value) :
    Below related value (modifyMapping change value) := by
  induction value using modifyMapping.induct with
  | case1 map => exact .mapping (changes map)
  | case2 tag value ih => exact .tagged tag ih
  | case3 value notMapping notTagged =>
    have same : modifyMapping change value = value := by
      cases value <;> first
        | rfl
        | exact absurd rfl (notMapping _)
        | exact absurd rfl (notTagged _ _)
    rw [same]
    refine .other ?_
    cases value <;> first
      | rfl
      | exact absurd rfl (notMapping _)
      | exact absurd rfl (notTagged _ _)

theorem names_cleanup {groups : List Value}
    (is_ : config.get "proxy-groups" = some (.sequence groups)) :
    groupNames (config.insert (.string "proxy-groups") (.sequence (groups.map
      (modifyMapping (cleanupGroup allowed providers))))) = groupNames config := by
  have put : (config.insert (.string "proxy-groups") (.sequence (groups.map
      (modifyMapping (cleanupGroup allowed providers))))).get "proxy-groups" =
      some (.sequence (groups.map (modifyMapping (cleanupGroup allowed providers)))) :=
    get_insert_same ..
  have keeps (map : Mapping) : (cleanupGroup allowed providers map).get "name" = map.get "name" := by
    rw [cleanupGroup_eq]
    exact (get_retainUnder_other (by decide)).trans (get_retainUnder_other (by decide))
  rw [groupNames, groupNames, sequenceUnder, sequenceUnder, put, is_]
  simp only [Option.bind_some, Value.asSequence, Value.untag, Option.getD_some,
    List.filterMap_map]
  refine List.filterMap_congr fun value _ => ?_
  simp only [Function.comp_apply, asMapping_modifyMapping, Option.bind_map]
  exact Option.bind_congr fun map _ => congrArg (·.bind Value.asStr) (keeps map)

theorem cleanupProxyGroups_eq {groups : List Value}
    (is_ : config.get "proxy-groups" = some (.sequence groups)) :
    cleanupProxyGroups config = config.insert (.string "proxy-groups") (.sequence (groups.map
      (modifyMapping (cleanupGroup (allowedNames config) (providerNames config))))) := by
  simp only [cleanupProxyGroups, is_]
  rfl

/-- Cleaning up closes the references of the groups, and is done after one run. -/
theorem cleanupProxyGroups_cleaned (config : Mapping) :
    Cleaned config (cleanupProxyGroups config) := by
  by_cases list : ∃ groups, config.get "proxy-groups" = some (.sequence groups)
  · obtain ⟨groups, is_⟩ := list
    have cleanup := cleanupProxyGroups_eq is_
    have put : (cleanupProxyGroups config).get "proxy-groups" = some (.sequence (groups.map
        (modifyMapping (cleanupGroup (allowedNames config) (providerNames config))))) := by
      rw [cleanup]
      exact get_insert_same ..
    have other {key : String} (apart : key ≠ "proxy-groups") :
        (cleanupProxyGroups config).get key = config.get key :=
      get_cleanupProxyGroups_other (by simpa using apart)
    have proxies : proxyNames (cleanupProxyGroups config) = proxyNames config := by
      rw [proxyNames, proxyNames, sequenceUnder, sequenceUnder, other (by decide)]
    have groupsKept : groupNames (cleanupProxyGroups config) = groupNames config := by
      rw [cleanup]
      exact names_cleanup is_
    have providers : providerNames (cleanupProxyGroups config) = providerNames config := by
      rw [providerNames, providerNames, fieldMapping, fieldMapping, other (by decide)]
    have allowed : allowedNames (cleanupProxyGroups config) = allowedNames config := by
      rw [allowedNames, allowedNames, proxies, groupsKept, providers]
    refine ⟨⟨proxies, groupsKept, providers⟩, fun others listed => ⟨_, put, ?_⟩, fun notList => ?_,
      ?_, ?_, ?_⟩
    · rw [is_] at listed
      obtain rfl := Value.sequence.inj (Option.some.inj listed)
      rw [List.forall₂_map_right_iff, List.forall₂_same]
      intro value _
      refine below_modifyMapping (fun map => ?_) value
      have cleaned := groupCleaned (cleanupProxyGroups config) map
      rwa [allowed, providers] at cleaned
    · exact absurd is_ (notList groups)
    · have inside : Value.string "proxy-groups" ∈ keys config :=
        List.mem_map.mpr ⟨_, mem_of_get is_, rfl⟩
      rw [cleanup, Mapping.insert, keys_insert, if_pos inside]
    · rw [cleanup]
      exact OrderedMap.erase_insert ..
    · have done : (groups.map
          (modifyMapping (cleanupGroup (allowedNames config) (providerNames config)))).map
          (modifyMapping (cleanupGroup (allowedNames config) (providerNames config))) =
          groups.map (modifyMapping (cleanupGroup (allowedNames config) (providerNames config))) := by
        rw [List.map_map]
        refine List.map_congr_left fun value _ => ?_
        rw [Function.comp_apply, modifyMapping_modifyMapping]
        simp only [cleanupGroup_cleanupGroup]
      rw [cleanupProxyGroups_eq put, allowed, providers, done]
      exact insert_of_get put
  · have same : cleanupProxyGroups config = config := by
      unfold cleanupProxyGroups
      split
      · rename_i groups is_
        exact absurd ⟨groups, is_⟩ list
      · rfl
    rw [same]
    refine ⟨⟨rfl, rfl, rfl⟩, fun groups is_ => absurd ⟨groups, is_⟩ list, fun _ => rfl, rfl, rfl,
      same⟩

end

/-- A provider that exists, named among the proxies of a group that does not use it. -/
def providerAsProxy : Mapping :=
  [(.string "proxy-providers", .mapping [(.string "providerA", .mapping [])]),
    (.string "proxy-groups", .sequence [.mapping [(.string "name", .string "manual"),
      (.string "proxies", .sequence [.string "providerA", .string "missing"])]])]

/-- The name of a provider stays in the group, though it is none of a proxy, a group or a built-in
outbound, and the group uses no provider. -/
theorem providerAsProxy_stays : ¬ ∀ (config : Mapping) (groups : List Value),
      (cleanupProxyGroups config).get "proxy-groups" = some (.sequence groups) →
      ∀ group : Mapping, .mapping group ∈ groups →
      ∀ name, Value.string name ∈ plainItems group "proxies" →
        name ∈ proxyNames config ∨ name ∈ groupNames config ∨ name ∈ builtinPolicies ∨
          ∃ provider ∈ providerNames config, Value.string provider ∈ plainItems group "use" := by
  intro all
  have member := all providerAsProxy _ rfl
    [(.string "name", .string "manual"), (.string "proxies", .sequence [.string "providerA"])]
    (by decide) "providerA" (by decide)
  have none_ : ¬ ("providerA" ∈ proxyNames providerAsProxy ∨
      "providerA" ∈ groupNames providerAsProxy ∨ "providerA" ∈ builtinPolicies ∨
      ∃ provider ∈ providerNames providerAsProxy, Value.string provider ∈
        plainItems [(.string "name", .string "manual"),
          (.string "proxies", .sequence [.string "providerA"])] "use") := by decide
  exact none_ member

theorem cleanupProxyGroups_useSort {config : Mapping} (distinct : Distinct config)
    (clean : cleanupProxyGroups config = config) :
    cleanupProxyGroups (useSort config) = useSort config := by
  have same := get_useSort distinct
  have providers : providerNames (useSort config) = providerNames config := by
    simp only [providerNames, fieldMapping, same]
  have allowed : allowedNames (useSort config) = allowedNames config := by
    simp only [allowedNames, proxyNames, groupNames, sequenceUnder, providers, same]
  by_cases list : ∃ groups, config.get "proxy-groups" = some (.sequence groups)
  · obtain ⟨groups, is_⟩ := list
    rw [cleanupProxyGroups_eq is_] at clean
    have kept : some _ = config.get "proxy-groups" :=
      (get_insert_same ..).symm.trans (congrArg (Mapping.get · "proxy-groups") clean)
    rw [cleanupProxyGroups_eq ((same "proxy-groups").trans is_), providers, allowed]
    exact insert_of_get ((same "proxy-groups").trans kept.symm)
  · unfold cleanupProxyGroups
    split
    · rename_i groups is_
      exact absurd ⟨groups, (same "proxy-groups").symm.trans is_⟩ list
    · rfl

theorem ensureLanBindAddress_finish {config : Mapping} (distinct : Distinct config) :
    ensureLanBindAddress (finish config) = finish config := by
  have same {key : String} (groups : key ≠ "proxy-groups") :
      (finish config).get key = (ensureLanBindAddress config).get key := by
    rw [finish, get_useSort (cleanupProxyGroups_distinct (ensureLanBindAddress_distinct distinct)),
      Mapping.get, get_cleanupProxyGroups_other (by simpa using groups)]
    rfl
  have closed : ((((ensureLanBindAddress config).get "allow-lan").bind Value.asBool).getD false &&
      (((ensureLanBindAddress config).get "bind-address").bind Value.asStr).any
        isLoopbackBindAddress) = false := by
    unfold ensureLanBindAddress
    dsimp only
    split
    · have opened : (config.insert (.string "bind-address") (.string "*")).get "bind-address" =
          some (.string "*") := get_insert_same ..
      rw [opened]
      simp [show isLoopbackBindAddress "*" = false by decide]
    · rename_i shut
      exact Bool.eq_false_iff.mpr shut
  unfold ensureLanBindAddress
  dsimp only
  rw [same (by decide), same (by decide), closed]
  rfl

theorem finish_settled {config : Mapping} (distinct : Distinct config) :
    cleanupProxyGroups (finish config) = finish config ∧
      ensureLanBindAddress (finish config) = finish config :=
  have opened := ensureLanBindAddress_distinct distinct
  ⟨cleanupProxyGroups_useSort (cleanupProxyGroups_distinct opened)
    (cleanupProxyGroups_cleaned _).again, ensureLanBindAddress_finish distinct⟩

/-- Every configuration that is generated is as its last edits leave it: no group refers to what
does not exist, and no loopback bind address shuts out a LAN that is allowed in. -/
theorem enhance_settled (os : Os) (engine : ScriptEngine)
    (digest : String → Mapping → Except String String) (values : ConfigValues)
    (dnsConfig : Option Mapping) (profileUid : String) (settings : ProfileDnsSettings)
    (items : ProfileItems) :
    let generated := enhance os engine digest values dnsConfig profileUid settings items
    generated.map cleanupProxyGroups = generated ∧
      generated.map ensureLanBindAddress = generated := by
  dsimp only
  unfold enhance
  cases dnsOverrideSource digest profileUid items.config with
  | error message => exact ⟨rfl, rfl⟩
  | ok source =>
    have overridden := override_distinct engine items
      (prepare_distinct os values dnsConfig items (settings.overrides source))
    have settled (fields : AuthoritativeFields) :=
      finish_settled (@AuthoritativeFields.enforce_distinct os _ fields overridden)
    exact ⟨congrArg Except.ok (settled _).1, congrArg Except.ok (settled _).2⟩

end ClashVerge.Enhance
