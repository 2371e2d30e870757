import ClashVerge.Config.Generate

/-!
# The proxies of the tunnels

Before the configuration is written, a tunnel whose proxy does not exist loses its `proxy`. The
names that count are `DIRECT`, `REJECT`, and the nonempty names of the mappings in the two lists.
Where the proxy groups are cleaned up, more outbounds are built in, a name may be empty or stand for
its proxy alone, and tags are looked through.
-/

namespace ClashVerge.Config

open ClashVerge.AppProxy (asSequence_mapSequence mapSequence)
open ClashVerge.Enhance ClashVerge.Yaml
open OrderedMap (Distinct keys)

def validNames (config : Mapping) : List String :=
  collectNames config "proxies" ++ collectNames config "proxy-groups" ++ ["DIRECT", "REJECT"]

def modifyTunnels (change : Mapping → Mapping) (config : Mapping) : Mapping :=
  match config.get "tunnels" with
  | some tunnels =>
      config.insert (.string "tunnels") (mapSequence (List.map (modifyMapping change)) tunnels)
  | none => config

def tunnelsOf (config : Mapping) : List Mapping :=
  (((config.get "tunnels").bind Value.asSequence).getD []).filterMap Value.asMapping

def Outbound (config : Mapping) (name : String) : Prop :=
  name ∈ proxyNames config ∨ name ∈ groupNames config ∨ name ∈ builtinPolicies

/-- The tunnels lead somewhere, those that did are as they were, and from the others nothing but
the `proxy` is gone. -/
structure Sanitized (config after : Mapping) : Prop where
  leads : ∀ tunnel ∈ tunnelsOf after, ∀ name, tunnelProxy tunnel = some name →
    Outbound after name
  kept : List.Forall₂ (fun old new => ∀ name, tunnelProxy old = some name →
    Outbound config name → new = old) (tunnelsOf config) (tunnelsOf after)
  others : ∃ change, after = modifyTunnels change config ∧ ∀ tunnel ∈ tunnelsOf config,
    change tunnel = tunnel ∨ (change tunnel).Perm (OrderedMap.erase tunnel (.string "proxy"))
  again : sanitizeTunnelsProxy after = after

/-- A list without a tag holds a mapping without a tag that has the name, which is not empty. -/
def PlainlyNamed (config : Mapping) (name : String) : Prop :=
  name ≠ "" ∧ ∃ listKey ∈ ["proxies", "proxy-groups"], ∃ items map,
    config.get listKey = some (.sequence items) ∧ .mapping map ∈ items ∧
      Mapping.get map "name" = some (.string name)

/-- Each tunnel with the name of an outbound has `DIRECT`, `REJECT` or a plain name. -/
def PlainTunnels (config : Mapping) : Prop :=
  ∀ tunnel ∈ tunnelsOf config, ∀ name, tunnelProxy tunnel = some name → Outbound config name →
    name = "DIRECT" ∨ name = "REJECT" ∨ PlainlyNamed config name

section

variable {config tunnel : Mapping} {name : String} {change : Mapping → Mapping}

theorem mem_collectNames {listKey : String} : name ∈ collectNames config listKey ↔ name ≠ "" ∧
    ∃ items map, config.get listKey = some (.sequence items) ∧ .mapping map ∈ items ∧
      Mapping.get map "name" = some (.string name) := by
  unfold collectNames
  split
  · rename_i items found
    simp only [List.mem_filterMap, found, Option.some.injEq, Value.sequence.injEq]
    constructor
    · rintro ⟨item, inside, collected⟩
      split at collected
      · rename_i map
        split at collected
        · rename_i own named
          obtain ⟨nonempty, same⟩ := Option.ite_none_left_eq_some.mp collected
          cases same
          exact ⟨nonempty, items, map, rfl, inside, named⟩
        · contradiction
      · contradiction
    · rintro ⟨nonempty, _, map, rfl, inside, named⟩
      exact ⟨_, inside, by simp [named, nonempty]⟩
  · rename_i notList
    simp only [List.not_mem_nil, false_iff]
    rintro ⟨_, items, _, found, _⟩
    exact notList items found

theorem mem_validNames :
    name ∈ validNames config ↔ name = "DIRECT" ∨ name = "REJECT" ∨ PlainlyNamed config name := by
  simp only [validNames, List.mem_append, mem_collectNames, PlainlyNamed, List.mem_cons,
    List.not_mem_nil]
  grind

theorem PlainlyNamed.outbound (plain : PlainlyNamed config name) : Outbound config name := by
  obtain ⟨_, listKey, key, items, map, found, inside, named⟩ := plain
  have own : nameOf map = some name := by simp [nameOf, named]
  have listed : .mapping map ∈ sequenceUnder config listKey := by
    simpa [sequenceUnder, found, Value.asSequence, Value.untag] using inside
  rcases List.mem_cons.mp key with rfl | key
  · exact .inl (List.mem_filterMap.mpr ⟨_, listed, own⟩)
  · obtain rfl := List.mem_singleton.mp key
    exact .inr (.inl (List.mem_filterMap.mpr ⟨_, listed, own⟩))

theorem get_modifyTunnels : (modifyTunnels change config).get "tunnels" =
    (config.get "tunnels").map (mapSequence (List.map (modifyMapping change))) := by
  unfold modifyTunnels
  split
  · rename_i tunnels found
    rw [found]
    exact OrderedMap.get_insert_same ..
  · rename_i found
    simp [found]

theorem get_modifyTunnels_other {key : String} (different : key ≠ "tunnels") :
    (modifyTunnels change config).get key = config.get key := by
  unfold modifyTunnels
  split
  · exact OrderedMap.get_insert_other _ _ (by simpa using different)
  · rfl

theorem tunnelsOf_modifyTunnels :
    tunnelsOf (modifyTunnels change config) = (tunnelsOf config).map change := by
  unfold tunnelsOf
  rw [get_modifyTunnels]
  cases config.get "tunnels" with
  | none => rfl
  | some tunnels =>
    simp only [Option.map_some, Option.bind_some, asSequence_mapSequence]
    cases tunnels.asSequence with
    | none => rfl
    | some items =>
      simp only [Option.map_some, Option.getD_some, List.filterMap_map, List.map_filterMap]
      exact List.filterMap_congr fun item _ => asMapping_modifyMapping change item

theorem mapSequence_of_asSequence {change : List Value → List Value} : ∀ {value : Value},
    (∀ items, value.asSequence = some items → change items = items) →
    mapSequence change value = value
  | .sequence items, fixed => congrArg Value.sequence (fixed items rfl)
  | .tagged tag _, fixed =>
    congrArg (Value.tagged tag) (mapSequence_of_asSequence fixed)
  | .null, _ | .bool _, _ | .number _, _ | .string _, _ | .mapping _, _ => rfl

theorem modifyTunnels_of_fixed (fixed : ∀ tunnel ∈ tunnelsOf config, change tunnel = tunnel) :
    modifyTunnels change config = config := by
  unfold modifyTunnels
  split
  · rename_i tunnels found
    rw [mapSequence_of_asSequence]
    · exact OrderedMap.insert_of_get found
    · intro items is_
      have same (item : Value) (inside : item ∈ items) : modifyMapping change item = item :=
        modifyMapping_of_asMapping fun map own => fixed map (by
          simpa [tunnelsOf, found, is_] using ⟨item, inside, own⟩)
      exact (List.map_congr_left same).trans (List.map_id items)
  · rfl

theorem sanitizeTunnel_of_mem {valid : List String}
    (known : ∀ name, tunnelProxy tunnel = some name → name = "DIRECT" ∨ name = "REJECT" ∨ name ∈ valid) :
    sanitizeTunnel valid tunnel = tunnel := by
  unfold sanitizeTunnel
  split
  · rfl
  · rename_i name is_
    have := known name is_
    grind

theorem sanitizeTunnelsProxy_eq :
    sanitizeTunnelsProxy config = modifyTunnels (sanitizeTunnel (validNames config)) config := by
  unfold sanitizeTunnelsProxy
  split
  · rename_i found
    simp [modifyTunnels, found]
  · rename_i tunnels found
    split
    · simp only [modifyTunnels, found, validNames]
    · rename_i spared
      refine (modifyTunnels_of_fixed fun tunnel inside => sanitizeTunnel_of_mem fun name is_ => ?_).symm
      obtain ⟨item, listed, own⟩ := List.mem_filterMap.mp inside
      cases items_ : tunnels.asSequence with
      | none => simp [found, items_] at listed
      | some items =>
        simp only [items_, Option.any_some, tunnelsNeedValidation, List.any_eq_true, not_exists,
          not_and] at spared
        have builtIn := spared item (by simpa [found, items_] using listed)
        simp only [own, Option.bind_some, is_, Option.any_some, decide_eq_true_eq] at builtIn
        tauto

theorem wellFormed_of_asSequence : ∀ {value : Value} {items : List Value}, value.WellFormed →
    value.asSequence = some items → Value.WellFormedItems items
  | .sequence _, _, wellFormed, is_ => Option.some.inj is_ ▸ wellFormed
  | .tagged _ inner, _, wellFormed, is_ =>
    wellFormed_of_asSequence (show inner.WellFormed from wellFormed) is_
  | .null, _, _, is_ | .bool _, _, _, is_ | .number _, _, _, is_ | .string _, _, _, is_
  | .mapping _, _, _, is_ => nomatch is_

theorem distinct_of_mem_tunnelsOf (wellFormed : config.WellFormed)
    (inside : tunnel ∈ tunnelsOf config) : Distinct tunnel := by
  obtain ⟨item, listed, is_⟩ := List.mem_filterMap.mp inside
  cases found : (config.get "tunnels").bind Value.asSequence with
  | none => simp [found] at listed
  | some items =>
    obtain ⟨value, under, items_⟩ := Option.bind_eq_some_iff.mp found
    rw [found] at listed
    have whole := wellFormed_of_asSequence (Mapping.wellFormed_of_get wellFormed under) items_
    exact (Mapping.wellFormed_of_asMapping (Value.wellFormed_of_mem_items whole listed) is_).1

theorem sanitizeTunnel_cases (valid : List String) (tunnel : Mapping) :
    sanitizeTunnel valid tunnel = tunnel ∧
        (∀ name, tunnelProxy tunnel = some name → name = "DIRECT" ∨ name = "REJECT" ∨ name ∈ valid) ∨
      sanitizeTunnel valid tunnel = tunnel.remove "proxy" := by
  unfold sanitizeTunnel
  split
  · exact .inl ⟨rfl, by simp_all⟩
  · split_ifs with builtIn known
    · exact .inl ⟨rfl, by grind⟩
    · exact .inl ⟨rfl, by grind⟩
    · exact .inr rfl

theorem tunnelProxy_sanitized (distinct : Distinct tunnel)
    (left : tunnelProxy (sanitizeTunnel (validNames config) tunnel) = some name) :
    name = "DIRECT" ∨ name = "REJECT" ∨ PlainlyNamed config name := by
  rw [← mem_validNames]
  rcases sanitizeTunnel_cases (validNames config) tunnel with ⟨same, known⟩ | removed
  · rw [same] at left
    have := known name left
    rw [mem_validNames] at this ⊢
    tauto
  · have gone : (tunnel.remove "proxy").get "proxy" = none := by
      simp [Mapping.get, Mapping.remove, OrderedMap.get_remove distinct]
    simp [removed, tunnelProxy, gone] at left

theorem outbound_modifyTunnels : Outbound (modifyTunnels change config) name ↔ Outbound config name := by
  simp [Outbound, proxyNames, groupNames, sequenceUnder, get_modifyTunnels_other]

theorem validNames_modifyTunnels : validNames (modifyTunnels change config) = validNames config := by
  simp [validNames, collectNames, get_modifyTunnels_other]

theorem outbound_of_valid (valid : name = "DIRECT" ∨ name = "REJECT" ∨ PlainlyNamed config name) :
    Outbound config name := by
  rcases valid with rfl | rfl | plain
  · exact .inr (.inr (by decide))
  · exact .inr (.inr (by decide))
  · exact plain.outbound

end

/-- The proxies of the tunnels are sanitized as they should just where each tunnel with the name of
an outbound has `DIRECT`, `REJECT` or a plain name. -/
theorem sanitizeTunnelsProxy_iff {config : Mapping} (wellFormed : config.WellFormed) :
    Sanitized config (sanitizeTunnelsProxy config) ↔ PlainTunnels config := by
  rw [sanitizeTunnelsProxy_eq]
  have leads (tunnel : Mapping) (inside : tunnel ∈ tunnelsOf config) {name : String} :=
    @tunnelProxy_sanitized config _ name (distinct_of_mem_tunnelsOf wellFormed inside)
  constructor
  · intro sanitized tunnel inside name is_ outbound
    have kept := sanitized.kept
    rw [tunnelsOf_modifyTunnels, List.forall₂_map_right_iff, List.forall₂_same] at kept
    exact leads tunnel inside (by rw [kept tunnel inside name is_ outbound, is_])
  · intro plain
    refine ⟨?_, ?_, ?_, ?_⟩
    · intro tunnel inside name is_
      rw [tunnelsOf_modifyTunnels] at inside
      obtain ⟨old, listed, rfl⟩ := List.mem_map.mp inside
      exact outbound_modifyTunnels.mpr (outbound_of_valid (leads old listed is_))
    · rw [tunnelsOf_modifyTunnels, List.forall₂_map_right_iff, List.forall₂_same]
      intro tunnel inside name is_ outbound
      refine sanitizeTunnel_of_mem fun other own => ?_
      obtain rfl := Option.some.inj (is_.symm.trans own)
      have := plain tunnel inside name is_ outbound
      rw [mem_validNames]
      tauto
    · refine ⟨_, rfl, fun tunnel inside => ?_⟩
      rcases sanitizeTunnel_cases (validNames config) tunnel with ⟨same, _⟩ | removed
      · exact .inl same
      · rw [removed]
        exact .inr (OrderedMap.remove_perm (distinct_of_mem_tunnelsOf wellFormed inside) _)
    · rw [sanitizeTunnelsProxy_eq]
      refine modifyTunnels_of_fixed fun tunnel inside => sanitizeTunnel_of_mem fun name is_ => ?_
      rw [tunnelsOf_modifyTunnels] at inside
      obtain ⟨old, listed, rfl⟩ := List.mem_map.mp inside
      have := leads old listed is_
      rw [validNames_modifyTunnels, mem_validNames]
      tauto

/-- A tunnel through a built-in outbound that the groups may refer to. -/
def tunnelToRejectDrop : Mapping :=
  [(.string "tunnels", .sequence [.mapping [(.string "proxy", .string "REJECT-DROP")]])]

theorem tunnelToRejectDrop_not_sanitized :
    ¬ Sanitized tunnelToRejectDrop (sanitizeTunnelsProxy tunnelToRejectDrop) := by
  intro sanitized
  have lost : tunnelsOf (sanitizeTunnelsProxy tunnelToRejectDrop) = [[]] := by decide
  have kept := sanitized.kept
  rw [lost] at kept
  obtain ⟨same, _⟩ := List.forall₂_cons.mp (show List.Forall₂ _ [_] [_] from kept)
  exact absurd (same "REJECT-DROP" (by decide) (.inr (.inr (by decide)))) (by decide)

def tunnelToProxy : Mapping :=
  [(.string "proxies", .sequence [.mapping [(.string "name", .string "a")]]),
    (.string "tunnels", .sequence [.mapping [(.string "proxy", .string "a")]])]

theorem tunnelToProxy_sanitized : Sanitized tunnelToProxy (sanitizeTunnelsProxy tunnelToProxy) := by
  have wellFormed : tunnelToProxy.WellFormed := by
    simp [tunnelToProxy, Mapping.WellFormed, Value.WellFormed, Value.WellFormedItems,
      Value.WellFormedEntries, Distinct, keys]
  have tunnels : tunnelsOf tunnelToProxy = [[(.string "proxy", .string "a")]] := by decide
  refine (sanitizeTunnelsProxy_iff wellFormed).mpr fun tunnel inside name is_ _ => ?_
  rw [tunnels, List.mem_singleton] at inside
  subst inside
  obtain rfl : "a" = name := Option.some.inj is_
  exact .inr (.inr ⟨by decide, "proxies", by decide, _, _, rfl, List.mem_singleton_self _, rfl⟩)

end ClashVerge.Config
