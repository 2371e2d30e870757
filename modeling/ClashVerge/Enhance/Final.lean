import ClashVerge.Enhance.Authoritative
import ClashVerge.Enhance.BindAddress

/-!
# The stages after the overrides

After the user's merges and scripts, `enhance` enforces the app-owned fields, opens a loopback bind
address where the LAN is allowed in, drops what proxy groups name in vain and sorts the fields. The
last three change nothing that was enforced.
-/

namespace ClashVerge.Enhance

open ClashVerge.Verge ClashVerge.Yaml
open OrderedMap (Distinct distinct_insert get get_insert_other)

def ensureLanBindAddress (config : Mapping) : Mapping :=
  let allowLan := ((config.get "allow-lan").bind Value.asBool).getD false
  let loopback := ((config.get "bind-address").bind Value.asStr).any isLoopbackBindAddress
  if allowLan && loopback then config.insert (.string "bind-address") (.string "*") else config

def builtinPolicies : List String := ["DIRECT", "REJECT", "REJECT-DROP", "PASS", "PASS-RULE"]

/-- The items of a sequence under the key, seen through tags. -/
def sequenceUnder (config : Mapping) (key : String) : List Value :=
  ((config.get key).bind Value.asSequence).getD []

def proxyNames (config : Mapping) : List String :=
  (sequenceUnder config "proxies").filterMap proxyName

def groupNames (config : Mapping) : List String :=
  (sequenceUnder config "proxy-groups").filterMap fun item => item.asMapping.bind nameOf

def providerNames (config : Mapping) : List String :=
  ((fieldMapping config "proxy-providers").getD []).filterMap fun entry => entry.1.asStr

def retainUnder (map : Mapping) (key : String) (keep : Value → Bool) : Mapping :=
  match map.get key with
  | some (.sequence items) => map.insert (.string key) (.sequence (items.filter keep))
  | _ => map

def namesProvider (providers : List String) : Value → Bool
  | .string name => providers.contains name
  | _ => false

/-- Drop the providers and proxies that do not exist. A group with an existing provider keeps its
proxies. -/
def cleanupGroup (allowed providers : List String) (group : Mapping) : Mapping :=
  let hasValidProvider := match group.get "use" with
    | some (.sequence uses) => uses.any (namesProvider providers)
    | _ => false
  let used := retainUnder group "use" (namesProvider providers)
  retainUnder used "proxies" fun proxy =>
    match proxy with
    | .string name => allowed.contains name || hasValidProvider
    | _ => true

def modifyMapping (change : Mapping → Mapping) : Value → Value
  | .mapping map => .mapping (change map)
  | .tagged tag value => .tagged tag (modifyMapping change value)
  | value => value

@[simp] theorem asMapping_modifyMapping (change : Mapping → Mapping) :
    ∀ value : Value, (modifyMapping change value).asMapping = value.asMapping.map change
  | .mapping _ => rfl
  | .tagged _ value => asMapping_modifyMapping change value
  | .null | .bool _ | .number _ | .string _ | .sequence _ => rfl

theorem modifyMapping_of_asMapping {change : Mapping → Mapping} :
    ∀ {value : Value}, (∀ map, value.asMapping = some map → change map = map) →
      modifyMapping change value = value
  | .mapping map, same => congrArg Value.mapping (same map rfl)
  | .tagged tag _, same => congrArg (Value.tagged tag) (modifyMapping_of_asMapping same)
  | .null, _ | .bool _, _ | .number _, _ | .string _, _ | .sequence _, _ => rfl

theorem modifyMapping_modifyMapping (first second : Mapping → Mapping) :
    ∀ value : Value, modifyMapping second (modifyMapping first value) =
      modifyMapping (fun map => second (first map)) value
  | .mapping _ => rfl
  | .tagged tag value => congrArg (Value.tagged tag) (modifyMapping_modifyMapping first second value)
  | .null | .bool _ | .number _ | .string _ | .sequence _ => rfl

def cleanupProxyGroups (config : Mapping) : Mapping :=
  let providers := providerNames config
  let allowed := proxyNames config ++ groupNames config ++ providers ++ builtinPolicies
  match config.get "proxy-groups" with
  | some (.sequence groups) =>
    config.insert (.string "proxy-groups")
      (.sequence (groups.map (modifyMapping (cleanupGroup allowed providers))))
  | _ => config

/-- Everything `enhance` does after it has enforced the app-owned fields. -/
def finish (config : Mapping) : Mapping :=
  useSort (cleanupProxyGroups (ensureLanBindAddress config))

section

variable {config : Mapping}

theorem get_ensureLanBindAddress_other {key : Value} (different : key ≠ .string "bind-address") :
    get (ensureLanBindAddress config) key = get config key := by
  simp only [ensureLanBindAddress]
  split
  · exact get_insert_other _ _ different
  · rfl

theorem ensureLanBindAddress_distinct (distinct : Distinct config) :
    Distinct (ensureLanBindAddress config) := by
  simp only [ensureLanBindAddress]
  split
  · exact distinct_insert distinct _ _
  · exact distinct

theorem get_cleanupProxyGroups_other {key : Value} (different : key ≠ .string "proxy-groups") :
    get (cleanupProxyGroups config) key = get config key := by
  simp only [cleanupProxyGroups]
  split
  · exact get_insert_other _ _ different
  · rfl

theorem cleanupProxyGroups_distinct (distinct : Distinct config) :
    Distinct (cleanupProxyGroups config) := by
  simp only [cleanupProxyGroups]
  split
  · exact distinct_insert distinct _ _
  · exact distinct

theorem get_finish (distinct : Distinct config) {key : String}
    (address : key ≠ "bind-address") (groups : key ≠ "proxy-groups") :
    (finish config).get key = config.get key := by
  rw [finish, get_useSort (cleanupProxyGroups_distinct (ensureLanBindAddress_distinct distinct)),
    Mapping.get, get_cleanupProxyGroups_other (by simpa using groups),
    get_ensureLanBindAddress_other (by simpa using address)]
  rfl

end

/-- What a configuration has to be once the fields captured from another one are enforced on it. -/
structure Enforced (os : Os) (captured : Mapping) (guiTunKeys : List Value)
    (dnsSettings config enforced : Mapping) : Prop where
  controlPlane : ∀ key ∈ controlPlaneKeys os, enforced.get key = captured.get key
  tun : ∀ key ∈ guiTunKeys, ∀ tun value, captured.get "tun" = some (.mapping tun) →
    get tun key = some value → subvalue enforced "tun" key = some value
  dns : ∀ key value, subvalue dnsSettings "dns" key = some value →
    subvalue enforced "dns" key = some value
  hosts : ∀ hosts, dnsSettings.get "hosts" = some hosts → enforced.get "hosts" = some hosts
  others : ∀ key, key ∉ (controlPlaneKeys os ++ ["tun", "dns", "hosts"]).map Value.string →
    get enforced key = get config key
  /-- A key below `tun` that is not owned, or of which nothing was captured. -/
  unownedTun : ∀ key, get (snapshotTun captured guiTunKeys) key = none →
    subvalue enforced "tun" key = subvalue config "tun" key
  unownedDns : ∀ key, subvalue dnsSettings "dns" key = none →
    subvalue enforced "dns" key = subvalue config "dns" key
  wholeTun : snapshotTun captured guiTunKeys = [] → enforced.get "tun" = config.get "tun"
  wholeDns : takeMapping dnsSettings "dns" = [] → enforced.get "dns" = config.get "dns"
  wholeHosts : dnsSettings.get "hosts" = none → enforced.get "hosts" = config.get "hosts"

theorem get_snapshotTun {captured tun : Mapping} {guiTunKeys : List Value} {key : Value}
    (owned : key ∈ guiTunKeys) (found : captured.get "tun" = some (.mapping tun)) :
    get (snapshotTun captured guiTunKeys) key = get tun key := by
  simp [snapshotTun, found, get_snapshot, owned]

theorem get_takeMapping (config : Mapping) (field : String) (key : Value) :
    get (takeMapping config field) key = subvalue config field key := by
  rw [takeMapping, subvalue]
  cases fieldMapping config field <;> rfl

theorem enforce_enforced (os : Os) (captured : Mapping) (guiTunKeys : List Value)
    {dnsSettings config : Mapping}
    (dnsDistinct : ∀ dns, fieldMapping dnsSettings "dns" = some dns → Distinct dns)
    (distinct : Distinct config) :
    Enforced os captured guiTunKeys dnsSettings config
      ((AuthoritativeFields.capture os captured guiTunKeys dnsSettings).enforce os config) := by
  have proper := AuthoritativeFields.capture_proper os captured guiTunKeys dnsDistinct
  have tunnel : ∀ key, subvalue ((AuthoritativeFields.capture os captured guiTunKeys
      dnsSettings).enforce os config) "tun" key =
      (get (snapshotTun captured guiTunKeys) key).or (subvalue config "tun" key) :=
    AuthoritativeFields.subvalue_enforce_tun proper distinct
  have dns : ∀ key, subvalue ((AuthoritativeFields.capture os captured guiTunKeys
      dnsSettings).enforce os config) "dns" key =
      (subvalue dnsSettings "dns" key).or (subvalue config "dns" key) := by
    intro key
    rw [← get_takeMapping dnsSettings]
    exact AuthoritativeFields.subvalue_enforce_dns proper distinct key
  have outside := @AuthoritativeFields.get_enforce_other os _ config proper distinct
  constructor
  · intro key owned
    rw [AuthoritativeFields.get_enforce_controlPlane proper.toProperPlane distinct owned]
    exact (get_snapshot _ _ _).trans (if_pos (List.mem_map_of_mem owned))
  · intro key owned tun value found held
    rw [tunnel, get_snapshotTun owned found, held]
    rfl
  · intro key value held
    rw [dns, held]
    rfl
  · intro hosts owned
    exact AuthoritativeFields.get_enforce_hosts owned
  · intro key other
    rw [List.map_append, List.mem_append, not_or] at other
    obtain ⟨plane, rest⟩ := other
    refine outside plane ?_ ?_ ?_ <;> rintro rfl <;> simp at rest
  · intro key unowned
    rw [tunnel, unowned]
    rfl
  · intro key unowned
    rw [dns, unowned]
    rfl
  · intro unowned
    exact outside (not_control_plane os "tun" (by simp)) (fun _ => unowned) (by simp) (by simp)
  · intro unowned
    exact outside (not_control_plane os "dns" (by simp)) (by simp) (fun _ => unowned) (by simp)
  · intro unowned
    exact outside (not_control_plane os "hosts" (by simp)) (by simp) (by simp)
      (fun _ => unowned)

/-- Whatever the overrides made of a configuration, enforcing gives each owned key the captured
value and leaves everything else alone, enforcing again changes nothing, and the stages that follow
change only the bind address and the proxy groups. -/
theorem authoritative_fields_win (os : Os) (captured : Mapping) (guiTunKeys : List Value)
    (dnsSettings config : Mapping)
    (dnsDistinct : ∀ dns, fieldMapping dnsSettings "dns" = some dns → Distinct dns)
    (distinct : Distinct config) :
    let fields := AuthoritativeFields.capture os captured guiTunKeys dnsSettings
    let enforced := fields.enforce os config
    Enforced os captured guiTunKeys dnsSettings config enforced ∧
      fields.enforce os enforced = enforced ∧
      ∀ key, key ≠ "bind-address" → key ≠ "proxy-groups" →
        (finish enforced).get key = enforced.get key := by
  have proper := AuthoritativeFields.capture_proper os captured guiTunKeys dnsDistinct
  refine ⟨enforce_enforced os captured guiTunKeys dnsDistinct distinct,
    AuthoritativeFields.enforce_idempotent proper distinct, fun key address groups => ?_⟩
  exact get_finish (AuthoritativeFields.enforce_distinct _ distinct) address groups

/-- The merge of a user turns the tunnel into a text and moves the secret. -/
theorem authoritative_fields_win_over_merge :
    let captured : Mapping := [(.string "secret", .string "app"),
      (.string "tun", .mapping [(.string "enable", .bool true)])]
    let config : Mapping := [(.string "tun", .string "off"), (.string "secret", .string "user"),
      (.string "mode", .string "direct"), (.string "rules", .sequence [])]
    let fields := AuthoritativeFields.capture .linux captured [.string "enable"] []
    let enforced := fields.enforce .linux config
    Enforced .linux captured [.string "enable"] [] config enforced ∧
      fields.enforce .linux enforced = enforced ∧
      ∀ key, key ≠ "bind-address" → key ≠ "proxy-groups" →
        (finish enforced).get key = enforced.get key :=
  authoritative_fields_win .linux _ _ _ _ (by simp [fieldMapping, Mapping.get])
    (by unfold Distinct; decide)

end ClashVerge.Enhance
