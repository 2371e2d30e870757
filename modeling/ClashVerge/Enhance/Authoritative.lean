import ClashVerge.Verge.Config
import ClashVerge.Enhance.Field

/-!
# App-owned fields

`AuthoritativeFields` captures what the app decides of a configuration before the user's merges and
scripts run, and enforces it afterwards: the keys of the control plane, the settings of the tunnel
that were saved or belong to the app's switch, and what the DNS page has set.

Enforcing is exact: an owned key is as captured again, or gone; every other key keeps what it has.
-/

namespace ClashVerge.Enhance

open ClashVerge.Verge ClashVerge.Yaml
open OrderedMap (Distinct contains distinct_insert distinct_nil distinct_remove extend
  extend_of_get get get_eq_some_iff get_extend_distinct get_insert_other insert_of_get)

def controlPlaneKeys (os : Os) : List String :=
  ["external-controller"] ++
  (match os with
    | .windows => ["external-controller-pipe"]
    | .macos | .linux => ["external-controller-unix"]) ++
  ["external-controller-cors", "secret", "mixed-port", "socks-port", "port"] ++
  (match os with
    | .windows => []
    | .macos => ["redir-port"]
    | .linux => ["redir-port", "tproxy-port"]) ++
  ["mode", "allow-lan", "log-level", "ipv6", "unified-delay"]

def guiKeys (os : Os) : List String :=
  ["stack", "device", "auto-route", "route-exclude-address"] ++
  (match os with
    | .linux => ["auto-redirect"]
    | .macos | .windows => []) ++
  ["auto-detect-interface", "dns-hijack", "strict-route", "mtu"]

structure AuthoritativeFields where
  controlPlane : Mapping
  tun : Mapping
  dns : Mapping
  hosts : Option Value

def fieldMapping (config : Mapping) (field : String) : Option Mapping :=
  (config.get field).bind Value.asMapping

def subvalue (config : Mapping) (field : String) (key : Value) : Option Value :=
  (fieldMapping config field).bind (get · key)

/-- `take_mapping` leaves an empty mapping, which its callers overwrite or drop. -/
def takeMapping (config : Mapping) (field : String) : Mapping := (fieldMapping config field).getD []

def snapshot (config : Mapping) (keys : List Value) : Mapping :=
  keys.foldl
    (fun kept key =>
      match get config key with
      | some value => kept.insert key value
      | none => kept)
    []

def snapshotControlPlane (os : Os) (config : Mapping) : Mapping :=
  snapshot config ((controlPlaneKeys os).map .string)

/-- A tunnel that is not a plain mapping has nothing to keep. -/
def snapshotTun (config : Mapping) (guiTunKeys : List Value) : Mapping :=
  match config.get "tun" with
  | some (.mapping tun) => snapshot tun guiTunKeys
  | _ => []

/-- `gui_tun_keys`: the app's switch and the saved fields. -/
def guiTunKeys (os : Os) (clashConfig : Mapping) : List Value :=
  .string "enable" :: match clashConfig.get "tun" with
    | some (.mapping tun) => ((guiKeys os).filter (Mapping.containsKey tun)).map .string
    | _ => []

def dropMissing (config captured : Mapping) (keys : List String) : Mapping :=
  keys.foldl
    (fun config key => if captured.containsKey key then config else config.remove key) config

def enforceControlPlane (os : Os) (config captured : Mapping) : Mapping :=
  extend (dropMissing config captured (controlPlaneKeys os)) captured

/-- Put the owned keys back below a field. -/
def restoreSubkeys (config : Mapping) (field : String) (owned : Mapping) : Mapping :=
  if owned = [] then config
  else config.insert (.string field)
    (.mapping (extend (takeMapping config field) owned))

def enforceTun (config captured : Mapping) : Mapping := restoreSubkeys config "tun" captured

namespace AuthoritativeFields

def capture (os : Os) (config : Mapping) (guiTunKeys : List Value) (dnsSettings : Mapping) :
    AuthoritativeFields where
  controlPlane := snapshotControlPlane os config
  tun := snapshotTun config guiTunKeys
  dns := takeMapping dnsSettings "dns"
  hosts := dnsSettings.get "hosts"

/-- The last statement of `enforce`. -/
def restoreHosts (hosts : Option Value) (config : Mapping) : Mapping :=
  match hosts with
  | some hosts => config.insert (.string "hosts") hosts
  | none => config

def enforce (os : Os) (fields : AuthoritativeFields) (config : Mapping) : Mapping :=
  let config := enforceControlPlane os config fields.controlPlane
  let config := enforceTun config fields.tun
  let config := restoreSubkeys config "dns" fields.dns
  restoreHosts fields.hosts config

/-- The captured control plane is a map without any other keys. -/
structure ProperPlane (os : Os) (fields : AuthoritativeFields) : Prop where
  controlPlane : Distinct fields.controlPlane
  listed : ∀ key, key ∉ (controlPlaneKeys os).map Value.string →
    get fields.controlPlane key = none

/-- All captured mappings are maps. -/
structure Proper (os : Os) (fields : AuthoritativeFields) : Prop extends ProperPlane os fields where
  tun : Distinct fields.tun
  dns : Distinct fields.dns

end AuthoritativeFields

theorem get_snapshot (config : Mapping) (keys : List Value) (key : Value) :
    get (snapshot config keys) key =
      if key ∈ keys then get config key else none := by
  induction keys using List.reverseRecOn with
  | nil => rfl
  | append_singleton before last ih =>
    rw [snapshot, List.foldl_append, List.foldl_cons, List.foldl_nil, ← snapshot]
    cases found : get config last with
    | none =>
      by_cases same : key = last
      · subst same
        simp [ih, found]
      · simp [ih, same]
    | some value =>
      by_cases same : key = last
      · subst same
        simp [Mapping.insert, found]
      · simp [Mapping.insert, get_insert_other _ _ same, ih, same]

theorem distinct_snapshot (config : Mapping) (keys : List Value) :
    Distinct (snapshot config keys) := by
  induction keys using List.reverseRecOn with
  | nil => exact distinct_nil
  | append_singleton before last ih =>
    rw [snapshot, List.foldl_append, List.foldl_cons, List.foldl_nil, ← snapshot]
    split
    · exact distinct_insert ih _ _
    · exact ih

theorem dropMissing_distinct {config : Mapping} (distinct : Distinct config)
    (captured : Mapping) (keys : List String) :
    Distinct (dropMissing config captured keys) := by
  induction keys generalizing config with
  | nil => exact distinct
  | cons key rest ih =>
    rw [dropMissing, List.foldl_cons, ← dropMissing]
    apply ih
    split
    · exact distinct
    · exact distinct_remove distinct _

theorem get_dropMissing {config : Mapping} (distinct : Distinct config)
    (captured : Mapping) (keys : List String) (key : Value) :
    get (dropMissing config captured keys) key =
      if key ∈ keys.map Value.string ∧ get captured key = none then none
      else get config key := by
  induction keys generalizing config with
  | nil => simp [dropMissing]
  | cons first rest ih =>
    rw [dropMissing, List.foldl_cons, ← dropMissing]
    split
    · rename_i present
      rw [ih distinct]
      by_cases same : key = .string first
      · subst same
        have held : get captured (.string first) ≠ none := by
          intro absent
          simp [Mapping.containsKey, contains, absent] at present
        simp [held]
      · simp [same]
    · rename_i absent
      rw [Mapping.remove, ih (distinct_remove distinct _),
        OrderedMap.get_remove distinct]
      by_cases same : key = .string first
      · subst same
        have missing : get captured (.string first) = none := by
          simpa [Mapping.containsKey, contains] using absent
        simp [missing]
      · simp [same]

theorem dropMissing_of_get {config captured : Mapping} {keys : List String}
    (gone : ∀ key ∈ keys, captured.get key = none → config.get key = none) :
    dropMissing config captured keys = config := by
  induction keys with
  | nil => rfl
  | cons key rest ih =>
    have here : (if captured.containsKey key then config else config.remove key) = config := by
      split
      · rfl
      · rename_i absent
        have missing : get captured (.string key) = none := by
          simpa [Mapping.containsKey, contains] using absent
        exact OrderedMap.remove_of_get (gone key List.mem_cons_self missing)
    rw [dropMissing, List.foldl_cons, here, ← dropMissing]
    exact ih fun later listed => gone later (List.mem_cons_of_mem _ listed)

section

variable (config : Mapping) {field : String} {owned : Mapping}

theorem fieldMapping_insert (field : String) (entries : Mapping) :
    fieldMapping (config.insert (.string field) (.mapping entries)) field = some entries := by
  simp [fieldMapping, Mapping.get, Mapping.insert]

theorem subvalue_restoreSubkeys (distinct : Distinct owned) (key : Value) :
    subvalue (restoreSubkeys config field owned) field key =
      (get owned key).or (subvalue config field key) := by
  unfold restoreSubkeys
  split
  · rename_i none_owned
    simp [none_owned]
  · rw [subvalue, fieldMapping_insert, Option.bind_some, get_extend_distinct distinct,
      subvalue, takeMapping]
    cases fieldMapping config field <;> simp

theorem get_restoreSubkeys_other {key : Value} (different : key ≠ .string field) :
    get (restoreSubkeys config field owned) key = get config key := by
  unfold restoreSubkeys
  split
  · rfl
  · exact get_insert_other _ _ different

theorem restoreSubkeys_distinct {config : Mapping} (distinct : Distinct config) :
    Distinct (restoreSubkeys config field owned) := by
  unfold restoreSubkeys
  split
  · exact distinct
  · exact distinct_insert distinct _ _

theorem restoreSubkeys_of_get {config : Mapping}
    (held : owned ≠ [] → ∃ entries, config.get field = some (.mapping entries) ∧
      ∀ entry ∈ owned, get entries entry.1 = some entry.2) :
    restoreSubkeys config field owned = config := by
  unfold restoreSubkeys
  split
  · rfl
  · rename_i some_owned
    obtain ⟨entries, found, back⟩ := held some_owned
    have taken : takeMapping config field = entries := by simp [takeMapping, fieldMapping, found]
    rw [taken, extend_of_get back]
    exact insert_of_get found

theorem restoreSubkeys_held (distinct : Distinct owned) (some_owned : owned ≠ []) :
    ∃ entries, (restoreSubkeys config field owned).get field = some (.mapping entries) ∧
      ∀ entry ∈ owned, get entries entry.1 = some entry.2 := by
  refine ⟨extend (takeMapping config field) owned, ?_, fun entry listed => ?_⟩
  · simp [restoreSubkeys, some_owned, Mapping.get, Mapping.insert]
  · rw [get_extend_distinct distinct,
      (get_eq_some_iff distinct entry.1 entry.2).mpr listed]
    rfl

theorem subvalue_congr {one other : Mapping} {field : String}
    (same : one.get field = other.get field) (key : Value) :
    subvalue one field key = subvalue other field key := by
  rw [subvalue, subvalue, fieldMapping, fieldMapping, same]

end

theorem not_control_plane (os : Os) (field : String) (listed : field ∈ ["tun", "dns", "hosts"]) :
    Value.string field ∉ (controlPlaneKeys os).map Value.string := by
  have outside : ∀ field ∈ ["tun", "dns", "hosts"], field ∉ controlPlaneKeys os := by
    cases os <;> decide
  simpa using outside field listed

theorem get_restoreHosts_other (hosts : Option Value) (config : Mapping) {key : Value}
    (different : key ≠ .string "hosts") :
    get (AuthoritativeFields.restoreHosts hosts config) key =
      get config key := by
  cases hosts with
  | none => rfl
  | some value => exact get_insert_other _ _ different

namespace AuthoritativeFields

variable {os : Os} {fields : AuthoritativeFields} {config : Mapping}

theorem capture_properPlane (os : Os) (config : Mapping) (guiTunKeys : List Value)
    (dnsSettings : Mapping) : (capture os config guiTunKeys dnsSettings).ProperPlane os where
  controlPlane := distinct_snapshot _ _
  listed key outside := by
    rw [capture, snapshotControlPlane, get_snapshot, if_neg outside]

theorem capture_proper (os : Os) (config : Mapping) (guiTunKeys : List Value)
    {dnsSettings : Mapping}
    (distinct : ∀ dns, fieldMapping dnsSettings "dns" = some dns → Distinct dns) :
    (capture os config guiTunKeys dnsSettings).Proper os where
  toProperPlane := capture_properPlane os config guiTunKeys dnsSettings
  tun := by
    rw [capture, snapshotTun]
    split
    · exact distinct_snapshot _ _
    · exact distinct_nil
  dns := by
    rw [capture, takeMapping]
    cases found : fieldMapping dnsSettings "dns" with
    | none => exact distinct_nil
    | some dns => exact distinct dns found

theorem get_enforceControlPlane (proper : fields.ProperPlane os) (distinct : Distinct config)
    (key : Value) :
    get (enforceControlPlane os config fields.controlPlane) key =
      if key ∈ (controlPlaneKeys os).map Value.string then get fields.controlPlane key
      else get config key := by
  rw [enforceControlPlane, get_extend_distinct proper.controlPlane,
    get_dropMissing distinct]
  by_cases owned : key ∈ (controlPlaneKeys os).map Value.string
  · rw [if_pos owned]
    cases get fields.controlPlane key <;> simp [owned]
  · rw [if_neg owned, proper.listed key owned, if_neg (not_and_of_not_left _ owned)]
    rfl

theorem get_enforce_controlPlane (proper : fields.ProperPlane os)
    (distinct : Distinct config) {key : String} (owned : key ∈ controlPlaneKeys os) :
    (fields.enforce os config).get key = fields.controlPlane.get key := by
  have listed : Value.string key ∈ (controlPlaneKeys os).map Value.string :=
    List.mem_map_of_mem owned
  have other : ∀ field ∈ ["tun", "dns", "hosts"], Value.string key ≠ .string field := by
    intro field outside same
    exact not_control_plane os field outside (same ▸ listed)
  rw [enforce, Mapping.get, get_restoreHosts_other _ _ (other "hosts" (by simp)),
    get_restoreSubkeys_other _ (other "dns" (by simp)), enforceTun,
    get_restoreSubkeys_other _ (other "tun" (by simp)), get_enforceControlPlane proper distinct,
    if_pos listed]
  rfl

theorem subvalue_enforce_tun (proper : fields.Proper os) (distinct : Distinct config)
    (key : Value) :
    subvalue (fields.enforce os config) "tun" key =
      (get fields.tun key).or (subvalue config "tun" key) := by
  have kept : (fields.enforce os config).get "tun" =
      (enforceTun (enforceControlPlane os config fields.controlPlane) fields.tun).get "tun" := by
    rw [enforce, Mapping.get, get_restoreHosts_other _ _ (by decide),
      get_restoreSubkeys_other _ (by decide)]
    rfl
  have before : (enforceControlPlane os config fields.controlPlane).get "tun" =
      config.get "tun" := by
    rw [Mapping.get, get_enforceControlPlane proper.toProperPlane distinct,
      if_neg (not_control_plane os "tun" (by simp))]
    rfl
  rw [subvalue_congr kept, enforceTun, subvalue_restoreSubkeys _ proper.tun, subvalue_congr before]

theorem subvalue_enforce_dns (proper : fields.Proper os) (distinct : Distinct config)
    (key : Value) :
    subvalue (fields.enforce os config) "dns" key =
      (get fields.dns key).or (subvalue config "dns" key) := by
  have kept : (fields.enforce os config).get "dns" =
      (restoreSubkeys (enforceTun (enforceControlPlane os config fields.controlPlane) fields.tun)
        "dns" fields.dns).get "dns" := by
    rw [enforce, Mapping.get, get_restoreHosts_other _ _ (by decide)]
    rfl
  have before : (enforceTun (enforceControlPlane os config fields.controlPlane) fields.tun).get
      "dns" = config.get "dns" := by
    rw [enforceTun, Mapping.get, get_restoreSubkeys_other _ (by decide),
      get_enforceControlPlane proper.toProperPlane distinct, if_neg (not_control_plane os "dns" (by simp))]
    rfl
  rw [subvalue_congr kept, subvalue_restoreSubkeys _ proper.dns, subvalue_congr before]

/-- Every field that is not owned, and `tun`, `dns` and `hosts` where nothing of them is owned, is
as the merges and scripts left it. -/
theorem get_enforce_other (proper : fields.Proper os) (distinct : Distinct config)
    {key : Value} (outside : key ∉ (controlPlaneKeys os).map Value.string)
    (tun : key = .string "tun" → fields.tun = []) (dns : key = .string "dns" → fields.dns = [])
    (hosts : key = .string "hosts" → fields.hosts = none) :
    get (fields.enforce os config) key = get config key := by
  have first : get (enforceControlPlane os config fields.controlPlane) key =
      get config key := by
    rw [get_enforceControlPlane proper.toProperPlane distinct, if_neg outside]
  have second : get
      (enforceTun (enforceControlPlane os config fields.controlPlane) fields.tun) key =
      get config key := by
    by_cases same : key = .string "tun"
    · rw [enforceTun, restoreSubkeys, if_pos (tun same), first]
    · rw [enforceTun, get_restoreSubkeys_other _ same, first]
  have third : get (restoreSubkeys
      (enforceTun (enforceControlPlane os config fields.controlPlane) fields.tun) "dns"
      fields.dns) key = get config key := by
    by_cases same : key = .string "dns"
    · rw [restoreSubkeys, if_pos (dns same), second]
    · rw [get_restoreSubkeys_other _ same, second]
  rw [enforce]
  by_cases same : key = .string "hosts"
  · rw [hosts same]
    exact third
  · rw [get_restoreHosts_other _ _ same, third]

theorem get_enforce_hosts {hosts : Value} (owned : fields.hosts = some hosts) :
    (fields.enforce os config).get "hosts" = some hosts := by
  simp [enforce, owned, restoreHosts, Mapping.get, Mapping.insert]

theorem enforce_distinct (fields : AuthoritativeFields) (distinct : Distinct config) :
    Distinct (fields.enforce os config) := by
  have third : Distinct (restoreSubkeys
      (enforceTun (enforceControlPlane os config fields.controlPlane) fields.tun) "dns"
      fields.dns) :=
    restoreSubkeys_distinct (restoreSubkeys_distinct
      (OrderedMap.distinct_extend (dropMissing_distinct distinct _ _) _))
  rw [enforce]
  cases fields.hosts with
  | none => exact third
  | some hosts => exact distinct_insert third _ _

theorem enforce_of_held (proper : fields.Proper os)
    (controlPlane : ∀ key ∈ controlPlaneKeys os, config.get key = fields.controlPlane.get key)
    (tun : fields.tun ≠ [] → ∃ entries, config.get "tun" = some (.mapping entries) ∧
      ∀ entry ∈ fields.tun, get entries entry.1 = some entry.2)
    (dns : fields.dns ≠ [] → ∃ entries, config.get "dns" = some (.mapping entries) ∧
      ∀ entry ∈ fields.dns, get entries entry.1 = some entry.2)
    (hosts : ∀ hosts, fields.hosts = some hosts → config.get "hosts" = some hosts) :
    fields.enforce os config = config := by
  have plane : enforceControlPlane os config fields.controlPlane = config := by
    rw [enforceControlPlane, dropMissing_of_get]
    · refine extend_of_get fun entry listed => ?_
      have captured := (get_eq_some_iff proper.controlPlane _ _).mpr listed
      by_cases owned : entry.1 ∈ (controlPlaneKeys os).map Value.string
      · obtain ⟨key, member, same⟩ := List.mem_map.mp owned
        rw [← same] at captured ⊢
        exact (controlPlane key member).trans captured
      · simp [proper.listed _ owned] at captured
    · intro key listed missing
      exact (controlPlane key listed).trans missing
  rw [enforce, plane, enforceTun, restoreSubkeys_of_get tun, restoreSubkeys_of_get dns]
  cases owned : fields.hosts with
  | none => rfl
  | some value => exact insert_of_get (hosts value owned)

theorem enforce_idempotent (proper : fields.Proper os) (distinct : Distinct config) :
    fields.enforce os (fields.enforce os config) = fields.enforce os config := by
  refine enforce_of_held proper (fun key owned =>
      get_enforce_controlPlane proper.toProperPlane distinct owned)
    ?_ ?_ (fun hosts owned => get_enforce_hosts owned)
  · intro some_owned
    have kept : (fields.enforce os config).get "tun" = (restoreSubkeys
        (enforceControlPlane os config fields.controlPlane) "tun" fields.tun).get "tun" := by
      rw [enforce, Mapping.get, get_restoreHosts_other _ _ (by decide),
        get_restoreSubkeys_other _ (by decide)]
      rfl
    rw [kept]
    exact restoreSubkeys_held _ proper.tun some_owned
  · intro some_owned
    have kept : (fields.enforce os config).get "dns" = (restoreSubkeys
        (enforceTun (enforceControlPlane os config fields.controlPlane) fields.tun) "dns"
        fields.dns).get "dns" := by
      rw [enforce, Mapping.get, get_restoreHosts_other _ _ (by decide)]
      rfl
    rw [kept]
    exact restoreSubkeys_held _ proper.dns some_owned

end AuthoritativeFields

end ClashVerge.Enhance
