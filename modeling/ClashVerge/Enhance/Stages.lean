import ClashVerge.Enhance.Final

/-!
# The stages of `enhance`

From the collected items of a profile to the generated configuration: the rules, proxies and groups
are edited, the app's configuration is merged in, the builtin scripts run, the tunnel and the DNS
settings are put in place, the app-owned fields are captured, the merges and scripts of the user
run, and the captured fields are enforced.

Running a user's script and digesting a provider's DNS servers are arguments.
-/

namespace ClashVerge.Enhance

open ClashVerge.Verge ClashVerge.Yaml
open OrderedMap (Distinct distinct_insert distinct_remove extend get)

structure SeqMap where
  prepend : List Value
  append : List Value
  delete : List String

/-- `SeqMap::default`. -/
def SeqMap.empty : SeqMap := ⟨[], [], []⟩

/-- The item is not named in the list. Only a plain text and a plain mapping have names here. -/
def survives (delete : List String) : Value → Bool
  | .string name => !delete.contains name
  | .mapping map =>
    match Mapping.get map "name" with
    | some (.string name) => !delete.contains name
    | _ => true
  | _ => true

def referenceSurvives (delete : List String) : Value → Bool
  | .string name => !delete.contains name
  | _ => true

def isSelectorGroup (group : Mapping) : Bool :=
  ((group.get "type").bind Value.asStr).any fun kind =>
    asciiLowercase kind == "select" || asciiLowercase kind == "selector"

/-- Drop the texts that were seen before. -/
def skipSeen (seen : List String) : List Value → List Value
  | [] => []
  | .string name :: rest =>
    if seen.contains name then skipSeen seen rest
    else .string name :: skipSeen (name :: seen) rest
  | value :: rest => value :: skipSeen seen rest

/-- Put the added proxies in front of those of a group. -/
def mergeProxies (added : List String) (base : List Value) : List Value :=
  added.map .string ++ skipSeen added base

def pruneGroup (delete : List String) (group : Mapping) : Option (List Value) × Mapping :=
  match group.get "proxies" with
  | some (.sequence proxies) =>
    (some (proxies.filter (referenceSurvives delete)), group.remove "proxies")
  | some value => (none, (group.remove "proxies").insert (.string "proxies") value)
  | none => (none, group)

def updateGroups (delete added : List String) : Bool → List Value → List Value
  | _, [] => []
  | appended, .mapping group :: rest =>
    let (proxies, group) := pruneGroup delete group
    let takes := !appended && !added.isEmpty && isSelectorGroup group
    let proxies := if takes then some (mergeProxies added (proxies.getD [])) else proxies
    let group := match proxies with
      | some proxies => group.insert (.string "proxies") (.sequence proxies)
      | none => group
    .mapping group :: updateGroups delete added (appended || takes) rest
  | appended, value :: rest => value :: updateGroups delete added appended rest

def useSeq (seq : SeqMap) (config : Mapping) (field : String) : Mapping :=
  let existing := match config.get field with
    | some (.sequence items) => items.filter (survives seq.delete)
    | _ => []
  let edited := (config.remove field).insert (.string field)
    (.sequence (seq.prepend ++ existing ++ seq.append))
  if field ≠ "proxies" then edited
  else match edited.get "proxy-groups" with
    | none => edited
    | some (.sequence groups) =>
      let added := ((seq.prepend.filterMap proxyName) ++ seq.append.filterMap proxyName).eraseDups
      (edited.remove "proxy-groups").insert (.string "proxy-groups")
        (.sequence (updateGroups seq.delete added false groups))
    | some value => (edited.remove "proxy-groups").insert (.string "proxy-groups") value

inductive ChainType where
  | merge (mapping : Mapping)
  | script (text : String)
  | rules (seq : SeqMap)
  | proxies (seq : SeqMap)
  | groups (seq : SeqMap)

/-- What is collected for a profile. The keys of its configuration are distinct, as the parser
leaves them. -/
structure ProfileItems where
  config : Mapping
  distinct : Distinct config
  mergeItem : ChainType
  scriptItem : ChainType
  rulesItem : ChainType
  proxiesItem : ChainType
  groupsItem : ChainType
  globalMerge : ChainType
  globalScript : ChainType
  profileName : String

/-- The edits of an item, if it is of the kind its place asks for. -/
def rulesOf : ChainType → Option SeqMap
  | .rules rules => some rules
  | _ => none

def proxiesOf : ChainType → Option SeqMap
  | .proxies proxies => some proxies
  | _ => none

def groupsOf : ChainType → Option SeqMap
  | .groups groups => some groups
  | _ => none

def useSeqItem (seq : Option SeqMap) (config : Mapping) (field : String) : Mapping :=
  match seq with
  | some seq => useSeq seq config field
  | none => config

def processSeqItems (config : Mapping) (items : ProfileItems) : Mapping :=
  let config := useSeqItem (rulesOf items.rulesItem) config "rules"
  let config := useSeqItem (proxiesOf items.proxiesItem) config "proxies"
  useSeqItem (groupsOf items.groupsItem) config "proxy-groups"

/-- `ConfigValues`: the app's configuration, with distinct keys, and its switches. -/
structure ConfigValues where
  clashConfig : Mapping
  distinct : Distinct clashConfig
  clashCore : Option String
  enableTun : Bool
  enableBuiltin : Bool
  socksEnabled : Bool
  httpEnabled : Bool
  enableExternalController : Bool
  redirEnabled : Bool
  tproxyEnabled : Bool

def mergedValue (values : ConfigValues) (key value : Value) : Value :=
  if key.asStr = some "external-controller" ∧ !values.enableExternalController then .string ""
  else value

/-- The body of the loop of `merge_default_config`. A port that is switched off is removed. -/
def mergeEntry (os : Os) (values : ConfigValues) (config : Mapping) (key value : Value) : Mapping :=
  if key.asStr = some "tun" then
    config.insert (.string "tun")
      (.mapping (extend (takeMapping config "tun") (value.asMapping.getD [])))
  else if key.asStr = some "socks-port" ∧ !values.socksEnabled then config.remove "socks-port"
  else if key.asStr = some "port" ∧ !values.httpEnabled then config.remove "port"
  else if key.asStr = some "redir-port" ∧ os = .windows then config
  else if key.asStr = some "redir-port" ∧ !values.redirEnabled then config.remove "redir-port"
  else if key.asStr = some "tproxy-port" ∧ (os ≠ .linux ∨ !values.tproxyEnabled) then
    config.remove "tproxy-port"
  else config.insert key (mergedValue values key value)

def mergeDefaultConfig (os : Os) (values : ConfigValues) (config : Mapping) : Mapping :=
  values.clashConfig.foldl (fun config entry => mergeEntry os values config entry.1 entry.2) config

inductive ChainSupport where
  | clashMeta
  | clashMetaAlpha

def ChainSupport.isSupport (support : ChainSupport) : Option String → Bool
  | some core =>
    match support with
    | .clashMeta => core == "verge-mihomo"
    | .clashMetaAlpha => core == "verge-mihomo-alpha"
  | none => true

inductive BuiltinScript where
  | hyAlpn
  | metaGuard

def builtin : List (ChainSupport × BuiltinScript) :=
  [(.clashMeta, .hyAlpn), (.clashMeta, .metaGuard), (.clashMetaAlpha, .hyAlpn),
    (.clashMetaAlpha, .metaGuard)]

def listAlpn (proxy : Mapping) : Mapping :=
  if (proxy.get "type").bind Value.asStr = some "hysteria" then
    match proxy.get "alpn" with
    | some (.string alpn) => proxy.insert (.string "alpn") (.sequence [.string alpn])
    | _ => proxy
  else proxy

def builtinHyAlpn (config : Mapping) : Mapping :=
  match config.get "proxies" with
  | some (.sequence proxies) =>
    config.insert (.string "proxies") (.sequence (proxies.map (modifyMapping listAlpn)))
  | _ => config

def builtinMetaGuard (config : Mapping) : Mapping :=
  if (config.get "mode").bind Value.asStr = some "script" then
    config.insert (.string "mode") (.string "rule")
  else config

def BuiltinScript.apply (config : Mapping) : BuiltinScript → Mapping
  | hyAlpn => builtinHyAlpn config
  | metaGuard => builtinMetaGuard config

def supportedBuiltins (values : ConfigValues) : List BuiltinScript :=
  (builtin.filter fun item => item.1.isSupport values.clashCore).map Prod.snd

/-- The keys are lowercased once, and only when a builtin script runs. -/
def applyBuiltinScripts (values : ConfigValues) (config : Mapping) : Mapping :=
  if values.enableBuiltin && !(supportedBuiltins values).isEmpty then
    (supportedBuiltins values).foldl BuiltinScript.apply (useLowercase config)
  else config

def insertMissing (map : Mapping) (key : String) (value : Value) : Mapping :=
  if map.containsKey key then map else map.insert (.string key) value

def tunDns (dns : Mapping) (ipv6 : Bool) : Mapping :=
  let mode := ((dns.get "enhanced-mode").bind Value.asStr).getD "fake-ip"
  if mode = "fake-ip" ∨ !dns.containsKey "enhanced-mode" then
    let dns := dns.insert (.string "enable") (.bool true)
    let dns := dns.insert (.string "ipv6") (.bool ipv6)
    let dns := insertMissing dns "enhanced-mode" (.string "fake-ip")
    let dns := insertMissing dns "fake-ip-range" (.string "198.18.0.1/16")
    if ipv6 then insertMissing dns "fake-ip-range6" (.string "2001:2::0/64") else dns
  else dns

def useTun (config : Mapping) (enable : Bool) : Mapping :=
  let tun := (takeMapping config "tun").insert (.string "enable") (.bool enable)
  let config :=
    if enable then
      let ipv6 := ((config.get "ipv6").bind Value.asBool).getD false
      config.insert (.string "dns") (.mapping (tunDns (takeMapping config "dns") ipv6))
    else config
  config.insert (.string "tun") (.mapping tun)

def isBlank (text : String) : Bool := text.toList.all isWhitespace

def ensureFakeIpRange6 (dns : Mapping) : Mapping :=
  let ipv6 := ((dns.get "ipv6").bind Value.asBool).getD false
  let fakeIp := (((dns.get "enhanced-mode").bind Value.asStr).map (· == "fake-ip")).getD true
  let missing := (((dns.get "fake-ip-range6").bind Value.asStr).map isBlank).getD true
  if ipv6 && fakeIp && missing then
    dns.insert (.string "fake-ip-range6") (.string "2001:2::0/64")
  else dns

/-- What the DNS page leaves blank keeps the profile's value. -/
def isSet : Value → Bool
  | .null => false
  | .bool on => on
  | .string text => !isBlank text
  | .sequence items => !items.isEmpty
  | .mapping map => !map.isEmpty
  | .number _ | .tagged _ _ => true

/-- The settings of the DNS page: those below `dns`, or all of them in the legacy layout. -/
def dnsOverride (dnsConfig : Mapping) : Option Mapping :=
  let settings := dnsConfig.remove "hosts"
  match settings.get "dns" with
  | some (.mapping dns) => some (dns.filter fun entry => isSet entry.2)
  | some _ => none
  | none => some (settings.filter fun entry => isSet entry.2)

def hostsOverride (dnsConfig : Mapping) : Option Mapping :=
  match dnsConfig.get "hosts" with
  | some (.mapping []) => none
  | some (.mapping hosts) => some hosts
  | _ => none

/-- The merged configuration, and what the DNS page owns of it. -/
def mergeDnsConfig (config dnsConfig : Mapping) : Mapping × Mapping :=
  let (config, applied) : Mapping × Mapping := match hostsOverride dnsConfig with
    | some hosts => (config.insert (.string "hosts") (.mapping hosts),
        [(.string "hosts", .mapping hosts)])
    | none => (config, [])
  match dnsOverride dnsConfig with
  | none => (config, applied)
  | some settings =>
    let applied := if settings = [] then applied
      else applied.insert (.string "dns") (.mapping settings)
    let dns := ensureFakeIpRange6 (extend (takeMapping config "dns") settings)
    (config.insert (.string "dns") (.mapping dns), applied)

/-- `dnsConfig` is what the DNS file holds, when it can be read. -/
def applyDnsSettings (config : Mapping) (enabled : Bool) (dnsConfig : Option Mapping) :
    Mapping × Mapping :=
  match enabled, dnsConfig with
  | true, some dnsConfig => mergeDnsConfig config dnsConfig
  | _, _ => (config, [])

def providerDnsFields : List String :=
  ["proxy-server-nameserver", "proxy-server-nameserver-policy", "nameserver-policy"]

def isNonempty : Value → Bool
  | .sequence values => !values.isEmpty
  | .mapping values => !values.isEmpty
  | .string text => !isBlank text
  | _ => false

/-- The DNS servers of the provider, digested; `digest` fails where they cannot be serialised. -/
def dnsOverrideSource (digest : String → Mapping → Except String String) (profileUid : String)
    (config : Mapping) : Except String (Option String) :=
  match fieldMapping config "dns" with
  | none => .ok none
  | some dns =>
    let fields := providerDnsFields.filterMap fun key =>
      (dns.get key).bind fun value => if isNonempty value then some (.string key, value) else none
    if fields.isEmpty then .ok none else (digest profileUid fields).map some

structure ProfileDnsSettings where
  enabled : Bool
  confirmation : Option String

/-- `DnsOverrideState::enabled`. -/
def ProfileDnsSettings.overrides (settings : ProfileDnsSettings) (source : Option String) : Bool :=
  settings.enabled && (source.isNone || source == settings.confirmation)

mutual

/-- Mappings are merged entry by entry; anything else is replaced. -/
def deepMerge : Value → Value → Value
  | .mapping into, .mapping entries => .mapping (deepMergeEntries into entries)
  | _, value => value

def deepMergeEntries (into : Mapping) : List (Value × Value) → Mapping
  | [] => into
  | (key, value) :: rest =>
    match get into key with
    | some existing => deepMergeEntries (into.insert key (deepMerge existing value)) rest
    | none => deepMergeEntries (into.insert key value) rest

end

/-- The body of the loop of `use_merge`: `dns` is extended, `hosts` replaced, anything else merged
deeply. -/
def mergeOverride (config : Mapping) (key value : Value) : Mapping :=
  match get config key, value with
  | some (.mapping existing), .mapping overlay =>
    if key = .string "dns" then config.insert key (.mapping (extend existing overlay))
    else if key = .string "hosts" then config.insert key (.mapping overlay)
    else config.insert key (deepMerge (.mapping existing) (.mapping overlay))
  | some existing, value =>
    if key = .string "hosts" then config.insert key value
    else config.insert key (deepMerge existing value)
  | none, value => config.insert key value

def useMerge (merge config : Mapping) : Mapping :=
  (useLowercase merge).foldl (fun config entry => mergeOverride config entry.1 entry.2) config

/-- The template that a new script starts from. -/
def itemScript : String :=
  "// Define main function (script entry)\n\nfunction main(config, profileName) \x7b\n" ++
  "  return config;\n\x7d\n"

/-- A profile without merges, scripts and edits of its own: each has its template. -/
def ProfileItems.plain (config : Mapping) (distinct : Distinct config) :
    ProfileItems where
  config := config
  distinct := distinct
  mergeItem := .merge []
  scriptItem := .script itemScript
  rulesItem := .rules .empty
  proxiesItem := .proxies .empty
  groupsItem := .groups .empty
  globalMerge := .merge []
  globalScript := .script itemScript
  profileName := ""

/-- Where scripts run. A script that fails, takes too long or is given too much has no result. -/
structure ScriptEngine where
  eval : String → Mapping → String → Option Mapping
  distinct : ∀ script config name result, eval script config name = some result →
    Distinct result

/-- The template is not run, only its lowercasing done. A script without a result changes
nothing. -/
def useScript (engine : ScriptEngine) (script : String) (config : Mapping) (name : String) :
    Mapping :=
  if script = itemScript then useLowercase config
  else (engine.eval script (useLowercase config) name).getD config

def useMergeItem (item : ChainType) (config : Mapping) : Mapping :=
  match item with
  | .merge merge => useMerge merge config
  | _ => config

def useScriptItem (engine : ScriptEngine) (name : String) (item : ChainType) (config : Mapping) :
    Mapping :=
  match item with
  | .script script => useScript engine script config name
  | _ => config

/-- `process_global_items` and `process_profile_items`. -/
def processItems (engine : ScriptEngine) (name : String) (config : Mapping)
    (mergeItem scriptItem : ChainType) : Mapping :=
  useScriptItem engine name scriptItem (useMergeItem mergeItem config)

/-- Everything up to the capture of the app-owned fields. -/
def prepare (os : Os) (values : ConfigValues) (dnsConfig : Option Mapping) (items : ProfileItems)
    (overridesDns : Bool) : Mapping × Mapping :=
  let config := processSeqItems items.config items
  let config := mergeDefaultConfig os values config
  let config := applyBuiltinScripts values config
  let config := useTun config values.enableTun
  applyDnsSettings config overridesDns dnsConfig

def override (engine : ScriptEngine) (items : ProfileItems) (config : Mapping) : Mapping :=
  let config := processItems engine items.profileName config items.globalMerge items.globalScript
  processItems engine items.profileName config items.mergeItem items.scriptItem

/-- `enhance`, from what it has collected to the configuration it generates. -/
def enhance (os : Os) (engine : ScriptEngine) (digest : String → Mapping → Except String String)
    (values : ConfigValues) (dnsConfig : Option Mapping) (profileUid : String)
    (settings : ProfileDnsSettings) (items : ProfileItems) : Except String Mapping := do
  let source ← dnsOverrideSource digest profileUid items.config
  let (config, applied) := prepare os values dnsConfig items (settings.overrides source)
  let fields := AuthoritativeFields.capture os config (guiTunKeys os values.clashConfig) applied
  .ok (finish (fields.enforce os (override engine items config)))

/-! Every stage keeps the keys of a configuration distinct. -/

variable {config : Mapping}

theorem useSeq_distinct (seq : SeqMap) (distinct : Distinct config)
    (field : String) : Distinct (useSeq seq config field) := by
  have edited : ∀ items, Distinct ((config.remove field).insert (.string field) items) :=
    fun items => distinct_insert (distinct_remove distinct _) _ _
  simp only [useSeq]
  split
  · exact edited _
  · split
    · exact edited _
    · exact distinct_insert (distinct_remove (edited _) _) _ _
    · exact distinct_insert (distinct_remove (edited _) _) _ _

theorem useSeqItem_distinct (seq : Option SeqMap) (distinct : Distinct config) (field : String) :
    Distinct (useSeqItem seq config field) := by
  cases seq with
  | none => exact distinct
  | some seq => exact useSeq_distinct seq distinct field

theorem processSeqItems_distinct (items : ProfileItems) :
    Distinct (processSeqItems items.config items) :=
  useSeqItem_distinct _ (useSeqItem_distinct _ (useSeqItem_distinct _ items.distinct _) _) _

theorem mergeEntry_distinct (os : Os) (values : ConfigValues)
    (distinct : Distinct config) (entry value : Value) :
    Distinct (mergeEntry os values config entry value) := by
  unfold mergeEntry
  split_ifs <;> first
    | exact distinct
    | exact distinct_insert distinct _ _
    | exact distinct_remove distinct _

theorem mergeDefaultConfig_distinct (os : Os) (values : ConfigValues) (distinct : Distinct config) :
    Distinct (mergeDefaultConfig os values config) := by
  rw [mergeDefaultConfig]
  generalize values.clashConfig = entries
  induction entries generalizing config with
  | nil => exact distinct
  | cons entry rest ih =>
    exact ih (mergeEntry_distinct os values distinct entry.1 entry.2)

theorem builtin_distinct (script : BuiltinScript)
    (distinct : Distinct config) : Distinct (script.apply config) := by
  cases script with
  | hyAlpn =>
    simp only [BuiltinScript.apply, builtinHyAlpn]
    split
    · exact distinct_insert distinct _ _
    · exact distinct
  | metaGuard =>
    simp only [BuiltinScript.apply, builtinMetaGuard]
    split
    · exact distinct_insert distinct _ _
    · exact distinct

theorem applyBuiltinScripts_distinct (values : ConfigValues) (distinct : Distinct config) :
    Distinct (applyBuiltinScripts values config) := by
  have all : ∀ (scripts : List BuiltinScript) {config : Mapping}, Distinct config →
      Distinct (scripts.foldl BuiltinScript.apply config) := by
    intro scripts
    induction scripts with
    | nil => exact fun distinct => distinct
    | cons script rest ih =>
      exact fun distinct => ih (builtin_distinct script distinct)
  unfold applyBuiltinScripts
  split
  · exact all _ (distinct_useLowercase _)
  · exact distinct

theorem useTun_distinct (distinct : Distinct config)
    (enable : Bool) : Distinct (useTun config enable) := by
  unfold useTun
  cases enable with
  | true => exact distinct_insert (distinct_insert distinct _ _) _ _
  | false => exact distinct_insert distinct _ _

theorem applyDnsSettings_distinct (distinct : Distinct config)
    (enabled : Bool) (dnsConfig : Option Mapping) :
    Distinct (applyDnsSettings config enabled dnsConfig).1 := by
  unfold applyDnsSettings
  split
  · rename_i dnsConfig
    simp only [mergeDnsConfig]
    cases hostsOverride dnsConfig with
    | none =>
      cases dnsOverride dnsConfig with
      | none => exact distinct
      | some settings => exact distinct_insert distinct _ _
    | some hosts =>
      cases dnsOverride dnsConfig with
      | none => exact distinct_insert distinct _ _
      | some settings =>
        exact distinct_insert (distinct_insert distinct _ _) _ _
  · exact distinct

theorem mergeOverride_distinct (distinct : Distinct config)
    (key value : Value) : Distinct (mergeOverride config key value) := by
  unfold mergeOverride
  split
  · split_ifs <;> exact distinct_insert distinct _ _
  · split_ifs <;> exact distinct_insert distinct _ _
  · exact distinct_insert distinct _ _

theorem useMergeItem_distinct (item : ChainType)
    (distinct : Distinct config) : Distinct (useMergeItem item config) := by
  cases item with
  | merge merge =>
    simp only [useMergeItem, useMerge]
    generalize useLowercase merge = entries
    induction entries generalizing config with
    | nil => exact distinct
    | cons entry rest ih =>
      exact ih (mergeOverride_distinct distinct entry.1 entry.2)
  | _ => exact distinct

theorem useScriptItem_distinct (engine : ScriptEngine) (name : String) (item : ChainType)
    (distinct : Distinct config) :
    Distinct (useScriptItem engine name item config) := by
  cases item with
  | script script =>
    simp only [useScriptItem, useScript]
    split
    · exact distinct_useLowercase _
    · cases ran : engine.eval script (useLowercase config) name with
      | none => exact distinct
      | some result => exact engine.distinct _ _ _ _ ran
  | _ => exact distinct

theorem processItems_distinct (engine : ScriptEngine) (name : String)
    (distinct : Distinct config) (mergeItem scriptItem : ChainType) :
    Distinct (processItems engine name config mergeItem scriptItem) :=
  useScriptItem_distinct engine name scriptItem (useMergeItem_distinct mergeItem distinct)

theorem override_distinct (engine : ScriptEngine) (items : ProfileItems)
    (distinct : Distinct config) : Distinct (override engine items config) :=
  processItems_distinct engine items.profileName (processItems_distinct engine items.profileName
    distinct items.globalMerge items.globalScript) items.mergeItem items.scriptItem

theorem prepare_distinct (os : Os) (values : ConfigValues) (dnsConfig : Option Mapping)
    (items : ProfileItems) (overridesDns : Bool) :
    Distinct (prepare os values dnsConfig items overridesDns).1 :=
  applyDnsSettings_distinct (useTun_distinct (applyBuiltinScripts_distinct values
    (mergeDefaultConfig_distinct os values (processSeqItems_distinct items))) _) _ _

end ClashVerge.Enhance
