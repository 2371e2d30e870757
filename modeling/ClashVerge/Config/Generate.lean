import ClashVerge.AppProxy.Listeners
import ClashVerge.Enhance.Ports
import ClashVerge.RuntimeBundle.Conflicts

/-!
# Generating the runtime configuration

`generate` enhances the current profile with the application's two configurations, keeps the caches
of its providers apart, drops the proxies that its tunnels only name, puts in the port that the
startup has borrowed, and merges the managed listeners in. After `enhance` only the borrowed port
touches a key of the control plane. What is read besides the layers is gathered in `Generation`.
-/

namespace ClashVerge.Config

open AppProxy (ManagedListenerSpec mapSequence without)
open Enhance
open RuntimeBundle (Filesystem Refusal)
open Verge Yaml

/-- `IClashTemp`. Its keys are distinct, as those of any mapping of the source are. -/
structure IClashTemp where
  config : Mapping
  distinct : OrderedMap.Distinct config

def IClashTemp.insert (clash : IClashTemp) (key : String) (value : Value) : IClashTemp where
  config := clash.config.insert (.string key) value
  distinct := OrderedMap.distinct_insert clash.distinct _ _

/-- An `anyhow::Error`: a text, a text before its cause, the refusal of a provider path, or two
failures that `rollback_failure` combines. -/
inductive Failure where
  | message (text : String)
  | context (text : String) (cause : Failure)
  | provider (refusal : Refusal)
  | rollback (causedBy rollback : Failure)
deriving DecidableEq

structure Generation where
  engine : ScriptEngine
  digest : String → Mapping → Except String String
  profileUid : String
  /-- `collect_profile_items`. -/
  items : Except String ProfileItems
  /-- `dns_settings_for` of a record. -/
  dnsSettingsFor : IVerge → String → ProfileDnsSettings
  /-- The content of the DNS file, when it can be read. -/
  dnsConfig : Option Mapping
  files : Filesystem
  sha256 : List UInt8 → List UInt8
  appHome : UnixPath.Text
  desiredListeners : Option (List ManagedListenerSpec)

def getConfigValues (clash : IClashTemp) (verge : IVerge) : ConfigValues where
  clashConfig := clash.config
  distinct := clash.distinct
  clashCore := some verge.getValidClashCore
  enableTun := (verge .enableTunMode).getD false
  enableBuiltin := (verge .enableBuiltinEnhanced).getD true
  socksEnabled := (verge .vergeSocksEnabled).getD false
  httpEnabled := (verge .vergeHttpEnabled).getD false
  enableExternalController := (verge .enableExternalController).getD false
  redirEnabled := (verge .vergeRedirEnabled).getD false
  tproxyEnabled := (verge .vergeTproxyEnabled).getD false

def tunnelProxy (tunnel : Mapping) : Option String := (tunnel.get "proxy").bind Value.asStr

def tunnelsNeedValidation (tunnels : List Value) : Bool :=
  tunnels.any fun item =>
    (item.asMapping.bind tunnelProxy).any fun name => name ≠ "DIRECT" ∧ name ≠ "REJECT"

def collectNames (config : Mapping) (listKey : String) : List String :=
  match config.get listKey with
  | some (.sequence items) =>
    items.filterMap fun
      | .mapping map =>
        match Mapping.get map "name" with
        | some (.string name) => if name = "" then none else some name
        | _ => none
      | _ => none
  | _ => []

/-- The body of the loop over the tunnels. -/
def sanitizeTunnel (valid : List String) (tunnel : Mapping) : Mapping :=
  match tunnelProxy tunnel with
  | none => tunnel
  | some name =>
    if name = "DIRECT" ∨ name = "REJECT" then tunnel
    else if valid.contains name then tunnel
    else tunnel.remove "proxy"

def sanitizeTunnelsProxy (config : Mapping) : Mapping :=
  match config.get "tunnels" with
  | none => config
  | some tunnels =>
    if tunnels.asSequence.any tunnelsNeedValidation then
      let valid :=
        collectNames config "proxies" ++ collectNames config "proxy-groups" ++ ["DIRECT", "REJECT"]
      config.insert (.string "tunnels")
        (mapSequence (List.map (modifyMapping (sanitizeTunnel valid))) tunnels)
    else config

def mergeManagedListener (desired : Option (List ManagedListenerSpec)) (config : Mapping) : Mapping :=
  match desired with
  | none => config
  | some specs =>
    let listeners := (config.get "listeners").getD (.sequence [])
    config.insert (.string "listeners")
      (mapSequence (fun items => specs.foldl (fun items spec => without spec.name items ++ [spec.item])
        items) listeners)

def portValue (port : UInt16) : Value := .number (.integer port.toNat)

def insertFallback (fallback : Option UInt16) (config : Mapping) : Mapping :=
  match fallback with
  | some port => config.insert (.string "mixed-port") (portValue port)
  | none => config

namespace Generation

variable (generation : Generation) (os : Os)

def enhance (clash : IClashTemp) (verge : IVerge) : Except String Mapping :=
  match generation.items with
  | .error error => .error error
  | .ok items =>
    Enhance.enhance os generation.engine generation.digest (getConfigValues clash verge)
      generation.dnsConfig generation.profileUid
      (generation.dnsSettingsFor verge generation.profileUid) items

/-- `generate_with_profiles`, up to the configuration that it stages. -/
def generate (clash : IClashTemp) (verge : IVerge) (fallback : Option UInt16) :
    Except Failure Mapping :=
  match generation.enhance os clash verge with
  | .error error => .error (.message error)
  | .ok config =>
    match generation.files.resolveProviderPathConflicts generation.sha256 generation.appHome
        config with
    | .error refusal => .error (.provider refusal)
    | .ok config =>
      .ok (mergeManagedListener generation.desiredListeners
        (insertFallback fallback (sanitizeTunnelsProxy config)))

end Generation

section

variable {key : String} {config : Mapping}

theorem get_resolveGroups (sha256 : List UInt8 → List UInt8)
    (other : ∀ section_ : Service.ProviderSync.Section, key ≠ section_.key)
    (groups : List RuntimeBundle.Group) (reserved : List String) (config : Mapping) :
    (RuntimeBundle.resolveGroups sha256 groups reserved config).get key = config.get key := by
  have one : ∀ path config provider,
      (RuntimeBundle.setProviderPath path config provider).get key = config.get key := by
    intro path config provider
    unfold RuntimeBundle.setProviderPath
    split
    · rfl
    · split
      · rfl
      · unfold RuntimeBundle.setProviders
        split
        · exact get_insert_ne _ _ (other provider.1)
        · rfl
  have all : ∀ path (providers : List (Service.ProviderSync.Section × Value)) config,
      (providers.foldl (RuntimeBundle.setProviderPath path) config).get key = config.get key := by
    intro path providers
    induction providers with
    | nil => exact fun _ => rfl
    | cons provider rest ih =>
      intro config
      rw [List.foldl_cons, ih, one]
  induction groups generalizing reserved config with
  | nil => rfl
  | cons group rest ih =>
    rw [RuntimeBundle.resolveGroups, ih, all]

theorem get_sanitizeTunnelsProxy (other : key ≠ "tunnels") :
    (sanitizeTunnelsProxy config).get key = config.get key := by
  unfold sanitizeTunnelsProxy
  split
  · rfl
  · split
    · exact get_insert_ne _ _ other
    · rfl

theorem get_mergeManagedListener (desired : Option (List ManagedListenerSpec))
    (other : key ≠ "listeners") : (mergeManagedListener desired config).get key = config.get key := by
  cases desired with
  | none => rfl
  | some specs => exact get_insert_ne _ _ other

end

/-- Without a borrowed port, the generated configuration has a key of the app as it is merged in,
where no other key of the app's configuration or of the profile becomes it in lower case. -/
theorem Generation.generate_port {generation : Generation} {os : Os} {clash : IClashTemp}
    {verge : IVerge} {config : Mapping} {key : String} {value : Value}
    (generated : generation.generate os clash verge none = .ok config)
    (owned : key ∈ controlPlaneKeys os) (other : key ≠ "mode")
    (present : clash.config.get key = some value)
    (sole : (getConfigValues clash verge).RunsBuiltins → Sole key clash.config ∧
      ∀ items, generation.items = .ok items → Sole key items.config) :
    config.get key = mergedPort os (getConfigValues clash verge) key value := by
  have apart : ∀ field ∈ ["tunnels", "listeners", "proxy-providers", "rule-providers"],
      key ≠ field := by
    have outside : ∀ field ∈ ["tunnels", "listeners", "proxy-providers", "rule-providers"],
        field ∉ controlPlaneKeys os := by
      cases os <;> decide
    rintro field listed rfl
    exact outside key listed owned
  have sections : ∀ section_ : Service.ProviderSync.Section, key ≠ section_.key := by
    rintro (_ | _)
    · exact apart _ (by decide)
    · exact apart _ (by decide)
  unfold Generation.generate at generated
  cases enhanced : generation.enhance os clash verge with
  | error error => simp [enhanced] at generated
  | ok merged =>
    simp only [enhanced, RuntimeBundle.Filesystem.resolveProviderPathConflicts] at generated
    cases root : generation.files.canonicalize generation.appHome with
    | error message => simp [root] at generated
    | ok root' =>
      simp only [root, Except.ok.injEq] at generated
      subst generated
      rw [get_mergeManagedListener _ (apart _ (by decide)), insertFallback,
        get_sanitizeTunnelsProxy (apart _ (by decide)), RuntimeBundle.Filesystem.resolveBelow,
        get_resolveGroups _ sections]
      unfold Generation.enhance at enhanced
      cases collected : generation.items with
      | error error => simp [collected] at enhanced
      | ok items =>
        simp only [collected] at enhanced
        exact enhance_port enhanced owned other present fun runs =>
          ⟨(sole runs).2 items collected, (sole runs).1⟩

end ClashVerge.Config
