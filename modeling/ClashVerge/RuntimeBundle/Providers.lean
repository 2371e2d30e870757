import ClashVerge.Enhance.Final
import ClashVerge.RuntimeBundle.Destination
import ClashVerge.Service.ProviderSync

/-!
# The providers of a config

A config declares its providers in two sections, by name. A provider is read through the texts of
its fields and changed in its path alone, below whatever tags there are.
-/

namespace ClashVerge

namespace Service.ProviderSync.Section

def key : Section → String
  | .proxyProviders => "proxy-providers"
  | .ruleProviders => "rule-providers"

theorem key_injective : Function.Injective key := by
  intro first second same
  cases first <;> cases second <;> first | rfl | exact absurd same (by decide)

end Service.ProviderSync.Section

namespace RuntimeBundle

open Enhance (asMapping_modifyMapping modifyMapping)
open Service.ProviderSync (Section)
open Yaml

def geoAssets : List String :=
  ["Country.mmdb", "ASN.mmdb", "geoip.dat", "geosite.dat", "geoip.metadb", "GeoSite.dat"]

def sections : List Section := [.proxyProviders, .ruleProviders]

/-- `provider.get(key).and_then(Value::as_str)`. -/
def field (provider : Value) (key : String) : Option String :=
  (provider.asMapping.bind (·.get key)).bind Value.asStr

def isRemote (provider : Value) : Bool := field provider "type" = some "http"

def setPath (provider : Value) (path : String) : Value :=
  modifyMapping (·.insert (.string "path") (.string path)) provider

def providersIn (config : Mapping) (section_ : Section) : Option Mapping :=
  (config.get section_.key).bind Value.asMapping

def setProviders (config : Mapping) (section_ : Section) (providers : Mapping) : Mapping :=
  match config.get section_.key with
  | some value => config.insert (.string section_.key) (modifyMapping (fun _ => providers) value)
  | none => config

section Fields

variable {provider : Value} {path : String}

theorem asMapping_of_field {key text : String} (reads : field provider key = some text) :
    ∃ map, provider.asMapping = some map := by
  unfold field at reads
  cases is_ : provider.asMapping with
  | none => simp [is_] at reads
  | some map => exact ⟨map, rfl⟩

theorem field_setPath {old : String} (reads : field provider "path" = some old) (path : String) :
    field (setPath provider path) "path" = some path := by
  obtain ⟨map, is_⟩ := asMapping_of_field reads
  simp [field, setPath, is_, Mapping.get, Mapping.insert]

theorem field_setPath_other {key : String} (other : key ≠ "path") :
    field (setPath provider path) key = field provider key := by
  have different : Value.string key ≠ .string "path" := by simpa using other
  cases is_ : provider.asMapping with
  | none => simp [field, setPath, is_]
  | some map =>
    simp [field, setPath, is_, Mapping.get, Mapping.insert,
      OrderedMap.get_insert_other _ _ different]

theorem isRemote_setPath : isRemote (setPath provider path) = isRemote provider := by
  rw [isRemote, isRemote, field_setPath_other (by decide)]

end Fields

section Sections

variable {config : Mapping} {section_ : Section} {providers : Mapping}

theorem providersIn_setProviders {old : Mapping} (reads : providersIn config section_ = some old)
    (providers : Mapping) :
    providersIn (setProviders config section_ providers) section_ = some providers := by
  unfold providersIn at reads
  obtain ⟨value, found, is_⟩ := Option.bind_eq_some_iff.mp reads
  rw [providersIn, setProviders, found]
  simp [Mapping.get, Mapping.insert, is_]

theorem providersIn_setProviders_other {other : Section} (different : other ≠ section_) :
    providersIn (setProviders config section_ providers) other = providersIn config other := by
  have keys : Value.string other.key ≠ .string section_.key := by
    simpa using fun same => different (Section.key_injective same)
  unfold providersIn setProviders
  split
  · rw [Mapping.get, Mapping.insert, OrderedMap.get_insert_other _ _ keys]
    rfl
  · rfl

end Sections

end RuntimeBundle

end ClashVerge
