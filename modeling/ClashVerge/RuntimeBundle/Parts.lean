import ClashVerge.RuntimeBundle.Providers

/-!
# Collecting the runtime bundle

The runtime bundle copies the files of local providers and the geo files that there are, and records
the providers that the core downloads. One pass over the two sections rewrites their paths and
gathers both kinds; a set of destinations is to keep them apart.

What a provider asks for depends on it alone (`demand`), and what it gets on those before it
(`Gathered.meet`). A local provider at a destination that is taken is passed by in silence, while a
downloaded one at a destination that is copied is refused, so the order decides.
-/

namespace ClashVerge.RuntimeBundle

open Enhance (modifyMapping)
open Service.ProviderSync (Section RemoteProviderRef)
open UnixPath (Text push)
open Yaml

structure RuntimeAsset where
  source : String
  destination : String
deriving DecidableEq

structure RuntimeParts where
  config : Value
  assets : List RuntimeAsset
  remoteProviders : List RemoteProviderRef

structure Gathered where
  destinations : List String
  assets : List RuntimeAsset
  remoteProviders : List RemoteProviderRef

namespace Gathered

def empty : Gathered := ⟨[], [], []⟩

/-- A provider that the core downloads. -/
def declareRemote (section_ : Section) (name : Value) (destination url : String)
    (gathered : Gathered) : Except Refusal Gathered :=
  match gathered.remoteProviders.find? (·.destination = destination) with
  | some declared =>
    if declared.url = url then .ok gathered else .error (.differentSources destination)
  | none =>
    if destination ∈ gathered.destinations then .error (.claimedTwice destination)
    else
      .ok { gathered with
        destinations := destination :: gathered.destinations
        remoteProviders := gathered.remoteProviders ++
          [⟨section_, name.asStr.getD "", destination, url⟩] }

/-- A file that is copied, if its destination is free. -/
def copy (source : Text) (destination : String) (gathered : Gathered) : Gathered :=
  if destination ∈ gathered.destinations then gathered
  else
    { gathered with
      destinations := destination :: gathered.destinations
      assets := gathered.assets ++ [⟨String.ofList source, destination⟩] }

end Gathered

namespace Filesystem

variable (files : Filesystem) (configRoot : Text)

/-- The body of the loop in `collect_provider_assets`. -/
def collectProvider (section_ : Section) (name provider : Value) (gathered : Gathered) :
    Except Refusal (Value × Gathered) :=
  match field provider "path" with
  | none => .ok (provider, gathered)
  | some rawPath =>
    match isRemote provider, field provider "url" with
    | true, some url =>
      match files.providerDestination configRoot rawPath.toList with
      | .error refusal => .error refusal
      | .ok destination =>
        match gathered.declareRemote section_ name destination url with
        | .error refusal => .error refusal
        | .ok gathered => .ok (setPath provider destination, gathered)
    | true, none => .ok (provider, gathered)
    | false, _ =>
      match files.localProviderSource configRoot rawPath.toList with
      | .error _ => .ok (provider, gathered)
      | .ok source =>
        match destinationBelowRoot configRoot source with
        | .error refusal => .error refusal
        | .ok destination =>
          .ok (setPath provider destination, gathered.copy source destination)

def collectProviders (section_ : Section) : Mapping → Gathered → Except Refusal (Mapping × Gathered)
  | [], gathered => .ok ([], gathered)
  | (name, provider) :: rest, gathered =>
    match files.collectProvider configRoot section_ name provider gathered with
    | .error refusal => .error refusal
    | .ok (provider, gathered) =>
      match collectProviders section_ rest gathered with
      | .error refusal => .error refusal
      | .ok (rest, gathered) => .ok ((name, provider) :: rest, gathered)

def collectProviderAssets (config : Value) (section_ : Section) (gathered : Gathered) :
    Except Refusal (Value × Gathered) :=
  match config.asMapping.bind (providersIn · section_) with
  | none => .ok (config, gathered)
  | some providers =>
    match files.collectProviders configRoot section_ providers gathered with
    | .error refusal => .error refusal
    | .ok (providers, gathered) =>
      .ok (modifyMapping (setProviders · section_ providers) config, gathered)

def collectGeoAssets : List String → Gathered → Except Refusal Gathered
  | [], gathered => .ok gathered
  | filename :: rest, gathered =>
    let source := push configRoot filename.toList
    if files.isFile source = true ∧ filename ∉ gathered.destinations then
      match files.canonicalize source with
      | .error message => .error (.io message)
      | .ok canonical => collectGeoAssets rest (gathered.copy canonical filename)
    else collectGeoAssets rest gathered

def collectBelow (config : Value) : Except Refusal RuntimeParts :=
  match files.collectProviderAssets configRoot config .proxyProviders .empty with
  | .error refusal => .error refusal
  | .ok (config, gathered) =>
    match files.collectProviderAssets configRoot config .ruleProviders gathered with
    | .error refusal => .error refusal
    | .ok (config, gathered) =>
      match files.collectGeoAssets configRoot geoAssets gathered with
      | .error refusal => .error refusal
      | .ok gathered => .ok ⟨config, gathered.assets, gathered.remoteProviders⟩

def collectRuntimeParts (config : Value) : Except Refusal RuntimeParts :=
  match files.canonicalize configRoot with
  | .error message => .error (.io message)
  | .ok configRoot => files.collectBelow configRoot config

end Filesystem

/-- What a provider asks for. -/
inductive Demand where
  | untouched
  | refused (refusal : Refusal)
  | remote (destination url : String)
  | copied (source : Text) (destination : String)
deriving DecidableEq

namespace Demand

def destination : Demand → Option String
  | remote destination _ => some destination
  | copied _ destination => some destination
  | _ => none

def rewrite (demand : Demand) (provider : Value) : Value :=
  match demand.destination with
  | some destination => setPath provider destination
  | none => provider

def isRemote : Demand → Bool
  | remote _ _ => true
  | _ => false

end Demand

namespace Filesystem

variable (files : Filesystem) (configRoot : Text)

def availableSource (provider : Value) : Option Text :=
  if isRemote provider then none
  else (field provider "path").bind fun rawPath =>
    (files.localProviderSource configRoot rawPath.toList).toOption

def demand (provider : Value) : Demand :=
  match field provider "path" with
  | none => .untouched
  | some rawPath =>
    match isRemote provider, field provider "url" with
    | true, some url =>
      match files.providerDestination configRoot rawPath.toList with
      | .error refusal => .refused refusal
      | .ok destination => .remote destination url
    | true, none => .untouched
    | false, _ =>
      match files.localProviderSource configRoot rawPath.toList with
      | .error _ => .untouched
      | .ok source =>
        match destinationBelowRoot configRoot source with
        | .error refusal => .refused refusal
        | .ok destination => .copied source destination

end Filesystem

namespace Gathered

def meet (section_ : Section) (name : Value) (demand : Demand) (gathered : Gathered) :
    Except Refusal Gathered :=
  match demand with
  | .untouched => .ok gathered
  | .refused refusal => .error refusal
  | .remote destination url => gathered.declareRemote section_ name destination url
  | .copied source destination => .ok (gathered.copy source destination)

end Gathered

namespace Filesystem

variable (files : Filesystem) (configRoot : Text)

theorem collectProvider_eq (section_ : Section) (name provider : Value) (gathered : Gathered) :
    files.collectProvider configRoot section_ name provider gathered =
      (gathered.meet section_ name (files.demand configRoot provider)).map
        fun gathered => ((files.demand configRoot provider).rewrite provider, gathered) := by
  unfold collectProvider demand
  cases field provider "path" with
  | none => rfl
  | some rawPath =>
    cases isRemote provider with
    | true =>
      cases field provider "url" with
      | none => rfl
      | some url =>
        dsimp only
        cases files.providerDestination configRoot rawPath.toList with
        | error refusal => rfl
        | ok destination =>
          simp only [Gathered.meet]
          cases gathered.declareRemote section_ name destination url <;> rfl
    | false =>
      dsimp only
      cases files.localProviderSource configRoot rawPath.toList with
      | error refusal => rfl
      | ok source =>
        dsimp only
        cases destinationBelowRoot configRoot source <;> rfl

end Filesystem

end ClashVerge.RuntimeBundle
