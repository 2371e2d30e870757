import ClashVerge.RuntimeBundle.Consistency
import ClashVerge.RuntimeBundle.Resolution

/-!
# Destinations inside the runtime

A destination is read off components: those of the raw path, or those of the file below the root.
Only separators of the platform part them, and the backslashes that become separators afterwards may
leave an empty piece, a dot or a double dot. So a bundle stays inside the runtime just if the names
among these components are proper when they are read at backslashes too.
-/

namespace ClashVerge.RuntimeBundle

open Service.ProviderSync (Section RemoteProviderRef)
open UnixPath (Text Component Clean Proper components isAbsolute stripPrefix)
open Yaml

/-- Every destination, and every path that has been rewritten, is clean. -/
structure Inside (config : Value) (parts : RuntimeParts) : Prop where
  assets : ∀ asset ∈ parts.assets, Clean asset.destination.toList
  remotes : ∀ declared ∈ parts.remoteProviders, Clean declared.destination.toList
  rewritten : ∀ section_, ∀ pair ∈ (providersOf config section_).zip
    (providersOf parts.config section_), pair.2 ≠ pair.1 →
      ∀ path, field pair.2.2 "path" = some path → Clean path.toList

namespace Filesystem

variable (files : Filesystem) (root : Text)

/-- The components below the root that a provider has, unless its path is left alone. -/
def usedComponents (provider : Value) : Option (List Component) :=
  (field provider "path").bind fun rawPath =>
    match isRemote provider, field provider "url" with
    | true, some _ =>
      if isAbsolute rawPath.toList then
        (files.canonicalizeWithMissingTail rawPath.toList).toOption.bind (stripPrefix root)
      else some (components rawPath.toList)
    | true, none => none
    | false, _ => (files.localProviderSource root rawPath.toList).toOption.bind (stripPrefix root)

variable {files root} {provider : Value}

theorem providerDestination_components {path : Text} {destination : String}
    (provides : files.providerDestination root path = .ok destination) :
    ∃ relative,
      (if isAbsolute path then
        (files.canonicalizeWithMissingTail path).toOption.bind (stripPrefix root)
      else some (components path)) = some relative ∧
      normalizedDestination relative = .ok destination := by
  unfold providerDestination at provides
  split at provides
  · contradiction
  · split at provides
    · rename_i absolute
      rw [if_pos absolute]
      split at provides
      · contradiction
      · rename_i normalized found
        obtain ⟨relative, below, isNormal⟩ := destinationBelowRoot_eq_ok.mp provides
        exact ⟨relative, by rw [found]; exact below, isNormal⟩
    · rename_i relative
      rw [if_neg relative]
      exact ⟨_, rfl, provides⟩

theorem demand_destination {destination : String}
    (asks : (files.demand root provider).destination = some destination) :
    ∃ relative, files.usedComponents root provider = some relative ∧
      normalizedDestination relative = .ok destination := by
  unfold demand at asks
  unfold usedComponents
  cases reads : field provider "path" with
  | none =>
    rw [reads] at asks
    contradiction
  | some rawPath =>
    rw [Option.bind_some]
    cases remote : isRemote provider with
    | true =>
      cases declares : field provider "url" with
      | none =>
        rw [reads, remote, declares] at asks
        contradiction
      | some url =>
        cases provides : files.providerDestination root rawPath.toList with
        | error refusal =>
          simp only [reads, remote, declares, provides] at asks
          contradiction
        | ok own =>
          simp only [reads, remote, declares, provides] at asks
          cases asks
          exact providerDestination_components provides
    | false =>
      cases found : files.localProviderSource root rawPath.toList with
      | error refusal =>
        simp only [reads, remote, found] at asks
        contradiction
      | ok source =>
        cases below : destinationBelowRoot root source with
        | error refusal =>
          simp only [reads, remote, found, below] at asks
          contradiction
        | ok own =>
          simp only [reads, remote, found, below] at asks
          cases asks
          exact destinationBelowRoot_eq_ok.mp below

theorem demand_of_usedComponents {relative : List Component}
    (used : files.usedComponents root provider = some relative) :
    (∃ refusal, files.demand root provider = .refused refusal) ∨
      ∃ destination, (files.demand root provider).destination = some destination := by
  unfold usedComponents at used
  obtain ⟨rawPath, reads, used⟩ := Option.bind_eq_some_iff.mp used
  unfold demand
  cases remote : isRemote provider with
  | true =>
    cases declares : field provider "url" with
    | none =>
      rw [remote, declares] at used
      contradiction
    | some url =>
      simp only [reads]
      cases files.providerDestination root rawPath.toList with
      | error refusal => exact .inl ⟨refusal, rfl⟩
      | ok destination => exact .inr ⟨destination, rfl⟩
  | false =>
    simp only [remote] at used
    obtain ⟨source, found, -⟩ := Option.bind_eq_some_iff.mp used
    cases local_ : files.localProviderSource root rawPath.toList with
    | error refusal =>
      rw [local_] at found
      contradiction
    | ok own =>
      simp only [reads, local_]
      cases destinationBelowRoot root own with
      | error refusal => exact .inl ⟨refusal, rfl⟩
      | ok destination => exact .inr ⟨destination, rfl⟩

section Parts

variable {config : Value} {parts : RuntimeParts}

theorem Collected.listed (collected : files.Collected root config parts) {demand : Demand}
    (asked : demand ∈ files.allDemands root config) {destination : String}
    (is_ : demand.destination = some destination) :
    (∃ asset ∈ parts.assets, asset.destination = destination) ∨
      ∃ declared ∈ parts.remoteProviders, declared.destination = destination := by
  obtain ⟨first, owns⟩ := owner_isSome ⟨demand, asked, is_⟩
  have here : first.destination = some destination := by simpa using List.find?_some owns
  have inside := List.mem_of_find?_eq_some owns
  cases first with
  | untouched => contradiction
  | refused refusal => contradiction
  | remote own url =>
    obtain rfl := Option.some.inj here
    obtain ⟨declared, member, same, -⟩ := (collected.remotes _ _).mp inside
    exact .inr ⟨declared, member, same⟩
  | copied source own =>
    obtain rfl := Option.some.inj here
    exact .inl ⟨_, collected.assets source own owns, rfl⟩

theorem Collected.destinations_inside (collected : files.Collected root config parts) :
    Inside config parts ↔ ∀ demand ∈ files.allDemands root config, ∀ destination,
      demand.destination = some destination → Clean destination.toList := by
  constructor
  · intro inside demand asked destination is_
    obtain ⟨asset, member, rfl⟩ | ⟨declared, member, rfl⟩ := collected.listed asked is_
    · exact inside.assets asset member
    · exact inside.remotes declared member
  · intro clean
    refine ⟨fun asset member => ?_, fun declared member => ?_, fun section_ pair member changed path
      reads => ?_⟩
    · obtain owns | ⟨-, geo⟩ := collected.free asset member
      · exact clean _ (List.mem_of_find?_eq_some owns) _ rfl
      · have all : ∀ filename ∈ geoAssets, Clean filename.toList := by decide
        exact all _ geo
    · exact clean _ ((collected.remotes _ _).mpr ⟨declared, member, rfl, rfl⟩) _ rfl
    · rw [collected.rewritten, ← List.map_prod_left_eq_zip] at member
      obtain ⟨entry, inside, rfl⟩ := List.mem_map.mp member
      have asked : files.demand root entry.2 ∈ files.allDemands root config :=
        Filesystem.mem_allDemands.mpr ⟨section_, List.mem_map_of_mem inside⟩
      cases is_ : (files.demand root entry.2).destination with
      | none =>
        refine absurd ?_ changed
        rw [rewriteEntry, Demand.rewrite, is_]
      | some destination =>
        have written : field (files.rewriteEntry root entry).2 "path" = some destination :=
          field_rewrite is_
        rw [written] at reads
        cases reads
        exact clean _ asked _ is_

/-- The names of all components that are used are proper, read at backslashes too. -/
def ProperPaths (files : Filesystem) (root : Text) (config : Value) : Prop :=
  ∀ section_, ∀ entry ∈ providersOf config section_, ∀ relative,
    files.usedComponents root entry.2 = some relative → ProperNames relative

theorem Collected.inside_iff_properPaths (collected : files.Collected root config parts) :
    Inside config parts ↔ files.ProperPaths root config := by
  rw [collected.destinations_inside]
  constructor
  · intro clean section_ entry member relative used
    have asked : files.demand root entry.2 ∈ files.allDemands root config :=
      Filesystem.mem_allDemands.mpr ⟨section_, List.mem_map_of_mem member⟩
    obtain ⟨refusal, is_⟩ | ⟨destination, is_⟩ := demand_of_usedComponents used
    · rw [is_] at asked
      exact absurd asked (collected.fit.not_refused refusal)
    · obtain ⟨own, usedOwn, normalized⟩ := demand_destination is_
      rw [used] at usedOwn
      cases usedOwn
      exact (clean_destination_iff normalized).mp (clean _ asked _ is_)
  · intro proper demand asked destination is_
    obtain ⟨section_, listed⟩ := Filesystem.mem_allDemands.mp asked
    obtain ⟨entry, member, rfl⟩ := List.mem_map.mp listed
    obtain ⟨relative, used, normalized⟩ := demand_destination is_
    exact (clean_destination_iff normalized).mpr (proper section_ entry member relative used)

end Parts

theorem newPaths_clean_iff {sha256 : List UInt8 → List UInt8} {config : Mapping} :
    (∀ claim ∈ files.pathClaims root config, ∀ path,
        newPath (files.allocation root sha256 config) claim = some path → Clean path.toList) ↔
      ∀ destination, Contested (files.pathClaims root config) destination →
        CleanDirectory destination := by
  have own : ∀ claim ∈ files.pathClaims root config, ∀ url path,
      files.allocation root sha256 config claim.destination url = some path →
        (Clean path.toList ↔ CleanDirectory claim.destination) := by
    intro claim member url path gives
    obtain ⟨relative, normalized⟩ := claim_normalized member
    obtain ⟨-, sequence, isCandidate⟩ := mem_allocations (allocation_mem gives)
    rw [isCandidate]
    exact clean_candidate_iff (destination_ne_nil normalized) (destination_plain normalized)
  constructor
  · intro clean destination contested
    obtain ⟨first, member, -, -, here, -⟩ := contested.differ
    obtain ⟨url, declares⟩ := Option.ne_none_iff_exists'.mp (contested.remote first member here)
    have given : (files.allocation root sha256 config destination url).isSome = true :=
      (allocation_isSome _ _).mpr ⟨contested, first, member, here, declares⟩
    obtain ⟨path, gives⟩ := Option.isSome_iff_exists.mp given
    have new : newPath (files.allocation root sha256 config) first = some path := by
      rw [newPath, declares, Option.bind_some, here, gives]
    rw [← here] at gives ⊢
    exact (own first member url path gives).mp (clean first member path new)
  · intro clean claim member path new
    obtain ⟨url, -, gives⟩ := Option.bind_eq_some_iff.mp new
    have contested := ((allocation_isSome _ _).mp (Option.isSome_of_eq_some gives)).1
    exact (own claim member url path gives).mpr (clean _ contested)

/-- A bundle is inside the runtime, and so are the paths that resolving gives out, just if the names
of the paths are proper at backslashes and the contested destinations have clean directories. -/
theorem inside_iff (files : Filesystem) (sha256 : List UInt8 → List UInt8) (configRoot root : Text)
    (canonical : files.canonicalize configRoot = .ok root) (config : Value) (parts : RuntimeParts)
    (collected : files.collectRuntimeParts configRoot config = .ok parts)
    (given resolved : Mapping) (wellFormed : given.WellFormed)
    (resolves : files.resolveProviderPathConflicts sha256 configRoot given = .ok resolved) :
    (Inside config parts ↔ files.ProperPaths root config) ∧
      resolved = files.relocate root (files.allocation root sha256 given) given ∧
      ((∀ claim ∈ files.pathClaims root given, ∀ path,
          newPath (files.allocation root sha256 given) claim = some path → Clean path.toList) ↔
        ∀ destination, Contested (files.pathClaims root given) destination →
          CleanDirectory destination) := by
  rw [collectRuntimeParts, canonical] at collected
  rw [resolveProviderPathConflicts, canonical] at resolves
  refine ⟨(collectBelow_ok collected).inside_iff_properPaths, ?_, newPaths_clean_iff⟩
  rw [← resolveBelow_eq (distinctNames_of_wellFormed wellFormed)]
  exact (Except.ok.inj resolves).symm

theorem inside_iff_plain : (Inside (contested download localFile) ⟨contested download localFile, [],
        [⟨.proxyProviders, "download", "p.yaml", "https://one.example/p.yaml"⟩]⟩ ↔
      plainFiles.ProperPaths "/verge".toList (contested download localFile)) ∧
      plainFiles.resolveBelow sharedDigest "/verge".toList sharedConfig =
        plainFiles.relocate "/verge".toList
          (plainFiles.allocation "/verge".toList sharedDigest sharedConfig) sharedConfig ∧
      ((∀ claim ∈ plainFiles.pathClaims "/verge".toList sharedConfig, ∀ path,
          newPath (plainFiles.allocation "/verge".toList sharedDigest sharedConfig) claim =
            some path → Clean path.toList) ↔
        ∀ destination,
          Contested (plainFiles.pathClaims "/verge".toList sharedConfig) destination →
            CleanDirectory destination) :=
  inside_iff plainFiles sharedDigest "/verge".toList "/verge".toList rfl _ _ rfl sharedConfig _
    (by simp [Mapping.WellFormed, sharedConfig, downloaded, Value.WellFormedEntries,
      Value.WellFormed, OrderedMap.Distinct]) rfl

/-- A raw path that is one name on unix. -/
def traversing : Value :=
  .mapping [(.string "proxy-providers", .mapping [
    downloaded "one" "https://one.example/p" "..\\..\\p"])]

/-- Its destination leaves the runtime. -/
theorem backslashes_leave_runtime : ∃ parts,
    plainFiles.collectRuntimeParts "/verge".toList traversing = .ok parts ∧
      ¬ Inside traversing parts := by
  refine ⟨⟨.mapping [(.string "proxy-providers", .mapping [
      downloaded "one" "https://one.example/p" "../../p"])], [],
    [⟨.proxyProviders, "one", "../../p", "https://one.example/p"⟩]⟩, rfl, fun inside => ?_⟩
  have outside : ¬ Clean "../../p".toList := by decide
  exact outside (inside.remotes _ List.mem_cons_self)

end Filesystem

end ClashVerge.RuntimeBundle
