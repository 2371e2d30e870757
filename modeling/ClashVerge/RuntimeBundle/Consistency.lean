import ClashVerge.RuntimeBundle.Gathering

/-!
# When a runtime bundle is consistent

A bundle is refused in every order for a reason of its own (`Hopeless`): without one, the downloaded
providers of each section may come first, and then every demand fits. So the order does not matter
only where there is such a reason, or where every destination has one owner (`OneOwner`).
-/

namespace ClashVerge.RuntimeBundle

open Enhance (modifyMapping)
open Service.ProviderSync (Section RemoteProviderRef)
open UnixPath (Text push)
open Yaml

def providersOf (config : Value) (section_ : Section) : Mapping :=
  (config.asMapping.bind (providersIn · section_)).getD []

namespace Filesystem

variable (files : Filesystem) (root : Text)

def rewriteEntry (entry : Value × Value) : Value × Value :=
  (entry.1, (files.demand root entry.2).rewrite entry.2)

def demands (entries : Mapping) : List Demand := entries.map fun entry => files.demand root entry.2

def allDemands (config : Value) : List Demand :=
  files.demands root (providersOf config .proxyProviders) ++
    files.demands root (providersOf config .ruleProviders)

variable {files root} {section_ : Section} {before : List Demand} {gathered after : Gathered}

section

variable (gathers : Gathers before gathered)
include gathers

theorem collectProviders_ok {entries rewritten : Mapping}
    (collected : files.collectProviders root section_ entries gathered = .ok (rewritten, after)) :
    FitAll before (files.demands root entries) ∧
      Gathers (before ++ files.demands root entries) after ∧
      rewritten = entries.map (files.rewriteEntry root) := by
  induction entries generalizing before gathered rewritten with
  | nil =>
    cases collected
    exact ⟨trivial, by simpa [demands] using gathers, rfl⟩
  | cons entry rest ih =>
    obtain ⟨name, provider⟩ := entry
    rw [collectProviders, collectProvider_eq] at collected
    cases met : gathered.meet section_ name (files.demand root provider) with rw [met] at collected
    | error refusal =>
      contradiction
    | ok next =>
      simp only [Except.map] at collected
      obtain ⟨fits, gathers⟩ := gathers.meet met
      cases others : files.collectProviders root section_ rest next with rw [others] at collected
      | error refusal =>
        contradiction
      | ok result =>
        cases collected
        obtain ⟨fitOthers, gathers, same⟩ := ih gathers others
        rw [List.append_assoc] at gathers
        exact ⟨⟨fits, fitOthers⟩, gathers, by rw [same]; rfl⟩

theorem collectProviders_of_fitAll {entries : Mapping}
    (fit : FitAll before (files.demands root entries)) :
    ∃ rewritten after,
      files.collectProviders root section_ entries gathered = .ok (rewritten, after) := by
  induction entries generalizing before gathered with
  | nil => exact ⟨[], gathered, rfl⟩
  | cons entry rest ih =>
    obtain ⟨name, provider⟩ := entry
    obtain ⟨fits, fitOthers⟩ := fit
    have reached : ∃ next, gathered.meet section_ name (files.demand root provider) = .ok next :=
      gathers.meets fits
    obtain ⟨next, met⟩ := reached
    obtain ⟨rewritten, after, others⟩ := ih (gathers.meet met).2 fitOthers
    refine ⟨(name, (files.demand root provider).rewrite provider) :: rewritten, after, ?_⟩
    rw [collectProviders, collectProvider_eq, met]
    simp only [Except.map, others]

theorem collectProviderAssets_ok {config rewritten : Value}
    (collected : files.collectProviderAssets root config section_ gathered = .ok (rewritten, after)) :
    FitAll before (files.demands root (providersOf config section_)) ∧
      Gathers (before ++ files.demands root (providersOf config section_)) after ∧
      providersOf rewritten section_ = (providersOf config section_).map (files.rewriteEntry root) ∧
      ∀ other, other ≠ section_ → providersOf rewritten other = providersOf config other := by
  unfold collectProviderAssets at collected
  cases reads : config.asMapping.bind (providersIn · section_) with
  | none =>
    rw [reads] at collected
    cases collected
    have empty : providersOf config section_ = [] := by rw [providersOf, reads]; rfl
    rw [empty]
    exact ⟨trivial, by simpa [demands] using gathers, rfl, fun _ _ => rfl⟩
  | some entries =>
    have here : providersOf config section_ = entries := by rw [providersOf, reads]; rfl
    rw [reads] at collected
    dsimp only at collected
    cases collects : files.collectProviders root section_ entries gathered with
    | error refusal =>
      rw [collects] at collected
      contradiction
    | ok result =>
      rw [collects] at collected
      cases collected
      obtain ⟨fit, gathers, same⟩ := collectProviders_ok gathers collects
      obtain ⟨top, is_, found⟩ := Option.bind_eq_some_iff.mp reads
      rw [here]
      refine ⟨fit, gathers, ?_, fun other different => ?_⟩
      · simp [providersOf, is_, providersIn_setProviders found, same]
      · simp [providersOf, is_, providersIn_setProviders_other different]

theorem collectProviderAssets_of_fitAll {config : Value}
    (fit : FitAll before (files.demands root (providersOf config section_))) :
    ∃ rewritten after,
      files.collectProviderAssets root config section_ gathered = .ok (rewritten, after) := by
  unfold collectProviderAssets
  cases reads : config.asMapping.bind (providersIn · section_) with
  | none => exact ⟨config, gathered, rfl⟩
  | some entries =>
    rw [providersOf, reads] at fit
    have collected : ∃ rewritten after,
        files.collectProviders root section_ entries gathered = .ok (rewritten, after) :=
      collectProviders_of_fitAll gathers fit
    obtain ⟨rewritten, after, collects⟩ := collected
    refine ⟨modifyMapping (setProviders · section_ rewritten) config, after, ?_⟩
    dsimp only
    rw [collects]

end

/-- A geo file that is there and cannot be resolved, with a free destination. -/
def Unresolved (files : Filesystem) (root : Text) (destinations : String → Prop)
    (filename : String) : Prop :=
  files.isFile (push root filename.toList) = true ∧ ¬ destinations filename ∧
    ∀ canonical, files.canonicalize (push root filename.toList) ≠ .ok canonical

theorem mem_copy_destinations {source : Text} {destination other : String} :
    other ∈ (gathered.copy source destination).destinations ↔
      other = destination ∨ other ∈ gathered.destinations := by
  unfold Gathered.copy
  split
  · rename_i taken
    exact ⟨.inr, fun either => either.elim (fun same => same ▸ taken) id⟩
  · exact List.mem_cons

theorem collectGeoAssets_ok {filenames : List String}
    (collected : files.collectGeoAssets root filenames gathered = .ok after) :
    after.remoteProviders = gathered.remoteProviders ∧
      (∀ asset ∈ gathered.assets, asset ∈ after.assets) ∧
      ∀ asset ∈ after.assets, asset ∈ gathered.assets ∨
        asset.destination ∉ gathered.destinations ∧ asset.destination ∈ filenames := by
  induction filenames generalizing gathered with
  | nil =>
    cases collected
    exact ⟨rfl, fun _ member => member, fun _ member => .inl member⟩
  | cons filename rest ih =>
    rw [collectGeoAssets] at collected
    split at collected
    · rename_i fresh
      split at collected
      · contradiction
      · rename_i canonical resolved
        obtain ⟨remotes, kept, new⟩ := ih collected
        rw [Gathered.copy, if_neg fresh.2] at remotes kept new
        refine ⟨remotes, fun asset member => kept asset (List.mem_append_left _ member),
          fun asset member => ?_⟩
        obtain inside | ⟨free, listed⟩ := new asset member
        · obtain earlier | here := List.mem_append.mp inside
          · exact .inl earlier
          · obtain rfl := List.mem_singleton.mp here
            exact .inr ⟨fresh.2, List.mem_cons_self⟩
        · exact .inr ⟨fun taken => free (List.mem_cons_of_mem _ taken),
            List.mem_cons_of_mem _ listed⟩
    · obtain ⟨remotes, kept, new⟩ := ih collected
      exact ⟨remotes, kept, fun asset member =>
        (new asset member).imp_right (And.imp_right (List.mem_cons_of_mem _))⟩

theorem collectGeoAssets_isOk {filenames : List String} (distinct : filenames.Nodup) :
    (∃ after, files.collectGeoAssets root filenames gathered = .ok after) ↔
      ∀ filename ∈ filenames, ¬ files.Unresolved root (· ∈ gathered.destinations) filename := by
  induction filenames generalizing gathered with
  | nil => simp [collectGeoAssets]
  | cons filename rest ih =>
    obtain ⟨fresh, distinct⟩ := List.nodup_cons.mp distinct
    rw [collectGeoAssets, List.forall_mem_cons]
    split
    · rename_i open_
      split
      · rename_i message fails
        refine iff_of_false (by simp) (fun all => all.1 ⟨open_.1, open_.2, fun canonical ok => ?_⟩)
        rw [fails] at ok
        contradiction
      · rename_i canonical resolved
        have here : ¬ files.Unresolved root (· ∈ gathered.destinations) filename :=
          fun unresolved => unresolved.2.2 canonical resolved
        have others : ∀ other ∈ rest,
            files.Unresolved root (· ∈ (gathered.copy canonical filename).destinations) other ↔
              files.Unresolved root (· ∈ gathered.destinations) other := by
          intro other member
          have different : other ≠ filename := by
            rintro rfl
            exact fresh member
          simp [Unresolved, mem_copy_destinations, different]
        rw [ih distinct, and_iff_right here]
        exact forall₂_congr fun other member => not_congr (others other member)
    · rename_i closed
      have here : ¬ files.Unresolved root (· ∈ gathered.destinations) filename :=
        fun unresolved => closed ⟨unresolved.1, unresolved.2.1⟩
      rw [ih distinct, and_iff_right here]

structure Collected (files : Filesystem) (root : Text) (config : Value) (parts : RuntimeParts) : Prop where
  rewritten : ∀ section_, providersOf parts.config section_ =
    (providersOf config section_).map (files.rewriteEntry root)
  fit : FitAll [] (files.allDemands root config)
  resolved : ∀ filename ∈ geoAssets, ¬ files.Unresolved root
    (fun destination => ∃ demand ∈ files.allDemands root config,
      demand.destination = some destination) filename
  remotes : ∀ destination url, .remote destination url ∈ files.allDemands root config ↔
    ∃ declared ∈ parts.remoteProviders, declared.destination = destination ∧ declared.url = url
  owned : ∀ destination url, .remote destination url ∈ files.allDemands root config →
    owner (files.allDemands root config) destination = some (.remote destination url)
  assets : ∀ source destination,
    owner (files.allDemands root config) destination = some (.copied source destination) →
      ⟨String.ofList source, destination⟩ ∈ parts.assets
  /-- An asset was asked for, or else it is a geo file whose destination nobody has asked for. -/
  free : ∀ asset ∈ parts.assets,
    owner (files.allDemands root config) asset.destination =
        some (.copied asset.source.toList asset.destination) ∨
      owner (files.allDemands root config) asset.destination = none ∧ asset.destination ∈ geoAssets

theorem geoAssets_nodup : geoAssets.Nodup := by decide

theorem collectBelow_ok {config : Value} {parts : RuntimeParts}
    (collected : files.collectBelow root config = .ok parts) : files.Collected root config parts := by
  unfold collectBelow at collected
  split at collected
  · contradiction
  · rename_i first gathered proxies
    split at collected
    · contradiction
    · rename_i second others rules
      split at collected
      · contradiction
      · rename_i after geo
        cases collected
        obtain ⟨fitFirst, gathersFirst, rewrittenFirst, keptFirst⟩ :=
          collectProviderAssets_ok gathers_empty proxies
        obtain ⟨fitSecond, gathers, rewrittenSecond, keptSecond⟩ :=
          collectProviderAssets_ok gathersFirst rules
        have same := keptFirst .ruleProviders (by decide)
        rw [same] at fitSecond gathers rewrittenSecond
        rw [List.nil_append] at fitSecond gathers
        have geoOk := (collectGeoAssets_isOk geoAssets_nodup).mp ⟨after, geo⟩
        obtain ⟨remotes, kept, new⟩ := collectGeoAssets_ok geo
        refine ⟨fun section_ => ?_, fitAll_append.mpr ⟨fitFirst, fitSecond⟩,
          fun filename member unresolved => ?_, fun destination url => ?_, gathers.owned,
          fun source destination owns => ?_, fun asset member => ?_⟩
        · cases section_ with
          | proxyProviders => rw [keptSecond .proxyProviders (by decide), rewrittenFirst]
          | ruleProviders => exact rewrittenSecond
        · refine geoOk filename member ⟨unresolved.1, fun taken => ?_, unresolved.2.2⟩
          exact unresolved.2.1 ((gathers.destinations filename).mp taken)
        · rw [remotes]
          exact gathers.remotes destination url
        · refine kept _ ((gathers.assets _).mpr ?_)
          rw [String.toList_ofList]
          exact owns
        · obtain asked | ⟨free, listed⟩ := new asset member
          · exact .inl ((gathers.assets asset).mp asked)
          · exact .inr ⟨owner_eq_none fun taken => free ((gathers.destinations _).mpr taken), listed⟩

theorem collectBelow_of_fitAll {config : Value} (fit : FitAll [] (files.allDemands root config))
    (resolved : ∀ filename ∈ geoAssets, ¬ files.Unresolved root
      (fun destination => ∃ demand ∈ files.allDemands root config,
        demand.destination = some destination) filename) :
    ∃ parts, files.collectBelow root config = .ok parts := by
  obtain ⟨fitFirst, fitSecond⟩ := fitAll_append.mp fit
  have proxies : ∃ rewritten after,
      files.collectProviderAssets root config .proxyProviders .empty = .ok (rewritten, after) :=
    collectProviderAssets_of_fitAll gathers_empty fitFirst
  obtain ⟨first, gathered, proxies⟩ := proxies
  obtain ⟨-, gathersFirst, -, kept⟩ := collectProviderAssets_ok gathers_empty proxies
  have same := kept .ruleProviders (by decide)
  rw [← same] at fitSecond
  have rules : ∃ rewritten after,
      files.collectProviderAssets root first .ruleProviders gathered = .ok (rewritten, after) :=
    collectProviderAssets_of_fitAll gathersFirst fitSecond
  obtain ⟨second, others, rules⟩ := rules
  obtain ⟨-, gathers, -, -⟩ := collectProviderAssets_ok gathersFirst rules
  rw [same, List.nil_append] at gathers
  have geo : ∃ after, files.collectGeoAssets root geoAssets others = .ok after := by
    rw [collectGeoAssets_isOk geoAssets_nodup]
    intro filename member unresolved
    refine resolved filename member ⟨unresolved.1, fun taken => ?_, unresolved.2.2⟩
    exact unresolved.2.1 ((gathers.destinations filename).mpr taken)
  obtain ⟨after, geo⟩ := geo
  exact ⟨⟨second, after.assets, after.remoteProviders⟩, by simp only [collectBelow, proxies, rules, geo]⟩

/-- A reason to refuse a bundle, whatever the order of its providers. -/
inductive Hopeless (files : Filesystem) (root : Text) (config : Value) : Prop where
  /-- A provider is refused on its own. -/
  | refused (refusal : Refusal) (member : .refused refusal ∈ files.allDemands root config)
  | urls (destination first second : String) (different : first ≠ second)
      (one : .remote destination first ∈ files.allDemands root config)
      (two : .remote destination second ∈ files.allDemands root config)
  /-- A file of the first section at a destination that only the second one downloads. -/
  | copiedFirst (source : Text) (destination url : String)
      (copied : .copied source destination ∈ files.demands root (providersOf config .proxyProviders))
      (remote : .remote destination url ∈ files.demands root (providersOf config .ruleProviders))
      (alone : ∀ other, .remote destination other ∉
        files.demands root (providersOf config .proxyProviders))
  /-- A geo file that is there and cannot be resolved, unless a provider asks for its destination. -/
  | geo (filename : String) (member : filename ∈ geoAssets)
      (unresolved : files.Unresolved root (fun destination =>
        ∃ demand ∈ files.allDemands root config, demand.destination = some destination) filename)

/-- No destination is both copied and downloaded, and none is copied from two files. -/
structure OneOwner (files : Filesystem) (root : Text) (config : Value) : Prop where
  copied : ∀ source other destination,
    .copied source destination ∈ files.allDemands root config →
    .copied other destination ∈ files.allDemands root config → source = other
  remote : ∀ source destination url, .copied source destination ∈ files.allDemands root config →
    .remote destination url ∉ files.allDemands root config

/-- The same providers, in another order in each section. -/
def Reordered (config other : Value) : Prop :=
  ∀ section_, (providersOf config section_).Perm (providersOf other section_)

structure Provided (files : Filesystem) (root : Text) (parts : RuntimeParts)
    (before after : Value × Value) : Prop where
  copied : ∀ source, files.availableSource root before.2 = some source →
    ∃ destination, field after.2 "path" = some destination ∧
      ⟨String.ofList source, destination⟩ ∈ parts.assets
  recorded : ∀ rawPath url, isRemote before.2 = true → field before.2 "path" = some rawPath →
    field before.2 "url" = some url → ∃ destination, field after.2 "path" = some destination ∧
      ∃ declared ∈ parts.remoteProviders,
        declared.destination = destination ∧ declared.url = url

/-- Every provider has its file or its url in the bundle, and every destination has one of them. -/
structure Consistent (files : Filesystem) (root : Text) (config : Value) (parts : RuntimeParts) :
    Prop where
  provided : ∀ section_, List.Forall₂ (files.Provided root parts)
    (providersOf config section_) (providersOf parts.config section_)
  apart : ∀ asset ∈ parts.assets, ∀ declared ∈ parts.remoteProviders,
    asset.destination ≠ declared.destination
  oneUrl : ∀ first ∈ parts.remoteProviders, ∀ second ∈ parts.remoteProviders,
    first.destination = second.destination → first.url = second.url

section Demands

variable {provider : Value}

theorem demand_of_availableSource {source : Text}
    (available : files.availableSource root provider = some source) :
    (∃ refusal, files.demand root provider = .refused refusal) ∨
      ∃ destination, files.demand root provider = .copied source destination := by
  unfold availableSource at available
  split at available
  · contradiction
  · rename_i local_
    obtain ⟨rawPath, reads, found⟩ := Option.bind_eq_some_iff.mp available
    rw [Bool.not_eq_true] at local_
    unfold demand
    cases is_ : files.localProviderSource root rawPath.toList with rw [is_] at found
    | error refusal =>
      contradiction
    | ok own =>
      obtain rfl : own = source := Option.some.inj found
      simp only [reads, local_, is_]
      cases destinationBelowRoot root own with
      | error refusal => exact .inl ⟨refusal, rfl⟩
      | ok destination => exact .inr ⟨destination, rfl⟩

theorem availableSource_of_demand {source : Text} {destination : String}
    (asks : files.demand root provider = .copied source destination) :
    files.availableSource root provider = some source := by
  unfold demand at asks
  unfold availableSource
  cases reads : field provider "path" with
  | none =>
    rw [reads] at asks
    contradiction
  | some rawPath =>
    simp only [reads] at asks
    split at asks
    · split at asks <;> contradiction
    · contradiction
    · rename_i local_
      rw [local_, if_neg Bool.false_ne_true, Option.bind_some]
      split at asks
      · contradiction
      · rename_i own found
        split at asks
        · contradiction
        · obtain ⟨rfl, -⟩ := Demand.copied.inj asks
          rw [found]
          rfl

theorem demand_of_url {rawPath url : String} (remote : isRemote provider = true)
    (reads : field provider "path" = some rawPath) (declares : field provider "url" = some url) :
    (∃ refusal, files.demand root provider = .refused refusal) ∨
      ∃ destination, files.demand root provider = .remote destination url := by
  unfold demand
  simp only [reads, remote, declares]
  cases files.providerDestination root rawPath.toList with
  | error refusal => exact .inl ⟨refusal, rfl⟩
  | ok destination => exact .inr ⟨destination, rfl⟩

theorem field_rewrite {destination : String}
    (asks : (files.demand root provider).destination = some destination) :
    field ((files.demand root provider).rewrite provider) "path" = some destination := by
  rw [Demand.rewrite, asks]
  cases reads : field provider "path" with
  | none =>
    rw [demand, reads] at asks
    contradiction
  | some rawPath => exact field_setPath reads destination

theorem mem_allDemands {config : Value} {demand : Demand} : demand ∈ files.allDemands root config ↔
      ∃ section_, demand ∈ files.demands root (providersOf config section_) := by
  rw [allDemands, List.mem_append]
  constructor
  · rintro (first | second)
    · exact ⟨.proxyProviders, first⟩
    · exact ⟨.ruleProviders, second⟩
  · rintro ⟨section_ | section_, member⟩
    · exact .inl member
    · exact .inr member

end Demands

section Orders

variable {config other : Value}

section

variable (reordered : Reordered config other)
include reordered

theorem Reordered.symm : Reordered other config := fun section_ => (reordered section_).symm

theorem Reordered.mem_demands (section_ : Section)
    (demand : Demand) : demand ∈ files.demands root (providersOf config section_) ↔
      demand ∈ files.demands root (providersOf other section_) :=
  ((reordered section_).map _).mem_iff

theorem Reordered.mem_allDemands (demand : Demand) :
    demand ∈ files.allDemands root config ↔ demand ∈ files.allDemands root other := by
  simp only [Filesystem.mem_allDemands, reordered.mem_demands]

theorem Reordered.unresolved (filename : String) :
    files.Unresolved root (fun destination => ∃ demand ∈ files.allDemands root config,
        demand.destination = some destination) filename ↔
      files.Unresolved root (fun destination => ∃ demand ∈ files.allDemands root other,
        demand.destination = some destination) filename := by
  simp only [Unresolved, reordered.mem_allDemands]

theorem Reordered.hopeless (hopeless : files.Hopeless root config) : files.Hopeless root other := by
  cases hopeless with
  | refused refusal member => exact .refused refusal ((reordered.mem_allDemands _).mp member)
  | urls destination first second different one two =>
    exact .urls destination first second different ((reordered.mem_allDemands _).mp one)
      ((reordered.mem_allDemands _).mp two)
  | copiedFirst source destination url copied remote alone =>
    exact .copiedFirst source destination url ((reordered.mem_demands _ _).mp copied)
      ((reordered.mem_demands _ _).mp remote)
      fun url member => alone url ((reordered.mem_demands _ _).mpr member)
  | geo filename member unresolved =>
    exact .geo filename member ((reordered.unresolved filename).mp unresolved)

theorem Reordered.oneOwner (oneOwner : files.OneOwner root config) : files.OneOwner root other where
  copied source own destination one two :=
    oneOwner.copied source own destination ((reordered.mem_allDemands _).mpr one)
      ((reordered.mem_allDemands _).mpr two)
  remote source destination url copied remote :=
    oneOwner.remote source destination url ((reordered.mem_allDemands _).mpr copied)
      ((reordered.mem_allDemands _).mpr remote)

end

variable {parts : RuntimeParts}

theorem Collected.not_hopeless (collected : files.Collected root config parts) :
    ¬ files.Hopeless root config := by
  rintro (⟨refusal, member⟩ | ⟨destination, first, second, different, one, two⟩ |
    ⟨source, destination, url, copied, remote, alone⟩ | ⟨filename, member, unresolved⟩)
  · exact collected.fit.not_refused refusal member
  · have both := (collected.owned _ _ one).symm.trans (collected.owned _ _ two)
    exact different (Demand.remote.inj (Option.some.inj both)).2
  · -- The destination has its owner in the first section, where nobody downloads it.
    have owns := collected.owned destination url (List.mem_append_right _ remote)
    obtain ⟨first, found⟩ := owner_isSome ⟨_, copied, rfl⟩
    rw [allDemands, owner, List.find?_append, ← owner, found] at owns
    cases owns
    exact alone url (List.mem_of_find?_eq_some found)
  · exact collected.resolved filename member unresolved

theorem collectBelow_of_oneOwner (hopes : ¬ files.Hopeless root config)
    (oneOwner : files.OneOwner root config) :
    ∃ parts, files.collectBelow root config = .ok parts := by
  refine collectBelow_of_fitAll (fitAll_of_apart (fun refusal member => hopes (.refused refusal member))
    (fun destination first second one two => ?_) (fun source destination url => ?_))
    fun filename member unresolved => hopes (.geo filename member unresolved)
  · by_contra different
    exact hopes (.urls destination first second different one two)
  · exact oneOwner.remote source destination url

/-- The downloaded providers of a section first. -/
def remoteFirst (files : Filesystem) (root : Text) (entries : Mapping) : Mapping :=
  entries.filter (fun entry => (files.demand root entry.2).isRemote) ++
    entries.filter (fun entry => !(files.demand root entry.2).isRemote)

def remoteFirstConfig (files : Filesystem) (root : Text) (config : Value) : Value :=
  .mapping (sections.map fun section_ =>
    (.string section_.key, .mapping (files.remoteFirst root (providersOf config section_))))

theorem providersOf_remoteFirstConfig (section_ : Section) :
    providersOf (files.remoteFirstConfig root config) section_ =
      files.remoteFirst root (providersOf config section_) := by
  cases section_ <;> rfl

theorem reordered_remoteFirst : Reordered config (files.remoteFirstConfig root config) := by
  intro section_
  rw [providersOf_remoteFirstConfig]
  exact (List.filter_append_perm _ _).symm

theorem demands_remoteFirst (entries : Mapping) : files.demands root (files.remoteFirst root entries) =
    (files.demands root entries).filter (·.isRemote) ++
      (files.demands root entries).filter (fun demand => !demand.isRemote) := by
  simp only [demands, remoteFirst, List.map_append, List.filter_map]
  rfl

theorem collectBelow_remoteFirst (hopes : ¬ files.Hopeless root config) :
    ∃ parts, files.collectBelow root (files.remoteFirstConfig root config) = .ok parts := by
  have reordered : Reordered config (files.remoteFirstConfig root config) := reordered_remoteFirst
  have noReason : ¬ files.Hopeless root (files.remoteFirstConfig root config) :=
    fun hopeless => hopes (reordered.symm.hopeless hopeless)
  refine collectBelow_of_fitAll ?_ fun filename member unresolved =>
    noReason (.geo filename member unresolved)
  have accepted : ∀ refusal, .refused refusal ∉ files.allDemands root config :=
    fun refusal member => hopes (.refused refusal member)
  have oneUrl : ∀ destination first second, .remote destination first ∈ files.allDemands root config →
      .remote destination second ∈ files.allDemands root config → first = second := by
    intro destination first second one two
    by_contra different
    exact hopes (.urls destination first second different one two)
  have alone : ∀ source destination url,
      .copied source destination ∈ files.demands root (providersOf config .proxyProviders) →
      .remote destination url ∈ files.demands root (providersOf config .ruleProviders) →
      ∃ other, .remote destination other ∈
        files.demands root (providersOf config .proxyProviders) := by
    intro source destination url copied remote
    by_contra none_
    exact hopes (.copiedFirst source destination url copied remote (not_exists.mp none_))
  simp only [allDemands, providersOf_remoteFirstConfig, demands_remoteFirst]
  simp only [allDemands, List.mem_append] at accepted oneUrl
  generalize files.demands root (providersOf config .proxyProviders) = proxies at *
  generalize files.demands root (providersOf config .ruleProviders) = rules at *
  have notRefused : ∀ refusal, .refused refusal ∉ proxies ∧ .refused refusal ∉ rules :=
    fun refusal => not_or.mp (accepted refusal)
  refine fitAll_append.mpr ⟨fitAll_append.mpr ⟨?_, ?_⟩, fitAll_append.mpr ⟨?_, ?_⟩⟩
  · refine fitAll_of_remote (fun demand member => (List.mem_filter.mp member).2)
      (fun destination first second one two => oneUrl destination first second ?_ ?_)
      (fun source destination url copied => by simp at copied)
    · exact .inl (List.mem_of_mem_filter one)
    · exact .inl (List.mem_of_mem_filter two)
  · refine fitAll_of_not_remote (fun refusal member => ?_) (fun demand member => ?_)
    · exact (notRefused refusal).1 (List.mem_of_mem_filter member)
    · simpa using (List.mem_filter.mp member).2
  · refine fitAll_of_remote (fun demand member => (List.mem_filter.mp member).2)
      (fun destination first second one two => oneUrl destination first second ?_ ?_)
      (fun source destination url copied remote => ?_)
    · simpa [Demand.isRemote] using one
    · simpa [Demand.isRemote] using two
    · have here : Demand.copied source destination ∈ proxies := by simpa [Demand.isRemote] using copied
      obtain ⟨other, member⟩ := alone source destination url here (List.mem_of_mem_filter remote)
      exact ⟨other, by simp [member, Demand.isRemote]⟩
  · refine fitAll_of_not_remote (fun refusal member => ?_) (fun demand member => ?_)
    · exact (notRefused refusal).2 (List.mem_of_mem_filter member)
    · simpa using (List.mem_filter.mp member).2

section

variable (collected : files.Collected root config parts)
include collected

theorem Collected.apart
    {asset : RuntimeAsset} (copied : asset ∈ parts.assets) {declared : RemoteProviderRef}
    (recorded : declared ∈ parts.remoteProviders) : asset.destination ≠ declared.destination := by
  intro same
  have owns := collected.owned asset.destination declared.url
    ((collected.remotes _ _).mpr ⟨declared, recorded, same.symm, rfl⟩)
  obtain other | ⟨none_, -⟩ := collected.free asset copied
  · rw [owns] at other
    exact absurd (Option.some.inj other) (by simp)
  · rw [owns] at none_
    contradiction

theorem Collected.oneUrl {first second : RemoteProviderRef} (one : first ∈ parts.remoteProviders)
    (two : second ∈ parts.remoteProviders) (same : first.destination = second.destination) :
    first.url = second.url := by
  have owns := collected.owned _ _ ((collected.remotes _ _).mpr ⟨first, one, rfl, rfl⟩)
  have others := collected.owned _ _ ((collected.remotes _ _).mpr ⟨second, two, same.symm, rfl⟩)
  exact (Demand.remote.inj (Option.some.inj (owns.symm.trans others))).2

theorem Collected.consistent
    (oneOwner : files.OneOwner root config) : files.Consistent root config parts where
  provided section_ := by
    rw [collected.rewritten, List.forall₂_map_right_iff, List.forall₂_same]
    intro entry member
    have asked : files.demand root entry.2 ∈ files.allDemands root config :=
      Filesystem.mem_allDemands.mpr ⟨section_, List.mem_map_of_mem member⟩
    refine ⟨fun source available => ?_, fun rawPath url remote reads declares => ?_⟩
    · obtain ⟨refusal, is_⟩ | ⟨destination, is_⟩ := demand_of_availableSource available
      · rw [is_] at asked
        exact absurd asked (collected.fit.not_refused refusal)
      · refine ⟨destination, field_rewrite (by rw [is_]; rfl), collected.assets source destination ?_⟩
        rw [is_] at asked
        -- The first demand for the destination is for a file, and for the same one.
        obtain ⟨first, owns⟩ := owner_isSome ⟨_, asked, rfl⟩
        have inside := List.mem_of_find?_eq_some owns
        have here : first.destination = some destination := by simpa using List.find?_some owns
        cases first with
        | untouched | refused refusal => contradiction
        | remote own url =>
          obtain rfl : own = destination := Option.some.inj here
          exact absurd inside (oneOwner.remote _ _ _ asked)
        | copied other own =>
          obtain rfl : own = destination := Option.some.inj here
          rw [owns, oneOwner.copied _ _ _ asked inside]
    · obtain ⟨refusal, is_⟩ | ⟨destination, is_⟩ := demand_of_url remote reads declares
      · rw [is_] at asked
        exact absurd asked (collected.fit.not_refused refusal)
      · refine ⟨destination, field_rewrite (by rw [is_]; rfl), ?_⟩
        rw [is_] at asked
        exact (collected.remotes destination url).mp asked
  apart asset copied declared recorded := collected.apart copied recorded
  oneUrl first one second two := collected.oneUrl one two

theorem Collected.oneOwner
    (consistent : files.Consistent root config parts) : files.OneOwner root config := by
  have owns : ∀ source destination, .copied source destination ∈ files.allDemands root config →
      owner (files.allDemands root config) destination = some (.copied source destination) := by
    intro source destination member
    obtain ⟨section_, inside⟩ := Filesystem.mem_allDemands.mp member
    obtain ⟨entry, declared, is_⟩ := List.mem_map.mp inside
    have all := consistent.provided section_
    rw [collected.rewritten, List.forall₂_map_right_iff, List.forall₂_same] at all
    obtain ⟨own, reads, copied⟩ := (all entry declared).copied source (availableSource_of_demand is_)
    have here : own = destination := by
      have written : field (files.rewriteEntry root entry).2 "path" = some destination :=
        field_rewrite (by rw [is_]; rfl)
      exact Option.some.inj (reads.symm.trans written)
    subst here
    obtain asked | ⟨none_, -⟩ := collected.free _ copied
    · rwa [String.toList_ofList] at asked
    · obtain ⟨first, found⟩ := owner_isSome ⟨_, member, rfl⟩
      rw [found] at none_
      contradiction
  constructor
  · intro source other destination one two
    have both := (owns _ _ one).symm.trans (owns _ _ two)
    exact (Demand.copied.inj (Option.some.inj both)).1
  · intro source destination url copied remote
    have both := (owns _ _ copied).symm.trans (collected.owned _ _ remote)
    exact absurd (Option.some.inj both) (by simp)

end

end Orders

/-- Each bundle of the config is consistent, and whether there is one does not depend on the order of
the providers. -/
def ConsistentInAnyOrder (files : Filesystem) (configRoot : Text) (config : Value) : Prop :=
  (∀ parts, files.collectRuntimeParts configRoot config = .ok parts →
    ∃ root, files.canonicalize configRoot = .ok root ∧ files.Consistent root config parts) ∧
  ∀ other, Reordered config other →
    ((∃ parts, files.collectRuntimeParts configRoot config = .ok parts) ↔
      ∃ parts, files.collectRuntimeParts configRoot other = .ok parts)

/-- A config has consistent bundles in any order just where no order has one, or every destination has
one owner. -/
theorem consistentInAnyOrder_iff (files : Filesystem) (configRoot : Text) (config : Value) :
    files.ConsistentInAnyOrder configRoot config ↔
      ∀ root, files.canonicalize configRoot = .ok root →
        files.Hopeless root config ∨ files.OneOwner root config := by
  unfold ConsistentInAnyOrder
  cases canonical : files.canonicalize configRoot with
  | error message => simp [collectRuntimeParts, canonical]
  | ok root =>
    simp only [collectRuntimeParts, canonical, Except.ok.injEq, forall_eq', exists_eq_left']
    constructor
    · rintro ⟨consistent, anyOrder⟩
      by_cases hopeless : files.Hopeless root config
      · exact .inl hopeless
      · obtain ⟨parts, collected⟩ :=
          (anyOrder _ reordered_remoteFirst).mpr (collectBelow_remoteFirst hopeless)
        exact .inr ((collectBelow_ok collected).oneOwner (consistent parts collected))
    · rintro (hopeless | oneOwner)
      · have refused : ∀ other, Reordered config other →
            ¬ ∃ parts, files.collectBelow root other = .ok parts := by
          rintro other reordered ⟨parts, collected⟩
          exact (collectBelow_ok collected).not_hopeless (reordered.hopeless hopeless)
        have here := refused config fun _ => List.Perm.refl _
        refine ⟨fun parts collected => absurd ⟨parts, collected⟩ here, fun other reordered => ?_⟩
        exact iff_of_false here (refused other reordered)
      · refine ⟨fun parts collected => (collectBelow_ok collected).consistent oneOwner,
          fun other reordered => ?_⟩
        by_cases hopeless : files.Hopeless root config
        · refine iff_of_false (fun ⟨parts, collected⟩ => ?_) (fun ⟨parts, collected⟩ => ?_)
          · exact (collectBelow_ok collected).not_hopeless hopeless
          · exact (collectBelow_ok collected).not_hopeless (reordered.hopeless hopeless)
        · refine iff_of_true (collectBelow_of_oneOwner hopeless oneOwner)
            (collectBelow_of_oneOwner (fun other => ?_) (reordered.oneOwner oneOwner))
          exact hopeless (reordered.symm.hopeless other)

/-- A local file and a download for one destination. -/
def contested (first second : Value × Value) : Value :=
  .mapping [(.string "proxy-providers", .mapping [first, second])]

def download : Value × Value := (.string "download", .mapping [(.string "type", .string "http"),
  (.string "url", .string "https://one.example/p.yaml"), (.string "path", .string "p.yaml")])

def localFile : Value × Value :=
  (.string "local", .mapping [(.string "type", .string "file"), (.string "path", .string "p.yaml")])

/-- The config is collected with the download first, and refused with the file first. -/
theorem contested_depends_on_order :
    ¬ plainFiles.ConsistentInAnyOrder "/verge".toList (contested download localFile) := by
  rintro ⟨-, anyOrder⟩
  have reordered : Reordered (contested download localFile) (contested localFile download) := by
    rintro (_ | _)
    · exact List.Perm.swap _ _ _
    · exact List.Perm.refl _
  have collected : (plainFiles.collectRuntimeParts "/verge".toList
      (contested download localFile)).isOk = true := by decide
  have refused : (plainFiles.collectRuntimeParts "/verge".toList
      (contested localFile download)).isOk = false := by decide
  have some_ : ∃ parts, plainFiles.collectRuntimeParts "/verge".toList
      (contested download localFile) = .ok parts := by
    cases run : plainFiles.collectRuntimeParts "/verge".toList (contested download localFile) with
    | ok parts => exact ⟨parts, rfl⟩
    | error refusal =>
      rw [run] at collected
      contradiction
  obtain ⟨parts, run⟩ := (anyOrder _ reordered).mp some_
  rw [run] at refused
  contradiction

end Filesystem

end ClashVerge.RuntimeBundle
