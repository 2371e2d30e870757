import ClashVerge.RuntimeBundle.Conflicts

/-!
# Relocated providers

The second pass sets paths by section and name. As no section has a name twice, this is one map over
the entries: an entry whose claim is to a source with a path of its own gets that path.
-/

namespace ClashVerge.RuntimeBundle

open Enhance (modifyMapping modifyMapping_modifyMapping modifyMapping_of_asMapping)
open OrderedMap (keys Distinct)
open Service.ProviderSync (Section)
open UnixPath (Text)
open Yaml

/-- The paths that are given out to the sources in turn. -/
def allocations (sha256 : List UInt8 → List UInt8) :
    List (String ×ₗ String) → List String → List ((String ×ₗ String) × String)
  | [], _ => []
  | source :: rest, reserved =>
    let path := allocateProviderDestination sha256 (ofLex source).1 (ofLex source).2 reserved
    (source, path) :: allocations sha256 rest (path :: reserved)

section Allocations

variable {sha256 : List UInt8 → List UInt8} {sources : List (String ×ₗ String)}
  {reserved others : List String}

theorem keys_allocations : keys (allocations sha256 sources reserved) = sources := by
  induction sources generalizing reserved with
  | nil => rfl
  | cons source rest ih =>
    rw [allocations, OrderedMap.keys_cons, ih]

theorem allocations_congr (same : ∀ path, path ∈ reserved ↔ path ∈ others) :
    allocations sha256 sources reserved = allocations sha256 sources others := by
  induction sources generalizing reserved others with
  | nil => rfl
  | cons source rest ih =>
    rw [allocations, allocations, allocated_congr same]
    refine congrArg _ (ih fun path => ?_)
    rw [List.mem_cons, List.mem_cons, same]

theorem mem_allocations {source : String ×ₗ String} {path : String}
    (member : (source, path) ∈ allocations sha256 sources reserved) : path ∉ reserved ∧
      ∃ sequence, path = candidate sha256 (ofLex source).1 (ofLex source).2 sequence := by
  induction sources generalizing reserved with
  | nil => contradiction
  | cons first rest ih =>
    rw [allocations, List.mem_cons] at member
    obtain here | later := member
    · cases here
      exact ⟨allocated_free reserved, allocated_eq_candidate reserved⟩
    · obtain ⟨free, isCandidate⟩ := ih later
      exact ⟨fun reserved_ => free (List.mem_cons_of_mem _ reserved_), isCandidate⟩

theorem allocations_distinct : ((allocations sha256 sources reserved).map Prod.snd).Nodup := by
  induction sources generalizing reserved with
  | nil => exact List.nodup_nil
  | cons source rest ih =>
    rw [allocations, List.map_cons, List.nodup_cons]
    refine ⟨fun member => ?_, ih⟩
    obtain ⟨⟨other, path⟩, inside, same⟩ := List.mem_map.mp member
    dsimp only at same
    subst same
    exact (mem_allocations inside).1 List.mem_cons_self

end Allocations

def mapSection (section_ : Section) (change : Value × Value → Value × Value) (config : Mapping) :
    Mapping :=
  match providersIn config section_ with
  | none => config
  | some providers => setProviders config section_ (providers.map change)

def mapProviders (change : Section → Value × Value → Value × Value) (config : Mapping) : Mapping :=
  mapSection .ruleProviders (change .ruleProviders)
    (mapSection .proxyProviders (change .proxyProviders) config)

section Map

variable {config : Mapping} {section_ other : Section}
  {change further : Value × Value → Value × Value}

theorem providersIn_mapSection : providersIn (mapSection section_ change config) section_ =
      (providersIn config section_).map (List.map change) := by
  unfold mapSection
  cases reads : providersIn config section_ with
  | none => exact reads
  | some providers => exact providersIn_setProviders reads _

theorem providersIn_mapSection_other (different : other ≠ section_) :
    providersIn (mapSection section_ change config) other = providersIn config other := by
  unfold mapSection
  split
  · rfl
  · exact providersIn_setProviders_other different

theorem setProviders_of_get {value : Value} (found : config.get section_.key = some value)
    (providers : Mapping) : setProviders config section_ providers =
      config.insert (.string section_.key) (modifyMapping (fun _ => providers) value) := by
  rw [setProviders, found]

theorem setProviders_setProviders {old first second : Mapping}
    (reads : providersIn config section_ = some old) :
    setProviders (setProviders config section_ first) section_ second =
      setProviders config section_ second := by
  obtain ⟨value, found, is_⟩ := Option.bind_eq_some_iff.mp reads
  have there : (setProviders config section_ first).get section_.key =
      some (modifyMapping (fun _ => first) value) := by
    rw [setProviders_of_get found, Mapping.get, Mapping.insert, OrderedMap.get_insert_same]
  rw [setProviders_of_get there, setProviders_of_get found, setProviders_of_get found,
    modifyMapping_modifyMapping]
  exact OrderedMap.insert_insert _ _ _ _

theorem mapSection_mapSection : mapSection section_ further (mapSection section_ change config) =
      mapSection section_ (fun entry => further (change entry)) config := by
  cases reads : providersIn config section_ with
  | none => simp [mapSection, reads]
  | some providers =>
    have changed : mapSection section_ change config =
        setProviders config section_ (providers.map change) := by simp [mapSection, reads]
    rw [changed, mapSection, providersIn_setProviders reads, mapSection, reads]
    dsimp only
    rw [setProviders_setProviders reads, List.map_map]
    rfl

theorem mapSection_congr (same : ∀ providers, providersIn config section_ = some providers →
    ∀ entry ∈ providers, change entry = further entry) :
    mapSection section_ change config = mapSection section_ further config := by
  unfold mapSection
  cases reads : providersIn config section_ with
  | none => rfl
  | some providers =>
    dsimp only
    rw [List.map_congr_left (same providers reads)]

theorem mapSection_id (same : ∀ providers, providersIn config section_ = some providers →
    ∀ entry ∈ providers, change entry = entry) : mapSection section_ change config = config := by
  unfold mapSection
  cases reads : providersIn config section_ with
  | none => rfl
  | some providers =>
    obtain ⟨value, found, is_⟩ := Option.bind_eq_some_iff.mp reads
    have stays : providers.map change = providers :=
      (List.map_congr_left (same providers reads)).trans (List.map_id providers)
    have whole : modifyMapping (fun _ => providers) value = value := by
      refine modifyMapping_of_asMapping fun map is' => ?_
      rw [is_] at is'
      exact Option.some.inj is'
    dsimp only
    rw [stays, setProviders_of_get found, whole]
    exact OrderedMap.insert_of_get found

theorem mapSection_comm (different : section_ ≠ other) :
    mapSection other further (mapSection section_ change config) =
      mapSection section_ change (mapSection other further config) := by
  have keepOther : providersIn (mapSection section_ change config) other =
      providersIn config other := providersIn_mapSection_other different.symm
  have keepHere : providersIn (mapSection other further config) section_ =
      providersIn config section_ := providersIn_mapSection_other different
  cases reads : providersIn config section_ with
  | none =>
    have first : mapSection section_ change config = config := by rw [mapSection, reads]
    have second : mapSection section_ change (mapSection other further config) =
        mapSection other further config := by rw [mapSection, keepHere, reads]
    rw [first, second]
  | some providers =>
    cases readsOther : providersIn config other with
    | none =>
      have first : mapSection other further config = config := by rw [mapSection, readsOther]
      have second : mapSection other further (mapSection section_ change config) =
          mapSection section_ change config := by rw [mapSection, keepOther, readsOther]
      rw [first, second]
    | some otherProviders =>
      obtain ⟨value, found, -⟩ := Option.bind_eq_some_iff.mp reads
      obtain ⟨otherValue, foundOther, -⟩ := Option.bind_eq_some_iff.mp readsOther
      have keysDiffer : Value.string section_.key ≠ .string other.key := by
        simpa using fun same => different (Section.key_injective same)
      have here : Value.string section_.key ∈ keys config := by
        by_contra absent
        rw [Mapping.get, (OrderedMap.get_eq_none_iff _ _).mpr absent] at found
        contradiction
      have there : Value.string other.key ∈ keys config := by
        by_contra absent
        rw [Mapping.get, (OrderedMap.get_eq_none_iff _ _).mpr absent] at foundOther
        contradiction
      have first : mapSection section_ change config = config.insert (.string section_.key)
          (modifyMapping (fun _ => providers.map change) value) := by
        rw [mapSection, reads]
        exact setProviders_of_get found _
      have second : mapSection other further config = config.insert (.string other.key)
          (modifyMapping (fun _ => otherProviders.map further) otherValue) := by
        rw [mapSection, readsOther]
        exact setProviders_of_get foundOther _
      have afterFirst : mapSection other further (mapSection section_ change config) =
          (mapSection section_ change config).insert (.string other.key)
            (modifyMapping (fun _ => otherProviders.map further) otherValue) := by
        have still : (mapSection section_ change config).get other.key = some otherValue := by
          rw [first, Mapping.get, Mapping.insert, OrderedMap.get_insert_other _ _ keysDiffer.symm]
          exact foundOther
        rw [mapSection, keepOther, readsOther]
        exact setProviders_of_get still _
      have afterSecond : mapSection section_ change (mapSection other further config) =
          (mapSection other further config).insert (.string section_.key)
            (modifyMapping (fun _ => providers.map change) value) := by
        have still : (mapSection other further config).get section_.key = some value := by
          rw [second, Mapping.get, Mapping.insert, OrderedMap.get_insert_other _ _ keysDiffer]
          exact found
        rw [mapSection, keepHere, reads]
        exact setProviders_of_get still _
      rw [afterFirst, afterSecond, first, second]
      exact OrderedMap.insert_comm keysDiffer here there _ _

end Map

section Providers

variable {config : Mapping} {change further : Section → Value × Value → Value × Value}

theorem providersIn_mapProviders (section_ : Section) :
    providersIn (mapProviders change config) section_ =
      (providersIn config section_).map (List.map (change section_)) := by
  cases section_ with
  | proxyProviders =>
    rw [mapProviders, providersIn_mapSection_other (by decide), providersIn_mapSection]
  | ruleProviders =>
    rw [mapProviders, providersIn_mapSection, providersIn_mapSection_other (by decide)]

theorem mapProviders_mapProviders : mapProviders further (mapProviders change config) =
      mapProviders (fun section_ entry => further section_ (change section_ entry)) config := by
  rw [mapProviders, mapProviders, mapProviders,
    mapSection_comm (show Section.ruleProviders ≠ .proxyProviders by decide),
    mapSection_mapSection, mapSection_mapSection]

theorem mapProviders_congr (same : ∀ section_ providers,
    providersIn config section_ = some providers →
      ∀ entry ∈ providers, change section_ entry = further section_ entry) :
    mapProviders change config = mapProviders further config := by
  have first := mapSection_congr (same .proxyProviders)
  rw [mapProviders, mapProviders, first]
  refine mapSection_congr fun providers reads => ?_
  rw [providersIn_mapSection_other (by decide)] at reads
  exact same .ruleProviders providers reads

theorem mapProviders_id (same : ∀ section_ providers, providersIn config section_ = some providers →
    ∀ entry ∈ providers, change section_ entry = entry) : mapProviders change config = config := by
  rw [mapProviders, mapSection_id (same .proxyProviders), mapSection_id (same .ruleProviders)]

theorem mapProviders_of_other {section_ : Section}
    (same : ∀ other, other ≠ section_ → ∀ entry, change other entry = entry) :
    mapProviders change config = mapSection section_ (change section_) config := by
  cases section_ with
  | proxyProviders =>
    rw [mapProviders]
    exact mapSection_id fun _ _ entry _ => same .ruleProviders (by decide) entry
  | ruleProviders =>
    rw [mapProviders, mapSection_id fun _ _ entry _ => same .proxyProviders (by decide) entry]

def DistinctNames (config : Mapping) : Prop :=
  ∀ section_ providers, providersIn config section_ = some providers → Distinct providers

def KeepsNames (change : Section → Value × Value → Value × Value) : Prop :=
  ∀ section_ entry, (change section_ entry).1 = entry.1

theorem DistinctNames.mapProviders (distinct : DistinctNames config) (keeps : KeepsNames change) :
    DistinctNames (mapProviders change config) := by
  intro section_ providers reads
  rw [providersIn_mapProviders] at reads
  obtain ⟨old, found, rfl⟩ := Option.map_eq_some_iff.mp reads
  have same : keys (old.map (change section_)) = keys old := by
    rw [keys, keys, List.map_map]
    exact List.map_congr_left fun entry _ => keeps section_ entry
  rw [Distinct, same]
  exact distinct section_ old found

/-- The entry of a name gets another path. -/
def setPathAt (path : String) (providers : List (Section × Value)) (section_ : Section)
    (entry : Value × Value) : Value × Value :=
  if (section_, entry.1) ∈ providers then (entry.1, setPath entry.2 path) else entry

theorem keepsNames_setPathAt (path : String) (providers : List (Section × Value)) :
    KeepsNames (setPathAt path providers) := by
  intro section_ entry
  unfold setPathAt
  split <;> rfl

theorem setPath_setPath (provider : Value) (path : String) :
    setPath (setPath provider path) path = setPath provider path := by
  rw [setPath, setPath, modifyMapping_modifyMapping]
  simp only [Mapping.insert, OrderedMap.insert_insert]

theorem setProviderPath_eq (distinct : DistinctNames config) (path : String)
    (provider : Section × Value) :
    setProviderPath path config provider = mapProviders (setPathAt path [provider]) config := by
  obtain ⟨section_, name⟩ := provider
  have only : mapProviders (setPathAt path [(section_, name)]) config =
      mapSection section_ (setPathAt path [(section_, name)] section_) config :=
    mapProviders_of_other fun other different entry => by simp [setPathAt, different]
  rw [only]
  unfold setProviderPath
  dsimp only
  cases reads : providersIn config section_ with
  | none => rw [mapSection, reads]
  | some providers =>
    dsimp only
    cases found : OrderedMap.get providers name with
    | none =>
      have absent := (OrderedMap.get_eq_none_iff _ _).mp found
      refine (mapSection_id fun others same entry member => ?_).symm
      rw [reads] at same
      cases same
      have away : entry.1 ≠ name := by
        rintro rfl
        exact absent (List.mem_map.mpr ⟨entry, member, rfl⟩)
      simp [setPathAt, away]
    | some value =>
      dsimp only
      rw [mapSection, reads, OrderedMap.insert_eq_map (distinct section_ providers reads) found (setPath · path)]
      congr 1
      refine List.map_congr_left fun entry _ => ?_
      simp [setPathAt]

theorem foldl_setProviderPath (distinct : DistinctNames config) (path : String)
    (providers : List (Section × Value)) :
    providers.foldl (setProviderPath path) config = mapProviders (setPathAt path providers) config := by
  induction providers generalizing config with
  | nil =>
    refine (mapProviders_id fun section_ providers _ entry _ => ?_).symm
    rw [setPathAt, if_neg List.not_mem_nil]
  | cons provider rest ih =>
    have next := distinct.mapProviders (keepsNames_setPathAt path [provider])
    rw [List.foldl_cons, setProviderPath_eq distinct, ih next,
      mapProviders_mapProviders]
    refine mapProviders_congr fun section_ providers _ entry _ => ?_
    unfold setPathAt
    by_cases here : (section_, entry.1) = provider
    · by_cases later : (section_, entry.1) ∈ rest
      · simp [here, setPath_setPath]
      · rw [here] at later
        simp [here, later]
    · simp [here]

end Providers

def placed (sha256 : List UInt8 → List UInt8) : List Group → List String → List (Group × String)
  | [], _ => []
  | group :: rest, reserved =>
    let path := allocateProviderDestination sha256 group.destination group.url reserved
    (group, path) :: placed sha256 rest (path :: reserved)

def relocateBy (pairs : List (Group × String)) (section_ : Section) (entry : Value × Value) :
    Value × Value :=
  pairs.foldl (fun entry pair => setPathAt pair.2 pair.1.providers section_ entry) entry

section Groups

variable {sha256 : List UInt8 → List UInt8} {config : Mapping}

theorem placed_keys (groups : List Group) (reserved : List String) :
    (placed sha256 groups reserved).map (fun pair => (pair.1.key, pair.2)) =
      allocations sha256 (groups.map Group.key) reserved := by
  induction groups generalizing reserved with
  | nil => rfl
  | cons group rest ih =>
    rw [placed, List.map_cons, List.map_cons, allocations, ih]
    rfl

theorem mem_placed {groups : List Group} {reserved : List String} {pair : Group × String}
    (member : pair ∈ placed sha256 groups reserved) : pair.1 ∈ groups := by
  induction groups generalizing reserved with
  | nil => contradiction
  | cons group rest ih =>
    rw [placed, List.mem_cons] at member
    obtain rfl | later := member
    · exact List.mem_cons_self
    · exact List.mem_cons_of_mem _ (ih later)

theorem resolveGroups_eq (distinct : DistinctNames config) (groups : List Group)
    (reserved : List String) : resolveGroups sha256 groups reserved config =
      mapProviders (relocateBy (placed sha256 groups reserved)) config := by
  induction groups generalizing config reserved with
  | nil => exact (mapProviders_id fun _ _ _ _ _ => rfl).symm
  | cons group rest ih =>
    rw [resolveGroups, foldl_setProviderPath distinct,
      ih (distinct.mapProviders (keepsNames_setPathAt _ _)),
      mapProviders_mapProviders]
    rfl

theorem relocateBy_eq {pairs : List (Group × String)} {section_ : Section} {entry : Value × Value}
    {path : String} (same : ∀ pair ∈ pairs, (section_, entry.1) ∈ pair.1.providers → pair.2 = path) :
    relocateBy pairs section_ entry =
      if ∃ pair ∈ pairs, (section_, entry.1) ∈ pair.1.providers
        then (entry.1, setPath entry.2 path) else entry := by
  induction pairs generalizing entry with
  | nil => simp [relocateBy]
  | cons pair rest ih =>
    obtain ⟨here, later⟩ := List.forall_mem_cons.mp same
    have next : relocateBy (pair :: rest) section_ entry =
        relocateBy rest section_ (setPathAt pair.2 pair.1.providers section_ entry) := rfl
    rw [next]
    by_cases member : (section_, entry.1) ∈ pair.1.providers
    · have moved : setPathAt pair.2 pair.1.providers section_ entry =
          (entry.1, setPath entry.2 path) := by rw [setPathAt, if_pos member, here member]
      have others : relocateBy rest section_ (entry.1, setPath entry.2 path) = _ :=
        ih later
      have inside : ∃ other ∈ pair :: rest, (section_, entry.1) ∈ other.1.providers :=
        ⟨pair, List.mem_cons_self, member⟩
      rw [moved, others, if_pos inside, setPath_setPath, ite_self]
    · have stays : setPathAt pair.2 pair.1.providers section_ entry = entry := by
        rw [setPathAt, if_neg member]
      have split : (∃ other ∈ pair :: rest, (section_, entry.1) ∈ other.1.providers) ↔
          ∃ other ∈ rest, (section_, entry.1) ∈ other.1.providers := by simp [member]
      rw [stays, ih later]
      simp only [split]

end Groups

/-- The path that a source gets. -/
abbrev Allocation : Type := String → String → Option String

def newPath (paths : Allocation) (claim : PathClaim) : Option String :=
  claim.url.bind (paths claim.destination)

def relocateClaim (paths : Allocation) (claim : PathClaim) : PathClaim :=
  { claim with destination := (newPath paths claim).getD claim.destination }

namespace Filesystem

variable (files : Filesystem) (root : Text)

def relocateEntry (paths : Allocation) (section_ : Section) (entry : Value × Value) : Value × Value :=
  match (files.pathClaim root section_ entry).bind (newPath paths) with
  | some path => (entry.1, setPath entry.2 path)
  | none => entry

/-- The config with the new paths and no other change. -/
def relocate (paths : Allocation) (config : Mapping) : Mapping :=
  mapProviders (files.relocateEntry root paths) config

/-- The paths of the sources of contested destinations. -/
def allocation (sha256 : List UInt8 → List UInt8) (config : Mapping) : Allocation :=
  fun destination url =>
    OrderedMap.get (allocations sha256 ((files.scan root config).groups.map Group.key)
      (files.scan root config).reserved) (toLex (destination, url))

variable {files root} {sha256 : List UInt8 → List UInt8} {config : Mapping}

theorem pathClaim_name {section_ : Section} {entry : Value × Value} {claim : PathClaim}
    (claims : files.pathClaim root section_ entry = some claim) :
    claim.section_ = section_ ∧ claim.name = entry.1 := by
  unfold pathClaim at claims
  split at claims
  · contradiction
  · split at claims
    · contradiction
    · cases claims
      exact ⟨rfl, rfl⟩

theorem mem_pathClaims {claim : PathClaim} : claim ∈ files.pathClaims root config ↔
    ∃ section_ providers, providersIn config section_ = some providers ∧
      ∃ entry ∈ providers, files.pathClaim root section_ entry = some claim := by
  have listed : ∀ section_, section_ ∈ sections := by
    intro section_
    cases section_ <;> decide
  simp only [pathClaims, List.mem_flatMap, List.mem_filterMap]
  constructor
  · rintro ⟨section_, -, entry, member, claims⟩
    cases reads : providersIn config section_ with
    | none => simp [reads] at member
    | some providers => exact ⟨section_, providers, reads, entry, by simpa [reads] using member, claims⟩
  · rintro ⟨section_, providers, reads, entry, member, claims⟩
    exact ⟨section_, listed section_, entry, by simpa [reads] using member, claims⟩

theorem mem_providers_iff (distinct : DistinctNames config) {section_ : Section} {providers : Mapping}
    (reads : providersIn config section_ = some providers) {entry : Value × Value}
    (member : entry ∈ providers) {group : Group} (inside : group ∈ (files.scan root config).groups) :
    (section_, entry.1) ∈ group.providers ↔ ∃ claim,
      files.pathClaim root section_ entry = some claim ∧ claim.destination = group.destination ∧
        claim.url = some group.url := by
  obtain ⟨-, isGroup, -⟩ := ((files.scanned root config).mem_groups group).mp inside
  rw [isGroup, mem_claimants]
  constructor
  · rintro ⟨claim, listed, here, url, named⟩
    obtain ⟨own, others, readsOwn, other, memberOwn, claims⟩ := mem_pathClaims.mp listed
    obtain ⟨sectionIs, nameIs⟩ := pathClaim_name claims
    obtain ⟨rfl, sameName⟩ : own = section_ ∧ other.1 = entry.1 := by
      rw [sectionIs, nameIs] at named
      exact Prod.mk.inj named
    rw [reads] at readsOwn
    cases readsOwn
    have same : other = entry := by
      have first := (OrderedMap.get_eq_some_iff (distinct _ _ reads) entry.1 entry.2).mpr member
      have second := (OrderedMap.get_eq_some_iff (distinct _ _ reads) other.1 other.2).mpr memberOwn
      rw [sameName, first] at second
      exact Prod.ext sameName (Option.some.inj second).symm
    exact ⟨claim, same ▸ claims, here, url⟩
  · rintro ⟨claim, claims, here, url⟩
    obtain ⟨sectionIs, nameIs⟩ := pathClaim_name claims
    refine ⟨claim, mem_pathClaims.mpr ⟨section_, providers, reads, entry, member, claims⟩, here, url, ?_⟩
    rw [sectionIs, nameIs]

theorem resolveBelow_eq (distinct : DistinctNames config) : files.resolveBelow sha256 root config =
      files.relocate root (files.allocation root sha256 config) config := by
  rw [resolveBelow, resolveGroups_eq distinct, relocate]
  refine mapProviders_congr fun section_ providers reads entry member => ?_
  let groups := (files.scan root config).groups
  let reserved := (files.scan root config).reserved
  have inGroup : ∀ pair ∈ placed sha256 groups reserved, (section_, entry.1) ∈ pair.1.providers ↔
      ∃ claim, files.pathClaim root section_ entry = some claim ∧
        claim.destination = pair.1.destination ∧ claim.url = some pair.1.url :=
    fun pair inside => mem_providers_iff distinct reads member (mem_placed inside)
  have given : ∀ pair ∈ placed sha256 groups reserved,
      (pair.1.key, pair.2) ∈ allocations sha256 (groups.map Group.key) reserved := by
    intro pair inside
    rw [← placed_keys]
    exact List.mem_map.mpr ⟨pair, inside, rfl⟩
  have distinctKeys : Distinct (allocations sha256 (groups.map Group.key) reserved) := by
    rw [Distinct, keys_allocations]
    exact (files.scanned root config).groups_sorted.imp fun less => less.ne
  -- Every group that the entry is in has the path that its claim is given.
  have path : ∀ pair ∈ placed sha256 groups reserved, (section_, entry.1) ∈ pair.1.providers →
      (files.pathClaim root section_ entry).bind (newPath (files.allocation root sha256 config)) =
        some pair.2 := by
    intro pair inside here
    obtain ⟨claim, claims, destination, url⟩ := (inGroup pair inside).mp here
    rw [claims, Option.bind_some, newPath, url, Option.bind_some, destination]
    exact (OrderedMap.get_eq_some_iff distinctKeys _ _).mpr (given pair inside)
  cases new : (files.pathClaim root section_ entry).bind
      (newPath (files.allocation root sha256 config)) with
  | some own =>
    have same : ∀ pair ∈ placed sha256 groups reserved,
        (section_, entry.1) ∈ pair.1.providers → pair.2 = own :=
      fun pair inside here => Option.some.inj ((path pair inside here).symm.trans new)
    rw [relocateBy_eq same, relocateEntry, new, if_pos]
    obtain ⟨claim, claims, isNew⟩ := Option.bind_eq_some_iff.mp new
    obtain ⟨url, hasUrl, found⟩ := Option.bind_eq_some_iff.mp isNew
    have listed := OrderedMap.mem_of_get found
    rw [← placed_keys] at listed
    obtain ⟨pair, inside, is_⟩ := List.mem_map.mp listed
    obtain ⟨keyIs, -⟩ := Prod.mk.inj is_
    obtain ⟨destinationIs, urlIs⟩ := Prod.mk.inj (toLex_inj.mp keyIs)
    refine ⟨pair, inside, (inGroup pair inside).mpr ⟨claim, claims, destinationIs.symm, ?_⟩⟩
    rw [hasUrl, urlIs]
  | none =>
    have away : ∀ pair ∈ placed sha256 groups reserved, (section_, entry.1) ∉ pair.1.providers := by
      intro pair inside here
      rw [path pair inside here] at new
      contradiction
    have same : ∀ pair ∈ placed sha256 groups reserved,
        (section_, entry.1) ∈ pair.1.providers → pair.2 = "" :=
      fun pair inside here => absurd here (away pair inside)
    rw [relocateBy_eq same, relocateEntry, new, if_neg]
    rintro ⟨pair, inside, here⟩
    exact away pair inside here

end Filesystem

end ClashVerge.RuntimeBundle
