import ClashVerge.RuntimeBundle.Relocation

/-!
# What resolving the conflicts comes to

The paths depend on the claims alone, so the order of the providers and the spelling of their paths
do not matter. A new path reads back as itself if the directory of the contested destination is
clean; then resolving once more changes nothing.

A raw path may have backslashes, which become separators after its components have been checked.
Then the new path may read back as another destination, which is not reserved.
-/

namespace ClashVerge.RuntimeBundle

open OrderedMap (keys Distinct)
open Service.ProviderSync (Section)
open UnixPath (Text Clean directory fileName)
open Yaml

def CleanDirectory (destination : String) : Prop :=
  (fileName destination.toList).isSome = true ∧
    (directory destination.toList = [] ∨ Clean (directory destination.toList))

/-- Every source of a contested destination has a path of its own, which nobody has declared. -/
structure Allocates (claims : List PathClaim) (paths : Allocation) : Prop where
  sources : ∀ destination url, (paths destination url).isSome = true ↔
    Contested claims destination ∧
      ∃ claim ∈ claims, claim.destination = destination ∧ claim.url = some url
  apart : ∀ destination url other otherUrl path, paths destination url = some path →
    paths other otherUrl = some path → destination = other ∧ url = otherUrl
  fresh : ∀ destination url path, paths destination url = some path →
    path ∉ geoAssets ∧ ∀ claim ∈ claims, claim.destination ≠ path

theorem distinctNames_of_wellFormed {config : Mapping} (wellFormed : config.WellFormed) :
    DistinctNames config := by
  intro section_ providers reads
  obtain ⟨value, found, is_⟩ := Option.bind_eq_some_iff.mp reads
  exact (Mapping.wellFormed_of_asMapping (Mapping.wellFormed_of_get wellFormed found) is_).1

namespace Filesystem

variable (files : Filesystem) (root : Text)

/-- The same claims in each section, in another order and with other spellings. -/
def Respelled (config other : Mapping) : Prop :=
  ∀ section_, ∃ reordered, ((providersIn config section_).getD []).Perm reordered ∧
    List.Forall₂
      (fun first second => files.pathClaim root section_ first = files.pathClaim root section_ second)
      reordered ((providersIn other section_).getD [])

variable {files root} {sha256 : List UInt8 → List UInt8} {config other : Mapping}

theorem claim_normalized {claim : PathClaim} (claims : claim ∈ files.pathClaims root config) :
    ∃ relative, normalizedDestination relative = .ok claim.destination := by
  obtain ⟨section_, providers, reads, entry, member, is_⟩ := mem_pathClaims.mp claims
  unfold pathClaim at is_
  split at is_
  · contradiction
  · split at is_
    · contradiction
    · rename_i destination found
      cases is_
      unfold claimedDestination at found
      split at found
      · exact providerDestination_normalized found
      · split at found
        · exact providerDestination_normalized found
        · split at found
          · exact providerDestination_normalized found
          · rename_i own below
            cases found
            obtain ⟨relative, -, normalized⟩ := destinationBelowRoot_eq_ok.mp below
            exact ⟨relative, normalized⟩

theorem allocation_mem {destination url path : String}
    (gives : files.allocation root sha256 config destination url = some path) :
    (toLex (destination, url), path) ∈ allocations sha256
      ((files.scan root config).groups.map Group.key) (files.scan root config).reserved :=
  OrderedMap.mem_of_get gives

theorem allocation_isSome (destination url : String) :
    (files.allocation root sha256 config destination url).isSome = true ↔
      Sources (files.pathClaims root config) (toLex (destination, url)) := by
  rw [← (files.scanned root config).mem_groupKeys, allocation, ← OrderedMap.contains,
    OrderedMap.contains_iff, keys_allocations]

theorem allocates : Allocates (files.pathClaims root config)
    (files.allocation root sha256 config) where
  sources := allocation_isSome
  apart destination url other otherUrl path first second := by
    have one := allocation_mem first
    have two := allocation_mem second
    have same := List.inj_on_of_nodup_map allocations_distinct one two rfl
    exact Prod.mk.inj (toLex_inj.mp (Prod.mk.inj same).1)
  fresh destination url path gives := by
    have free := (mem_allocations (allocation_mem gives)).1
    rw [(files.scanned root config).reserved, not_or] at free
    exact ⟨free.1, fun claim member same => free.2 ⟨claim, member, same⟩⟩

theorem allocation_perm (perm : (files.pathClaims root config).Perm (files.pathClaims root other)) :
    files.allocation root sha256 config = files.allocation root sha256 other := by
  have keysSame := (files.scanned root config).groupKeys_eq (files.scanned root other) perm
  have reserved : ∀ path, path ∈ (files.scan root config).reserved ↔
      path ∈ (files.scan root other).reserved := by
    intro path
    simp only [(files.scanned root config).reserved, (files.scanned root other).reserved,
      perm.mem_iff]
  funext destination url
  rw [allocation, allocation, keysSame, allocations_congr reserved]

theorem Respelled.perm (respelled : files.Respelled root config other) :
    (files.pathClaims root config).Perm (files.pathClaims root other) := by
  refine List.Perm.flatMap_left sections fun section_ _ => ?_
  obtain ⟨reordered, perm, same⟩ := respelled section_
  refine (perm.filterMap _).trans (List.Perm.of_eq ?_)
  clear perm
  generalize (providersIn other section_).getD [] = entries at same
  induction same with
  | nil => rfl
  | cons head tail ih =>
    rw [List.filterMap_cons, List.filterMap_cons, head, ih]

theorem pathClaim_setPath {section_ : Section} {entry : Value × Value} {claim : PathClaim}
    {url : String} (claims : files.pathClaim root section_ entry = some claim)
    (remote : claim.url = some url) (path : String) :
    files.pathClaim root section_ (entry.1, setPath entry.2 path) =
      (files.providerDestination root path.toList).toOption.map fun destination =>
        { claim with destination := destination } := by
  unfold pathClaim at claims
  split at claims
  · contradiction
  · rename_i rawPath reads
    split at claims
    · contradiction
    · cases claims
      dsimp only at remote
      split at remote
      · rename_i isRemote_
        simp only [pathClaim, field_setPath reads, isRemote_setPath, isRemote_, claimedDestination,
          if_true, field_setPath_other (show "url" ≠ "path" by decide), remote]
        cases files.providerDestination root path.toList <;> rfl
      · contradiction

theorem pathClaim_relocateEntry {section_ : Section} {first second : Value × Value}
    (same : files.pathClaim root section_ first = files.pathClaim root section_ second)
    (paths : Allocation) :
    files.pathClaim root section_ (files.relocateEntry root paths section_ first) =
      files.pathClaim root section_ (files.relocateEntry root paths section_ second) := by
  unfold relocateEntry
  rw [← same]
  cases new : (files.pathClaim root section_ first).bind (newPath paths) with
  | none => exact same
  | some path =>
    obtain ⟨claim, claims, isNew⟩ := Option.bind_eq_some_iff.mp new
    obtain ⟨url, remote, -⟩ := Option.bind_eq_some_iff.mp isNew
    dsimp only
    rw [pathClaim_setPath claims remote, pathClaim_setPath (same ▸ claims) remote]

theorem Respelled.relocate (respelled : files.Respelled root config other) (paths : Allocation) :
    files.Respelled root (files.relocate root paths config) (files.relocate root paths other) := by
  intro section_
  obtain ⟨reordered, perm, same⟩ := respelled section_
  have mapped : ∀ config, (providersIn (files.relocate root paths config) section_).getD [] =
      ((providersIn config section_).getD []).map (files.relocateEntry root paths section_) := by
    intro config
    rw [Filesystem.relocate, providersIn_mapProviders]
    cases providersIn config section_ <;> rfl
  rw [mapped, mapped]
  refine ⟨reordered.map (files.relocateEntry root paths section_), perm.map _, ?_⟩
  rw [List.forall₂_map_left_iff, List.forall₂_map_right_iff]
  exact same.imp fun first second here => pathClaim_relocateEntry here paths

/-- Each new path reads back as itself. -/
def Stable (files : Filesystem) (root : Text) (claims : List PathClaim) (paths : Allocation) : Prop :=
  ∀ claim ∈ claims, ∀ path, newPath paths claim = some path →
    files.providerDestination root path.toList = .ok path

theorem pathClaims_relocate {paths : Allocation}
    (stable : files.Stable root (files.pathClaims root config) paths) :
    files.pathClaims root (files.relocate root paths config) =
      (files.pathClaims root config).map (relocateClaim paths) := by
  have entryClaim : ∀ section_ providers, providersIn config section_ = some providers →
      ∀ entry ∈ providers,
        files.pathClaim root section_ (files.relocateEntry root paths section_ entry) =
          (files.pathClaim root section_ entry).map (relocateClaim paths) := by
    intro section_ providers reads entry member
    unfold relocateEntry
    cases claims : files.pathClaim root section_ entry with
    | none => simp [claims]
    | some claim =>
      rw [Option.bind_some, Option.map_some, relocateClaim]
      cases new : newPath paths claim with
      | none => simp [claims]
      | some path =>
        obtain ⟨url, remote, -⟩ := Option.bind_eq_some_iff.mp new
        have listed := mem_pathClaims.mpr ⟨section_, providers, reads, entry, member, claims⟩
        dsimp only
        rw [pathClaim_setPath claims remote, stable claim listed path new]
        rfl
  rw [pathClaims, pathClaims, List.map_flatMap]
  refine List.flatMap_congr fun section_ _ => ?_
  rw [relocate, providersIn_mapProviders]
  cases reads : providersIn config section_ with
  | none => rfl
  | some providers =>
    rw [Option.map_some, Option.getD_some, Option.getD_some, List.filterMap_map, List.map_filterMap]
    exact List.filterMap_congr fun entry member => entryClaim section_ providers reads entry member

theorem not_contested_map {claims : List PathClaim} {paths : Allocation}
    (allocates : Allocates claims paths) (destination : String) :
    ¬ Contested (claims.map (relocateClaim paths)) destination := by
  rintro ⟨remote, _, movedFirst, _, movedSecond, here, there, differ⟩
  obtain ⟨first, one, rfl⟩ := List.mem_map.mp movedFirst
  obtain ⟨second, two, rfl⟩ := List.mem_map.mp movedSecond
  have given : ∀ claim path, newPath paths claim = some path →
      ∃ url, claim.url = some url ∧ paths claim.destination url = some path :=
    fun claim path new => Option.bind_eq_some_iff.mp new
  simp only [relocateClaim] at here there differ
  cases firstNew : newPath paths first with
  | some path =>
    rw [firstNew, Option.getD_some] at here
    subst here
    obtain ⟨url, firstUrl, gives⟩ := given first path firstNew
    cases secondNew : newPath paths second with
    | some other =>
      rw [secondNew, Option.getD_some] at there
      subst there
      obtain ⟨otherUrl, secondUrl, also⟩ := given second other secondNew
      rw [firstUrl, secondUrl, (allocates.apart _ _ _ _ _ gives also).2] at differ
      exact differ rfl
    | none =>
      rw [secondNew, Option.getD_none] at there
      exact (allocates.fresh _ _ _ gives).2 second two there
  | none =>
    rw [firstNew, Option.getD_none] at here
    cases secondNew : newPath paths second with
    | some other =>
      rw [secondNew, Option.getD_some] at there
      subst there
      obtain ⟨otherUrl, -, also⟩ := given second other secondNew
      exact (allocates.fresh _ _ _ also).2 first one here
    | none =>
      rw [secondNew, Option.getD_none] at there
      -- Nobody has moved away, so the destination was contested before.
      have contested : Contested claims destination := by
        refine ⟨fun claim member own local_ => ?_, first, one, second, two, here, there, differ⟩
        have unmoved : newPath paths claim = none := by rw [newPath, local_, Option.bind_none]
        have stays : relocateClaim paths claim = claim := by rw [relocateClaim, unmoved]; rfl
        exact remote claim (List.mem_map.mpr ⟨claim, member, stays⟩) own local_
      obtain ⟨url, firstUrl⟩ := Option.ne_none_iff_exists'.mp (contested.remote first one here)
      have moves := (allocates.sources destination url).mpr ⟨contested, first, one, here, firstUrl⟩
      rw [newPath, firstUrl, Option.bind_some, here] at firstNew
      rw [firstNew] at moves
      contradiction

theorem resolveBelow_of_not_contested
    (none_ : ∀ destination, ¬ Contested (files.pathClaims root config) destination) :
    files.resolveBelow sha256 root config = config := by
  have empty : (files.scan root config).groups = [] := by
    rw [List.eq_nil_iff_forall_not_mem]
    intro group member
    exact none_ _ (((files.scanned root config).mem_groups group).mp member).1
  rw [resolveBelow, empty, resolveGroups]

theorem stable_of_cleanDirectory (clean : ∀ destination,
    Contested (files.pathClaims root config) destination → CleanDirectory destination) :
    files.Stable root (files.pathClaims root config) (files.allocation root sha256 config) := by
  intro claim member path new
  obtain ⟨url, -, gives⟩ := Option.bind_eq_some_iff.mp new
  have contested := ((allocation_isSome _ _).mp (Option.isSome_of_eq_some gives)).1
  obtain ⟨-, sequence, isCandidate⟩ := mem_allocations (allocation_mem gives)
  obtain ⟨relative, normalized⟩ := claim_normalized member
  have cleanPath : Clean path.toList := by
    rw [isCandidate]
    exact (clean_candidate_iff (destination_ne_nil normalized) (destination_plain normalized)).mpr
      (clean _ contested)
  have plain : '\\' ∉ path.toList := by
    rw [isCandidate]
    exact candidate_plain
  rw [providerDestination_of_clean cleanPath plain, String.ofList_toList]

/-- The conflicts between provider paths are resolved. -/
structure ConflictsResolved (files : Filesystem) (sha256 : List UInt8 → List UInt8)
    (configRoot root : Text) (config resolved : Mapping) : Prop where
  separated : ∀ destination, ¬ Contested (files.pathClaims root resolved) destination
  /-- The new paths, which are the same for every order and spelling. -/
  relocated : ∃ paths, Allocates (files.pathClaims root config) paths ∧
    resolved = files.relocate root paths config ∧
    ∀ other, other.WellFormed → files.Respelled root config other →
      files.resolveProviderPathConflicts sha256 configRoot other =
          .ok (files.relocate root paths other) ∧
        files.Respelled root resolved (files.relocate root paths other)
  idempotent : files.resolveProviderPathConflicts sha256 configRoot resolved = .ok resolved

/-- The conflicts are resolved if each contested destination has a clean directory. -/
theorem conflicts_resolved (files : Filesystem) (sha256 : List UInt8 → List UInt8)
    (configRoot root : Text) (config resolved : Mapping) (wellFormed : config.WellFormed)
    (canonical : files.canonicalize configRoot = .ok root)
    (resolves : files.resolveProviderPathConflicts sha256 configRoot config = .ok resolved)
    (clean : ∀ destination, Contested (files.pathClaims root config) destination →
      CleanDirectory destination) :
    files.ConflictsResolved sha256 configRoot root config resolved := by
  have below : ∀ config, files.resolveProviderPathConflicts sha256 configRoot config =
      .ok (files.resolveBelow sha256 root config) := by
    intro config
    rw [resolveProviderPathConflicts, canonical]
  have relocated : ∀ config : Mapping, config.WellFormed → files.resolveBelow sha256 root config =
      files.relocate root (files.allocation root sha256 config) config :=
    fun config wellFormed => resolveBelow_eq (distinctNames_of_wellFormed wellFormed)
  rw [below, relocated config wellFormed] at resolves
  cases resolves
  have separated : ∀ destination, ¬ Contested (files.pathClaims root
      (files.relocate root (files.allocation root sha256 config) config)) destination := by
    intro destination
    rw [pathClaims_relocate (stable_of_cleanDirectory clean)]
    exact not_contested_map allocates destination
  refine ⟨separated, ⟨files.allocation root sha256 config, allocates, rfl,
    fun other otherWellFormed respelled => ?_⟩, ?_⟩
  · rw [below, relocated other otherWellFormed, ← allocation_perm respelled.perm]
    exact ⟨rfl, respelled.relocate _⟩
  · rw [below, resolveBelow_of_not_contested separated]

def downloaded (name url path : String) : Value × Value :=
  (.string name, .mapping [(.string "type", .string "http"), (.string "url", .string url),
    (.string "path", .string path)])

/-- Two urls for one file, with two spellings of its path. -/
def sharedConfig : Mapping :=
  [(.string "proxy-providers", .mapping [downloaded "one" "https://one.example/p.yaml" "p.yaml"]),
    (.string "rule-providers", .mapping [downloaded "two" "https://two.example/p.yaml" "./p.yaml"])]

def sharedDigest (input : List UInt8) : List UInt8 :=
  if input = digestInput "p.yaml" "https://one.example/p.yaml" then
    [110, 246, 135, 113, 145, 76, 9, 16, 51, 25, 187, 138, 249, 138, 175, 149, 48, 8, 233, 116, 192,
      192, 203, 191, 138, 136, 218, 57, 36, 91, 80, 2]
  else if input = digestInput "p.yaml" "https://two.example/p.yaml" then
    [159, 187, 5, 253, 48, 54, 224, 13, 247, 21, 191, 142, 244, 83, 250, 193, 163, 48, 3, 209, 37, 0,
      56, 183, 90, 52, 159, 26, 192, 221, 15, 179]
  else []

theorem conflicts_resolved_shared :
    plainFiles.ConflictsResolved sharedDigest "/verge".toList "/verge".toList sharedConfig
      (plainFiles.resolveBelow sharedDigest "/verge".toList sharedConfig) := by
  have claims : plainFiles.pathClaims "/verge".toList sharedConfig =
      [⟨.proxyProviders, .string "one", "p.yaml", some "https://one.example/p.yaml"⟩,
        ⟨.ruleProviders, .string "two", "p.yaml", some "https://two.example/p.yaml"⟩] := by decide
  refine conflicts_resolved plainFiles sharedDigest _ _ _ _ ?_ rfl rfl fun destination contested => ?_
  · simp [Mapping.WellFormed, sharedConfig, downloaded, Value.WellFormedEntries, Value.WellFormed,
      OrderedMap.Distinct]
  · rw [claims] at contested
    obtain ⟨first, member, -, -, here, -⟩ := contested.differ
    have same : destination = "p.yaml" := by
      rw [← here]
      simp only [List.mem_cons, List.not_mem_nil, or_false] at member
      obtain rfl | rfl := member <;> rfl
    rw [same]
    exact ⟨by decide, .inl (by decide)⟩

theorem relocateEntry_url (paths : Allocation) (section_ : Section) (entry : Value × Value)
    {claim : PathClaim} (claims : files.pathClaim root section_
      (files.relocateEntry root paths section_ entry) = some claim) :
    claim.url = if isRemote entry.2 then field entry.2 "url" else none := by
  have own : claim.url = if isRemote (files.relocateEntry root paths section_ entry).2
      then field (files.relocateEntry root paths section_ entry).2 "url" else none := by
    unfold pathClaim at claims
    split at claims
    · contradiction
    · split at claims
      · contradiction
      · cases claims
        rfl
  rw [own]
  unfold relocateEntry
  split
  · rw [isRemote_setPath, field_setPath_other (by decide)]
  · rfl

def thirdName (sha256 : List UInt8 → List UInt8) : Text :=
  "cvr-".toList ++ digest sha256 "./p" "https://one.example/p"

/-- A path with a backslash is contested, and a third provider has the name that its new path reads
back as. -/
def backslashEntries (sha256 : List UInt8 → List UInt8) : Mapping :=
  [downloaded "one" "https://one.example/p" ".\\p", downloaded "two" "https://two.example/p" ".\\p",
    downloaded "three" "https://three.example/p" (String.ofList (thirdName sha256))]

def backslashConfig (sha256 : List UInt8 → List UInt8) : Mapping :=
  [(.string "proxy-providers", .mapping (backslashEntries sha256))]

theorem candidateName_third (sha256 : List UInt8 → List UInt8) :
    candidateName sha256 "./p" "https://one.example/p" 0 = thirdName sha256 := by
  have none_ : dotExtension "./p" = [] := by decide
  rw [candidateName, none_, List.append_nil, suffix, if_pos rfl, List.append_nil]
  rfl

theorem providerDestination_third (sha256 : List UInt8 → List UInt8) (root : Text) :
    plainFiles.providerDestination root (thirdName sha256) = .ok (String.ofList (thirdName sha256)) := by
  rw [← candidateName_third]
  refine providerDestination_of_clean (fun piece member => ?_) fun member => ?_
  · rw [UnixPath.pieces_name fun inside => (plain_candidateName inside).1 rfl,
      List.mem_singleton] at member
    exact member ▸ proper_candidateName
  · have none_ : '\\' ∉ "./p".toList := by decide
    exact none_ ((plain_candidateName member).2 rfl)

theorem pathClaim_one : plainFiles.pathClaim "/verge".toList .proxyProviders
    (downloaded "one" "https://one.example/p" ".\\p") =
      some ⟨.proxyProviders, .string "one", "./p", some "https://one.example/p"⟩ := by decide

theorem pathClaim_three (sha256 : List UInt8 → List UInt8) :
    plainFiles.pathClaim "/verge".toList .proxyProviders
      (downloaded "three" "https://three.example/p" (String.ofList (thirdName sha256))) =
        some ⟨.proxyProviders, .string "three", String.ofList (thirdName sha256),
          some "https://three.example/p"⟩ := by
  have reads : field (downloaded "three" "https://three.example/p"
      (String.ofList (thirdName sha256))).2 "path" = some (String.ofList (thirdName sha256)) := rfl
  have remote : isRemote (downloaded "three" "https://three.example/p"
      (String.ofList (thirdName sha256))).2 = true := rfl
  have declares : field (downloaded "three" "https://three.example/p"
      (String.ofList (thirdName sha256))).2 "url" = some "https://three.example/p" := rfl
  simp only [pathClaim, reads, remote, declares, claimedDestination, if_true, String.toList_ofList,
    providerDestination_third]
  rfl

theorem providerDestination_one (sha256 : List UInt8 → List UInt8) (root : Text) :
    plainFiles.providerDestination root ("./".toList ++ thirdName sha256) =
      .ok (String.ofList (thirdName sha256)) := by
  have apart : '/' ∉ thirdName sha256 := by
    rw [← candidateName_third]
    exact fun inside => (plain_candidateName inside).1 rfl
  have plain : '\\' ∉ thirdName sha256 := by
    rw [← candidateName_third]
    intro member
    have none_ : '\\' ∉ "./p".toList := by decide
    exact none_ ((plain_candidateName member).2 rfl)
  have named : UnixPath.pieceComponent (thirdName sha256) = some (.normal (thirdName sha256)) := by
    rw [← candidateName_third]
    exact UnixPath.pieceComponent_of_proper proper_candidateName
  have pieces : UnixPath.pieces ("./".toList ++ thirdName sha256) = [['.'], thirdName sha256] := by
    have split := UnixPath.pieces_append_separator ['.'] (thirdName sha256)
    rw [UnixPath.pieces_name apart] at split
    exact split
  have components : UnixPath.components ("./".toList ++ thirdName sha256) =
      [.curDir, .normal (thirdName sha256)] := by
    have relative : UnixPath.isAbsolute ("./".toList ++ thirdName sha256) = false := rfl
    have dot : UnixPath.pieceComponent ['.'] = none := rfl
    simp only [UnixPath.components, relative, pieces, List.filterMap_cons, List.filterMap_nil, named,
      dot, List.head?_cons, if_true, Bool.false_eq_true, if_false]
  have relative : UnixPath.isAbsolute ("./".toList ++ thirdName sha256) = false := rfl
  have some_ : thirdName sha256 ≠ [] := List.cons_ne_nil _ _
  rw [providerDestination, components, relative]
  simp [normalizedDestination, normalNames, UnixPath.join, some_, slashes_of_not_mem plain]

theorem pathClaims_backslash (sha256 : List UInt8 → List UInt8) :
    plainFiles.pathClaims "/verge".toList (backslashConfig sha256) =
      [⟨.proxyProviders, .string "one", "./p", some "https://one.example/p"⟩,
        ⟨.proxyProviders, .string "two", "./p", some "https://two.example/p"⟩,
        ⟨.proxyProviders, .string "three", String.ofList (thirdName sha256),
          some "https://three.example/p"⟩] := by
  have second : plainFiles.pathClaim "/verge".toList .proxyProviders
      (downloaded "two" "https://two.example/p" ".\\p") =
        some ⟨.proxyProviders, .string "two", "./p", some "https://two.example/p"⟩ := by decide
  have proxies : providersIn (backslashConfig sha256) .proxyProviders =
      some (backslashEntries sha256) := rfl
  have rules : providersIn (backslashConfig sha256) .ruleProviders = none := rfl
  simp only [pathClaims, sections, List.flatMap_cons, List.flatMap_nil, proxies, rules,
    backslashEntries, Option.getD_some, Option.getD_none, List.filterMap_cons, List.filterMap_nil,
    List.append_nil, pathClaim_one, second, pathClaim_three]

theorem thirdName_ne (sha256 : List UInt8 → List UInt8) : String.ofList (thirdName sha256) ≠ "./p" := by
  intro same
  have texts := congrArg String.toList same
  rw [String.toList_ofList] at texts
  have starts : (thirdName sha256).head? = some 'c' := rfl
  rw [texts] at starts
  exact absurd starts (by decide)

theorem sources_backslash (sha256 : List UInt8 → List UInt8) (source : String ×ₗ String) :
    Sources (plainFiles.pathClaims "/verge".toList (backslashConfig sha256)) source ↔
      source = toLex ("./p", "https://one.example/p") ∨
        source = toLex ("./p", "https://two.example/p") := by
  have third := thirdName_ne sha256
  rw [pathClaims_backslash]
  constructor
  · rintro ⟨contested, claim, member, here, url⟩
    have pair : source = toLex ((ofLex source).1, (ofLex source).2) := rfl
    simp only [List.mem_cons, List.not_mem_nil, or_false] at member
    obtain rfl | rfl | rfl := member
    · rw [pair, ← here, ← Option.some.inj url]
      exact .inl rfl
    · rw [pair, ← here, ← Option.some.inj url]
      exact .inr rfl
    · -- Nobody else claims the third name.
      exfalso
      rw [← here] at contested
      obtain ⟨first, one, second, two, atFirst, atSecond, differ⟩ := contested.differ
      simp only [List.mem_cons, List.not_mem_nil, or_false] at one two
      obtain rfl | rfl | rfl := one
      · exact third atFirst.symm
      · exact third atFirst.symm
      · obtain rfl | rfl | rfl := two
        · exact third atSecond.symm
        · exact third atSecond.symm
        · exact differ rfl
  · have contested : Contested
        [⟨.proxyProviders, .string "one", "./p", some "https://one.example/p"⟩,
          ⟨.proxyProviders, .string "two", "./p", some "https://two.example/p"⟩,
          ⟨.proxyProviders, .string "three", String.ofList (thirdName sha256),
            some "https://three.example/p"⟩] "./p" := by
      refine ⟨fun claim member _ => ?_, _, List.mem_cons_self, _,
        List.mem_cons_of_mem _ List.mem_cons_self, rfl, rfl, by decide⟩
      simp only [List.mem_cons, List.not_mem_nil, or_false] at member
      obtain rfl | rfl | rfl := member <;> exact Option.some_ne_none _
    rintro (rfl | rfl)
    · exact ⟨contested, _, List.mem_cons_self, rfl, rfl⟩
    · exact ⟨contested, _, List.mem_cons_of_mem _ List.mem_cons_self, rfl, rfl⟩

theorem groups_backslash (sha256 : List UInt8 → List UInt8) :
    (plainFiles.scan "/verge".toList (backslashConfig sha256)).groups.map Group.key =
      [toLex ("./p", "https://one.example/p"), toLex ("./p", "https://two.example/p")] := by
  have scanned := plainFiles.scanned "/verge".toList (backslashConfig sha256)
  have sorted : [toLex ("./p", "https://one.example/p"),
      toLex ("./p", "https://two.example/p")].Pairwise (· < ·) := by
    simp only [List.pairwise_cons, List.Pairwise.nil, List.not_mem_nil, List.mem_singleton,
      forall_eq, false_imp_iff, implies_true, and_true]
    exact Prod.Lex.toLex_lt_toLex.mpr (.inr ⟨rfl, by decide⟩)
  have same : ∀ source, source ∈ (plainFiles.scan "/verge".toList
      (backslashConfig sha256)).groups.map Group.key ↔ source ∈
        [toLex ("./p", "https://one.example/p"), toLex ("./p", "https://two.example/p")] := by
    intro source
    rw [scanned.mem_groupKeys, sources_backslash]
    simp
  have perm := (List.perm_ext_iff_of_nodup (scanned.groups_sorted.imp fun less => less.ne)
    (sorted.imp fun less => less.ne)).mpr same
  exact perm.eq_of_pairwise (fun first second _ _ less more => absurd more less.asymm)
    scanned.groups_sorted sorted

theorem allocation_backslash (sha256 : List UInt8 → List UInt8) :
    plainFiles.allocation "/verge".toList sha256 (backslashConfig sha256) "./p"
        "https://one.example/p" = some (String.ofList ("./".toList ++ thirdName sha256)) := by
  have own : candidate sha256 "./p" "https://one.example/p" 0 =
      String.ofList ("./".toList ++ thirdName sha256) := by
    have path : UnixPath.withFileName "./p".toList (thirdName sha256) =
        "./".toList ++ thirdName sha256 := by
      have named : (UnixPath.fileName "./p".toList).isSome = true := by decide
      have parent : UnixPath.directory "./p".toList = ".".toList := by decide
      rw [UnixPath.withFileName, if_pos named, parent]
      rfl
    have plain : slashes (thirdName sha256) = thirdName sha256 := by
      rw [← candidateName_third]
      refine slashes_of_not_mem fun member => ?_
      have none_ : '\\' ∉ "./p".toList := by decide
      exact none_ ((plain_candidateName member).2 rfl)
    rw [candidate, candidateName_third, path, slashes_append, plain]
    rfl
  have free : candidate sha256 "./p" "https://one.example/p" 0 ∉
      (plainFiles.scan "/verge".toList (backslashConfig sha256)).reserved := by
    rw [own, (plainFiles.scanned _ _).reserved, pathClaims_backslash]
    have starts : ∀ path, path.toList.take 3 ≠ ['.', '/', 'c'] →
        String.ofList ("./".toList ++ thirdName sha256) ≠ path := by
      rintro path differs rfl
      exact differs (by rw [String.toList_ofList]; rfl)
    rintro (geo | ⟨claim, member, same⟩)
    · have all : ∀ path ∈ geoAssets, path.toList.take 3 ≠ ['.', '/', 'c'] := by decide
      exact starts _ (all _ geo) rfl
    · refine starts _ ?_ same.symm
      simp only [List.mem_cons, List.not_mem_nil, or_false] at member
      obtain rfl | rfl | rfl := member
      · decide
      · decide
      · rw [String.toList_ofList]
        have lead : (thirdName sha256).take 3 = ['c', 'v', 'r'] := rfl
        rw [lead]
        decide
  rw [allocation, groups_backslash, allocations, OrderedMap.get_cons, if_pos rfl]
  exact congrArg some ((allocated_of_free free).trans own)

theorem urls_backslash (sha256 : List UInt8 → List UInt8) (paths : Allocation) :
    ∀ claim ∈ plainFiles.pathClaims "/verge".toList
      (plainFiles.relocate "/verge".toList paths (backslashConfig sha256)), claim.url ≠ none := by
  have urls : ∀ entry ∈ backslashEntries sha256,
      (if isRemote entry.2 then field entry.2 "url" else none) ≠ none := by
    simp only [backslashEntries, List.forall_mem_cons]
    exact ⟨Option.some_ne_none _, Option.some_ne_none _, Option.some_ne_none _, by simp⟩
  intro claim member
  obtain ⟨section_, providers, reads, entry, inside, claims⟩ := mem_pathClaims.mp member
  rw [relocate, providersIn_mapProviders] at reads
  obtain ⟨old, found, rfl⟩ := Option.map_eq_some_iff.mp reads
  obtain ⟨before, listed, rfl⟩ := List.mem_map.mp inside
  rw [relocateEntry_url paths section_ before claims]
  cases section_ with
  | ruleProviders =>
    have none_ : providersIn (backslashConfig sha256) .ruleProviders = none := rfl
    rw [none_] at found
    contradiction
  | proxyProviders =>
    obtain rfl : backslashEntries sha256 = old := Option.some.inj found
    exact urls before listed

theorem mem_relocated_backslash {sha256 : List UInt8 → List UInt8} {paths : Allocation}
    {entry : Value × Value} (listed : entry ∈ backslashEntries sha256) {claim : PathClaim}
    (claims : plainFiles.pathClaim "/verge".toList .proxyProviders
      (plainFiles.relocateEntry "/verge".toList paths .proxyProviders entry) = some claim) :
    claim ∈ plainFiles.pathClaims "/verge".toList
      (plainFiles.relocate "/verge".toList paths (backslashConfig sha256)) := by
  refine mem_pathClaims.mpr ⟨.proxyProviders, (backslashEntries sha256).map
    (plainFiles.relocateEntry "/verge".toList paths .proxyProviders), ?_,
    _, List.mem_map_of_mem listed, claims⟩
  rw [relocate, providersIn_mapProviders]
  rfl

/-- Whatever the digests are, the first provider then shares its cache with the third one. -/
theorem backslash_conflict_remains : ¬ ∃ sha256, plainFiles.ConflictsResolved sha256
    "/verge".toList "/verge".toList (backslashConfig sha256)
    (plainFiles.resolveBelow sha256 "/verge".toList (backslashConfig sha256)) := by
  rintro ⟨sha256, separated, -, -⟩
  have distinct : DistinctNames (backslashConfig sha256) := distinctNames_of_wellFormed (by
    simp [Mapping.WellFormed, backslashConfig, backslashEntries, downloaded,
      Value.WellFormedEntries, Value.WellFormed, OrderedMap.Distinct])
  have apart : some "https://one.example/p" ≠ some "https://three.example/p" := by decide
  rw [resolveBelow_eq distinct] at separated
  refine separated (String.ofList (thirdName sha256)) ⟨fun claim member _ =>
    urls_backslash sha256 _ claim member, ?_⟩
  refine ⟨⟨.proxyProviders, .string "one", String.ofList (thirdName sha256),
      some "https://one.example/p"⟩, mem_relocated_backslash List.mem_cons_self ?_,
    ⟨.proxyProviders, .string "three", String.ofList (thirdName sha256),
      some "https://three.example/p"⟩, mem_relocated_backslash
        (List.mem_cons_of_mem _ (List.mem_cons_of_mem _ List.mem_cons_self)) ?_, rfl, rfl, ?_⟩
  · have moved : newPath (plainFiles.allocation "/verge".toList sha256 (backslashConfig sha256))
        ⟨.proxyProviders, .string "one", "./p", some "https://one.example/p"⟩ =
          some (String.ofList ("./".toList ++ thirdName sha256)) := by
      rw [newPath, Option.bind_some, allocation_backslash]
    have text : (String.ofList ("./".toList ++ thirdName sha256)).toList =
        "./".toList ++ thirdName sha256 := String.toList_ofList
    have again := pathClaim_setPath pathClaim_one rfl
      (String.ofList ("./".toList ++ thirdName sha256))
    rw [text, providerDestination_one] at again
    rw [relocateEntry, pathClaim_one, Option.bind_some, moved]
    exact again
  · have stays : newPath (plainFiles.allocation "/verge".toList sha256 (backslashConfig sha256))
        ⟨.proxyProviders, .string "three", String.ofList (thirdName sha256),
          some "https://three.example/p"⟩ = none := by
      rw [newPath, Option.bind_some, ← Option.not_isSome_iff_eq_none, allocation_isSome,
        sources_backslash]
      rintro (same | same)
      · exact thirdName_ne sha256 (Prod.mk.inj (toLex_inj.mp same)).1
      · exact thirdName_ne sha256 (Prod.mk.inj (toLex_inj.mp same)).1
    rw [relocateEntry, pathClaim_three, Option.bind_some, stays]
    exact pathClaim_three sha256
  · exact apart

end Filesystem

end ClashVerge.RuntimeBundle
