import Mathlib.Data.Prod.Lex
import ClashVerge.RuntimeBundle.Allocation

/-!
# Conflicts between provider paths

Providers that download different urls to one destination would share a cache. The first pass notes
who claims which destination, and the second gives every url of a contested destination a path of
its own. Both passes go through sorted maps, so only the set of claims counts.
-/

namespace ClashVerge.RuntimeBundle

open OrderedMap (keys)
open Service.ProviderSync (Section)
open UnixPath (Text)
open Yaml

structure ProviderPathOwners where
  /-- The providers of each url. -/
  remote : List (String × List (Section × Value))
  local_ : Bool

def noOwners : ProviderPathOwners := ⟨[], false⟩

/-- A provider with a destination, and the url that it downloads. -/
structure PathClaim where
  section_ : Section
  name : Value
  destination : String
  url : Option String
deriving DecidableEq

/-- What the first pass knows. -/
structure Scan where
  paths : List (String × ProviderPathOwners)
  reserved : List String

namespace Filesystem

variable (files : Filesystem) (root : Text)

def claimedDestination (remote : Bool) (rawPath : Text) : Except Refusal String :=
  if remote then files.providerDestination root rawPath
  else
    match files.localProviderSource root rawPath with
    | .error _ => files.providerDestination root rawPath
    | .ok source =>
      match destinationBelowRoot root source with
      | .error _ => files.providerDestination root rawPath
      | .ok destination => .ok destination

/-- What an entry of a section claims. A remote provider without a url counts as a local one. -/
def pathClaim (section_ : Section) (entry : Value × Value) : Option PathClaim :=
  match field entry.2 "path" with
  | none => none
  | some rawPath =>
    match files.claimedDestination root (isRemote entry.2) rawPath.toList with
    | .error _ => none
    | .ok destination =>
      some ⟨section_, entry.1, destination, if isRemote entry.2 then field entry.2 "url" else none⟩

def pathClaims (config : Mapping) : List PathClaim :=
  sections.flatMap fun section_ =>
    ((providersIn config section_).getD []).filterMap (files.pathClaim root section_)

end Filesystem

namespace Scan

/-- Before the first provider only the geo files are reserved. -/
def start : Scan := ⟨[], geoAssets⟩

def ownersOf (scan : Scan) (destination : String) : ProviderPathOwners :=
  (OrderedMap.get scan.paths destination).getD noOwners

def claim (scan : Scan) (claim : PathClaim) : Scan :=
  let owners := scan.ownersOf claim.destination
  let owners := match claim.url with
    | some url =>
      let providers := (OrderedMap.get owners.remote url).getD []
      { owners with
        remote := SortedMap.insert owners.remote url (providers ++ [(claim.section_, claim.name)]) }
    | none => { owners with local_ := true }
  { paths := SortedMap.insert scan.paths claim.destination owners
    reserved := claim.destination :: scan.reserved }

end Scan

/-- A source of a contested destination, with its providers. -/
structure Group where
  destination : String
  url : String
  providers : List (Section × Value)

/-- The sources of a destination, if it is contested. -/
def groupsOf (entry : String × ProviderPathOwners) : List Group :=
  if entry.2.local_ = true ∨ entry.2.remote.length < 2 then []
  else entry.2.remote.map fun source => ⟨entry.1, source.1, source.2⟩

/-- The sources that get a path, in the order in which they do. -/
def Scan.groups (scan : Scan) : List Group := scan.paths.flatMap groupsOf

def setProviderPath (path : String) (config : Mapping) (provider : Section × Value) : Mapping :=
  match providersIn config provider.1 with
  | none => config
  | some providers =>
    match OrderedMap.get providers provider.2 with
    | none => config
    | some value =>
      setProviders config provider.1 (OrderedMap.insert providers provider.2 (setPath value path))

def resolveGroups (sha256 : List UInt8 → List UInt8) : List Group → List String → Mapping → Mapping
  | [], _, config => config
  | group :: rest, reserved, config =>
    let replacement := allocateProviderDestination sha256 group.destination group.url reserved
    resolveGroups sha256 rest (replacement :: reserved)
      (group.providers.foldl (setProviderPath replacement) config)

namespace Filesystem

variable (files : Filesystem) (sha256 : List UInt8 → List UInt8)

def scan (root : Text) (config : Mapping) : Scan :=
  (files.pathClaims root config).foldl Scan.claim .start

def resolveBelow (root : Text) (config : Mapping) : Mapping :=
  resolveGroups sha256 (files.scan root config).groups (files.scan root config).reserved config

def resolveProviderPathConflicts (configRoot : Text) (config : Mapping) : Except Refusal Mapping :=
  match files.canonicalize configRoot with
  | .error message => .error (.io message)
  | .ok root => .ok (files.resolveBelow sha256 root config)

end Filesystem

/-- Several urls claim the destination, and no local provider does. -/
structure Contested (claims : List PathClaim) (destination : String) : Prop where
  remote : ∀ claim ∈ claims, claim.destination = destination → claim.url ≠ none
  differ : ∃ first ∈ claims, ∃ second ∈ claims,
    first.destination = destination ∧ second.destination = destination ∧ first.url ≠ second.url

def claimants (claims : List PathClaim) (destination url : String) : List (Section × Value) :=
  (claims.filter fun claim => claim.destination = destination ∧ claim.url = some url).map
    fun claim => (claim.section_, claim.name)

/-- What the first pass knows of some claims. -/
structure Scanned (claims : List PathClaim) (scan : Scan) : Prop where
  sorted : SortedMap.Sorted scan.paths
  sortedUrls : ∀ destination, SortedMap.Sorted (scan.ownersOf destination).remote
  known : ∀ destination, destination ∈ keys scan.paths ↔
    ∃ claim ∈ claims, claim.destination = destination
  local_ : ∀ destination, (scan.ownersOf destination).local_ = true ↔
    ∃ claim ∈ claims, claim.destination = destination ∧ claim.url = none
  remote : ∀ destination url, OrderedMap.get (scan.ownersOf destination).remote url =
    if claimants claims destination url = [] then none else some (claimants claims destination url)
  reserved : ∀ path, path ∈ scan.reserved ↔
    path ∈ geoAssets ∨ ∃ claim ∈ claims, claim.destination = path

theorem scanned_start : Scanned [] .start where
  sorted := SortedMap.sorted_nil
  sortedUrls _ := SortedMap.sorted_nil
  known destination := by simp [Scan.start]
  local_ destination := by simp [Scan.ownersOf, Scan.start, noOwners]
  remote destination url := by simp [Scan.ownersOf, Scan.start, noOwners, claimants]
  reserved path := by simp [Scan.start]

theorem claimants_append (claims : List PathClaim) (claim : PathClaim) (destination url : String) :
    claimants (claims ++ [claim]) destination url = claimants claims destination url ++
      if claim.destination = destination ∧ claim.url = some url
        then [(claim.section_, claim.name)] else [] := by
  rw [claimants, List.filter_append, List.map_append, claimants]
  by_cases here : claim.destination = destination ∧ claim.url = some url
  · simp [here.1, here.2]
  · rw [if_neg here, List.filter_cons_of_neg (by simpa using here)]
    rfl

section Claim

variable {claims : List PathClaim} {scan : Scan}

theorem Scan.ownersOf_claim_other {claim : PathClaim} {destination : String} (other : claim.destination ≠ destination) :
    (scan.claim claim).ownersOf destination = scan.ownersOf destination := by
  simp only [Scan.ownersOf, Scan.claim, SortedMap.get_insert, if_neg other]

theorem Scan.ownersOf_claim_remote {claim : PathClaim} {url : String} (remote : claim.url = some url) :
    (scan.claim claim).ownersOf claim.destination =
      { scan.ownersOf claim.destination with
        remote := SortedMap.insert (scan.ownersOf claim.destination).remote url
          ((OrderedMap.get (scan.ownersOf claim.destination).remote url).getD [] ++
            [(claim.section_, claim.name)]) } := by
  simp only [Scan.ownersOf, Scan.claim, SortedMap.get_insert, remote, if_true, Option.getD_some]

theorem Scan.ownersOf_claim_local {claim : PathClaim} (local_ : claim.url = none) :
    (scan.claim claim).ownersOf claim.destination =
      { scan.ownersOf claim.destination with local_ := true } := by
  simp only [Scan.ownersOf, Scan.claim, SortedMap.get_insert, local_, if_true, Option.getD_some]

theorem Scanned.append (scanned : Scanned claims scan) (claim : PathClaim) :
    Scanned (claims ++ [claim]) (scan.claim claim) where
  sorted := scanned.sorted.insert _ _
  sortedUrls destination := by
    by_cases here : claim.destination = destination
    · subst here
      cases url : claim.url with
      | none =>
        rw [Scan.ownersOf_claim_local url]
        exact scanned.sortedUrls _
      | some url' =>
        rw [Scan.ownersOf_claim_remote url]
        exact (scanned.sortedUrls _).insert _ _
    · rw [Scan.ownersOf_claim_other here]
      exact scanned.sortedUrls destination
  known destination := by
    simp only [Scan.claim, SortedMap.mem_keys_insert, scanned.known]
    simp [or_and_right, exists_or, or_comm, eq_comm]
  local_ destination := by
    have split : (∃ other ∈ claims ++ [claim], other.destination = destination ∧ other.url = none) ↔
        (∃ other ∈ claims, other.destination = destination ∧ other.url = none) ∨
          claim.destination = destination ∧ claim.url = none := by
      simp [or_and_right, exists_or]
    rw [split, ← scanned.local_]
    by_cases here : claim.destination = destination
    · subst here
      cases url : claim.url with
      | none => simp [Scan.ownersOf_claim_local url]
      | some url' => simp [Scan.ownersOf_claim_remote url]
    · rw [Scan.ownersOf_claim_other here]
      simp [here]
  remote destination url := by
    rw [claimants_append]
    by_cases here : claim.destination = destination
    · subst here
      cases own : claim.url with
      | none =>
        rw [Scan.ownersOf_claim_local own, scanned.remote]
        simp
      | some url' =>
        rw [Scan.ownersOf_claim_remote own, SortedMap.get_insert]
        by_cases same : url' = url
        · subst same
          rw [scanned.remote]
          by_cases none_ : claimants claims claim.destination url' = []
          · simp [none_]
          · simp [none_]
        · simp [same, scanned.remote]
    · rw [Scan.ownersOf_claim_other here, scanned.remote]
      simp [here]
  reserved path := by
    simp only [Scan.claim, List.mem_cons, scanned.reserved]
    simp [or_and_right, exists_or, or_comm, or_left_comm, eq_comm]

theorem scanned_foldl {claims more : List PathClaim} {scan : Scan} (scanned : Scanned claims scan) :
    Scanned (claims ++ more) (more.foldl Scan.claim scan) := by
  induction more generalizing claims scan with
  | nil => simpa using scanned
  | cons claim rest ih =>
    rw [List.append_cons]
    exact ih (scanned.append claim)

theorem Filesystem.scanned (files : Filesystem) (root : Text) (config : Mapping) :
    Scanned (files.pathClaims root config) (files.scan root config) :=
  scanned_foldl scanned_start

end Claim

section Groups

variable {claims others : List PathClaim} {scan scan' : Scan}

theorem mem_claimants {destination url : String} {provider : Section × Value} :
    provider ∈ claimants claims destination url ↔ ∃ claim ∈ claims,
      claim.destination = destination ∧ claim.url = some url ∧
        (claim.section_, claim.name) = provider := by
  simp [claimants, and_assoc]

theorem claimants_eq_nil {destination url : String} : claimants claims destination url = [] ↔
    ∀ claim ∈ claims, claim.destination = destination → claim.url ≠ some url := by
  simp [claimants]

theorem two_le_length_iff {entries : List (String × List (Section × Value))}
    (distinct : OrderedMap.Distinct entries) : 2 ≤ entries.length ↔
      ∃ first ∈ keys entries, ∃ second ∈ keys entries, first ≠ second := by
  match entries, distinct with
  | [], _ => simp
  | [entry], _ => simp
  | first :: second :: rest, distinct =>
    obtain ⟨fresh, -⟩ := OrderedMap.distinct_cons.mp distinct
    refine iff_of_true (by simp) ⟨first.1, by simp, second.1, by simp, fun same => fresh ?_⟩
    rw [same]
    exact List.mem_cons_self

theorem Scanned.contested_iff (scanned : Scanned claims scan) (destination : String) :
    Contested claims destination ↔ ¬ ((scan.ownersOf destination).local_ = true ∨
      (scan.ownersOf destination).remote.length < 2) := by
  have urlOf : ∀ url, url ∈ keys (scan.ownersOf destination).remote ↔
      ∃ claim ∈ claims, claim.destination = destination ∧ claim.url = some url := by
    intro url
    rw [← OrderedMap.contains_iff, OrderedMap.contains, scanned.remote]
    by_cases none_ : claimants claims destination url = []
    · rw [if_pos none_]
      rw [claimants_eq_nil] at none_
      simpa using none_
    · rw [if_neg none_]
      rw [claimants_eq_nil] at none_
      simpa using none_
  have distinct := (scanned.sortedUrls destination).distinct
  rw [not_or, Bool.not_eq_true, not_lt, ← Bool.not_eq_true, scanned.local_]
  constructor
  · rintro ⟨remote, first, one, second, two, here, there, differ⟩
    refine ⟨?_, ?_⟩
    · rintro ⟨claim, member, own, local_⟩
      exact remote claim member own local_
    · obtain ⟨firstUrl, firstIs⟩ := Option.ne_none_iff_exists'.mp (remote first one here)
      obtain ⟨secondUrl, secondIs⟩ := Option.ne_none_iff_exists'.mp (remote second two there)
      have firstIn := (urlOf firstUrl).mpr ⟨first, one, here, firstIs⟩
      have secondIn := (urlOf secondUrl).mpr ⟨second, two, there, secondIs⟩
      have apart : firstUrl ≠ secondUrl := by
        rintro rfl
        exact differ (firstIs.trans secondIs.symm)
      exact (two_le_length_iff distinct).mpr ⟨firstUrl, firstIn, secondUrl, secondIn, apart⟩
  · rintro ⟨notLocal, long⟩
    obtain ⟨firstUrl, firstIn, secondUrl, secondIn, apart⟩ := (two_le_length_iff distinct).mp long
    obtain ⟨first, one, here, firstIs⟩ := (urlOf firstUrl).mp firstIn
    obtain ⟨second, two, there, secondIs⟩ := (urlOf secondUrl).mp secondIn
    refine ⟨fun claim member own local_ => notLocal ⟨claim, member, own, local_⟩, first, one, second,
      two, here, there, fun same => ?_⟩
    rw [firstIs, secondIs] at same
    exact apart (Option.some.inj same)

theorem Scanned.mem_groups (scanned : Scanned claims scan) (group : Group) :
    group ∈ scan.groups ↔ Contested claims group.destination ∧
      group.providers = claimants claims group.destination group.url ∧ group.providers ≠ [] := by
  obtain ⟨destination, url, providers⟩ := group
  dsimp only
  have source : (url, providers) ∈ (scan.ownersOf destination).remote ↔
      providers = claimants claims destination url ∧ providers ≠ [] := by
    rw [← OrderedMap.get_eq_some_iff (scanned.sortedUrls destination).distinct, scanned.remote]
    split
    · rename_i none_
      exact iff_of_false (by simp) fun both => both.2 (both.1.trans none_)
    · rename_i some_
      constructor
      · intro same
        cases same
        exact ⟨rfl, some_⟩
      · rintro ⟨rfl, -⟩
        rfl
  rw [scanned.contested_iff, ← source, Scan.groups, List.mem_flatMap]
  constructor
  · rintro ⟨⟨own, owners⟩, inside, member⟩
    have found := (OrderedMap.get_eq_some_iff scanned.sorted.distinct _ _).mpr inside
    have same : scan.ownersOf own = owners := by rw [Scan.ownersOf, found]; rfl
    unfold groupsOf at member
    split at member
    · contradiction
    · rename_i contested
      obtain ⟨⟨ownUrl, ownProviders⟩, listed, is_⟩ := List.mem_map.mp member
      obtain ⟨rfl, rfl, rfl⟩ := Group.mk.inj is_
      rw [same]
      exact ⟨contested, listed⟩
  · rintro ⟨contested, listed⟩
    have some_ : ∃ owners, OrderedMap.get scan.paths destination = some owners := by
      cases found : OrderedMap.get scan.paths destination with
      | some owners => exact ⟨owners, rfl⟩
      | none =>
        rw [Scan.ownersOf, found] at listed
        contradiction
    obtain ⟨owners, found⟩ := some_
    have same : scan.ownersOf destination = owners := by rw [Scan.ownersOf, found]; rfl
    rw [same] at contested listed
    refine ⟨(destination, owners), OrderedMap.mem_of_get found, ?_⟩
    rw [groupsOf, if_neg contested]
    exact List.mem_map.mpr ⟨(url, providers), listed, rfl⟩

def Group.key (group : Group) : String ×ₗ String := toLex (group.destination, group.url)

theorem Scanned.groups_sorted (scanned : Scanned claims scan) :
    (scan.groups.map Group.key).Pairwise (· < ·) := by
  have inside : ∀ entry key, key ∈ (groupsOf entry).map Group.key → (ofLex key).1 = entry.1 := by
    rintro entry key member
    obtain ⟨group, listed, rfl⟩ := List.mem_map.mp member
    unfold groupsOf at listed
    split at listed
    · contradiction
    · obtain ⟨source, -, rfl⟩ := List.mem_map.mp listed
      rfl
  rw [Scan.groups, List.map_flatMap, List.pairwise_flatMap]
  constructor
  · rintro ⟨destination, owners⟩ member
    have found := (OrderedMap.get_eq_some_iff scanned.sorted.distinct _ _).mpr member
    have sorted := scanned.sortedUrls destination
    rw [Scan.ownersOf, found, Option.getD_some, SortedMap.Sorted, keys, List.pairwise_map] at sorted
    unfold groupsOf
    split
    · exact List.Pairwise.nil
    · rw [List.map_map, List.pairwise_map]
      refine sorted.imp ?_
      intro first second less
      exact Prod.Lex.toLex_lt_toLex.mpr (.inr ⟨rfl, less⟩)
  · have sorted := scanned.sorted
    rw [SortedMap.Sorted, keys, List.pairwise_map] at sorted
    refine sorted.imp fun {first second} less one memberOne two memberTwo => ?_
    refine Prod.Lex.lt_iff.mpr (.inl ?_)
    rw [inside first one memberOne, inside second two memberTwo]
    exact less

def Sources (claims : List PathClaim) (source : String ×ₗ String) : Prop :=
  Contested claims (ofLex source).1 ∧
    ∃ claim ∈ claims, claim.destination = (ofLex source).1 ∧ claim.url = some (ofLex source).2

theorem Scanned.mem_groupKeys (scanned : Scanned claims scan) (source : String ×ₗ String) :
    source ∈ scan.groups.map Group.key ↔ Sources claims source := by
  rw [List.mem_map]
  constructor
  · rintro ⟨group, member, rfl⟩
    obtain ⟨contested, providers, some_⟩ := (scanned.mem_groups group).mp member
    refine ⟨contested, ?_⟩
    rw [providers, ne_eq, claimants_eq_nil] at some_
    simpa [Group.key] using some_
  · rintro ⟨contested, claim, member, here, url⟩
    refine ⟨⟨(ofLex source).1, (ofLex source).2,
      claimants claims (ofLex source).1 (ofLex source).2⟩, ?_, rfl⟩
    refine (scanned.mem_groups _).mpr ⟨contested, rfl, ?_⟩
    rw [ne_eq, claimants_eq_nil]
    exact fun none_ => none_ claim member here url

theorem Contested.perm {destination : String} (perm : claims.Perm others)
    (contested : Contested claims destination) : Contested others destination where
  remote claim member := contested.remote claim (perm.mem_iff.mpr member)
  differ := by
    obtain ⟨first, one, second, two, here⟩ := contested.differ
    exact ⟨first, perm.mem_iff.mp one, second, perm.mem_iff.mp two, here⟩

theorem Sources.perm {source : String ×ₗ String} (perm : claims.Perm others)
    (sources : Sources claims source) : Sources others source := by
  obtain ⟨contested, claim, member, here⟩ := sources
  exact ⟨contested.perm perm, claim, perm.mem_iff.mp member, here⟩

theorem Scanned.groupKeys_eq (scanned : Scanned claims scan) (scanned' : Scanned others scan')
    (perm : claims.Perm others) : scan.groups.map Group.key = scan'.groups.map Group.key := by
  have same : ∀ source, source ∈ scan.groups.map Group.key ↔ source ∈ scan'.groups.map Group.key := by
    intro source
    rw [scanned.mem_groupKeys, scanned'.mem_groupKeys]
    exact ⟨Sources.perm perm, Sources.perm perm.symm⟩
  have keysPerm := (List.perm_ext_iff_of_nodup (scanned.groups_sorted.imp fun less => less.ne)
    (scanned'.groups_sorted.imp fun less => less.ne)).mpr same
  exact keysPerm.eq_of_pairwise (fun first second _ _ less more => absurd more less.asymm)
    scanned.groups_sorted scanned'.groups_sorted

end Groups

end ClashVerge.RuntimeBundle
