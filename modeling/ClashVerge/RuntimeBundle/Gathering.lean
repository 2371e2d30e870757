import ClashVerge.RuntimeBundle.Parts

/-!
# What the demands come to

What has been gathered is told by the demands so far: the destinations are those asked for, every
downloaded one is recorded, and a file is copied if it came first to its destination. A demand is
met if it fits to those before it.
-/

namespace ClashVerge.RuntimeBundle

open Service.ProviderSync (Section)
open UnixPath (Text)
open Yaml

def owner (demands : List Demand) (destination : String) : Option Demand :=
  demands.find? fun demand => demand.destination = some destination

structure Gathers (demands : List Demand) (gathered : Gathered) : Prop where
  destinations : ∀ destination, destination ∈ gathered.destinations ↔
    ∃ demand ∈ demands, demand.destination = some destination
  remotes : ∀ destination url, .remote destination url ∈ demands ↔
    ∃ declared ∈ gathered.remoteProviders, declared.destination = destination ∧ declared.url = url
  assets : ∀ asset, asset ∈ gathered.assets ↔
    owner demands asset.destination = some (.copied asset.source.toList asset.destination)
  /-- A downloaded provider came first to its destination. -/
  owned : ∀ destination url, .remote destination url ∈ demands →
    owner demands destination = some (.remote destination url)

/-- A demand can be met after some others. -/
def Fits (before : List Demand) : Demand → Prop
  | .untouched => True
  | .refused _ => False
  | .remote destination url =>
    (∀ other, .remote destination other ∈ before → other = url) ∧
      ((∃ other, .remote destination other ∈ before) ∨
        ∀ source, .copied source destination ∉ before)
  | .copied _ _ => True

theorem gathers_empty : Gathers [] .empty where
  destinations destination := by simp [Gathered.empty]
  remotes destination url := by simp [Gathered.empty]
  assets asset := by simp [Gathered.empty, owner]
  owned destination url member := absurd member List.not_mem_nil

theorem owner_append (before : List Demand) (demand : Demand) (destination : String) :
    owner (before ++ [demand]) destination =
      (owner before destination).or
        (if demand.destination = some destination then some demand else none) := by
  rw [owner, List.find?_append, List.find?_singleton]
  simp [owner]

variable {before : List Demand} {destination : String}

theorem owner_eq_none (free : ¬ ∃ demand ∈ before, demand.destination = some destination) :
    owner before destination = none := by
  rw [owner, List.find?_eq_none]
  intro demand member is_
  exact free ⟨demand, member, by simpa using is_⟩

theorem owner_isSome (taken : ∃ demand ∈ before, demand.destination = some destination) :
    ∃ first, owner before destination = some first := by
  obtain ⟨demand, member, is_⟩ := taken
  exact Option.isSome_iff_exists.mp (List.find?_isSome.mpr ⟨demand, member, by simpa using is_⟩)

theorem owner_append_of_some {first : Demand}
    (owns : owner before destination = some first) (demand : Demand) :
    owner (before ++ [demand]) destination = some first := by
  rw [owner_append, owns]
  rfl

theorem taken_append {demand : Demand} :
    (∃ other ∈ before ++ [demand], other.destination = some destination) ↔
      (∃ other ∈ before, other.destination = some destination) ∨
        demand.destination = some destination := by
  simp [or_and_right, exists_or]

section Meet

variable {section_ : Section} {name : Value} {before : List Demand} {gathered after : Gathered}

section

variable (gathers : Gathers before gathered)
include gathers

/-- What is gathered stays so if the destination of a demand has an owner already, or if there is no
destination, unless the demand is a new downloaded provider. -/
theorem Gathers.skip {demand : Demand}
    (taken : ∀ destination, demand.destination = some destination →
      destination ∈ gathered.destinations)
    (known : ∀ destination url, demand = .remote destination url → demand ∈ before) :
    Gathers (before ++ [demand]) gathered := by
  have remotes : ∀ destination url, .remote destination url ∈ before ++ [demand] ↔
      .remote destination url ∈ before := by
    intro destination url
    rw [List.mem_append, List.mem_singleton]
    exact ⟨fun either => either.elim id fun is_ => is_ ▸ known destination url is_.symm, .inl⟩
  refine ⟨fun destination => ?_, fun destination url => ?_, fun asset => ?_,
    fun destination url member => ?_⟩
  · rw [taken_append, ← gathers.destinations]
    exact ⟨.inl, fun either => either.elim id (taken destination)⟩
  · rw [remotes, gathers.remotes]
  · rw [gathers.assets, owner_append]
    by_cases asked : demand.destination = some asset.destination
    · obtain ⟨first, owns⟩ := owner_isSome ((gathers.destinations _).mp (taken _ asked))
      rw [owns]
      rfl
    · simp [asked]
  · exact owner_append_of_some (gathers.owned _ _ ((remotes _ _).mp member)) demand

theorem Gathers.copy (source : Text) (destination : String) :
    Gathers (before ++ [.copied source destination]) (gathered.copy source destination) := by
  by_cases taken : destination ∈ gathered.destinations
  · rw [Gathered.copy, if_pos taken]
    refine gathers.skip (fun other is_ => ?_) (fun other url is_ => ?_)
    · cases is_
      exact taken
    · contradiction
  · have free := owner_eq_none fun some_ => taken ((gathers.destinations destination).mpr some_)
    rw [Gathered.copy, if_neg taken]
    refine ⟨fun other => ?_, fun other url => ?_, fun asset => ?_, fun other url member => ?_⟩
    · rw [taken_append, ← gathers.destinations, List.mem_cons, or_comm]
      simp [Demand.destination, eq_comm]
    · simp [← gathers.remotes]
    · rw [List.mem_append, List.mem_singleton, gathers.assets, owner_append]
      obtain ⟨own, target⟩ := asset
      by_cases same : destination = target
      · subst same
        rw [free]
        simp [Demand.destination, eq_comm, ← String.toList_inj]
      · simp [Demand.destination, same, Ne.symm same]
    · have earlier : Demand.remote other url ∈ before := by simpa using member
      exact owner_append_of_some (gathers.owned _ _ earlier) _

theorem Gathers.declare {destination url : String}
    (declared : gathered.declareRemote section_ name destination url = .ok after) :
    Fits before (.remote destination url) ∧ Gathers (before ++ [.remote destination url]) after := by
  unfold Gathered.declareRemote at declared
  cases found : gathered.remoteProviders.find? (·.destination = destination) with
  | some recorded =>
    have here : recorded.destination = destination := by simpa using List.find?_some found
    have first : .remote destination recorded.url ∈ before :=
      (gathers.remotes _ _).mpr ⟨recorded, List.mem_of_find?_eq_some found, here, rfl⟩
    have owns := gathers.owned _ _ first
    simp only [found] at declared
    split at declared
    · rename_i same
      cases declared
      subst same
      refine ⟨⟨fun other member => ?_, .inl ⟨_, first⟩⟩,
        gathers.skip (fun other is_ => ?_) (fun _ _ _ => first)⟩
      · have both := owns.symm.trans (gathers.owned _ _ member)
        exact (Demand.remote.inj (Option.some.inj both)).2.symm
      · rw [gathers.destinations]
        exact ⟨_, first, is_⟩
    · contradiction
  | none =>
    simp only [found] at declared
    split at declared
    · contradiction
    · rename_i free
      cases declared
      have unclaimed : ∀ demand ∈ before, demand.destination ≠ some destination :=
        fun demand member is_ => free ((gathers.destinations _).mpr ⟨demand, member, is_⟩)
      have none_ := owner_eq_none fun some_ => free ((gathers.destinations destination).mpr some_)
      refine ⟨⟨fun other member => absurd rfl (unclaimed _ member),
        .inr fun source member => unclaimed _ member rfl⟩, ?_, ?_, ?_, ?_⟩
      · intro other
        rw [taken_append, ← gathers.destinations, List.mem_cons, or_comm]
        simp [Demand.destination, eq_comm]
      · intro other url'
        simp [gathers.remotes, or_and_right, exists_or, eq_comm]
      · intro asset
        rw [gathers.assets, owner_append]
        by_cases same : destination = asset.destination
        · rw [← same, none_]
          simp [Demand.destination]
        · simp [Demand.destination, same]
      · intro other url' member
        obtain earlier | is_ := List.mem_append.mp member
        · exact owner_append_of_some (gathers.owned _ _ earlier) _
        · obtain ⟨rfl, rfl⟩ : other = destination ∧ url' = url := by simpa using is_
          rw [owner_append, none_]
          simp [Demand.destination]

theorem Gathers.declares {destination url : String} (fits : Fits before (.remote destination url)) :
    ∃ after, gathered.declareRemote section_ name destination url = .ok after := by
  obtain ⟨sameUrl, alone⟩ := fits
  unfold Gathered.declareRemote
  cases found : gathered.remoteProviders.find? (·.destination = destination) with
  | some recorded =>
    have here : recorded.destination = destination := by simpa using List.find?_some found
    have first : .remote destination recorded.url ∈ before :=
      (gathers.remotes _ _).mpr ⟨recorded, List.mem_of_find?_eq_some found, here, rfl⟩
    exact ⟨gathered, if_pos (sameUrl _ first)⟩
  | none =>
    have unrecorded : ∀ other, .remote destination other ∉ before := by
      intro other member
      obtain ⟨recorded, inside, here, -⟩ := (gathers.remotes _ _).mp member
      have not_ := List.find?_eq_none.mp found recorded inside
      exact not_ (by simpa using here)
    have free : destination ∉ gathered.destinations := by
      intro taken
      obtain ⟨demand, member, is_⟩ := (gathers.destinations _).mp taken
      cases demand with
      | untouched | refused refusal => contradiction
      | remote own other =>
        cases is_
        exact unrecorded other member
      | copied source own =>
        cases is_
        obtain ⟨other, recorded⟩ | uncopied := alone
        · exact unrecorded other recorded
        · exact uncopied source member
    simp only [if_neg free]
    exact ⟨_, rfl⟩

theorem Gathers.meet {demand : Demand} (met : gathered.meet section_ name demand = .ok after) :
    Fits before demand ∧ Gathers (before ++ [demand]) after := by
  cases demand with
  | untouched =>
    cases met
    exact ⟨trivial, gathers.skip (fun _ is_ => by contradiction) (fun _ _ is_ => by contradiction)⟩
  | refused refusal => contradiction
  | remote destination url => exact gathers.declare met
  | copied source destination =>
    cases met
    exact ⟨trivial, gathers.copy source destination⟩

theorem Gathers.meets {demand : Demand}
    (fits : Fits before demand) : ∃ after, gathered.meet section_ name demand = .ok after := by
  cases demand with
  | untouched => exact ⟨gathered, rfl⟩
  | refused refusal => exact absurd fits id
  | remote destination url => exact gathers.declares fits
  | copied source destination => exact ⟨_, rfl⟩

end

end Meet

def FitAll (before : List Demand) : List Demand → Prop
  | [] => True
  | demand :: rest => Fits before demand ∧ FitAll (before ++ [demand]) rest

theorem fitAll_append {before first second : List Demand} :
    FitAll before (first ++ second) ↔ FitAll before first ∧ FitAll (before ++ first) second := by
  induction first generalizing before with
  | nil => simp [FitAll]
  | cons demand rest ih =>
    rw [List.cons_append, FitAll, FitAll, ih, and_assoc, List.append_assoc]
    rfl

variable {before demands : List Demand}

theorem FitAll.not_refused (fit : FitAll before demands)
    (refusal : Refusal) : .refused refusal ∉ demands := by
  induction demands generalizing before with
  | nil => exact List.not_mem_nil
  | cons demand rest ih =>
    obtain ⟨fits, others⟩ := fit
    rw [List.mem_cons, not_or]
    exact ⟨fun is_ => by simp [← is_, Fits] at fits, ih others⟩

/-- Where nothing is refused, every destination has one url and none is both copied and downloaded,
every demand fits. -/
theorem fitAll_of_apart (accepted : ∀ refusal, .refused refusal ∉ demands)
    (oneUrl : ∀ destination first second, .remote destination first ∈ before ++ demands →
      .remote destination second ∈ before ++ demands → first = second)
    (apart : ∀ source destination url, .copied source destination ∈ before ++ demands →
      .remote destination url ∉ before ++ demands) : FitAll before demands := by
  induction demands generalizing before with
  | nil => trivial
  | cons demand rest ih =>
    rw [List.append_cons] at oneUrl apart
    refine ⟨?_, ih (fun refusal member => accepted refusal ?_) oneUrl apart⟩
    · have here : demand ∈ before ++ [demand] ++ rest := by simp
      have earlier : ∀ other ∈ before, other ∈ before ++ [demand] ++ rest := fun other member =>
        List.mem_append_left rest (List.mem_append_left [demand] member)
      cases demand with
      | untouched => trivial
      | refused refusal => exact accepted refusal List.mem_cons_self
      | copied source destination => trivial
      | remote destination url =>
        exact ⟨fun other member => oneUrl destination other url (earlier _ member) here,
          .inr fun source member => apart source destination url (earlier _ member) here⟩
    · exact List.mem_cons_of_mem _ member

/-- Downloaded providers fit before the files of their section, if one url is asked for and what was
copied before was downloaded before too. -/
theorem fitAll_of_remote (remote : ∀ demand ∈ demands, demand.isRemote = true)
    (oneUrl : ∀ destination first second, .remote destination first ∈ before ++ demands →
      .remote destination second ∈ before ++ demands → first = second)
    (known : ∀ source destination url, .copied source destination ∈ before →
      .remote destination url ∈ demands → ∃ other, .remote destination other ∈ before) :
    FitAll before demands := by
  induction demands generalizing before with
  | nil => trivial
  | cons demand rest ih =>
    obtain ⟨isRemote, others⟩ := List.forall_mem_cons.mp remote
    rw [List.append_cons] at oneUrl
    cases demand with
    | untouched | refused refusal | copied source destination => contradiction
    | remote destination url =>
      refine ⟨⟨fun other member => oneUrl destination other url (by simp [member]) (by simp), ?_⟩,
        ih others oneUrl fun source own other copied asked => ?_⟩
      · by_cases copied : ∃ source, .copied source destination ∈ before
        · obtain ⟨source, copied⟩ := copied
          exact .inl (known source destination url copied List.mem_cons_self)
        · exact .inr (not_exists.mp copied)
      · have earlier : Demand.copied source own ∈ before := by simpa using copied
        obtain ⟨recorded, member⟩ := known source own other earlier (List.mem_cons_of_mem _ asked)
        exact ⟨recorded, List.mem_append_left _ member⟩

theorem fitAll_of_not_remote (accepted : ∀ refusal, .refused refusal ∉ demands)
    (others : ∀ demand ∈ demands, demand.isRemote = false) : FitAll before demands := by
  induction demands generalizing before with
  | nil => trivial
  | cons demand rest ih =>
    obtain ⟨here, later⟩ := List.forall_mem_cons.mp others
    refine ⟨?_, ih (fun refusal member => ?_) later⟩
    · cases demand with
      | untouched => trivial
      | refused refusal => exact accepted refusal List.mem_cons_self
      | copied source destination => trivial
      | remote destination url => contradiction
    · exact accepted refusal (List.mem_cons_of_mem _ member)

end ClashVerge.RuntimeBundle
