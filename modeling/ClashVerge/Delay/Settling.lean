import ClashVerge.Delay.Batches
import ClashVerge.Delay.Ownership
import Mathlib.Algebra.Ring.Nat

/-!
# When a batch settles

The count of active batches of a group is the number of batches that have not been released. A
snapshot is dropped, and a notification queued, only where that number is zero; the release of the
last batch does both, so a view that reads again gets another object and every delay set so far.

The indices below the shared one are divided among the requests made and the workers that wait to
make one. Every turn that continues a test takes work away, and where work is left some turn can
continue it.
-/

namespace ClashVerge.Delay

open OrderedMap Transition
open UriParser (Text text)

/-! ## What calls do about groups -/

namespace Manager

/-- The two managers agree on what is kept about groups. -/
structure SameGroups (one other : Manager) : Prop where
  activeBatches : one.activeBatches = other.activeBatches
  groupSnapshots : one.groupSnapshots = other.groupSnapshots
  groupSetSnapshots : one.groupSetSnapshots = other.groupSetSnapshots
  pendingGroupUpdates : one.pendingGroupUpdates = other.pendingGroupUpdates
  groupFlushScheduled : one.groupFlushScheduled = other.groupFlushScheduled
  created : one.created = other.created
  queued : one.queued = other.queued

theorem SameGroups.refl (manager : Manager) : SameGroups manager manager :=
  ⟨rfl, rfl, rfl, rfl, rfl, rfl, rfl⟩

theorem SameGroups.active {one other : Manager} (same : SameGroups one other) (group : Text) :
    one.active group = other.active group := by
  rw [Manager.active, same.activeBatches, Manager.active]

end Manager

def Call.isSetDelay : Call → Bool
  | .setDelay _ _ _ _ _ => true
  | _ => false

namespace Manager

theorem sameGroups_setDelays {calls : List Call} (all : ∀ call ∈ calls, call.isSetDelay = true)
    (manager : Manager) : SameGroups (calls.foldl perform manager) manager := by
  induction calls generalizing manager with
  | nil => exact .refl manager
  | cons call rest ih =>
    have later := ih (fun each listed => all each (List.mem_cons_of_mem _ listed))
      (manager.perform call)
    have here := all call List.mem_cons_self
    cases call with
    | setDelay name group delay elapsed now =>
      exact ⟨later.activeBatches, later.groupSnapshots, later.groupSetSnapshots,
        later.pendingGroupUpdates, later.groupFlushScheduled, later.created, later.queued⟩
    | _ => contradiction

/-- Whatever is dropped or queued belongs to a group without an active batch. -/
structure Careful (before after : Manager) : Prop where
  kept : ∀ group snapshot, get before.groupSnapshots group = some snapshot →
    get after.groupSnapshots group = some snapshot ∨ after.active group = 0
  queued : ∃ groups, after.queued = before.queued ++ groups ∧
    ∀ group ∈ groups, after.active group = 0

theorem careful_of_same {before after : Manager}
    (snapshots : after.groupSnapshots = before.groupSnapshots)
    (queued : after.queued = before.queued) : Careful before after :=
  ⟨fun _ _ found => .inl (snapshots ▸ found), [], by rw [queued, List.append_nil],
    fun _ member => by contradiction⟩

theorem Careful.congr {before after other : Manager} (careful : Careful before after)
    (same : SameGroups other after) : Careful before other where
  kept group snapshot found := by
    rw [same.groupSnapshots, same.active]
    exact careful.kept group snapshot found
  queued := by
    obtain ⟨groups, equal, idle⟩ := careful.queued
    exact ⟨groups, same.queued.trans equal, fun group member => same.active group ▸ idle group member⟩

/-- What reading snapshots leaves alone, and that it drops none. -/
structure OnlyReads (before after : Manager) : Prop where
  activeBatches : after.activeBatches = before.activeBatches
  queued : after.queued = before.queued
  pendingGroupUpdates : after.pendingGroupUpdates = before.pendingGroupUpdates
  kept : ∀ group snapshot, get before.groupSnapshots group = some snapshot →
    get after.groupSnapshots group = some snapshot

theorem OnlyReads.trans {one two three : Manager} (first : OnlyReads one two)
    (second : OnlyReads two three) : OnlyReads one three :=
  ⟨second.activeBatches.trans first.activeBatches, second.queued.trans first.queued,
    second.pendingGroupUpdates.trans first.pendingGroupUpdates,
    fun group snapshot found => second.kept group snapshot (first.kept group snapshot found)⟩

theorem onlyReads_groupDelays (manager : Manager) (group : Text) :
    OnlyReads manager (manager.groupDelays group).2 := by
  unfold groupDelays
  cases found : get manager.groupSnapshots group with
  | some existing => exact ⟨rfl, rfl, rfl, fun _ _ read => read⟩
  | none =>
    refine ⟨rfl, rfl, rfl, fun other snapshot read => ?_⟩
    have different : other ≠ group := by
      rintro rfl
      rw [found] at read
      contradiction
    rw [← read]
    exact get_insert_other _ _ different

theorem onlyReads_collectSnapshots (names : List Text) (manager : Manager)
    (snapshots : List (Text × DelaySnapshot)) :
    OnlyReads manager (manager.collectSnapshots snapshots names).2 := by
  induction names generalizing manager snapshots with
  | nil => exact ⟨rfl, rfl, rfl, fun _ _ read => read⟩
  | cons name names ih =>
    exact (onlyReads_groupDelays manager name).trans (ih _ _)

theorem onlyReads_groupsDelays (manager : Manager) (groupKey : Text) :
    OnlyReads manager (manager.groupsDelays groupKey).2 := by
  unfold groupsDelays
  split
  · exact ⟨rfl, rfl, rfl, fun _ _ read => read⟩
  · have collected := onlyReads_collectSnapshots (namesOf groupKey) manager []
    exact ⟨collected.activeBatches, collected.queued, collected.pendingGroupUpdates, collected.kept⟩

theorem OnlyReads.careful {before after : Manager} (reads : OnlyReads before after) :
    Careful before after :=
  ⟨fun group snapshot found => .inl (reads.kept group snapshot found), [],
    by rw [reads.queued, List.append_nil], fun _ member => by contradiction⟩

theorem sameGroups_flushItems (manager : Manager) : SameGroups manager.flushItems manager := by
  unfold flushItems
  split <;> exact ⟨rfl, rfl, rfl, rfl, rfl, rfl, rfl⟩

theorem sameGroups_getDelayUpdate (manager : Manager) (name group : Text) (now : Int) :
    SameGroups (manager.getDelayUpdate name group now).2 manager := by
  unfold getDelayUpdate
  split
  · exact .refl manager
  · split <;> exact ⟨rfl, rfl, rfl, rfl, rfl, rfl, rfl⟩

theorem sameGroups_setUrl (manager : Manager) (group url : Text) (isValidUrl : Bool) :
    SameGroups (manager.setUrl group url isValidUrl) manager := by
  unfold setUrl
  split <;> exact ⟨rfl, rfl, rfl, rfl, rfl, rfl, rfl⟩

theorem sameGroups_removeGroupListener (manager : Manager) (group : Text) (listener : Nat) :
    SameGroups (manager.removeGroupListener group listener) manager := by
  unfold removeGroupListener
  split <;> exact ⟨rfl, rfl, rfl, rfl, rfl, rfl, rfl⟩

theorem sameGroups_or_reads {call : Call} (external : call.isExternal = true) (manager : Manager) :
    SameGroups (manager.perform call) manager ∨
      (∃ group, call = .groupDelays group) ∨ (∃ groupKey, call = .groupsDelays groupKey) ∨
      call = .flushGroups := by
  cases call with
  | setUrl group url isValidUrl => exact .inl (sameGroups_setUrl manager group url isValidUrl)
  | removeGroupListener group listener =>
    exact .inl (sameGroups_removeGroupListener manager group listener)
  | getDelayUpdate name group now =>
    exact .inl (sameGroups_getDelayUpdate manager name group now)
  | flushItems => exact .inl (sameGroups_flushItems manager)
  | groupDelays group => exact .inr (.inl ⟨group, rfl⟩)
  | groupsDelays groupKey => exact .inr (.inr (.inl ⟨groupKey, rfl⟩))
  | flushGroups => exact .inr (.inr (.inr rfl))
  | queueGroupNotification group | openBatch group | closeBatch group => contradiction
  | _ => exact .inl ⟨rfl, rfl, rfl, rfl, rfl, rfl, rfl⟩

theorem careful_perform {call : Call} (external : call.isExternal = true) (manager : Manager) :
    Careful manager (manager.perform call) := by
  rcases sameGroups_or_reads external manager with
    same | ⟨group, rfl⟩ | ⟨groupKey, rfl⟩ | rfl
  · exact careful_of_same same.groupSnapshots same.queued
  · exact (onlyReads_groupDelays manager group).careful
  · exact (onlyReads_groupsDelays manager groupKey).careful
  · simp only [perform, flushGroups]
    split <;> exact careful_of_same rfl rfl

theorem activeBatches_perform {call : Call} (external : call.isExternal = true)
    (manager : Manager) : (manager.perform call).activeBatches = manager.activeBatches := by
  rcases sameGroups_or_reads external manager with
    same | ⟨group, rfl⟩ | ⟨groupKey, rfl⟩ | rfl
  · exact same.activeBatches
  · exact (onlyReads_groupDelays manager group).activeBatches
  · exact (onlyReads_groupsDelays manager groupKey).activeBatches
  · simp only [perform, flushGroups]
    split <;> rfl

section

variable (manager : Manager)
include manager

theorem careful_queueGroupNotification (group : Text) :
    Careful manager (manager.queueGroupNotification group) := by
  unfold queueGroupNotification
  split
  · exact careful_of_same rfl rfl
  · rename_i idle
    have none_ : manager.active group = 0 := by omega
    refine ⟨fun other snapshot found => ?_, [group], rfl, ?_⟩
    · by_cases same : other = group
      · exact .inr (same ▸ none_)
      · exact .inl (by rw [get_erase, if_neg same, found])
    · intro other member
      obtain rfl := List.mem_singleton.mp member
      exact none_

theorem active_queueGroupNotification (group other : Text) :
    (manager.queueGroupNotification group).active other = manager.active other := by
  unfold queueGroupNotification
  split <;> rfl

theorem active_openBatch (group other : Text) : (manager.openBatch group).active other =
      if other = group then manager.active group + 1 else manager.active other := by
  unfold active openBatch
  by_cases same : other = group
  · subst same
    simp [active]
  · simp [get_insert_other _ _ same, same]

theorem careful_openBatch (group : Text) : Careful manager (manager.openBatch group) :=
  careful_of_same rfl rfl

theorem active_erase (group other : Text) :
    { manager with activeBatches := erase manager.activeBatches group }.active other =
      if other = group then 0 else manager.active other := by
  unfold active
  rw [get_erase]
  split <;> rfl

theorem remaining_eq (group : Text) :
    (get manager.activeBatches group).getD 1 - 1 = manager.active group - 1 := by
  unfold active
  cases get manager.activeBatches group <;> rfl

theorem active_closeBatch (group other : Text) : (manager.closeBatch group).active other =
      if other = group then manager.active group - 1 else manager.active other := by
  rw [closeBatch, remaining_eq]
  split
  · by_cases same : other = group
    · subst same
      simp [active]
    · simp [active, get_insert_other _ _ same, same]
  · rw [active_queueGroupNotification, active_erase]
    split
    · omega
    · rfl

theorem careful_closeBatch (group : Text) : Careful manager (manager.closeBatch group) := by
  unfold closeBatch
  dsimp only
  split
  · exact careful_of_same rfl rfl
  · have careful := careful_queueGroupNotification
      { manager with activeBatches := erase manager.activeBatches group } group
    exact ⟨careful.kept, careful.queued⟩

end

/-- The group's snapshot is gone, also from the sets, and its listeners will be called. -/
structure Announced (manager : Manager) (group : Text) : Prop where
  dropped : get manager.groupSnapshots group = none
  sets : manager.groupSetSnapshots = []
  pending : group ∈ manager.pendingGroupUpdates
  scheduled : manager.groupFlushScheduled = true

variable {manager : Manager}

theorem announced_closeBatch {group : Text}
    (last : manager.active group - 1 = 0) : (manager.closeBatch group).Announced group := by
  rw [closeBatch, remaining_eq, if_neg (by omega), queueGroupNotification, active_erase,
    if_pos rfl, if_neg (by omega)]
  refine ⟨?_, rfl, ?_, rfl⟩
  · dsimp only
    rw [get_erase, if_pos rfl]
  · dsimp only
    split
    · assumption
    · exact List.mem_append_right _ List.mem_cons_self

/-- Snapshots are numbered in the order they are created, those kept have been created for their
group, and those in sets are the ones kept. -/
structure Numbered (manager : Manager) : Prop where
  identities : ∀ snapshot ∈ manager.created, snapshot.identity < manager.created.length
  known : ∀ group snapshot, get manager.groupSnapshots group = some snapshot →
    snapshot ∈ manager.created ∧ snapshot.group = group
  sets : ∀ groupKey set, get manager.groupSetSnapshots groupKey = some set →
    ∀ name snapshot, get set.snapshots name = some snapshot →
      get manager.groupSnapshots name = some snapshot

theorem numbered_new : Numbered {} :=
  ⟨fun _ member => by contradiction, fun _ _ found => by contradiction,
    fun _ _ found => by contradiction⟩

theorem Numbered.of_same {manager other : Manager} (numbered : manager.Numbered)
    (created : other.created = manager.created)
    (snapshots : other.groupSnapshots = manager.groupSnapshots)
    (sets : other.groupSetSnapshots = manager.groupSetSnapshots) : other.Numbered where
  identities := created ▸ numbered.identities
  known := by
    rw [created, snapshots]
    exact numbered.known
  sets := by
    rw [snapshots, sets]
    exact numbered.sets

theorem Numbered.congr {manager other : Manager} (numbered : manager.Numbered)
    (same : SameGroups other manager) : other.Numbered :=
  numbered.of_same same.created same.groupSnapshots same.groupSetSnapshots

section

variable (numbered : manager.Numbered)
include numbered

theorem Numbered.groupDelays (group : Text) : (manager.groupDelays group).2.Numbered ∧
      get (manager.groupDelays group).2.groupSnapshots group =
        some (manager.groupDelays group).1 := by
  have reads := onlyReads_groupDelays manager group
  have sets := groupSetSnapshots_groupDelays manager group
  cases found : get manager.groupSnapshots group with
  | some existing => simp [Manager.groupDelays, found, numbered]
  | none =>
    simp only [Manager.groupDelays, found] at reads sets ⊢
    refine ⟨⟨?_, ?_, ?_⟩, get_insert_same _ _ _⟩
    · intro snapshot member
      rw [List.length_append, List.length_singleton]
      rcases List.mem_append.mp member with old | new
      · exact Nat.lt_succ_of_lt (numbered.identities snapshot old)
      · obtain rfl := List.mem_singleton.mp new
        exact Nat.lt_succ_self _
    · intro other snapshot read
      by_cases same : other = group
      · subst same
        rw [get_insert_same] at read
        cases read
        exact ⟨List.mem_append_right _ List.mem_cons_self, rfl⟩
      · rw [get_insert_other _ _ same] at read
        obtain ⟨old, own⟩ := numbered.known other snapshot read
        exact ⟨List.mem_append_left _ old, own⟩
    · intro groupKey set cached name snapshot read
      exact reads.kept name snapshot (numbered.sets groupKey set cached name snapshot read)

theorem Numbered.collectSnapshots {names : List Text} {snapshots : List (Text × DelaySnapshot)}
    (current : ∀ name snapshot, get snapshots name = some snapshot →
      get manager.groupSnapshots name = some snapshot) :
    (manager.collectSnapshots snapshots names).2.Numbered ∧
      ∀ name snapshot, get (manager.collectSnapshots snapshots names).1 name = some snapshot →
        get (manager.collectSnapshots snapshots names).2.groupSnapshots name = some snapshot := by
  induction names generalizing manager snapshots with
  | nil => exact ⟨numbered, current⟩
  | cons first names ih =>
    obtain ⟨still, kept⟩ := numbered.groupDelays first
    refine ih still fun name snapshot read => ?_
    by_cases same : name = first
    · subst same
      rw [get_insert_same] at read
      exact kept.trans read
    · rw [get_insert_other _ _ same] at read
      exact (onlyReads_groupDelays manager first).kept name snapshot (current name snapshot read)

theorem Numbered.collectSnapshots_nil
    (names : List Text) : (manager.collectSnapshots [] names).2.Numbered ∧
      ∀ name snapshot, get (manager.collectSnapshots [] names).1 name = some snapshot →
        get (manager.collectSnapshots [] names).2.groupSnapshots name = some snapshot :=
  numbered.collectSnapshots fun _ _ read => by contradiction

theorem Numbered.groupsDelays (groupKey : Text) : (manager.groupsDelays groupKey).2.Numbered := by
  unfold Manager.groupsDelays
  split
  · exact numbered
  · obtain ⟨still, current⟩ :=
      numbered.collectSnapshots_nil (namesOf groupKey)
    refine ⟨still.identities, still.known, fun other set cached name snapshot read => ?_⟩
    dsimp only at cached ⊢
    by_cases same : other = groupKey
    · subst same
      rw [get_insert_same] at cached
      cases cached
      exact current name snapshot read
    · rw [get_insert_other _ _ same] at cached
      exact still.sets other set cached name snapshot read

theorem Numbered.queueGroupNotification
    (group : Text) : (manager.queueGroupNotification group).Numbered := by
  unfold Manager.queueGroupNotification
  split
  · exact numbered
  · refine ⟨numbered.identities, fun other snapshot read => ?_, fun _ _ cached => by contradiction⟩
    dsimp only at read
    rw [get_erase] at read
    split at read
    · contradiction
    · exact numbered.known other snapshot read

theorem Numbered.perform (call : Call) : (manager.perform call).Numbered := by
  cases external : call.isExternal with
  | true =>
    rcases sameGroups_or_reads external manager with
      same | ⟨group, rfl⟩ | ⟨groupKey, rfl⟩ | rfl
    · exact numbered.congr same
    · exact (numbered.groupDelays group).1
    · exact numbered.groupsDelays groupKey
    · simp only [Manager.perform, flushGroups]
      split <;> exact numbered.of_same rfl rfl rfl
  | false =>
    cases call with
    | queueGroupNotification group => exact numbered.queueGroupNotification group
    | openBatch group => exact numbered.of_same rfl rfl rfl
    | closeBatch group =>
      simp only [Manager.perform, closeBatch]
      split
      · exact numbered.of_same rfl rfl rfl
      · have without : Numbered { manager with
            activeBatches := erase manager.activeBatches group } := numbered.of_same rfl rfl rfl
        exact without.queueGroupNotification group
    | _ => contradiction

theorem Numbered.performs (calls : List Call) : (calls.foldl Manager.perform manager).Numbered := by
  induction calls generalizing manager with
  | nil => exact numbered
  | cons call rest ih => exact ih (numbered.perform call)

theorem Numbered.fresh {group : Text} (dropped : get manager.groupSnapshots group = none) :
    (manager.groupDelays group).1 ∉ manager.created := by
  intro old
  have small := numbered.identities _ old
  simp [Manager.groupDelays, dropped] at small

end

end Manager

/-! ## The members of one batch -/

theorem sum_map_set {Member : Type} (value : Member → Nat) {members : List Member}
    {position : Nat} {old : Member} (here : members[position]? = some old) (new : Member) :
    ((members.set position new).map value).sum + value old =
      (members.map value).sum + value new := by
  induction members generalizing position with
  | nil => simp at here
  | cons first rest ih =>
    cases position with
    | zero =>
      obtain rfl : first = old := by simpa using here
      simp only [List.set_cons_zero, List.map_cons, List.sum_cons]
      omega
    | succ position =>
      have later := ih (by simpa using here)
      simp only [List.set_cons_succ, List.map_cons, List.sum_cons]
      omega

theorem count_flatMap_set {Member Part : Type} [BEq Part] (parts : Member → List Part)
    {members : List Member} {position : Nat} {old : Member}
    (here : members[position]? = some old) (new : Member) (part : Part) :
    ((members.set position new).flatMap parts).count part + (parts old).count part =
      (members.flatMap parts).count part + (parts new).count part := by
  simp only [List.count_flatMap]
  exact sum_map_set (List.count part ∘ parts) here new

/-- The index a worker has taken and not asked for yet. -/
def Worker.waits : Worker → List Nat
  | .staggering index _ => [index]
  | _ => []

/-- The index a worker has asked for and whose result is not set yet. -/
def Worker.runs : Worker → List Nat
  | .measuring index _ measure => if measure = .returned then [] else [index]
  | _ => []

structure Request.For (request : Request) (member : InteractableProxyMember) (timeout : Int) :
    Prop where
  apiName : request.apiName = member.apiName
  providerName : request.providerName = member.providerName
  timeout : request.timeout = timeout

namespace Batch

/-- Indices below the shared one are asked for or about to be, and those asked for have a result or
wait for it. A worker stops only where no member is left. -/
structure Sound (batch : Batch) : Prop where
  asked : (batch.requested.map Prod.fst ++ batch.workers.flatMap Worker.waits).Perm
    (List.range (min batch.index batch.proxies.length))
  recorded : (batch.recorded ++ batch.workers.flatMap Worker.runs).Perm
    (batch.requested.map Prod.fst)
  exhausted : .stopped ∈ batch.workers → batch.proxies.length ≤ batch.index
  requests : ∀ entry ∈ batch.requested, ∃ member, batch.proxies[entry.1]? = some member ∧
    entry.2.For member batch.timeout
  members : ∀ index member, .staggering index member ∈ batch.workers →
    batch.proxies[index]? = some member

/-- The batch is the same but for what its workers do. -/
structure SameRun (one other : Batch) : Prop where
  proxies : one.proxies = other.proxies
  group : one.group = other.group
  timeout : one.timeout = other.timeout
  concurrency : one.concurrency = other.concurrency
  released : one.released = other.released

theorem SameRun.refl (batch : Batch) : SameRun batch batch := ⟨rfl, rfl, rfl, rfl, rfl⟩

theorem SameRun.trans {one two three : Batch} (first : SameRun one two)
    (second : SameRun two three) : SameRun one three :=
  ⟨first.proxies.trans second.proxies, first.group.trans second.group,
    first.timeout.trans second.timeout, first.concurrency.trans second.concurrency,
    first.released.trans second.released⟩

/-- The index that the shared one gives to the next worker, unless the list is at its end. -/
def nextIndex (batch : Batch) : List Nat :=
  if batch.index < batch.proxies.length then [batch.index] else []

theorem count_range_succ (batch : Batch) (index : Nat) :
    (List.range (min (batch.index + 1) batch.proxies.length)).count index =
      (List.range (min batch.index batch.proxies.length)).count index +
        batch.nextIndex.count index := by
  unfold nextIndex
  split
  · rw [Nat.min_eq_left (by omega), Nat.min_eq_left (by omega), List.range_succ, List.count_append]
  · rw [Nat.min_eq_right (by omega), Nat.min_eq_right (by omega)]
    rfl

/-- A worker that has taken the next member: what it asks for is recorded, and it stands either
before its request or after it. -/
structure Helped (batch : Batch) (worker : Worker) (next : Batch) (calls : List Call) : Prop where
  same : SameRun next batch
  index : next.index = batch.index + 1
  workers : next.workers = batch.workers
  recorded : next.recorded = batch.recorded
  asked : next.requested.map Prod.fst ++ worker.waits = batch.requested.map Prod.fst ++ batch.nextIndex
  running : next.requested.map Prod.fst = batch.requested.map Prod.fst ++ worker.runs
  exhausted : worker = .stopped → batch.proxies.length ≤ batch.index
  requests : ∀ entry ∈ next.requested, entry ∈ batch.requested ∨
    ∃ member, batch.proxies[entry.1]? = some member ∧ entry.2.For member batch.timeout
  members : ∀ index member, worker = .staggering index member →
    batch.proxies[index]? = some member
  calls : ∀ call ∈ calls, call.isSetDelay = true

theorem helped_help (batch : Batch) (manager : Manager) (now : Int) :
    Helped batch (batch.help manager now).1 (batch.help manager now).2.1
      (batch.help manager now).2.2 := by
  unfold help
  cases here : batch.proxies[batch.index]? with
  | none =>
    have past : batch.proxies.length ≤ batch.index := List.getElem?_eq_none_iff.mp here
    exact ⟨⟨rfl, rfl, rfl, rfl, rfl⟩, rfl, rfl, rfl, by simp [Worker.waits, nextIndex, past], by simp [Worker.runs],
      fun _ => past, fun _ member => .inl member, fun _ _ impossible => by contradiction,
      fun _ member => by contradiction⟩
  | some currMember =>
    have inside : batch.index < batch.proxies.length := (List.getElem?_eq_some_iff.mp here).1
    dsimp only
    split
    · refine ⟨⟨rfl, rfl, rfl, rfl, rfl⟩, rfl, rfl, rfl, by simp [Worker.waits, nextIndex, inside],
        by simp [Worker.runs], fun impossible => by contradiction, fun _ member => .inl member,
        fun index member taken => ?_, fun call member => ?_⟩
      · obtain ⟨rfl, rfl⟩ := Worker.staggering.inj taken
        exact here
      · obtain rfl := List.mem_singleton.mp member
        rfl
    · refine ⟨⟨rfl, rfl, rfl, rfl, rfl⟩, rfl, rfl, rfl, by simp [startMeasure, Worker.waits, nextIndex, inside],
        by simp [startMeasure, Worker.runs], fun impossible => by contradiction,
        fun entry member => ?_, fun _ _ impossible => by contradiction, fun call member => ?_⟩
      · rcases List.mem_append.mp member with old | new
        · exact .inl old
        · obtain rfl := List.mem_singleton.mp new
          exact .inr ⟨currMember, here, rfl, rfl, rfl⟩
      · rcases List.mem_cons.mp member with rfl | later
        · rfl
        · obtain rfl := List.mem_singleton.mp later
          rfl

namespace Sound

variable {batch next : Batch} {worker : Worker} {calls : List Call}

/-- A worker that has taken the next member joins the others, or takes the place of one that has
neither a member nor a request. -/
theorem join (sound : batch.Sound) (helped : Helped batch worker next calls) {workers : List Worker}
    (parts : ∀ part ∈ [Worker.waits, Worker.runs], ∀ index, (workers.flatMap part).count index =
      (batch.workers.flatMap part).count index + (part worker).count index)
    (among : ∀ each ∈ workers, each ∈ batch.workers ∨ each = worker) :
    Sound { next with workers } where
  asked := by
    rw [List.perm_iff_count]
    intro index
    have old := List.perm_iff_count.mp sound.asked index
    have taken := congrArg (List.count index) helped.asked
    have range := batch.count_range_succ index
    have joined := parts _ List.mem_cons_self index
    simp only [helped.index, helped.same.proxies, List.count_append] at old taken ⊢
    omega
  recorded := by
    rw [List.perm_iff_count]
    intro index
    have old := List.perm_iff_count.mp sound.recorded index
    have taken := congrArg (List.count index) helped.running
    have joined := parts _ (List.mem_cons_of_mem _ List.mem_cons_self) index
    simp only [helped.recorded, List.count_append] at old taken ⊢
    omega
  exhausted member := by
    simp only [helped.index, helped.same.proxies]
    rcases among _ member with old | new
    · exact Nat.le_succ_of_le (sound.exhausted old)
    · exact Nat.le_succ_of_le (helped.exhausted new.symm)
  requests entry member := by
    simp only [helped.same.proxies, helped.same.timeout]
    rcases helped.requests entry member with old | new
    · exact sound.requests entry old
    · exact new
  members index member listed := by
    simp only [helped.same.proxies]
    rcases among _ listed with old | new
    · exact sound.members index member old
    · exact helped.members index member new.symm

theorem addWorker (sound : batch.Sound) (helped : Helped batch worker next calls) :
    (next.addWorker worker).Sound := by
  refine sound.join helped (fun part _ index => ?_) fun each listed => ?_
  · simp [helped.workers]
  · simpa [helped.workers] using listed

theorem setWorker (sound : batch.Sound) (helped : Helped batch worker next calls)
    {position : Nat} {old : Worker} (here : batch.workers[position]? = some old)
    (waits : old.waits = []) (runs : old.runs = []) : (next.setWorker position worker).Sound := by
  refine sound.join helped (fun part listed index => ?_) fun each listed => ?_
  · have exchanged := count_flatMap_set part here worker index
    have idle : part old = [] := by
      simp only [List.mem_cons, List.not_mem_nil, or_false] at listed
      rcases listed with rfl | rfl
      · exact waits
      · exact runs
    rw [idle, List.count_nil, Nat.add_zero] at exchanged
    rwa [helped.workers]
  · exact List.mem_or_eq_of_mem_set (helped.workers ▸ listed)

theorem startMeasure (sound : batch.Sound) {position index : Nat}
    {currMember : InteractableProxyMember}
    (here : batch.workers[position]? = some (.staggering index currMember)) (manager : Manager)
    (now : Int) : ((batch.startMeasure manager index currMember now).2.1.setWorker position
      (batch.startMeasure manager index currMember now).1).Sound where
  asked := by
    rw [List.perm_iff_count]
    intro other
    have before := List.perm_iff_count.mp sound.asked other
    have exchanged := count_flatMap_set Worker.waits here (.measuring index currMember
      (.requested now)) other
    simp only [Batch.setWorker, Batch.startMeasure, Worker.waits, List.map_append, List.map_cons,
      List.map_nil, List.count_append, List.count_nil] at before exchanged ⊢
    omega
  recorded := by
    rw [List.perm_iff_count]
    intro other
    have before := List.perm_iff_count.mp sound.recorded other
    have exchanged := count_flatMap_set Worker.runs here (.measuring index currMember
      (.requested now)) other
    simp only [Batch.setWorker, Batch.startMeasure, Worker.runs, reduceCtorEq, if_false,
      List.map_append, List.map_cons, List.map_nil, List.count_append, List.count_nil]
      at before exchanged ⊢
    omega
  exhausted member := by
    rcases List.mem_or_eq_of_mem_set member with old | new
    · exact sound.exhausted old
    · contradiction
  requests entry member := by
    rcases List.mem_append.mp member with old | new
    · exact sound.requests entry old
    · obtain rfl := List.mem_singleton.mp new
      exact ⟨currMember, sound.members index currMember (List.mem_of_getElem? here), rfl, rfl, rfl⟩
  members other member listed := by
    rcases List.mem_or_eq_of_mem_set listed with old | new
    · exact sound.members other member old
    · contradiction

theorem measure (sound : batch.Sound) {position index : Nat}
    {currMember : InteractableProxyMember} {measure later : Measure}
    (here : batch.workers[position]? = some (.measuring index currMember measure))
    (running : measure ≠ .returned) : Sound { batch with
      workers := batch.workers.set position (.measuring index currMember later)
      recorded :=
        if later = .returned then batch.recorded ++ [index] else batch.recorded } where
  asked := by
    rw [List.perm_iff_count]
    intro other
    have before := List.perm_iff_count.mp sound.asked other
    have exchanged := count_flatMap_set Worker.waits here (.measuring index currMember later) other
    simp only [Worker.waits, List.count_append, List.count_nil] at before exchanged ⊢
    omega
  recorded := by
    rw [List.perm_iff_count]
    intro other
    have before := List.perm_iff_count.mp sound.recorded other
    have exchanged := count_flatMap_set Worker.runs here (.measuring index currMember later) other
    by_cases returned : later = .returned
    · simp only [Worker.runs, running, returned, if_true, if_false, List.count_append,
        List.count_nil] at before exchanged ⊢
      omega
    · simp only [Worker.runs, running, returned, if_false, List.count_append] at before exchanged ⊢
      omega
  exhausted member := by
    rcases List.mem_or_eq_of_mem_set member with old | new
    · exact sound.exhausted old
    · contradiction
  requests := sound.requests
  members other member listed := by
    rcases List.mem_or_eq_of_mem_set listed with old | new
    · exact sound.members other member old
    · contradiction

end Sound

/-- A batch has as many workers as it starts, and is released when they have stopped. -/
structure Crewed (batch : Batch) : Prop where
  workers : batch.workers.length = min (min batch.concurrency batch.proxies.length) 10
  released : batch.released = true → ∀ worker ∈ batch.workers, worker = .stopped

end Batch

/-- The number of turns a measurement takes at most until it has returned. -/
def Measure.work : Measure → Nat
  | .requested _ => 2
  | .resting _ _ | .recovering _ => 1
  | .returned => 0

/-- The number of turns a worker takes at most until it looks for another member. -/
def Worker.work : Worker → Nat
  | .staggering _ _ => 4
  | .measuring _ _ measure => measure.work + 1
  | .stopped => 0

/-- The number of turns a batch takes at most, with those for the members that are left. -/
def Batch.work (batch : Batch) : Nat :=
  if batch.released then 0
  else (batch.workers.map Worker.work).sum + 5 * (batch.proxies.length - batch.index) + 1

theorem Measure.advance_spec {name group : Text} {measure later : Measure} {event : Event}
    {calls : List Call} (advanced : measure.advance name group event = some (later, calls)) :
    measure ≠ .returned ∧ later.work < measure.work ∧
      ∀ call ∈ calls, call.isSetDelay = true := by
  have one : ∀ {delay elapsed now}, ∀ call ∈ [Call.setDelay name group delay elapsed now],
      call.isSetDelay = true := by
    intro delay elapsed now call member
    obtain rfl := List.mem_singleton.mp member
    rfl
  cases measure with
  | requested startTime =>
    refine ⟨by simp, ?_⟩
    cases event with
    | answered answer now =>
      cases answer with
      | result delay =>
        simp only [Measure.advance] at advanced
        split at advanced
        · cases advanced
          exact ⟨by simp [Measure.work], fun _ member => by contradiction⟩
        · cases advanced
          exact ⟨by simp [Measure.work], one⟩
      | failed =>
        cases advanced
        exact ⟨by simp [Measure.work], fun _ member => by contradiction⟩
    | _ => contradiction
  | resting delay elapsed | recovering startTime =>
    cases event with
    | woke now =>
      cases advanced
      exact ⟨by simp, by simp [Measure.work], one⟩
    | _ => contradiction
  | returned => cases event <;> contradiction

theorem Measure.advance_isSome (name group : Text) {measure : Measure}
    (running : measure ≠ .returned) : ∃ event, (measure.advance name group event).isSome := by
  cases measure with
  | requested startTime => exact ⟨.answered .failed 0, rfl⟩
  | resting delay elapsed | recovering startTime => exact ⟨.woke 0, rfl⟩
  | returned => contradiction

namespace Batch

/-- What a turn of a worker keeps and does. -/
structure Advanced (batch next : Batch) (calls : List Call) : Prop where
  sound : batch.Sound → next.Sound
  same : SameRun next batch
  workers : next.workers.length = batch.workers.length
  calls : ∀ call ∈ calls, call.isSetDelay = true
  work : batch.released = false → next.work < batch.work
  running : ∃ worker ∈ batch.workers, worker ≠ .stopped

theorem work_help (batch : Batch) (manager : Manager) (now : Int) :
    (batch.help manager now).1.work +
        5 * (batch.proxies.length - (batch.help manager now).2.1.index) ≤
      5 * (batch.proxies.length - batch.index) := by
  unfold help
  cases here : batch.proxies[batch.index]? with
  | none =>
    simp only [Worker.work]
    omega
  | some currMember =>
    have inside : batch.index < batch.proxies.length := (List.getElem?_eq_some_iff.mp here).1
    dsimp only
    split
    · simp only [Worker.work]
      omega
    · simp only [startMeasure, Worker.work, Measure.work]
      omega

theorem advance_spec {batch next : Batch} {manager : Manager} {position : Nat} {event : Event}
    {calls : List Call} (advanced : batch.advance manager position event = some (next, calls)) :
    Advanced batch next calls := by
  unfold advance at advanced
  split at advanced
  · rename_i index currMember now here
    cases advanced
    refine ⟨fun sound => sound.startMeasure here manager now, ⟨rfl, rfl, rfl, rfl, rfl⟩,
      List.length_set, fun call member => ?_, fun held => ?_, _, List.mem_of_getElem? here, by simp⟩
    · obtain rfl := List.mem_singleton.mp member
      rfl
    · have exchanged := sum_map_set Worker.work here (.measuring index currMember (.requested now))
      simp only [Batch.work, Batch.setWorker, Batch.startMeasure, held, Worker.work, Measure.work,
        Bool.false_eq_true, if_false] at exchanged ⊢
      omega
  · rename_i index currMember now here
    cases advanced
    have helped := batch.helped_help manager now
    refine ⟨fun sound => sound.setWorker helped here rfl rfl, ?_, ?_, helped.calls, fun held => ?_,
      _, List.mem_of_getElem? here, by simp⟩
    · exact ⟨helped.same.proxies, helped.same.group, helped.same.timeout, helped.same.concurrency,
        helped.same.released⟩
    · simp [Batch.setWorker, helped.workers]
    · have exchanged := sum_map_set Worker.work here (batch.help manager now).1
      have less := batch.work_help manager now
      have done : (Worker.measuring index currMember .returned).work = 1 := rfl
      simp only [Batch.work, Batch.setWorker, helped.workers, helped.same.proxies,
        helped.same.released, held, done, Bool.false_eq_true, if_false] at exchanged ⊢
      omega
  · rename_i index currMember measure here _
    obtain ⟨⟨later, done⟩, moved, whole⟩ := Option.map_eq_some_iff.mp advanced
    cases whole
    obtain ⟨running, nearer, delays⟩ := Measure.advance_spec moved
    refine ⟨fun sound => sound.measure here running, ⟨rfl, rfl, rfl, rfl, rfl⟩, List.length_set,
      delays, fun held => ?_, _, List.mem_of_getElem? here, by simp⟩
    have exchanged := sum_map_set Worker.work here (.measuring index currMember later)
    simp only [Batch.work, held, Worker.work, Bool.false_eq_true, if_false] at exchanged ⊢
    omega
  · contradiction

theorem advance_isSome {batch : Batch} (manager : Manager) {worker : Worker}
    (listed : worker ∈ batch.workers) (running : worker ≠ .stopped) :
    ∃ position event, (batch.advance manager position event).isSome := by
  obtain ⟨position, here⟩ := List.mem_iff_getElem?.mp listed
  refine ⟨position, ?_⟩
  cases worker with
  | staggering index currMember => exact ⟨.woke 0, by simp [advance, here]⟩
  | measuring index currMember measure =>
    by_cases returned : measure = .returned
    · subst returned
      exact ⟨.resumed 0, by simp [advance, here]⟩
    · obtain ⟨event, some_⟩ := Measure.advance_isSome currMember.name batch.group returned
      refine ⟨event, ?_⟩
      cases measure with
      | returned => contradiction
      | _ => simpa [advance, here] using some_
  | stopped => contradiction

theorem startWorkers_spec (manager : Manager) (now : Int) (count : Nat) {batch : Batch}
    (sound : batch.Sound) :
    (startWorkers manager now count batch).1.Sound ∧
      SameRun (startWorkers manager now count batch).1 batch ∧
      (startWorkers manager now count batch).1.workers.length = batch.workers.length + count ∧
      ∀ call ∈ (startWorkers manager now count batch).2, call.isSetDelay = true := by
  induction count generalizing batch with
  | zero => exact ⟨sound, .refl batch, rfl, fun _ member => by contradiction⟩
  | succ count ih =>
    have helped := batch.helped_help manager now
    obtain ⟨still, same, length, delays⟩ := ih (sound.addWorker helped)
    refine ⟨still, same.trans ⟨helped.same.proxies, helped.same.group, helped.same.timeout,
      helped.same.concurrency, helped.same.released⟩, ?_, fun call member => ?_⟩
    · rw [startWorkers, length]
      simp only [addWorker, List.length_append, List.length_singleton, helped.workers]
      omega
    · rcases List.mem_append.mp member with own | others
      · exact helped.calls call own
      · exact delays call others

theorem start_spec (manager : Manager) (proxies : List InteractableProxyMember) (group : Text)
    (timeout : Int) (concurrency : Nat) (now : Int) :
    (start manager proxies group timeout concurrency now).1.Sound ∧
      (start manager proxies group timeout concurrency now).1.Crewed ∧
      (start manager proxies group timeout concurrency now).1.group = group ∧
      (start manager proxies group timeout concurrency now).1.released = false ∧
      ∃ delays, (start manager proxies group timeout concurrency now).2 =
          .openBatch group :: delays ∧ ∀ call ∈ delays, call.isSetDelay = true := by
  have new : Sound
      { proxies := proxies, group := group, timeout := timeout, concurrency := concurrency } := by
    refine ⟨by simp, by simp, fun member => by contradiction, fun _ member => by contradiction,
      fun _ _ member => by contradiction⟩
  obtain ⟨sound, same, length, delays⟩ :=
    startWorkers_spec manager now (min (min concurrency proxies.length) 10) new
  refine ⟨sound, ⟨?_, fun released => ?_⟩, same.group, same.released, _, List.cons_append.symm.symm,
    fun call member => ?_⟩
  · rw [start, same.concurrency, same.proxies, length]
    simp
  · have held : (start manager proxies group timeout concurrency now).1.released = false :=
      same.released
    rw [held] at released
    contradiction
  · rcases List.mem_append.mp member with shown | started
    · obtain ⟨_, _, rfl⟩ := List.mem_map.mp shown
      rfl
    · exact delays call started

/-- Each member is asked for at most once and has at most one result, and when the batch is released
exactly one of each. -/
structure MeasuredOnce (batch : Batch) : Prop where
  requested : (batch.requested.map Prod.fst).Nodup
  recorded : batch.recorded.Nodup
  requests : ∀ entry ∈ batch.requested, ∃ member, batch.proxies[entry.1]? = some member ∧
    entry.2.For member batch.timeout
  complete : batch.released = true → 0 < batch.concurrency →
    (batch.requested.map Prod.fst).Perm (List.range batch.proxies.length) ∧
      batch.recorded.Perm (List.range batch.proxies.length)

theorem Sound.measuredOnce {batch : Batch} (sound : batch.Sound) (crewed : batch.Crewed) :
    batch.MeasuredOnce := by
  have asked := (sound.asked.nodup_iff.mpr List.nodup_range).of_append_left
  refine ⟨asked, (sound.recorded.nodup_iff.mpr asked).of_append_left, sound.requests,
    fun released some_ => ?_⟩
  have stopped := crewed.released released
  have waits : batch.workers.flatMap Worker.waits = [] := by
    rw [List.flatMap_eq_nil_iff]
    intro worker listed
    rw [stopped worker listed]
    rfl
  have runs : batch.workers.flatMap Worker.runs = [] := by
    rw [List.flatMap_eq_nil_iff]
    intro worker listed
    rw [stopped worker listed]
    rfl
  have past : batch.proxies.length ≤ batch.index := by
    have workers := crewed.workers
    match crew : batch.workers with
    | [] =>
      rw [crew, List.length_nil] at workers
      omega
    | worker :: others =>
      have listed : worker ∈ batch.workers := by rw [crew]; exact List.mem_cons_self
      exact sound.exhausted (stopped worker listed ▸ listed)
  have all := sound.asked
  rw [waits, List.append_nil, Nat.min_eq_right past] at all
  have results := sound.recorded
  rw [runs, List.append_nil] at results
  exact ⟨all, results.trans all⟩

end Batch

/-! ## All tests -/

/-- The number of turns a single test takes at most. -/
def Single.work (single : Single) : Nat := single.measure.work + if single.finished then 0 else 1

/-- The group that a batch keeps from being sorted. -/
def Batch.holds (batch : Batch) : List Text := if batch.released then [] else [batch.group]

namespace State

def openBatches (state : State) (group : Text) : Nat :=
  (state.batches.flatMap Batch.holds).count group

def work (state : State) : Nat :=
  (state.singles.map Single.work).sum + (state.batches.map Batch.work).sum

/-- The turns of the event loop, by what they do. -/
inductive Turn (state : State) : Action → State → Prop where
  | call {call : Call} (external : call.isExternal = true) :
      Turn state (.call call) (state.perform [call])
  | checkDelay (member : InteractableProxyMember) (group : Text) (timeout now : Int)
      (single : Single) : Turn state (.checkDelay member group timeout now)
        { state.perform [testing member.name group now] with
          singles := state.singles ++ [single] }
  | checkListDelay (proxies : List InteractableProxyMember) (group : Text) (timeout : Int)
      (concurrency : Nat) (now : Int) :
      Turn state (.checkListDelay proxies group timeout concurrency now)
        { state.perform (Batch.start state.manager proxies group timeout concurrency now).2 with
          batches := state.batches ++
            [(Batch.start state.manager proxies group timeout concurrency now).1] }
  | measure {position : Nat} {event : Event} {single next : Single} {calls : List Call}
      (here : state.singles[position]? = some single)
      (delays : ∀ call ∈ calls, call.isSetDelay = true) (work : next.work < single.work) :
      Turn state (.single position event)
        { state.perform calls with singles := state.singles.set position next }
  | finish {position : Nat} {event : Event} {single next : Single}
      (here : state.singles[position]? = some single) (work : next.work < single.work) :
      Turn state (.single position event)
        { state.perform [.queueGroupNotification single.group] with
          singles := state.singles.set position next }
  | worker {position worker : Nat} {event : Event} {batch next : Batch} {calls : List Call}
      (here : state.batches[position]? = some batch)
      (advanced : Batch.Advanced batch next calls) :
      Turn state (.worker position worker event)
        { state.perform calls with batches := state.batches.set position next }
  | release {position : Nat} {batch : Batch} (here : state.batches[position]? = some batch)
      (held : batch.released = false) (stopped : ∀ worker ∈ batch.workers, worker = .stopped) :
      Turn state (.release position)
        { state.perform [.closeBatch batch.group] with
          batches := state.batches.set position { batch with released := true } }

variable {state next : State}

theorem turn_of_step {action : Action}
    (taken : state.step action = some next) : Turn state action next := by
  cases action with
  | call call =>
    simp only [step] at taken
    split at taken
    · rename_i external
      cases taken
      exact .call external
    · contradiction
  | checkDelay member group timeout now =>
    cases taken
    exact .checkDelay member group timeout now _
  | checkListDelay proxies group timeout concurrency now =>
    cases taken
    exact .checkListDelay proxies group timeout concurrency now
  | single position event =>
    obtain ⟨single, here, rest⟩ := Option.bind_eq_some_iff.mp taken
    obtain ⟨⟨later, calls⟩, advanced, final⟩ := Option.bind_eq_some_iff.mp rest
    cases final
    unfold Single.advance at advanced
    split at advanced
    · split at advanced
      · rename_i ready
        cases advanced
        exact .finish here (by simp [Single.work, ready.2])
      · contradiction
    · obtain ⟨⟨measure, done⟩, moved, whole⟩ := Option.map_eq_some_iff.mp advanced
      cases whole
      obtain ⟨running, nearer, delays⟩ := Measure.advance_spec moved
      exact .measure here delays (Nat.add_lt_add_right nearer _)
  | worker position worker event =>
    obtain ⟨batch, here, rest⟩ := Option.bind_eq_some_iff.mp taken
    obtain ⟨⟨later, calls⟩, advanced, final⟩ := Option.bind_eq_some_iff.mp rest
    cases final
    exact .worker here (Batch.advance_spec advanced)
  | release position =>
    obtain ⟨batch, here, rest⟩ := Option.bind_eq_some_iff.mp taken
    split at rest
    · rename_i ready
      cases rest
      exact .release here ready.1 ready.2
    · contradiction

structure Sound (state : State) : Prop where
  traced : state.manager = Manager.performAll state.calls
  numbered : state.manager.Numbered
  counted : ∀ group, state.manager.active group = state.openBatches group
  batches : ∀ batch ∈ state.batches, batch.Sound ∧ batch.Crewed

theorem sound_new : Sound {} :=
  ⟨rfl, Manager.numbered_new, fun _ => rfl, fun _ member => by contradiction⟩

theorem Sound.of_perform (sound : state.Sound) {calls : List Call}
    (manager : next.manager = calls.foldl Manager.perform state.manager)
    (trace : next.calls = state.calls ++ calls)
    (counted : ∀ group, next.manager.active group = next.openBatches group)
    (batches : ∀ batch ∈ next.batches, batch.Sound ∧ batch.Crewed) : next.Sound where
  traced := by rw [manager, trace, sound.traced, Manager.performAll, Manager.performAll,
    List.foldl_append]
  numbered := manager ▸ sound.numbered.performs calls
  counted := counted
  batches := batches

theorem openBatches_set {state : State} {position : Nat} {batch next : Batch}
    (here : state.batches[position]? = some batch) (same : Batch.SameRun next batch)
    (group : Text) :
    ((state.batches.set position next).flatMap Batch.holds).count group =
      state.openBatches group := by
  have exchanged := count_flatMap_set Batch.holds here next group
  have equal : next.holds = batch.holds := by rw [Batch.holds, Batch.holds, same.released, same.group]
  rw [equal] at exchanged
  exact Nat.add_right_cancel exchanged

theorem Sound.step (sound : state.Sound) {action : Action}
    (taken : state.step action = some next) : next.Sound := by
  cases turn_of_step taken with
  | call external =>
    refine sound.of_perform rfl rfl (fun group => ?_) sound.batches
    refine Eq.trans ?_ (sound.counted group)
    exact congrArg (fun entries => (get entries group).getD 0)
      (Manager.activeBatches_perform external state.manager)
  | checkDelay member group timeout now single =>
    refine sound.of_perform rfl rfl (fun other => ?_) sound.batches
    exact sound.counted other
  | checkListDelay proxies group timeout concurrency now =>
    obtain ⟨whole, crewed, own, held, delays, calls, all⟩ :=
      Batch.start_spec state.manager proxies group timeout concurrency now
    refine sound.of_perform rfl rfl (fun other => ?_) fun batch listed => ?_
    · have same := Manager.sameGroups_setDelays all (state.manager.openBatch group)
      simp only [perform, openBatches, calls, List.foldl_cons, Manager.perform]
      rw [same.active, Manager.active_openBatch, List.flatMap_append, List.count_append,
        ← openBatches, ← sound.counted other]
      by_cases equal : other = group
      · subst equal
        simp [Batch.holds, held, own]
      · simp [Batch.holds, held, own, equal, Ne.symm equal]
    · rcases List.mem_append.mp listed with old | new
      · exact sound.batches batch old
      · obtain rfl := List.mem_singleton.mp new
        exact ⟨whole, crewed⟩
  | measure here delays work =>
    refine sound.of_perform rfl rfl (fun group => ?_) sound.batches
    exact ((Manager.sameGroups_setDelays delays state.manager).active group).trans
      (sound.counted group)
  | finish here work =>
    refine sound.of_perform rfl rfl (fun group => ?_) sound.batches
    exact (Manager.active_queueGroupNotification _ _ _).trans (sound.counted group)
  | worker here advanced =>
    refine sound.of_perform rfl rfl (fun group => ?_) fun each listed => ?_
    · have same := Manager.sameGroups_setDelays advanced.calls state.manager
      exact ((same.active group).trans (sound.counted group)).trans
        (openBatches_set here advanced.same group).symm
    · rcases List.mem_or_eq_of_mem_set listed with old | new
      · exact sound.batches each old
      · subst new
        obtain ⟨whole, crewed⟩ := sound.batches _ (List.mem_of_getElem? here)
        refine ⟨advanced.sound whole, ?_, fun released => ?_⟩
        · rw [advanced.workers, advanced.same.concurrency, advanced.same.proxies]
          exact crewed.workers
        · obtain ⟨worker, present, running⟩ := advanced.running
          rw [advanced.same.released] at released
          exact absurd (crewed.released released worker present) running
  | release here held stopped =>
    rename_i batch
    refine sound.of_perform rfl rfl (fun group => ?_) fun each listed => ?_
    · have exchanged := count_flatMap_set Batch.holds here { batch with released := true } group
      have before := sound.counted group
      have closed : ({ batch with released := true } : Batch).holds = [] := rfl
      have own : batch.holds = [batch.group] := by rw [Batch.holds, held]; rfl
      rw [closed, own, List.count_nil, Nat.add_zero, ← openBatches, ← before] at exchanged
      refine (state.manager.active_closeBatch batch.group group).trans ?_
      by_cases equal : group = batch.group
      · subst equal
        rw [List.count_singleton_self] at exchanged
        rw [if_pos rfl, ← exchanged]
        rfl
      · rw [List.count_singleton, if_neg (by simpa using Ne.symm equal)] at exchanged
        rw [if_neg equal, ← exchanged]
        rfl
    · rcases List.mem_or_eq_of_mem_set listed with old | new
      · exact sound.batches each old
      · subst new
        obtain ⟨whole, crewed⟩ := sound.batches _ (List.mem_of_getElem? here)
        exact ⟨⟨whole.asked, whole.recorded, whole.exhausted, whole.requests, whole.members⟩,
          crewed.workers, fun _ => stopped⟩

theorem careful_step {action : Action}
    (taken : state.step action = some next) : state.manager.Careful next.manager := by
  cases turn_of_step taken with
  | call external => exact Manager.careful_perform external state.manager
  | checkDelay member group timeout now single => exact Manager.careful_of_same rfl rfl
  | checkListDelay proxies group timeout concurrency now =>
    obtain ⟨_, _, _, _, delays, calls, all⟩ :=
      Batch.start_spec state.manager proxies group timeout concurrency now
    simp only [perform, calls, List.foldl_cons]
    exact (state.manager.careful_openBatch group).congr (Manager.sameGroups_setDelays all _)
  | measure here delays work =>
    have same := Manager.sameGroups_setDelays delays state.manager
    exact Manager.careful_of_same same.groupSnapshots same.queued
  | finish here work => exact state.manager.careful_queueGroupNotification _
  | worker here advanced =>
    have same := Manager.sameGroups_setDelays advanced.calls state.manager
    exact Manager.careful_of_same same.groupSnapshots same.queued
  | release here held stopped => exact state.manager.careful_closeBatch _

theorem announced_of_release (sound : state.Sound) {position : Nat}
    {batch : Batch} (here : state.batches[position]? = some batch)
    (taken : state.step (.release position) = some next)
    (last : next.openBatches batch.group = 0) : next.manager.Announced batch.group := by
  have after := (sound.step taken).counted batch.group
  rw [last] at after
  cases turn_of_step taken with
  | release found held stopped =>
    obtain rfl := Option.some.inj (found.symm.trans here)
    refine Manager.announced_closeBatch ?_
    rw [← after]
    exact ((state.manager.active_closeBatch _ _).trans (if_pos rfl)).symm

theorem work_lt_of_continues (sound : state.Sound) {action : Action}
    (taken : state.step action = some next) (continues : action.continues = true) :
    next.work < state.work := by
  cases turn_of_step taken with
  | measure here delays work =>
    rename_i later _
    have exchanged := sum_map_set Single.work here later
    simp only [State.work, perform]
    omega
  | finish here work =>
    rename_i later
    have exchanged := sum_map_set Single.work here later
    simp only [State.work, perform]
    omega
  | worker here advanced =>
    rename_i batch later _
    have exchanged := sum_map_set Batch.work here later
    have held : batch.released = false := by
      obtain ⟨worker, present, running⟩ := advanced.running
      by_contra released
      have crewed := (sound.batches batch (List.mem_of_getElem? here)).2
      exact running (crewed.released (Bool.not_eq_false _ ▸ released) worker present)
    have less := advanced.work held
    simp only [State.work, perform]
    omega
  | release here held stopped =>
    rename_i position batch
    have exchanged := sum_map_set Batch.work here { batch with released := true }
    have done : ({ batch with released := true } : Batch).work = 0 := rfl
    have some_ : 0 < batch.work := by
      rw [Batch.work, held]
      exact Nat.succ_pos _
    simp only [State.work, perform]
    omega
  | _ => contradiction

theorem continues_of_open {state : State} {batch : Batch} (listed : batch ∈ state.batches)
    (held : batch.released = false) :
    ∃ action, action.continues = true ∧ (state.step action).isSome := by
  obtain ⟨position, here⟩ := List.mem_iff_getElem?.mp listed
  by_cases stopped : ∀ worker ∈ batch.workers, worker = .stopped
  · exact ⟨.release position, rfl, by simpa [step, here, held] using stopped⟩
  · push Not at stopped
    obtain ⟨worker, present, running⟩ := stopped
    obtain ⟨number, event, advanced⟩ := Batch.advance_isSome state.manager present running
    obtain ⟨next, taken⟩ := Option.isSome_iff_exists.mp advanced
    exact ⟨.worker position number event, rfl, by simp [step, here, taken]⟩

theorem active_of_stuck {state : State} (sound : state.Sound)
    (stuck : ∀ action, action.continues = true → state.step action = none) (group : Text) :
    state.manager.active group = 0 := by
  rw [sound.counted, openBatches, List.count_eq_zero]
  intro member
  obtain ⟨batch, listed, holds⟩ := List.mem_flatMap.mp member
  have held : batch.released = false := by
    by_contra released
    rw [Batch.holds, if_pos (Bool.not_eq_false _ ▸ released)] at holds
    contradiction
  obtain ⟨action, continues, taken⟩ := continues_of_open listed held
  rw [stuck action continues] at taken
  contradiction

theorem length_le_work {actions : List Action} (sound : state.Sound)
    (continues : ∀ action ∈ actions, action.continues = true)
    (ran : run step state actions = some next) : actions.length + next.work ≤ state.work := by
  induction actions generalizing state with
  | nil =>
    obtain rfl : state = next := Option.some.inj ran
    simp
  | cons action rest ih =>
    obtain ⟨middle, taken, remaining⟩ := (run_cons_iff step state next action rest).mp ran
    have less := work_lt_of_continues sound taken (continues action List.mem_cons_self)
    have later := ih (sound.step taken)
      (fun each listed => continues each (List.mem_cons_of_mem _ listed)) remaining
    rw [List.length_cons]
    omega

/-- A snapshot is the same object until it is dropped, which is where its identity changes. -/
structure Settles (state : State) : Prop where
  /-- A turn drops the snapshot of a group, or queues its notification, only where it leaves no open
  batch of the group. -/
  kept : ∀ action next, state.step action = some next → ∀ group snapshot,
    get state.manager.groupSnapshots group = some snapshot →
      get next.manager.groupSnapshots group = some snapshot ∨ next.openBatches group = 0
  queued : ∀ action next, state.step action = some next → ∃ groups,
    next.manager.queued = state.manager.queued ++ groups ∧
      ∀ group ∈ groups, next.openBatches group = 0
  /-- Sets of snapshots hold the very snapshots of their groups. -/
  sets : ∀ groupKey set, get state.manager.groupSetSnapshots groupKey = some set →
    ∀ name snapshot, get set.snapshots name = some snapshot →
      get state.manager.groupSnapshots name = some snapshot
  /-- The release of the last open batch of a group queues its listeners, and the snapshot read then
  is another than all before. -/
  last : ∀ position batch next, state.batches[position]? = some batch →
    state.step (.release position) = some next → next.openBatches batch.group = 0 →
      next.manager.Announced batch.group ∧
        (next.manager.groupDelays batch.group).1 ∉ next.manager.created
  /-- What is read for a member is the last delay that was set under its text. -/
  visible : ∀ name group now, (state.manager.getDelayUpdate name group now).1 =
    (Slot.after (fun pair => pair.key = hashKey name group) state.calls).latest.filter
      (withinLifetime now)
  measured : ∀ batch ∈ state.batches, batch.MeasuredOnce
  counted : ∀ group, state.manager.active group = state.openBatches group
  /-- Continued turns end, and when none is left no batch is counted. -/
  ends : ∀ actions next, (∀ action ∈ actions, action.continues = true) →
    run step state actions = some next → actions.length ≤ state.work ∧
      ((∀ action, action.continues = true → next.step action = none) →
        ∀ group, next.manager.active group = 0)

theorem Sound.settles {state : State} (sound : state.Sound) : state.Settles where
  kept action next taken group snapshot found := by
    rw [← (sound.step taken).counted group]
    exact (careful_step taken).kept group snapshot found
  queued action next taken := by
    obtain ⟨groups, equal, idle⟩ := (careful_step taken).queued
    refine ⟨groups, equal, fun group listed => ?_⟩
    rw [← (sound.step taken).counted group]
    exact idle group listed
  sets := sound.numbered.sets
  last position batch next here taken none_ := by
    have announced := announced_of_release sound here taken none_
    exact ⟨announced, (sound.step taken).numbered.fresh announced.dropped⟩
  visible name group now := by
    rw [Manager.getDelayUpdate_fst, sound.traced, Manager.slot_performAll]
  measured batch listed :=
    (sound.batches batch listed).1.measuredOnce (sound.batches batch listed).2
  counted := sound.counted
  ends actions next continues ran := by
    have bound := length_le_work sound continues ran
    have still : next.Sound := run_invariant (fun _ _ _ old taken => old.step taken) sound ran
    exact ⟨by omega, active_of_stuck still⟩

end State

/-- Whatever tests overlap, a group is sorted anew only when no batch of it is open. -/
theorem tests_settle {actions : List Action} {state : State}
    (ran : run State.step {} actions = some state) : state.Settles :=
  State.Sound.settles (run_invariant (fun _ _ _ old taken => old.step taken) State.sound_new ran)

/-- A single test ends while a batch of its group is open, which an empty batch opens as well. -/
def overlapping : List Action :=
  let member : InteractableProxyMember := .node (text "a") [] (.core (text "a"))
  [.call (.groupDelays (text "g")),
    .checkListDelay [member, member] (text "g") 5000 36 0,
    .checkDelay member (text "g") 5000 1,
    .checkListDelay [] (text "g") 5000 36 2,
    .single 0 (.answered (.result 120) 700), .single 0 (.resumed 700),
    .release 1,
    .worker 0 0 (.answered .failed 800), .worker 0 1 (.woke 900), .worker 0 0 (.woke 1300),
    .worker 0 1 (.answered (.result 90) 1400), .worker 0 0 (.resumed 1400),
    .worker 0 1 (.resumed 1400), .release 0]

theorem overlapping_settles : ∃ state, run State.step {} overlapping = some state ∧
    state.manager.queued = [text "g"] ∧ state.manager.active (text "g") = 0 ∧ state.Settles := by
  obtain ⟨state, ran, queued, active⟩ : ∃ state, run State.step {} overlapping = some state ∧
      state.manager.queued = [text "g"] ∧ state.manager.active (text "g") = 0 :=
    ⟨_, rfl, rfl, rfl⟩
  exact ⟨state, ran, queued, active, tests_settle ran⟩

end ClashVerge.Delay
