import Mathlib.Data.List.Chain
import ClashVerge.Library.Transition
import ClashVerge.Runstate.Store

/-!
# Announcing the run state

A call changes the store under its lock, drops the lock, reads the state back and publishes what it
read. The reading takes the service, the mode and the operation flag one after another.

Each part of the state carries the number of its changes so far. A publication is in order when no
part of it is older than the same part of the last one. In order, the observers end up with the
state of the store.
-/

namespace ClashVerge.Runstate

open Function (update)
open Transition (Meets)

/-- What a snapshot reads at once. -/
inductive Part where
  | service
  | mode
  | operation
deriving DecidableEq

namespace RunState

/-- The two snapshots show the same of a part. -/
def Same (one other : RunState) : Part → Prop
  | .service => one.health = other.health ∧ one.pending = other.pending ∧
      one.sidecarAllowed = other.sidecarAllowed
  | .mode => one.mode = other.mode
  | .operation => one.opInFlight = other.opInFlight

instance (one other : RunState) : DecidablePred (one.Same other) := fun part => by
  cases part <;> unfold Same <;> infer_instance

def take (into source : RunState) : Part → RunState
  | .service => { into with
      health := source.health
      pending := source.pending
      sidecarAllowed := source.sidecarAllowed }
  | .mode => { into with mode := source.mode }
  | .operation => { into with opInFlight := source.opInFlight }

theorem Same.refl (snapshot : RunState) (part : Part) : snapshot.Same snapshot part := by
  cases part <;> simp [Same]

theorem Same.trans {one two three : RunState} {part : Part} (first : one.Same two part)
    (second : two.Same three part) : one.Same three part := by
  cases part <;> simp_all [Same]

theorem take_same (into source : RunState) (part : Part) :
    (into.take source part).Same source part := by
  cases part <;> simp [Same, take]

theorem take_other (into source : RunState) (part other : Part) (different : other ≠ part) :
    (into.take source part).Same into other := by
  cases part <;> cases other <;> simp_all [Same, take]

@[simp] theorem take_isAdmin (into source : RunState) (part : Part) :
    (into.take source part).isAdmin = into.isAdmin := by
  cases part <;> rfl

theorem eq_of_same {one other : RunState} (process : one.isAdmin = other.isAdmin)
    (same : ∀ part, one.Same other part) : one = other := by
  obtain ⟨health, pending, allowed⟩ := same .service
  have mode := same .mode
  have operation := same .operation
  cases one
  cases other
  simp_all [Same]

end RunState

/-- A snapshot, and for each part how often it had changed when it was read. -/
structure Reading where
  state : RunState
  version : Part → Nat

namespace Reading

/-- The store moves on: what looks different counts as changed. -/
def advance (now : Reading) (next : RunState) : Reading where
  state := next
  version part := if now.state.Same next part then now.version part else now.version part + 1

def refresh (reading now : Reading) (part : Part) : Reading where
  state := reading.state.take now.state part
  version := update reading.version part (now.version part)

/-- A former reading of the store: each part is older, or still the same. -/
def Before (past now : Reading) : Prop :=
  past.state.isAdmin = now.state.isAdmin ∧
    ∀ part, past.version part ≤ now.version part ∧
      (past.version part = now.version part → past.state.Same now.state part)

theorem Before.refl (reading : Reading) : reading.Before reading :=
  ⟨rfl, fun part => ⟨Nat.le_refl _, fun _ => RunState.Same.refl _ part⟩⟩

theorem Before.trans {one two three : Reading} (first : one.Before two)
    (second : two.Before three) : one.Before three := by
  refine ⟨first.1.trans second.1, fun part => ?_⟩
  obtain ⟨older, same⟩ := first.2 part
  obtain ⟨older', same'⟩ := second.2 part
  refine ⟨older.trans older', fun equal => ?_⟩
  exact (same (by omega)).trans (same' (by omega))

theorem before_advance (now : Reading) (next : RunState)
    (process : now.state.isAdmin = next.isAdmin) : now.Before (now.advance next) := by
  refine ⟨process, fun part => ?_⟩
  simp only [advance]
  split
  · rename_i same
    exact ⟨Nat.le_refl _, fun _ => same⟩
  · exact ⟨Nat.le_succ _, fun equal => absurd equal (Nat.lt_succ_self _).ne⟩

theorem Before.refresh {past now : Reading} (before : past.Before now) (part : Part) :
    (past.refresh now part).Before now := by
  refine ⟨(RunState.take_isAdmin _ _ _).trans before.1, fun other => ?_⟩
  by_cases same : other = part
  · subst same
    simp only [Reading.refresh, Function.update_self]
    exact ⟨Nat.le_refl _, fun _ => RunState.take_same _ _ _⟩
  · simp only [Reading.refresh, Function.update_of_ne same]
    refine ⟨(before.2 other).1, fun equal => ?_⟩
    exact (RunState.take_other _ _ _ _ same).trans ((before.2 other).2 equal)

theorem refresh_current {past now : Reading} (read part : Part)
    (current : past.version part = now.version part) :
    (past.refresh now read).version part = now.version part := by
  by_cases same : part = read
  · subst same
    simp [Reading.refresh]
  · simpa [Reading.refresh, same] using current

end Reading

/-- Where the announcement of a call stands. A part of the snapshot that is not read yet still
shows the moment of the change. -/
inductive Announcement where
  | idle
  | reading (part : Part) (snapshot : Reading)
  | publishing (snapshot : Reading)
  | done

namespace Announcement

def snapshot : Announcement → Option Reading
  | idle | done => none
  | reading _ snapshot | publishing snapshot => some snapshot

/-- `snapshot` reads the service, then the mode, then the operation flag. -/
def afterReading (snapshot : Reading) : Part → Announcement
  | .service => reading .mode snapshot
  | .mode => reading .operation snapshot
  | .operation => publishing snapshot

@[simp] theorem snapshot_afterReading (reading : Reading) (part : Part) :
    (afterReading reading part).snapshot = some reading := by
  cases part <;> rfl

end Announcement

structure AnnounceState (Task : Type) where
  store : RunStateStore
  version : Part → Nat
  phase : Task → Announcement
  published : List Reading

inductive AnnounceAction (Task : Type) where
  | change (task : Task) (call : Mutation)
  | read (task : Task)
  | publish (task : Task)

namespace AnnounceState

variable {Task : Type} [DecidableEq Task] (isAdmin : Bool)

def start (store : RunStateStore) : AnnounceState Task := ⟨store, fun _ => 0, fun _ => .idle, []⟩

def now (state : AnnounceState Task) : Reading := ⟨state.store.state isAdmin, state.version⟩

def change (state : AnnounceState Task) (task : Task) (call : Mutation) : AnnounceState Task :=
  let changed := call.apply state.store
  let next := (state.now isAdmin).advance (changed.store.state isAdmin)
  { state with
    store := changed.store
    version := next.version
    phase := update state.phase task
      (if changed.announces then .reading .service next else .done) }

def step (state : AnnounceState Task) : AnnounceAction Task → Option (AnnounceState Task)
  | .change task call =>
    match state.phase task with
    | .idle => some (state.change isAdmin task call)
    | _ => none
  | .read task =>
    match state.phase task with
    | .reading part snapshot =>
      let fresher := snapshot.refresh (state.now isAdmin) part
      some { state with phase := update state.phase task (.afterReading fresher part) }
    | _ => none
  | .publish task =>
    match state.phase task with
    | .publishing snapshot =>
      some { state with
        phase := update state.phase task .done
        published := state.published ++ [snapshot] }
    | _ => none

def Settled (state : AnnounceState Task) : Prop := ∀ task, (state.phase task).snapshot = none

/-- The observers never see a part of the state go back to an older one. -/
def Forward (state : AnnounceState Task) : Prop :=
  state.published.Pairwise fun earlier later => earlier.version ≤ later.version

def observed (first : RunStateStore) (state : AnnounceState Task) : RunState :=
  (state.published.getLast?.getD ⟨first.state isAdmin, fun _ => 0⟩).state

/-- Nothing is published that was read before a change that is already published. -/
def InOrder (state : AnnounceState Task) : AnnounceAction Task → Prop
  | .publish task =>
    match state.phase task with
    | .publishing snapshot =>
      ∀ last ∈ state.published.getLast?, last.version ≤ snapshot.version
    | _ => True
  | _ => True

/-- Everything read is a former state of the store, and the latest change of each part was
published or is about to be. -/
structure Consistent (first : RunStateStore) (state : AnnounceState Task) : Prop where
  initial : (⟨first.state isAdmin, fun _ => 0⟩ : Reading).Before (state.now isAdmin)
  underway : ∀ task reading, (state.phase task).snapshot = some reading →
    reading.Before (state.now isAdmin)
  published : ∀ reading ∈ state.published, reading.Before (state.now isAdmin)
  covered : ∀ part, state.version part = 0 ∨
    (∃ reading ∈ state.published, reading.version part = state.version part) ∨
    ∃ task reading, (state.phase task).snapshot = some reading ∧
      reading.version part = state.version part

variable {isAdmin}

omit [DecidableEq Task] in
theorem consistent_start (first : RunStateStore) :
    Consistent isAdmin first (start first : AnnounceState Task) where
  initial := Reading.Before.refl _
  underway task reading at_ := by simp [start, Announcement.snapshot] at at_
  published reading listed := by simp [start] at listed
  covered part := .inl rfl

omit [DecidableEq Task] in
theorem advance_silent (state : AnnounceState Task) (call : Mutation)
    (silent : (call.apply state.store).announces = false) :
    ((state.now isAdmin).advance ((call.apply state.store).store.state isAdmin)).version =
      state.version := by
  funext part
  rw [Mutation.apply_silent state.store call isAdmin silent]
  exact if_pos (RunState.Same.refl _ part)

variable {state : AnnounceState Task} {first : RunStateStore}

section

variable (consistent : Consistent isAdmin first state)
include consistent

theorem Consistent.change {task : Task} (call : Mutation)
    (idle : state.phase task = .idle) : Consistent isAdmin first (state.change isAdmin task call) := by
  have moved := (state.now isAdmin).before_advance
    ((call.apply state.store).store.state isAdmin) rfl
  refine ⟨consistent.initial.trans moved, ?_,
    fun reading listed => (consistent.published reading listed).trans moved, ?_⟩
  · intro other reading underway
    by_cases same : other = task
    · subst same
      simp only [AnnounceState.change, Function.update_self] at underway
      split at underway
      · cases underway
        exact Reading.Before.refl _
      · simp [Announcement.snapshot] at underway
    · simp only [AnnounceState.change, Function.update_of_ne same] at underway
      exact (consistent.underway other reading underway).trans moved
  · intro part
    cases announces : (call.apply state.store).announces with
    | true =>
      refine .inr (.inr ⟨task, (state.change isAdmin task call).now isAdmin, ?_, rfl⟩)
      simp [AnnounceState.change, announces, Announcement.snapshot, AnnounceState.now,
        Reading.advance]
    | false =>
      have still : (state.change isAdmin task call).version = state.version :=
        advance_silent state call announces
      rw [still]
      obtain unchanged | published | ⟨other, reading, underway, current⟩ := consistent.covered part
      · exact .inl unchanged
      · exact .inr (.inl published)
      · have different : other ≠ task := by
          rintro rfl
          simp [idle, Announcement.snapshot] at underway
        refine .inr (.inr ⟨other, reading, ?_, current⟩)
        simpa [AnnounceState.change, Function.update_of_ne different] using underway

theorem Consistent.read {task : Task} {part : Part} {snapshot : Reading}
    (reading : state.phase task = .reading part snapshot) :
    Consistent isAdmin first { state with
      phase := update state.phase task
        (.afterReading (snapshot.refresh (state.now isAdmin) part) part) } := by
  have own : (state.phase task).snapshot = some snapshot := by rw [reading]; rfl
  refine ⟨consistent.initial, ?_, consistent.published, ?_⟩
  · intro other found underway
    by_cases same : other = task
    · subst same
      simp only [Function.update_self, Announcement.snapshot_afterReading,
        Option.some.injEq] at underway
      obtain rfl := underway
      exact (consistent.underway other snapshot own).refresh part
    · simp only [Function.update_of_ne same] at underway
      exact consistent.underway other found underway
  · intro covering
    obtain unchanged | published | ⟨other, found, underway, current⟩ := consistent.covered covering
    · exact .inl unchanged
    · exact .inr (.inl published)
    · by_cases same : other = task
      · subst same
        obtain rfl : snapshot = found := Option.some.inj (own.symm.trans underway)
        refine .inr (.inr ⟨other, snapshot.refresh (state.now isAdmin) part, by simp, ?_⟩)
        exact Reading.refresh_current part covering current
      · exact .inr (.inr ⟨other, found, by simpa [Function.update_of_ne same], current⟩)

theorem Consistent.publish {task : Task} {snapshot : Reading}
    (publishing : state.phase task = .publishing snapshot) :
    Consistent isAdmin first { state with
      phase := update state.phase task .done
      published := state.published ++ [snapshot] } := by
  have own : (state.phase task).snapshot = some snapshot := by rw [publishing]; rfl
  refine ⟨consistent.initial, ?_, ?_, ?_⟩
  · intro other found underway
    by_cases same : other = task
    · subst same
      simp [Announcement.snapshot] at underway
    · simp only [Function.update_of_ne same] at underway
      exact consistent.underway other found underway
  · intro reading listed
    obtain earlier | latest := List.mem_append.mp listed
    · exact consistent.published reading earlier
    · obtain rfl := List.mem_singleton.mp latest
      exact consistent.underway task reading own
  · intro part
    obtain unchanged | ⟨reading, listed, current⟩ | ⟨other, found, underway, current⟩ :=
      consistent.covered part
    · exact .inl unchanged
    · exact .inr (.inl ⟨reading, List.mem_append_left _ listed, current⟩)
    · by_cases same : other = task
      · subst same
        obtain rfl : snapshot = found := Option.some.inj (own.symm.trans underway)
        exact .inr (.inl ⟨snapshot, by simp, current⟩)
      · exact .inr (.inr ⟨other, found, by simpa [Function.update_of_ne same], current⟩)

end

theorem consistent_step (first : RunStateStore) (state : AnnounceState Task)
    (action : AnnounceAction Task) (next : AnnounceState Task)
    (consistent : Consistent isAdmin first state) (taken : step isAdmin state action = some next) :
    Consistent isAdmin first next := by
  cases action with simp only [step] at taken
  | change task call =>
    split at taken
    · rename_i idle
      cases taken
      exact consistent.change call idle
    · contradiction
  | read task =>
    split at taken
    · rename_i part snapshot reading
      cases taken
      exact consistent.read reading
    · contradiction
  | publish task =>
    split at taken
    · rename_i snapshot publishing
      cases taken
      exact consistent.publish publishing
    · contradiction

omit [DecidableEq Task] in
theorem Forward.last (forward : state.Forward) {reading : Reading}
    (listed : reading ∈ state.published) :
    ∃ last, state.published.getLast? = some last ∧ reading.version ≤ last.version := by
  obtain empty | ⟨before, last, split⟩ := List.eq_nil_or_concat state.published
  · simp [empty] at listed
  · rw [List.concat_eq_append] at split
    refine ⟨last, by simp [split], ?_⟩
    rw [Forward, split, List.pairwise_append] at forward
    rw [split] at listed
    obtain earlier | latest := List.mem_append.mp listed
    · exact forward.2.2 reading earlier last (List.mem_singleton_self last)
    · rw [List.mem_singleton.mp latest]

omit [DecidableEq Task] in
theorem Consistent.observed_eq
    (consistent : Consistent isAdmin first state) (forward : state.Forward)
    (settled : state.Settled) : state.observed isAdmin first = state.store.state isAdmin := by
  have former : (state.published.getLast?.getD ⟨first.state isAdmin, fun _ => 0⟩).Before
      (state.now isAdmin) := by
    cases heard : state.published.getLast? with
    | none => exact consistent.initial
    | some last => exact consistent.published last (List.mem_of_getLast? heard)
  refine RunState.eq_of_same former.1 fun part => (former.2 part).2 ?_
  have older := (former.2 part).1
  obtain unchanged | ⟨reading, listed, current⟩ | ⟨task, found, underway, -⟩ :=
    consistent.covered part
  · exact Nat.le_antisymm older ((Nat.le_of_eq unchanged).trans (Nat.zero_le _))
  · obtain ⟨last, heard, fresher⟩ := forward.last listed
    rw [heard, Option.getD_some] at older ⊢
    exact Nat.le_antisymm older ((Nat.le_of_eq current.symm).trans (fresher part))
  · simp [settled task] at underway

theorem forward_step {state next : AnnounceState Task} {action : AnnounceAction Task}
    (taken : step isAdmin state action = some next) :
    next.Forward ↔ state.Forward ∧ state.InOrder action := by
  cases action with simp only [step] at taken
  | change task call | read task =>
    split at taken
    · cases taken
      exact (and_iff_left trivial).symm
    · contradiction
  | publish task =>
    split at taken
    · rename_i snapshot publishing
      cases taken
      simp only [Forward, InOrder, publishing]
      rw [List.pairwise_append]
      constructor
      · rintro ⟨forward, -, newest⟩
        refine ⟨forward, fun last heard => ?_⟩
        exact newest last (List.mem_of_getLast? heard) snapshot (List.mem_singleton_self snapshot)
      · rintro ⟨forward, inOrder⟩
        refine ⟨forward, List.pairwise_singleton _ _, fun earlier listed newest latest => ?_⟩
        obtain rfl := List.mem_singleton.mp latest
        obtain ⟨last, heard, fresher⟩ := Forward.last forward listed
        exact fresher.trans (inOrder last heard)
    · contradiction

theorem forward_run {state final : AnnounceState Task} {actions : List (AnnounceAction Task)}
    (ran : Transition.run (step isAdmin) state actions = some final) :
    final.Forward ↔ state.Forward ∧ Meets (step isAdmin) InOrder state actions := by
  induction actions generalizing state with
  | nil =>
    obtain rfl : state = final := Option.some.inj ran
    simp [Meets]
  | cons action rest ih =>
    obtain ⟨next, taken, remaining⟩ := (Transition.run_cons_iff _ state final action rest).mp ran
    rw [ih remaining, forward_step taken, and_assoc]
    simp [Meets, taken]

/-- In every run of any number of calls, the observers never see the state go back, and hold the
state of the store once no announcement is under way, exactly when nothing is published that was
read before a change already published. -/
theorem observers_hold_state (first : RunStateStore) (actions : List (AnnounceAction Task))
    (final : AnnounceState Task) (ran : Transition.run (step isAdmin) (start first) actions = some final) :
    final.Forward ∧ (final.Settled → final.observed isAdmin first = final.store.state isAdmin) ↔
      Meets (step isAdmin) InOrder (start first) actions := by
  have consistent : Consistent isAdmin first final :=
    Transition.run_invariant (consistent_step first) (consistent_start first) ran
  have initially : (start first : AnnounceState Task).Forward := List.Pairwise.nil
  have forward := forward_run ran
  constructor
  · rintro ⟨moved, -⟩
    exact (forward.mp moved).2
  · intro inOrder
    have moved := forward.mpr ⟨initially, inOrder⟩
    exact ⟨moved, consistent.observed_eq moved⟩

section

/-- All steps of a task that is interrupted before it publishes. -/
def announcing (task : Bool) (call : Mutation) : List (AnnounceAction Bool) :=
  [.change task call, .read task, .read task, .read task]

/-- The service is found ready and then absent, and the announcements cross: the observers are
left with a ready service. -/
theorem crossing_announcements :
    ¬ ∀ (actions : List (AnnounceAction Bool)) (final : AnnounceState Bool),
      Transition.run (step false) (start .new) actions = some final → final.Settled →
      final.observed false .new = final.store.state false := by
  intro hold
  have left := hold (announcing false (.observe .ready) ++
    announcing true (.observe .notInstalled) ++ [.publish true, .publish false]) _ rfl
    (by rintro (_ | _) <;> rfl)
  revert left
  decide

/-- One announcement after the other leaves the observers with the state of the store. -/
theorem announcements_in_turn :
    let actions := announcing false (.observe .ready) ++ [.publish false] ++
      announcing true (.observe .notInstalled) ++ [.publish true]
    let final := ((Transition.run (step false) (start .new) actions).get rfl : AnnounceState Bool)
    final.Forward ∧ (final.Settled → final.observed false .new = final.store.state false) ↔
      Meets (step false) InOrder (start .new) actions :=
  observers_hold_state .new _ _ (Option.some_get _).symm

end

end AnnounceState

end ClashVerge.Runstate
