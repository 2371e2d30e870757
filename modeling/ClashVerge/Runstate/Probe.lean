import ClashVerge.Library.Transition
import ClashVerge.Runstate.Store

/-!
# Probing the service

`probe` and `await_ready` ask the service for its version and record the reply. The store may be
changed by anyone in the meantime; the reply is recorded by `observe`, without a reservation made
before the question was asked.

The module counts the observations and intents that were recorded, so that a reply can be told to be
late.
-/

namespace ClashVerge.Runstate

open Function (update)
open Transition (Meets)

/-- What the service says of the core it was approved for. -/
inductive CoreAvailability where
  | ready
  | missing
  | digestMismatch
  | rejected (reason : String)
deriving DecidableEq

/-- The protocol of the service, as far as the verdict on a reply reads it. -/
structure ServiceIpc (Info : Type) where
  version : String
  minRequiredServiceRevision : Nat
  clientEpoch : Nat
  buildVersion : Info → String
  epoch : Info → Nat
  revision : Info → Nat
  /-- The service speaks a protocol that this client and the required revision can use. -/
  supportsClient : Info → Bool

structure ServiceVersionReply (Info : Type) where
  code : Nat
  message : String
  protocol : Option Info
  core : Option CoreAvailability

inductive ServiceVersionCheck where
  | ready
  | needsReinstall (error : String)
  | coreUnavailable (error : String)
deriving DecidableEq

section

variable {Info : Type} (ipc : ServiceIpc Info) (reply : ServiceVersionReply Info)

def ServiceVersionReply.compatible : Bool :=
  reply.code = 0 &&
    reply.protocol.any fun info => ipc.buildVersion info = ipc.version && ipc.supportsClient info

def ServiceVersionReply.detail : String :=
  if reply.code = 0 then
    match reply.protocol with
    | some info =>
      s!"client requires service version {ipc.version} with epoch {ipc.clientEpoch} revision " ++
      s!">= {ipc.minRequiredServiceRevision}, service reports epoch {ipc.epoch info} revision " ++
      s!"{ipc.revision info} (build {ipc.buildVersion info})"
    | none => "service did not report protocol information"
  else
    s!"protocol query returned code {reply.code} ({reply.message}) while expecting epoch " ++
    s!"{ipc.clientEpoch}"

def classifyServiceVersionReply : ServiceVersionCheck :=
  if reply.compatible ipc then
    match reply.core with
    | some .ready => .ready
    | some (.rejected reason) => .coreUnavailable s!"approved core was rejected: {reason}"
    | _ => .coreUnavailable ("the selected approved core is missing or does not match; " ++
        "reinstall the service to repair it")
  else
    .needsReinstall (s!"Service helper version or protocol mismatch: {reply.detail ipc}. Choose " ++
      "Reinstall to uninstall the existing service and install the required version")

end

namespace ServiceVersionCheck

/-- The health `record_reply` observes. -/
def health : ServiceVersionCheck → ServiceHealth
  | ready => .ready
  | coreUnavailable error => .unavailable error
  | needsReinstall _ => .versionMismatch

/-- The error `record_reply` returns. -/
def rejection : ServiceVersionCheck → Option String
  | ready => none
  | coreUnavailable error | needsReinstall error => some error

end ServiceVersionCheck

/-- Who asks: `probe`, or `await_ready` with the attempts it has left after this one. -/
inductive Caller where
  | probe
  | awaitReady (remaining : Nat)
deriving DecidableEq

inductive ProbeError where
  | transport (error : String)
  | unreachable (error : String)
  | rejected (error : String)
deriving DecidableEq

/-- Where a task stands. A question carries the count of what had been recorded when it was
asked. -/
inductive Phase (Info : Type) where
  | idle
  | asking (caller : Caller) (began : Nat)
  | answered (caller : Caller) (began : Nat) (reply : ServiceVersionReply Info)
  | recorded (check : ServiceVersionCheck)
  | sleeping (remaining : Nat)
  | finished (outcome : Except ProbeError RunState)

/-- The store, how many observations and intents were recorded in it, and the tasks. -/
structure ProbeState (Task Info : Type) where
  store : RunStateStore
  learned : Nat
  phase : Task → Phase Info

/-- Steps of the probing tasks, and the calls of everyone else. -/
inductive ProbeAction (Task Info : Type) where
  | probe (task : Task)
  | awaitReady (task : Task) (attempts : Nat)
  | answer (task : Task) (reply : ServiceVersionReply Info)
  | fail (task : Task) (error : String)
  | wake (task : Task)
  | record (task : Task)
  | finish (task : Task)
  | mutate (call : Mutation)

namespace ProbeState

variable {Task Info : Type} [DecidableEq Task]

def start (store : RunStateStore) : ProbeState Task Info := ⟨store, 0, fun _ => .idle⟩

def enter (state : ProbeState Task Info) (task : Task) (phase : Phase Info) :
    ProbeState Task Info :=
  { state with phase := update state.phase task phase }

def ask (state : ProbeState Task Info) (task : Task) (caller : Caller) : ProbeState Task Info :=
  state.enter task (.asking caller state.learned)

/-- The first attempt of `await_ready`, or its refusal to wait without any. -/
def await (state : ProbeState Task Info) (task : Task) : Nat → ProbeState Task Info
  | 0 => state.enter task
      (.finished (.error (.unreachable "service readiness wait was configured with no attempts")))
  | remaining + 1 => state.ask task (.awaitReady remaining)

/-- No reply arrived. Only `await_ready` tries again, and not after its last attempt. -/
def miss (state : ProbeState Task Info) (task : Task) (error : String) :
    Caller → ProbeState Task Info
  | .probe => state.enter task (.finished (.error (.transport error)))
  | .awaitReady 0 => state.enter task (.finished (.error (.unreachable error)))
  | .awaitReady (remaining + 1) => state.enter task (.sleeping remaining)

/-- The first half of `record_reply`, under the lock of the store. -/
def recordReply (state : ProbeState Task Info) (task : Task) (check : ServiceVersionCheck) :
    ProbeState Task Info :=
  { state.enter task (.recorded check) with
    store := (state.store.observe check.health).store
    learned := state.learned + 1 }

/-- The second half of `record_reply` reads the state anew. -/
def outcome (state : ProbeState Task Info) (isAdmin : Bool) (check : ServiceVersionCheck) :
    Except ProbeError RunState :=
  match check.rejection with
  | none => .ok (state.store.state isAdmin)
  | some error => .error (.rejected error)

/-- Anyone else changes the store. -/
def mutate (state : ProbeState Task Info) (call : Mutation) : ProbeState Task Info :=
  { state with
    store := (call.apply state.store).store
    learned := state.learned + (call.learns state.store).toNat }

/-- Something was recorded since the question of this task was asked. -/
def Late (state : ProbeState Task Info) (task : Task) : Prop :=
  match state.phase task with
  | .answered _ began _ => began < state.learned
  | _ => False

/-- One step of one task, or a call of someone else. -/
def step (ipc : ServiceIpc Info) (isAdmin : Bool) (state : ProbeState Task Info) :
    ProbeAction Task Info → Option (ProbeState Task Info)
  | .probe task =>
    match state.phase task with
    | .idle => some (state.ask task .probe)
    | _ => none
  | .awaitReady task attempts =>
    match state.phase task with
    | .idle => some (state.await task attempts)
    | _ => none
  | .answer task reply =>
    match state.phase task with
    | .asking caller began => some (state.enter task (.answered caller began reply))
    | _ => none
  | .fail task error =>
    match state.phase task with
    | .asking caller _ => some (state.miss task error caller)
    | _ => none
  | .wake task =>
    match state.phase task with
    | .sleeping remaining => some (state.ask task (.awaitReady remaining))
    | _ => none
  | .record task =>
    match state.phase task with
    | .answered _ _ reply => some (state.recordReply task (classifyServiceVersionReply ipc reply))
    | _ => none
  | .finish task =>
    match state.phase task with
    | .recorded check => some (state.enter task (.finished (state.outcome isAdmin check)))
    | _ => none
  | .mutate call => some (state.mutate call)

/-- Recording a late reply leaves the health, the pending action and the allowance alone. -/
def KeepsNewer (ipc : ServiceIpc Info) (isAdmin : Bool) (state : ProbeState Task Info) :
    ProbeAction Task Info → Prop
  | .record task => state.Late task → ∀ next, step ipc isAdmin state (.record task) = some next →
      next.store.service.service = state.store.service.service
  | _ => True

/-- A reply is recorded before anything else is, or says what already stands. -/
def Timely (ipc : ServiceIpc Info) (state : ProbeState Task Info) : ProbeAction Task Info → Prop
  | .record task =>
    match state.phase task with
    | .answered _ began reply =>
      began = state.learned ∨ state.store.Stands (classifyServiceVersionReply ipc reply).health
    | _ => True
  | _ => True

/-- No question was asked after what has been recorded by now. -/
def Counted (state : ProbeState Task Info) : Prop :=
  ∀ task caller began reply,
    (state.phase task = .asking caller began → began ≤ state.learned) ∧
    (state.phase task = .answered caller began reply → began ≤ state.learned)

omit [DecidableEq Task] in
theorem counted_start (store : RunStateStore) : (start store : ProbeState Task Info).Counted := by
  intro task caller began reply
  constructor <;> intro at_ <;> simp [start] at at_

theorem Counted.enter {state : ProbeState Task Info} (counted : state.Counted) (task : Task)
    (phase : Phase Info) (asking : ∀ caller began, phase = .asking caller began →
      began ≤ state.learned)
    (answered : ∀ caller began reply, phase = .answered caller began reply →
      began ≤ state.learned) : (state.enter task phase).Counted := by
  intro other caller began reply
  by_cases same : other = task
  · subst same
    simp only [ProbeState.enter, Function.update_self]
    exact ⟨asking caller began, answered caller began reply⟩
  · simp only [ProbeState.enter, Function.update_of_ne same]
    exact counted other caller began reply

omit [DecidableEq Task] in
theorem Counted.learn {state : ProbeState Task Info} (counted : state.Counted)
    (store : RunStateStore) (more : Nat) :
    ({ state with store := store, learned := state.learned + more } :
      ProbeState Task Info).Counted := by
  intro task caller began reply
  obtain ⟨asking, answered⟩ := counted task caller began reply
  exact ⟨fun at_ => Nat.le_add_right_of_le (asking at_),
    fun at_ => Nat.le_add_right_of_le (answered at_)⟩

theorem Counted.ask {state : ProbeState Task Info} (counted : state.Counted) (task : Task)
    (caller : Caller) : (state.ask task caller).Counted := by
  refine counted.enter task _ ?_ (by simp)
  intro _ began asked
  obtain ⟨-, rfl⟩ := Phase.asking.inj asked
  exact Nat.le_refl _

theorem counted_step (ipc : ServiceIpc Info) (isAdmin : Bool) (state : ProbeState Task Info)
    (action : ProbeAction Task Info) (next : ProbeState Task Info) (counted : state.Counted)
    (taken : step ipc isAdmin state action = some next) : next.Counted := by
  cases action with simp only [step] at taken
  | mutate call =>
    cases taken
    exact counted.learn _ _
  | probe task =>
    split at taken
    · cases taken
      exact counted.ask task .probe
    · contradiction
  | awaitReady task attempts =>
    split at taken
    · cases taken
      cases attempts with
      | zero => exact counted.enter task _ (by simp) (by simp)
      | succ remaining => exact counted.ask task (.awaitReady remaining)
    · contradiction
  | answer task reply =>
    split at taken
    · rename_i caller began at_
      cases taken
      refine counted.enter task _ (by simp) ?_
      intro _ _ _ answered
      obtain ⟨-, rfl, -⟩ := Phase.answered.inj answered
      exact (counted task caller began reply).1 at_
    · contradiction
  | fail task error =>
    split at taken
    · rename_i caller began at_
      cases taken
      obtain _ | _ | remaining := caller <;> exact counted.enter task _ (by simp) (by simp)
    · contradiction
  | wake task =>
    split at taken
    · rename_i remaining at_
      cases taken
      exact counted.ask task (.awaitReady remaining)
    · contradiction
  | record task =>
    split at taken
    · cases taken
      exact (counted.enter task _ (by simp) (by simp)).learn _ _
    · contradiction
  | finish task =>
    split at taken
    · cases taken
      exact counted.enter task _ (by simp) (by simp)
    · contradiction

theorem keepsNewer_iff_timely (ipc : ServiceIpc Info) (isAdmin : Bool)
    (state : ProbeState Task Info) (action : ProbeAction Task Info) (counted : state.Counted) :
    state.KeepsNewer ipc isAdmin action ↔ state.Timely ipc action := by
  cases action with
  | record task =>
    simp only [KeepsNewer, Timely, Late, step]
    split
    · rename_i caller began reply at_
      have known : began ≤ state.learned := (counted task caller began reply).2 at_
      have kept := RunStateStore.observe_keeps_iff state.store
        (classifyServiceVersionReply ipc reply).health
      simp only [Option.some.injEq, forall_eq', recordReply, kept]
      constructor
      · intro keeps
        obtain fresh | late := Nat.eq_or_lt_of_le known
        · exact .inl fresh
        · exact .inr (keeps late)
      · intro timely late
        exact timely.resolve_left late.ne
    · simp
  | _ => exact Iff.rfl

/-- In every run of any number of probing tasks among any other calls, late replies leave newer
knowledge alone exactly when each reply is recorded before any other observation or intent, or
says what already stands. -/
theorem late_replies_keep_newer (ipc : ServiceIpc Info) (isAdmin : Bool) (store : RunStateStore)
    (actions : List (ProbeAction Task Info)) :
    Meets (step ipc isAdmin) (KeepsNewer ipc isAdmin) (start store) actions ↔
      Meets (step ipc isAdmin) (Timely ipc) (start store) actions :=
  Meets.congr_of_invariant Counted (counted_step ipc isAdmin)
    (keepsNewer_iff_timely ipc isAdmin) (counted_start store) actions

end ProbeState

section

/-- A service whose protocol every client can use. -/
def anyIpc : ServiceIpc Unit where
  version := "2"
  minRequiredServiceRevision := 0
  clientEpoch := 0
  buildVersion := fun _ => "2"
  epoch := fun _ => 0
  revision := fun _ => 0
  supportsClient := fun _ => true

/-- A probe asks, the service is found ready meanwhile, and an outdated refusal is recorded. -/
theorem late_refusal_hides_ready :
    ¬ Meets (ProbeState.step anyIpc false) (ProbeState.KeepsNewer anyIpc false)
      (ProbeState.start .new : ProbeState Unit Unit)
      [.probe (), .mutate (.observe .ready), .answer () ⟨1, "starting", none, none⟩,
        .record ()] := by
  intro meets
  have kept := meets.2 _ rfl |>.2 _ rfl |>.2 _ rfl |>.1 Nat.zero_lt_one _ rfl
  revert kept
  decide

end

end ClashVerge.Runstate
