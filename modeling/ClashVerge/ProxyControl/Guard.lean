import ClashVerge.Library.Transition

/-!
# The system proxy guard that writes through the service

A guard writes the system proxy again and again until its generation is invalidated. A final
operation, a stop and a refresh each invalidate the generation first and then wait for the operation
lock, under which a guard's request checks what it has captured and writes. The generation is an
atomic counter of 64 bits, kept here as a number that the code sees modulo `UInt64.size`.

Any number of tasks make these calls. Each check, each write's beginning and its end is a step, and
a call that has begun runs to its end. What the service replies, and when its session or the running
mode change, is left open.

The lock drains a write in flight before another operation writes. It does not order the
invalidation itself: that may come between a request's last check and its write.
-/

namespace ClashVerge.ProxyControl

open Function (update)

structure OwnerSessionProof where
  generation : Nat
  token : String
deriving DecidableEq

inductive MacosProxyConfig where
  | disabled
  | pac (url : String)
  | global (host : String) (port : Nat) (bypass : String)
deriving DecidableEq

inductive ProxyApplyOutcome where
  | applied
  | notRequested
  | directFallback (message : String)

def directFallbackText (detail : String) : String :=
  "system proxy failed and fell back to direct: " ++ detail

def guardStoppedText (detail : String) : String :=
  "system proxy guard stopped after repeated failures: " ++ detail

def serviceApplyResult (requested : MacosProxyConfig) : ProxyApplyOutcome → Except String Unit
  | .applied => .ok ()
  | .notRequested => .ok ()
  | .directFallback message =>
    if requested = .disabled then .ok () else .error (directFallbackText message)

def guardFailuresBeforeStopping : Nat := 3

/-- What a guard has captured when it was started. -/
structure Captured where
  generation : Nat
  proof : OwnerSessionProof
  proxy : MacosProxyConfig
deriving DecidableEq

/-- `run_final_service_operation`, and `cancel_and_drain` in `stop_guard` and `refresh_guard`. -/
inductive Call where
  | final
  | stop
  | refresh
deriving DecidableEq

/-- Where a task stands. Calls carry the generation they made, guards what they captured, and a
request or report past its check the generation that the check read. -/
inductive Phase where
  | idle
  | waiting (call : Call) (generation : Nat)
  | holding (call : Call) (generation : Nat)
  | operating (call : Call) (generation : Nat)
  | drained (generation : Nat)
  | guarding (captured : Captured) (failures : Nat)
  | requestWaiting (captured : Captured) (failures : Nat)
  | requestHolding (captured : Captured) (failures : Nat)
  | requestCurrent (captured : Captured) (failures : Nat) (read : Nat)
  | requestInMode (captured : Captured) (failures : Nat) (read : Nat)
  | requestProven (captured : Captured) (failures : Nat) (read : Nat)
  | writing (captured : Captured) (failures : Nat) (read : Nat)
  | reportWaiting (captured : Captured) (detail : String)
  | reportHolding (captured : Captured) (detail : String)
  | reportCurrent (captured : Captured) (detail : String) (read : Nat)
deriving DecidableEq

structure State (Task : Type) where
  guardGeneration : Nat
  operationLock : Option Task
  phase : Task → Phase
  activeSession : Option OwnerSessionProof
  serviceMode : Bool
  guardFailure : Option String
  /-- The generations of the calls that have begun their own operation. -/
  begun : List Nat

inductive Action (Task : Type) where
  | setSession (session : Option OwnerSessionProof)
  | setMode (service : Bool)
  | retireGuardFailures
  | invalidateGuard (task : Task) (call : Call)
  | acquire (task : Task)
  | beginOperation (task : Task)
  | endOperation (task : Task)
  /-- `refresh_guard` starts a guard for this configuration, or returns. -/
  | startGuard (task : Task) (proxy : Option MacosProxyConfig)
  | request (task : Task)
  | checkGeneration (task : Task)
  | checkMode (task : Task)
  | checkProof (task : Task)
  | write (task : Task)
  | reply (task : Task) (outcome : Except String ProxyApplyOutcome)
  | record (task : Task)

section

variable {Task : Type} [DecidableEq Task]

/-- Nobody has called anything yet. -/
def State.new (activeSession : Option OwnerSessionProof) (serviceMode : Bool) : State Task where
  guardGeneration := 0
  operationLock := none
  phase _ := .idle
  activeSession
  serviceMode
  guardFailure := none
  begun := []

namespace State

variable (state : State Task)

/-- `guard_generation_is_current`. -/
def isCurrent (captured : Nat) : Bool := state.guardGeneration % UInt64.size == captured % UInt64.size

def setPhase (task : Task) (phase : Phase) : State Task :=
  { state with phase := update state.phase task phase }

def release (task : Task) (phase : Phase) : State Task :=
  { state.setPhase task phase with operationLock := none }

/-- The next phase of a guard whose request has failed. -/
def afterFailure (captured : Captured) (failures : Nat) (error : String) : Phase :=
  if guardFailuresBeforeStopping ≤ failures + 1 then .reportWaiting captured error
  else .guarding captured (failures + 1)

end State

def Phase.locked : Phase → Option Phase
  | .waiting call generation => some (.holding call generation)
  | .requestWaiting captured failures => some (.requestHolding captured failures)
  | .reportWaiting captured detail => some (.reportHolding captured detail)
  | _ => none

def step (state : State Task) : Action Task → Option (State Task)
  | .setSession session => some { state with activeSession := session }
  | .setMode service => some { state with serviceMode := service }
  | .retireGuardFailures => some { state with guardFailure := none }
  | .invalidateGuard task call =>
    match state.phase task with
    | .idle => some { state.setPhase task (.waiting call (state.guardGeneration + 1)) with
        guardGeneration := state.guardGeneration + 1 }
    | _ => none
  | .acquire task =>
    match state.operationLock, (state.phase task).locked with
    | none, some phase => some { state.setPhase task phase with operationLock := some task }
    | _, _ => none
  | .beginOperation task =>
    match state.phase task with
    | .holding call generation => some { state.setPhase task (.operating call generation) with
        begun := state.begun ++ [generation] }
    | _ => none
  | .endOperation task =>
    match state.phase task with
    | .operating .refresh generation => some (state.release task (.drained generation))
    | .operating _ _ => some (state.release task .idle)
    | _ => none
  | .startGuard task proxy =>
    match state.phase task with
    | .drained generation =>
      match proxy, state.activeSession with
      | some proxy, some proof => some (state.setPhase task (.guarding ⟨generation, proof, proxy⟩ 0))
      | _, _ => some (state.setPhase task .idle)
    | _ => none
  | .request task =>
    match state.phase task with
    | .guarding captured failures => some (state.setPhase task (.requestWaiting captured failures))
    | _ => none
  | .checkGeneration task =>
    match state.phase task with
    | .requestHolding captured failures =>
      if state.isCurrent captured.generation then
        some (state.setPhase task (.requestCurrent captured failures state.guardGeneration))
      else some (state.release task .idle)
    | .reportHolding captured detail =>
      if state.isCurrent captured.generation then
        some (state.setPhase task (.reportCurrent captured detail state.guardGeneration))
      else some (state.release task .idle)
    | _ => none
  | .checkMode task =>
    match state.phase task with
    | .requestCurrent captured failures read =>
      if state.serviceMode then
        some (state.setPhase task (.requestInMode captured failures read))
      else some (state.release task .idle)
    | _ => none
  | .checkProof task =>
    match state.phase task with
    | .requestInMode captured failures read =>
      if state.activeSession = some captured.proof then
        some (state.setPhase task (.requestProven captured failures read))
      else some (state.release task .idle)
    | _ => none
  | .write task =>
    match state.phase task with
    | .requestProven captured failures read =>
      some (state.setPhase task (.writing captured failures read))
    | _ => none
  | .reply task outcome =>
    match state.phase task with
    | .writing captured failures _ =>
      match outcome.bind (serviceApplyResult captured.proxy) with
      | .ok () => some (state.release task (.guarding captured 0))
      | .error error => some (state.release task (State.afterFailure captured failures error))
    | _ => none
  | .record task =>
    match state.phase task with
    | .reportCurrent _ detail _ =>
      some { state.release task .idle with guardFailure := some (guardStoppedText detail) }
    | _ => none

def Phase.holdsLock : Phase → Bool
  | .holding .. | .operating .. | .requestHolding .. | .requestCurrent .. | .requestInMode ..
  | .requestProven .. | .writing .. | .reportHolding .. | .reportCurrent .. => true
  | _ => false

/-- A check has found the captured generation, and no call made since has begun its operation. -/
structure Checked (captured read generation : Nat) (begun : List Nat) : Prop where
  since : captured ≤ read
  until_now : read ≤ generation
  same : captured % UInt64.size = read % UInt64.size
  before : ∀ own ∈ begun, own ≤ read

def Phase.Sound (generation : Nat) (begun : List Nat) : Phase → Prop
  | .idle => True
  | .waiting _ own | .holding _ own | .operating _ own | .drained own => own ≤ generation
  | .guarding captured _ | .requestWaiting captured _ | .requestHolding captured _
  | .reportWaiting captured _ | .reportHolding captured _ => captured.generation ≤ generation
  | .requestCurrent captured _ read | .requestInMode captured _ read
  | .requestProven captured _ read | .writing captured _ read
  | .reportCurrent captured _ read => Checked captured.generation read generation begun

/-- The lock is held by the task whose phase says so, and the generations are in order. -/
structure Coherent (state : State Task) : Prop where
  lock : ∀ task, state.operationLock = some task ↔ (state.phase task).holdsLock = true
  sound : ∀ task, (state.phase task).Sound state.guardGeneration state.begun
  begun : ∀ own ∈ state.begun, own ≤ state.guardGeneration

theorem Phase.Sound.later {generation generation' : Nat} {begun : List Nat} {phase : Phase}
    (sound : phase.Sound generation begun) (later : generation ≤ generation') :
    phase.Sound generation' begun := by
  cases phase <;> simp only [Phase.Sound] at sound ⊢ <;>
    first
    | exact sound.trans later
    | exact { sound with until_now := sound.until_now.trans later }

theorem Phase.Sound.of_unlocked {generation : Nat} {begun begun' : List Nat} {phase : Phase}
    (sound : phase.Sound generation begun) (unlocked : phase.holdsLock = false) :
    phase.Sound generation begun' := by
  cases phase <;> first | exact sound | contradiction

variable {state next : State Task}

/-- One task's move within the rules of the lock. -/
structure Moves (state next : State Task) (task : Task) (phase : Phase) : Prop where
  phases : next.phase = update state.phase task phase
  lock : next.operationLock = if phase.holdsLock then some task
    else if (state.phase task).holdsLock then none else state.operationLock
  free : phase.holdsLock = true → (state.phase task).holdsLock = true ∨ state.operationLock = none
  later : state.guardGeneration ≤ next.guardGeneration
  sound : phase.Sound next.guardGeneration next.begun
  begun : next.begun = state.begun ∨ (state.phase task).holdsLock = true ∧
    ∃ own ≤ state.guardGeneration, next.begun = state.begun ++ [own]

omit [DecidableEq Task] in
theorem Coherent.alone (coherent : Coherent state) {task other : Task}
    (own : (state.phase task).holdsLock = true) (theirs : (state.phase other).holdsLock = true) :
    other = task := by
  have held := (coherent.lock task).mpr own
  exact Option.some.inj (((coherent.lock other).mpr theirs).symm.trans held)

theorem Coherent.move (coherent : Coherent state) {task : Task} {phase : Phase}
    (moves : Moves state next task phase) : Coherent next := by
  obtain ⟨phases, lock, free, later, sound, begun⟩ := moves
  have own : next.phase task = phase := by rw [phases, Function.update_self]
  have others : ∀ other, other ≠ task → next.phase other = state.phase other :=
    fun other different => by rw [phases, Function.update_of_ne different]
  refine ⟨fun other => ?_, fun other => ?_, fun generation member => ?_⟩
  · by_cases same : other = task
    · subst same
      rw [own, lock]
      cases holds : phase.holdsLock with
      | true => simp
      | false =>
        cases held : (state.phase other).holdsLock with
        | true => simp
        | false =>
          have without := mt (coherent.lock other).mp (by simp [held])
          simpa using without
    · rw [others other same, lock, ← coherent.lock other]
      cases holds : phase.holdsLock with
      | true =>
        obtain held | unheld := free holds
        · simp [(coherent.lock task).mpr held, Ne.symm same]
        · simp [unheld, Ne.symm same]
      | false =>
        cases held : (state.phase task).holdsLock with
        | true => simp [(coherent.lock task).mpr held, Ne.symm same]
        | false => simp
  · by_cases same : other = task
    · subst same
      exact own ▸ sound
    · rw [others other same]
      obtain unchanged | ⟨held, -⟩ := begun
      · exact unchanged ▸ (coherent.sound other).later later
      · have unlocked : (state.phase other).holdsLock = false :=
          Bool.eq_false_iff.mpr fun theirs => same (coherent.alone held theirs)
        exact ((coherent.sound other).later later).of_unlocked unlocked
  · obtain unchanged | ⟨-, started, within, appended⟩ := begun
    · exact (coherent.begun generation (unchanged ▸ member)).trans later
    · rw [appended] at member
      obtain earlier | last := List.mem_append.mp member
      · exact (coherent.begun generation earlier).trans later
      · exact List.mem_singleton.mp last ▸ within.trans later

theorem Coherent.setPhase (coherent : Coherent state) {task : Task} {phase : Phase}
    (same : phase.holdsLock = (state.phase task).holdsLock)
    (sound : phase.Sound state.guardGeneration state.begun) :
    Coherent (state.setPhase task phase) := by
  refine coherent.move ⟨rfl, ?_, fun holds => .inl (same ▸ holds), le_rfl, sound, .inl rfl⟩
  cases held : (state.phase task).holdsLock with
  | true => rw [same, held, if_pos rfl]; exact (coherent.lock task).mpr held
  | false => rw [same, held]; rfl

theorem Coherent.release (coherent : Coherent state) {task : Task} {phase : Phase}
    (held : (state.phase task).holdsLock = true) (unlocked : phase.holdsLock = false)
    (sound : phase.Sound state.guardGeneration state.begun) :
    Coherent (state.release task phase) := by
  refine coherent.move ⟨rfl, ?_, by simp [unlocked], le_rfl, sound, .inl rfl⟩
  rw [unlocked, held]
  rfl

theorem Phase.locked_spec {phase locked : Phase} (is_ : phase.locked = some locked) :
    phase.holdsLock = false ∧ locked.holdsLock = true ∧
      ∀ generation begun, phase.Sound generation begun → locked.Sound generation begun := by
  cases phase <;> simp only [Phase.locked, Option.some.injEq, reduceCtorEq] at is_ <;>
    exact is_ ▸ ⟨rfl, rfl, fun _ _ sound => sound⟩

omit [DecidableEq Task] in
theorem coherent_new (activeSession : Option OwnerSessionProof) (serviceMode : Bool) :
    Coherent (State.new activeSession serviceMode : State Task) :=
  ⟨fun _ => by simp [State.new, Phase.holdsLock], fun _ => trivial, by simp [State.new]⟩

omit [DecidableEq Task] in
theorem Coherent.checked (coherent : Coherent state) {captured : Nat}
    (since : captured ≤ state.guardGeneration) (current : state.isCurrent captured = true) :
    Checked captured state.guardGeneration state.guardGeneration state.begun :=
  ⟨since, le_rfl, (beq_iff_eq.mp current).symm, coherent.begun⟩

theorem Coherent.step (coherent : Coherent state) {action : Action Task}
    (taken : ProxyControl.step state action = some next) : Coherent next := by
  cases action with
  | setSession session | setMode service =>
    exact Option.some.inj taken ▸ ⟨coherent.lock, coherent.sound, coherent.begun⟩
  | retireGuardFailures =>
    exact Option.some.inj taken ▸ ⟨coherent.lock, coherent.sound, coherent.begun⟩
  | invalidateGuard task call =>
    simp only [ProxyControl.step] at taken
    split at taken
    · rename_i idle
      cases taken
      exact coherent.move ⟨rfl, by rw [idle]; rfl, by simp [Phase.holdsLock], Nat.le_succ _,
        le_rfl, .inl rfl⟩
    · contradiction
  | acquire task =>
    simp only [ProxyControl.step] at taken
    split at taken
    · rename_i phase free locked
      obtain ⟨unlocked, holds, keeps⟩ := Phase.locked_spec locked
      cases taken
      exact coherent.move ⟨rfl, by rw [holds]; rfl, fun _ => .inr free, le_rfl,
        keeps _ _ (coherent.sound task), .inl rfl⟩
    · contradiction
  | beginOperation task =>
    simp only [ProxyControl.step] at taken
    split at taken
    · rename_i call generation at_
      have sound := coherent.sound task
      rw [at_] at sound
      cases taken
      refine coherent.move ⟨rfl, ?_, fun _ => .inl (by rw [at_]; rfl), le_rfl, sound,
        .inr ⟨by rw [at_]; rfl, generation, sound, rfl⟩⟩
      exact (coherent.lock task).mpr (by rw [at_]; rfl)
    · contradiction
  | endOperation task =>
    have sound := coherent.sound task
    simp only [ProxyControl.step] at taken
    split at taken
    · rename_i generation at_
      rw [at_] at sound
      exact Option.some.inj taken ▸ coherent.release (by rw [at_]; rfl) rfl sound
    · rename_i call generation other at_
      exact Option.some.inj taken ▸ coherent.release (by rw [at_]; rfl) rfl trivial
    · contradiction
  | startGuard task proxy =>
    have sound := coherent.sound task
    simp only [ProxyControl.step] at taken
    split at taken
    · rename_i generation at_
      rw [at_] at sound
      split at taken
      · exact Option.some.inj taken ▸ coherent.setPhase (by rw [at_]; rfl) sound
      · exact Option.some.inj taken ▸ coherent.setPhase (by rw [at_]; rfl) trivial
    · contradiction
  | request task =>
    have sound := coherent.sound task
    simp only [ProxyControl.step] at taken
    split at taken
    · rename_i captured failures at_
      rw [at_] at sound
      exact Option.some.inj taken ▸ coherent.setPhase (by rw [at_]; rfl) sound
    · contradiction
  | checkGeneration task =>
    have sound := coherent.sound task
    simp only [ProxyControl.step] at taken
    split at taken
    · rename_i captured failures at_
      rw [at_] at sound
      split at taken
      · rename_i current
        exact Option.some.inj taken ▸
          coherent.setPhase (by rw [at_]; rfl) (coherent.checked sound current)
      · exact Option.some.inj taken ▸ coherent.release (by rw [at_]; rfl) rfl trivial
    · rename_i captured detail at_
      rw [at_] at sound
      split at taken
      · rename_i current
        exact Option.some.inj taken ▸
          coherent.setPhase (by rw [at_]; rfl) (coherent.checked sound current)
      · exact Option.some.inj taken ▸ coherent.release (by rw [at_]; rfl) rfl trivial
    · contradiction
  | checkMode task | checkProof task =>
    have sound := coherent.sound task
    simp only [ProxyControl.step] at taken
    split at taken
    · rename_i captured failures read at_
      rw [at_] at sound
      split at taken
      · exact Option.some.inj taken ▸ coherent.setPhase (by rw [at_]; rfl) sound
      · exact Option.some.inj taken ▸ coherent.release (by rw [at_]; rfl) rfl trivial
    · contradiction
  | write task =>
    have sound := coherent.sound task
    simp only [ProxyControl.step] at taken
    split at taken
    · rename_i captured failures read at_
      rw [at_] at sound
      exact Option.some.inj taken ▸ coherent.setPhase (by rw [at_]; rfl) sound
    · contradiction
  | reply task outcome =>
    have sound := coherent.sound task
    simp only [ProxyControl.step] at taken
    split at taken
    · rename_i captured failures read at_
      rw [at_] at sound
      have since : captured.generation ≤ state.guardGeneration := sound.since.trans sound.until_now
      split at taken
      · exact Option.some.inj taken ▸ coherent.release (by rw [at_]; rfl) rfl since
      · rename_i error failed
        cases taken
        unfold State.afterFailure
        split
        · exact coherent.release (by rw [at_]; rfl) rfl since
        · exact coherent.release (by rw [at_]; rfl) rfl since
    · contradiction
  | record task =>
    simp only [ProxyControl.step] at taken
    split at taken
    · rename_i captured detail read at_
      have released : Coherent (state.release task .idle) :=
        coherent.release (by rw [at_]; rfl) rfl trivial
      exact Option.some.inj taken ▸ ⟨released.lock, released.sound, released.begun⟩
    · contradiction

/-- What was captured by a task that is about to check its generation. -/
def Phase.checking : Phase → Option Captured
  | .requestHolding captured _ => some captured
  | .reportHolding captured _ => some captured
  | _ => none

/-- What holds of a step with respect to guards that have been invalidated, as long as the counter
has not come round to the generation they have captured. -/
structure NoStaleWrite (state : State Task) (action : Action Task) (next : State Task) : Prop where
  /-- A write that starts is not older than any call that has begun its operation or returned. -/
  fresh : ∀ task captured failures read, action = .write task →
    state.phase task = .requestProven captured failures read → ∀ own ∈ state.begun,
      own ≤ captured.generation ∨ captured.generation + UInt64.size ≤ state.guardGeneration
  /-- A write in flight is complete when a call begins its operation. -/
  drained : ∀ task other captured failures read, action = .beginOperation task →
    state.phase other ≠ .writing captured failures read
  /-- No write starts before that operation is over. -/
  excluded : ∀ task other call own, action = .write task → state.phase other ≠ .operating call own
  /-- A request or report whose generation was changed before its check ends there. -/
  refused : ∀ task captured, action = .checkGeneration task →
    (state.phase task).checking = some captured →
    captured.generation < state.guardGeneration →
      next.phase task = .idle ∨ captured.generation + UInt64.size ≤ state.guardGeneration
  /-- A request goes on to write only with the proof of the active session. -/
  proven : ∀ task captured failures read, action = .checkProof task →
    next.phase task = .requestProven captured failures read →
    state.activeSession = some captured.proof
  /-- A report that changes what is recorded is not older than any call that has begun. -/
  reported : next.guardFailure ≠ state.guardFailure → action = .retireGuardFailures ∨
    ∃ task captured detail read, action = .record task ∧
      state.phase task = .reportCurrent captured detail read ∧ ∀ own ∈ state.begun,
        own ≤ captured.generation ∨ captured.generation + UInt64.size ≤ state.guardGeneration

theorem came_round {captured later : Nat}
    (same : captured % UInt64.size = later % UInt64.size) (older : captured < later) :
    captured + UInt64.size ≤ later := by
  simp only [UInt64.size] at same ⊢
  omega

theorem Checked.fresh {captured read generation own : Nat} {begun : List Nat}
    (checked : Checked captured read generation begun) (member : own ∈ begun) :
    own ≤ captured ∨ captured + UInt64.size ≤ generation := by
  obtain ⟨since, until_now, same, before⟩ := checked
  have early := before own member
  by_cases current : captured = read
  · exact .inl (current ▸ early)
  · exact .inr ((came_round same (lt_of_le_of_ne since current)).trans until_now)

theorem step_guardFailure {action : Action Task}
    (taken : ProxyControl.step state action = some next)
    (changed : next.guardFailure ≠ state.guardFailure) :
    action = .retireGuardFailures ∨ ∃ task captured detail read, action = .record task ∧
      state.phase task = .reportCurrent captured detail read := by
  cases action with
  | retireGuardFailures => exact .inl rfl
  | record task =>
    simp only [ProxyControl.step] at taken
    split at taken
    · rename_i captured detail read at_
      exact .inr ⟨task, captured, detail, read, rfl, at_⟩
    · contradiction
  | setSession | setMode => exact absurd (Option.some.inj taken ▸ rfl) changed
  | invalidateGuard | acquire | beginOperation | endOperation | startGuard | request
  | checkGeneration | checkMode | checkProof | write | reply =>
    simp only [ProxyControl.step] at taken
    split at taken <;> try split at taken
    all_goals first
      | contradiction
      | exact absurd (Option.some.inj taken ▸ rfl) changed

/-- From any reachable state no guard writes or reports that is older than a call which has begun
its operation. -/
theorem no_stale_guard_write (activeSession : Option OwnerSessionProof) (serviceMode : Bool)
    {actions : List (Action Task)} {action : Action Task}
    (ran : Transition.run step (State.new activeSession serviceMode) actions = some state)
    (taken : step state action = some next) : NoStaleWrite state action next := by
  have coherent : Coherent state := Transition.run_invariant
    (fun _ _ _ coherent taken => Coherent.step coherent taken)
    (coherent_new activeSession serviceMode) ran
  refine ⟨?_, ?_, ?_, ?_, ?_, fun changed => ?_⟩
  · rintro task captured failures read - at_ own member
    have sound := coherent.sound task
    rw [at_] at sound
    exact Checked.fresh sound member
  · rintro task other captured failures read rfl at_
    simp only [step] at taken
    split at taken
    · rename_i call generation holding
      have own : (state.phase task).holdsLock = true := by rw [holding]; rfl
      obtain rfl := coherent.alone own (by rw [at_]; rfl)
      simp [holding] at at_
    · contradiction
  · rintro task other call own rfl at_
    simp only [step] at taken
    split at taken
    · rename_i captured failures read proven
      have held : (state.phase task).holdsLock = true := by rw [proven]; rfl
      obtain rfl := coherent.alone held (by rw [at_]; rfl)
      simp [proven] at at_
    · contradiction
  · rintro task captured rfl checking older
    simp only [step] at taken
    split at taken
    · rename_i captured' failures at_
      obtain rfl : captured' = captured := by simpa [at_, Phase.checking] using checking
      split at taken
      · rename_i current
        exact .inr (came_round (beq_iff_eq.mp current).symm older)
      · cases taken
        exact .inl (Function.update_self ..)
    · rename_i captured' detail at_
      obtain rfl : captured' = captured := by simpa [at_, Phase.checking] using checking
      split at taken
      · rename_i current
        exact .inr (came_round (beq_iff_eq.mp current).symm older)
      · cases taken
        exact .inl (Function.update_self ..)
    · contradiction
  · rintro task captured failures read rfl proven
    simp only [step] at taken
    split at taken
    · rename_i captured' failures' read' at_
      split at taken
      · rename_i active
        cases taken
        have same : Phase.requestProven captured' failures' read' =
            .requestProven captured failures read := by
          simpa [State.setPhase] using proven
        cases same
        exact active
      · cases taken
        simp [State.release, State.setPhase] at proven
    · contradiction
  · obtain retired | ⟨task, captured, detail, read, is_, at_⟩ := step_guardFailure taken changed
    · exact .inl retired
    · have sound := coherent.sound task
      rw [at_] at sound
      exact .inr ⟨task, captured, detail, read, is_, at_, fun own => Checked.fresh sound⟩

end

def ownerProof : OwnerSessionProof := ⟨1, "captured"⟩

def guardedProxy : MacosProxyConfig := .global "127.0.0.1" 7897 "localhost"

def guardStarts : List (Action Bool) :=
  [.invalidateGuard false .refresh, .acquire false, .beginOperation false, .endOperation false,
    .startGuard false (some guardedProxy)]

def requestPasses : List (Action Bool) :=
  [.request false, .acquire false, .checkGeneration false, .checkMode false, .checkProof false]

def requestFails : List (Action Bool) :=
  requestPasses ++ [.write false, .reply false (.error "no answer")]

/-- A final operation that waits for a write in flight begins after it. -/
theorem no_stale_guard_write_drained : ∃ state next : State Bool,
      Transition.run step (State.new (some ownerProof) true) (guardStarts ++ requestPasses ++
        [.write false, .invalidateGuard true .final, .reply false (.ok .applied),
          .acquire true]) = some state ∧
      step state (.beginOperation true) = some next ∧
      NoStaleWrite state (.beginOperation true) next := by
  have ran : Transition.run step (State.new (some ownerProof) true) (guardStarts ++ requestPasses ++
      [.write false, .invalidateGuard true .final, .reply false (.ok .applied), .acquire true]) =
        some _ := rfl
  exact ⟨_, _, ran, rfl, no_stale_guard_write (some ownerProof) true ran rfl⟩

/-- A final operation of the task, from its call to its return. -/
def finalOperation : List (Action Bool) :=
  [.invalidateGuard true .final, .acquire true, .beginOperation true, .endOperation true]

theorem run_finalOperation {state : State Bool} (idle : state.phase true = .idle)
    (free : state.operationLock = none) :
    Transition.run step state finalOperation = some { state with
      guardGeneration := state.guardGeneration + 1
      begun := state.begun ++ [state.guardGeneration + 1] } := by
  have back : update state.phase true .idle = state.phase := by
    rw [← idle]
    exact Function.update_eq_self true state.phase
  simp [Transition.run, finalOperation, step, idle, free, State.setPhase, State.release,
    Phase.locked, back]

theorem many_final_operations {state : State Bool} (idle : state.phase true = .idle)
    (free : state.operationLock = none) (count : Nat) :
    ∃ begun, Transition.Reachable step state { state with
      guardGeneration := state.guardGeneration + count, begun } ∧
      (0 < count → state.guardGeneration + count ∈ begun) := by
  induction count with
  | zero => exact ⟨state.begun, Transition.Reachable.refl _, by simp⟩
  | succ count ih =>
    obtain ⟨begun, ⟨actions, ran⟩, -⟩ := ih
    refine ⟨begun ++ [state.guardGeneration + count + 1], ⟨actions ++ finalOperation, ?_⟩,
      fun _ => List.mem_append_right _ (List.mem_singleton_self _)⟩
    rw [Transition.run_append_iff]
    exact ⟨_, ran, run_finalOperation idle free⟩

/-- The guard has been started, and nothing else has happened. -/
def started : State Bool where
  guardGeneration := 1
  operationLock := none
  phase := update (fun _ => .idle) false (.guarding ⟨1, ownerProof, guardedProxy⟩ 0)
  activeSession := some ownerProof
  serviceMode := true
  guardFailure := none
  begun := [1]

theorem run_guardStarts :
    Transition.run step (State.new (some ownerProof) true) guardStarts = some started := by
  simp [Transition.run, guardStarts, step, State.new, State.setPhase, State.release, Phase.locked,
    started]

theorem run_requestPasses {generation : Nat} (same : generation % UInt64.size = 1 % UInt64.size)
    (begun : List Nat) :
    Transition.run step { started with guardGeneration := generation, begun } requestPasses =
      some { started with
        guardGeneration := generation
        begun
        operationLock := some false
        phase := update started.phase false
          (.requestProven ⟨1, ownerProof, guardedProxy⟩ 0 generation) } := by
  have current : ∀ state : State Bool, state.guardGeneration = generation →
      state.isCurrent 1 = true := fun state is_ => by rw [State.isCurrent, is_, same]; rfl
  simp [Transition.run, requestPasses, step, State.setPhase, Phase.locked, started, current]

/-- A guard whose check was passed before the generation changed still writes with its proof, and
still reports; and after as many changes as the counter holds an old guard passes the check. -/
theorem checked_guard_outlives_generation : (∃ (state : State Bool) (captured : Captured),
      Transition.Reachable step (State.new (some ownerProof) true) state ∧
      (∃ failures read, state.phase false = .requestProven captured failures read) ∧
      captured.generation < state.guardGeneration ∧ state.guardGeneration < UInt64.size ∧
      (step state (.write false)).isSome) ∧
    (∃ (state next : State Bool) (captured : Captured),
      Transition.Reachable step (State.new (some ownerProof) true) state ∧
      (∃ detail read, state.phase false = .reportCurrent captured detail read) ∧
      captured.generation < state.guardGeneration ∧ state.guardGeneration < UInt64.size ∧
      step state (.record false) = some next ∧ next.guardFailure ≠ state.guardFailure) ∧
    ∃ (state : State Bool) (captured : Captured) (own : Nat),
      Transition.Reachable step (State.new (some ownerProof) true) state ∧
      (∃ failures read, state.phase false = .requestProven captured failures read) ∧
      own ∈ state.begun ∧ captured.generation < own ∧ (step state (.write false)).isSome := by
  refine ⟨?_, ?_, ?_⟩
  · have ran : Transition.run step (State.new (some ownerProof) true)
        (guardStarts ++ requestPasses ++ [.invalidateGuard true .final]) = some _ := rfl
    exact ⟨_, ⟨1, ownerProof, guardedProxy⟩, ⟨_, ran⟩, ⟨0, 1, rfl⟩, by decide, by decide, rfl⟩
  · have ran : Transition.run step (State.new (some ownerProof) true)
        (guardStarts ++ requestFails ++ requestFails ++ requestFails ++
          [.acquire false, .checkGeneration false, .invalidateGuard true .final]) = some _ := rfl
    refine ⟨_, _, ⟨1, ownerProof, guardedProxy⟩, ⟨_, ran⟩, ⟨"no answer", 1, rfl⟩, by decide,
      by decide, rfl, ?_⟩
    exact Option.some_ne_none _
  · have idle : started.phase true = .idle := rfl
    obtain ⟨begun, ⟨calls, came_round⟩, last⟩ := many_final_operations idle rfl (UInt64.size)
    have began := (Transition.run_append_iff step _ _ _ _).mpr ⟨_, run_guardStarts, came_round⟩
    have same : (1 + UInt64.size) % UInt64.size = 1 % UInt64.size := by decide
    have passed := run_requestPasses same begun
    have ran := (Transition.run_append_iff step _ _ _ _).mpr ⟨_, began, passed⟩
    refine ⟨_, ⟨1, ownerProof, guardedProxy⟩, 1 + UInt64.size, ⟨_, ran⟩, ⟨0, 1 + UInt64.size, rfl⟩,
      last (by decide), by decide, ?_⟩
    simp [step]

end ClashVerge.ProxyControl
