import ClashVerge.Manager.Readiness
import ClashVerge.ProxyControl.Guard
import ClashVerge.Runstate.Store

/-!
# The recovery after an owner loss

A monitor captures the generation it was started with, and a request for the logs the one it finds.
When either learns that the service has another owner, it recovers: it claims the generation that
follows the captured one, invalidates the readiness of the core, waits for the lifecycle lock,
checks the generation and the mode again, and tears the local state down. Starts and stops hold the
lifecycle lock; they start and cancel monitors, which raises the generation too.

Any number of tasks do this, and each access is a step. What the service replies, and what else
changes the readiness and the guard, is left open. `raises` and `ended` are not in the source: they
list what has raised the generation, and the recoveries that are over.
-/

namespace ClashVerge.Service.OwnerRecovery

open Function (update)
open Manager.Readiness (Word Change isActive activeGeneration)
open ProxyControl (OwnerSessionProof)
open Runstate (RunningMode)

structure Captured where
  generation : UInt64
  since : Nat
deriving DecidableEq

/-- What the tear-down does next. -/
inductive Stage where
  | stopGuard
  | clearSession
  | invalidate
  | coreStopped
deriving DecidableEq

inductive Phase where
  | idle
  /-- A start or a stop, with the lifecycle lock. -/
  | operating
  /-- A monitor, before it looks at the generation, at the mode, and at the service. -/
  | monitoring (captured : Captured)
  | watching (captured : Captured)
  | sampling (captured : Captured)
  | requesting (captured : Captured)
  /-- In `recover_after_owner_loss`, from here on. -/
  | called (captured : Captured)
  | inMode (captured : Captured)
  | claimed (captured : Captured)
  /-- The readiness is invalidated: `changed` says that it was another before. -/
  | waiting (captured : Captured) (changed : Bool)
  | holding (captured : Captured) (changed : Bool)
  /-- The generation is still the claimed one. -/
  | current (captured : Captured) (changed : Bool)
  | tearing (captured : Captured) (changed : Bool) (stage : Stage)
deriving DecidableEq

inductive Raise (Task : Type) where
  | start
  | cancel
  | claim (task : Task)
deriving DecidableEq

/-- A call of `recover_after_owner_loss` that is over. -/
structure Ended (Task : Type) where
  task : Task
  captured : Captured
  toreDown : Bool
  changed : Bool
deriving DecidableEq

structure State (Task : Type) where
  /-- `OWNER_MONITOR_GENERATION`. -/
  generation : UInt64
  session : Option OwnerSessionProof
  guardRunning : Bool
  mode : RunningMode
  /-- `core_readiness_state`. -/
  readiness : Word
  lifecycleLock : Option Task
  phase : Task → Phase
  raises : List (Raise Task)
  ended : List (Ended Task)

inductive Action (Task : Type) where
  -- What a start or a stop does under the lifecycle lock, in any order.
  | lock (task : Task)
  | startMonitor (task monitor : Task)
  | cancelMonitors (task : Task)
  | setSession (task : Task) (session : Option OwnerSessionProof)
  | setMode (task : Task) (mode : RunningMode)
  | unlock (task : Task)
  -- What other code does at any time.
  | changeReadiness (change : Change)
  | setGuard (running : Bool)
  -- The loop of a monitor.
  | tickGeneration (monitor : Task)
  | tickMode (monitor : Task)
  | sample (monitor : Task) (recover : Bool)
  -- A request for the logs.
  | capture (task : Task)
  | respond (task : Task) (notActive : Bool)
  -- The recovery.
  | checkMode (task : Task)
  | claim (task : Task)
  | invalidate (task : Task)
  | acquire (task : Task)
  | recheckGeneration (task : Task)
  | recheckMode (task : Task)
  | stopGuard (task : Task)
  | clearSession (task : Task)
  | invalidateAgain (task : Task)
  | coreStopped (task : Task)
deriving DecidableEq

/-- What `invalidate_core_readiness` leaves. -/
def invalidated (word : Word) : Word :=
  ((activeGeneration word).map Manager.Readiness.inactive).getD word

instance (word : Word) (change : Change) : Decidable (change.Allowed word) :=
  match change with
  | .mark => inferInstanceAs (Decidable True)
  | .invalidate => inferInstanceAs (Decidable (isActive word = true))
  | .claim captured => inferInstanceAs (Decidable (word = captured))

variable {Task : Type} [DecidableEq Task]

namespace State

def new : State Task where
  generation := 0
  session := none
  guardRunning := false
  mode := .notRunning
  readiness := 0#64
  lifecycleLock := none
  phase _ := .idle
  raises := []
  ended := []

def setPhase (state : State Task) (task : Task) (phase : Phase) : State Task :=
  { state with phase := update state.phase task phase }

@[simp] theorem setPhase_self (state : State Task) (task : Task) (phase : Phase) :
    (state.setPhase task phase).phase task = phase := Function.update_self ..

theorem setPhase_other (state : State Task) (phase : Phase) {task other : Task}
    (apart : other ≠ task) : (state.setPhase task phase).phase other = state.phase other :=
  Function.update_of_ne apart ..

/-- The `fetch_add` of a start or a cancellation, or the exchange of a claim. -/
def raise (state : State Task) (raise : Raise Task) : State Task :=
  { state with generation := state.generation + 1, raises := state.raises ++ [raise] }

def captured (state : State Task) : Captured := ⟨state.generation, state.raises.length⟩

def finish (state : State Task) (task : Task) (captured : Captured) (toreDown changed : Bool) :
    State Task :=
  { state.setPhase task .idle with
    ended := state.ended ++ [⟨task, captured, toreDown, changed⟩] }

def release (state : State Task) : State Task := { state with lifecycleLock := none }

end State

def step (state : State Task) : Action Task → Option (State Task)
  | .lock task =>
    match state.phase task, state.lifecycleLock with
    | .idle, none => some { state.setPhase task .operating with lifecycleLock := some task }
    | _, _ => none
  | .startMonitor task monitor =>
    match state.phase task, state.phase monitor with
    | .operating, .idle =>
      let raised := state.raise .start
      some (raised.setPhase monitor (.monitoring raised.captured))
    | _, _ => none
  | .cancelMonitors task =>
    match state.phase task with
    | .operating => some (state.raise .cancel)
    | _ => none
  | .setSession task session =>
    match state.phase task with
    | .operating => some { state with session := session }
    | _ => none
  | .setMode task mode =>
    match state.phase task with
    | .operating => some { state with mode := mode }
    | _ => none
  | .unlock task =>
    match state.phase task with
    | .operating => some (state.setPhase task .idle).release
    | _ => none
  | .changeReadiness change =>
    if change.Allowed state.readiness then
      some { state with readiness := change.apply state.readiness }
    else none
  | .setGuard running => some { state with guardRunning := running }
  | .tickGeneration monitor =>
    match state.phase monitor with
    | .monitoring captured =>
      if state.generation = captured.generation then
        some (state.setPhase monitor (.watching captured))
      else some (state.setPhase monitor .idle)
    | _ => none
  | .tickMode monitor =>
    match state.phase monitor with
    | .watching captured =>
      if state.mode = .service then some (state.setPhase monitor (.sampling captured))
      else some (state.setPhase monitor .idle)
    | _ => none
  | .sample monitor recover =>
    match state.phase monitor with
    | .sampling captured =>
      some (state.setPhase monitor (if recover then .called captured else .monitoring captured))
    | _ => none
  | .capture task =>
    match state.phase task with
    | .idle => some (state.setPhase task (.requesting state.captured))
    | _ => none
  | .respond task notActive =>
    match state.phase task with
    | .requesting captured =>
      some (state.setPhase task (if notActive then .called captured else .idle))
    | _ => none
  | .checkMode task =>
    match state.phase task with
    | .called captured =>
      if state.mode = .service then some (state.setPhase task (.inMode captured))
      else some (state.finish task captured false false)
    | _ => none
  | .claim task =>
    match state.phase task with
    | .inMode captured =>
      if state.generation = captured.generation then
        some ((state.raise (.claim task)).setPhase task (.claimed captured))
      else some (state.finish task captured false false)
    | _ => none
  | .invalidate task =>
    match state.phase task with
    | .claimed captured =>
      let readiness := invalidated state.readiness
      some { state.setPhase task (.waiting captured (readiness ≠ state.readiness)) with
        readiness := readiness }
    | _ => none
  | .acquire task =>
    match state.phase task, state.lifecycleLock with
    | .waiting captured changed, none =>
      some { state.setPhase task (.holding captured changed) with lifecycleLock := some task }
    | _, _ => none
  | .recheckGeneration task =>
    match state.phase task with
    | .holding captured changed =>
      if state.generation = captured.generation + 1 then
        some (state.setPhase task (.current captured changed))
      else some (state.finish task captured false changed).release
    | _ => none
  | .recheckMode task =>
    match state.phase task with
    | .current captured changed =>
      if state.mode = .service then
        some (state.setPhase task (.tearing captured changed .stopGuard))
      else some (state.finish task captured false changed).release
    | _ => none
  | .stopGuard task =>
    match state.phase task with
    | .tearing captured changed .stopGuard =>
      some { state.setPhase task (.tearing captured changed .clearSession) with
        guardRunning := false }
    | _ => none
  | .clearSession task =>
    match state.phase task with
    | .tearing captured changed .clearSession =>
      some { state.setPhase task (.tearing captured changed .invalidate) with session := none }
    | _ => none
  | .invalidateAgain task =>
    match state.phase task with
    | .tearing captured changed .invalidate =>
      some { state.setPhase task (.tearing captured changed .coreStopped) with
        readiness := invalidated state.readiness }
    | _ => none
  | .coreStopped task =>
    match state.phase task with
    | .tearing captured changed .coreStopped =>
      some { (state.finish task captured true changed).release with mode := .notRunning }
    | _ => none

def Phase.claim : Phase → Option Captured
  | .claimed captured | .waiting captured _ | .holding captured _ | .current captured _
  | .tearing captured _ _ => some captured
  | _ => none

/-- The call tears down unless it finds that it is stale: it has changed the readiness, or only the
mode is left to check. -/
def Phase.atStake (mode : RunningMode) : Phase → Bool
  | .waiting _ changed | .holding _ changed => changed
  | .current _ changed => changed || mode = .service
  | .tearing _ _ _ => true
  | _ => false

def State.outdates (state : State Task) : Action Task → Bool
  | .startMonitor _ _ | .cancelMonitors _ => true
  | .setMode _ mode => mode ≠ .service
  | .claim task =>
    match state.phase task with
    | .inMode captured => state.generation = captured.generation
    | _ => false
  | _ => false

/-- Nothing but its own claim has raised the generation since it was captured. -/
def Captured.Alone (captured : Captured) (task : Task) (raises : List (Raise Task)) : Prop :=
  raises.drop captured.since = [.claim task]

instance (captured : Captured) (task : Task) (raises : List (Raise Task)) :
    Decidable (captured.Alone task raises) :=
  inferInstanceAs (Decidable (_ = _))

def State.invalidatesStale (state : State Task) : Action Task → Bool
  | .invalidate task =>
    match state.phase task with
    | .claimed captured =>
      isActive state.readiness && !decide (captured.Alone task state.raises ∧ state.mode = .service)
    | _ => false
  | _ => false

/-- The count of the generation does not wrap around; a call that is stale by the time it invalidates
finds no readiness; and after that no call becomes stale while it is at stake. -/
structure Undisturbed (state : State Task) (action : Action Task) : Prop where
  counts : state.raises.length + 1 < UInt64.size
  invalidates : state.invalidatesStale action = false
  outdates : state.outdates action = true → ∀ task, (state.phase task).atStake state.mode = false

instance [Fintype Task] (state : State Task) (action : Action Task) :
    Decidable (Undisturbed state action) :=
  decidable_of_iff (state.raises.length + 1 < UInt64.size ∧ state.invalidatesStale action = false ∧
      (state.outdates action = true → ∀ task, (state.phase task).atStake state.mode = false))
    ⟨fun ⟨counts, invalidates, outdates⟩ => ⟨counts, invalidates, outdates⟩,
      fun ⟨counts, invalidates, outdates⟩ => ⟨counts, invalidates, outdates⟩⟩

/-- The call of `recover_after_owner_loss` that has torn down, or is about to go on with that. -/
def Phase.tearsDown : Phase → Option Captured
  | .tearing captured _ _ => some captured
  | _ => none

/-- The generations for which a recovery has torn down. -/
def State.tornDown (state : State Task) : List Captured :=
  (state.ended.filter (·.toreDown)).map (·.captured)

structure Inert (state : State Task) : Prop where
  /-- A tear-down goes on only while the generation has not been raised but by its own claim. -/
  alone : ∀ task captured, (state.phase task).tearsDown = some captured →
    captured.Alone task state.raises
  /-- No generation has two tear-downs, one under way included. -/
  once : (state.tornDown.map (·.generation)).Nodup
  further : ∀ task captured, (state.phase task).tearsDown = some captured →
    captured.generation ∉ state.tornDown.map (·.generation)
  serial : ∀ task other captured another, (state.phase task).tearsDown = some captured →
    (state.phase other).tearsDown = some another → task = other
  /-- A call that has not torn down has changed nothing. -/
  untouched : ∀ ended ∈ state.ended, ended.toreDown = false → ended.changed = false

def Phase.captured : Phase → Option Captured
  | .idle | .operating => none
  | .monitoring captured | .watching captured | .sampling captured | .requesting captured
  | .called captured | .inMode captured | .claimed captured | .waiting captured _
  | .holding captured _ | .current captured _ | .tearing captured _ _ => some captured

def Phase.locked : Phase → Bool
  | .operating | .holding _ _ | .current _ _ | .tearing _ _ _ => true
  | _ => false

/-- The readiness is changed, and the tear-down has not begun. -/
def Phase.changed : Phase → Bool
  | .waiting _ changed | .holding _ changed | .current _ changed => changed
  | _ => false

def Captured.Counted (captured : Captured) (raises : List (Raise Task)) : Prop :=
  captured.since ≤ raises.length ∧ captured.generation = UInt64.ofNat captured.since

/-- What is known of a task from where it stands. -/
structure Sound (raises : List (Raise Task)) (mode : RunningMode) (lock : Option Task) (task : Task)
    (phase : Phase) : Prop where
  locked : phase.locked = true → lock = some task
  counted : ∀ captured, phase.captured = some captured → captured.Counted raises
  claimed : ∀ captured, phase.claim = some captured → raises[captured.since]? = some (.claim task)
  alone : ∀ captured, phase.claim = some captured → phase.atStake mode = true →
    captured.Alone task raises
  inMode : phase.changed = true → mode = .service

structure Recovering (state : State Task) : Prop where
  counts : state.generation = UInt64.ofNat state.raises.length
  bounded : state.raises.length < UInt64.size
  sound : ∀ task, Sound state.raises state.mode state.lifecycleLock task (state.phase task)
  untouched : ∀ ended ∈ state.ended, ended.toreDown = false → ended.changed = false
  torn : ∀ captured ∈ state.tornDown, captured.Counted state.raises ∧
    captured.since < state.raises.length
  apart : ∀ task captured, (state.phase task).claim = some captured →
    ∀ torn ∈ state.tornDown, torn.since ≠ captured.since
  once : (state.tornDown.map (·.since)).Nodup

theorem ofNat_inj {left right : Nat} (leftBound : left < UInt64.size)
    (rightBound : right < UInt64.size) (same : UInt64.ofNat left = UInt64.ofNat right) :
    left = right := by
  have values := congrArg UInt64.toNat same
  rwa [UInt64.toNat_ofNat_of_lt' leftBound, UInt64.toNat_ofNat_of_lt' rightBound] at values

theorem ofNat_succ (number : Nat) : UInt64.ofNat (number + 1) = UInt64.ofNat number + 1 :=
  UInt64.ofNat_add number 1

omit [DecidableEq Task] in
theorem alone_of_current {captured : Captured} {task : Task} {raises : List (Raise Task)}
    (bounded : raises.length < UInt64.size) (counted : captured.Counted raises)
    (claimed : raises[captured.since]? = some (.claim task))
    (current : UInt64.ofNat raises.length = captured.generation + 1) :
    captured.Alone task raises := by
  obtain ⟨inside, value⟩ := List.getElem?_eq_some_iff.mp claimed
  rw [counted.2, ← ofNat_succ] at current
  have last : raises.length = captured.since + 1 := ofNat_inj bounded (by omega) current
  rw [Captured.Alone, List.drop_eq_getElem_cons inside, value, List.drop_eq_nil_of_le (by omega)]

omit [DecidableEq Task] in
theorem Captured.Alone.last {captured : Captured} {task : Task} {raises : List (Raise Task)}
    (alone : captured.Alone task raises) :
    raises.getLast? = some (.claim task) ∧ raises.length = captured.since + 1 := by
  have size := congrArg List.length alone
  have last := congrArg List.getLast? alone
  rw [List.length_drop, List.length_singleton] at size
  rw [List.getLast?_drop, if_neg (by omega), List.getLast?_singleton] at last
  exact ⟨last, by omega⟩

omit [DecidableEq Task] in
theorem Captured.Counted.raise {captured : Captured} {raises : List (Raise Task)}
    (counted : captured.Counted raises) (raise : Raise Task) :
    captured.Counted (raises ++ [raise]) :=
  ⟨by rw [List.length_append]; exact Nat.le_add_right_of_le counted.1, counted.2⟩

section Sound

variable {raises : List (Raise Task)} {mode : RunningMode} {lock : Option Task} {task : Task}
variable {phase : Phase}

omit [DecidableEq Task] in
theorem Sound.raise (sound : Sound raises mode lock task phase) (raise : Raise Task)
    (calm : phase.atStake mode = false) : Sound (raises ++ [raise]) mode lock task phase where
  locked := sound.locked
  counted captured is_ := (sound.counted captured is_).raise raise
  claimed captured is_ := by
    have claimed := sound.claimed captured is_
    obtain ⟨inside, _⟩ := List.getElem?_eq_some_iff.mp claimed
    rw [List.getElem?_append_left inside]
    exact claimed
  alone _ _ stake := by
    rw [calm] at stake
    contradiction
  inMode := sound.inMode

omit [DecidableEq Task] in
theorem Sound.relock (sound : Sound raises mode lock task phase) {after : Option Task}
    (kept : lock = some task → after = some task) : Sound raises mode after task phase where
  locked is_ := kept (sound.locked is_)
  counted := sound.counted
  claimed := sound.claimed
  alone := sound.alone
  inMode := sound.inMode

omit [DecidableEq Task] in
/-- So does one where the mode changes under the lock, unless it is at stake and the mode is no
longer the service's. -/
theorem Sound.remode (sound : Sound raises mode lock task phase) {after : RunningMode}
    (free : phase.locked = false) (calm : after ≠ .service → phase.atStake mode = false) :
    Sound raises after lock task phase where
  locked := sound.locked
  counted := sound.counted
  claimed := sound.claimed
  alone captured is_ stake := by
    refine sound.alone captured is_ ?_
    cases phase <;> simp_all [Phase.atStake, Phase.locked]
  inMode changed := by
    by_contra left
    have quiet := calm left
    cases phase <;> simp_all [Phase.atStake, Phase.changed, Phase.locked]

end Sound

theorem Phase.claim_of_atStake {phase : Phase} {mode : RunningMode}
    (stake : phase.atStake mode = true) : ∃ captured, phase.claim = some captured := by
  cases phase <;> simp_all [Phase.atStake, Phase.claim]

variable {state next : State Task}

theorem Recovering.move (old : Recovering state) (task : Task)
    (generation : next.generation = state.generation) (raises : next.raises = state.raises)
    (mode : next.mode = state.mode) (ended : next.ended = state.ended)
    (others : ∀ other, other ≠ task → next.phase other = state.phase other)
    (lock : ∀ other, other ≠ task → state.lifecycleLock = some other →
      next.lifecycleLock = some other)
    (claim : ∀ captured, (next.phase task).claim = some captured →
      ∀ torn ∈ state.tornDown, torn.since ≠ captured.since)
    (sound : Sound state.raises state.mode next.lifecycleLock task (next.phase task)) :
    Recovering next := by
  have tornDown : next.tornDown = state.tornDown := by rw [State.tornDown, ended]; rfl
  refine ⟨by rw [generation, raises, old.counts], by rw [raises]; exact old.bounded, ?_,
    by rw [ended]; exact old.untouched, by rw [tornDown, raises]; exact old.torn, ?_,
    by rw [tornDown]; exact old.once⟩
  · intro other
    rw [raises, mode]
    by_cases same : other = task
    · exact same ▸ sound
    · rw [others other same]
      exact (old.sound other).relock (lock other same)
  · intro other captured is_
    rw [tornDown]
    by_cases same : other = task
    · rw [same] at is_
      exact claim captured is_
    · rw [others other same] at is_
      exact old.apart other captured is_

variable {task : Task}

theorem Recovering.setPhase (old : Recovering state) {after : Phase}
    (claim : ∀ captured, after.claim = some captured →
      ∀ torn ∈ state.tornDown, torn.since ≠ captured.since)
    (sound : Sound state.raises state.mode state.lifecycleLock task after) :
    Recovering (state.setPhase task after) :=
  old.move task rfl rfl rfl rfl (fun _ => state.setPhase_other after) (fun _ _ kept => kept)
    (by simpa using claim) (by simpa [State.setPhase] using sound)

omit [DecidableEq Task] in
theorem Recovering.raise (old : Recovering state) (raise : Raise Task)
    (bounded : state.raises.length + 1 < UInt64.size)
    (calm : ∀ task, (state.phase task).atStake state.mode = false) :
    Recovering (state.raise raise) where
  counts := by
    rw [State.raise, List.length_append, List.length_singleton, ofNat_succ, old.counts]
  bounded := by
    rw [State.raise, List.length_append, List.length_singleton]
    exact bounded
  sound task := (old.sound task).raise raise (calm task)
  untouched := old.untouched
  torn captured torn := by
    obtain ⟨counted, inside⟩ := old.torn captured torn
    refine ⟨counted.raise raise, ?_⟩
    rw [State.raise, List.length_append]
    exact Nat.lt_add_right _ inside
  apart := old.apart
  once := old.once

variable {captured : Captured}

theorem Recovering.finish (old : Recovering state)
    {toreDown changed : Bool} (counted : (state.phase task).captured = some captured)
    (quiet : toreDown = false → changed = false)
    (tears : toreDown = true → (state.phase task).claim = some captured) :
    Recovering (state.finish task captured toreDown changed) := by
  have tornDown : (state.finish task captured toreDown changed).tornDown =
      state.tornDown ++ if toreDown then [captured] else [] := by
    cases toreDown <;> simp [State.tornDown, State.finish, State.setPhase]
  have idle : (state.finish task captured toreDown changed).phase task = .idle :=
    state.setPhase_self task .idle
  have others : ∀ other, other ≠ task →
      (state.finish task captured toreDown changed).phase other = state.phase other :=
    fun _ => state.setPhase_other .idle
  refine ⟨old.counts, old.bounded, ?_, ?_, ?_, ?_, ?_⟩
  · intro other
    by_cases same : other = task
    · rw [same, idle]
      constructor <;> simp [Phase.locked, Phase.captured, Phase.claim, Phase.changed]
    · rw [others other same]
      exact old.sound other
  · intro ended member
    obtain member | rfl := by simpa [State.finish] using member
    · exact old.untouched ended member
    · exact quiet
  · intro torn member
    rw [tornDown, List.mem_append] at member
    obtain member | member := member
    · exact old.torn torn member
    · cases toreDown with
      | false => simp at member
      | true =>
        obtain rfl : torn = captured := by simpa using member
        refine ⟨(old.sound task).counted torn counted, ?_⟩
        have claimed := (old.sound task).claimed torn (tears rfl)
        exact (List.getElem?_eq_some_iff.mp claimed).1
  · intro other another is_ torn member
    have apart : other ≠ task := by
      rintro rfl
      rw [idle] at is_
      simp [Phase.claim] at is_
    rw [others other apart] at is_
    rw [tornDown, List.mem_append] at member
    obtain member | member := member
    · exact old.apart other another is_ torn member
    · cases toreDown with
      | false => simp at member
      | true =>
        obtain rfl : torn = captured := by simpa using member
        intro same
        -- One raise is not the claim of two tasks.
        have claimed := (old.sound task).claimed torn (tears rfl)
        have foreign := (old.sound other).claimed another is_
        rw [← same, claimed] at foreign
        simp only [Option.some.injEq, Raise.claim.injEq] at foreign
        exact apart foreign.symm
  · rw [tornDown, List.map_append, List.nodup_append']
    refine ⟨old.once, by cases toreDown <;> simp, ?_⟩
    intro since before after
    cases toreDown with
    | false => simp at after
    | true =>
      obtain rfl : since = captured.since := by simpa using after
      obtain ⟨torn, member, same⟩ := List.mem_map.mp before
      exact old.apart task captured (tears rfl) torn member same

omit [DecidableEq Task] in
theorem Recovering.remode (old : Recovering state) {mode : RunningMode}
    (free : ∀ task, (state.phase task).locked = true →
      Sound state.raises mode state.lifecycleLock task (state.phase task))
    (calm : mode ≠ .service → ∀ task, (state.phase task).locked = false →
      (state.phase task).atStake state.mode = false) :
    Recovering { state with mode := mode } where
  counts := old.counts
  bounded := old.bounded
  sound task := by
    cases locked : (state.phase task).locked with
    | true => exact free task locked
    | false => exact (old.sound task).remode locked (fun left => calm left task locked)
  untouched := old.untouched
  torn := old.torn
  apart := old.apart
  once := old.once

omit [DecidableEq Task] in
theorem Sound.advance {raises : List (Raise Task)} {mode : RunningMode} {lock : Option Task}
    {phase after : Phase} (sound : Sound raises mode lock task phase)
    (captured : after.captured = none ∨ after.captured = phase.captured)
    (claim : after.claim = none ∨ after.claim = phase.claim)
    (locked : after.locked = true → phase.locked = true)
    (stake : after.atStake mode = true → phase.atStake mode = true)
    (changed : after.changed = true → phase.changed = true) :
    Sound raises mode lock task after where
  locked is_ := sound.locked (locked is_)
  counted := by
    obtain none | same := captured
    · simp [none]
    · rw [same]
      exact sound.counted
  claimed := by
    obtain none | same := claim
    · simp [none]
    · rw [same]
      exact sound.claimed
  alone := by
    obtain none | same := claim
    · simp [none]
    · rw [same]
      exact fun captured is_ staked => sound.alone captured is_ (stake staked)
  inMode is_ := sound.inMode (changed is_)

theorem Recovering.advance (old : Recovering state) {phase after : Phase}
    (at_ : state.phase task = phase)
    (captured : after.captured = none ∨ after.captured = phase.captured)
    (claim : after.claim = none ∨ after.claim = phase.claim)
    (locked : after.locked = true → phase.locked = true)
    (stake : after.atStake state.mode = true → phase.atStake state.mode = true)
    (changed : after.changed = true → phase.changed = true) :
    Recovering (state.setPhase task after) := by
  subst at_
  refine old.setPhase (fun another is_ => ?_)
    ((old.sound task).advance captured claim locked stake changed)
  obtain none | same := claim
  · rw [none] at is_
    contradiction
  · exact old.apart task another (same ▸ is_)

theorem Recovering.tear (old : Recovering state)
    {changed : Bool} {stage : Stage} (at_ : state.phase task = .tearing captured changed stage)
    (after : Stage) : Recovering (state.setPhase task (.tearing captured changed after)) :=
  old.advance at_ (.inr rfl) (.inr rfl) (fun _ => rfl) (fun _ => rfl) (fun is_ => is_)

omit [DecidableEq Task] in
theorem Recovering.content (old : Recovering state) (session : Option OwnerSessionProof)
    (running : Bool) (readiness : Word) :
    Recovering { state with session := session, guardRunning := running, readiness := readiness } :=
  ⟨old.counts, old.bounded, old.sound, old.untouched, old.torn, old.apart, old.once⟩

omit [DecidableEq Task] in
theorem Recovering.release (old : Recovering state)
    (free : ∀ task, (state.phase task).locked = false) : Recovering state.release where
  counts := old.counts
  bounded := old.bounded
  sound task := by
    refine ⟨fun is_ => ?_, (old.sound task).counted, (old.sound task).claimed,
      (old.sound task).alone, (old.sound task).inMode⟩
    have not_ := free task
    rw [State.release] at is_
    rw [not_] at is_
    contradiction
  untouched := old.untouched
  torn := old.torn
  apart := old.apart
  once := old.once

omit [DecidableEq Task] in
theorem Recovering.holder (old : Recovering state) {task other : Task}
    (locked : (state.phase task).locked = true) (also : (state.phase other).locked = true) :
    task = other := by
  have mine := (old.sound task).locked locked
  rw [(old.sound other).locked also] at mine
  exact (Option.some.inj mine).symm

omit [DecidableEq Task] in
theorem Recovering.staker (old : Recovering state) {task other : Task}
    (stake : (state.phase task).atStake state.mode = true)
    (also : (state.phase other).atStake state.mode = true) : task = other := by
  obtain ⟨captured, claim⟩ := Phase.claim_of_atStake stake
  obtain ⟨another, foreign⟩ := Phase.claim_of_atStake also
  have mine := ((old.sound task).alone captured claim stake).last.1
  rw [((old.sound other).alone another foreign also).last.1] at mine
  simp only [Option.some.injEq, Raise.claim.injEq] at mine
  exact mine.symm

theorem Recovering.capture (old : Recovering state) {after : Phase}
    (captured : after.captured = some state.captured) (claim : after.claim = none)
    (locked : after.locked = false) (changed : after.changed = false) :
    Recovering (state.setPhase task after) := by
  refine old.setPhase (by simp [claim]) ⟨by simp [locked], fun another is_ => ?_, by simp [claim],
    by simp [claim], by simp [changed]⟩
  rw [captured] at is_
  cases is_
  exact ⟨Nat.le_refl _, old.counts⟩

theorem Recovering.finish_release (old : Recovering state)
    {toreDown changed : Bool} (locked : (state.phase task).locked = true)
    (counted : (state.phase task).captured = some captured)
    (quiet : toreDown = false → changed = false)
    (tears : toreDown = true → (state.phase task).claim = some captured) :
    Recovering (state.finish task captured toreDown changed).release := by
  refine (old.finish counted quiet tears).release fun other => ?_
  by_cases same : other = task
  · simp [same, State.finish, State.setPhase, Phase.locked]
  · by_contra also
    rw [Bool.not_eq_false] at also
    simp only [State.finish, State.setPhase, Function.update_of_ne same] at also
    exact same (old.holder also locked)

theorem Recovering.claim (old : Recovering state) (at_ : state.phase task = .inMode captured)
    (current : state.generation = captured.generation)
    (bounded : state.raises.length + 1 < UInt64.size)
    (calm : ∀ task, (state.phase task).atStake state.mode = false) :
    Recovering ((state.raise (.claim task)).setPhase task (.claimed captured)) := by
  have counted : captured.Counted state.raises :=
    (old.sound task).counted captured (by rw [at_]; rfl)
  have last : captured.since = state.raises.length := by
    rw [old.counts, counted.2] at current
    exact (ofNat_inj old.bounded (lt_of_le_of_lt counted.1 old.bounded) current).symm
  have raised := old.raise (.claim task) bounded calm
  refine raised.setPhase ?_ ⟨by simp [Phase.locked], ?_, ?_, by simp [Phase.atStake],
    by simp [Phase.changed]⟩
  · rintro _ ⟨⟩ torn member
    have before := (old.torn torn member).2
    omega
  · rintro _ ⟨⟩
    exact counted.raise _
  · rintro _ ⟨⟩
    simp [State.raise, last]

theorem Recovering.invalidate (old : Recovering state)
    {changed : Bool} (at_ : state.phase task = .claimed captured)
    (fresh : changed = true → captured.Alone task state.raises ∧ state.mode = .service) :
    Recovering (state.setPhase task (.waiting captured changed)) := by
  have sound := old.sound task
  have apart := old.apart task
  rw [at_] at sound apart
  refine old.setPhase apart ⟨by simp [Phase.locked], sound.counted, sound.claimed, ?_, ?_⟩
  · rintro _ ⟨⟩ stake
    exact (fresh stake).1
  · exact fun is_ => (fresh is_).2

theorem Recovering.acquire (old : Recovering state) {after : Phase}
    (free : state.lifecycleLock = none)
    (captured : after.captured = none ∨ after.captured = (state.phase task).captured)
    (claim : after.claim = none ∨ after.claim = (state.phase task).claim)
    (stake : after.atStake state.mode = true → (state.phase task).atStake state.mode = true)
    (changed : after.changed = true → (state.phase task).changed = true) :
    Recovering { state.setPhase task after with lifecycleLock := some task } := by
  have now := state.setPhase_self task after
  refine old.move task rfl rfl rfl rfl (fun _ => state.setPhase_other after) ?_ ?_ ?_
  · intro other _ held
    rw [free] at held
    contradiction
  · intro another is_
    change (Phase.claim ((state.setPhase task after).phase task)) = some another at is_
    rw [now] at is_
    obtain none | same := claim
    · rw [none] at is_
      contradiction
    · exact old.apart task another (same ▸ is_)
  · change Sound _ _ _ _ ((state.setPhase task after).phase task)
    rw [now]
    have sound := old.sound task
    refine ⟨fun _ => rfl, ?_, ?_, ?_, fun is_ => sound.inMode (changed is_)⟩
    · obtain none | same := captured
      · simp [none]
      · exact same ▸ sound.counted
    · obtain none | same := claim
      · simp [none]
      · exact same ▸ sound.claimed
    · obtain none | same := claim
      · simp [none]
      · exact fun another is_ staked => sound.alone another (same ▸ is_) (stake staked)

theorem Recovering.recheck (old : Recovering state)
    {changed : Bool} (at_ : state.phase task = .holding captured changed)
    (current : state.generation = captured.generation + 1) :
    Recovering (state.setPhase task (.current captured changed)) := by
  have sound := old.sound task
  have apart := old.apart task
  rw [at_] at sound apart
  refine old.setPhase apart ⟨sound.locked, sound.counted, sound.claimed, ?_, sound.inMode⟩
  rintro _ ⟨⟩ _
  exact alone_of_current old.bounded (sound.counted captured rfl) (sound.claimed captured rfl)
    (old.counts ▸ current)

omit [DecidableEq Task] in
theorem changed_active {word : Word} (changed : invalidated word ≠ word) :
    isActive word = true := by
  unfold invalidated at changed
  rw [Manager.Readiness.activeGeneration_eq] at changed
  by_contra inactive
  simp [inactive] at changed

theorem Recovering.step (old : Recovering state) {action : Action Task}
    (undisturbed : Undisturbed state action) (taken : step state action = some next) :
    Recovering next := by
  cases action with simp only [OwnerRecovery.step] at taken
  | lock task =>
    split at taken
    · rename_i free
      cases taken
      exact old.acquire free (.inl rfl) (.inl rfl) (by simp [Phase.atStake])
        (by simp [Phase.changed])
    · contradiction
  | startMonitor task monitor =>
    split at taken
    · cases taken
      exact (old.raise .start undisturbed.counts (undisturbed.outdates rfl)).capture rfl rfl rfl rfl
    · contradiction
  | cancelMonitors task =>
    split at taken
    · cases taken
      exact old.raise .cancel undisturbed.counts (undisturbed.outdates rfl)
    · contradiction
  | setSession task session =>
    split at taken
    · cases taken
      exact old.content session state.guardRunning state.readiness
    · contradiction
  | setMode task mode =>
    split at taken
    · rename_i operating
      cases taken
      refine old.remode (fun other locked => ?_) fun left other _ => ?_
      · -- The task that has the lock is the one that operates.
        obtain rfl := old.holder (by rw [operating]; rfl) locked
        rw [operating]
        refine ⟨fun _ => (old.sound task).locked locked, ?_, ?_, ?_, ?_⟩
        all_goals simp [Phase.captured, Phase.claim, Phase.changed]
      · exact undisturbed.outdates (by simpa [State.outdates] using left) other
    · contradiction
  | unlock task =>
    split at taken
    · rename_i operating
      cases taken
      refine (old.advance operating (.inl rfl) (.inl rfl) (by simp [Phase.locked])
        (by simp [Phase.atStake]) (by simp [Phase.changed])).release fun other => ?_
      by_cases same : other = task
      · simp [same, Phase.locked]
      · rw [state.setPhase_other _ same]
        by_contra also
        rw [Bool.not_eq_false] at also
        exact same (old.holder also (by rw [operating]; rfl))
    · contradiction
  | changeReadiness change =>
    split at taken
    · cases taken
      exact old.content state.session state.guardRunning _
    · contradiction
  | setGuard running =>
    cases taken
    exact old.content state.session running state.readiness
  | tickGeneration monitor | tickMode monitor =>
    split at taken
    · rename_i captured at_
      split at taken <;> cases taken
      · exact old.advance at_ (.inr rfl) (.inl rfl) nofun nofun nofun
      · exact old.advance at_ (.inl rfl) (.inl rfl) nofun nofun nofun
    · contradiction
  | sample monitor recover =>
    split at taken
    · rename_i captured at_
      cases taken
      cases recover with
      | true | false =>
        exact old.advance at_ (.inr rfl) (.inl rfl) nofun nofun nofun
    · contradiction
  | capture task =>
    split at taken
    · cases taken
      exact old.capture rfl rfl rfl rfl
    · contradiction
  | respond task notActive =>
    split at taken
    · rename_i captured at_
      cases taken
      cases notActive with
      | true =>
        exact old.advance at_ (.inr rfl) (.inl rfl) nofun nofun nofun
      | false =>
        exact old.advance at_ (.inl rfl) (.inl rfl) nofun nofun nofun
    · contradiction
  | checkMode task =>
    split at taken
    · rename_i captured at_
      split at taken <;> cases taken
      · exact old.advance at_ (.inr rfl) (.inl rfl) nofun nofun nofun
      · exact old.finish (by rw [at_]; rfl) (fun _ => rfl) (by simp)
    · contradiction
  | claim task =>
    split at taken
    · rename_i captured at_
      split at taken <;> cases taken
      · rename_i current
        exact old.claim at_ current undisturbed.counts
          (undisturbed.outdates (by simp [State.outdates, at_, current]))
      · exact old.finish (by rw [at_]; rfl) (fun _ => rfl) (by simp)
    · contradiction
  | invalidate task =>
    split at taken
    · rename_i captured at_
      cases taken
      refine (old.invalidate at_ fun changed => ?_).content state.session state.guardRunning _
      have active := changed_active (of_decide_eq_true changed)
      have fresh := undisturbed.invalidates
      simpa only [State.invalidatesStale, at_, active, Bool.true_and, Bool.not_eq_false',
        decide_eq_true_eq] using fresh
    · contradiction
  | acquire task =>
    split at taken
    · rename_i captured changed at_ free
      cases taken
      refine old.acquire free ?_ ?_ ?_ ?_
      all_goals simp [at_, Phase.captured, Phase.claim, Phase.atStake, Phase.changed]
    · contradiction
  | recheckGeneration task =>
    split at taken
    · rename_i captured changed at_
      have sound := old.sound task
      rw [at_] at sound
      split at taken <;> cases taken
      · rename_i current
        exact old.recheck at_ current
      · rename_i stale
        refine old.finish_release (by rw [at_]; rfl) (by rw [at_]; rfl) (fun _ => ?_) (by simp)
        -- A call that has changed the readiness is still alone.
        by_contra stake
        rw [Bool.not_eq_false] at stake
        have last := (sound.alone captured rfl stake).last.2
        refine stale ?_
        rw [old.counts, last, ofNat_succ, (sound.counted captured rfl).2]
    · contradiction
  | recheckMode task =>
    split at taken
    · rename_i captured changed at_
      have sound := old.sound task
      rw [at_] at sound
      split at taken <;> cases taken
      · rename_i inMode
        exact old.advance at_ (.inr rfl) (.inr rfl) (by simp [Phase.locked])
          (by simp [Phase.atStake, inMode]) (by simp [Phase.changed])
      · rename_i left
        refine old.finish_release (by rw [at_]; rfl) (by rw [at_]; rfl) (fun _ => ?_) (by simp)
        by_contra changed
        rw [Bool.not_eq_false] at changed
        exact left (sound.inMode changed)
    · contradiction
  | stopGuard task =>
    split at taken
    · rename_i captured changed at_
      cases taken
      exact (old.tear at_ .clearSession).content state.session false state.readiness
    · contradiction
  | clearSession task =>
    split at taken
    · rename_i captured changed at_
      cases taken
      exact (old.tear at_ .invalidate).content none state.guardRunning state.readiness
    · contradiction
  | invalidateAgain task =>
    split at taken
    · rename_i captured changed at_
      cases taken
      exact (old.tear at_ .coreStopped).content state.session state.guardRunning _
    · contradiction
  | coreStopped task =>
    split at taken
    · rename_i captured changed at_
      cases taken
      have stopped : Recovering (state.finish task captured true changed).release :=
        old.finish_release (by rw [at_]; rfl) (by rw [at_]; rfl) (by simp) (fun _ => by rw [at_]; rfl)
      refine stopped.remode (fun other locked => ?_) fun _ other _ => ?_
      · have held := (stopped.sound other).locked locked
        contradiction
      · by_contra also
        rw [Bool.not_eq_false] at also
        by_cases same : other = task
        · simp [same, State.finish, State.release, Phase.atStake] at also
        · have stake : (state.phase task).atStake state.mode = true := by
            rw [at_]
            rfl
          have there := state.setPhase_other .idle same
          refine same (old.staker ?_ stake)
          rw [← there]
          exact also
    · contradiction

omit [DecidableEq Task] in
theorem recovering_new : Recovering (State.new : State Task) where
  counts := rfl
  bounded := by
    change 0 < UInt64.size
    decide
  sound _ := by
    constructor <;> simp [State.new, Phase.locked, Phase.captured, Phase.claim, Phase.changed]
  untouched := by simp [State.new]
  torn := by simp [State.new, State.tornDown]
  apart := by simp [State.new, Phase.claim]
  once := List.nodup_nil

omit [DecidableEq Task] in
theorem Phase.tearsDown_stake {phase : Phase} (mode : RunningMode)
    (tears : phase.tearsDown = some captured) :
    phase.claim = some captured ∧ phase.captured = some captured ∧ phase.atStake mode = true := by
  cases phase <;> simp_all [Phase.tearsDown, Phase.claim, Phase.captured, Phase.atStake]

omit [DecidableEq Task] in
theorem Captured.Counted.since_inj {captured another : Captured} {raises : List (Raise Task)}
    (bounded : raises.length < UInt64.size) (counted : captured.Counted raises)
    (also : another.Counted raises) (same : captured.generation = another.generation) :
    captured.since = another.since := by
  rw [counted.2, also.2] at same
  exact ofNat_inj (lt_of_le_of_lt counted.1 bounded) (lt_of_le_of_lt also.1 bounded) same

omit [DecidableEq Task] in
theorem Recovering.inert (recovering : Recovering state) : Inert state where
  alone task captured tears := by
    obtain ⟨claim, -, stake⟩ := Phase.tearsDown_stake state.mode tears
    exact (recovering.sound task).alone captured claim stake
  once := by
    refine (List.Nodup.of_map _ recovering.once).map_on fun left member right also same => ?_
    have since := (recovering.torn left member).1.since_inj recovering.bounded
      (recovering.torn right also).1 same
    cases left
    cases right
    simp_all
  further task captured tears := by
    obtain ⟨claim, counted, -⟩ := Phase.tearsDown_stake state.mode tears
    rw [List.mem_map]
    rintro ⟨torn, member, same⟩
    exact recovering.apart task captured claim torn member
      ((recovering.torn torn member).1.since_inj recovering.bounded
        ((recovering.sound task).counted captured counted) same)
  serial task other captured another tears also := by
    obtain ⟨-, -, stake⟩ := Phase.tearsDown_stake state.mode tears
    obtain ⟨-, -, staked⟩ := Phase.tearsDown_stake state.mode also
    exact recovering.staker stake staked
  untouched := recovering.untouched

/-- What a call of `recover_after_owner_loss` does before it tears down, and whose call it is. -/
def Action.prepares : Action Task → Option Task
  | .checkMode task | .claim task | .invalidate task | .acquire task | .recheckGeneration task
  | .recheckMode task => some task
  | _ => none

/-- The session, the guard and the mode are as they were, and so is the readiness unless the call
notes that it has changed. -/
structure Quiet (state next : State Task) (task : Task) : Prop where
  session : next.session = state.session
  guardRunning : next.guardRunning = state.guardRunning
  mode : next.mode = state.mode
  readiness : next.readiness = state.readiness ∨
    ∃ captured, next.phase task = .waiting captured true

theorem step_quiet {action : Action Task} (prepares : action.prepares = some task)
    (taken : step state action = some next) : Quiet state next task := by
  cases action with
  | checkMode actor | claim actor | recheckGeneration actor | recheckMode actor =>
    simp only [step] at taken
    split at taken
    · split at taken <;> cases taken <;> exact ⟨rfl, rfl, rfl, .inl rfl⟩
    · contradiction
  | invalidate actor =>
    obtain rfl : actor = task := Option.some.inj prepares
    simp only [step] at taken
    split at taken
    · rename_i captured _
      cases taken
      refine ⟨rfl, rfl, rfl, ?_⟩
      by_cases same : invalidated state.readiness = state.readiness
      · exact .inl same
      · refine .inr ⟨captured, ?_⟩
        simp [State.setPhase, same]
    · contradiction
  | acquire actor =>
    simp only [step] at taken
    split at taken
    · cases taken
      exact ⟨rfl, rfl, rfl, .inl rfl⟩
    · contradiction
  | _ => contradiction

/-- In an undisturbed run a stale recovery is inert, in every state reached, and the steps of a call
before its tear-down leave the rest of the state alone. -/
theorem recovery_inert {actions : List (Action Task)} {final : State Task}
    (undisturbed : Transition.Meets step Undisturbed State.new actions)
    (ran : Transition.run step State.new actions = some final) :
    Inert final ∧ ∀ before action after middle next task, actions = before ++ action :: after →
      Transition.run step State.new before = some middle → step middle action = some next →
      action.prepares = some task → Quiet middle next task := by
  refine ⟨?_, fun _ _ _ _ _ _ _ _ taken prepares => step_quiet prepares taken⟩
  have recovering : Recovering final :=
    Transition.run_invariant_of_meets Recovering
      (fun _ _ _ old condition taken => old.step condition taken) recovering_new undisturbed ran
  exact recovering.inert

def ownerLost (operator monitor : Task) : List (Action Task) :=
  [.lock operator, .setSession operator (some ⟨1, "first"⟩), .startMonitor operator monitor,
    .changeReadiness .mark, .setMode operator .service, .unlock operator,
    .tickGeneration monitor, .tickMode monitor, .sample monitor true, .checkMode monitor]

def tearDown (monitor : Task) : List (Action Task) :=
  [.claim monitor, .invalidate monitor, .acquire monitor, .recheckGeneration monitor,
    .recheckMode monitor, .stopGuard monitor, .clearSession monitor, .invalidateAgain monitor,
    .coreStopped monitor]

def restart (operator monitor : Task) : List (Action Task) :=
  [.lock operator, .cancelMonitors operator, .setSession operator none,
    .changeReadiness .invalidate, .setMode operator .notRunning,
    .setSession operator (some ⟨2, "second"⟩), .startMonitor operator monitor,
    .changeReadiness .mark, .setMode operator .service, .unlock operator]

theorem recovery_inert_tears_down : ∃ final : State Bool,
    Transition.run step State.new (ownerLost false true ++ tearDown true) = some final ∧
      final.session = none ∧ final.mode = .notRunning ∧ final.tornDown.length = 1 ∧
      Inert final := by
  have undisturbed : Transition.Meets step Undisturbed (State.new : State Bool)
      (ownerLost false true ++ tearDown true) := by decide
  have ran : ∃ final : State Bool,
      Transition.run step State.new (ownerLost false true ++ tearDown true) = some final ∧
        final.session = none ∧ final.mode = .notRunning ∧ final.tornDown.length = 1 :=
    ⟨_, rfl, rfl, rfl, rfl⟩
  obtain ⟨final, ran, session, mode, torn⟩ := ran
  exact ⟨final, ran, session, mode, torn, (recovery_inert undisturbed ran).1⟩

/-- The core is restarted between a claim and the invalidation that follows it: the recovery turns out
to be stale, and the new core has lost its readiness to it. -/
theorem stale_recovery_invalidates : ¬ ∀ (actions : List (Action Nat)) (final : State Nat),
      Transition.run step State.new actions = some final → Inert final := by
  intro inert
  have ran : ∃ final : State Nat, Transition.run step State.new
      (ownerLost 0 1 ++ [.claim 1] ++ restart 2 3 ++
        [.invalidate 1, .acquire 1, .recheckGeneration 1]) = some final ∧
      final.ended = [⟨1, ⟨1, 1⟩, false, true⟩] := ⟨_, rfl, rfl⟩
  obtain ⟨final, ran, ended⟩ := ran
  have untouched := (inert _ final ran).untouched ⟨1, ⟨1, 1⟩, false, true⟩ (by simp [ended]) rfl
  contradiction

end ClashVerge.Service.OwnerRecovery
