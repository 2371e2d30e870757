import ClashVerge.Library.Transition

/-!
# The epoch of configuration updates

A configuration update takes the update flag of the manager and counts itself in and out: it raises
a depth and, as the first one, the epoch; when it ends it lowers the depth and, as the last one,
raises the epoch again. A look at the status notes the epoch, does its work, and asks whether the
epoch is still current: even, unchanged, and the depth zero.

Each access to an atomic is a step, and any number of tasks update and look. Other calls take the
flag without counting themselves in. The depth has the 64 bits of the machine; the epoch is kept as
a number that the code sees modulo `UInt64.size`.
-/

namespace ClashVerge.AppProxy.Epoch

open Function (update)

inductive Phase where
  | idle
  | holding
  /-- Counted in, as the first one or not. -/
  | entering (first : Bool)
  | updating
  /-- Counted out, as the last one or not. -/
  | leaving (last : Bool)
  | releasing
  /-- At work since the epoch was noted. -/
  | reading (epoch : Nat)
  /-- The depth was found to be zero. -/
  | confirming (epoch : Nat)
deriving DecidableEq

structure State (Task : Type) where
  /-- `config_update_in_progress`. -/
  inProgress : Bool
  depth : UInt64
  epoch : Nat
  phase : Task → Phase
  /-- How many updates have counted themselves in. -/
  begun : Nat

inductive Action (Task : Type) where
  | tryStart (task : Task)
  | countIn (task : Task)
  | raise (task : Task)
  | countOut (task : Task)
  | raiseAgain (task : Task)
  | release (task : Task)
  | snapshot (task : Task)
  | loadDepth (task : Task)
  | loadEpoch (task : Task)

def Action.actor {Task : Type} : Action Task → Task
  | tryStart task | countIn task | raise task | countOut task | raiseAgain task | release task
  | snapshot task | loadDepth task | loadEpoch task => task

variable {Task : Type} [DecidableEq Task]

namespace State

def new : State Task where
  inProgress := false
  depth := 0
  epoch := 0
  phase _ := .idle
  begun := 0

def setPhase (state : State Task) (task : Task) (phase : Phase) : State Task :=
  { state with phase := update state.phase task phase }

/-- What `config_update_is_current` ends with, once the depth was zero. -/
def isCurrent (state : State Task) (epoch : Nat) : Bool := state.epoch % UInt64.size = epoch

end State

def step (state : State Task) : Action Task → Option (State Task)
  | .tryStart task =>
    match state.phase task with
    | .idle =>
      if state.inProgress then some state
      else some { state.setPhase task .holding with inProgress := true }
    | _ => none
  | .countIn task =>
    match state.phase task with
    | .holding => some { state.setPhase task (.entering (state.depth == 0)) with
        depth := state.depth + 1
        begun := state.begun + 1 }
    | _ => none
  | .raise task =>
    match state.phase task with
    | .entering first => some { state.setPhase task .updating with
        epoch := if first then state.epoch + 1 else state.epoch }
    | _ => none
  | .countOut task =>
    match state.phase task with
    | .updating => some { state.setPhase task (.leaving (state.depth == 1)) with
        depth := state.depth - 1 }
    | _ => none
  | .raiseAgain task =>
    match state.phase task with
    | .leaving last => some { state.setPhase task .releasing with
        epoch := if last then state.epoch + 1 else state.epoch }
    | _ => none
  | .release task =>
    match state.phase task with
    | .holding | .releasing => some { state.setPhase task .idle with inProgress := false }
    | _ => none
  | .snapshot task =>
    match state.phase task with
    | .idle => some (state.setPhase task (.reading (state.epoch % UInt64.size)))
    | _ => none
  | .loadDepth task =>
    match state.phase task with
    | .reading epoch =>
      if epoch % 2 = 0 ∧ state.depth = 0 then some (state.setPhase task (.confirming epoch))
      else some (state.setPhase task .idle)
    | _ => none
  | .loadEpoch task =>
    match state.phase task with
    | .confirming _ => some (state.setPhase task .idle)
    | _ => none

def Phase.holds : Phase → Bool
  | .holding | .entering _ | .updating | .leaving _ | .releasing => true
  | _ => false

/-- An update is between its first and its last access. -/
def Phase.inUpdate : Phase → Bool
  | .entering _ | .updating | .leaving _ => true
  | _ => false

/-- An update is between the increments of the epoch. -/
def Phase.raised : Phase → Bool
  | .updating | .leaving _ => true
  | _ => false

/-- The depth and the epoch where a task with the flag stands. -/
def Counts (phase : Phase) (depth : UInt64) (epoch begun : Nat) : Prop :=
  match phase with
  | .entering first => first = true ∧ depth = 1 ∧ epoch + 2 = 2 * begun
  | .updating => depth = 1 ∧ epoch + 1 = 2 * begun
  | .leaving last => last = true ∧ depth = 0 ∧ epoch + 1 = 2 * begun
  | _ => depth = 0 ∧ epoch = 2 * begun

/-- One task at a time has the flag, and the counters are where it has left them. -/
structure Serial (state : State Task) : Prop where
  alone : ∀ task other, (state.phase task).holds = true → (state.phase other).holds = true →
    other = task
  flag : ∀ task, (state.phase task).holds = true → state.inProgress = true
  counts : ∀ task, (state.phase task).holds = true →
    Counts (state.phase task) state.depth state.epoch state.begun
  quiet : (∀ task, (state.phase task).holds = false) →
    state.depth = 0 ∧ state.epoch = 2 * state.begun

variable {state next : State Task}

omit [DecidableEq Task] in
theorem serial_new : Serial (State.new : State Task) :=
  ⟨fun _ _ holds => by contradiction, fun _ holds => by contradiction,
    fun _ holds => by contradiction, fun _ => ⟨rfl, rfl⟩⟩

section

variable (serial : Serial state)
include serial

theorem Serial.advance {task : Task} {phase : Phase}
    (held : (state.phase task).holds = true) (phases : next.phase = update state.phase task phase)
    (holds : phase.holds = true) (flag : next.inProgress = state.inProgress)
    (counts : Counts phase next.depth next.epoch next.begun) : Serial next := by
  have own : next.phase task = phase := by rw [phases, Function.update_self]
  have only : ∀ other, (next.phase other).holds = true → other = task := by
    intro other holds
    by_contra different
    rw [phases, Function.update_of_ne different] at holds
    exact different (serial.alone task other held holds)
  refine ⟨fun one other first second => (only other second).trans (only one first).symm,
    fun _ _ => flag.trans (serial.flag task held), fun other holds => ?_, fun none => ?_⟩
  · rw [only other holds, own]
    exact counts
  · have without := none task
    simp [own, holds] at without

theorem Serial.read {task : Task} {phase : Phase}
    (free : (state.phase task).holds = false) (holds : phase.holds = false) :
    Serial (state.setPhase task phase) := by
  have same : ∀ other, (update state.phase task phase other).holds = (state.phase other).holds := by
    intro other
    by_cases own : other = task
    · rw [own, Function.update_self, holds, free]
    · rw [Function.update_of_ne own]
  have others : ∀ other, (update state.phase task phase other).holds = true →
      update state.phase task phase other = state.phase other := by
    intro other holding
    refine Function.update_of_ne ?_ ..
    rintro rfl
    simp [holds] at holding
  refine ⟨fun one other first second => ?_, fun other holding => ?_, fun other holding => ?_,
    fun none => serial.quiet fun other => (same other).symm.trans (none other)⟩
  · exact serial.alone one other ((same one).symm.trans first) ((same other).symm.trans second)
  · exact serial.flag other ((same other).symm.trans holding)
  · change Counts (update state.phase task phase other) state.depth state.epoch state.begun
    rw [others other holding]
    exact serial.counts other ((same other).symm.trans holding)

theorem Serial.take {task : Task} (free : state.inProgress = false) :
    Serial { state.setPhase task .holding with inProgress := true } := by
  have none : ∀ other, (state.phase other).holds = false := by
    intro other
    by_contra holds
    have taken := serial.flag other (by simpa using holds)
    simp [free] at taken
  have only : ∀ other, (update state.phase task .holding other).holds = true → other = task := by
    intro other holds
    by_contra different
    rw [Function.update_of_ne different, none other] at holds
    contradiction
  refine ⟨fun one other first second => (only other second).trans (only one first).symm,
    fun _ _ => rfl, fun other holds => ?_, fun without => ?_⟩
  · change Counts (update state.phase task .holding other) state.depth state.epoch state.begun
    rw [only other holds, Function.update_self]
    exact serial.quiet none
  · have own := without task
    simp [State.setPhase, Phase.holds] at own

theorem Serial.give {task : Task} (held : (state.phase task).holds = true)
    (counted : state.depth = 0 ∧ state.epoch = 2 * state.begun) :
    Serial { state.setPhase task .idle with inProgress := false } := by
  have none : ∀ other, (update state.phase task .idle other).holds = false := by
    intro other
    by_cases own : other = task
    · rw [own, Function.update_self]
      rfl
    · rw [Function.update_of_ne own]
      by_contra holds
      exact own (serial.alone task other held (by simpa using holds))
  refine ⟨fun one other first _ => ?_, fun other holds => ?_, fun other holds => ?_, fun _ => counted⟩
  · exact absurd first (by simp [State.setPhase, none one])
  · exact absurd holds (by simp [State.setPhase, none other])
  · exact absurd holds (by simp [State.setPhase, none other])

theorem Serial.step {action : Action Task}
    (taken : step state action = some next) : Serial next := by
  cases action with simp only [Epoch.step] at taken
  | tryStart task =>
    split at taken
    · split at taken <;> cases taken
      · exact serial
      · rename_i free
        exact serial.take (by simpa using free)
    · contradiction
  | countIn task =>
    split at taken
    · rename_i at_
      cases taken
      have held : (state.phase task).holds = true := by rw [at_]; rfl
      have counts := serial.counts task held
      rw [at_] at counts
      refine serial.advance held rfl rfl rfl ⟨by simp [counts.1], ?_, ?_⟩
      · simp [counts.1]
      · simp only [State.setPhase, counts.2]
        omega
    · contradiction
  | raise task =>
    split at taken
    · rename_i first at_
      cases taken
      have held : (state.phase task).holds = true := by rw [at_]; rfl
      have counts := serial.counts task held
      rw [at_] at counts
      obtain ⟨rfl, depth, epoch⟩ := counts
      exact serial.advance held rfl rfl rfl ⟨depth, epoch⟩
    · contradiction
  | countOut task =>
    split at taken
    · rename_i at_
      cases taken
      have held : (state.phase task).holds = true := by rw [at_]; rfl
      have counts := serial.counts task held
      rw [at_] at counts
      refine serial.advance held rfl rfl rfl ⟨by simp [counts.1], ?_, counts.2⟩
      simp [counts.1]
    · contradiction
  | raiseAgain task =>
    split at taken
    · rename_i last at_
      cases taken
      have held : (state.phase task).holds = true := by rw [at_]; rfl
      have counts := serial.counts task held
      rw [at_] at counts
      obtain ⟨rfl, depth, epoch⟩ := counts
      exact serial.advance held rfl rfl rfl ⟨depth, epoch⟩
    · contradiction
  | release task =>
    split at taken
    · rename_i at_
      cases taken
      have held : (state.phase task).holds = true := by rw [at_]; rfl
      have counts := serial.counts task held
      rw [at_] at counts
      exact serial.give held counts
    · rename_i at_
      cases taken
      have held : (state.phase task).holds = true := by rw [at_]; rfl
      have counts := serial.counts task held
      rw [at_] at counts
      exact serial.give held counts
    · contradiction
  | snapshot task =>
    split at taken
    · rename_i at_
      cases taken
      exact serial.read (by rw [at_]; rfl) rfl
    · contradiction
  | loadDepth task =>
    split at taken
    · rename_i epoch at_
      split at taken <;> cases taken
      · exact serial.read (by rw [at_]; rfl) rfl
      · exact serial.read (by rw [at_]; rfl) rfl
    · contradiction
  | loadEpoch task =>
    split at taken
    · rename_i epoch at_
      cases taken
      exact serial.read (by rw [at_]; rfl) rfl
    · contradiction

end

theorem serial_reached (reached : Transition.Reachable Epoch.step (State.new : State Task) state) :
    Serial state :=
  reached.invariant serial_new fun _ _ _ serial taken => serial.step taken

theorem step_grows {action : Action Task} (taken : step state action = some next) :
    state.epoch ≤ next.epoch ∧ state.begun ≤ next.begun ∧
      ∀ task, action.actor ≠ task → next.phase task = state.phase task := by
  have others : ∀ (task : Task) (phase : Phase) (other : Task), task ≠ other →
      update state.phase task phase other = state.phase other :=
    fun task phase other different => Function.update_of_ne (Ne.symm different) ..
  cases action with simp only [Epoch.step] at taken
  | tryStart task =>
    split at taken
    · split at taken <;> cases taken
      · exact ⟨Nat.le_refl _, Nat.le_refl _, fun _ _ => rfl⟩
      · exact ⟨Nat.le_refl _, Nat.le_refl _, others task _⟩
    · contradiction
  | loadDepth task =>
    split at taken
    · split at taken <;> cases taken
      · exact ⟨Nat.le_refl _, Nat.le_refl _, others task _⟩
      · exact ⟨Nat.le_refl _, Nat.le_refl _, others task _⟩
    · contradiction
  | raise task | raiseAgain task =>
    split at taken
    · cases taken
      refine ⟨?_, Nat.le_refl _, others task _⟩
      dsimp only
      split <;> omega
    · contradiction
  | countIn task =>
    split at taken
    · cases taken
      exact ⟨Nat.le_refl _, Nat.le_succ _, others task _⟩
    · contradiction
  | countOut task | release task | snapshot task | loadEpoch task =>
    split at taken <;> first
      | contradiction
      | (cases taken
         exact ⟨Nat.le_refl _, Nat.le_refl _, others task _⟩)

theorem run_grows {actions : List (Action Task)} {final : State Task} {task : Task}
    (ran : Transition.run Epoch.step state actions = some final)
    (apart : ∀ action ∈ actions, action.actor ≠ task) :
    state.epoch ≤ final.epoch ∧ state.begun ≤ final.begun ∧ final.phase task = state.phase task := by
  induction actions generalizing state with
  | nil =>
    cases ran
    exact ⟨Nat.le_refl _, Nat.le_refl _, rfl⟩
  | cons action rest ih =>
    obtain ⟨next, taken, remaining⟩ := (Transition.run_cons_iff ..).mp ran
    obtain ⟨own, later⟩ := List.forall_mem_cons.mp apart
    obtain ⟨epoch, begun, others⟩ := step_grows taken
    obtain ⟨epochs, begins, phase⟩ := ih remaining later
    exact ⟨epoch.trans epochs, begun.trans begins, phase.trans (others task own)⟩

/-- The epoch is noted in `opened`, the depth loaded in `asked` and the epoch in `last`; other tasks
go on in between. -/
structure Look (task : Task) (opened asked last : State Task) : Prop where
  reached : Transition.Reachable Epoch.step State.new opened
  working : ∃ read actions, Epoch.step opened (.snapshot task) = some read ∧
    Transition.run Epoch.step read actions = some asked ∧ ∀ action ∈ actions, action.actor ≠ task
  pausing : ∃ loaded actions, Epoch.step asked (.loadDepth task) = some loaded ∧
    Transition.run Epoch.step loaded actions = some last ∧ ∀ action ∈ actions, action.actor ≠ task

omit [DecidableEq Task] in
/-- What the look is told at its end. -/
def State.answer (state : State Task) (task : Task) : Bool :=
  match state.phase task with
  | .confirming epoch => state.isCurrent epoch
  | _ => false

/-- No update was under way when the epoch was noted, and none has begun until the depth was loaded. -/
structure Certified (opened asked : State Task) : Prop where
  quiet : ∀ task, (opened.phase task).inUpdate = false
  none_begun : asked.begun = opened.begun

omit [DecidableEq Task] in
theorem Serial.counters (serial : Serial state) :
    ((∃ task, state.phase task = .entering true) ∧ state.depth = 1 ∧
        state.epoch + 2 = 2 * state.begun) ∨
      ((∃ task, (state.phase task).raised = true) ∧ state.epoch + 1 = 2 * state.begun ∧
        ∀ task, state.phase task = .updating → state.depth = 1) ∨
      (∀ task, (state.phase task).inUpdate = false) ∧ state.depth = 0 ∧
        state.epoch = 2 * state.begun := by
  by_cases held : ∃ task, (state.phase task).holds = true
  · obtain ⟨task, holds⟩ := held
    have counts := serial.counts task holds
    have others : ∀ other, (state.phase other).holds = true → other = task :=
      fun other => serial.alone task other holds
    cases at_ : state.phase task with
    | entering first =>
      rw [at_] at counts
      obtain ⟨rfl, depth, epoch⟩ := counts
      exact .inl ⟨⟨task, at_⟩, depth, epoch⟩
    | updating =>
      rw [at_] at counts
      exact .inr (.inl ⟨⟨task, by rw [at_]; rfl⟩, counts.2, fun _ _ => counts.1⟩)
    | leaving last =>
      rw [at_] at counts
      refine .inr (.inl ⟨⟨task, by rw [at_]; rfl⟩, counts.2.2, fun other updating => ?_⟩)
      obtain rfl := others other (by rw [updating]; rfl)
      simp [at_] at updating
    | holding | releasing =>
      rw [at_] at counts
      refine .inr (.inr ⟨fun other => ?_, counts⟩)
      cases updates : (state.phase other).inUpdate with
      | false => rfl
      | true =>
        have holds : (state.phase other).holds = true := by
          cases is_ : state.phase other <;> simp [is_, Phase.inUpdate, Phase.holds] at updates ⊢
        obtain rfl := others other holds
        simp [at_, Phase.inUpdate] at updates
    | idle | reading | confirming => simp [at_, Phase.holds] at holds
  · have free : ∀ task, (state.phase task).holds = false := by simpa using held
    refine .inr (.inr ⟨fun task => ?_, serial.quiet free⟩)
    have none := free task
    cases is_ : state.phase task <;> simp_all [Phase.inUpdate, Phase.holds]

variable {task : Task} {opened asked last : State Task}

/-- A look that is told yes has noted an even epoch, found the depth at zero, and noted the same epoch
at its end, up to full rounds of the counter. -/
theorem Look.told (look : Look task opened asked last) (answer : last.answer task = true) :
    opened.epoch % UInt64.size % 2 = 0 ∧ asked.depth = 0 ∧
      last.epoch % UInt64.size = opened.epoch % UInt64.size := by
  obtain ⟨read, actions, snapshot, worked, apart⟩ := look.working
  obtain ⟨loaded, pauses, depth, paused, apart'⟩ := look.pausing
  have noted : read.phase task = .reading (opened.epoch % UInt64.size) := by
    simp only [Epoch.step] at snapshot
    split at snapshot
    · cases snapshot
      exact Function.update_self ..
    · contradiction
  have still : asked.phase task = .reading (opened.epoch % UInt64.size) :=
    (run_grows worked apart).2.2.trans noted
  have ends : last.phase task = loaded.phase task := (run_grows paused apart').2.2
  simp only [Epoch.step, still] at depth
  split at depth
  · rename_i even
    cases depth
    have confirming : last.phase task = .confirming (opened.epoch % UInt64.size) :=
      ends.trans (Function.update_self ..)
    simp only [State.answer, confirming, State.isCurrent, decide_eq_true_eq] at answer
    exact ⟨even.1, even.2, answer⟩
  · cases depth
    have idle : last.phase task = .idle := ends.trans (Function.update_self ..)
    simp [State.answer, idle] at answer

theorem Look.certified (look : Look task opened asked last) (answer : last.answer task = true)
    (round : last.epoch < opened.epoch + UInt64.size) : Certified opened asked := by
  obtain ⟨even, zero, same⟩ := look.told answer
  obtain ⟨read, actions, snapshot, worked, apart⟩ := look.working
  obtain ⟨loaded, pauses, depth, paused, apart'⟩ := look.pausing
  have noted := step_grows snapshot
  have first := run_grows worked apart
  have checked := step_grows depth
  have second := run_grows paused apart'
  have size : UInt64.size = 18446744073709551616 := rfl
  rw [size] at even same round
  have unchanged : last.epoch = opened.epoch := by
    have later : opened.epoch ≤ last.epoch := by omega
    omega
  have between : asked.epoch = opened.epoch := by omega
  have begins : opened.begun ≤ asked.begun := by omega
  have ends : Transition.Reachable Epoch.step State.new asked := by
    obtain ⟨before, reached⟩ := look.reached
    refine ⟨before ++ .snapshot task :: actions, ?_⟩
    exact (Transition.run_append_iff ..).mpr
      ⟨opened, reached, (Transition.run_cons_iff ..).mpr ⟨read, snapshot, worked⟩⟩
  have askedQuiet : asked.epoch = 2 * asked.begun := by
    obtain ⟨-, one, -⟩ | ⟨-, odd, -⟩ | ⟨-, -, epoch⟩ := (serial_reached ends).counters
    · simp [zero] at one
    · omega
    · exact epoch
  obtain ⟨-, -, epoch⟩ | ⟨-, odd, -⟩ | ⟨quiet, -, epoch⟩ := (serial_reached look.reached).counters
  · omega
  · omega
  · exact ⟨quiet, by omega⟩

/-- The depth is never lowered below zero, the epoch is odd exactly between the two increments of an
update, and a look that is told yes is certified, unless the epoch has gone round in between. -/
theorem epoch_certificate : (∀ state : State Task, Transition.Reachable Epoch.step State.new state →
      (∀ task, state.phase task = .updating → state.depth ≠ 0) ∧
      (state.epoch % UInt64.size % 2 = 1 ↔ ∃ task, (state.phase task).raised = true)) ∧
    ∀ (task : Task) (opened asked last : State Task), Look task opened asked last →
      last.answer task = true → last.epoch < opened.epoch + UInt64.size →
      Certified opened asked := by
  refine ⟨fun state reached => ?_, fun _ _ _ _ look answer => look.certified answer⟩
  have size : UInt64.size = 18446744073709551616 := rfl
  rw [size]
  have serial := serial_reached reached
  refine ⟨fun task updating => ?_, ?_⟩
  · have counts := serial.counts task (by rw [updating]; rfl)
    rw [updating] at counts
    simp [counts.1]
  · have lone : ∀ task, (state.phase task).raised = true → state.epoch + 1 = 2 * state.begun := by
      intro task raised
      have holds : (state.phase task).holds = true := by
        cases is_ : state.phase task <;> simp [is_, Phase.raised, Phase.holds] at raised ⊢
      have counts := serial.counts task holds
      cases is_ : state.phase task <;> simp [is_, Phase.raised] at raised <;>
        simp only [is_, Counts] at counts
      · exact counts.2
      · exact counts.2.2
    constructor
    · intro odd
      obtain ⟨-, -, epoch⟩ | ⟨raised, -⟩ | ⟨-, -, epoch⟩ := serial.counters
      · omega
      · exact raised
      · omega
    · rintro ⟨task, raised⟩
      have epoch := lone task raised
      omega

/-- One update from its beginning to its end. -/
def cycle (task : Task) : List (Action Task) :=
  [.tryStart task, .countIn task, .raise task, .countOut task, .raiseAgain task, .release task]

theorem run_cycle (idle : state.phase task = .idle) (free : state.inProgress = false)
    (zero : state.depth = 0) : Transition.run Epoch.step state (cycle task) =
      some { state with epoch := state.epoch + 2, begun := state.begun + 1 } := by
  obtain ⟨inProgress, depth, epoch, phase, begun⟩ := state
  obtain rfl : inProgress = false := free
  obtain rfl : depth = 0 := zero
  have back : update phase task .idle = phase := by
    rw [← idle]
    exact Function.update_eq_self ..
  simp only at idle
  simp [cycle, Transition.run, Epoch.step, idle, State.setPhase, back]

theorem run_cycles (count : Nat) (idle : state.phase task = .idle)
    (free : state.inProgress = false) (zero : state.depth = 0) :
    Transition.run Epoch.step state (List.replicate count (cycle task)).flatten =
      some { state with epoch := state.epoch + 2 * count, begun := state.begun + count } := by
  induction count generalizing state with
  | zero => rfl
  | succ count ih =>
    rw [List.replicate_succ, List.flatten_cons]
    refine (Transition.run_append_iff ..).mpr ⟨_, run_cycle idle free zero, ?_⟩
    let once : State Task := { state with epoch := state.epoch + 2, begun := state.begun + 1 }
    have more : Transition.run Epoch.step once (List.replicate count (cycle task)).flatten =
      some { once with epoch := once.epoch + 2 * count, begun := once.begun + count } :=
        ih idle free zero
    rw [more]
    simp only [once, Option.some.injEq, State.mk.injEq, true_and]
    omega

/-- A look after an update that has ended. -/
theorem look_after_update : ∃ opened asked last : State Bool,
    Look true opened asked last ∧ Certified opened asked := by
  let opened : State Bool := { State.new with epoch := 2, begun := 1 }
  let asked := opened.setPhase true (.reading 2)
  let last := asked.setPhase true (.confirming 2)
  have look : Look true opened asked last :=
    ⟨⟨cycle false, run_cycle rfl rfl rfl⟩, ⟨asked, [], rfl, rfl, by simp⟩, ⟨last, [], rfl, rfl, by simp⟩⟩
  exact ⟨opened, asked, last, look, epoch_certificate.2 true opened asked last look rfl (by decide)⟩

/-- With `UInt64.size / 2` updates in between, the epoch is the one that was noted. -/
theorem epoch_goes_round : ∃ opened asked last : State Bool,
    Look true opened asked last ∧ last.answer true = true ∧ ¬ Certified opened asked := by
  let opened : State Bool := State.new
  let read := opened.setPhase true (.reading 0)
  let asked : State Bool := { read with
    epoch := 0 + 2 * (UInt64.size / 2)
    begun := 0 + UInt64.size / 2 }
  let last := asked.setPhase true (.confirming 0)
  have apart : ∀ action ∈ (List.replicate (UInt64.size / 2) (cycle false)).flatten,
      action.actor ≠ true := by
    intro action is_
    obtain ⟨one, repeated, inside⟩ := List.mem_flatten.mp is_
    rw [List.eq_of_mem_replicate repeated] at inside
    have all : ∀ action ∈ cycle false, action.actor ≠ true := by decide
    exact all action inside
  have worked : Transition.run Epoch.step read
      (List.replicate (UInt64.size / 2) (cycle false)).flatten = some asked :=
    run_cycles _ rfl rfl rfl
  have look : Look true opened asked last :=
    ⟨Transition.Reachable.refl _, ⟨read, _, rfl, worked, apart⟩, ⟨last, [], rfl, rfl, by simp⟩⟩
  refine ⟨opened, asked, last, look, by decide, fun certified => ?_⟩
  have same : 0 + UInt64.size / 2 = 0 := certified.none_begun
  exact absurd same (by decide)

end ClashVerge.AppProxy.Epoch
