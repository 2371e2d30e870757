import Mathlib.Algebra.Order.BigOperators.Group.Finset
import ClashVerge.Draft.Linearization

/-!
# No lost wake-up

In every reachable state in which some call has failed its attempt, the permit is held, a wake-up is
stored, or some other call is about to notify, has been woken, or is about to try again. The window
between a failed attempt and the poll is covered by the stored permit, and a woken call that is
dropped hands its wake-up on.

Under weak fairness of the attempts, resumptions and notifications a wake-up in transit either
reaches a call that acquires the permit or wakes one more waiter, and while the permit stays free no
call joins the waiters.
-/

namespace ClashVerge.Draft.Modify

open ClashVerge.Draft Transition

variable {Task T E R : Type}

/-- A call that failed its attempt and has not been woken since. -/
def Phase.Waiting : Phase T E R → Prop
  | refused | parked => True
  | _ => False

def Phase.weight : Phase T E R → Nat
  | refused | parked => 1
  | _ => 0

variable [DecidableEq Task] {state next : State Task T E R}

/-- A waiting call implies a holder, a stored wake-up, or one in transit. -/
def Wakeful (state : State Task T E R) : Prop :=
  (∃ task, (state.phase task).Waiting) →
    state.dataModifying = true ∨ state.notified = true ∨ ∃ task, (state.phase task).Wakes

namespace Wakeful

omit [DecidableEq Task] in
theorem of_wakes (task : Task) (wakes : (state.phase task).Wakes) : Wakeful state :=
  fun _ => .inr (.inr ⟨task, wakes⟩)

theorem setPhase (wakeful : Wakeful state) {task : Task} {phase : Phase T E R}
    (before : ¬ (state.phase task).Wakes)
    (after : phase.Waiting → (state.phase task).Waiting) :
    Wakeful (state.setPhase task phase) := by
  rintro ⟨waiting, waits⟩
  have earlier : ∃ other, (state.phase other).Waiting := by
    by_cases equal : waiting = task
    · subst waiting
      exact ⟨task, after (by simpa using waits)⟩
    · exact ⟨waiting, by simpa [equal] using waits⟩
  rcases wakeful earlier with held | stored | ⟨other, wakes⟩
  · exact .inl held
  · exact .inr (.inl stored)
  · refine .inr (.inr ⟨other, ?_⟩)
    have different : other ≠ task := by
      intro equal
      exact before (equal ▸ wakes)
    simpa [different] using wakes

theorem notifyOne (state : State Task T E R) : Wakeful state.notifyOne := by
  cases waiting : state.waiters with
  | nil =>
    rw [notifyOne_stored waiting]
    exact fun _ => .inr (.inl rfl)
  | cons first rest =>
    rw [notifyOne_woken waiting]
    exact of_wakes first (by simp [Phase.Wakes])

/-- Every step keeps the wake-up. Clearing the flag starts a notification, consuming the
stored permit leads to another attempt, and a failed attempt saw the flag set. -/
theorem moves {action : Action Task T E R} (wakeful : Wakeful state)
    (moved : Moves state action next) : Wakeful next := by
  cases moved with
  | start task resting =>
    refine wakeful.setPhase ?_ (by simp [enterLoop, dataModifyFastRetryYields, Phase.Waiting])
    cases at_ : state.phase task <;> simp_all [Phase.Resting, Phase.Wakes]
  | enter task seeking free => exact fun _ => .inl rfl
  | yield task left at_ held | refuse task at_ held => exact fun _ => .inl held
  | again task left at_ =>
    refine wakeful.setPhase (by simp [at_, Phase.Wakes]) ?_
    cases left <;> simp [enterLoop, Phase.Waiting]
  | wake task at_ | consume task at_ stored | release task outcome at_ =>
    exact of_wakes task (by simp [Phase.Wakes])
  | park task at_ empty =>
    have frame : Wakeful { state with waiters := state.waiters ++ [task] } := wakeful
    exact frame.setPhase (by simp [at_, Phase.Wakes]) (by simp [at_, Phase.Waiting])
  | snapshot task at_ =>
    have frame : Wakeful { state with
        seen := Function.update state.seen task state.commits.length } := wakeful
    exact frame.setPhase (by simp [at_, Phase.Wakes]) (by simp [Phase.Waiting])
  | finish task body original at_ | fail task address original body at_ error failed
  | reject task address original body at_ newLocal result succeeded moved
  | dropYielded task left at_ | dropRunning task original at_ =>
    exact wakeful.setPhase (by simp [at_, Phase.Wakes]) (by simp [Phase.Waiting])
  | replace task address original body at_ newLocal result succeeded same fresh =>
    have frame : Wakeful { state with
        data := { state.data with committed := ⟨address, newLocal⟩ }
        commits := state.commits ++ [Commit.modify task] } := wakeful
    exact frame.setPhase (by simp [at_, Phase.Wakes]) (by simp [Phase.Waiting])
  | notify task outcome at_ | dropWoken task at_ => exact Wakeful.notifyOne _
  | dropParked task at_ =>
    have frame : Wakeful { state with waiters := state.waiters.erase task } := wakeful
    exact frame.setPhase (by simp [at_, Phase.Wakes]) (by simp [Phase.Waiting])
  | editDraft edit address editable | applyNothing empty | applyDraft draft staged | discard =>
    exact wakeful

end Wakeful

section

variable [Fintype Task]

def State.waiting (state : State Task T E R) : Nat := ∑ task, (state.phase task).weight

theorem waiting_setPhase_le {task : Task} {phase : Phase T E R}
    (lighter : phase.weight ≤ (state.phase task).weight) :
    (state.setPhase task phase).waiting ≤ state.waiting := by
  apply Finset.sum_le_sum
  intro other _
  by_cases equal : other = task
  · subst other
    simpa using lighter
  · simp [equal]

theorem waiting_notifyOne (queued : Queued state) : state.notifyOne.waiting ≤ state.waiting ∧
      (state.waiters ≠ [] → state.notifyOne.waiting < state.waiting) := by
  have pointwise : ∀ other, (state.notifyOne.phase other).weight ≤ (state.phase other).weight := by
    intro other
    rcases notifyOne_phase queued other with same | ⟨_, woken⟩
    · rw [same]
    · simp [woken, Phase.weight]
  refine ⟨Finset.sum_le_sum fun other _ => pointwise other, ?_⟩
  intro nonempty
  obtain ⟨first, rest, waiting⟩ := List.exists_cons_of_ne_nil nonempty
  have parked : state.phase first = .parked := (queued.parked first).mp (by simp [waiting])
  refine Finset.sum_lt_sum (fun other _ => pointwise other) ⟨first, Finset.mem_univ first, ?_⟩
  rw [notifyOne_woken waiting]
  simp [parked, Phase.weight]

theorem moves_waiting_le {action : Action Task T E R} (queued : Queued state)
    (free : state.dataModifying = false) (moved : Moves state action next) :
    next.waiting ≤ state.waiting := by
  cases moved with
  | start task resting =>
    exact waiting_setPhase_le (by simp [enterLoop, dataModifyFastRetryYields, Phase.weight])
  | enter task seeking free => exact waiting_setPhase_le (by simp [Phase.weight])
  | yield task left at_ held | refuse task at_ held => simp [free] at held
  | again task left at_ =>
    exact waiting_setPhase_le (by cases left <;> simp [enterLoop, Phase.weight])
  | park task at_ empty => exact waiting_setPhase_le (by simp [at_, Phase.weight])
  | notify task outcome at_ =>
    have quiet := queued.returned task outcome (by simp [at_])
    exact (waiting_notifyOne quiet).1.trans (waiting_setPhase_le (by simp [Phase.weight]))
  | dropWoken task at_ =>
    have quiet := queued.returned task .dropped (by simp [at_])
    exact (waiting_notifyOne quiet).1.trans (waiting_setPhase_le (by simp [Phase.weight]))
  | editDraft | applyNothing | applyDraft | discard => exact le_refl _
  | _ => exact waiting_setPhase_le (by simp [Phase.weight])

end

variable {action : Action Task T E R}

theorem listening_step {task : Task}
    (moved : Moves state action next) (acts : action.actor = some task)
    (at_ : state.phase task = .listening) : next.dataModifying = true := by
  cases moved <;> simp_all [Action.actor, Phase.Resting]

/-- Everything that holds in each reachable state. -/
structure Invariant (state : State Task T E R) : Prop where
  queued : Queued state
  exclusive : Exclusive state
  pointers : Pointers state
  wakeful : Wakeful state

omit [DecidableEq Task] in
theorem invariant_new (data : T) : Invariant (State.new data : State Task T E R) where
  queued := ⟨by simp [State.new], List.nodup_nil⟩
  exclusive := ⟨by simp [State.new, Phase.Critical], by simp [State.new, Phase.Critical]⟩
  pointers := by
    refine ⟨?_, ?_, ?_, ?_, ?_⟩ <;> simp [State.new, Phase.original]
  wakeful := by simp [Wakeful, State.new, Phase.Waiting]

theorem Invariant.moves (invariant : Invariant state)
    (moved : Moves state action next) : Invariant next where
  queued := invariant.queued.moves moved
  exclusive := invariant.exclusive.moves invariant.queued moved
  pointers := invariant.pointers.moves invariant.exclusive moved
  wakeful := invariant.wakeful.moves moved

variable [Fintype Task]

theorem reachable_invariant {data : T} (reached : Reachable step (State.new data) state) :
    Invariant state :=
  reached.invariant (invariant_new data) fun _ _ _ invariant taken => invariant.moves (step_moves taken)

theorem woken_step {task : Task} (queued : Queued state)
    (moved : Moves state action next) (acts : action.actor = some task)
    (at_ : state.phase task = .woken) (others : state.waiters ≠ []) :
    next.phase task = .listening ∨ next.waiting < state.waiting := by
  cases moved with
  | wake woken _ =>
    obtain rfl : woken = task := Option.some.inj acts
    exact .inl (by simp)
  | dropWoken woken _ =>
    obtain rfl : woken = task := Option.some.inj acts
    have quiet := queued.returned woken .dropped (by simp [at_])
    exact .inr (lt_of_lt_of_le ((waiting_notifyOne quiet).2 others)
      (waiting_setPhase_le (by simp [Phase.weight])))
  | _ => simp_all [Action.actor, Phase.Resting, Phase.Seeking]

theorem notifying_step {task : Task} {outcome : Outcome E R}
    (queued : Queued state) (moved : Moves state action next) (acts : action.actor = some task)
    (at_ : state.phase task = .notifying outcome) (others : state.waiters ≠ []) :
    next.waiting < state.waiting := by
  cases moved with
  | notify notifier ended _ =>
    obtain rfl : notifier = task := Option.some.inj acts
    have quiet := queued.returned notifier ended (by simp [at_])
    exact lt_of_lt_of_le ((waiting_notifyOne quiet).2 others)
      (waiting_setPhase_le (by simp [Phase.weight]))
  | _ => simp_all [Action.actor, Phase.Resting, Phase.Seeking]

/-- A call is parked, the permit is free and no wake-up is stored. -/
def Stuck (task : Task) (state : State Task T E R) : Prop :=
  state.phase task = .parked ∧ state.dataModifying = false ∧ state.notified = false

section

variable (behaviour : Behaviour (step : State Task T E R → Action Task T E R → Option (State Task T E R)))
  {data : T} (initially : behaviour.state 0 = State.new data)

include initially

theorem behaviour_invariant (moment : Nat) : Invariant (behaviour.state moment) :=
  reachable_invariant (initially ▸ behaviour.reachable moment)

theorem moment_phase (task : Task) (moment : Nat)
    (awake : (behaviour.state moment).phase task ≠ .parked) :
    (behaviour.state (moment + 1)).phase task = (behaviour.state moment).phase task ∨
      ∃ action, action.actor = some task ∧
        Moves (behaviour.state moment) action (behaviour.state (moment + 1)) := by
  rcases behaviour.advance moment with repeated | ⟨action, _, accepted⟩
  · exact .inl (by rw [repeated])
  · have moved := step_moves accepted
    by_cases acts : action.actor = some task
    · exact .inr ⟨action, acts, moved⟩
    · rcases moves_phase_other (behaviour_invariant behaviour initially moment).queued moved task acts with
        same | ⟨parked, _⟩
      · exact .inl same
      · exact absurd parked awake

theorem moment_waiting_le (moment : Nat) (free : (behaviour.state moment).dataModifying = false) :
    (behaviour.state (moment + 1)).waiting ≤ (behaviour.state moment).waiting := by
  rcases behaviour.advance moment with repeated | ⟨action, _, accepted⟩
  · rw [repeated]
  · exact moves_waiting_le (behaviour_invariant behaviour initially moment).queued free
      (step_moves accepted)

theorem listening_ends (task : Task) (fair : behaviour.WeaklyFair (.acquire task)) (start : Nat)
    (listening : (behaviour.state start).phase task = .listening) :
    ∃ moment, start ≤ moment ∧ (behaviour.state moment).dataModifying = true := by
  refine fair.eventually behaviour (fun state => state.phase task = .listening)
    (fun state => state.dataModifying = true) start ?_ ?_ ?_ listening
  · intro moment _ at_
    rcases moment_phase behaviour initially task moment (by simp [at_]) with
      same | ⟨action, acts, moved⟩
    · exact .inl (same.trans at_)
    · exact .inr (listening_step moved acts at_)
  · intro moment _ at_
    simp [step, at_]
  · intro moment _ at_ chosen
    exact listening_step (step_moves (behaviour.accepted chosen)) rfl at_

/-- While the permit stays free, a woken call or a pending notification leads to an attempt
or to fewer waiting calls. -/
theorem wakeup_advances (waiter : Task) (start : Nat)
    (stuck : ∀ moment, start ≤ moment → Stuck waiter (behaviour.state moment)) (task : Task)
    (fair : behaviour.WeaklyFair (.resume task) ∧ behaviour.WeaklyFair (.notify task))
    (early : Nat) (later : start ≤ early)
    (carries : (behaviour.state early).phase task = .woken ∨
      ∃ outcome, (behaviour.state early).phase task = .notifying outcome) :
    ∃ moment, early ≤ moment ∧ ((behaviour.state moment).phase task = .listening ∨
      (behaviour.state moment).waiting < (behaviour.state early).waiting) := by
  have queued : ∀ moment, Queued (behaviour.state moment) :=
    fun moment => (behaviour_invariant behaviour initially moment).queued
  have others : ∀ moment, early ≤ moment → (behaviour.state moment).waiters ≠ [] := by
    intro moment after empty
    have member := ((queued moment).parked waiter).mpr (stuck moment (later.trans after)).1
    simp [empty] at member
  have shrinks : ∀ moment, early ≤ moment →
      (behaviour.state (moment + 1)).waiting ≤ (behaviour.state moment).waiting :=
    fun moment after => moment_waiting_le behaviour initially moment
      (stuck moment (later.trans after)).2.1
  rcases carries with woken | ⟨outcome, notifying⟩
  · refine fair.1.eventually behaviour
      (fun state => state.phase task = .woken ∧
        state.waiting ≤ (behaviour.state early).waiting)
      (fun state => state.phase task = .listening ∨
        state.waiting < (behaviour.state early).waiting) early ?_ ?_ ?_ ⟨woken, le_refl _⟩
    · rintro moment after ⟨at_, bounded⟩
      rcases moment_phase behaviour initially task moment (by simp [at_]) with
        same | ⟨action, acts, moved⟩
      · exact .inl ⟨same.trans at_, (shrinks moment after).trans bounded⟩
      · rcases woken_step (queued moment) moved acts at_ (others moment after) with tries | fewer
        · exact .inr (.inl tries)
        · exact .inr (.inr (lt_of_lt_of_le fewer bounded))
    · rintro moment _ ⟨at_, _⟩
      simp [step, at_]
    · rintro moment after ⟨at_, bounded⟩ chosen
      have moved := step_moves (behaviour.accepted chosen)
      rcases woken_step (queued moment) moved rfl at_ (others moment after) with tries | fewer
      · exact .inl tries
      · exact .inr (lt_of_lt_of_le fewer bounded)
  · refine fair.2.eventually behaviour
      (fun state => state.phase task = .notifying outcome ∧
        state.waiting ≤ (behaviour.state early).waiting)
      (fun state => state.phase task = .listening ∨
        state.waiting < (behaviour.state early).waiting) early ?_ ?_ ?_ ⟨notifying, le_refl _⟩
    · rintro moment after ⟨at_, bounded⟩
      rcases moment_phase behaviour initially task moment (by simp [at_]) with
        same | ⟨action, acts, moved⟩
      · exact .inl ⟨same.trans at_, (shrinks moment after).trans bounded⟩
      · exact .inr (.inr (lt_of_lt_of_le
          (notifying_step (queued moment) moved acts at_ (others moment after)) bounded))
    · rintro moment _ ⟨at_, _⟩
      simp [step, at_]
    · rintro moment after ⟨at_, bounded⟩ chosen
      have moved := step_moves (behaviour.accepted chosen)
      exact .inr (lt_of_lt_of_le
        (notifying_step (queued moment) moved rfl at_ (others moment after)) bounded)

/-- Otherwise every later state has a wake-up in transit. A call at the head of the slow loop would
set the flag; a woken call or a pending notification reaches one or shortens the waiters. Induction
on their number excludes the latter. -/
theorem not_stuck_forever
    (fair : ∀ task, behaviour.WeaklyFair (.acquire task) ∧ behaviour.WeaklyFair (.resume task) ∧
      behaviour.WeaklyFair (.notify task)) (waiter : Task) (start : Nat) :
    ∃ moment, start ≤ moment ∧ ¬ Stuck waiter (behaviour.state moment) := by
  by_contra never
  have stuck : ∀ moment, start ≤ moment → Stuck waiter (behaviour.state moment) := by
    intro moment later
    by_contra escapes
    exact never ⟨moment, later, escapes⟩
  have unattempted : ∀ task moment, start ≤ moment →
      (behaviour.state moment).phase task ≠ .listening := by
    intro task moment later listening
    obtain ⟨final, after, held⟩ :=
      listening_ends behaviour initially task (fair task).1 moment listening
    simp [(stuck final (later.trans after)).2.1] at held
  have descent : ∀ count moment, start ≤ moment → (behaviour.state moment).waiting = count →
      False := by
    intro count
    induction count using Nat.strong_induction_on with
    | h count ih =>
      intro moment later size
      obtain ⟨parked, free, unstored⟩ := stuck moment later
      rcases (behaviour_invariant behaviour initially moment).wakeful
          ⟨waiter, by simp [parked, Phase.Waiting]⟩ with held | stored | ⟨task, wakes⟩
      · simp [free] at held
      · simp [unstored] at stored
      · have carries : (behaviour.state moment).phase task = .woken ∨
            ∃ outcome, (behaviour.state moment).phase task = .notifying outcome := by
          cases at_ : (behaviour.state moment).phase task with
          | listening => exact absurd at_ (unattempted task moment later)
          | woken => exact .inl rfl
          | notifying outcome => exact .inr ⟨outcome, rfl⟩
          | _ => simp [at_, Phase.Wakes] at wakes
        obtain ⟨final, after, tries | fewer⟩ := wakeup_advances behaviour initially waiter start
          stuck task (fair task).2 moment later carries
        · exact unattempted task final (later.trans after) tries
        · exact ih _ (size ▸ fewer) final (later.trans after) rfl
  exact descent _ start (le_refl start) rfl

end

/-- `with_data_modify` is linearizable with respect to itself and `apply`, for any interleaving of
any number of calls with the other operations. At most one call stands between acquiring and
clearing the permit, and each step keeps its part of the contract. Under weak fairness no call waits
forever beside a free permit with no wake-up stored. -/
theorem with_data_modify_linearizable (data : T) :
    (∀ state : State Task T E R, Reachable step (State.new data) state →
      (∀ left right, (state.phase left).Critical → (state.phase right).Critical → left = right) ∧
      ∀ action next, step state action = some next → Contract state action next) ∧
    ∀ behaviour : Behaviour (step : State Task T E R → Action Task T E R → Option (State Task T E R)),
      behaviour.state 0 = State.new data →
      (∀ task, behaviour.WeaklyFair (.acquire task) ∧ behaviour.WeaklyFair (.resume task) ∧
        behaviour.WeaklyFair (.notify task)) →
      ∀ waiter start, ∃ moment, start ≤ moment ∧ ¬ Stuck waiter (behaviour.state moment) := by
  refine ⟨?_, ?_⟩
  · intro state reached
    have invariant : Invariant state := reachable_invariant reached
    refine ⟨invariant.exclusive.one, ?_⟩
    intro action next taken
    exact moves_contract invariant.queued invariant.pointers (step_moves taken)
  · intro behaviour initially fair waiter start
    exact not_stuck_forever behaviour initially fair waiter start

end ClashVerge.Draft.Modify
