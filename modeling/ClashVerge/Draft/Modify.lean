import Mathlib.Data.Fintype.Pi
import ClashVerge.Draft.Slot
import ClashVerge.Library.Transition

/-!
# Concurrent optimistic edits

Any number of tasks call `with_data_modify` on one draft while others edit, apply and discard it. A
step is a compare-exchange of `data_modifying`, one critical section of the data mutex, one store,
one operation of the `Notify`, or one resumption of a suspended future. A call may also be dropped
where its future can be suspended.

`Notify` keeps at most one permit and a first-in-first-out queue of waiters. `notify_one` wakes the
first waiter, or stores the permit. A `Notified` future that is dropped after it was chosen passes
the wake-up on.

`commits` and `seen`, which are not in the source, record which writes have replaced the committed
value and how many had done so at each call's snapshot.
-/

namespace ClashVerge.Draft.Modify

open ClashVerge.Draft

variable {Task T E R : Type}

/-- Retry one scheduler turn before parking on `Notify`. -/
def dataModifyFastRetryYields : Nat := 1

/-- How a call ends. -/
inductive Outcome (E R : Type) where
  | ok (result : R)
  | bodyFailed (error : E)
  | optimisticLockFailed
  | dropped
deriving DecidableEq

/-- Where a call of `with_data_modify` stands. -/
inductive Phase (T E R : Type) where
  | idle
  /-- In the fast retry loop, with this many iterations left after the current one. -/
  | trying (left : Nat)
  | yielded (left : Nat)
  /-- At the head of the slow loop: `notified()` exists and is not yet polled. -/
  | listening
  /-- The attempt in the slow loop failed and `notified` is about to be polled. -/
  | refused
  | parked
  | woken
  | admitted
  | running (original : SharedDraft T)
  | finished (original : SharedDraft T) (body : T → Except E (T × R))
  | releasing (outcome : Outcome E R)
  /-- The flag is cleared and `notify_one` has not run. -/
  | notifying (outcome : Outcome E R)
  | returned (outcome : Outcome E R)

namespace Phase

/-- Between acquiring the permit and clearing `data_modifying`. -/
def Critical : Phase T E R → Prop
  | admitted | running _ | finished _ _ | releasing _ => True
  | _ => False

/-- The snapshot `Arc` a call keeps alive for its pointer check. -/
def original : Phase T E R → Option (SharedDraft T)
  | running original => some original
  | finished original _ => some original
  | _ => none

theorem critical_of_original {phase : Phase T E R} {snapshot : SharedDraft T}
    (held : phase.original = some snapshot) : phase.Critical := by
  cases phase with
  | running | finished => trivial
  | _ => cases held

def Resting : Phase T E R → Prop
  | idle | returned _ => True
  | _ => False

/-- About to attempt the compare-exchange. -/
def Seeking : Phase T E R → Prop
  | trying _ | listening => True
  | _ => False

/-- About to resume a waiter, or to make an attempt without parking first. -/
def Wakes : Phase T E R → Prop
  | listening | woken | notifying _ => True
  | _ => False

end Phase

/-- The writes that replace the committed value. -/
inductive Commit (Task : Type) where
  | modify (task : Task)
  | draft
deriving DecidableEq

structure State (Task T E R : Type) where
  data : DraftData T
  dataModifying : Bool
  /-- The permit stored by `notify_one` when nobody waits. -/
  notified : Bool
  waiters : List Task
  phase : Task → Phase T E R
  commits : List (Commit Task)
  seen : Task → Nat

inductive Action (Task T E R : Type) where
  | start (task : Task)
  | acquire (task : Task)
  | resume (task : Task)
  | poll (task : Task)
  | snapshot (task : Task)
  | finish (task : Task) (body : T → Except E (T × R))
  | commit (task : Task) (address : Nat)
  | release (task : Task)
  | notify (task : Task)
  | drop (task : Task)
  | editDraft (edit : T → T) (address : Nat)
  | apply
  | discard

def Action.actor : Action Task T E R → Option Task
  | .start task | .acquire task | .resume task | .poll task | .snapshot task | .finish task _
  | .commit task _ | .release task | .notify task | .drop task => some task
  | .editDraft _ _ | .apply | .discard => none

/-- A draft layer just created, with no call in progress. -/
def State.new (data : T) : State Task T E R where
  data := ⟨⟨0, data⟩, none⟩
  dataModifying := false
  notified := false
  waiters := []
  phase := fun _ => .idle
  commits := []
  seen := fun _ => 0

/-- The next iteration of the fast loop, or the slow loop after the last one. -/
def enterLoop : Nat → Phase T E R
  | 0 => .listening
  | left + 1 => .trying left

section

variable [DecidableEq Task]

def State.setPhase (state : State Task T E R) (task : Task) (phase : Phase T E R) :
    State Task T E R :=
  { state with phase := Function.update state.phase task phase }

/-- Wake the first waiter, or store the permit. -/
def State.notifyOne (state : State Task T E R) : State Task T E R :=
  match state.waiters with
  | [] => { state with notified := true }
  | first :: rest => { state with waiters := rest }.setPhase first .woken

/-- An address some `Arc` of the draft still occupies. -/
def State.Live (state : State Task T E R) (address : Nat) : Prop :=
  state.data.committed.address = address ∨
    (∃ draft ∈ state.data.draft, draft.address = address) ∨
    ∃ task, ∃ original ∈ (state.phase task).original, original.address = address

instance [Fintype Task] (state : State Task T E R) (address : Nat) :
    Decidable (state.Live address) := by
  unfold State.Live
  infer_instance

/-- Where `Arc::make_mut` may leave an edited draft: in place, or in an allocation of its own. -/
def State.Editable (state : State Task T E R) (address : Nat) : Prop :=
  (∃ draft ∈ state.data.draft, draft.address = address) ∨ ¬ state.Live address

instance [Fintype Task] (state : State Task T E R) (address : Nat) :
    Decidable (state.Editable address) := by
  unfold State.Editable
  infer_instance

/-- The compare-exchange of `try_acquire_data_modify_permit`. -/
def State.tryAcquire (state : State Task T E R) (task : Task) (otherwise : Phase T E R) :
    State Task T E R :=
  if state.dataModifying then state.setPhase task otherwise
  else { state with dataModifying := true }.setPhase task .admitted

/-- The end of `with_data_modify` after its body: the pointer check and the replacement. -/
def State.commit [Fintype Task] (state : State Task T E R) (task : Task)
    (original : SharedDraft T) (body : T → Except E (T × R)) (address : Nat) :
    Option (State Task T E R) :=
  match body original.value with
  | .error error => some (state.setPhase task (.releasing (.bodyFailed error)))
  | .ok (newLocal, result) =>
    if state.data.committed.address = original.address then
      if state.Live address then none
      else some ({ state with
        data := { state.data with committed := ⟨address, newLocal⟩ }
        commits := state.commits ++ [Commit.modify task] }.setPhase task (.releasing (.ok result)))
    else some (state.setPhase task (.releasing .optimisticLockFailed))

def step [Fintype Task] (state : State Task T E R) : Action Task T E R → Option (State Task T E R)
  | .start task =>
    match state.phase task with
    | .idle | .returned _ => some (state.setPhase task (enterLoop dataModifyFastRetryYields))
    | _ => none
  | .acquire task =>
    match state.phase task with
    | .trying left => some (state.tryAcquire task (.yielded left))
    | .listening => some (state.tryAcquire task .refused)
    | _ => none
  | .resume task =>
    match state.phase task with
    | .yielded left => some (state.setPhase task (enterLoop left))
    | .woken => some (state.setPhase task .listening)
    | _ => none
  | .poll task =>
    match state.phase task with
    | .refused =>
      if state.notified then some ({ state with notified := false }.setPhase task .listening)
      else some ({ state with waiters := state.waiters ++ [task] }.setPhase task .parked)
    | _ => none
  | .snapshot task =>
    match state.phase task with
    | .admitted => some ({ state with
        seen := Function.update state.seen task state.commits.length }.setPhase task
          (.running state.data.dataArc))
    | _ => none
  | .finish task body =>
    match state.phase task with
    | .running original => some (state.setPhase task (.finished original body))
    | _ => none
  | .commit task address =>
    match state.phase task with
    | .finished original body => state.commit task original body address
    | _ => none
  | .release task =>
    match state.phase task with
    | .releasing outcome =>
      some ({ state with dataModifying := false }.setPhase task (.notifying outcome))
    | _ => none
  | .notify task =>
    match state.phase task with
    | .notifying outcome => some (state.setPhase task (.returned outcome)).notifyOne
    | _ => none
  | .drop task =>
    match state.phase task with
    | .yielded _ => some (state.setPhase task (.returned .dropped))
    | .parked =>
      some ({ state with waiters := state.waiters.erase task }.setPhase task (.returned .dropped))
    | .woken => some (state.setPhase task (.returned .dropped)).notifyOne
    | .running _ => some (state.setPhase task (.releasing .dropped))
    | _ => none
  | .editDraft edit address =>
    if state.Editable address then
      some { state with data := state.data.editDraft edit address }
    else none
  | .apply =>
    match state.data.draft with
    | none => some state
    | some _ => some { state with
        data := state.data.apply
        commits := state.commits ++ [.draft] }
  | .discard => some { state with data := state.data.discard }

/-- Everything a step can do, with the guard it passed. -/
inductive Moves (state : State Task T E R) :
    Action Task T E R → State Task T E R → Prop
  | start (task : Task) (resting : (state.phase task).Resting) :
      Moves state (.start task) (state.setPhase task (enterLoop dataModifyFastRetryYields))
  | enter (task : Task) (seeking : (state.phase task).Seeking) (free : state.dataModifying = false) :
      Moves state (.acquire task) ({ state with dataModifying := true }.setPhase task .admitted)
  | yield (task : Task) (left : Nat) (at_ : state.phase task = .trying left)
      (held : state.dataModifying = true) :
      Moves state (.acquire task) (state.setPhase task (.yielded left))
  | refuse (task : Task) (at_ : state.phase task = .listening)
      (held : state.dataModifying = true) :
      Moves state (.acquire task) (state.setPhase task .refused)
  | again (task : Task) (left : Nat) (at_ : state.phase task = .yielded left) :
      Moves state (.resume task) (state.setPhase task (enterLoop left))
  | wake (task : Task) (at_ : state.phase task = .woken) :
      Moves state (.resume task) (state.setPhase task .listening)
  | consume (task : Task) (at_ : state.phase task = .refused) (stored : state.notified = true) :
      Moves state (.poll task) ({ state with notified := false }.setPhase task .listening)
  | park (task : Task) (at_ : state.phase task = .refused) (empty : state.notified = false) :
      Moves state (.poll task)
        ({ state with waiters := state.waiters ++ [task] }.setPhase task .parked)
  | snapshot (task : Task) (at_ : state.phase task = .admitted) :
      Moves state (.snapshot task) ({ state with
        seen := Function.update state.seen task state.commits.length }.setPhase task
          (.running state.data.dataArc))
  | finish (task : Task) (body : T → Except E (T × R)) (original : SharedDraft T)
      (at_ : state.phase task = .running original) :
      Moves state (.finish task body) (state.setPhase task (.finished original body))
  | fail (task : Task) (address : Nat) (original : SharedDraft T) (body : T → Except E (T × R))
      (at_ : state.phase task = .finished original body) (error : E)
      (failed : body original.value = .error error) :
      Moves state (.commit task address) (state.setPhase task (.releasing (.bodyFailed error)))
  | reject (task : Task) (address : Nat) (original : SharedDraft T) (body : T → Except E (T × R))
      (at_ : state.phase task = .finished original body) (newLocal : T) (result : R)
      (succeeded : body original.value = .ok (newLocal, result))
      (moved : state.data.committed.address ≠ original.address) :
      Moves state (.commit task address) (state.setPhase task (.releasing .optimisticLockFailed))
  | replace (task : Task) (address : Nat) (original : SharedDraft T) (body : T → Except E (T × R))
      (at_ : state.phase task = .finished original body) (newLocal : T) (result : R)
      (succeeded : body original.value = .ok (newLocal, result))
      (same : state.data.committed.address = original.address) (fresh : ¬ state.Live address) :
      Moves state (.commit task address) ({ state with
        data := { state.data with committed := ⟨address, newLocal⟩ }
        commits := state.commits ++ [Commit.modify task] }.setPhase task (.releasing (.ok result)))
  | release (task : Task) (outcome : Outcome E R) (at_ : state.phase task = .releasing outcome) :
      Moves state (.release task)
        ({ state with dataModifying := false }.setPhase task (.notifying outcome))
  | notify (task : Task) (outcome : Outcome E R) (at_ : state.phase task = .notifying outcome) :
      Moves state (.notify task) (state.setPhase task (.returned outcome)).notifyOne
  | dropYielded (task : Task) (left : Nat) (at_ : state.phase task = .yielded left) :
      Moves state (.drop task) (state.setPhase task (.returned .dropped))
  | dropParked (task : Task) (at_ : state.phase task = .parked) :
      Moves state (.drop task)
        ({ state with waiters := state.waiters.erase task }.setPhase task (.returned .dropped))
  | dropWoken (task : Task) (at_ : state.phase task = .woken) :
      Moves state (.drop task) (state.setPhase task (.returned .dropped)).notifyOne
  | dropRunning (task : Task) (original : SharedDraft T)
      (at_ : state.phase task = .running original) :
      Moves state (.drop task) (state.setPhase task (.releasing .dropped))
  | editDraft (edit : T → T) (address : Nat) (editable : state.Editable address) :
      Moves state (.editDraft edit address)
        { state with data := state.data.editDraft edit address }
  | applyNothing (empty : state.data.draft = none) : Moves state .apply state
  | applyDraft (draft : SharedDraft T) (staged : state.data.draft = some draft) :
      Moves state .apply { state with
        data := ⟨draft, none⟩
        commits := state.commits ++ [.draft] }
  | discard : Moves state .discard { state with data := state.data.discard }

theorem step_moves [Fintype Task] {state next : State Task T E R} {action : Action Task T E R}
    (taken : step state action = some next) : Moves state action next := by
  cases action with
  | start task =>
    cases at_ : state.phase task <;> simp only [step, at_, reduceCtorEq, Option.some.injEq] at taken
    all_goals
      subst next
      exact .start task (by simp [at_, Phase.Resting])
  | acquire task =>
    cases held : state.dataModifying <;> cases at_ : state.phase task <;>
      simp only [step, at_, State.tryAcquire, held, reduceCtorEq, Option.some.injEq, if_true,
        if_false, Bool.false_eq_true] at taken
    · subst next
      exact .enter task (by simp [at_, Phase.Seeking]) held
    · subst next
      exact .enter task (by simp [at_, Phase.Seeking]) held
    · subst next
      exact .yield task _ at_ held
    · subst next
      exact .refuse task at_ held
  | resume task =>
    cases at_ : state.phase task <;> simp only [step, at_, reduceCtorEq, Option.some.injEq] at taken
    · subst next
      exact .again task _ at_
    · subst next
      exact .wake task at_
  | poll task =>
    cases at_ : state.phase task <;> simp only [step, at_, reduceCtorEq] at taken
    split at taken
    · rename_i stored
      cases taken
      exact .consume task at_ stored
    · rename_i empty
      cases taken
      exact .park task at_ (by simpa using empty)
  | snapshot task =>
    cases at_ : state.phase task <;> simp only [step, at_, reduceCtorEq, Option.some.injEq] at taken
    subst next
    exact .snapshot task at_
  | finish task body =>
    cases at_ : state.phase task <;> simp only [step, at_, reduceCtorEq, Option.some.injEq] at taken
    subst next
    exact .finish task body _ at_
  | commit task address =>
    cases at_ : state.phase task <;> simp only [step, at_, reduceCtorEq] at taken
    rename_i original body
    cases computed : body original.value with
    | error error =>
      simp only [State.commit, computed, Option.some.injEq] at taken
      subst next
      exact .fail task address original body at_ error computed
    | ok pair =>
      obtain ⟨newLocal, result⟩ := pair
      by_cases same : state.data.committed.address = original.address
      · by_cases live : state.Live address
        · simp [State.commit, computed, same, live] at taken
        · simp only [State.commit, computed, same, live, if_true, if_false,
            Option.some.injEq] at taken
          subst next
          exact .replace task address original body at_ newLocal result computed same live
      · simp only [State.commit, computed, same, if_false, Option.some.injEq] at taken
        subst next
        exact .reject task address original body at_ newLocal result computed same
  | release task =>
    cases at_ : state.phase task <;> simp only [step, at_, reduceCtorEq, Option.some.injEq] at taken
    subst next
    exact .release task _ at_
  | notify task =>
    cases at_ : state.phase task <;> simp only [step, at_, reduceCtorEq, Option.some.injEq] at taken
    subst next
    exact .notify task _ at_
  | drop task =>
    cases at_ : state.phase task <;> simp only [step, at_, reduceCtorEq, Option.some.injEq] at taken
    · subst next
      exact .dropYielded task _ at_
    · subst next
      exact .dropParked task at_
    · subst next
      exact .dropWoken task at_
    · subst next
      exact .dropRunning task _ at_
  | editDraft edit address =>
    by_cases editable : state.Editable address
    · simp only [step, editable, if_true, Option.some.injEq] at taken
      subst next
      exact .editDraft edit address editable
    · simp [step, editable] at taken
  | apply =>
    cases staged : state.data.draft <;>
      simp only [step, staged, DraftData.apply, Option.some.injEq] at taken
    · subst next
      exact .applyNothing staged
    · subst next
      exact .applyDraft _ staged
  | discard =>
    simp only [step, Option.some.injEq] at taken
    subst next
    exact .discard

end

end ClashVerge.Draft.Modify
