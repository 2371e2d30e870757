import ClashVerge.Library.Transition

/-!
# Event subscriptions

`listen` settles at any time, and what follows runs in a later turn. The teardown is synchronous and
may be called any number of times, also by an unlisten function while another one is running.
-/

namespace ClashVerge.Events

open Transition

variable {Name : Type} [DecidableEq Name]

inductive Registration where
  | listening
  | resolved
  | rejected
  | settled
deriving DecidableEq, Repr

/-- The handlers by name, in the order of `Object.entries`. A handler may be `undefined`. -/
structure VergeEventHandlers (Name : Type) where
  names : List Name
  handled : Name → Bool

structure State (Name : Type) where
  registration : Name → Registration
  disposed : Bool
  unlisteners : List Name
  /-- The unlisten functions that the code on the stack has still to call. -/
  calling : List Name
  /-- The names whose unlisten function the code was given. -/
  obtained : Name → Bool
  /-- How often the unlisten function of a name was called. -/
  calls : Name → Nat
  teardowns : Nat
  /-- How often `onSubscribed` ran. -/
  subscribed : Nat
  /-- The callback of `Promise.all` has run. -/
  allRun : Bool

inductive Action (Name : Type) where
  | resolve (name : Name)
  | reject (name : Name)
  /-- The `then` callback of a registration. -/
  | arrived (name : Name)
  /-- The `catch` callback of a registration. -/
  | caught (name : Name)
  /-- The next unlisten function runs. What it throws is caught. -/
  | unlisten
  | all
  | teardown

/-- A name without a handler is `Promise.resolve()`. -/
def subscribeVergeEvents (handlers : VergeEventHandlers Name) : State Name where
  registration name :=
    if name ∈ handlers.names ∧ handlers.handled name then .listening else .settled
  disposed := false
  unlisteners := []
  calling := []
  obtained _ := false
  calls _ := 0
  teardowns := 0
  subscribed := 0
  allRun := false

def State.settle (state : State Name) (name : Name) (registration : Registration) : State Name :=
  { state with registration := Function.update state.registration name registration }

def State.Settled (handlers : VergeEventHandlers Name) (state : State Name) : Prop :=
  ∀ name ∈ handlers.names, state.registration name = .settled

instance (handlers : VergeEventHandlers Name) (state : State Name) :
    Decidable (state.Settled handlers) :=
  inferInstanceAs (Decidable (∀ name ∈ handlers.names, state.registration name = .settled))

/-- Callbacks run when no code is on the stack. -/
def step (handlers : VergeEventHandlers Name) (onSubscribed : Bool) (state : State Name) :
    Action Name → Option (State Name)
  | .resolve name =>
      if state.registration name = .listening then some (state.settle name .resolved) else none
  | .reject name =>
      if state.registration name = .listening then some (state.settle name .rejected) else none
  | .arrived name =>
      if state.registration name = .resolved ∧ state.calling = [] then
        let state := { state.settle name .settled with
          obtained := Function.update state.obtained name true }
        if state.disposed then some { state with calling := [name] }
        else some { state with unlisteners := state.unlisteners ++ [name] }
      else none
  | .caught name =>
      if state.registration name = .rejected ∧ state.calling = [] then
        some (state.settle name .settled)
      else none
  | .unlisten =>
      match state.calling with
      | [] => none
      | name :: rest => some { state with
          calling := rest, calls := Function.update state.calls name (state.calls name + 1) }
  | .all =>
      if onSubscribed ∧ state.Settled handlers ∧ state.allRun = false ∧ state.calling = [] then
        if state.disposed then some { state with allRun := true }
        else some { state with allRun := true, subscribed := state.subscribed + 1 }
      else none
  | .teardown => some { state with
      disposed := true, unlisteners := [], calling := state.unlisteners ++ state.calling,
      teardowns := state.teardowns + 1 }

/-- No subscription leaks: a function that was obtained is called once when all is over, never
before a teardown, and `onSubscribed` runs once at most, after every registration has settled and
before any teardown. -/
structure LeakFree (handlers : VergeEventHandlers Name) (onSubscribed : Bool)
    (state : State Name) : Prop where
  once : state.Settled handlers → 0 < state.teardowns → state.calling = [] →
    ∀ name, state.obtained name = true → state.calls name = 1
  known : ∀ name, state.calls name ≤ 1 ∧ (0 < state.calls name → state.obtained name = true)
  notBefore : state.teardowns = 0 → ∀ name, state.calls name = 0
  subscribed : state.subscribed ≤ 1
  timely : ∀ action next, step handlers onSubscribed state action = some next →
    next.subscribed ≠ state.subscribed → state.Settled handlers ∧ state.teardowns = 0

/-- A function that was obtained waits in one place until it is called. -/
structure Sound (state : State Name) : Prop where
  counted : ∀ name, state.calls name + (state.unlisteners ++ state.calling).count name =
    if state.obtained name then 1 else 0
  fresh : ∀ name, state.obtained name = true → state.registration name = .settled
  disposed : state.disposed = true ↔ 0 < state.teardowns
  open_ : state.disposed = false → state.calling = [] ∧ ∀ name, state.calls name = 0
  closed : state.disposed = true → state.unlisteners = []
  subscribed : state.subscribed ≤ if state.allRun then 1 else 0

variable {handlers : VergeEventHandlers Name} {onSubscribed : Bool} {state next : State Name}
  {action : Action Name}

theorem sound_initial : Sound (subscribeVergeEvents handlers) where
  counted name := by simp [subscribeVergeEvents]
  fresh name given := by simp [subscribeVergeEvents] at given
  disposed := by simp [subscribeVergeEvents]
  open_ _ := ⟨rfl, fun _ => rfl⟩
  closed _ := rfl
  subscribed := by simp [subscribeVergeEvents]

section

variable (sound : Sound state)
include sound

theorem Sound.settle {name : Name} {registration : Registration}
    (unsettled : state.registration name ≠ .settled) : Sound (state.settle name registration) where
  __ := sound
  fresh other given := by
    have settled := sound.fresh other given
    have different : other ≠ name := fun same => unsettled (same ▸ settled)
    simpa [State.settle, different] using settled

theorem Sound.arrive {name : Name}
    (resolved : state.registration name = .resolved) (idle : state.calling = [])
    (taken : step handlers onSubscribed state (.arrived name) = some next) : Sound next := by
  have unknown : state.obtained name = false := by
    by_contra given
    simp [sound.fresh name (by simpa using given)] at resolved
  have fresh (other : Name) (given : Function.update state.obtained name true other = true) :
      Function.update state.registration name .settled other = .settled := by
    by_cases same : other = name
    · simp [same]
    · simpa [same] using sound.fresh other (by simpa [same] using given)
  have counted (other : Name) : state.calls other + (state.unlisteners ++ [name]).count other =
      if Function.update state.obtained name true other then 1 else 0 := by
    have before := sound.counted other
    by_cases same : other = name
    · subst same
      simp_all
    · simpa [idle, same, Ne.symm same] using before
  simp only [step, resolved, idle, and_self, if_true] at taken
  split at taken <;> cases taken
  · rename_i disposed
    have closed := sound.closed disposed
    exact { sound with
      counted := fun other => by simpa [State.settle, closed] using counted other
      fresh := fresh
      open_ := fun opened => absurd (disposed.symm.trans opened) (by simp)
      closed := fun _ => closed }
  · rename_i opened
    exact { sound with
      counted := fun other => by simpa [State.settle, idle] using counted other
      fresh := fresh
      closed := fun disposed => absurd disposed opened }

theorem Sound.step (taken : step handlers onSubscribed state action = some next) : Sound next := by
  cases action with
  | resolve name | reject name | caught name =>
    simp only [Events.step, Option.ite_none_right_eq_some, Option.some.injEq] at taken
    obtain ⟨at_, rfl⟩ := taken
    exact sound.settle (by simp [at_])
  | arrived name =>
    have enabled := taken
    simp only [Events.step, Option.ite_none_right_eq_some] at enabled
    exact sound.arrive enabled.1.1 enabled.1.2 taken
  | unlisten =>
    cases calling : state.calling with
    | nil => simp [Events.step, calling] at taken
    | cons name rest =>
      have disposed : state.disposed = true := by
        by_contra opened
        simp [(sound.open_ (by simpa using opened)).1] at calling
      simp only [Events.step, calling, Option.some.injEq] at taken
      subst taken
      refine { sound with counted := fun other => ?_, open_ := fun opened => ?_ }
      · have before := sound.counted other
        rw [calling] at before
        by_cases same : other = name
        · subst same
          simp at before ⊢
          omega
        · simpa [same, Ne.symm same] using before
      · exact absurd (disposed.symm.trans opened) (by simp)
  | all =>
    simp only [Events.step, Option.ite_none_right_eq_some] at taken
    obtain ⟨⟨_, _, first, _⟩, taken⟩ := taken
    have none_ : state.subscribed = 0 := by simpa [first] using sound.subscribed
    split at taken <;> cases taken
    · exact { sound with subscribed := by simp [none_] }
    · exact { sound with subscribed := by simp [none_] }
  | teardown =>
    cases taken
    exact { sound with
      counted := fun other => by simpa using sound.counted other
      disposed := by simp
      open_ := by simp
      closed := fun _ => rfl }

theorem Sound.timely (taken : Events.step handlers onSubscribed state action = some next)
    (ran : next.subscribed ≠ state.subscribed) :
    state.Settled handlers ∧ state.teardowns = 0 := by
  cases action with
  | all =>
    simp only [Events.step, Option.ite_none_right_eq_some] at taken
    obtain ⟨⟨_, settled, _, _⟩, taken⟩ := taken
    refine ⟨settled, ?_⟩
    split at taken <;> cases taken
    · exact absurd rfl ran
    · rename_i opened
      have torn := sound.disposed.not.mp opened
      omega
  | _ =>
    simp only [Events.step] at taken
    (repeat' split at taken) <;> cases taken <;> exact absurd rfl ran

theorem Sound.leakFree : LeakFree handlers onSubscribed state where
  once _ torn idle name given := by
    simpa [sound.closed (sound.disposed.mpr torn), idle, given] using sound.counted name
  known name := by
    have counted := sound.counted name
    split at counted
    · exact ⟨by omega, fun _ => ‹_›⟩
    · exact ⟨by omega, by omega⟩
  notBefore standing := (sound.open_ (by simpa [standing] using sound.disposed)).2
  subscribed := sound.subscribed.trans (by split <;> simp)
  timely _ _ := sound.timely

end

/-- For every set of handlers and every order of settlements and teardowns, no subscription leaks. -/
theorem subscriptions_never_leak (handlers : VergeEventHandlers Name) (onSubscribed : Bool)
    (actions : List (Action Name)) {final : State Name}
    (ran : run (step handlers onSubscribed) (subscribeVergeEvents handlers) actions = some final) :
    LeakFree handlers onSubscribed final := by
  have sound : Sound final := run_invariant (fun _ _ _ => Sound.step) sound_initial ran
  exact sound.leakFree

def twoHandlers : VergeEventHandlers Bool := ⟨[true, false], fun _ => true⟩

/-- One registration resolves before the teardown and one after it. -/
def crossing : List (Action Bool) :=
  [.resolve true, .arrived true, .teardown, .unlisten, .resolve false, .arrived false, .unlisten, .all]

theorem crossing_never_leaks :
    ∃ final, run (step twoHandlers true) (subscribeVergeEvents twoHandlers) crossing = some final ∧
      LeakFree twoHandlers true final ∧ final.calls true = 1 ∧ final.calls false = 1 ∧
      final.subscribed = 0 :=
  ⟨_, rfl, subscriptions_never_leak twoHandlers true crossing rfl, rfl, rfl, rfl⟩

end ClashVerge.Events
