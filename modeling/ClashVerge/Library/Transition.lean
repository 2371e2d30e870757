import Mathlib.Data.Fintype.Basic

/-!
# Runs of a partial step function

A system is a function from a state and an action to the next state, with `none` where the action is
refused. An invariant kept by each accepted action holds at the end of every finite run. When only
the actions of a given kind keep it, the run must consist of such actions.

A behaviour is an infinite run that may stutter. Weak fairness of a choice says that a choice
available from some moment on is taken at a later moment. It is the only progress assumption.
-/

namespace Transition

universe u v
variable {State : Type u} {Action : Type v} (step : State → Action → Option State)

/-- Take the actions in order. A refused action refuses the whole run. -/
def run : State → List Action → Option State
  | state, [] => some state
  | state, action :: rest =>
      match step state action with
      | none => none
      | some next => run next rest

@[simp] theorem run_nil (state : State) : run step state [] = some state := rfl

theorem run_cons_iff (state final : State) (action : Action) (rest : List Action) :
    run step state (action :: rest) = some final ↔
      ∃ next, step state action = some next ∧ run step next rest = some final := by
  cases taken : step state action with
  | none | some next => simp [run, taken]

theorem run_append_iff (state final : State) (before after : List Action) :
    run step state (before ++ after) = some final ↔
      ∃ middle, run step state before = some middle ∧ run step middle after = some final := by
  induction before generalizing state with
  | nil => simp
  | cons action rest ih =>
    simp only [List.cons_append, run_cons_iff, ih]
    constructor
    · rintro ⟨next, taken, middle, reached, remaining⟩
      exact ⟨middle, ⟨next, taken, reached⟩, remaining⟩
    · rintro ⟨middle, ⟨next, taken, reached⟩, remaining⟩
      exact ⟨next, taken, middle, reached, remaining⟩

def Reachable (initial state : State) : Prop := ∃ actions, run step initial actions = some state

/-- Every action of the run meets a condition on the state it is taken from. -/
def Meets (condition : State → Action → Prop) : State → List Action → Prop
  | _, [] => True
  | state, action :: rest =>
      condition state action ∧ ∀ next, step state action = some next → Meets condition next rest

/-- A condition that can be checked in each state can be checked along a run. -/
instance Meets.decidable (condition : State → Action → Prop)
    [∀ state action, Decidable (condition state action)] :
    ∀ state actions, Decidable (Meets step condition state actions)
  | _, [] => inferInstanceAs (Decidable True)
  | state, action :: rest =>
      match taken : step state action with
      | none => decidable_of_iff (condition state action) (by simp [Meets, taken])
      | some next =>
          have := Meets.decidable condition next rest
          decidable_of_iff (condition state action ∧ Meets step condition next rest)
            (by simp [Meets, taken])

variable {step}

variable {actions : List Action} {state : State}

theorem Meets.mono {condition other : State → Action → Prop}
    (weaker : ∀ state action, condition state action → other state action)
    (meets : Meets step condition state actions) :
    Meets step other state actions := by
  induction actions generalizing state with
  | nil => trivial
  | cons action rest ih =>
    exact ⟨weaker state action meets.1, fun next taken => ih (meets.2 next taken)⟩

theorem Meets.and {condition other : State → Action → Prop}
    (one : Meets step condition state actions) (two : Meets step other state actions) :
    Meets step (fun state action => condition state action ∧ other state action) state actions := by
  induction actions generalizing state with
  | nil => trivial
  | cons action rest ih =>
    exact ⟨⟨one.1, two.1⟩, fun next taken => ih (one.2 next taken) (two.2 next taken)⟩

variable {condition : State → Action → Prop}

theorem Meets.after {state middle : State}
    {before after : List Action} (meets : Meets step condition state (before ++ after))
    (ran : run step state before = some middle) : Meets step condition middle after := by
  induction before generalizing state with
  | nil =>
    obtain rfl : state = middle := Option.some.inj ran
    exact meets
  | cons first rest ih =>
    obtain ⟨next, taken, remaining⟩ := (run_cons_iff step state middle first rest).mp ran
    exact ih (meets.2 next taken) remaining

theorem Meets.reached {state middle : State} {before after : List Action} {action : Action}
    (meets : Meets step condition state (before ++ action :: after))
    (ran : run step state before = some middle) : condition middle action :=
  (meets.after ran).1

theorem Meets.before
    {before after : List Action} (meets : Meets step condition state (before ++ after)) :
    Meets step condition state before := by
  induction before generalizing state with
  | nil => trivial
  | cons first rest ih =>
    exact ⟨meets.1, fun next taken => ih (meets.2 next taken)⟩

/-- A condition that keeps an invariant along a run gives whatever follows from the two. -/
theorem Meets.imp_of_invariant {condition other : State → Action → Prop} (invariant : State → Prop)
    (keeps : ∀ state action next, invariant state → condition state action →
      step state action = some next → invariant next)
    (implies : ∀ state action, invariant state → condition state action → other state action)
    (initially : invariant state)
    (meets : Meets step condition state actions) : Meets step other state actions := by
  induction actions generalizing state with
  | nil => trivial
  | cons action rest ih =>
    refine ⟨implies state action initially meets.1, fun next taken => ?_⟩
    exact ih (keeps state action next initially meets.1 taken) (meets.2 next taken)

theorem Meets.congr_of_invariant {condition other : State → Action → Prop}
    (invariant : State → Prop)
    (keeps : ∀ state action next, invariant state → step state action = some next → invariant next)
    (agree : ∀ state action, invariant state → (condition state action ↔ other state action))
    (initially : invariant state) (actions : List Action) :
    Meets step condition state actions ↔ Meets step other state actions := by
  induction actions generalizing state with
  | nil => rfl
  | cons action rest ih =>
    refine and_congr (agree state action initially) (forall₂_congr fun next taken => ?_)
    exact ih (keeps state action next initially taken)

theorem Reachable.refl (initial : State) : Reachable step initial initial := ⟨[], rfl⟩

theorem Reachable.next {initial state next : State} {action : Action}
    (reached : Reachable step initial state) (taken : step state action = some next) :
    Reachable step initial next := by
  obtain ⟨actions, ran⟩ := reached
  refine ⟨actions ++ [action], ?_⟩
  rw [run_append_iff]
  exact ⟨state, ran, by simp [run, taken]⟩

/-- A property kept by every conditioned action holds at the end of every run whose
actions all meet the condition. -/
theorem run_invariant_of_meets (invariant : State → Prop)
    (keeps : ∀ state action next, invariant state → condition state action →
      step state action = some next → invariant next)
    {state final : State} (initially : invariant state)
    (meets : Meets step condition state actions) (ran : run step state actions = some final) :
    invariant final := by
  induction actions generalizing state with
  | nil =>
    have same : state = final := Option.some.inj ran
    exact same ▸ initially
  | cons action rest ih =>
    obtain ⟨next, taken, remaining⟩ := (run_cons_iff step state final action rest).mp ran
    exact ih (keeps state action next initially meets.1 taken)
      (meets.2 next taken) remaining

/-- Where, along with an invariant, an action keeps a property just if it meets a condition, a run
meets the condition just if the property holds in every state on its way. -/
theorem meets_iff_throughout {invariant property : State → Prop}
    (keeps : ∀ state action next, invariant state → step state action = some next → invariant next)
    (exact_ : ∀ state action, invariant state → property state →
      (condition state action ↔ ∀ next, step state action = some next → property next))
    (initially : invariant state) (holds : property state) (actions : List Action) :
    Meets step condition state actions ↔ ∀ before after middle, actions = before ++ after →
      run step state before = some middle → property middle := by
  constructor
  · intro meets before after middle split_ ran
    subst split_
    refine (run_invariant_of_meets (fun state => invariant state ∧ property state) ?_
      ⟨initially, holds⟩ meets.before ran).2
    intro state action next both met taken
    exact ⟨keeps state action next both.1 taken, (exact_ state action both.1 both.2).mp met next taken⟩
  · intro throughout
    induction actions generalizing state with
    | nil => trivial
    | cons action rest ih =>
      have kept : ∀ next, step state action = some next → property next := by
        intro next taken
        refine throughout [action] rest next rfl ?_
        rw [run_cons_iff]
        exact ⟨next, taken, rfl⟩
      refine ⟨(exact_ state action initially holds).mpr kept, fun next taken => ?_⟩
      refine ih (keeps state action next initially taken) (kept next taken) ?_
      intro before after middle split_ ran
      refine throughout (action :: before) after middle (by rw [split_]; rfl) ?_
      rw [run_cons_iff]
      exact ⟨next, taken, ran⟩

theorem run_invariant {invariant : State → Prop}
    (keeps : ∀ state action next, invariant state → step state action = some next → invariant next)
    {state final : State} (initially : invariant state)
    (ran : run step state actions = some final) : invariant final := by
  have always : ∀ state actions, Meets step (fun _ _ => True) state actions := fun state actions => by
    induction actions generalizing state with
    | nil => trivial
    | cons action rest ih => exact ⟨trivial, fun next _ => ih next⟩
  exact run_invariant_of_meets invariant (fun state action next holds _ => keeps state action next holds)
    initially (always state actions) ran

theorem run_crosses (property : State → Prop) {state final : State}
    (ran : run step state actions = some final) (holds : property state)
    (fails : ¬ property final) :
    ∃ before action after middle next, actions = before ++ action :: after ∧
      run step state before = some middle ∧ step middle action = some next ∧
      property middle ∧ ¬ property next := by
  induction actions generalizing state with
  | nil =>
    have same : state = final := Option.some.inj ran
    exact absurd (same ▸ holds) fails
  | cons action rest ih =>
    obtain ⟨next, taken, remaining⟩ := (run_cons_iff step state final action rest).mp ran
    by_cases kept : property next
    · obtain ⟨before, crossing, after, middle, beyond, rfl, ran, taken', holding, lost⟩ :=
        ih remaining kept
      refine ⟨action :: before, crossing, after, middle, beyond, rfl, ?_, taken', holding, lost⟩
      exact (run_cons_iff step state middle action before).mpr ⟨next, taken, ran⟩
    · exact ⟨[], action, rest, state, next, rfl, rfl, taken, holds, kept⟩

theorem Reachable.invariant {invariant : State → Prop} {initial state : State}
    (reached : Reachable step initial state) (initially : invariant initial)
    (keeps : ∀ state action next, invariant state → step state action = some next → invariant next) :
    invariant state := by
  obtain ⟨actions, ran⟩ := reached
  exact run_invariant keeps initially ran

/-- An infinite run. A moment without an action repeats its state. -/
structure Behaviour (step : State → Action → Option State) where
  state : Nat → State
  action : Nat → Option Action
  next : ∀ moment, match action moment with
    | none => state (moment + 1) = state moment
    | some taken => step (state moment) taken = some (state (moment + 1))

namespace Behaviour

variable (behaviour : Behaviour step)

/-- A choice that is available from some moment on is taken at a later moment. -/
def WeaklyFair (choice : Action) : Prop :=
  ∀ start, (∀ moment, start ≤ moment → (step (behaviour.state moment) choice).isSome) →
    ∃ moment, start ≤ moment ∧ behaviour.action moment = some choice

theorem accepted {moment : Nat} {taken : Action} (chosen : behaviour.action moment = some taken) :
    step (behaviour.state moment) taken = some (behaviour.state (moment + 1)) := by
  have exact := behaviour.next moment
  rwa [chosen] at exact

theorem advance (moment : Nat) : behaviour.state (moment + 1) = behaviour.state moment ∨
      ∃ taken, behaviour.action moment = some taken ∧
        step (behaviour.state moment) taken = some (behaviour.state (moment + 1)) := by
  have exact := behaviour.next moment
  cases chosen : behaviour.action moment with
  | none =>
    rw [chosen] at exact
    exact .inl exact
  | some taken => exact .inr ⟨taken, rfl, behaviour.accepted chosen⟩

theorem reachable (moment : Nat) : Reachable step (behaviour.state 0) (behaviour.state moment) := by
  induction moment with
  | zero => exact Reachable.refl _
  | succ moment ih =>
    rcases behaviour.advance moment with repeated | ⟨taken, _, accepted⟩
    · exact repeated ▸ ih
    · exact ih.next accepted

/-- A fair choice cannot be avoided by staying in states that offer it. While `pattern` holds,
either it persists with `choice` available or `goal` is reached; taking the choice reaches `goal`.
Then `goal` follows. -/
theorem WeaklyFair.eventually {choice : Action} (fair : behaviour.WeaklyFair choice)
    (pattern goal : State → Prop) (start : Nat)
    (persists : ∀ moment, start ≤ moment → pattern (behaviour.state moment) →
      pattern (behaviour.state (moment + 1)) ∨ goal (behaviour.state (moment + 1)))
    (available : ∀ moment, start ≤ moment → pattern (behaviour.state moment) →
      (step (behaviour.state moment) choice).isSome)
    (effect : ∀ moment, start ≤ moment → pattern (behaviour.state moment) →
      behaviour.action moment = some choice → goal (behaviour.state (moment + 1)))
    (initially : pattern (behaviour.state start)) :
    ∃ moment, start ≤ moment ∧ goal (behaviour.state moment) := by
  by_contra never
  have avoids : ∀ moment, start ≤ moment → ¬ goal (behaviour.state moment) :=
    fun moment later reached => never ⟨moment, later, reached⟩
  have stays : ∀ distance, pattern (behaviour.state (start + distance)) := by
    intro distance
    induction distance with
    | zero => exact initially
    | succ distance ih =>
      rcases persists (start + distance) (by omega) ih with kept | reached
      · exact kept
      · exact absurd reached (avoids (start + distance + 1) (by omega))
  have patternAt : ∀ moment, start ≤ moment → pattern (behaviour.state moment) := by
    intro moment later
    obtain ⟨distance, rfl⟩ := Nat.exists_eq_add_of_le later
    exact stays distance
  obtain ⟨moment, later, chosen⟩ :=
    fair start (fun moment later => available moment later (patternAt moment later))
  exact avoids (moment + 1) (by omega) (effect moment later (patternAt moment later) chosen)

end Behaviour

end Transition
