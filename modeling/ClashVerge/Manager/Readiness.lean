import ClashVerge.Library.Transition

/-!
# Core readiness

Whether the core is ready is kept in one atomic word of 64 bits: its lowest bit says that it is, the
bits over it count the changes. To mark the core ready, and to invalidate that, is a loop that loads
the word and exchanges it if it has not changed; to claim a generation is one exchange.

Any number of tasks make these calls, and each access to the word is a step. `changes`, which is not
in the source, lists the changes of the word in their order.
-/

namespace ClashVerge.Manager.Readiness

open Function (update)

abbrev Word : Type := BitVec 64

/-- `CORE_READINESS_ACTIVE_BIT`. -/
def activeBit : Word := 1#64

/-- `CORE_READINESS_GENERATION_STEP`. -/
def generationStep : Word := 1#64 <<< 1

def nextActive (word : Word) : Word := ((word + generationStep) &&& ~~~activeBit) ||| activeBit

def inactive (word : Word) : Word := (word + generationStep) &&& ~~~activeBit

/-- `active_core_readiness_generation`. -/
def activeGeneration (word : Word) : Option Word :=
  if word &&& activeBit ≠ 0 then some word else none

def number (word : Word) : Nat := word.toNat / 2

/-- The word says that the core is ready. -/
def isActive (word : Word) : Bool := word.toNat % 2 = 1

/-- The generations before the count wraps around. -/
def generations : Nat := 9223372036854775808

section

variable (word : Word)
include word

theorem number_lt : number word < generations := by
  have bound := word.isLt
  unfold number generations
  omega

theorem toNat_clear : (word &&& ~~~activeBit).toNat = 2 * number word := by
  have shifted : word &&& ~~~activeBit = (word >>> 1) <<< 1 := by
    ext index inside
    rw [BitVec.getElem_and, BitVec.getElem_not, activeBit, BitVec.getElem_one,
      BitVec.getElem_shiftLeft]
    cases index with
    | zero => simp
    | succ index => simp [Nat.add_comm 1, BitVec.getLsbD_eq_getElem inside]
  have bound := number_lt word
  rw [shifted, BitVec.toNat_shiftLeft, BitVec.toNat_ushiftRight, Nat.shiftRight_eq_div_pow,
    Nat.shiftLeft_eq]
  unfold number generations at *
  omega

theorem number_step : number (word + generationStep) = (number word + 1) % generations := by
  have bound := word.isLt
  have two : generationStep.toNat = 2 := rfl
  unfold number generations
  rw [BitVec.toNat_add, two]
  omega

theorem toNat_inactive : (inactive word).toNat = 2 * ((number word + 1) % generations) := by
  rw [inactive, toNat_clear, number_step]

theorem toNat_nextActive : (nextActive word).toNat = 2 * ((number word + 1) % generations) + 1 := by
  have apart : inactive word &&& activeBit = 0 := by
    rw [inactive, BitVec.and_assoc, BitVec.and_comm (~~~activeBit)]
    simp
  have sum : nextActive word = inactive word + activeBit :=
    (BitVec.add_eq_or_of_and_eq_zero _ _ apart).symm
  have bound : (number word + 1) % generations < generations := Nat.mod_lt _ (by decide)
  have one : activeBit.toNat = 1 := rfl
  rw [sum, BitVec.toNat_add, toNat_inactive, one]
  unfold generations at *
  omega

theorem number_inactive : number (inactive word) = (number word + 1) % generations := by
  have value := toNat_inactive word
  unfold number at *
  omega

theorem number_nextActive : number (nextActive word) = (number word + 1) % generations := by
  have value := toNat_nextActive word
  unfold number at *
  omega

@[simp] theorem isActive_inactive : isActive (inactive word) = false := by
  simp [isActive, toNat_inactive]

@[simp] theorem isActive_nextActive : isActive (nextActive word) = true := by
  simp [isActive, toNat_nextActive]

theorem activeGeneration_eq :
    activeGeneration word = if isActive word then some word else none := by
  have lowest : (word &&& activeBit).toNat = word.toNat % 2 := by
    rw [BitVec.toNat_and]
    exact Nat.and_one_is_mod _
  have clear : word &&& activeBit = 0 ↔ word.toNat % 2 = 0 := by
    rw [← BitVec.toNat_inj, lowest]
    rfl
  unfold activeGeneration isActive
  by_cases even : word.toNat % 2 = 0
  · simp [clear.mpr even, even]
  · have odd : word.toNat % 2 = 1 := by omega
    rw [if_pos (mt clear.mp even)]
    simp [odd]

end

inductive Change where
  | mark
  | invalidate
  | claim (captured : Word)
deriving DecidableEq

/-- Where a task stands: in the loop of a call, with the word it has loaded. -/
inductive Phase where
  | idle
  | marking (current : Word)
  | invalidating (current : Word)
deriving DecidableEq

structure State (Task : Type) where
  /-- `core_readiness_state`. -/
  word : Word
  phase : Task → Phase
  changes : List Change

inductive Action (Task : Type) where
  | beginMark (task : Task)
  /-- The exchange in the loop of `mark_core_ready`. -/
  | exchangeMark (task : Task)
  | beginInvalidate (task : Task)
  /-- The weak exchange in the loop of `fetch_update`, which may fail for no reason. -/
  | exchangeInvalidate (task : Task) (spurious : Bool)
  /-- `invalidate_core_readiness_if` with a generation. -/
  | claim (captured : Word)

variable {Task : Type} [DecidableEq Task]

namespace State

def new : State Task where
  word := 0#64
  phase _ := .idle
  changes := []

def setPhase (state : State Task) (task : Task) (phase : Phase) : State Task :=
  { state with phase := update state.phase task phase }

def exchange (state : State Task) (word : Word) (change : Change) : State Task :=
  { state with word := word, changes := state.changes ++ [change] }

end State

def step (state : State Task) : Action Task → Option (State Task)
  | .beginMark task =>
    match state.phase task with
    | .idle => some (state.setPhase task (.marking state.word))
    | _ => none
  | .exchangeMark task =>
    match state.phase task with
    | .marking current =>
      if state.word = current then
        some ((state.setPhase task .idle).exchange (nextActive current) .mark)
      else some (state.setPhase task (.marking state.word))
    | _ => none
  | .beginInvalidate task =>
    match state.phase task with
    | .idle => some (state.setPhase task (.invalidating state.word))
    | _ => none
  | .exchangeInvalidate task spurious =>
    match state.phase task with
    | .invalidating current =>
      match (activeGeneration current).map inactive with
      | none => some (state.setPhase task .idle)
      | some next =>
        if state.word = current ∧ spurious = false then
          some ((state.setPhase task .idle).exchange next .invalidate)
        else some (state.setPhase task (.invalidating state.word))
    | _ => none
  | .claim captured =>
    if state.word = captured then some (state.exchange (inactive captured) (.claim captured))
    else some state

def Change.apply (word : Word) : Change → Word
  | .mark => nextActive word
  | .invalidate | .claim _ => inactive word

/-- A change that the word allows: readiness is invalidated where there is one, and a generation is
claimed while it is the word. -/
def Change.Allowed (word : Word) : Change → Prop
  | .mark => True
  | .invalidate => isActive word = true
  | .claim captured => word = captured

variable {state next : State Task}

theorem step_cases {action : Action Task} (taken : step state action = some next) :
    next.word = state.word ∧ next.changes = state.changes ∨
      ∃ change : Change, change.Allowed state.word ∧ next.word = change.apply state.word ∧
        next.changes = state.changes ++ [change] := by
  cases action with simp only [step] at taken
  | beginMark task | beginInvalidate task =>
    split at taken
    · cases taken
      exact .inl ⟨rfl, rfl⟩
    · contradiction
  | exchangeMark task =>
    split at taken
    · split at taken <;> cases taken
      · rename_i current _ same
        exact .inr ⟨.mark, trivial, congrArg nextActive same.symm, rfl⟩
      · exact .inl ⟨rfl, rfl⟩
    · contradiction
  | exchangeInvalidate task spurious =>
    split at taken
    · rename_i current _
      split at taken
      · cases taken
        exact .inl ⟨rfl, rfl⟩
      · rename_i following found
        split at taken <;> cases taken
        · rename_i same
          rw [activeGeneration_eq] at found
          split at found
          · rename_i active
            cases found
            exact .inr ⟨.invalidate, same.1 ▸ active, congrArg inactive same.1.symm, rfl⟩
          · contradiction
        · exact .inl ⟨rfl, rfl⟩
    · contradiction
  | claim captured =>
    split at taken <;> cases taken
    · rename_i same
      exact .inr ⟨.claim captured, same, congrArg inactive same.symm, rfl⟩
    · exact .inl ⟨rfl, rfl⟩

@[simp] theorem Change.number_apply (word : Word) (change : Change) :
    number (change.apply word) = (number word + 1) % generations := by
  cases change with
  | mark => exact number_nextActive word
  | invalidate | claim _ => exact number_inactive word

/-- The word is told by the changes: their number and the last one, and a claimed generation by
those before it. -/
structure Counted (state : State Task) : Prop where
  number : number state.word = state.changes.length % generations
  active : isActive state.word = true ↔ state.changes.getLast? = some .mark
  claimed : ∀ position captured, state.changes[position]? = some (.claim captured) →
    Readiness.number captured = position % generations

omit [DecidableEq Task] in
theorem counted_new : Counted (State.new : State Task) := by
  have zero : Readiness.number 0#64 = 0 % generations := by decide
  have inert : isActive 0#64 = false := by decide
  refine ⟨zero, ?_, fun _ _ is_ => by simp [State.new] at is_⟩
  simp [State.new, inert]

theorem Counted.step (counted : Counted state) {action : Action Task}
    (taken : step state action = some next) : Counted next := by
  obtain ⟨word, changes⟩ | ⟨change, allowed, word, changes⟩ := step_cases taken
  · refine ⟨?_, ?_, ?_⟩
    · rw [word, changes]
      exact counted.number
    · rw [word, changes]
      exact counted.active
    · rw [changes]
      exact counted.claimed
  · refine ⟨?_, ?_, fun position captured is_ => ?_⟩
    · rw [word, changes, Change.number_apply, counted.number, List.length_append,
        List.length_singleton, Nat.mod_add_mod]
    · rw [word, changes, List.getLast?_append_of_ne_nil _ (by simp)]
      cases change <;> simp [Change.apply]
    · rw [changes] at is_
      rcases Nat.lt_trichotomy position state.changes.length with before | rfl | after
      · rw [List.getElem?_append_left before] at is_
        exact counted.claimed position captured is_
      · rw [List.getElem?_append_right (Nat.le_refl _)] at is_
        obtain rfl : change = .claim captured := by simpa using is_
        obtain rfl : state.word = captured := allowed
        exact counted.number
      · rw [List.getElem?_eq_none (by simp; omega)] at is_
        contradiction

theorem counted_reached (reached : Transition.Reachable step (State.new : State Task) state) :
    Counted state :=
  reached.invariant counted_new fun _ _ _ counted taken => counted.step taken

theorem run_changes {actions : List (Action Task)} {final : State Task}
    (ran : Transition.run step state actions = some final) :
    ∃ more, final.changes = state.changes ++ more ∧ (more = [] → final.word = state.word) := by
  induction actions generalizing state with
  | nil =>
    cases ran
    exact ⟨[], (List.append_nil _).symm, fun _ => rfl⟩
  | cons action rest ih =>
    obtain ⟨next, taken, remaining⟩ := (Transition.run_cons_iff ..).mp ran
    obtain ⟨more, changes, same⟩ := ih remaining
    obtain ⟨word, kept⟩ | ⟨change, -, -, added⟩ := step_cases taken
    · exact ⟨more, by rw [changes, kept], fun none => (same none).trans word⟩
    · refine ⟨change :: more, ?_, by simp⟩
      rw [changes, added, List.append_assoc, List.singleton_append]

theorem Counted.run (counted : Counted state) {actions : List (Action Task)} {final : State Task}
    (ran : Transition.run Readiness.step state actions = some final) :
    ∃ more, final.changes = state.changes ++ more ∧ (more = [] → final.word = state.word) ∧
      Readiness.number final.word = (Readiness.number state.word + more.length) % generations := by
  have ends : Counted final :=
    Transition.run_invariant (fun _ _ _ counted taken => counted.step taken) counted ran
  obtain ⟨more, changes, same⟩ := run_changes ran
  refine ⟨more, changes, same, ?_⟩
  rw [ends.number, counted.number, changes, List.length_append, Nat.mod_add_mod]

theorem claim_cases (captured : Word) (taken : step state (.claim captured) = some next) :
    state.word = captured ∧ next.changes = state.changes ++ [.claim captured] ∧
        isActive next.word = false ∨
      state.word ≠ captured ∧ next = state := by
  simp only [step] at taken
  split at taken <;> cases taken
  · rename_i same
    exact .inl ⟨same, rfl, isActive_inactive captured⟩
  · rename_i other
    exact .inr ⟨other, rfl⟩

/-- Readiness lasts from a mark to the next invalidation that takes effect. A generation is claimed
once before the count wraps around, and only while it is the word. Until then each change counts one
generation more, and a captured generation is the word only where nothing has changed since. -/
theorem readiness_generations (reached : Transition.Reachable step (State.new : State Task) state) :
    (isActive state.word = true ↔ state.changes.getLast? = some .mark) ∧
    (∀ (first second : Nat) (captured : Word), first < second →
      state.changes[first]? = some (.claim captured) →
      state.changes[second]? = some (.claim captured) → first + generations ≤ second) ∧
    (∀ captured next, step state (.claim captured) = some next →
      state.word = captured ∧ next.changes = state.changes ++ [.claim captured] ∧
          isActive next.word = false ∨
        state.word ≠ captured ∧ next = state) ∧
    ∀ actions final, Transition.run step state actions = some final →
      ∃ more, final.changes = state.changes ++ more ∧ (more = [] → final.word = state.word) ∧
        (final.changes.length < generations →
          number final.word = number state.word + more.length) ∧
        ∀ captured, activeGeneration state.word = some captured → final.word = captured →
          more.length < generations → more = [] := by
  have counted := counted_reached reached
  refine ⟨counted.active, fun first second captured before early late => ?_,
    fun captured next => claim_cases captured, fun actions final ran => ?_⟩
  · have same := (counted.claimed first captured early).symm.trans
      (counted.claimed second captured late)
    unfold generations at *
    omega
  · obtain ⟨more, changes, same, numbered⟩ := counted.run ran
    have start := counted.number
    have bound := number_lt state.word
    refine ⟨more, changes, same, fun few => ?_, fun captured active still few => ?_⟩
    · rw [changes, List.length_append] at few
      rw [numbered]
      refine Nat.mod_eq_of_lt ?_
      rw [start, Nat.mod_eq_of_lt (by omega)]
      exact few
    · rw [activeGeneration_eq] at active
      split at active
      · cases active
        rw [still] at numbered
        refine List.eq_nil_of_length_eq_zero ?_
        unfold generations at *
        omega
      · contradiction

/-- The core is marked as ready once; whoever claims the generation first invalidates it. -/
theorem first_claim_counts : ∃ marked : State Unit, activeGeneration marked.word = some 3#64 ∧
      ∀ next, step marked (.claim 3#64) = some next →
        next.changes = [.mark, .claim 3#64] ∧ isActive next.word = false := by
  let marked : State Unit :=
    ⟨3#64, update (update (fun _ => .idle) () (.marking 0#64)) () .idle, [.mark]⟩
  have reached : Transition.Reachable step State.new marked :=
    ⟨[.beginMark (), .exchangeMark ()], rfl⟩
  refine ⟨marked, by decide, fun next taken => ?_⟩
  obtain ⟨-, changes, inactive⟩ | ⟨other, -⟩ :=
    (readiness_generations reached).2.2.1 3#64 next taken
  · exact ⟨changes, inactive⟩
  · exact absurd rfl other

end ClashVerge.Manager.Readiness
