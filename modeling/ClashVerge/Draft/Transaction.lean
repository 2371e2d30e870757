import ClashVerge.Draft.Slot
import ClashVerge.Library.Transition

/-!
# Transactions over several draft layers

A `DraftTransaction` claims each of its layers in the order given, or releases those it has claimed
when one is taken. While it lives its owner edits the drafts of its layers; `commit` publishes them
one by one, and `drop` then releases every layer, discarding each draft first unless the transaction
was committed. `rollback` drops.

A step is one `try_claim`, `release`, `apply_draft` or `discard_draft`. The list given to `begin`
may share layers with other transactions, and it may name a layer twice.
-/

namespace ClashVerge.Draft.Transaction

open ClashVerge.Draft Transition

variable {Task Layer : Type} {Value : Layer → Type}

inductive Phase (Layer : Type) where
  | idle
  /-- In `begin`: the layers claimed so far and those still to claim. -/
  | claiming (held rest : List Layer)
  /-- In `begin` after a layer was found taken: the claimed layers still to release. -/
  | undoing (held : List Layer) (busy : Layer)
  | refused (busy : Layer)
  | live (layers : List Layer)
  /-- In `commit`: all layers, and those whose draft is still to apply. -/
  | committing (layers rest : List Layer)
  /-- In `drop`, before the first of these layers is handled. -/
  | dropping (committed : Bool) (layers : List Layer)
  /-- In `drop`, with the draft of the first of these layers discarded. -/
  | releasing (layers : List Layer)
  | ended (committed : Bool)
deriving DecidableEq

namespace Phase

def held : Phase Layer → List Layer
  | claiming held _ => held
  | undoing held _ => held
  | live layers => layers
  | committing layers _ => layers
  | dropping _ layers => layers
  | releasing layers => layers
  | idle | refused _ | ended _ => []

/-- The layers whose draft an ending transaction has not yet applied or discarded. -/
def pending : Phase Layer → List Layer
  | committing _ rest => rest
  | dropping false layers => layers
  | releasing layers => layers.tail
  | _ => []

/-- From the start of `begin` to its failure, or to the end of `drop`. -/
def Live : Phase Layer → Prop
  | idle | refused _ | ended _ => False
  | _ => True

/-- Inside `begin`. -/
def Beginning : Phase Layer → Prop
  | claiming _ _ | undoing _ _ => True
  | _ => False

/-- Ending, with its drafts published or thrown away. -/
def Ending (committed : Bool) : Phase Layer → Prop
  | committing _ _ => committed = true
  | dropping outcome _ | ended outcome => committed = outcome
  | releasing _ => committed = false
  | _ => False

theorem held_of_not_live {phase : Phase Layer} (resting : ¬ phase.Live) : phase.held = [] := by
  cases phase <;> simp_all [Live, held]

end Phase

structure State (Task Layer : Type) (Value : Layer → Type) where
  claimed : Layer → Bool
  slot : (layer : Layer) → Slot (Value layer)
  phase : Task → Phase Layer

def State.new (slot : (layer : Layer) → Slot (Value layer)) : State Task Layer Value where
  claimed := fun _ => false
  slot := slot
  phase := fun _ => .idle

/-- `advance` takes the transaction's next atomic step inside `begin`, `commit` or `drop`. -/
inductive Action (Task Layer : Type) (Value : Layer → Type) where
  | begin (task : Task) (layers : List Layer)
  | editDraft (task : Task) (layer : Layer) (edit : Value layer → Value layer)
  | commit (task : Task)
  | drop (task : Task)
  | advance (task : Task)

def Action.actor : Action Task Layer Value → Task
  | .begin task _ | .editDraft task _ _ | .commit task | .drop task | .advance task => task

section

variable [DecidableEq Task] [DecidableEq Layer]

namespace State

variable (state : State Task Layer Value)

def setPhase (task : Task) (phase : Phase Layer) : State Task Layer Value :=
  { state with phase := Function.update state.phase task phase }

/-- A successful `try_claim`. -/
def claim (layer : Layer) : State Task Layer Value :=
  { state with claimed := Function.update state.claimed layer true }

def release (layer : Layer) : State Task Layer Value :=
  { state with claimed := Function.update state.claimed layer false }

def setSlot (layer : Layer) (slot : Slot (Value layer)) : State Task Layer Value :=
  { state with slot := Function.update state.slot layer slot }

end State

/-- The next atomic step of a transaction inside `begin`, `commit` or `drop`. -/
def advance (state : State Task Layer Value) (task : Task) : Option (State Task Layer Value) :=
  match state.phase task with
  | .claiming held (layer :: rest) =>
    if state.claimed layer then some (state.setPhase task (.undoing held layer))
    else some ((state.claim layer).setPhase task (.claiming (held ++ [layer]) rest))
  | .claiming held [] => some (state.setPhase task (.live held))
  | .undoing (layer :: rest) busy =>
    some ((state.release layer).setPhase task (.undoing rest busy))
  | .undoing [] busy => some (state.setPhase task (.refused busy))
  | .committing layers (layer :: rest) =>
    some ((state.setSlot layer (state.slot layer).apply).setPhase task (.committing layers rest))
  | .committing layers [] => some (state.setPhase task (.dropping true layers))
  | .dropping true (layer :: rest) =>
    some ((state.release layer).setPhase task (.dropping true rest))
  | .dropping false (layer :: rest) =>
    some ((state.setSlot layer (state.slot layer).discard).setPhase task
      (.releasing (layer :: rest)))
  | .dropping committed [] => some (state.setPhase task (.ended committed))
  | .releasing (layer :: rest) =>
    some ((state.release layer).setPhase task (.dropping false rest))
  | _ => none

def step (state : State Task Layer Value) :
    Action Task Layer Value → Option (State Task Layer Value)
  | .begin task layers =>
    match state.phase task with
    | .idle | .refused _ | .ended _ => some (state.setPhase task (.claiming [] layers))
    | _ => none
  | .editDraft task layer edit =>
    match state.phase task with
    | .live layers =>
      if layer ∈ layers then some (state.setSlot layer ((state.slot layer).editDraft edit))
      else none
    | _ => none
  | .commit task =>
    match state.phase task with
    | .live layers => some (state.setPhase task (.committing layers layers))
    | _ => none
  | .drop task =>
    match state.phase task with
    | .live layers => some (state.setPhase task (.dropping false layers))
    | _ => none
  | .advance task => advance state task

/-- Everything a step can do, with the guards it passed. -/
inductive Moves (state : State Task Layer Value) :
    Action Task Layer Value → State Task Layer Value → Prop
  | begin (task : Task) (layers : List Layer) (resting : ¬ (state.phase task).Live) :
      Moves state (.begin task layers) (state.setPhase task (.claiming [] layers))
  | edit (task : Task) (layer : Layer) (edit : Value layer → Value layer) (layers : List Layer)
      (at_ : state.phase task = .live layers) (owned : layer ∈ layers) :
      Moves state (.editDraft task layer edit)
        (state.setSlot layer ((state.slot layer).editDraft edit))
  | commit (task : Task) (layers : List Layer) (at_ : state.phase task = .live layers) :
      Moves state (.commit task) (state.setPhase task (.committing layers layers))
  | drop (task : Task) (layers : List Layer) (at_ : state.phase task = .live layers) :
      Moves state (.drop task) (state.setPhase task (.dropping false layers))
  | busy (task : Task) (held : List Layer) (layer : Layer) (rest : List Layer)
      (at_ : state.phase task = .claiming held (layer :: rest))
      (taken : state.claimed layer = true) :
      Moves state (.advance task) (state.setPhase task (.undoing held layer))
  | claim (task : Task) (held : List Layer) (layer : Layer) (rest : List Layer)
      (at_ : state.phase task = .claiming held (layer :: rest))
      (free : state.claimed layer = false) :
      Moves state (.advance task)
        ((state.claim layer).setPhase task (.claiming (held ++ [layer]) rest))
  | begun (task : Task) (held : List Layer) (at_ : state.phase task = .claiming held []) :
      Moves state (.advance task) (state.setPhase task (.live held))
  | undo (task : Task) (layer : Layer) (rest : List Layer) (busy : Layer)
      (at_ : state.phase task = .undoing (layer :: rest) busy) :
      Moves state (.advance task) ((state.release layer).setPhase task (.undoing rest busy))
  | refuse (task : Task) (busy : Layer) (at_ : state.phase task = .undoing [] busy) :
      Moves state (.advance task) (state.setPhase task (.refused busy))
  | apply (task : Task) (layers : List Layer) (layer : Layer) (rest : List Layer)
      (at_ : state.phase task = .committing layers (layer :: rest)) :
      Moves state (.advance task)
        ((state.setSlot layer (state.slot layer).apply).setPhase task (.committing layers rest))
  | committed (task : Task) (layers : List Layer)
      (at_ : state.phase task = .committing layers []) :
      Moves state (.advance task) (state.setPhase task (.dropping true layers))
  | releaseCommitted (task : Task) (layer : Layer) (rest : List Layer)
      (at_ : state.phase task = .dropping true (layer :: rest)) :
      Moves state (.advance task) ((state.release layer).setPhase task (.dropping true rest))
  | discard (task : Task) (layer : Layer) (rest : List Layer)
      (at_ : state.phase task = .dropping false (layer :: rest)) :
      Moves state (.advance task)
        ((state.setSlot layer (state.slot layer).discard).setPhase task
          (.releasing (layer :: rest)))
  | releaseDiscarded (task : Task) (layer : Layer) (rest : List Layer)
      (at_ : state.phase task = .releasing (layer :: rest)) :
      Moves state (.advance task) ((state.release layer).setPhase task (.dropping false rest))
  | ended (task : Task) (outcome : Bool) (at_ : state.phase task = .dropping outcome []) :
      Moves state (.advance task) (state.setPhase task (.ended outcome))

theorem step_moves {state next : State Task Layer Value} {action : Action Task Layer Value}
    (taken : step state action = some next) : Moves state action next := by
  cases action with
  | begin task layers =>
    cases at_ : state.phase task <;>
      simp only [step, at_, reduceCtorEq, Option.some.injEq] at taken
    all_goals
      subst next
      exact .begin task layers (by simp [at_, Phase.Live])
  | editDraft task layer edit =>
    cases at_ : state.phase task <;> simp only [step, at_, reduceCtorEq] at taken
    split at taken
    · rename_i layers owned
      cases taken
      exact .edit task layer edit layers at_ owned
    · simp at taken
  | commit task =>
    cases at_ : state.phase task <;>
      simp only [step, at_, reduceCtorEq, Option.some.injEq] at taken
    subst next
    exact .commit task _ at_
  | drop task =>
    cases at_ : state.phase task <;>
      simp only [step, at_, reduceCtorEq, Option.some.injEq] at taken
    subst next
    exact .drop task _ at_
  | advance task =>
    simp only [step, advance] at taken
    split at taken
    · rename_i held layer rest at_
      split at taken
      · rename_i busy
        cases taken
        exact .busy task held layer rest at_ busy
      · rename_i free
        cases taken
        exact .claim task held layer rest at_ (by simpa using free)
    · rename_i held at_
      cases taken
      exact .begun task held at_
    · rename_i layer rest busy at_
      cases taken
      exact .undo task layer rest busy at_
    · rename_i busy at_
      cases taken
      exact .refuse task busy at_
    · rename_i layers layer rest at_
      cases taken
      exact .apply task layers layer rest at_
    · rename_i layers at_
      cases taken
      exact .committed task layers at_
    · rename_i layer rest at_
      cases taken
      exact .releaseCommitted task layer rest at_
    · rename_i layer rest at_
      cases taken
      exact .discard task layer rest at_
    · rename_i outcome at_
      cases taken
      exact .ended task outcome at_
    · rename_i layer rest at_
      cases taken
      exact .releaseDiscarded task layer rest at_
    · simp at taken

variable {state next : State Task Layer Value} {action : Action Task Layer Value}

theorem moves_phase_other (moved : Moves state action next) {other : Task}
    (different : other ≠ action.actor) : next.phase other = state.phase other := by
  cases moved <;> simp_all [State.setPhase, State.setSlot, State.claim, State.release,
    Action.actor]

/-- What a step does to the claim flags and to the layers its transaction holds: nothing, a
free layer taken, or the first held layer given back. -/
theorem moves_claims (moved : Moves state action next) : (next.claimed = state.claimed ∧
        (next.phase action.actor).held = (state.phase action.actor).held) ∨
      (∃ layer, state.claimed layer = false ∧
        next.claimed = Function.update state.claimed layer true ∧
        (next.phase action.actor).held = (state.phase action.actor).held ++ [layer]) ∨
      ∃ layer, next.claimed = Function.update state.claimed layer false ∧
        (state.phase action.actor).held = layer :: (next.phase action.actor).held := by
  cases moved with
  | begin task layers resting =>
    refine .inl ⟨rfl, ?_⟩
    simp only [Action.actor, Phase.held_of_not_live resting]
    simp [State.setPhase, Phase.held]
  | claim task held layer rest at_ free =>
    exact .inr (.inl ⟨layer, free, rfl, by simp [State.setPhase, Action.actor, at_, Phase.held]⟩)
  | undo task layer rest busy at_ | releaseCommitted task layer rest at_
  | releaseDiscarded task layer rest at_ =>
    exact .inr (.inr ⟨layer, rfl, by simp [State.setPhase, Action.actor, at_, Phase.held]⟩)
  | edit task layer edit layers at_ owned => exact .inl ⟨rfl, rfl⟩
  | _ =>
    refine .inl ⟨rfl, ?_⟩
    simp_all [State.setPhase, State.setSlot, Action.actor, Phase.held]

/-- Each claim flag is set for exactly the layers some transaction holds, and no layer is held
twice. The layers still to be settled are the last ones held. -/
structure Held (state : State Task Layer Value) : Prop where
  flag : ∀ layer, state.claimed layer = true ↔ ∃ task, layer ∈ (state.phase task).held
  one : ∀ layer left right, layer ∈ (state.phase left).held → layer ∈ (state.phase right).held →
    left = right
  nodup : ∀ task, (state.phase task).held.Nodup
  pending : ∀ task, (state.phase task).pending <:+ (state.phase task).held

theorem moves_pending (moved : Moves state action next)
    (before : (state.phase action.actor).pending <:+ (state.phase action.actor).held) :
    (next.phase action.actor).pending <:+ (next.phase action.actor).held := by
  cases moved with
  | apply task layers layer rest at_ =>
    have shorter : layer :: rest <:+ layers := by
      simpa [Action.actor, at_, Phase.pending, Phase.held] using before
    simpa [State.setPhase, Action.actor, Phase.pending, Phase.held]
      using (List.suffix_cons layer rest).trans shorter
  | ended task outcome at_ => simp [State.setPhase, Action.actor, Phase.pending]
  | edit task layer edit layers at_ owned => exact before
  | _ => simp [State.setPhase, Action.actor, Phase.pending, Phase.held]

theorem Held.moves_slot_other (held : Held state) (moved : Moves state action next)
    {layer : Layer} (outside : layer ∉ (state.phase action.actor).held) :
    next.slot layer = state.slot layer := by
  have pending := held.pending action.actor
  cases moved with
  | edit task own edit layers at_ owned =>
    have different : layer ≠ own := by
      rintro rfl
      simp [Action.actor, at_, Phase.held, owned] at outside
    simp [State.setSlot, different]
  | apply task layers own rest at_ =>
    have owned : own ∈ layers := by
      simp only [Action.actor, at_, Phase.pending, Phase.held] at pending
      exact pending.subset (List.mem_cons_self ..)
    have different : layer ≠ own := by
      rintro rfl
      simp [Action.actor, at_, Phase.held, owned] at outside
    simp [State.setSlot, State.setPhase, different]
  | discard task own rest at_ =>
    have different : layer ≠ own := by
      rintro rfl
      simp [Action.actor, at_, Phase.held] at outside
    simp [State.setSlot, State.setPhase, different]
  | _ => rfl

theorem Held.moves (held : Held state) (moved : Moves state action next) : Held next := by
  have others : ∀ other, other ≠ action.actor → next.phase other = state.phase other :=
    fun other different => moves_phase_other moved different
  have pending : ∀ task, (next.phase task).pending <:+ (next.phase task).held := by
    intro task
    by_cases equal : task = action.actor
    · rw [equal]
      exact moves_pending moved (held.pending action.actor)
    · rw [others task equal]
      exact held.pending task
  rcases moves_claims moved with ⟨claimed, same⟩ | ⟨layer, free, claimed, taken⟩ |
    ⟨layer, claimed, given⟩
  · have everywhere : ∀ task, (next.phase task).held = (state.phase task).held := by
      intro task
      by_cases equal : task = action.actor
      · rw [equal, same]
      · rw [others task equal]
    refine ⟨?_, ?_, ?_, pending⟩
    · simpa only [claimed, everywhere] using held.flag
    · simpa only [everywhere] using held.one
    · simpa only [everywhere] using held.nodup
  · have unheld : ∀ task, layer ∉ (state.phase task).held := by
      intro task member
      have set := (held.flag layer).mpr ⟨task, member⟩
      simp [free] at set
    have members : ∀ task other, other ∈ (next.phase task).held ↔
        other ∈ (state.phase task).held ∨ (task = action.actor ∧ other = layer) := by
      intro task other
      by_cases equal : task = action.actor
      · simp [equal, taken]
      · simp [others task equal, equal]
    refine ⟨?_, ?_, ?_, pending⟩
    · intro other
      rw [claimed]
      by_cases equal : other = layer
      · subst other
        simp [members]
      · simp [members, equal, held.flag]
    · intro other left right atLeft atRight
      rcases (members left other).mp atLeft with before | ⟨rfl, rfl⟩ <;>
        rcases (members right other).mp atRight with earlier | ⟨actor, same⟩
      · exact held.one other left right before earlier
      · exact absurd (same ▸ before) (unheld left)
      · exact absurd earlier (unheld right)
      · exact actor.symm
    · intro task
      by_cases equal : task = action.actor
      · rw [equal, taken, ← List.concat_eq_append]
        exact (held.nodup action.actor).concat (unheld action.actor)
      · rw [others task equal]
        exact held.nodup task
  · have own : layer ∈ (state.phase action.actor).held := by simp [given]
    have fresh : layer ∉ (next.phase action.actor).held ∧
        (next.phase action.actor).held.Nodup := by
      have nodup := held.nodup action.actor
      rwa [given, List.nodup_cons] at nodup
    have members : ∀ task other, other ∈ (next.phase task).held ↔
        other ∈ (state.phase task).held ∧ other ≠ layer := by
      intro task other
      by_cases equal : task = action.actor
      · rw [equal, given, List.mem_cons]
        constructor
        · intro member
          exact ⟨.inr member, fun same => fresh.1 (same ▸ member)⟩
        · rintro ⟨same | member, different⟩
          · exact absurd same different
          · exact member
      · rw [others task equal]
        constructor
        · intro member
          refine ⟨member, ?_⟩
          rintro rfl
          exact equal (held.one other task action.actor member own)
        · exact And.left
    refine ⟨?_, ?_, ?_, pending⟩
    · intro other
      rw [claimed]
      by_cases equal : other = layer
      · subst other
        simp [members]
      · simp [members, equal, held.flag]
    · intro other left right atLeft atRight
      exact held.one other left right ((members left other).mp atLeft).1
        ((members right other).mp atRight).1
    · intro task
      by_cases equal : task = action.actor
      · rw [equal]
        exact fresh.2
      · rw [others task equal]
        exact held.nodup task

omit [DecidableEq Task] [DecidableEq Layer] in
theorem held_new (slot : (layer : Layer) → Slot (Value layer)) :
    Held (State.new slot : State Task Layer Value) := by
  refine ⟨?_, ?_, ?_, ?_⟩ <;> simp [State.new, Phase.held, Phase.pending]

theorem reachable_held {slot : (layer : Layer) → Slot (Value layer)}
    (reached : Reachable step (State.new slot) state) : Held state :=
  reached.invariant (held_new slot) fun _ _ _ held taken => held.moves (step_moves taken)

/-- A step of `begin` reaches no draft and no committed value, and of the claims only one the
transaction holds before or after it. -/
theorem moves_begin (moved : Moves state action next)
    (inside : (state.phase action.actor).Beginning ∨ (next.phase action.actor).Beginning) :
    next.slot = state.slot ∧
      ∀ layer, layer ∉ (state.phase action.actor).held →
        layer ∉ (next.phase action.actor).held → next.claimed layer = state.claimed layer := by
  refine ⟨?_, ?_⟩
  · cases moved with
    | edit | apply | discard =>
      simp_all [Action.actor, Phase.Beginning, State.setPhase, State.setSlot]
    | _ => rfl
  · intro layer before after
    rcases moves_claims moved with ⟨claimed, _⟩ | ⟨own, _, claimed, taken⟩ | ⟨own, claimed, given⟩
    · rw [claimed]
    · have different : layer ≠ own := by
        rintro rfl
        simp [taken] at after
      simp [claimed, different]
    · have different : layer ≠ own := by
        rintro rfl
        simp [given] at before
      simp [claimed, different]

/-- A `begin` that runs alone: the drafts and committed values stay, and the flags set are those
that were set and those of the layers it holds. -/
structure Attempt (task : Task) (before state : State Task Layer Value) : Prop where
  held : Held state
  phase : (state.phase task).Beginning ∨ (∃ busy, state.phase task = .refused busy) ∨
    ∃ layers, state.phase task = .live layers
  slot : state.slot = before.slot
  free : ∀ layer ∈ (state.phase task).held, before.claimed layer = false
  claimed : ∀ layer, state.claimed layer = true ↔
    before.claimed layer = true ∨ layer ∈ (state.phase task).held

variable {task : Task}

theorem Attempt.moves {before : State Task Layer Value}
    (attempt : Attempt task before state) (moved : Moves state (.advance task) next) :
    Attempt task before next := by
  have held := attempt.held.moves moved
  have nodup := attempt.held.nodup task
  have flags := attempt.claimed
  have free := attempt.free
  cases moved with
  | busy _ taken layer rest at_ occupied =>
    refine ⟨held, ?_, attempt.slot, ?_, ?_⟩
    · simp [State.setPhase, Phase.Beginning]
    · simpa [at_, State.setPhase, Phase.held] using free
    · simpa [at_, State.setPhase, Phase.held] using flags
  | claim _ taken layer rest at_ unset =>
    have unclaimed : before.claimed layer = false := by
      have unheld := (flags layer).not.mp (by simp [unset])
      simpa using (not_or.mp unheld).1
    refine ⟨held, ?_, attempt.slot, ?_, ?_⟩
    · simp [State.setPhase, Phase.Beginning]
    · intro other member
      rcases (by simpa [State.setPhase, Phase.held] using member :
        other ∈ taken ∨ other = layer) with earlier | rfl
      · exact free other (by simpa [at_, Phase.held] using earlier)
      · exact unclaimed
    · intro other
      by_cases equal : other = layer
      · simp [State.setPhase, State.claim, Phase.held, equal]
      · simpa [State.setPhase, State.claim, Phase.held, at_, equal] using flags other
  | begun _ taken at_ =>
    refine ⟨held, ?_, attempt.slot, ?_, ?_⟩
    · simp [State.setPhase]
    · simpa [at_, State.setPhase, Phase.held] using free
    · simpa [at_, State.setPhase, Phase.held] using flags
  | undo _ layer rest busy at_ =>
    have distinct : layer ∉ rest ∧ rest.Nodup := by
      simpa [at_, Phase.held, List.nodup_cons] using nodup
    refine ⟨held, ?_, attempt.slot, ?_, ?_⟩
    · simp [State.setPhase, Phase.Beginning]
    · intro other member
      have remaining : other ∈ rest := by simpa [State.setPhase, Phase.held] using member
      exact free other (by simp [at_, Phase.held, remaining])
    · intro other
      by_cases equal : other = layer
      · subst other
        have unclaimed := free layer (by simp [at_, Phase.held])
        simp [State.setPhase, State.release, Phase.held, distinct.1, unclaimed]
      · simpa [State.setPhase, State.release, Phase.held, at_, equal] using flags other
  | refuse _ busy at_ =>
    refine ⟨held, ?_, attempt.slot, ?_, ?_⟩
    · simp [State.setPhase]
    · simp [State.setPhase, Phase.held]
    · simpa [at_, State.setPhase, Phase.held] using flags
  | apply | committed | releaseCommitted | discard | releaseDiscarded | ended =>
    have phase := attempt.phase
    simp_all [Phase.Beginning]

theorem begin_alone {layers : List Layer} {steps : Nat} {busy : Layer} (held : Held state)
    (ran : run step state (.begin task layers :: List.replicate steps (.advance task)) = some next)
    (refused : next.phase task = .refused busy) :
    next.claimed = state.claimed ∧ next.slot = state.slot := by
  obtain ⟨begun, taken, remaining⟩ := (run_cons_iff step state next _ _).mp ran
  have started : Attempt task state begun := by
    have kept := held.moves (step_moves taken)
    cases step_moves taken with
    | begin _ _ resting =>
      refine ⟨kept, ?_, rfl, ?_, ?_⟩
      · simp [State.setPhase, Phase.Beginning]
      · simp [State.setPhase, Phase.held]
      · simp [State.setPhase, Phase.held]
  have alone : Meets step (fun _ action => action = Action.advance task) begun
      (List.replicate steps (.advance task)) := by
    clear ran remaining started taken
    induction steps generalizing begun with
    | zero => exact trivial
    | succ steps ih => exact ⟨rfl, fun after _ => ih after⟩
  have attempt : Attempt task state next := by
    refine run_invariant_of_meets (Attempt task state) ?_ started alone remaining
    rintro current _ after attempt rfl taken
    exact attempt.moves (step_moves taken)
  refine ⟨?_, attempt.slot⟩
  funext layer
  have flags := attempt.claimed layer
  rw [refused] at flags
  cases before : state.claimed layer <;> simp_all [Phase.held]

/-- What the end of a transaction does to the slot of one of its layers. -/
def settle {T : Type} (committed : Bool) (slot : Slot T) : Slot T :=
  if committed then slot.apply else slot.discard

/-- The action that ends a live transaction. -/
def Action.close (committed : Bool) (task : Task) : Action Task Layer Value :=
  if committed then .commit task else .drop task

/-- An ending transaction has settled the layers it still holds, except the pending ones, whose
slots are as they were when it was ended. -/
structure Settling (committed : Bool) (task : Task)
    (before : (layer : Layer) → Slot (Value layer)) (state : State Task Layer Value) : Prop where
  held : Held state
  phase : (state.phase task).Ending committed
  slot : ∀ layer ∈ (state.phase task).held, state.slot layer =
    if layer ∈ (state.phase task).pending then before layer else settle committed (before layer)

variable {committed : Bool}

theorem settling_close {layers : List Layer}
    (held : Held state) (at_ : state.phase task = .live layers)
    (taken : step state (.close committed task) = some next) :
    Settling committed task state.slot next ∧ (next.phase task).held = layers := by
  have kept := held.moves (step_moves taken)
  cases committed with
  | true =>
    simp only [Action.close, if_true, step, at_, Option.some.injEq] at taken
    subst next
    refine ⟨⟨kept, ?_, ?_⟩, ?_⟩ <;>
      simp +contextual [State.setPhase, Phase.Ending, Phase.held, Phase.pending]
  | false =>
    simp only [Action.close, Bool.false_eq_true, if_false, step, at_, Option.some.injEq] at taken
    subst next
    refine ⟨⟨kept, ?_, ?_⟩, ?_⟩ <;>
      simp +contextual [State.setPhase, Phase.Ending, Phase.held, Phase.pending]

theorem moves_leave (held : Held state) (moved : Moves state action next)
    (ending : (state.phase action.actor).Ending committed) {layer : Layer}
    (inside : layer ∈ (state.phase action.actor).held)
    (outside : layer ∉ (next.phase action.actor).held) :
    layer ∉ (state.phase action.actor).pending ∧ next.slot layer = state.slot layer := by
  have nodup := held.nodup action.actor
  cases moved with
  | releaseCommitted task own rest at_ =>
    exact ⟨by simp [Action.actor, at_, Phase.pending], rfl⟩
  | releaseDiscarded task own rest at_ =>
    refine ⟨?_, rfl⟩
    have same : layer = own := by
      simp only [Action.actor, at_, Phase.held, List.mem_cons] at inside
      exact inside.resolve_right (by simpa [Action.actor, State.setPhase, Phase.held] using outside)
    have fresh : own ∉ rest := by
      simp only [Action.actor, at_, Phase.held, List.nodup_cons] at nodup
      exact nodup.1
    simp [Action.actor, at_, Phase.pending, same, fresh]
  | begin task layers resting =>
    simp only [Action.actor, Phase.held_of_not_live resting] at inside
    simp at inside
  | _ => simp_all [Action.actor, State.setPhase, State.setSlot, Phase.held, Phase.Ending]

theorem Settling.moves
    {before : (layer : Layer) → Slot (Value layer)} (settling : Settling committed task before state)
    (moved : Moves state action next) (kept : ∀ layers, action ≠ .begin task layers) :
    Settling committed task before next := by
  have held := settling.held.moves moved
  by_cases acts : action.actor = task
  · subst task
    have ending := settling.phase
    have slots := settling.slot
    have nodup := settling.held.nodup action.actor
    have suffix := settling.held.pending action.actor
    cases moved with
    | begin task layers resting => exact absurd rfl (kept layers)
    | apply task layers layer rest at_ =>
      have fresh : layer ∉ rest := by
        have shorter : layer :: rest <:+ layers := by
          simpa [Action.actor, at_, Phase.pending, Phase.held] using suffix
        have distinct : layers.Nodup := by simpa [Action.actor, at_, Phase.held] using nodup
        exact (List.nodup_cons.mp (distinct.sublist shorter.sublist)).1
      have chosen : committed = true := by simpa [Action.actor, at_, Phase.Ending] using ending
      refine ⟨held, by simpa [Action.actor, State.setPhase, Phase.Ending] using chosen, ?_⟩
      intro other member
      have inside : other ∈ layers := by
        simpa [Action.actor, State.setPhase, Phase.held] using member
      have earlier := slots other (by simpa [Action.actor, at_, Phase.held] using inside)
      by_cases equal : other = layer
      · subst other
        simp only [Action.actor, at_, Phase.pending, List.mem_cons, true_or, if_true] at earlier
        simp [Action.actor, State.setPhase, State.setSlot, Phase.pending, fresh, earlier, settle,
          chosen]
      · simpa [Action.actor, State.setPhase, State.setSlot, Phase.pending, at_, equal]
          using earlier
    | discard task layer rest at_ =>
      have fresh : layer ∉ rest := by
        have distinct : (layer :: rest).Nodup := by simpa [Action.actor, at_, Phase.held] using nodup
        exact (List.nodup_cons.mp distinct).1
      have chosen : committed = false := by simpa [Action.actor, at_, Phase.Ending] using ending
      refine ⟨held, by simpa [Action.actor, State.setPhase, Phase.Ending] using chosen, ?_⟩
      intro other member
      have inside : other ∈ layer :: rest := by
        simpa [Action.actor, State.setPhase, Phase.held] using member
      have earlier := slots other (by simpa [Action.actor, at_, Phase.held] using inside)
      by_cases equal : other = layer
      · subst other
        simp only [Action.actor, at_, Phase.pending, List.mem_cons, true_or, if_true] at earlier
        simp [Action.actor, State.setPhase, State.setSlot, Phase.pending, fresh, earlier, settle,
          chosen]
      · simpa [Action.actor, State.setPhase, State.setSlot, Phase.pending, at_, equal]
          using earlier
    | committed task layers at_ =>
      refine ⟨held, by simpa [Action.actor, at_, State.setPhase, Phase.Ending] using ending, ?_⟩
      simpa [Action.actor, at_, State.setPhase, Phase.held, Phase.pending] using slots
    | releaseCommitted task layer rest at_ | releaseDiscarded task layer rest at_ =>
      refine ⟨held, by simpa [Action.actor, at_, State.setPhase, Phase.Ending] using ending, ?_⟩
      intro other member
      have inside : other ∈ rest := by simpa [Action.actor, State.setPhase, Phase.held] using member
      have earlier := slots other (by simp [Action.actor, at_, Phase.held, inside])
      simpa [Action.actor, at_, State.setPhase, State.release, Phase.pending] using earlier
    | ended task outcome at_ =>
      refine ⟨held, by simpa [Action.actor, at_, State.setPhase, Phase.Ending] using ending, ?_⟩
      simp [Action.actor, State.setPhase, Phase.held]
    | _ => simp_all [Action.actor, Phase.Ending]
  · have same : next.phase task = state.phase task :=
      moves_phase_other moved fun equal => acts equal.symm
    refine ⟨held, by rw [same]; exact settling.phase, ?_⟩
    rw [same]
    intro layer member
    have elsewhere : layer ∉ (state.phase action.actor).held := fun own =>
      acts (settling.held.one layer action.actor task own member)
    rw [settling.held.moves_slot_other moved elsewhere]
    exact settling.slot layer member

/-- Within the run the layer left the task's transaction with the given slot. -/
def HandedOver (closed : State Task Layer Value) (actions : List (Action Task Layer Value))
    (task : Task) (layer : Layer) (slot : Slot (Value layer)) : Prop :=
  ∃ before action after middle next, actions = before ++ action :: after ∧
    run step closed before = some middle ∧ step middle action = some next ∧
    layer ∈ (middle.phase task).held ∧ layer ∉ (next.phase task).held ∧ next.slot layer = slot

theorem run_settling {before : (layer : Layer) → Slot (Value layer)}
    {actions : List (Action Task Layer Value)} (settling : Settling committed task before state)
    (kept : ∀ layers, .begin task layers ∉ actions) (ran : run step state actions = some next) :
    Settling committed task before next := by
  induction actions generalizing state with
  | nil =>
    cases ran
    exact settling
  | cons action rest ih =>
    obtain ⟨middle, taken, remaining⟩ := (run_cons_iff step state next action rest).mp ran
    refine ih ?_ (fun layers member => kept layers (List.mem_cons_of_mem _ member))
      remaining
    exact settling.moves (step_moves taken) fun layers same => kept layers (by simp [same])

/-- From the end of a live transaction on, each of its layers is still held, pending or settled,
or has been handed over settled. -/
theorem close_settles {layers : List Layer}
    {closed final : State Task Layer Value} {actions : List (Action Task Layer Value)}
    (held : Held state) (at_ : state.phase task = .live layers)
    (taken : step state (.close committed task) = some closed)
    (kept : ∀ layers, .begin task layers ∉ actions) (ran : run step closed actions = some final)
    {layer : Layer} (owned : layer ∈ layers) :
    (layer ∈ (final.phase task).held ∧ final.slot layer =
        if layer ∈ (final.phase task).pending then state.slot layer
        else settle committed (state.slot layer)) ∨
      HandedOver closed actions task layer (settle committed (state.slot layer)) := by
  obtain ⟨settling, all⟩ := settling_close held at_ taken
  by_cases inside : layer ∈ (final.phase task).held
  · exact .inl ⟨inside, (run_settling settling kept ran).slot layer inside⟩
  · obtain ⟨before, action, after, middle, next, rfl, prefixed, leaves, holding, left⟩ :=
      run_crosses (fun current => layer ∈ (current.phase task).held) ran
        (all ▸ owned) inside
    have halfway : Settling committed task state.slot middle :=
      run_settling settling (fun layers member => kept layers (by simp [member])) prefixed
    have moved := step_moves leaves
    have acts : action.actor = task := by
      by_contra elsewhere
      rw [moves_phase_other moved fun equal => elsewhere equal.symm] at left
      exact left holding
    subst task
    obtain ⟨settled, same⟩ := moves_leave halfway.held moved halfway.phase holding left
    refine .inr ⟨before, action, after, middle, next, rfl, prefixed, leaves, holding, left, ?_⟩
    rw [same, halfway.slot layer holding, if_neg settled]

end

section

/-- A transaction stages an edit and commits it, while another one that wants the second layer first
fails on the first. -/
def crossing : List (Action Bool Bool fun _ => Nat) :=
  [.begin true [false, true], .begin false [true, false], .advance true, .advance false,
   .advance false, .advance false, .advance false, .advance true, .advance true,
   .editDraft true false (· + 1), .commit true, .advance true]

example : ((run step (State.new fun _ => Slot.new 0) crossing).map fun state =>
    (state.phase false, state.phase true, state.slot false)) =
      some (.refused false, .committing [false, true] [true], Slot.new 1) := by decide

end

end ClashVerge.Draft.Transaction
