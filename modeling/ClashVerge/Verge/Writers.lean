import ClashVerge.Draft.Slot
import ClashVerge.Library.Transition
import ClashVerge.Verge.Config

/-!
# The writers of the verge draft

`apply_verge_patch` takes the configuration write lock, claims the draft in a transaction, stages
its patch, runs the effects, and commits when they succeed or rolls back when one fails; afterwards
it saves the committed record unless told not to. `change_core` stages one entry and publishes it at
once, then saves and reloads; it takes neither the lock nor the claim. `apply_all_and_save_file`
publishes whatever is staged.

A step is one atomic operation on the draft, the claim or the lock, or the outcome of an effect.
Every state keeps the tasks whose edit was published, in order, and the tasks whose edit is staged.
-/

namespace ClashVerge.Verge.Writers

open ClashVerge.Draft Transition

variable {Task : Type}

inductive Program where
  | applyVergePatch (patch : IVerge) (notSaveFile : Bool)
  | changeCore (clashCore : String)
  | applyAllAndSaveFile

def Program.edit : Program → IVerge → IVerge
  | .applyVergePatch patch _, verge => verge.patchConfig patch
  | .changeCore clashCore, verge => verge.set .clashCore clashCore
  | .applyAllAndSaveFile, verge => verge

def replay (program : Task → Program) (verge : IVerge) (published : List Task) : IVerge :=
  published.foldl (fun verge task => (program task).edit verge) verge

/-- The first group belongs to `apply_verge_patch`, the second to `change_core`; the last one ends
every program, with `true` for `Ok`. -/
inductive Phase where
  | idle
  | locked
  | begun
  /-- The patch is staged and its effects are running. -/
  | judging
  | committing
  | rollingBack
  | releasing (committed : Bool)
  | saving
  | unlocking (ok : Bool)
  | edited
  | applied
  | updating
  | returned (ok : Bool)
deriving DecidableEq

structure State (Task : Type) where
  verge : Slot IVerge
  claimed : Bool
  configWrite : Option Task
  phase : Task → Phase
  /-- The tasks whose edit is in the committed record, in order. -/
  published : List Task
  /-- The tasks whose edit is in the draft, in order. -/
  staged : List Task

/-- A record just loaded, before any task has started. -/
def State.new (verge : IVerge) : State Task where
  verge := Slot.new verge
  claimed := false
  configWrite := none
  phase := fun _ => .idle
  published := []
  staged := []

/-- `advance` takes the task's next step; `outcome` is that of the effects, of the save or of the
reload, and is read by no other step. -/
inductive Action (Task : Type) where
  | advance (task : Task) (outcome : Bool)

section

variable [DecidableEq Task]

namespace State

variable (state : State Task)

def setPhase (task : Task) (phase : Phase) : State Task :=
  { state with phase := Function.update state.phase task phase }

def editDraft (task : Task) (edit : IVerge → IVerge) : State Task :=
  { state with verge := state.verge.editDraft edit, staged := state.staged ++ [task] }

def apply : State Task :=
  { state with
    verge := state.verge.apply
    published := state.published ++ state.staged
    staged := [] }

def discard : State Task := { state with verge := state.verge.discard, staged := [] }

end State

def advanceApplyVergePatch (state : State Task) (task : Task) (patch : IVerge)
    (notSaveFile outcome : Bool) : Option (State Task) :=
  match state.phase task with
  | .idle =>
    match state.configWrite with
    | none => some ({ state with configWrite := some task }.setPhase task .locked)
    | some _ => none
  | .locked =>
    if state.claimed then some (state.setPhase task (.unlocking false))
    else some ({ state with claimed := true }.setPhase task .begun)
  | .begun => some ((state.editDraft task fun verge => verge.patchConfig patch).setPhase task .judging)
  | .judging => some (state.setPhase task (if outcome then .committing else .rollingBack))
  | .committing => some (state.apply.setPhase task (.releasing true))
  | .rollingBack => some (state.discard.setPhase task (.releasing false))
  | .releasing committed =>
    some ({ state with claimed := false }.setPhase task
      (if committed then .saving else .unlocking false))
  | .saving => some (state.setPhase task (.unlocking (notSaveFile || outcome)))
  | .unlocking ok => some ({ state with configWrite := none }.setPhase task (.returned ok))
  | _ => none

def advanceChangeCore (state : State Task) (task : Task) (clashCore : String) (outcome : Bool) :
    Option (State Task) :=
  match state.phase task with
  | .idle =>
    if clashCore ∈ IVerge.validClashCores then
      some ((state.editDraft task fun verge => verge.set .clashCore clashCore).setPhase task .edited)
    else some (state.setPhase task (.returned false))
  | .edited => some (state.apply.setPhase task .applied)
  | .applied => some (state.setPhase task (if outcome then .updating else .returned false))
  | .updating => some (state.setPhase task (.returned outcome))
  | _ => none

/-- The next step of `apply_all_and_save_file`, which only logs a failed save. -/
def advanceApplyAll (state : State Task) (task : Task) : Option (State Task) :=
  match state.phase task with
  | .idle => some (state.apply.setPhase task (.returned true))
  | _ => none

def step (program : Task → Program) (state : State Task) : Action Task → Option (State Task)
  | .advance task outcome =>
    match program task with
    | .applyVergePatch patch notSaveFile =>
      advanceApplyVergePatch state task patch notSaveFile outcome
    | .changeCore clashCore => advanceChangeCore state task clashCore outcome
    | .applyAllAndSaveFile => advanceApplyAll state task

end

/-- What a task's phase says about where its edit is. -/
inductive Standing where
  | absent
  /-- Staged, or already published by another task. -/
  | present
  | published
  | unknown
deriving DecidableEq

/-- Where the edit of a task is, as long as no rollback reaches another task's edit and no save
fails. -/
def standing (program : Program) : Phase → Standing
  | .idle | .locked | .begun | .releasing false | .unlocking false => .absent
  | .judging | .committing | .edited => .present
  | .releasing true | .saving | .unlocking true | .applied | .updating => .published
  | .rollingBack => .unknown
  | .returned ok =>
    match program, ok with
    | .applyAllAndSaveFile, _ | .applyVergePatch _ _, false => .absent
    | .changeCore _, false => .unknown
    | _, true => .published

/-- A call that is about to save its committed patch will succeed. -/
def savesAnyway : Program → Bool → Bool
  | .applyVergePatch _ notSaveFile, outcome => notSaveFile || outcome
  | _, _ => true

/-- A failing call rolls back a draft that holds its own patch and nothing else, and no save of a
committed patch fails. -/
def Contained (program : Task → Program) (state : State Task) : Action Task → Prop
  | .advance task outcome =>
    (state.phase task = .rollingBack → state.staged = [task]) ∧
      (state.phase task = .saving → savesAnyway (program task) outcome = true)

instance [DecidableEq Task] (program : Task → Program) (state : State Task)
    (action : Action Task) : Decidable (Contained program state action) :=
  match action with
  | .advance _ _ => inferInstanceAs (Decidable (_ ∧ _))

section

variable [DecidableEq Task] {program : Task → Program} {state next : State Task}

/-- What a step does to the draft and to the place of its task's edit. -/
inductive Effect (program : Task → Program) (state : State Task) (task : Task) (outcome : Bool)
    (next : State Task) : Prop
  | quiet (verge : next.verge = state.verge) (published : next.published = state.published)
      (staged : next.staged = state.staged)
      (settles : standing (program task) (next.phase task) = standing (program task) (state.phase task) ∨
        standing (program task) (next.phase task) = .unknown ∨
        (state.phase task = .saving ∧ savesAnyway (program task) outcome = false))
  | edit (verge : next.verge = state.verge.editDraft (program task).edit)
      (published : next.published = state.published) (staged : next.staged = state.staged ++ [task])
      (before : standing (program task) (state.phase task) = .absent)
      (after : standing (program task) (next.phase task) = .present)
  | apply (verge : next.verge = state.verge.apply)
      (published : next.published = state.published ++ state.staged) (staged : next.staged = [])
      (moves : (standing (program task) (state.phase task) = .present ∧
          standing (program task) (next.phase task) = .published) ∨
        (standing (program task) (state.phase task) = .absent ∧
          standing (program task) (next.phase task) = .absent))
  | discard (verge : next.verge = state.verge.discard)
      (published : next.published = state.published) (staged : next.staged = [])
      (rolling : state.phase task = .rollingBack)
      (after : standing (program task) (next.phase task) = .absent)

variable {outcome : Bool} {task : Task}

omit [DecidableEq Task] in
theorem Effect.of_frame (verge : next.verge = state.verge)
    (published : next.published = state.published) (staged : next.staged = state.staged)
    (same : standing (program task) (next.phase task) = standing (program task) (state.phase task)) :
    Effect program state task outcome next :=
  .quiet verge published staged (.inl same)

theorem advanceApplyVergePatch_effect {patch : IVerge} {notSaveFile outcome : Bool}
    (runs : program task = .applyVergePatch patch notSaveFile)
    (taken : advanceApplyVergePatch state task patch notSaveFile outcome = some next) :
    Effect program state task outcome next := by
  unfold advanceApplyVergePatch at taken
  split at taken
  · rename_i at_
    split at taken
    · cases taken
      exact .of_frame rfl rfl rfl (by simp [State.setPhase, at_, standing])
    · simp at taken
  · rename_i at_
    split at taken
    · cases taken
      exact .of_frame rfl rfl rfl (by simp [State.setPhase, at_, standing])
    · cases taken
      exact .of_frame rfl rfl rfl (by simp [State.setPhase, at_, standing])
  · rename_i at_
    cases taken
    have own : (program task).edit = fun verge => verge.patchConfig patch := by
      rw [runs]
      rfl
    exact .edit (by rw [own]; rfl) rfl rfl (by simp [at_, standing])
      (by simp [State.setPhase, standing])
  · rename_i at_
    cases taken
    refine .quiet rfl rfl rfl ?_
    cases outcome <;> simp [State.setPhase, at_, standing]
  · rename_i at_
    cases taken
    refine .apply rfl rfl rfl (.inl ⟨by simp [at_, standing], by simp [State.setPhase, standing]⟩)
  · rename_i at_
    cases taken
    exact .discard rfl rfl rfl at_ (by simp [State.setPhase, standing])
  · rename_i committed at_
    cases taken
    refine .of_frame rfl rfl rfl ?_
    cases committed <;> simp [State.setPhase, at_, standing]
  · rename_i at_
    cases taken
    refine .quiet rfl rfl rfl ?_
    cases saved : notSaveFile || outcome <;>
      simp_all [State.setPhase, standing, savesAnyway]
  · rename_i ok at_
    cases taken
    refine .of_frame rfl rfl rfl ?_
    cases ok <;> simp [State.setPhase, at_, standing, runs]
  · simp at taken

theorem advanceChangeCore_effect {clashCore : String} (runs : program task = .changeCore clashCore)
    (taken : advanceChangeCore state task clashCore outcome = some next) :
    Effect program state task outcome next := by
  unfold advanceChangeCore at taken
  split at taken
  · rename_i at_
    split at taken
    · cases taken
      have own : (program task).edit = fun verge => verge.set .clashCore clashCore := by
        rw [runs]
        rfl
      exact .edit (by rw [own]; rfl) rfl rfl (by simp [at_, standing])
        (by simp [State.setPhase, standing])
    · cases taken
      refine .quiet rfl rfl rfl (.inr (.inl ?_))
      simp [State.setPhase, standing, runs]
  · rename_i at_
    cases taken
    refine .apply rfl rfl rfl (.inl ⟨by simp [at_, standing], by simp [State.setPhase, standing]⟩)
  · rename_i at_
    cases taken
    refine .quiet rfl rfl rfl ?_
    cases outcome <;> simp [State.setPhase, at_, standing, runs]
  · rename_i at_
    cases taken
    refine .quiet rfl rfl rfl ?_
    cases outcome <;> simp [State.setPhase, at_, standing, runs]
  · simp at taken

theorem step_effect (taken : step program state (.advance task outcome) = some next) :
    Effect program state task outcome next := by
  cases runs : program task with
  | applyVergePatch patch notSaveFile =>
    simp only [step, runs] at taken
    exact advanceApplyVergePatch_effect runs taken
  | changeCore clashCore =>
    simp only [step, runs] at taken
    exact advanceChangeCore_effect runs taken
  | applyAllAndSaveFile =>
    simp only [step, runs, advanceApplyAll] at taken
    split at taken
    · rename_i at_
      cases taken
      exact .apply rfl rfl rfl
        (.inr ⟨by simp [at_, standing], by simp [State.setPhase, standing, runs]⟩)
    · simp at taken

theorem step_phase_other
    (taken : step program state (.advance task outcome) = some next) {other : Task}
    (different : other ≠ task) : next.phase other = state.phase other := by
  cases runs : program task with
  | applyVergePatch patch notSaveFile =>
    simp only [step, runs, advanceApplyVergePatch] at taken
    repeat' split at taken
    all_goals
      first
        | contradiction
        | cases taken
          simp [State.setPhase, State.editDraft, State.apply, State.discard, different]
  | changeCore clashCore =>
    simp only [step, runs, advanceChangeCore] at taken
    repeat' split at taken
    all_goals
      first
        | contradiction
        | cases taken
          simp [State.setPhase, State.editDraft, State.apply, different]
  | applyAllAndSaveFile =>
    simp only [step, runs, advanceApplyAll] at taken
    split at taken
    · cases taken
      simp [State.setPhase, State.apply, different]
    · contradiction

omit [DecidableEq Task] in
theorem replay_append (program : Task → Program) (verge : IVerge) (before after : List Task) :
    replay program verge (before ++ after) = replay program (replay program verge before) after := by
  simp [replay]

/-- The committed record and the draft are the initial record with the listed edits applied. -/
structure Accounted (program : Task → Program) (verge : IVerge) (state : State Task) : Prop where
  committed : state.verge.data = replay program verge state.published
  latest : state.verge.latest = replay program verge (state.published ++ state.staged)

theorem Accounted.step {verge : IVerge} (accounted : Accounted program verge state)
    (taken : step program state (.advance task outcome) = some next) :
    Accounted program verge next := by
  obtain ⟨committed, latest⟩ := accounted
  cases step_effect taken with
  | quiet slot published staged _ =>
    exact ⟨by rw [slot, published, committed], by rw [slot, published, staged, latest]⟩
  | edit slot published staged _ _ =>
    refine ⟨by rw [slot, published]; exact committed, ?_⟩
    rw [slot, published, staged, ← List.append_assoc, replay_append, ← latest]
    rfl
  | apply slot published staged _ =>
    refine ⟨by rw [slot, published, Slot.apply_data, latest], ?_⟩
    rw [slot, published, staged, List.append_nil, Slot.apply_latest, latest]
  | discard slot published staged _ _ =>
    refine ⟨by rw [slot, published]; exact committed, ?_⟩
    rw [slot, published, staged, List.append_nil, Slot.discard_latest, committed]

/-- Each task's edit is where its phase says, at most once. -/
structure Placed (program : Task → Program) (state : State Task) : Prop where
  once : (state.published ++ state.staged).Nodup
  absent : ∀ task, standing (program task) (state.phase task) = .absent →
    task ∉ state.published ++ state.staged
  present : ∀ task, standing (program task) (state.phase task) = .present →
    task ∈ state.published ++ state.staged
  published : ∀ task, standing (program task) (state.phase task) = .published →
    task ∈ state.published

theorem Placed.step (placed : Placed program state)
    (contained : Contained program state (.advance task outcome))
    (taken : step program state (.advance task outcome) = some next) : Placed program next := by
  have others : ∀ other, other ≠ task → standing (program other) (next.phase other) =
      standing (program other) (state.phase other) := by
    intro other different
    rw [step_phase_other taken different]
  cases step_effect taken with
  | quiet verge published staged settles =>
    have settled : standing (program task) (next.phase task) =
        standing (program task) (state.phase task) ∨
        standing (program task) (next.phase task) = .unknown := by
      rcases settles with same | unknown | ⟨saving, failed⟩
      · exact .inl same
      · exact .inr unknown
      · simp [contained.2 saving] at failed
    have weaker : ∀ other place, place ≠ .unknown →
        standing (program other) (next.phase other) = place →
        standing (program other) (state.phase other) = place := by
      intro other place known here
      by_cases equal : other = task
      · subst other
        rcases settled with same | unknown
        · exact same.symm.trans here
        · exact absurd (here.symm.trans unknown) known
      · exact (others other equal).symm.trans here
    refine ⟨?_, ?_, ?_, ?_⟩
    · rw [published, staged]
      exact placed.once
    · intro other here
      rw [published, staged]
      exact placed.absent other (weaker other _ (by simp) here)
    · intro other here
      rw [published, staged]
      exact placed.present other (weaker other _ (by simp) here)
    · intro other here
      rw [published]
      exact placed.published other (weaker other _ (by simp) here)
  | edit verge published staged before after =>
    have fresh := placed.absent task before
    have members : ∀ other, other ∈ next.published ++ next.staged ↔
        other ∈ state.published ++ state.staged ∨ other = task := by
      intro other
      simp [published, staged, or_assoc]
    refine ⟨?_, ?_, ?_, ?_⟩
    · rw [published, staged, ← List.append_assoc, ← List.concat_eq_append]
      exact placed.once.concat fresh
    · intro other here
      by_cases equal : other = task
      · subst other
        simp [after] at here
      · rw [members]
        simpa [equal] using placed.absent other ((others other equal).symm.trans here)
    · intro other here
      rw [members]
      by_cases equal : other = task
      · exact .inr equal
      · exact .inl (placed.present other ((others other equal).symm.trans here))
    · intro other here
      by_cases equal : other = task
      · subst other
        simp [after] at here
      · rw [published]
        exact placed.published other ((others other equal).symm.trans here)
  | apply verge published staged moves =>
    have members : ∀ other, other ∈ next.published ++ next.staged ↔
        other ∈ state.published ++ state.staged := by
      intro other
      simp [published, staged]
    refine ⟨?_, ?_, ?_, ?_⟩
    · rw [published, staged, List.append_nil]
      exact placed.once
    · intro other here
      rw [members]
      by_cases equal : other = task
      · subst other
        rcases moves with ⟨_, after⟩ | ⟨before, _⟩
        · simp [after] at here
        · exact placed.absent _ before
      · exact placed.absent other ((others other equal).symm.trans here)
    · intro other here
      rw [members]
      by_cases equal : other = task
      · subst other
        rcases moves with ⟨before, _⟩ | ⟨_, after⟩
        · exact placed.present _ before
        · simp [after] at here
      · exact placed.present other ((others other equal).symm.trans here)
    · intro other here
      rw [published]
      by_cases equal : other = task
      · subst other
        rcases moves with ⟨before, _⟩ | ⟨_, after⟩
        · exact placed.present _ before
        · simp [after] at here
      · exact List.mem_append_left _ (placed.published other ((others other equal).symm.trans here))
  | discard verge published staged rolling after =>
    have alone : state.staged = [task] := contained.1 rolling
    have once := placed.once
    rw [alone] at once
    have outside : task ∉ state.published := by
      intro member
      exact (List.disjoint_of_nodup_append once) member (List.mem_singleton_self task)
    refine ⟨?_, ?_, ?_, ?_⟩
    · rw [published, staged, List.append_nil]
      exact once.of_append_left
    · intro other here
      rw [published, staged, List.append_nil]
      by_cases equal : other = task
      · exact equal ▸ outside
      · have before := placed.absent other ((others other equal).symm.trans here)
        exact fun member => before (List.mem_append_left _ member)
    · intro other here
      rw [published, staged, List.append_nil]
      by_cases equal : other = task
      · subst other
        simp [after] at here
      · have before := placed.present other ((others other equal).symm.trans here)
        simpa [alone, equal] using before
    · intro other here
      rw [published]
      by_cases equal : other = task
      · subst other
        simp [after] at here
      · exact placed.published other ((others other equal).symm.trans here)

/-- Whether the program's edit writes the entry. -/
def Program.writes (program : Program) (field : Field) : Bool :=
  match program with
  | .applyVergePatch patch _ => (patch field).isSome
  | .changeCore _ => field == .clashCore
  | .applyAllAndSaveFile => false

theorem edit_unwritten {program : Program} {field : Field} (verge : IVerge)
    (unwritten : program.writes field = false) : program.edit verge field = verge field := by
  cases program with
  | applyVergePatch patch notSaveFile =>
    exact IVerge.patchConfig_absent (by simpa [Program.writes] using unwritten)
  | changeCore clashCore =>
    exact IVerge.set_other _ _ _ _ (by simpa [Program.writes] using unwritten)
  | applyAllAndSaveFile => rfl

omit [DecidableEq Task] in
theorem replay_unwritten {field : Field} (verge : IVerge) (later : List Task)
    (unwritten : ∀ task ∈ later, (program task).writes field = false) :
    replay program verge later field = verge field := by
  induction later generalizing verge with
  | nil => rfl
  | cons task rest ih =>
    have first : (program task).edit verge field = verge field :=
      edit_unwritten verge (unwritten task (List.mem_cons_self ..))
    have remaining := ih ((program task).edit verge)
      fun other member => unwritten other (List.mem_cons_of_mem _ member)
    exact remaining.trans first

/-- Where every failing call rolls back a draft that holds its patch alone, and no save of a
committed patch fails, the committed record is the initial one with the published edits applied, and
none of a patch whose call returned an error. The core of a `change_core` that returned `Ok` is the
committed one unless a later published edit writes the core. -/
theorem rejected_patch_unpublished (program : Task → Program) (verge : IVerge)
    (actions : List (Action Task)) {final : State Task}
    (contained : Meets (step program) (Contained program) (State.new verge) actions)
    (ran : run (step program) (State.new verge) actions = some final) :
    final.verge.data = replay program verge final.published ∧
      (∀ task patch notSaveFile, program task = .applyVergePatch patch notSaveFile →
        final.phase task = .returned false → task ∉ final.published) ∧
      ∀ task clashCore, program task = .changeCore clashCore → final.phase task = .returned true →
        ∃ before after, final.published = before ++ task :: after ∧
          ((∀ later ∈ after, (program later).writes .clashCore = false) →
            final.verge.data .clashCore = some clashCore) := by
  have invariant : Accounted program verge final ∧ Placed program final := by
    refine run_invariant_of_meets
      (fun state => Accounted program verge state ∧ Placed program state) ?_ ⟨?_, ?_⟩ contained ran
    · rintro state ⟨task, outcome⟩ next ⟨accounted, placed⟩ allowed taken
      exact ⟨accounted.step taken, placed.step allowed taken⟩
    · exact ⟨rfl, rfl⟩
    · refine ⟨?_, ?_, ?_, ?_⟩ <;> simp [State.new, standing]
  obtain ⟨accounted, placed⟩ := invariant
  refine ⟨accounted.committed, ?_, ?_⟩
  · intro task patch notSaveFile runs returned member
    have away := placed.absent task (by simp [returned, runs, standing])
    exact away (List.mem_append_left _ member)
  · intro task clashCore runs returned
    have member := placed.published task (by simp [returned, runs, standing])
    obtain ⟨before, after, order⟩ := List.append_of_mem member
    refine ⟨before, after, order, fun unwritten => ?_⟩
    have writes : (program task).edit (replay program verge before) .clashCore =
        some clashCore := by
      rw [runs]
      exact IVerge.set_same _ _ _
    have kept := replay_unwritten ((program task).edit (replay program verge before)) after unwritten
    rw [accounted.committed, order, replay_append]
    exact kept.trans writes

end

section

/-- A theme patch whose effects fail, beside a shutdown that saves every draft. -/
def themeAndShutdown : Bool → Program
  | false => .applyVergePatch (IVerge.default.set .themeMode "dark") true
  | true => .applyAllAndSaveFile

/-- The whole of a failing patch call with another task's steps while its effects run. -/
def failing (between : List (Action Bool)) : List (Action Bool) :=
  List.replicate 3 (.advance false true) ++ between ++ List.replicate 4 (.advance false false)

/-- A shutdown that runs while the effects of a patch are pending commits the patch, which is then
rejected. -/
theorem shutdown_commits_rejected_patch : ¬ ∀ (actions : List (Action Bool)) (final : State Bool),
      run (step themeAndShutdown) (State.new IVerge.default) actions = some final →
      final.phase false = .returned false → final.verge.data .themeMode = none := by
  intro kept
  have rejected := kept (failing [.advance true true]) _ (Option.some_get (by decide)).symm (by decide)
  revert rejected
  decide

/-- The same patch call without the shutdown leaves the record as it was. -/
theorem rejected_patch_unpublished_alone :
    let final := (run (step themeAndShutdown) (State.new IVerge.default) (failing [])).get (by decide)
    final.verge.data = replay themeAndShutdown IVerge.default final.published :=
  (rejected_patch_unpublished themeAndShutdown IVerge.default (failing []) (by decide)
    (Option.some_get _).symm).1

end

end ClashVerge.Verge.Writers
