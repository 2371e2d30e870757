import ClashVerge.Draft.Wakeup

/-!
# Optimistic edits beside a profile rollback

`restore_previous_profile` stages the previous profile with `edit_draft` and publishes it with
`apply` in a second step. Any number of tasks run either that pair or one `with_data_modify` call on
the same draft.

Every state keeps the tasks whose update reached the committed value, in order, and the tasks whose
edit is staged. The replacement at the end of `with_data_modify` does not look at the draft, so a
draft can outlive the value it was cloned from, and publishing it then drops the updates committed
in between.
-/

namespace ClashVerge.Draft.LostUpdate

open ClashVerge.Draft ClashVerge.Draft.Modify Transition

variable {Task T E R : Type}

/-- What a task runs on the draft. -/
inductive Program (T E R : Type) where
  | modify (body : T → Except E (T × R))
  | restore (edit : T → T)

/-- The effect a successful run of the program has on the value it is applied to. -/
def Program.update : Program T E R → T → T
  | .modify body, value =>
      match body value with
      | .ok (newLocal, _) => newLocal
      | .error _ => value
  | .restore edit, value => edit value

/-- The updates of the listed tasks, applied in order. -/
def replay (program : Task → Program T E R) (data : T) (history : List Task) : T :=
  history.foldl (fun value task => (program task).update value) data

/-- Where a task stands between `edit_draft` and the end of `apply`. -/
inductive Restore where
  | idle
  | edited
  | restored
deriving DecidableEq

/-- The steps of a `with_data_modify` call. Its body is the task's program. -/
inductive Call where
  | start
  | acquire
  | resume
  | poll
  | snapshot
  | finish
  | commit (address : Nat)
  | release
  | notify
  | drop

def Call.action (task : Task) (body : T → Except E (T × R)) : Call → Modify.Action Task T E R
  | .start => .start task
  | .acquire => .acquire task
  | .resume => .resume task
  | .poll => .poll task
  | .snapshot => .snapshot task
  | .finish => .finish task body
  | .commit address => .commit task address
  | .release => .release task
  | .notify => .notify task
  | .drop => .drop task

inductive Action (Task : Type) where
  | call (task : Task) (call : Call)
  | editDraft (task : Task) (address : Nat)
  | apply (task : Task)

structure State (Task T E R : Type) where
  core : Modify.State Task T E R
  restore : Task → Restore
  /-- The tasks whose update is committed, in commit order. -/
  history : List Task
  /-- The tasks whose edit is in the draft, in edit order. -/
  staged : List Task

/-- A draft layer just created, before any task has started. -/
def State.new (data : T) : State Task T E R where
  core := Modify.State.new data
  restore := fun _ => .idle
  history := []
  staged := []

/-- No task stands in the middle of its program. -/
def State.Settled (state : State Task T E R) : Prop :=
  ∀ task, (state.core.phase task).Resting ∧ state.restore task ≠ .edited

def State.Succeeded (state : State Task T E R) (task : Task) : Prop :=
  (∃ result, state.core.phase task = .returned (.ok result)) ∨ state.restore task = .restored

/-- The step is the pointer check of a call whose body succeeded, and the check passes. -/
def State.replaces (state : State Task T E R) : Action Task → Bool
  | .call task (.commit _) =>
    match state.core.phase task with
    | .finished original body =>
      (body original.value).isOk && state.core.data.committed.address == original.address
    | _ => false
  | _ => false

/-- A call replaces the committed value only while no rollback has staged a draft. -/
def Undisturbed (state : State Task T E R) (action : Action Task) : Prop :=
  state.replaces action → state.core.data.draft.isNone

instance (state : State Task T E R) (action : Action Task) : Decidable (Undisturbed state action) :=
  inferInstanceAs (Decidable (_ → _))

section

variable [DecidableEq Task] [Fintype Task]

def step (program : Task → Program T E R) (state : State Task T E R) :
    Action Task → Option (State Task T E R)
  | .call task call =>
    match program task, call, state.core.phase task with
    | .restore _, _, _ => none
    | .modify _, .start, .returned _ => none
    | .modify body, call, _ =>
      (Modify.step state.core (call.action task body)).map fun core =>
        { state with
          core := core
          history := if core.commits = state.core.commits then state.history
            else state.history ++ [task] }
  | .editDraft task address =>
    match program task, state.restore task with
    | .restore edit, .idle =>
      (Modify.step state.core (.editDraft edit address)).map fun core =>
        { state with
          core := core
          restore := Function.update state.restore task .edited
          staged := state.staged ++ [task] }
    | _, _ => none
  | .apply task =>
    match state.restore task with
    | .edited =>
      (Modify.step state.core .apply).map fun core =>
        { state with
          core := core
          restore := Function.update state.restore task .restored
          history := state.history ++ state.staged
          staged := [] }
    | _ => none

/-- Everything a step can do, with the guards it passed. -/
inductive Moves (program : Task → Program T E R) (state : State Task T E R) :
    Action Task → State Task T E R → Prop
  | call (task : Task) (call : Call) (body : T → Except E (T × R))
      (core : Modify.State Task T E R) (runs : program task = .modify body)
      (fresh : call = .start → state.core.phase task = .idle)
      (moved : Modify.Moves state.core (call.action task body) core) :
      Moves program state (.call task call) { state with
        core := core
        history := if core.commits = state.core.commits then state.history
          else state.history ++ [task] }
  | edit (task : Task) (address : Nat) (edit : T → T) (runs : program task = .restore edit)
      (unstarted : state.restore task = .idle)
      (editable : state.core.Editable address) :
      Moves program state (.editDraft task address) { state with
        core := { state.core with data := state.core.data.editDraft edit address }
        restore := Function.update state.restore task .edited
        staged := state.staged ++ [task] }
  | applyNothing (task : Task) (edited : state.restore task = .edited)
      (empty : state.core.data.draft = none) :
      Moves program state (.apply task) { state with
        restore := Function.update state.restore task .restored
        history := state.history ++ state.staged
        staged := [] }
  | applyDraft (task : Task) (edited : state.restore task = .edited) (draft : SharedDraft T)
      (present : state.core.data.draft = some draft) :
      Moves program state (.apply task) { state with
        core := { state.core with
          data := ⟨draft, none⟩
          commits := state.core.commits ++ [.draft] }
        restore := Function.update state.restore task .restored
        history := state.history ++ state.staged
        staged := [] }

theorem step_moves {program : Task → Program T E R} {state next : State Task T E R}
    {action : Action Task} (taken : step program state action = some next) :
    Moves program state action next := by
  cases action with
  | call task call =>
    cases runs : program task with
    | restore edit => simp [step, runs] at taken
    | modify body =>
      have started : (Modify.step state.core (call.action task body)).map (fun core =>
            ({ state with
              core := core
              history := if core.commits = state.core.commits then state.history
                else state.history ++ [task] } : State Task T E R)) = some next ∧
          (call = .start → ∀ outcome, state.core.phase task ≠ .returned outcome) := by
        cases call <;> cases at_ : state.core.phase task <;>
          simp only [step, runs, at_, reduceCtorEq] at taken <;>
          exact ⟨taken, by simp⟩
      obtain ⟨core, accepted, rfl⟩ := Option.map_eq_some_iff.mp started.1
      have moved := Modify.step_moves accepted
      refine .call task call body core runs ?_ moved
      intro begins
      subst call
      cases moved with
      | start _ resting =>
        cases at_ : state.core.phase task with
        | idle => rfl
        | returned outcome => exact absurd at_ (started.2 rfl outcome)
        | _ => simp [at_, Phase.Resting] at resting
  | editDraft task address =>
    cases runs : program task with
    | modify body => simp [step, runs] at taken
    | restore edit =>
      cases unstarted : state.restore task with
      | idle =>
        simp only [step, runs, unstarted, Option.map_eq_some_iff] at taken
        obtain ⟨core, accepted, rfl⟩ := taken
        cases Modify.step_moves accepted with
        | editDraft _ _ editable => exact .edit task address edit runs unstarted editable
      | edited | restored => simp [step, runs, unstarted] at taken
  | apply task =>
    cases edited : state.restore task with
    | edited =>
      simp only [step, edited, Option.map_eq_some_iff] at taken
      obtain ⟨core, accepted, rfl⟩ := taken
      cases Modify.step_moves accepted with
      | applyNothing empty => exact .applyNothing task edited empty
      | applyDraft draft present => exact .applyDraft task edited draft present
    | idle | restored => simp [step, edited] at taken

omit [Fintype Task] in
theorem moves_call {core next : Modify.State Task T E R} {action : Modify.Action Task T E R}
    {task : Task} (pointers : Pointers core) (moved : Modify.Moves core action next)
    (acts : action.actor = some task) :
    (next.commits = core.commits ∧ next.data = core.data) ∨
      ∃ original body newLocal result address, action = .commit task address ∧
        core.phase task = .finished original body ∧ core.data.committed = original ∧
        body core.data.committed.value = .ok (newLocal, result) ∧
        next.commits = core.commits ++ [Commit.modify task] ∧
        next.data = { core.data with committed := ⟨address, newLocal⟩ } ∧
        (next.phase task).outcome = some (.ok result) := by
  cases moved with
  | replace caller address original body at_ newLocal result succeeded same fresh =>
    obtain rfl : caller = task := Option.some.inj acts
    have equal := (pointers.check_exact caller original (by simp [at_, Phase.original])).2 same
    refine .inr ⟨original, body, newLocal, result, address, rfl, at_, equal, ?_, rfl, rfl, ?_⟩
    · rw [equal]
      exact succeeded
    · simp [Phase.outcome]
  | notify caller outcome at_ =>
    have frame := notifyOne_frame (core.setPhase caller (.returned outcome))
    exact .inl ⟨frame.2.2.1, frame.1⟩
  | dropWoken caller at_ =>
    have frame := notifyOne_frame (core.setPhase caller (.returned .dropped))
    exact .inl ⟨frame.2.2.1, frame.1⟩
  | editDraft | applyNothing | applyDraft | discard => simp [Action.actor] at acts
  | _ => exact .inl ⟨rfl, rfl⟩

omit [Fintype Task] in
theorem moves_succeeds {core next : Modify.State Task T E R} {action : Modify.Action Task T E R}
    (invariant : Modify.Invariant core) (moved : Modify.Moves core action next) (task : Task)
    (fresh : action = .start task → core.phase task = .idle) :
    (∃ result, (next.phase task).outcome = some (.ok result)) ↔
      (∃ result, (core.phase task).outcome = some (.ok result)) ∨
        next.commits = core.commits ++ [Commit.modify task] := by
  have committing : next.commits = core.commits ++ [Commit.modify task] →
      ∃ result, (next.phase task).outcome = some (.ok result) := by
    intro recorded
    cases moved with
    | replace caller address original body at_ newLocal result succeeded same fresh =>
      have equal : caller = task := by simpa using recorded
      subst equal
      exact ⟨result, by simp [Phase.outcome]⟩
    | notify caller outcome at_ =>
      have frame := notifyOne_frame (core.setPhase caller (.returned outcome))
      simp [frame.2.2.1] at recorded
    | dropWoken caller at_ =>
      have frame := notifyOne_frame (core.setPhase caller (.returned .dropped))
      simp [frame.2.2.1] at recorded
    | _ => simp at recorded
  constructor
  · rintro ⟨result, succeeds⟩
    cases decided : (core.phase task).outcome with
    | none =>
      obtain ⟨_, _, _, _, _, _, _, _, recorded⟩ :=
        moves_replaced invariant.queued invariant.pointers moved decided succeeds
      exact .inr recorded
    | some outcome =>
      have kept : action ≠ .start task := by
        intro begins
        simp [fresh begins, Phase.outcome] at decided
      have same := moves_settled invariant.queued moved decided kept
      rw [succeeds] at same
      exact .inl ⟨result, same.symm⟩
  · rintro (⟨result, decided⟩ | recorded)
    · have kept : action ≠ .start task := by
        intro begins
        simp [fresh begins, Phase.outcome] at decided
      exact ⟨result, moves_settled invariant.queued moved decided kept⟩
    · exact committing recorded

/-- The committed value is the initial one with the history replayed, and the draft is the
committed value with the staged edits on top. -/
structure Accounted (program : Task → Program T E R) (data : T) (state : State Task T E R) :
    Prop where
  core : Modify.Invariant state.core
  bodies : ∀ task original body, state.core.phase task = .finished original body →
    program task = .modify body
  committed : state.core.data.committed.value = replay program data state.history
  cloned : ∀ draft, state.core.data.draft = some draft →
    draft.value = replay program data (state.history ++ state.staged)
  unstaged : state.core.data.draft = none → state.staged = []

/-- Which tasks the history and the draft name. -/
structure Named (program : Task → Program T E R) (state : State Task T E R) : Prop where
  once : (state.history ++ state.staged).Nodup
  pending : ∀ task ∈ state.staged, state.restore task = .edited
  modified : ∀ task body, program task = .modify body → state.restore task = .idle ∧
    (task ∈ state.history ↔ ∃ result, (state.core.phase task).outcome = some (.ok result))
  restoring : ∀ task edit, program task = .restore edit → state.core.phase task = .idle ∧
    (task ∈ state.history ++ state.staged ↔ state.restore task ≠ .idle)

omit [DecidableEq Task] [Fintype Task] in
theorem replay_append (program : Task → Program T E R) (data : T) (before after : List Task) :
    replay program data (before ++ after) = replay program (replay program data before) after := by
  simp [replay]

variable {program : Task → Program T E R} {data : T} {state next : State Task T E R}
  {action : Action Task}

omit [Fintype Task] in
theorem Accounted.moves (accounted : Accounted program data state)
    (undisturbed : Undisturbed state action) (moved : Moves program state action next) :
    Accounted program data next := by
  cases moved with
  | call task call body core runs fresh moved =>
    have acts : (call.action task body).actor = some task := by cases call <;> rfl
    have bodies : ∀ other original run, core.phase other = .finished original run →
        program other = .modify run := by
      intro other original run ends
      rcases moves_finished accounted.core.queued moved ends with before | finishes
      · exact accounted.bodies other original run before
      · cases call with
        | finish =>
          obtain ⟨rfl, rfl⟩ : task = other ∧ body = run := by simpa [Call.action] using finishes
          exact runs
        | _ => simp [Call.action] at finishes
    rcases moves_call accounted.core.pointers moved acts with ⟨unrecorded, same⟩ |
      ⟨original, run, newLocal, result, address, commits, at_, current, succeeded, recorded,
        replaced, _⟩
    · refine ⟨accounted.core.moves moved, bodies, ?_, ?_, ?_⟩
      · simpa [unrecorded, same] using accounted.committed
      · simpa [unrecorded, same] using accounted.cloned
      · simpa [same] using accounted.unstaged
    · have own : run = body := by
        have programmed := accounted.bodies task original run at_
        rw [runs] at programmed
        exact (Program.modify.inj programmed).symm
      have update : (program task).update state.core.data.committed.value = newLocal := by
        simp [runs, Program.update, ← own, succeeded]
      have longer : core.commits ≠ state.core.commits := by simp [recorded]
      have empty : state.core.data.draft = none := by
        obtain rfl : call = .commit address := by
          cases call <;> simp [Call.action] at commits ⊢
          exact commits
        have replaces : state.replaces (.call task (.commit address)) := by
          simp [State.replaces, at_, ← current, succeeded, Except.isOk, Except.toBool]
        exact Option.isNone_iff_eq_none.mp (undisturbed replaces)
      refine ⟨accounted.core.moves moved, bodies, ?_, ?_, ?_⟩
      · simp only [replaced, longer, if_false]
        rw [replay_append, ← accounted.committed, ← update]
        rfl
      · intro draft staged
        simp [replaced, empty] at staged
      · simpa [replaced] using accounted.unstaged
  | edit task address edit runs unstarted editable =>
    have update : (program task).update = edit := by
      funext value
      simp [runs, Program.update]
    refine ⟨accounted.core.moves (.editDraft edit address editable), accounted.bodies,
      accounted.committed, ?_, ?_⟩
    · intro draft staged
      obtain rfl : (⟨address, edit state.core.data.latestArc.value⟩ : SharedDraft T) = draft :=
        Option.some.inj staged
      cases before : state.core.data.draft with
      | none =>
        rw [accounted.unstaged before, List.nil_append, replay_append, ← accounted.committed]
        simp [replay, update, DraftData.latestArc, before]
      | some present =>
        rw [← List.append_assoc, replay_append, ← accounted.cloned present before]
        simp [replay, update, DraftData.latestArc, before]
    · intro empty
      simp [DraftData.editDraft] at empty
  | applyNothing task edited empty =>
    have nothing := accounted.unstaged empty
    refine ⟨accounted.core, accounted.bodies, ?_, ?_, fun _ => rfl⟩
    · simpa [nothing] using accounted.committed
    · simpa [nothing] using accounted.cloned
  | applyDraft task edited draft present =>
    refine ⟨accounted.core.moves (.applyDraft draft present), accounted.bodies,
      accounted.cloned draft present, ?_, fun _ => rfl⟩
    intro staged absurdity
    simp at absurdity

omit [Fintype Task] in
theorem Named.moves (named : Named program state) (invariant : Modify.Invariant state.core)
    (moved : Moves program state action next) : Named program next := by
  cases moved with
  | call task call body core runs fresh moved =>
    have acts : (call.action task body).actor = some task := by cases call <;> rfl
    have settled : call.action task body = .start task → state.core.phase task = .idle := by
      intro begins
      refine fresh ?_
      cases call <;> simp [Call.action] at begins ⊢
    have own := moves_succeeds invariant moved task settled
    have others : ∀ other, other ≠ task →
        ((∃ result, (core.phase other).outcome = some (.ok result)) ↔
          ∃ result, (state.core.phase other).outcome = some (.ok result)) ∧
        (state.core.phase other = .idle → core.phase other = .idle) := by
      intro other different
      have elsewhere : (call.action task body).actor ≠ some other := by simp [acts, different.symm]
      rcases moves_phase_other invariant.queued moved other elsewhere with same | ⟨parked, woken⟩
      · simp [same]
      · simp [parked, woken, Phase.outcome]
    have unstaged : task ∉ state.staged := by
      intro member
      have edited := named.pending task member
      simp [(named.modified task body runs).1] at edited
    have restoring : ∀ other edit, program other = .restore edit → other ≠ task := by
      rintro other edit restores rfl
      simp [runs] at restores
    by_cases unrecorded : core.commits = state.core.commits
    · refine ⟨by simpa [unrecorded] using named.once, named.pending, ?_, ?_⟩
      · intro other run programmed
        have before := named.modified other run programmed
        simp only [unrecorded, if_true]
        by_cases equal : other = task
        · subst other
          simpa [unrecorded] using ⟨before.1, before.2.trans (by simpa [unrecorded] using own.symm)⟩
        · exact ⟨before.1, before.2.trans (others other equal).1.symm⟩
      · intro other edit restores
        have before := named.restoring other edit restores
        simp only [unrecorded, if_true]
        exact ⟨(others other (restoring other edit restores)).2 before.1, before.2⟩
    · have recorded : core.commits = state.core.commits ++ [Commit.modify task] := by
        rcases moves_call invariant.pointers moved acts with ⟨same, _⟩ |
          ⟨_, _, _, _, _, _, _, _, _, recorded, _, _⟩
        · exact absurd same unrecorded
        · exact recorded
      have undecided : task ∉ state.history := by
        intro member
        obtain ⟨result, decided⟩ := ((named.modified task body runs).2).mp member
        rcases moves_call invariant.pointers moved acts with ⟨same, _⟩ |
          ⟨_, _, _, _, _, _, at_, _⟩
        · exact unrecorded same
        · simp [at_, Phase.outcome] at decided
      refine ⟨?_, named.pending, ?_, ?_⟩
      · simp only [unrecorded, if_false, List.append_assoc, List.singleton_append]
        rw [List.nodup_middle]
        exact List.nodup_cons.mpr ⟨by simp [undecided, unstaged], named.once⟩
      · intro other run programmed
        have before := named.modified other run programmed
        simp only [unrecorded, if_false, List.mem_append, List.mem_singleton]
        by_cases equal : other = task
        · subst other
          exact ⟨before.1, by simp [own, recorded]⟩
        · simp only [equal, or_false]
          exact ⟨before.1, before.2.trans (others other equal).1.symm⟩
      · intro other edit restores
        have before := named.restoring other edit restores
        have different := restoring other edit restores
        simp only [unrecorded, if_false, List.mem_append, List.mem_singleton, different, or_false]
        exact ⟨(others other different).2 before.1, by simpa using before.2⟩
  | edit task address edit runs unstarted editable =>
    have absent : task ∉ state.history ++ state.staged := by
      intro member
      exact ((named.restoring task edit runs).2.mp member) unstarted
    refine ⟨?_, ?_, ?_, ?_⟩
    · rw [← List.append_assoc, ← List.concat_eq_append]
      exact named.once.concat absent
    · intro other member
      by_cases equal : other = task
      · simp [equal]
      · have earlier : other ∈ state.staged := by simpa [equal] using member
        simpa [equal] using named.pending other earlier
    · intro other run programmed
      have different : other ≠ task := by
        rintro rfl
        simp [runs] at programmed
      simpa [different] using named.modified other run programmed
    · intro other change restores
      have before := named.restoring other change restores
      refine ⟨before.1, ?_⟩
      by_cases equal : other = task
      · simp [equal]
      · simpa [equal, or_assoc] using before.2
  | applyNothing task edited empty | applyDraft task edited draft present =>
    refine ⟨by simpa using named.once, by simp, ?_, ?_⟩
    · intro other run programmed
      have before := named.modified other run programmed
      have different : other ≠ task := by
        rintro rfl
        simp [before.1] at edited
      have outside : other ∉ state.staged := by
        intro member
        have pending := named.pending other member
        simp [before.1] at pending
      simpa [different, outside] using before
    · intro other change restores
      have before := named.restoring other change restores
      refine ⟨before.1, ?_⟩
      by_cases equal : other = task
      · subst other
        simpa [edited] using before.2
      · simpa [equal] using before.2

theorem run_accounted {actions : List (Action Task)}
    (undisturbed : Meets (step program) Undisturbed (State.new data) actions)
    (ran : run (step program) (State.new data) actions = some next) :
    Accounted program data next ∧ Named program next := by
  refine run_invariant_of_meets (fun state => Accounted program data state ∧ Named program state)
    ?_ ⟨⟨?_, ?_, ?_, ?_, ?_⟩, ⟨?_, ?_, ?_, ?_⟩⟩ undisturbed ran
  · rintro state action after ⟨accounted, named⟩ allowed taken
    have moved := step_moves taken
    exact ⟨accounted.moves allowed moved, named.moves accounted.core moved⟩
  · exact Modify.invariant_new data
  all_goals simp [State.new, Modify.State.new, replay, Phase.outcome]

/-- No update is lost where no call replaces the committed value between the two steps of a
rollback: the committed value is the initial one with the history replayed, which names in the end
each task that reported success, and no other, once. -/
theorem no_lost_update (program : Task → Program T E R) (data : T)
    {actions : List (Action Task)} {final : State Task T E R}
    (undisturbed : Meets (step program) Undisturbed (State.new data) actions)
    (ran : run (step program) (State.new data) actions = some final) :
    final.core.data.committed.value = replay program data final.history ∧
      (final.Settled → final.history.Nodup ∧
        ∀ task, task ∈ final.history ↔ final.Succeeded task) := by
  obtain ⟨accounted, named⟩ := run_accounted undisturbed ran
  refine ⟨accounted.committed, fun settled => ?_⟩
  have unstaged : final.staged = [] := by
    refine List.eq_nil_iff_forall_not_mem.mpr fun task member => ?_
    exact (settled task).2 (named.pending task member)
  refine ⟨by simpa [unstaged] using named.once, fun task => ?_⟩
  obtain ⟨resting, uninterrupted⟩ := settled task
  cases runs : program task with
  | modify body =>
    obtain ⟨idle, listed⟩ := named.modified task body runs
    rw [listed, State.Succeeded, idle]
    cases at_ : final.core.phase task with
    | idle | returned outcome => simp [Phase.outcome]
    | _ => simp [at_, Phase.Resting] at resting
  | restore edit =>
    obtain ⟨idle, listed⟩ := named.restoring task edit runs
    rw [unstaged, List.append_nil] at listed
    rw [listed, State.Succeeded, idle]
    cases at_ : final.restore task with
    | idle => simp
    | edited => exact absurd at_ uninterrupted
    | restored => simp

end

section

/-- An optimistic edit and a rollback that each append their mark to the stored list. -/
def marking : Bool → Program (List Nat) Unit Unit
  | false => .modify fun profiles => .ok (profiles ++ [1], ())
  | true => .restore fun profiles => profiles ++ [2]

/-- All steps of an optimistic edit that meets no other call. -/
def uncontended (address : Nat) : List (Action Bool) :=
  [.start, .acquire, .snapshot, .finish, .commit address, .release, .notify].map (Action.call false)

/-- An optimistic edit that commits between the two steps of a rollback is lost, although both
report success. -/
theorem rollback_overwrites_commit :
    ¬ ∀ (actions : List (Action Bool)) (final : State Bool (List Nat) Unit Unit),
      run (step marking) (State.new []) actions = some final →
      (∀ task, final.Succeeded task) →
      final.core.data.committed.value = replay marking [] final.history := by
  intro kept
  have reported : ∀ task, State.Succeeded ((run (step marking) (State.new [])
      ([.editDraft true 1] ++ uncontended 2 ++ [.apply true])).get (by decide)) task := by
    intro task
    cases task with
    | false => exact .inl ⟨(), rfl⟩
    | true => exact .inr rfl
  have lost := kept _ _ (Option.some_get _).symm reported
  revert lost
  decide

/-- The same two tasks one after the other keep both marks. -/
theorem no_lost_update_in_turn :
    let actions := uncontended 2 ++ [.editDraft true 1, .apply true]
    let final := (run (step marking) (State.new []) actions).get (by decide)
    final.core.data.committed.value = replay marking [] final.history ∧
      (final.Settled → final.history.Nodup ∧
        ∀ task, task ∈ final.history ↔ final.Succeeded task) :=
  no_lost_update marking [] (by decide) (Option.some_get _).symm

end

end ClashVerge.Draft.LostUpdate
