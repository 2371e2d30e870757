import ClashVerge.Draft.Wakeup
import ClashVerge.Profiles.Disk

/-!
# Failed profile operations

Any number of tasks run profile operations through `with_data_modify`, and rollbacks stage and
publish drafts of the store between their steps. An operation takes a snapshot of the store, its
body writes to the disk, and only then the pointer check decides.

A state keeps the disk each operation found at its snapshot. An operation that fails has left the
disk as it found it exactly when it wrote nothing new.
-/

namespace ClashVerge.Profiles.Failure

open ClashVerge.Draft ClashVerge.Verge Transition

variable {Task : Type}

structure State (Task : Type) where
  core : Modify.State Task IProfiles String (Except String Unit)
  disk : Disk
  /-- The disk as each operation found it at its snapshot. -/
  found : Task → Disk
  /-- The operation whose body has ended. -/
  operation : Task → Option Operation

def State.new (store : IProfiles) (disk : Disk) : State Task where
  core := Modify.State.new store
  disk := disk
  found := fun _ => disk
  operation := fun _ => none

/-- The end of an operation's body, or any other step of the calls and the rollbacks. -/
inductive Action (Task : Type) where
  | finish (task : Task) (operation : Operation)
  | other (action : Modify.Action Task IProfiles String (Except String Unit))

def Failed : Modify.Outcome String (Except String Unit) → Prop
  | .ok reported => reported.isOk = false
  | .bodyFailed _ | .optimisticLockFailed => True
  | .dropped => False

/-- The operation fails on its snapshot by itself: its body ends with an error or reports one. -/
def FailsAlone (os : Os) (operation : Operation) (profiles : IProfiles) (disk : Disk) : Prop :=
  match (operation.run os profiles disk).1 with
  | .error _ => True
  | .ok (_, reported) => reported.isOk = false

section

variable [DecidableEq Task] [Fintype Task]

def State.record (state : State Task) :
    Modify.Action Task IProfiles String (Except String Unit) → Task → Disk
  | .snapshot task => Function.update state.found task state.disk
  | _ => state.found

/-- One atomic step. The body of an operation writes to the disk as it ends. -/
def step (os : Os) (state : State Task) : Action Task → Option (State Task)
  | .finish task operation =>
    match state.core.phase task with
    | .running original =>
      (Modify.step state.core (.finish task fun value => (operation.run os value state.disk).1)).map
        fun core => { state with
          core := core
          disk := (operation.run os original.value state.disk).2
          operation := Function.update state.operation task (some operation) }
    | _ => none
  | .other (.finish _ _) => none
  | .other action =>
    (Modify.step state.core action).map fun core =>
      { state with core := core, found := state.record action }

/-- An operation that ends with a failure leaves the disk as it found it, and the committed store as
it is. -/
def LeavesDisk (os : Os) (state : State Task) : Action Task → Prop
  | .other (.commit task address) => ∀ next,
      step os state (.other (.commit task address)) = some next → ∀ outcome,
      (next.core.phase task).outcome = some outcome → Failed outcome →
      next.disk = state.found task ∧
        next.core.data.committed.value = state.core.data.committed.value
  | _ => True

/-- An operation that fails by itself, or finds a rollback published since its snapshot, has written
nothing that was not on the disk. -/
def SparesDisk (os : Os) (state : State Task) : Action Task → Prop
  | .other (.commit task _) => ∀ operation original body,
      state.operation task = some operation →
      state.core.phase task = .finished original body →
      FailsAlone os operation original.value (state.found task) ∨
        Modify.Commit.draft ∈ state.core.commits.drop (state.core.seen task) →
      operation.Spares os original.value (state.found task)
  | _ => True

/-- A body that runs has written nothing yet; one that has ended has left what its operation leaves,
and goes to the pointer check with what its operation returned. -/
structure Written (os : Os) (state : State Task) : Prop where
  core : Modify.Invariant state.core
  running : ∀ task original, state.core.phase task = .running original →
    state.disk = state.found task
  finished : ∀ task original body, state.core.phase task = .finished original body →
    ∃ operation, state.operation task = some operation ∧
      body original.value = (operation.run os original.value (state.found task)).1 ∧
      state.disk = (operation.run os original.value (state.found task)).2

omit [DecidableEq Task] [Fintype Task] in
theorem written_new (os : Os) (store : IProfiles) (disk : Disk) :
    Written os (State.new store disk : State Task) where
  core := Modify.invariant_new store
  running := by simp [State.new, Modify.State.new]
  finished := by simp [State.new, Modify.State.new]

omit [Fintype Task] in
/-- While a body runs no other one runs or waits for its pointer check, so its end writes to the
disk that its own operation found. -/
theorem Written.finish {os : Os} {state : State Task} (written : Written os state) {task : Task}
    {original : SharedDraft IProfiles} (at_ : state.core.phase task = .running original)
    (operation : Operation) {core : Modify.State Task IProfiles String (Except String Unit)}
    (moved : Modify.Moves state.core
      (.finish task fun value => (operation.run os value state.disk).1) core) :
    Written os { state with
      core := core
      disk := (operation.run os original.value state.disk).2
      operation := Function.update state.operation task (some operation) } := by
  have invariant := written.core.moves moved
  have alone : ∀ other, (state.core.phase other).Critical → other = task := fun other inside =>
    written.core.exclusive.one other task inside (by simp [at_, Modify.Phase.Critical])
  have unchanged := written.running task original at_
  cases moved with
  | finish _ _ snapshot running =>
    obtain rfl : snapshot = original := by simpa [at_] using running.symm
    refine ⟨invariant, ?_, ?_⟩
    · intro other snapshot' runs
      by_cases same : other = task
      · subst same
        simp at runs
      · rw [Modify.setPhase_other _ _ _ _ same] at runs
        exact absurd (alone other (by simp [runs, Modify.Phase.Critical])) same
    · intro other snapshot' body ends
      by_cases same : other = task
      · subst same
        simp only [Modify.setPhase_self, Modify.Phase.finished.injEq] at ends
        obtain ⟨rfl, rfl⟩ := ends
        exact ⟨operation, by simp, by simp [unchanged], by simp [unchanged]⟩
      · rw [Modify.setPhase_other _ _ _ _ same] at ends
        exact absurd (alone other (by simp [ends, Modify.Phase.Critical])) same

omit [Fintype Task] in
theorem record_other (state : State Task) {task : Task}
    {action : Modify.Action Task IProfiles String (Except String Unit)}
    (elsewhere : action ≠ .snapshot task) : state.record action task = state.found task := by
  cases action with
  | snapshot other =>
    have different : task ≠ other := fun same => elsewhere (by rw [same])
    simp [State.record, different]
  | _ => rfl

omit [Fintype Task] in
theorem Written.other {os : Os} {state : State Task} (written : Written os state)
    {action : Modify.Action Task IProfiles String (Except String Unit)}
    {core : Modify.State Task IProfiles String (Except String Unit)}
    (unfinished : ∀ task body, action ≠ .finish task body)
    (moved : Modify.Moves state.core action core) :
    Written os { state with core := core, found := state.record action } := by
  refine ⟨written.core.moves moved, ?_, ?_⟩
  · intro task original runs
    by_cases snapshots : action = .snapshot task
    · simp [snapshots, State.record]
    · rcases Modify.moves_running written.core.queued moved runs with before | begins
      · dsimp only
        rw [record_other state snapshots]
        exact written.running task original before
      · exact absurd begins snapshots
  · intro task original body ends
    rcases Modify.moves_finished written.core.queued moved ends with before | finishes
    · have elsewhere : action ≠ .snapshot task := by
        rintro rfl
        cases moved with
        | snapshot _ admitted => simp [before] at admitted
      dsimp only
      rw [record_other state elsewhere]
      exact written.finished task original body before
    · exact absurd finishes (unfinished task body)

theorem step_finish {os : Os} {state next : State Task} {task : Task} {operation : Operation}
    (taken : step os state (.finish task operation) = some next) :
    ∃ original, state.core.phase task = .running original ∧
      Modify.Moves state.core (.finish task fun value => (operation.run os value state.disk).1)
        next.core := by
  cases at_ : state.core.phase task with
  | running original =>
    simp only [step, at_, Option.map_eq_some_iff] at taken
    obtain ⟨core, accepted, rfl⟩ := taken
    exact ⟨original, rfl, Modify.step_moves accepted⟩
  | _ => simp [step, at_] at taken

theorem step_other {os : Os} {state next : State Task}
    {action : Modify.Action Task IProfiles String (Except String Unit)}
    (taken : step os state (.other action) = some next) :
    Modify.Moves state.core action next.core ∧ ∀ task body, action ≠ .finish task body := by
  cases action with
  | finish task body => simp [step] at taken
  | _ =>
    simp only [step, Option.map_eq_some_iff] at taken
    obtain ⟨core, accepted, rfl⟩ := taken
    exact ⟨Modify.step_moves accepted, by simp⟩

theorem written_step {os : Os} {state next : State Task} {action : Action Task}
    (written : Written os state) (taken : step os state action = some next) : Written os next := by
  cases action with
  | finish task operation =>
    cases at_ : state.core.phase task with
    | running original =>
      simp only [step, at_, Option.map_eq_some_iff] at taken
      obtain ⟨core, accepted, rfl⟩ := taken
      exact written.finish at_ operation (Modify.step_moves accepted)
    | _ => simp [step, at_] at taken
  | other action =>
    cases action with
    | finish task body => simp [step] at taken
    | _ =>
      simp only [step, Option.map_eq_some_iff] at taken
      obtain ⟨core, accepted, rfl⟩ := taken
      exact written.other (by simp) (Modify.step_moves accepted)

omit [DecidableEq Task] [Fintype Task] in
theorem published_iff {core : Modify.State Task IProfiles String (Except String Unit)}
    (pointers : Modify.Pointers core) {task : Task} {original : SharedDraft IProfiles}
    (held : (core.phase task).original = some original) :
    Modify.Commit.draft ∈ core.commits.drop (core.seen task) ↔
      core.data.committed.address ≠ original.address := by
  rw [ne_eq, (pointers.check_exact task original held).1]
  constructor
  · intro published nothing
    simp [nothing] at published
  · intro something
    obtain ⟨commit, published⟩ := List.exists_mem_of_ne_nil _ something
    exact pointers.others task original held commit published ▸ published

omit [DecidableEq Task] [Fintype Task] in
theorem leaves_iff_spares {os : Os} {state : State Task} {task : Task}
    {original : SharedDraft IProfiles} {operation : Operation}
    (left : state.disk = (operation.run os original.value (state.found task)).2) :
    state.disk = state.found task ↔ operation.Spares os original.value (state.found task) := by
  rw [left, Operation.run_disk]

theorem leavesDisk_commit (os : Os) (state : State Task) (task : Task) (address : Nat) :
    LeavesDisk os state (.other (.commit task address)) ↔
      ∀ core, Modify.step state.core (.commit task address) = some core → ∀ outcome,
        (core.phase task).outcome = some outcome → Failed outcome →
        state.disk = state.found task ∧
          core.data.committed.value = state.core.data.committed.value := by
  constructor
  · intro leaves core accepted
    exact leaves { state with core := core, found := state.record (.commit task address) }
      (by simp [step, accepted])
  · intro leaves next taken
    simp only [step, Option.map_eq_some_iff] at taken
    obtain ⟨core, accepted, rfl⟩ := taken
    exact leaves core accepted

theorem leavesDisk_iff {os : Os} {state : State Task} (written : Written os state)
    (action : Action Task) : LeavesDisk os state action ↔ SparesDisk os state action := by
  cases action with
  | finish task operation => rfl
  | other action =>
    cases action with
    | commit task address =>
      cases at_ : state.core.phase task with
      | finished original body =>
        obtain ⟨operation, is_, computed, left⟩ := written.finished task original body at_
        have spares := leaves_iff_spares left
        have held : (state.core.phase task).original = some original := by
          simp [at_, Modify.Phase.original]
        have published := published_iff written.core.pointers held
        have condition : SparesDisk os state (.other (.commit task address)) ↔
            (FailsAlone os operation original.value (state.found task) ∨
              state.core.data.committed.address ≠ original.address →
                state.disk = state.found task) := by
          rw [spares, ← published]
          simp [SparesDisk, is_, at_]
        rw [condition, leavesDisk_commit]
        unfold FailsAlone
        rw [← computed]
        simp only [Modify.step, at_, Modify.State.commit]
        cases returned : body original.value with
        | error error => simp [Modify.Phase.outcome, Failed, Modify.State.setPhase]
        | ok pair =>
          obtain ⟨store, reported⟩ := pair
          by_cases same : state.core.data.committed.address = original.address
          · -- a refused update reports its failure through a check that passes
            have refused : reported.isOk = false →
                store = original.value ∧ state.disk = state.found task := fun fails => by
              obtain ⟨kept, spared⟩ := Operation.run_refused (computed.symm.trans returned) fails
              exact ⟨kept, spares.mpr spared⟩
            have equal := (written.core.pointers.check_exact task original
              (by simp [at_, Modify.Phase.original])).2 same
            simp only [same, ne_eq, not_true_eq_false, or_false, if_true]
            constructor
            · intro _ fails
              exact (refused fails).2
            · intro _ core accepted outcome ends fails
              split at accepted
              · simp at accepted
              · cases accepted
                obtain rfl : outcome = .ok reported := by
                  simpa [Modify.Phase.outcome, eq_comm] using ends
                obtain ⟨kept, unchanged⟩ := refused fails
                exact ⟨unchanged, by rw [equal, ← kept]; rfl⟩
          · simp [same, Modify.Phase.outcome, Failed, Modify.State.setPhase]
      | _ => simp [LeavesDisk, SparesDisk, step, Modify.step, at_]
    | _ => rfl

/-- In every run of profile operations and rollbacks, the operations that fail leave the disk and the
store as they found them exactly when those that fail write nothing new. -/
theorem failed_operations_leave_disk (os : Os) (store : IProfiles) (disk : Disk)
    (actions : List (Action Task)) :
    Meets (step os) (LeavesDisk os) (State.new store disk) actions ↔
      Meets (step os) (SparesDisk os) (State.new store disk) actions :=
  Meets.congr_of_invariant (Written os) (fun _ _ _ written taken => written_step written taken)
    (fun _ action written => leavesDisk_iff written action) (written_new os store disk) actions

end

def renamedItem (name : String) : PrfItem :=
  { PrfItem.default with uid := some "a", name := some name }

/-- A rename saved while a rollback publishes the draft it has staged. -/
def renameUnderRollback : List (Action Unit) :=
  [.other (.start ()), .other (.acquire ()), .other (.snapshot ()), .other (.editDraft id 1),
    .finish () (.patch "a" (renamedItem "new") (.ok ())), .other .apply]

/-- The rename is refused by the pointer check, and `profiles.yaml` keeps it. -/
theorem refused_rename_stays_on_disk : ¬ Meets (step .linux) (LeavesDisk .linux)
      (State.new ⟨none, some [renamedItem "old"]⟩ ⟨none, fun _ => none⟩)
      (renameUnderRollback ++ [.other (.commit () 2)]) := by
  intro leaves
  have ends := leaves.reached (Option.some_get (by decide)).symm _ (Option.some_get (by decide)).symm
    .optimisticLockFailed rfl trivial
  exact absurd (congrArg Disk.profilesYaml ends.1) (by decide)


end ClashVerge.Profiles.Failure
