import ClashVerge.Draft.Wakeup
import ClashVerge.Profiles.Selection

/-!
# Workers that put selections back

Any number of tasks run the user's operations on selections and the workers that an activation
starts. A worker carries the generation of its activation and checks it before each node it selects
in the core and before it writes a repaired list. A user's operation supersedes the workers, but
only after its list is committed.

All lists are written through `with_data_modify`. What the core says and how long everything takes
is open, and workers run side by side, where the code lets one wait for the one before.

`recorded` is not in the source. It lists the profiles for which a user's operation has recorded a
selection.
-/

namespace ClashVerge.Profiles.Reconcile

open ClashVerge.Draft ClashVerge.Verge Transition

variable {Task : Type}

/-- Whether an activation may also prune the records it cannot match. -/
inductive SelectionRepair where
  | prune
  | keepRecords
deriving DecidableEq

structure Worker where
  generation : Nat
  repair : SelectionRepair
  profileUid : String
  selected : List PrfSelected
  /-- How many selections were recorded when it read them. -/
  seen : Nat
deriving DecidableEq

inductive Stage where
  | idle
  | calling (operation : SelectionOperation)
  /-- The operation's list is committed, as the given one of those recorded. -/
  | superseding (profileUid : String) (version : Nat)
  | starting (generation : Nat) (repair : SelectionRepair)
  | admitted (generation : Nat) (repair : SelectionRepair)
  | working (worker : Worker)
  /-- The worker has just found its generation current. -/
  | checked (worker : Worker)
  | persisting (worker : Worker) (selected : List PrfSelected)
deriving DecidableEq

def Stage.generation : Stage → Option Nat
  | .starting generation _ | .admitted generation _ => some generation
  | .working worker | .checked worker | .persisting worker _ => some worker.generation
  | _ => none

/-- The worker, once it has read the selections. -/
def Stage.worker : Stage → Option Worker
  | .working worker | .checked worker | .persisting worker _ => some worker
  | _ => none

theorem Stage.generation_of_worker {stage : Stage} {worker : Worker}
    (has : worker ∈ stage.worker) : worker.generation ∈ stage.generation := by
  cases stage with
  | working own | checked own | persisting own selected =>
    cases has
    rfl
  | _ => cases has

/-- The worker, while it writes a repaired list. -/
def Stage.reconciles : Stage → Option Worker
  | .persisting worker _ => some worker
  | _ => none

/-- Which of the recorded selections has yet to supersede the workers, if it is one of this profile. -/
def Stage.pending (profileUid : String) : Stage → Option Nat
  | .superseding own version => if own = profileUid then some version else none
  | _ => none

structure State (Task : Type) where
  core : Modify.State Task IProfiles String Bool
  /-- `ACTIVATE_SELECTED_GENERATION`. -/
  generation : Nat
  stage : Task → Stage
  recorded : List String

def State.new (store : IProfiles) : State Task where
  core := Modify.State.new store
  generation := 0
  stage _ := .idle
  recorded := []

inductive Action (Task : Type) where
  /-- A step of `with_data_modify` that is not one of its call's own below. -/
  | other (action : Modify.Action Task IProfiles String Bool)
  | call (task : Task) (operation : SelectionOperation)
  /-- The body of a call ends, with what saving the file returns. -/
  | endBody (task : Task) (saved : Except String Unit)
  | commit (task : Task) (address : Nat)
  /-- `supersede_selected_activation` by an operation that recorded a selection. -/
  | supersede (task : Task)
  /-- The end of a call that recorded nothing. -/
  | giveUp (task : Task)
  /-- `supersede_selected_activation` by a configuration update. -/
  | supersedeAll
  | activate (task : Task) (repair : SelectionRepair)
  | admitWorker (task : Task)
  | readSelected (task : Task)
  | check (task : Task)
  | selectNode (task : Task) (previous : Option Proxies) (proxies : Proxies)
      (activation : String × String)
  | persist (task : Task) (previous : Option Proxies) (proxies : Proxies)
  | leave (task : Task)

def Action.endsBody : Action Task → Option Task
  | .endBody task _ => some task
  | _ => none

namespace State

variable (state : State Task)

/-- `is_activation_current`. -/
def isCurrent (generation : Nat) : Bool :=
  state.generation % UInt64.size == generation % UInt64.size

/-- The profile that the task's operation is about, in the committed store. -/
def target (operation : SelectionOperation) : String :=
  (operation.target state.core.data.committed.value).getD ""

variable [DecidableEq Task]

def setStage (task : Task) (stage : Stage) : State Task :=
  { state with stage := Function.update state.stage task stage }

def body (os : Os) (saved : Except String Unit) :
    Stage → Option (IProfiles → Except String (IProfiles × Bool))
  | .calling operation => some fun profiles => operation.run os profiles saved
  | .persisting worker selected => some
      (persistReconciled worker.profileUid worker.selected selected
        (state.isCurrent worker.generation) saved)
  | _ => none

/-- The stage and the records after a commit that returned this. -/
def committed (task : Task) : Stage → Modify.Phase IProfiles String Bool → State Task
  | .calling operation, .releasing (.ok true) =>
    { state.setStage task (.superseding (state.target operation) (state.recorded.length + 1)) with
      recorded := state.recorded ++ [state.target operation] }
  | _, _ => state

end State

section

variable [DecidableEq Task] [Fintype Task]

/-- The step of the call of `with_data_modify`, within the system. -/
def State.modify (state : State Task) (action : Modify.Action Task IProfiles String Bool) :
    Option (State Task) :=
  (Modify.step state.core action).map fun core => { state with core }

def step (os : Os) (state : State Task) : Action Task → Option (State Task)
  | .other action =>
    match action with
    | .acquire _ | .resume _ | .poll _ | .snapshot _ | .release _ | .notify _ | .drop _ =>
      state.modify action
    | _ => none
  | .call task operation =>
    match state.stage task with
    | .idle => (state.setStage task (.calling operation)).modify (.start task)
    | _ => none
  | .endBody task saved =>
    match state.body os saved (state.stage task) with
    | some body => state.modify (.finish task body)
    | none => none
  | .commit task address =>
    (Modify.step state.core (.commit task address)).map fun core =>
      { state.committed task (state.stage task) (core.phase task) with core }
  | .supersede task =>
    match state.stage task, state.core.phase task with
    | .superseding _ _, .returned _ =>
      some { state.setStage task .idle with generation := state.generation + 1 }
    | _, _ => none
  | .giveUp task =>
    match state.stage task, state.core.phase task with
    | .calling _, .returned _ => some (state.setStage task .idle)
    | .persisting _ _, .returned _ => some (state.setStage task .idle)
    | _, _ => none
  | .supersedeAll => some { state with generation := state.generation + 1 }
  | .activate task repair =>
    match state.stage task with
    | .idle => some { state.setStage task (.starting (state.generation + 1) repair) with
        generation := state.generation + 1 }
    | _ => none
  | .admitWorker task =>
    match state.stage task with
    | .starting generation repair =>
      if state.isCurrent generation then some (state.setStage task (.admitted generation repair))
      else some (state.setStage task .idle)
    | _ => none
  | .readSelected task =>
    match state.stage task with
    | .admitted generation repair =>
      match state.core.data.committed.value.currentItem with
      | none => some (state.setStage task .idle)
      | some (uid, item) =>
        if item.selections = [] then some (state.setStage task .idle)
        else some (state.setStage task
          (.working ⟨generation, repair, uid, item.selections, state.recorded.length⟩))
    | _ => none
  | .check task =>
    match state.stage task with
    | .working worker =>
      if state.isCurrent worker.generation then some (state.setStage task (.checked worker))
      else some (state.setStage task .idle)
    | _ => none
  | .selectNode task previous proxies activation =>
    match state.stage task with
    | .checked worker =>
      if activation ∈ (reconcileSelectedNodes worker.selected previous proxies).activations then
        some (state.setStage task (.working worker))
      else none
    | _ => none
  | .persist task previous proxies =>
    match state.stage task with
    | .checked worker =>
      let plan := reconcileSelectedNodes worker.selected previous proxies
      if worker.repair = .prune ∧ 0 < plan.repairedCount then
        (state.setStage task (.persisting worker plan.selected)).modify (.start task)
      else none
    | _ => none
  | .leave task =>
    match state.stage task with
    | .working _ => some (state.setStage task .idle)
    | .checked worker => some (state.setStage task (.working worker))
    | _ => none

omit [DecidableEq Task] [Fintype Task] in
theorem current_iff {state : State Task} {generation : Nat} (issued : generation ≤ state.generation)
    (bounded : state.generation < UInt64.size) :
    state.isCurrent generation = true ↔ state.generation = generation := by
  rw [State.isCurrent, beq_iff_eq, Nat.mod_eq_of_lt bounded,
    Nat.mod_eq_of_lt (issued.trans_lt bounded)]

/-- No selection of the worker's profile was recorded after it read them. -/
def State.Unrecorded (state : State Task) (worker : Worker) : Prop :=
  ∀ uid ∈ state.recorded.drop worker.seen, uid ≠ worker.profileUid

def Ends (os : Os) (state : State Task)
    (body : IProfiles → Except String (IProfiles × Bool)) : Stage → Prop
  | .calling operation => ∃ saved, body = fun profiles => operation.run os profiles saved
  | .persisting worker selected => ∃ current saved,
      body = persistReconciled worker.profileUid worker.selected selected current saved ∧
        (current = true → state.Unrecorded worker)
  | _ => False

/-- Generations are given once, and an operation that has recorded a selection after a worker of
the current generation read them has yet to supersede it. -/
structure Coherent (os : Os) (state : State Task) : Prop where
  core : Modify.Invariant state.core
  finished : ∀ task original body, state.core.phase task = .finished original body →
    Ends os state body (state.stage task)
  issued : ∀ task, ∀ generation ∈ (state.stage task).generation, generation ≤ state.generation
  apart : ∀ one other, ∀ generation ∈ (state.stage one).generation,
    generation ∈ (state.stage other).generation → one = other
  awaited : ∀ task, ∀ worker ∈ (state.stage task).worker, worker.generation = state.generation →
    ∀ index uid, worker.seen ≤ index → state.recorded[index]? = some uid →
      ∃ other, state.stage other = .superseding uid (index + 1)
  planned : ∀ task worker selected, state.stage task = .persisting worker selected →
    ∃ previous proxies, selected = (reconcileSelectedNodes worker.selected previous proxies).selected

/-- At a reconcile's last check no operation that has recorded a selection of its profile since it
read them is yet to supersede it. -/
def Timely (state : State Task) (action : Action Task) : Prop :=
  state.generation < UInt64.size ∧ ∀ task ∈ action.endsBody,
    ∀ worker ∈ (state.stage task).reconciles, ∀ other,
      ∀ version ∈ (state.stage other).pending worker.profileUid, version ≤ worker.seen

instance (state : State Task) (action : Action Task) : Decidable (Timely state action) := by
  unfold Timely
  infer_instance

omit [Fintype Task] [DecidableEq Task] in
theorem coherent_new (os : Os) (store : IProfiles) : Coherent os (State.new store : State Task) where
  core := Modify.invariant_new store
  finished := by simp [State.new, Modify.State.new]
  issued := by simp [State.new, Stage.generation]
  apart := by simp [State.new, Stage.generation]
  awaited := by simp [State.new, Stage.worker]
  planned := by simp [State.new]

section

variable {os : Os} {state next : State Task}

variable {task : Task} {generation : Nat}

omit [Fintype Task] in
theorem Coherent.restage (coherent : Coherent os state) {stage : Stage}
    (unfinished : ∀ original body, state.core.phase task ≠ .finished original body)
    (later : state.generation ≤ generation)
    (issued : ∀ own ∈ stage.generation, own ≤ generation ∧
      ∀ other, other ≠ task → own ∉ (state.stage other).generation)
    (worker : ∀ worker ∈ stage.worker,
      (state.stage task).worker = some worker ∨ worker.seen = state.recorded.length)
    (kept : state.generation < generation ∨
      ∀ uid version, state.stage task ≠ .superseding uid version)
    (planned : ∀ worker selected, stage = .persisting worker selected →
      ∃ previous proxies,
        selected = (reconcileSelectedNodes worker.selected previous proxies).selected) :
    Coherent os { state.setStage task stage with generation } := by
  have own : (state.setStage task stage).stage task = stage := Function.update_self ..
  have others : ∀ other, other ≠ task →
      (state.setStage task stage).stage other = state.stage other :=
    fun other different => Function.update_of_ne different ..
  refine ⟨coherent.core, fun other original body ends => ?_, fun other generation' is_ => ?_,
    fun one other generation' first second => ?_, fun other worker' is_ current index uid after
      recorded => ?_, fun other worker' selected is_ => ?_⟩
  · have different : other ≠ task := by
      rintro rfl
      exact unfinished original body ends
    have was := coherent.finished other original body ends
    change Ends os _ body ((state.setStage task stage).stage other)
    rw [others other different]
    exact was
  · change generation' ∈ ((state.setStage task stage).stage other).generation at is_
    by_cases same : other = task
    · subst same
      rw [own] at is_
      exact (issued generation' is_).1
    · rw [others other same] at is_
      exact (coherent.issued other generation' is_).trans later
  · change generation' ∈ ((state.setStage task stage).stage one).generation at first
    change generation' ∈ ((state.setStage task stage).stage other).generation at second
    by_cases left : one = task <;> by_cases right : other = task
    · rw [left, right]
    · subst left
      rw [own] at first
      rw [others other right] at second
      exact absurd second ((issued generation' first).2 other right)
    · subst right
      rw [own] at second
      rw [others one left] at first
      exact absurd first ((issued generation' second).2 one left)
    · rw [others one left] at first
      rw [others other right] at second
      exact coherent.apart one other generation' first second
  · change worker' ∈ ((state.setStage task stage).stage other).worker at is_
    have before : ∃ holder, worker' ∈ (state.stage holder).worker ∨
        worker'.seen = state.recorded.length := by
      by_cases same : other = task
      · subst same
        rw [own] at is_
        exact ⟨other, worker worker' is_⟩
      · rw [others other same] at is_
        exact ⟨other, .inl is_⟩
    obtain ⟨holder, held | fresh⟩ := before
    · have bound := coherent.issued holder worker'.generation (Stage.generation_of_worker held)
      obtain newer | unchanged := kept
      · change worker'.generation = generation at current
        omega
      · have still : worker'.generation = state.generation :=
          le_antisymm bound (later.trans_eq current.symm)
        obtain ⟨pending, waits⟩ := coherent.awaited holder worker' held still index uid after recorded
        refine ⟨pending, (others pending ?_).trans waits⟩
        rintro rfl
        exact unchanged uid (index + 1) waits
    · rw [List.getElem?_eq_none (fresh ▸ after)] at recorded
      contradiction
  · change (state.setStage task stage).stage other = _ at is_
    by_cases same : other = task
    · subst same
      exact planned worker' selected (own.symm.trans is_)
    · rw [others other same] at is_
      exact coherent.planned other worker' selected is_

variable {action : Modify.Action Task IProfiles String Bool}

omit [Fintype Task] in
theorem Coherent.moves (coherent : Coherent os state)
    {core : Modify.State Task IProfiles String Bool}
    (unfinished : ∀ task body, action ≠ .finish task body)
    (moved : Modify.Moves state.core action core) : Coherent os { state with core } := by
  refine ⟨coherent.core.moves moved, fun task original body ends => ?_, coherent.issued,
    coherent.apart, coherent.awaited, coherent.planned⟩
  rcases Modify.moves_finished coherent.core.queued moved ends with before | finishes
  · exact coherent.finished task original body before
  · exact absurd finishes (unfinished task body)

theorem Coherent.modify (coherent : Coherent os state)
    (unfinished : ∀ task body, action ≠ .finish task body)
    (taken : state.modify action = some next) : Coherent os next := by
  obtain ⟨core, accepted, rfl⟩ := Option.map_eq_some_iff.mp taken
  exact coherent.moves unfinished (Modify.step_moves accepted)

omit [DecidableEq Task] [Fintype Task] in
/-- A worker that finds its generation current as its body ends knows of every selection of its
profile that was recorded since it read them. -/
theorem Coherent.unrecorded (coherent : Coherent os state) {worker : Worker}
    {selected : List PrfSelected} {saved : Except String Unit}
    (timely : Timely state (.endBody task saved))
    (at_ : state.stage task = .persisting worker selected)
    (current : state.isCurrent worker.generation = true) : state.Unrecorded worker := by
  intro uid recorded same
  have issued := coherent.issued task worker.generation (by simp [at_, Stage.generation])
  have newest := (current_iff issued timely.1).mp current
  obtain ⟨index, at_index⟩ := List.getElem?_of_mem recorded
  rw [List.getElem?_drop] at at_index
  obtain ⟨other, waits⟩ := coherent.awaited task worker (by simp [at_, Stage.worker]) newest.symm
    (worker.seen + index) uid (Nat.le_add_right ..) at_index
  have known := timely.2 task rfl worker (by simp [at_, Stage.reconciles]) other
    (worker.seen + index + 1) (by simp [waits, Stage.pending, same])
  omega

theorem Coherent.endBody (coherent : Coherent os state) {saved : Except String Unit}
    (timely : Timely state (.endBody task saved))
    {body : IProfiles → Except String (IProfiles × Bool)}
    (is_ : state.body os saved (state.stage task) = some body)
    (taken : state.modify (.finish task body) = some next) : Coherent os next := by
  obtain ⟨core, accepted, rfl⟩ := Option.map_eq_some_iff.mp taken
  have moved := Modify.step_moves accepted
  refine ⟨coherent.core.moves moved, fun other original run ends => ?_, coherent.issued,
    coherent.apart, coherent.awaited, coherent.planned⟩
  rcases Modify.moves_finished coherent.core.queued moved ends with before | finishes
  · exact coherent.finished other original run before
  · obtain ⟨rfl, rfl⟩ := Modify.Action.finish.inj finishes
    change Ends os _ body (state.stage task)
    cases at_ : state.stage task with
    | calling operation =>
      rw [at_] at is_
      exact ⟨saved, (Option.some.inj is_).symm⟩
    | persisting worker selected =>
      rw [at_] at is_
      exact ⟨state.isCurrent worker.generation, saved, (Option.some.inj is_).symm,
        coherent.unrecorded timely at_⟩
    | _ => simp [State.body, at_] at is_

omit [Fintype Task] in
theorem Coherent.record (coherent : Coherent os state) {uid : String}
    (unfinished : ∀ other original body, state.core.phase other ≠ .finished original body)
    (pending : ∀ own version, state.stage task ≠ .superseding own version) :
    Coherent os { state.setStage task (.superseding uid (state.recorded.length + 1)) with
      recorded := state.recorded ++ [uid] } := by
  have own : (state.setStage task (.superseding uid (state.recorded.length + 1))).stage task =
      .superseding uid (state.recorded.length + 1) := Function.update_self ..
  have others : ∀ other, other ≠ task →
      (state.setStage task (.superseding uid (state.recorded.length + 1))).stage other =
        state.stage other := fun other different => Function.update_of_ne different ..
  have generation : ∀ other, ∀ given ∈ ((state.setStage task
      (.superseding uid (state.recorded.length + 1))).stage other).generation,
      given ∈ (state.stage other).generation := by
    intro other given is_
    by_cases same : other = task
    · subst same
      rw [own] at is_
      simp [Stage.generation] at is_
    · exact others other same ▸ is_
  refine ⟨coherent.core, fun other original body ends => absurd ends (unfinished other original body),
    fun other given is_ => coherent.issued other given (generation other given is_),
    fun one other given first second =>
      coherent.apart one other given (generation one given first) (generation other given second),
    fun other worker is_ current index named after recorded => ?_,
    fun other worker selected is_ => ?_⟩
  · have held : worker ∈ (state.stage other).worker := by
      by_cases same : other = task
      · subst same
        change worker ∈ (Stage.worker ((state.setStage other
          (.superseding uid (state.recorded.length + 1))).stage other)) at is_
        rw [own] at is_
        simp [Stage.worker] at is_
      · exact others other same ▸ is_
    by_cases earlier : index < state.recorded.length
    · rw [List.getElem?_append_left earlier] at recorded
      obtain ⟨waiting, waits⟩ := coherent.awaited other worker held current index named after recorded
      refine ⟨waiting, (others waiting ?_).trans waits⟩
      rintro rfl
      exact pending named (index + 1) waits
    · have bound := (List.getElem?_eq_some_iff.mp recorded).1
      have last : index = state.recorded.length := by
        simp only [List.length_append, List.length_singleton] at bound
        omega
      subst last
      obtain rfl : uid = named := by simpa using recorded
      exact ⟨task, own⟩
  · change (state.setStage task (.superseding uid (state.recorded.length + 1))).stage other = _ at is_
    by_cases same : other = task
    · subst same
      exact absurd (own.symm.trans is_) (by simp)
    · exact coherent.planned other worker selected ((others other same).symm.trans is_)

theorem Coherent.commit (coherent : Coherent os state) {address : Nat}
    (taken : step os state (.commit task address) = some next) : Coherent os next := by
  obtain ⟨core, accepted, rfl⟩ := Option.map_eq_some_iff.mp taken
  have moved := Modify.step_moves accepted
  have kept := coherent.moves (by simp) moved
  cases at_ : state.stage task with
  | calling operation =>
    by_cases recorded : core.phase task = .releasing (.ok true)
    · have inside : (core.phase task).Critical := by simp [recorded, Modify.Phase.Critical]
      have unfinished : ∀ other original body, core.phase other ≠ .finished original body := by
        intro other original body ends
        have same := kept.core.exclusive.one other task
          (show (core.phase other).Critical by simp [ends, Modify.Phase.Critical]) inside
        rw [same, recorded] at ends
        contradiction
      rw [recorded]
      exact kept.record unfinished (by simp [at_])
    · have same : state.committed task (.calling operation) (core.phase task) = state := by
        unfold State.committed
        split
        · rename_i is_
          exact absurd is_ recorded
        · rfl
      rw [same]
      exact kept
  | _ => exact kept

omit [DecidableEq Task] [Fintype Task] in
theorem Coherent.supersedeAll (coherent : Coherent os state) :
    Coherent os { state with generation := state.generation + 1 } where
  core := coherent.core
  finished := coherent.finished
  issued task generation is_ := (coherent.issued task generation is_).trans (Nat.le_succ _)
  apart := coherent.apart
  awaited task worker held current := by
    have given := Stage.generation_of_worker held
    have bound := coherent.issued task worker.generation given
    change worker.generation = state.generation + 1 at current
    omega
  planned := coherent.planned

omit [Fintype Task] in
theorem Coherent.goOn (coherent : Coherent os state) {stage : Stage}
    (unfinished : ∀ original body, state.core.phase task ≠ .finished original body)
    (issued : ∀ own ∈ stage.generation, own ∈ (state.stage task).generation)
    (worker : ∀ worker ∈ stage.worker,
      (state.stage task).worker = some worker ∨ worker.seen = state.recorded.length)
    (pending : ∀ uid version, state.stage task ≠ .superseding uid version)
    (planned : ∀ worker selected, stage = .persisting worker selected →
      ∃ previous proxies,
        selected = (reconcileSelectedNodes worker.selected previous proxies).selected) :
    Coherent os (state.setStage task stage) := by
  refine coherent.restage unfinished le_rfl (fun own is_ => ?_) worker (.inr pending) planned
  have was := issued own is_
  refine ⟨coherent.issued task own was, fun other different given => different ?_⟩
  exact coherent.apart other task own given was

omit [DecidableEq Task] [Fintype Task] in
theorem Coherent.ended (coherent : Coherent os state)
    (ends : ∀ body, ¬ Ends os state body (state.stage task)) (original : SharedDraft IProfiles)
    (body : IProfiles → Except String (IProfiles × Bool)) :
    state.core.phase task ≠ .finished original body :=
  fun finished => ends body (coherent.finished task original body finished)

theorem modify_start_unfinished {before : State Task}
    (taken : before.modify (.start task) = some next) (original : SharedDraft IProfiles)
    (body : IProfiles → Except String (IProfiles × Bool)) :
    before.core.phase task ≠ .finished original body := by
  intro finished
  simp [State.modify, Modify.step, finished] at taken

theorem Coherent.step {action : Action Task} (coherent : Coherent os state)
    (timely : Timely state action) (taken : step os state action = some next) :
    Coherent os next := by
  cases action with
  | other action =>
    cases action with
    | acquire | resume | poll | snapshot | release | notify | drop =>
      exact coherent.modify (by simp) taken
    | _ => simp [Reconcile.step] at taken
  | call task operation =>
    cases at_ : state.stage task with
    | idle =>
      simp only [Reconcile.step, at_] at taken
      have unfinished := modify_start_unfinished taken
      refine Coherent.modify (coherent.goOn unfinished ?_ ?_ ?_ ?_) (by simp) taken
      all_goals simp [at_, Stage.generation, Stage.worker]
    | _ => simp [Reconcile.step, at_] at taken
  | endBody task saved =>
    cases is_ : state.body os saved (state.stage task) with
    | none => simp [Reconcile.step, is_] at taken
    | some body =>
      simp only [Reconcile.step, is_] at taken
      exact coherent.endBody timely is_ taken
  | commit task address => exact coherent.commit taken
  | supersede task =>
    cases at_ : state.stage task with
    | superseding uid version =>
      cases phase : state.core.phase task with
      | returned outcome =>
        simp only [Reconcile.step, at_, phase, Option.some.injEq] at taken
        subst next
        refine coherent.restage (by simp [phase]) (Nat.le_succ _) ?_ ?_ (.inl (Nat.lt_succ_self _)) ?_
        all_goals simp [Stage.generation, Stage.worker]
      | _ => simp [Reconcile.step, at_, phase] at taken
    | _ => simp [Reconcile.step, at_] at taken
  | giveUp task =>
    cases at_ : state.stage task with
    | calling operation | persisting worker selected =>
      cases phase : state.core.phase task with
      | returned outcome =>
        simp only [Reconcile.step, at_, phase, Option.some.injEq] at taken
        subst next
        refine coherent.goOn (by simp [phase]) ?_ ?_ ?_ ?_
        all_goals simp [at_, Stage.generation, Stage.worker]
      | _ => simp [Reconcile.step, at_, phase] at taken
    | _ => simp [Reconcile.step, at_] at taken
  | supersedeAll =>
    cases taken
    exact coherent.supersedeAll
  | activate task repair =>
    cases at_ : state.stage task with
    | idle =>
      simp only [Reconcile.step, at_, Option.some.injEq] at taken
      subst next
      refine coherent.restage (coherent.ended (by simp [at_, Ends])) (Nat.le_succ _) ?_ ?_
        (.inl (Nat.lt_succ_self _)) ?_
      · rintro own ⟨rfl⟩
        refine ⟨le_rfl, fun other _ given => ?_⟩
        exact absurd (coherent.issued other _ given) (by omega)
      · simp [Stage.worker]
      · simp
    | _ => simp [Reconcile.step, at_] at taken
  | admitWorker task =>
    cases at_ : state.stage task with
    | starting generation repair =>
      simp only [Reconcile.step, at_] at taken
      split at taken <;> cases taken
      all_goals
        refine coherent.goOn (coherent.ended (by simp [at_, Ends])) ?_ ?_ ?_ ?_
        all_goals simp [at_, Stage.generation, Stage.worker]
    | _ => simp [Reconcile.step, at_] at taken
  | readSelected task =>
    cases at_ : state.stage task with
    | admitted generation repair =>
      simp only [Reconcile.step, at_] at taken
      split at taken
      · cases taken
        refine coherent.goOn (coherent.ended (by simp [at_, Ends])) ?_ ?_ ?_ ?_
        all_goals simp [at_, Stage.generation, Stage.worker]
      · split at taken <;> cases taken
        all_goals
          refine coherent.goOn (coherent.ended (by simp [at_, Ends])) ?_ ?_ ?_ ?_
          all_goals simp [at_, Stage.generation, Stage.worker]
    | _ => simp [Reconcile.step, at_] at taken
  | check task =>
    cases at_ : state.stage task with
    | working worker =>
      simp only [Reconcile.step, at_] at taken
      split at taken <;> cases taken
      all_goals
        refine coherent.goOn (coherent.ended (by simp [at_, Ends])) ?_ ?_ ?_ ?_
        all_goals simp [at_, Stage.generation, Stage.worker]
    | _ => simp [Reconcile.step, at_] at taken
  | selectNode task previous proxies activation =>
    cases at_ : state.stage task with
    | checked worker =>
      simp only [Reconcile.step, at_] at taken
      split at taken
      · cases taken
        refine coherent.goOn (coherent.ended (by simp [at_, Ends])) ?_ ?_ ?_ ?_
        all_goals simp [at_, Stage.generation, Stage.worker]
      · contradiction
    | _ => simp [Reconcile.step, at_] at taken
  | persist task previous proxies =>
    cases at_ : state.stage task with
    | checked worker =>
      simp only [Reconcile.step, at_] at taken
      split at taken
      · refine Coherent.modify (coherent.goOn (coherent.ended (by simp [at_, Ends])) ?_ ?_ ?_ ?_)
          (by simp) taken
        · simp [at_, Stage.generation]
        · simp [at_, Stage.worker]
        · simp [at_]
        · rintro other selected ⟨rfl, rfl⟩
          exact ⟨previous, proxies, rfl⟩
      · contradiction
    | _ => simp [Reconcile.step, at_] at taken
  | leave task =>
    cases at_ : state.stage task with
    | working worker | checked worker =>
      simp only [Reconcile.step, at_, Option.some.injEq] at taken
      subst next
      refine coherent.goOn (coherent.ended (by simp [at_, Ends])) ?_ ?_ ?_ ?_
      all_goals simp [at_, Stage.generation, Stage.worker]
    | _ => simp [Reconcile.step, at_] at taken

/-- What any step does at most: one step of a call, and no stage is checked but by its own check. -/
structure Effect (state next : State Task) : Prop where
  core : next.core = state.core ∨ ∃ action, action ≠ .apply ∧
    Modify.Moves state.core action next.core
  generation : state.generation ≤ next.generation
  checked : ∀ task worker, next.stage task = .checked worker →
    state.stage task = .checked worker ∨
      state.stage task = .working worker ∧ state.isCurrent worker.generation = true

omit [Fintype Task] in
theorem Effect.restage (state : State Task) {stage : Stage} (later : state.generation ≤ generation)
    (checked : ∀ worker, stage = .checked worker →
      state.stage task = .working worker ∧ state.isCurrent worker.generation = true) :
    Effect state { state.setStage task stage with generation } := by
  refine ⟨.inl rfl, later, fun other worker is_ => ?_⟩
  change Function.update state.stage task stage other = _ at is_
  by_cases same : other = task
  · subst same
    rw [Function.update_self] at is_
    exact .inr (checked worker is_)
  · rw [Function.update_of_ne same] at is_
    exact .inl is_

theorem Effect.modify (quiet : action ≠ .apply)
    (taken : state.modify action = some next) : Effect state next := by
  obtain ⟨core, accepted, rfl⟩ := Option.map_eq_some_iff.mp taken
  exact ⟨.inr ⟨action, quiet, Modify.step_moves accepted⟩, le_rfl, fun _ _ is_ => .inl is_⟩

omit [Fintype Task] in
theorem Effect.both {stage : Stage}
    (quiet : action ≠ .apply) (unchecked : ∀ worker, stage ≠ .checked worker)
    {core : Modify.State Task IProfiles String Bool} {recorded : List String}
    (moved : Modify.Moves state.core action core) :
    Effect state { state.setStage task stage with core, recorded } := by
  have first : Effect state { state.setStage task stage with generation := state.generation } :=
    Effect.restage state le_rfl fun worker is_ => absurd is_ (unchecked worker)
  exact ⟨.inr ⟨action, quiet, moved⟩, le_rfl, first.checked⟩

theorem step_effect {action : Action Task} (taken : step os state action = some next) :
    Effect state next := by
  cases action with
  | other action =>
    cases action with
    | acquire | resume | poll | snapshot | release | notify | drop =>
      exact Effect.modify (by simp) taken
    | _ => simp [step] at taken
  | call task operation =>
    simp only [step] at taken
    split at taken
    · obtain ⟨core, accepted, rfl⟩ := Option.map_eq_some_iff.mp taken
      exact Effect.both (by simp) (by simp) (Modify.step_moves accepted)
    · contradiction
  | endBody task saved =>
    simp only [step] at taken
    split at taken
    · exact Effect.modify (by simp) taken
    · contradiction
  | commit task address =>
    obtain ⟨core, accepted, rfl⟩ := Option.map_eq_some_iff.mp taken
    have moved := Modify.step_moves accepted
    unfold State.committed
    split
    · exact Effect.both (by simp) (by simp) moved
    · exact ⟨.inr ⟨_, by simp, moved⟩, le_rfl, fun _ _ is_ => .inl is_⟩
  | supersedeAll =>
    cases taken
    exact ⟨.inl rfl, Nat.le_succ _, fun _ _ is_ => .inl is_⟩
  | check task =>
    cases at_ : state.stage task with
    | working worker =>
      simp only [step, at_] at taken
      split at taken
      · rename_i current
        cases taken
        refine Effect.restage state le_rfl ?_
        rintro _ ⟨rfl⟩
        exact ⟨at_, current⟩
      · cases taken
        exact Effect.restage state le_rfl (by simp)
    | _ => simp [step, at_] at taken
  | persist task previous proxies =>
    simp only [step] at taken
    split at taken
    · split at taken
      · obtain ⟨core, accepted, rfl⟩ := Option.map_eq_some_iff.mp taken
        exact Effect.both (by simp) (by simp) (Modify.step_moves accepted)
      · contradiction
    · contradiction
  | supersede task | activate task repair =>
    simp only [step] at taken
    split at taken
    · cases taken
      exact Effect.restage state (Nat.le_succ _) (by simp)
    · contradiction
  | giveUp task | leave task =>
    simp only [step] at taken
    split at taken
    · cases taken
      exact Effect.restage state le_rfl (by simp)
    · cases taken
      exact Effect.restage state le_rfl (by simp)
    · contradiction
  | admitWorker task | selectNode task previous proxies activation =>
    simp only [step] at taken
    split at taken
    · split at taken
      all_goals first
        | contradiction
        | cases taken
          exact Effect.restage state le_rfl (by simp)
    · contradiction
  | readSelected task =>
    simp only [step] at taken
    split at taken
    · split at taken
      · cases taken
        exact Effect.restage state le_rfl (by simp)
      · split at taken <;> cases taken
        all_goals exact Effect.restage state le_rfl (by simp)
    · contradiction

/-- A saved selection changes only as a user's operation says, or as a worker repairs it that has
read the stored list, with no selection of the profile recorded since. -/
def Kept (os : Os) (state : State Task) (action : Action Task) : Prop :=
  ∀ next, step os state action = some next →
    next.core.data.committed.value = state.core.data.committed.value ∨
    (∃ task operation saved updated, state.stage task = .calling operation ∧
      operation.run os state.core.data.committed.value saved =
        .ok (next.core.data.committed.value, updated)) ∨
    ∃ task worker previous proxies,
      state.stage task = .persisting worker
        (reconcileSelectedNodes worker.selected previous proxies).selected ∧
      (∃ item, findItem state.core.data.committed.value.list worker.profileUid = some item ∧
        item.selections = worker.selected) ∧
      next.core.data.committed.value = state.core.data.committed.value.select worker.profileUid
        (storedSelection (reconcileSelectedNodes worker.selected previous proxies).selected) ∧
      state.Unrecorded worker

theorem Coherent.kept (coherent : Coherent os state) (action : Action Task) :
    Kept os state action := by
  intro next taken
  rcases (step_effect taken).core with same | ⟨inner, quiet, moved⟩
  · exact .inl (by rw [same])
  rcases coherent.core.pointers.moves_exchanged moved with
    same | ⟨task, address, original, body, written, updated, -, ends, ran, put⟩ | published
  · exact .inl (by rw [same])
  · rw [put]
    have is_ := coherent.finished task original body ends
    cases at_ : state.stage task with
    | calling operation =>
      obtain ⟨saved, rfl⟩ : ∃ saved, body = fun profiles => operation.run os profiles saved := by
        simpa [at_, Ends] using is_
      exact .inr (.inl ⟨task, operation, saved, updated, at_, ran⟩)
    | persisting worker selected =>
      rw [at_] at is_
      obtain ⟨current, saved, rfl, unrecorded⟩ := is_
      obtain ⟨previous, proxies, rfl⟩ := coherent.planned task worker selected at_
      rcases persistReconciled_ok ran with same | ⟨checked, -, stored, repaired⟩
      · exact .inl same
      · exact .inr (.inr ⟨task, worker, previous, proxies, at_, stored, repaired,
          unrecorded checked⟩)
    | _ => simp [at_, Ends] at is_
  · exact absurd published quiet

/-- The action is a selection in the core by the worker of this generation. -/
def State.selects (state : State Task) (generation : Nat) : Action Task → Bool
  | .selectNode task _ _ _ => (state.stage task).generation == some generation
  | _ => false

/-- How often the worker of a generation selects a node in the core. -/
def selections (os : Os) (generation : Nat) : State Task → List (Action Task) → Nat
  | _, [] => 0
  | state, action :: rest =>
    match step os state action with
    | none => 0
    | some next => (state.selects generation action).toNat + selections os generation next rest

/-- The worker of this generation has passed a check and has not yet acted on it. -/
def State.Ready (state : State Task) (generation : Nat) : Prop :=
  ∃ task worker, state.stage task = .checked worker ∧ worker.generation = generation

theorem ready_before {action : Action Task}
    (taken : step os state action = some next) (superseded : generation < state.generation)
    (bounded : state.generation < UInt64.size) (ready : next.Ready generation) :
    state.Ready generation := by
  obtain ⟨task, worker, is_, rfl⟩ := ready
  rcases (step_effect taken).checked task worker is_ with was | ⟨-, current⟩
  · exact ⟨task, worker, was, rfl⟩
  · exact absurd ((current_iff superseded.le bounded).mp current) superseded.ne'

theorem Coherent.selects {action : Action Task} (coherent : Coherent os state)
    (taken : Reconcile.step os state action = some next)
    (selects : state.selects generation action = true) :
    state.Ready generation ∧ ¬ next.Ready generation := by
  cases action with
  | selectNode task previous proxies activation =>
    cases at_ : state.stage task with
    | checked worker =>
      obtain rfl : worker.generation = generation := by
        simpa [State.selects, at_, Stage.generation] using selects
      refine ⟨⟨task, worker, at_, rfl⟩, ?_⟩
      rintro ⟨other, again, is_, same⟩
      simp only [Reconcile.step, at_] at taken
      split at taken
      · cases taken
        change Function.update state.stage task _ other = _ at is_
        by_cases own : other = task
        · subst own
          simp at is_
        · rw [Function.update_of_ne own] at is_
          exact own (coherent.apart other task worker.generation
            (by simp [is_, Stage.generation, same]) (by simp [at_, Stage.generation]))
      · contradiction
    | _ => simp [Reconcile.step, at_] at taken
  | _ => simp [State.selects] at selects

theorem Coherent.selections_le {actions : List (Action Task)}
    (coherent : Coherent os state) (timely : Meets (Reconcile.step os) Timely state actions)
    (superseded : generation < state.generation) :
    selections os generation state actions ≤ 1 ∧
      (¬ state.Ready generation → selections os generation state actions = 0) := by
  induction actions generalizing state with
  | nil => exact ⟨Nat.zero_le 1, fun _ => rfl⟩
  | cons action rest ih =>
    cases taken : Reconcile.step os state action with
    | none => simp [selections, taken]
    | some next =>
      have bounded := timely.1.1
      obtain ⟨most, none⟩ := ih (coherent.step timely.1 taken)
        (timely.2 next taken) (superseded.trans_le (step_effect taken).generation)
      simp only [selections, taken]
      cases selects : state.selects generation action with
      | true =>
        obtain ⟨ready, passed⟩ := coherent.selects taken selects
        rw [none passed]
        exact ⟨le_rfl, fun idle => absurd ready idle⟩
      | false =>
        rw [Bool.toNat_false, Nat.zero_add]
        exact ⟨most, fun idle => none (mt (ready_before taken superseded bounded) idle)⟩

/-- In every run in which no selection is recorded and yet to supersede as a reconcile of its profile
checks the generation for the last time, no saved selection is overwritten by an older reconcile, and a superseded
worker selects at most the node it has passed the check for. -/
theorem newer_selection_survives (os : Os) (store : IProfiles) (actions : List (Action Task))
    (timely : Meets (step os) Timely (State.new store) actions) :
    Meets (step os) (Kept os) (State.new store) actions ∧
      ∀ before after middle, actions = before ++ after →
        run (step os) (State.new store) before = some middle →
        ∀ generation < middle.generation,
          selections os generation middle after ≤ 1 ∧
            (¬ middle.Ready generation → selections os generation middle after = 0) := by
  have initially : Coherent os (State.new store : State Task) := coherent_new os store
  refine ⟨timely.imp_of_invariant (Coherent os)
    (fun _ _ _ coherent timely taken => coherent.step timely taken)
    (fun _ action coherent _ => coherent.kept action) initially, ?_⟩
  rintro before after middle rfl ran generation superseded
  have coherent : Coherent os middle := run_invariant_of_meets (Coherent os)
    (fun _ _ _ coherent timely taken => coherent.step timely taken) initially timely.before ran
  exact coherent.selections_le (timely.after ran) superseded

end

end

def selectedItem (node : String) : PrfItem :=
  { PrfItem.default with uid := some "p", selected := some [⟨some "group", some node⟩] }

def selectedStore : IProfiles := ⟨some "p", some [selectedItem "node"]⟩

def callTo (task : Bool) (address : Nat) : List (Action Bool) :=
  [.other (.acquire task), .other (.snapshot task), .endBody task (.ok ()), .commit task address]

/-- The worker reads the list, whose group has gone from the core, and the user saves it again. -/
def saveBeforeRepair : List (Action Bool) :=
  [.activate false .prune, .admitWorker false, .readSelected false, .check false,
    .persist false (some []) [], .call true (.patchProfile "p" (selectedItem "node"))] ++
    callTo true 1 ++ [.other (.release true), .other (.notify true)]

/-- The repair that ends before the user's operation supersedes the worker drops what it saved. -/
theorem saved_selection_overwritten : ¬ Meets (step .linux) (Kept .linux) (State.new selectedStore)
      (saveBeforeRepair ++ callTo false 2) := by
  intro kept
  have last : saveBeforeRepair ++ callTo false 2 =
      (saveBeforeRepair ++ (callTo false 2).take 3) ++ .commit false 2 :: [] := rfl
  rw [last] at kept
  rcases kept.reached (Option.some_get (by decide)).symm _ (Option.some_get (by decide)).symm with
    same | ⟨task, operation, _, _, calls, -⟩ | ⟨task, worker, _, _, reconciles, -, -, unrecorded⟩
  · exact absurd (congrArg (fun store => store.currentItem.map (·.2.selected)) same) (by decide)
  · cases task with
    | false =>
      have idle : _ = none := congrArg Stage.reconciles calls
      exact absurd idle (by decide)
    | true =>
      have idle : _ = none := congrArg (Stage.pending "p") calls
      exact absurd idle (by decide)
  · have is_ : _ = some worker := congrArg Stage.reconciles reconciles
    cases task with
    | false =>
      have read : (⟨1, .prune, "p", [⟨some "group", some "node"⟩], 0⟩ : Worker) = worker :=
        Option.some.inj (Eq.trans (by decide) is_)
      subst read
      exact unrecorded "p" (by decide) rfl
    | true =>
      have busy : _ = true := congrArg Option.isSome is_
      exact absurd busy (by decide)

/-- The same operations, with the worker superseded before its body ends, keep what is saved. -/
theorem newer_selection_survives_save : Meets (step .linux) (Kept .linux) (State.new selectedStore)
      (saveBeforeRepair ++ .supersede true :: callTo false 2) :=
  (newer_selection_survives .linux selectedStore _ (by decide)).1

end ClashVerge.Profiles.Reconcile
