import ClashVerge.Profiles.Switching

/-!
# What keeps the current profile while the application proxy runs

The holder of the lock is the only command with a draft, and it knows the profile it goes back to. A
call of `with_data_modify` commits either the current profile its snapshot had, or the one its
command is set to.

With that, the check of `patch_profiles_config` is enough as soon as it also holds when
`APP_PROXY_RUNNING` is set, and a deletion that moves the current profile makes it too.
-/

namespace ClashVerge.Profiles.Switching

open ClashVerge.Draft ClashVerge.Verge Transition

variable {Task : Type}

/-- The permits and the store agree with where the commands stand. -/
structure Consistent (os : Os) (store : Failure.State Task) (stage : Task → Stage)
    (lock : Option Task) : Prop where
  written : Failure.Written os store
  locked : ∀ task, (stage task).Locked → lock = some task
  previous : ∀ task previous, (stage task).previous = some previous →
    previous = store.core.data.committed.value.current
  /-- A staged draft is the work of one command, and moves at most to its target. -/
  staged : ∀ draft, store.core.data.draft = some draft → ∃ task target,
    (stage task).edits = some target ∧
      (draft.value.current = store.core.data.committed.value.current ∨
        target ≠ none ∧ draft.value.current = target)
  snapshots : ∀ task original, (store.core.phase task).original = some original →
    original.value.current = store.core.data.committed.value.current
  returns : ∀ task original body, store.core.phase task = .finished original body →
    ∀ result reported, body original.value = .ok (result, reported) →
      result.current = original.value.current ∨ (stage task).commits = some result.current
  plans : ∀ task, (stage task).Planning → ∃ original, store.core.phase task = .running original ∧
    (stage task).Plans original.value

theorem Stage.locked_of_previous {stage : Stage} {previous : Option String}
    (goes : stage.previous = some previous) : stage.Locked := by
  cases stage with
  | configuring purpose profile => cases purpose <;> simp_all [Stage.previous, Stage.Locked]
  | _ => simp_all [Stage.previous, Stage.Locked]

theorem Stage.locked_of_edits {stage : Stage} {target : Option String}
    (edits : stage.edits = some target) : stage.Locked := by
  cases stage with
  | configuring purpose profile => cases purpose <;> simp_all [Stage.edits, Stage.Locked]
  | _ => simp_all [Stage.edits, Stage.Locked]

theorem Stage.of_commits {stage : Stage} {current : Option String}
    (commits : stage.commits = some current) :
    stage.Locked ∧ stage.previous = none ∧ stage.edits = none := by
  cases stage with
  | activating | removed => simp [Stage.Locked, Stage.previous, Stage.edits]
  | _ => simp [Stage.commits] at commits

theorem Stage.commits_of_keeps {stage : Stage} {current committed : Option String}
    (keeps : stage.Keeps current) (commits : stage.commits = some committed) :
    committed = current := by
  cases stage with
  | activating target => simp_all [Stage.Keeps, Stage.commits]
  | removed forced candidate => cases forced <;> simp_all [Stage.Keeps, Stage.commits]
  | _ => simp [Stage.commits] at commits

theorem Stage.shown_of_keeps {stage : Stage} {current target : Option String}
    (keeps : stage.Keeps current) (edits : stage.edits = some target) :
    target = none ∨ target = current ∨ stage.previous = some target := by
  cases stage with
  | restored previous => exact .inr (.inr edits)
  | staged own previous | succeeded own | failed own previous =>
    cases edits
    exact keeps.imp_right .inl
  | configuring purpose profile =>
    cases purpose with
    | switch own previous =>
      cases edits
      exact keeps.2.imp_right .inl
    | _ => cases edits
  | _ => cases edits

/-- A stage that has no draft, no way back, no commit and no plan. -/
def Stage.Plain (stage : Stage) : Prop :=
  stage.previous = none ∧ stage.edits = none ∧ stage.commits = none ∧ ¬ stage.Planning

namespace Consistent

variable {os : Os} {store : Failure.State Task} {stage : Task → Stage} {lock : Option Task}

theorem no_draft (consistent : Consistent os store stage lock) (task : Task)
    (locked : (stage task).Locked) (bare : (stage task).edits = none) :
    store.core.data.draft = none := by
  cases present : store.core.data.draft with
  | none => rfl
  | some draft =>
    obtain ⟨owner, target, edits, _⟩ := consistent.staged draft present
    have same : owner = task := Option.some.inj
      ((consistent.locked owner (Stage.locked_of_edits edits)).symm.trans
        (consistent.locked task locked))
    simp [same, bare] at edits

variable [DecidableEq Task]

theorem move (consistent : Consistent os store stage lock) (task : Task) (next : Stage)
    (lock' : Option Task)
    (others : ∀ other, other ≠ task → (stage other).Locked → lock' = some other)
    (locked : next.Locked → lock' = some task)
    (previous : ∀ previous, next.previous = some previous →
      previous = store.core.data.committed.value.current)
    (edits : store.core.data.draft = none ∨ next.edits = (stage task).edits)
    (commits : (∀ original body, store.core.phase task ≠ .finished original body) ∨
      next.commits = (stage task).commits)
    (plans : next.Planning → ∃ original, store.core.phase task = .running original ∧
      next.Plans original.value) :
    Consistent os store (Function.update stage task next) lock' where
  written := consistent.written
  locked := by
    intro other inside
    by_cases same : other = task
    · subst same
      exact locked (by simpa using inside)
    · exact others other same (by simpa [same] using inside)
  previous := by
    intro other prior goes
    by_cases same : other = task
    · subst same
      exact previous prior (by simpa using goes)
    · exact consistent.previous other prior (by simpa [same] using goes)
  staged := by
    intro draft present
    obtain ⟨owner, target, owns, shows⟩ := consistent.staged draft present
    refine ⟨owner, target, ?_, shows⟩
    by_cases same : owner = task
    · subst same
      rcases edits with nothing | kept
      · simp [nothing] at present
      · simpa [kept] using owns
    · simpa [same] using owns
  snapshots := consistent.snapshots
  returns := by
    intro other original body ends result reported returned
    by_cases same : other = task
    · subst same
      rcases commits with never | kept
      · exact absurd ends (never original body)
      · simpa [kept] using consistent.returns other original body ends result reported returned
    · simpa [same] using consistent.returns other original body ends result reported returned
  plans := by
    intro other planning
    by_cases same : other = task
    · subst same
      simpa using plans (by simpa using planning)
    · simpa [same] using consistent.plans other (by simpa [same] using planning)

variable {task : Task}

theorem shift (consistent : Consistent os store stage lock) {before : Stage}
    (at_ : stage task = before) (next : Stage) (locked : next.Locked → before.Locked)
    (previous : ∀ previous, next.previous = some previous →
      previous = store.core.data.committed.value.current)
    (edits : store.core.data.draft = none ∨ next.edits = before.edits)
    (commits : (∀ original body, store.core.phase task ≠ .finished original body) ∨
      next.commits = before.commits)
    (plans : next.Planning → ∃ original, store.core.phase task = .running original ∧
      next.Plans original.value) :
    Consistent os store (Function.update stage task next) lock := by
  subst before
  exact consistent.move task next lock (fun other _ inside => consistent.locked other inside)
    (fun inside => consistent.locked task (locked inside)) previous edits commits plans

theorem plain (consistent : Consistent os store stage lock) {before : Stage}
    (at_ : stage task = before) (next : Stage) (plain : before.Plain) (bare : next.Plain)
    (locked : next.Locked → before.Locked) :
    Consistent os store (Function.update stage task next) lock :=
  consistent.shift at_ next locked (by simp [bare.1]) (.inr (bare.2.1.trans plain.2.1.symm))
    (.inr (bare.2.2.1.trans plain.2.2.1.symm)) (fun planning => absurd planning bare.2.2.2)

theorem decide (consistent : Consistent os store stage lock) {before : Stage}
    (at_ : stage task = before) {uid : String} {candidate : Option String} {forced : ForcedUpdate}
    {saved : Bool} (planning : before.Planning)
    (locked : (Stage.decided uid forced candidate saved).Locked → before.Locked)
    (edits : before.edits = none) (commits : before.commits = none)
    (plans : ∀ original, before.Plans original →
      ∀ plan, original.planDeleteItem uid = .ok plan → plan.2.2.current = candidate ∧ plan.1 = true) :
    Consistent os store (Function.update stage task (.decided uid forced candidate saved)) lock := by
  obtain ⟨original, runs, plan⟩ := consistent.plans task (at_ ▸ planning)
  refine consistent.shift at_ _ locked (by simp [Stage.previous]) (.inr edits.symm)
    (.inr commits.symm) (fun _ => ⟨original, runs, fun result planned => ?_⟩)
  obtain ⟨same, updates⟩ := plans original.value (at_ ▸ plan) result planned
  exact ⟨same, by simp [updates]⟩

theorem enterLock (consistent : Consistent os store stage none) {before : Stage}
    (at_ : stage task = before) (next : Stage) (plain : before.Plain) (bare : next.Plain) :
    Consistent os store (Function.update stage task next) (some task) := by
  subst before
  have free : ∀ other, ¬ (stage other).Locked := fun other inside => by
    simpa using consistent.locked other inside
  exact consistent.move task next (some task) (fun other _ inside => absurd inside (free other))
    (fun _ => rfl) (by simp [bare.1]) (.inr (bare.2.1.trans plain.2.1.symm))
    (.inr (bare.2.2.1.trans plain.2.2.1.symm)) (fun planning => absurd planning bare.2.2.2)

theorem leaveLock (consistent : Consistent os store stage lock) {before : Stage}
    (at_ : stage task = before) (inside : before.Locked) (plain : before.Plain) :
    Consistent os store (Function.update stage task .idle) none := by
  subst before
  refine consistent.move task .idle none (fun other different locks => ?_) (by simp [Stage.Locked])
    (by simp [Stage.previous]) (.inr plain.2.1.symm) (.inr plain.2.2.1.symm)
    (by simp [Stage.Planning])
  exact absurd (Option.some.inj ((consistent.locked other locks).symm.trans
    (consistent.locked task inside))) different

omit [DecidableEq Task] in
theorem quiet [DecidableEq Task] (consistent : Consistent os store stage lock)
    {next : Failure.State Task}
    {action : Modify.Action Task IProfiles String (Except String Unit)}
    (written : Failure.Written os next) (moved : Modify.Moves store.core action next.core)
    (unfinished : ∀ task body, action ≠ .finish task body) (kept : ∀ task, action ≠ .drop task)
    (current : next.core.data.committed.value.current = store.core.data.committed.value.current)
    (staged : ∀ draft, next.core.data.draft = some draft → ∃ task target,
      (stage task).edits = some target ∧
        (draft.value.current = store.core.data.committed.value.current ∨
          target ≠ none ∧ draft.value.current = target)) :
    Consistent os next stage lock where
  written := written
  locked := consistent.locked
  previous := by
    rw [current]
    exact consistent.previous
  staged := by
    rw [current]
    exact staged
  snapshots := by
    intro task original held
    rw [current]
    rcases Modify.moves_original consistent.written.core.queued moved held with before | ⟨_, rfl⟩
    · exact consistent.snapshots task original before
    · rfl
  returns := by
    intro task original body ends
    rcases Modify.moves_finished consistent.written.core.queued moved ends with before | finishes
    · exact consistent.returns task original body before
    · exact absurd finishes (unfinished task body)
  plans := by
    intro task planning
    obtain ⟨original, runs, plan⟩ := consistent.plans task planning
    exact ⟨original, Modify.moves_running_stays consistent.written.core.queued moved runs
      (unfinished task) (kept task), plan⟩

theorem finish (consistent : Consistent os store stage lock) {next : Failure.State Task}
    {original : SharedDraft IProfiles}
    {body : IProfiles → Except String (IProfiles × Except String Unit)}
    (written : Failure.Written os next)
    (moved : Modify.Moves store.core (.finish task body) next.core)
    (runs : store.core.phase task = .running original)
    (returns : ∀ result reported, body original.value = .ok (result, reported) →
      result.current = original.value.current ∨ (stage task).commits = some result.current)
    (ended : ¬ (stage task).Planning) : Consistent os next stage lock := by
  obtain ⟨snapshot, at_, after⟩ := Modify.moves_finish moved
  obtain rfl : original = snapshot := by simpa [runs] using at_
  have data : next.core.data = store.core.data := by rw [after]; rfl
  refine ⟨written, consistent.locked, ?_, ?_, ?_, ?_, ?_⟩
  · rw [data]
    exact consistent.previous
  · rw [data]
    exact consistent.staged
  · intro other snapshot held
    rw [data]
    rcases Modify.moves_original consistent.written.core.queued moved held with before | ⟨snapshots, _⟩
    · exact consistent.snapshots other snapshot before
    · simp at snapshots
  · intro other snapshot run ends
    rcases Modify.moves_finished consistent.written.core.queued moved ends with before | finishes
    · exact consistent.returns other snapshot run before
    · obtain ⟨rfl, rfl⟩ : task = other ∧ body = run := by simpa using finishes
      obtain rfl : original = snapshot := by simpa [after] using ends
      exact returns
  · intro other planning
    obtain ⟨snapshot, running, plan⟩ := consistent.plans other planning
    refine ⟨snapshot, Modify.moves_running_stays consistent.written.core.queued moved running ?_
      (by simp), plan⟩
    intro run finishes
    obtain ⟨rfl, rfl⟩ : task = other ∧ body = run := by simpa using finishes
    exact ended planning

/-- A commit that moves the current profile. The command that makes it holds the lock, so no other
one has staged a draft or knows the profile it goes back to. -/
theorem commit (consistent : Consistent os store stage lock) {next : Failure.State Task}
    {address : Nat} {original : SharedDraft IProfiles}
    {body : IProfiles → Except String (IProfiles × Except String Unit)}
    (written : Failure.Written os next)
    (moved : Modify.Moves store.core (.commit task address) next.core)
    (at_ : store.core.phase task = .finished original body) {current : Option String}
    (commits : (stage task).commits = some current) : Consistent os next stage lock := by
  obtain ⟨holds, forward, bare⟩ := Stage.of_commits commits
  have alone : ∀ other, (stage other).Locked → other = task := fun other inside =>
    Option.some.inj ((consistent.locked other inside).symm.trans (consistent.locked task holds))
  have exclusive : ∀ other, (store.core.phase other).Critical → other = task := fun other inside =>
    consistent.written.core.exclusive.one other task inside (by simp [at_, Modify.Phase.Critical])
  have ended : ∀ {core}, Modify.Moves store.core (.commit task address) core →
      (core.phase task).original = none := fun commits => by
    cases commits <;> simp [Modify.Phase.original]
  have noOriginal : ∀ other snapshot, (next.core.phase other).original ≠ some snapshot := by
    intro other snapshot held
    rcases Modify.moves_original consistent.written.core.queued moved held with before | ⟨snapshots, _⟩
    · obtain rfl := exclusive other (Modify.Phase.critical_of_original before)
      simp [ended moved] at held
    · simp at snapshots
  refine ⟨written, consistent.locked, ?_, ?_, ?_, ?_, ?_⟩
  · intro other previous goes
    obtain rfl := alone other (Stage.locked_of_previous goes)
    simp [forward] at goes
  · intro draft present
    rw [Modify.moves_draft moved (by simp [Modify.Action.actor]), consistent.no_draft task holds bare]
      at present
    simp at present
  · intro other snapshot held
    exact absurd held (noOriginal other snapshot)
  · intro other snapshot run ends
    exact absurd (by simp [ends, Modify.Phase.original]) (noOriginal other snapshot)
  · intro other planning
    obtain ⟨snapshot, running, _⟩ := consistent.plans other planning
    obtain rfl := exclusive other (by simp [running, Modify.Phase.Critical])
    simp [at_] at running

section

variable [Fintype Task]

variable {next : Failure.State Task}

theorem modify (consistent : Consistent os store stage lock)
    {action : Modify.Action Task IProfiles String (Except String Unit)}
    (inCall : InCall action = true) (taken : Failure.step os store (.other action) = some next) :
    Consistent os next stage lock := by
  have written := Failure.written_step consistent.written taken
  obtain ⟨moved, unfinished⟩ := Failure.step_other taken
  have draft := Modify.moves_draft moved (by cases action <;> simp_all [InCall, Modify.Action.actor])
  have kept : ∀ task, action ≠ .drop task := by
    rintro task rfl
    simp [InCall] at inCall
  rcases Modify.moves_committed moved with same | replaced | ⟨rfl, _⟩
  · exact consistent.quiet written moved unfinished kept (by rw [same])
      (by rw [draft]; exact consistent.staged)
  · obtain ⟨task, address, original, body, result, reported, rfl, at_, returned, after, -⟩ := replaced
    rcases consistent.returns task original body at_ result reported returned with keeps | commits
    · refine consistent.quiet written moved unfinished kept ?_ (by rw [draft]; exact consistent.staged)
      rw [after]
      exact keeps.trans (consistent.snapshots task original (by simp [at_, Modify.Phase.original]))
    · exact consistent.commit written moved at_ commits
  · simp [InCall] at inCall

theorem modify_current (consistent : Consistent os store stage lock)
    {action : Modify.Action Task IProfiles String (Except String Unit)}
    (inCall : InCall action = true) (taken : Failure.step os store (.other action) = some next)
    (keeps : ∀ task, (stage task).Keeps store.core.data.committed.value.current) :
    next.core.data.committed.value.current = store.core.data.committed.value.current := by
  obtain ⟨moved, _⟩ := Failure.step_other taken
  rcases Modify.moves_committed moved with same | replaced | ⟨rfl, _⟩
  · rw [same]
  · obtain ⟨task, address, original, body, result, reported, rfl, at_, returned, after, -⟩ := replaced
    rw [after]
    rcases consistent.returns task original body at_ result reported returned with same | commits
    · exact same.trans (consistent.snapshots task original (by simp [at_, Modify.Phase.original]))
    · exact Stage.commits_of_keeps (keeps task) commits
  · simp [InCall] at inCall

theorem editDraft (consistent : Consistent os store stage lock)
    {task : Task} {target : Option String} {address : Nat}
    (empty : store.core.data.draft = none) (edits : (stage task).edits = some target)
    (taken : Failure.step os store
      (.other (.editDraft (·.patchConfig ⟨target, none⟩) address)) = some next) :
    Consistent os next stage lock := by
  obtain ⟨moved, unfinished⟩ := Failure.step_other taken
  refine consistent.quiet (Failure.written_step consistent.written taken) moved unfinished (by simp)
    ?_ ?_
  · rcases Modify.moves_committed moved with same | ⟨_, _, _, _, _, _, different, _⟩ | ⟨different, _⟩
    · rw [same]
    · simp at different
    · simp at different
  · intro draft present
    refine ⟨task, target, edits, ?_⟩
    rw [Modify.moves_editDraft moved] at present
    obtain rfl : _ = draft := Option.some.inj present
    simpa [DraftData.latestArc, empty] using
      store.core.data.committed.value.patchConfig_current target

theorem discard (consistent : Consistent os store stage lock)
    (taken : Failure.step os store (.other .discard) = some next) :
    Consistent os next stage lock ∧ next.core.data.draft = none ∧
      next.core.data.committed = store.core.data.committed := by
  obtain ⟨moved, unfinished⟩ := Failure.step_other taken
  have after := Modify.moves_discard moved
  refine ⟨?_, by simp [after, DraftData.discard], by simp [after, DraftData.discard]⟩
  exact consistent.quiet (Failure.written_step consistent.written taken) moved unfinished (by simp)
    (by simp [after, DraftData.discard]) (by simp [after, DraftData.discard])

theorem publish (consistent : Consistent os store stage lock)
    {task : Task} {previous : String} (at_ : stage task = .restored previous)
    (taken : Failure.step os store (.other .apply) = some next) :
    Consistent os next stage lock ∧ next.core.data.draft = none ∧
      next.core.data.committed.value.current = store.core.data.committed.value.current := by
  obtain ⟨moved, unfinished⟩ := Failure.step_other taken
  have back := consistent.previous task (some previous) (by simp [at_, Stage.previous])
  have empty : next.core.data.draft = none := Modify.moves_apply moved
  have current : next.core.data.committed.value.current =
      store.core.data.committed.value.current := by
    rcases Modify.moves_committed moved with same | ⟨_, _, _, _, _, _, different, _⟩ |
      ⟨_, draft, present, after⟩
    · rw [same]
    · simp at different
    · obtain ⟨owner, target, edits, shows⟩ := consistent.staged draft present
      obtain rfl : owner = task := Option.some.inj
        ((consistent.locked owner (Stage.locked_of_edits edits)).symm.trans
          (consistent.locked task (by simp [at_, Stage.Locked])))
      obtain rfl : target = some previous := by simpa [at_, Stage.edits, eq_comm] using edits
      rw [after]
      rcases shows with same | ⟨_, moves⟩
      · exact same
      · exact moves.trans back
  exact ⟨consistent.quiet (Failure.written_step consistent.written taken) moved unfinished (by simp)
    current (by simp [empty]), empty, current⟩

theorem call (consistent : Consistent os store stage lock) {task : Task}
    (taken : Failure.step os store (.other (.start task)) = some next) :
    Consistent os next stage lock ∧ next.core.data = store.core.data ∧
      (∀ original body, next.core.phase task ≠ .finished original body) := by
  obtain ⟨moved, unfinished⟩ := Failure.step_other taken
  obtain ⟨data, trying⟩ := Modify.moves_start moved
  refine ⟨consistent.quiet (Failure.written_step consistent.written taken) moved unfinished (by simp)
    (by rw [data]) (by rw [data]; exact consistent.staged), data, ?_⟩
  simp [trying, Modify.enterLoop, Modify.dataModifyFastRetryYields]

end

end Consistent

section

variable [DecidableEq Task] [Fintype Task]

/-- The permits and the store agree with the commands. -/
def State.Consistent (os : Os) (state : State Task) : Prop :=
  Switching.Consistent os state.store state.stage state.profileWriteLock

omit [DecidableEq Task] [Fintype Task] in
theorem consistent_new (os : Os) (store : IProfiles) (disk : Disk) :
    State.Consistent os (State.new store disk : State Task) where
  written := Failure.written_new os store disk
  locked := by simp [State.new, Stage.Locked]
  previous := by simp [State.new, Stage.previous]
  staged := by simp [State.new, Failure.State.new, Modify.State.new]
  snapshots := by simp [State.new, Failure.State.new, Modify.State.new, Modify.Phase.original]
  returns := by simp [State.new, Failure.State.new, Modify.State.new]
  plans := by simp [State.new, Stage.Planning]

variable {state next : State Task} {os : Os} {task : Task} {action : Action Task}

/-! ## The guard -/

/-- While the application proxy runs, no command is about to change the profile. -/
def State.Keeping (state : State Task) : Prop :=
  state.appProxyRunning = true → ∀ task, (state.stage task).Keeps state.current

omit [DecidableEq Task] [Fintype Task] in
theorem latest_current {state : State Task} (consistent : state.Consistent os)
    (keeps : ∀ task, (state.stage task).Keeps state.current) : state.latest = state.current := by
  cases present : state.store.core.data.draft with
  | none => simp [State.latest, State.current, DraftData.latestArc, present]
  | some draft =>
    obtain ⟨owner, target, edits, shows⟩ := consistent.staged draft present
    have latest : state.latest = draft.value.current := by
      simp [State.latest, DraftData.latestArc, present]
    rcases shows with same | ⟨moves, shown⟩
    · exact latest.trans same
    · rw [latest, shown]
      obtain nothing | kept | back := Stage.shown_of_keeps (keeps owner) edits
      · exact absurd nothing moves
      · exact kept
      · exact consistent.previous owner target back

/-- Nothing, a step of the store, handing a configuration to the core, or setting
`APP_PROXY_RUNNING`. -/
inductive Effect (os : Os) (state next : State Task) : Action Task → Prop
  | silent {action : Action Task} (store : next.store = state.store)
      (applied : next.applied = state.applied)
      (running : next.appProxyRunning = true → state.appProxyRunning = true) :
      Effect os state next action
  | stored {action : Action Task} (call : Failure.Action Task)
      (moved : Failure.step os state.store call = some next.store)
      (applied : next.applied = state.applied)
      (running : next.appProxyRunning = state.appProxyRunning)
      (publishes : call = .other .apply → ∃ task previous, state.stage task = .restored previous) :
      Effect os state next action
  | taken (task : Task) (purpose : Purpose) (profile : Option String)
      (at_ : state.stage task = .configuring purpose profile)
      (store : next.store = state.store) (applied : next.applied = profile :: state.applied)
      (running : next.appProxyRunning = state.appProxyRunning) : Effect os state next (.take task)
  | started (store : next.store = state.store) (stage : next.stage = state.stage)
      (applied : next.applied = state.applied) : Effect os state next .startHelper

theorem advance_effect {stage : Stage} {call : Failure.Action Task}
    (taken : state.advance os task stage call = some next)
    (publishes : call = .other .apply → ∃ task previous, state.stage task = .restored previous) :
    Effect os state next action := by
  simp only [State.advance, Option.map_eq_some_iff] at taken
  obtain ⟨store, moved, rfl⟩ := taken
  exact .stored call moved rfl rfl publishes

theorem conclude_effect {purpose : Purpose} {result : Except String Config.ValidationOutcome}
    (taken : state.conclude task result purpose = some next) : Effect os state next action := by
  cases purpose with
  | delete uid candidate =>
    simp only [State.conclude] at taken
    split at taken
    · split at taken <;> (cases taken; exact .silent rfl rfl id)
    · cases taken
      exact .silent rfl rfl id
    · simp at taken
  | _ =>
    simp only [State.conclude, Option.some.injEq] at taken
    subst next
    exact .silent rfl rfl id

theorem step_effect (taken : step os state action = some next) : Effect os state next action := by
  cases action with
  | stage | restage =>
    simp only [step] at taken
    split at taken
    · exact advance_effect taken (by simp)
    · simp at taken
  | publish task =>
    simp only [step] at taken
    split at taken
    · rename_i previous at_
      exact advance_effect taken (fun _ => ⟨task, previous, at_⟩)
    · simp at taken
  | discard =>
    simp only [step] at taken
    split at taken
    · exact advance_effect taken (by simp)
    · exact advance_effect taken (by simp)
    · simp at taken
  | call | finish =>
    simp only [step] at taken
    split at taken
    · exact advance_effect taken (by simp)
    · exact advance_effect taken (by simp)
    · exact advance_effect taken (by simp)
    · simp at taken
  | modify action =>
    simp only [step, Option.ite_none_right_eq_some, Option.map_eq_some_iff] at taken
    obtain ⟨inCall, store, moved, rfl⟩ := taken
    refine .stored (.other action) moved rfl rfl ?_
    rintro ⟨⟩
    simp [InCall] at inCall
  | take task =>
    cases at_ : state.stage task with
    | configuring purpose profile =>
      simp only [step, at_, Option.some.injEq] at taken
      subst next
      exact .taken task purpose profile at_ rfl rfl rfl
    | _ => simp [step, at_] at taken
  | conclude task result =>
    simp only [step] at taken
    split at taken
    · exact conclude_effect taken
    · simp at taken
  | patchProfilesConfig | claim | plan =>
    simp only [step] at taken
    split at taken
    · split at taken <;> (cases taken; exact .silent rfl rfl id)
    · simp at taken
  | lock | begin =>
    simp only [step] at taken
    split at taken
    · simp at taken
    · split at taken
      all_goals first
        | (cases taken; exact .silent rfl rfl id)
        | simp at taken
  | refuse | returned | leave =>
    simp only [step] at taken
    split at taken
    all_goals first
      | (cases taken; exact .silent rfl rfl id)
      | simp at taken
  | readPrevious | deleteProfile | updateProfile | checkCurrent =>
    simp only [step] at taken
    split at taken
    · cases taken
      exact .silent rfl rfl id
    · simp at taken
  | startHelper =>
    simp only [step, Option.ite_none_left_eq_some, Option.some.injEq] at taken
    obtain ⟨_, rfl⟩ := taken
    exact .started rfl rfl rfl
  | takeHelper =>
    simp only [step, Option.ite_none_left_eq_some, Option.some.injEq] at taken
    obtain ⟨_, rfl⟩ := taken
    exact .silent rfl rfl id
  | storeStopped | helperDied =>
    simp only [step, Option.ite_none_right_eq_some, Option.some.injEq] at taken
    obtain ⟨_, rfl⟩ := taken
    exact .silent rfl rfl (by simp)

theorem stored_current {state : State Task} (consistent : state.Consistent os)
    (keeps : ∀ task, (state.stage task).Keeps state.current) {call : Failure.Action Task}
    {store : Failure.State Task} (moved : Failure.step os state.store call = some store)
    (publishes : call = .other .apply → ∃ task previous, state.stage task = .restored previous) :
    store.core.data.committed.value.current = state.current := by
  cases call with
  | finish task operation =>
    obtain ⟨original, _, ended⟩ := Failure.step_finish moved
    obtain ⟨_, _, after⟩ := Modify.moves_finish ended
    simp [after, State.current, Modify.State.setPhase]
  | other action =>
    rcases Modify.moves_committed (Failure.step_other moved).1 with same | ⟨_, _, _, _, _, _, rfl, _⟩ |
      ⟨rfl, _⟩
    · rw [same]
      rfl
    · exact consistent.modify_current rfl moved keeps
    · obtain ⟨task, previous, at_⟩ := publishes rfl
      exact (consistent.publish at_ moved).2.2

theorem untouched_of_keeping {state : State Task} (consistent : state.Consistent os)
    (keeping : state.Keeping) (action : Action Task) : Untouched os state action := by
  intro running next taken
  have keeps := keeping running
  cases step_effect taken with
  | silent store applied | started store stage applied =>
    exact ⟨by simp [State.current, store], .inl applied⟩
  | stored call moved applied running publishes =>
    exact ⟨stored_current consistent keeps moved publishes, .inl applied⟩
  | taken task purpose profile at_ store applied running =>
    have keep := keeps task
    rw [at_] at keep
    exact ⟨by simp [State.current, store], .inr (by rw [applied, keep.1])⟩

omit [Fintype Task] in
theorem keeps_turn {stage : Task → Stage} {current : Option String} (keeps : ∀ task, (stage task).Keeps current)
    {before after : Stage} (at_ : stage task = before)
    (keep : before.Keeps current → after.Keeps current) (other : Task) :
    (Function.update stage task after other).Keeps current := by
  by_cases same : other = task
  · subst same
    rw [Function.update_self]
    exact keep (at_ ▸ keeps other)
  · rw [Function.update_of_ne same]
    exact keeps other

/-- The application proxy runs, no command is about to change the profile, and the step is guarded. -/
structure State.Guards (state : State Task) (action : Action Task) : Prop where
  running : state.appProxyRunning = true
  keeps : ∀ task, (state.stage task).Keeps state.current
  guarded : Guarded state action

/-- The permits and the store agree after a step, and where it is guarded the commands go on keeping
the profile. -/
def State.Follows (os : Os) (state next : State Task) (action : Action Task) : Prop :=
  next.Consistent os ∧
    (state.Guards action → ∀ other, (next.stage other).Keeps state.current)

theorem conclude_follows (consistent : state.Consistent os) {purpose : Purpose}
    {profile : Option String} {result : Except String Config.ValidationOutcome}
    (at_ : state.stage task = .configuring purpose profile)
    (taken : state.conclude task result purpose = some next) : state.Follows os next action := by
  cases purpose with
  | switch target previous =>
    cases taken
    have goes := consistent.previous task previous (by simp [at_, Stage.previous])
    split
    · exact ⟨consistent.shift at_ (.succeeded target) id (by simp [Stage.previous]) (.inr rfl)
        (.inr rfl) nofun, fun on => keeps_turn on.keeps at_ And.right⟩
    · exact ⟨consistent.shift at_ (.failed target previous) id (by simp [Stage.previous, goes])
        (.inr rfl) (.inr rfl) nofun,
        fun on => keeps_turn on.keeps at_ And.right⟩
  | delete uid candidate =>
    obtain ⟨original, runs, plan⟩ := consistent.plans task (by simp [at_, Stage.Planning])
    cases result with
    | ok outcome =>
      simp only [State.conclude] at taken
      split at taken
      · cases taken
        exact ⟨consistent.decide at_ trivial id rfl rfl (by simp [Stage.Plans]),
          fun on => keeps_turn on.keeps at_ And.right⟩
      · cases taken
        exact ⟨consistent.decide at_ trivial id rfl rfl (by simp [Stage.Plans]),
          fun on => keeps_turn on.keeps at_ fun _ => trivial⟩
    | error error =>
      simp only [State.conclude, runs] at taken
      cases taken
      have snapshot := consistent.snapshots task original (by simp [runs, Modify.Phase.original])
      exact ⟨consistent.shift at_ (.configuring (.revert uid candidate error) _) id
        (by simp [Stage.previous]) (.inr rfl) (.inr rfl)
        (fun _ => ⟨original, runs, by simpa [at_, Stage.Plans] using plan⟩),
        fun on => keeps_turn on.keeps at_ fun _ => ⟨snapshot, trivial⟩⟩
  | revert uid candidate error =>
    cases taken
    exact ⟨consistent.decide at_ trivial id rfl rfl (by simp [Stage.Plans]),
      fun on => keeps_turn on.keeps at_ fun _ => trivial⟩
  | refresh =>
    cases taken
    exact ⟨consistent.plain at_ _ ⟨rfl, rfl, rfl, id⟩ ⟨rfl, rfl, rfl, id⟩ id,
      fun on => keeps_turn on.keeps at_ fun _ => trivial⟩

theorem finish_follows (consistent : state.Consistent os) {write : WriteOutcome}
    {save : Except String Unit} {removable : String → Bool}
    (taken : step os state (.finish task write save removable) = some next) :
    state.Follows os next action := by
  cases at_ : state.stage task with
  | activating current =>
    simp only [step, at_, State.advance, Option.map_eq_some_iff] at taken
    obtain ⟨store, ended, rfl⟩ := taken
    obtain ⟨original, runs, moved⟩ := Failure.step_finish ended
    have after := consistent.finish (Failure.written_step consistent.written ended) moved runs (by
        intro result reported returned
        obtain rfl : original.value.patchConfig ⟨some current, none⟩ = result :=
          congrArg Prod.fst (Except.ok.inj returned)
        rcases original.value.patchConfig_current (some current) with same | ⟨_, moves⟩
        · exact .inl same
        · exact .inr (by simp [at_, Stage.commits, moves]))
      (by simp [at_, Stage.Planning])
    exact ⟨after.shift at_ (.activating current) id (by simp [Stage.previous]) (.inr rfl)
      (.inr rfl) nofun, fun on => keeps_turn on.keeps at_ id⟩
  | decided uid forced candidate saved =>
    simp only [step, at_, State.advance, Option.map_eq_some_iff] at taken
    obtain ⟨store, ended, rfl⟩ := taken
    obtain ⟨original, runs, moved⟩ := Failure.step_finish ended
    obtain ⟨snapshot, running, plans⟩ := consistent.plans task (by simp [at_, Stage.Planning])
    obtain rfl : snapshot = original := by simpa [runs, eq_comm] using running
    have shifted := consistent.shift at_ (.removed forced candidate) id (by simp [Stage.previous])
      (.inr rfl) (.inl (by simp [runs])) nofun
    refine ⟨shifted.finish (Failure.written_step consistent.written ended) moved runs ?_
      (by simp [Stage.Planning]), fun on => keeps_turn on.keeps at_ (by cases forced <;> exact id)⟩
    intro result reported returned
    rcases Operation.runDelete_returned returned with rfl | ⟨plan, planned, rfl, updated⟩
    · exact .inl rfl
    · simp only [at_, Stage.Plans] at plans
      obtain ⟨same, kept⟩ := plans plan planned
      obtain rfl : forced = .applied := by
        cases updates : plan.1 with
        | true => exact updated updates
        | false => exact kept updates
      exact .inr (by simp [Stage.commits, same])
  | persisting uid item =>
    simp only [step, at_, State.advance, Option.map_eq_some_iff] at taken
    obtain ⟨store, ended, rfl⟩ := taken
    obtain ⟨original, runs, moved⟩ := Failure.step_finish ended
    have after := consistent.finish (Failure.written_step consistent.written ended) moved runs
      (fun result reported returned => .inl (Operation.runUpdate_current returned))
      (by simp [at_, Stage.Planning])
    exact ⟨after.plain at_ _ ⟨rfl, rfl, rfl, id⟩ ⟨rfl, rfl, rfl, id⟩ id,
      fun on => keeps_turn on.keeps at_ fun _ => trivial⟩
  | _ => simp [step, at_] at taken

theorem follows_plain (consistent : state.Consistent os) {before after : Stage}
    (at_ : state.stage task = before) (store : next.store = state.store)
    (lock : next.profileWriteLock = state.profileWriteLock)
    (stage : next.stage = Function.update state.stage task after) (plain : before.Plain)
    (bare : after.Plain) (locked : after.Locked → before.Locked)
    (keep : before.Keeps state.current → after.Keeps state.current) :
    state.Follows os next action := by
  unfold State.Follows State.Consistent
  rw [store, lock, stage]
  exact ⟨consistent.plain at_ after plain bare locked, fun on => keeps_turn on.keeps at_ keep⟩

theorem follows_still (consistent : state.Consistent os) (store : next.store = state.store)
    (lock : next.profileWriteLock = state.profileWriteLock) (stage : next.stage = state.stage) :
    state.Follows os next action := by
  unfold State.Follows State.Consistent
  rw [store, lock, stage]
  exact ⟨consistent, State.Guards.keeps⟩

theorem plan_follows (consistent : state.Consistent os)
    (taken : step os state (.plan task) = some next) : state.Follows os next (.plan task) := by
  cases at_ : state.stage task with
  | deleting uid =>
    cases runs : state.store.core.phase task with
    | running original =>
      have snapshot := consistent.snapshots task original (by simp [runs, Modify.Phase.original])
      simp only [step, at_, runs] at taken
      split at taken
      · rename_i error planned
        cases taken
        exact ⟨consistent.shift at_ (.decided uid (.failed error) none true) id
          (by simp [Stage.previous]) (.inr rfl) (.inr rfl)
          (fun _ => ⟨original, runs, by simp [Stage.Plans, planned]⟩),
          fun on => keeps_turn on.keeps at_ id⟩
      · rename_i shouldUpdate files candidate planned
        cases taken
        have kept (on : state.Guards (.plan task)) : candidate.current = state.current := by
          have plan := on.guarded on.running
          simp only [PlanKeeps, at_, runs, planned] at plan
          exact plan.trans snapshot
        cases shouldUpdate with
        | true =>
          exact ⟨consistent.shift at_ (.planned uid candidate.current) id (by simp [Stage.previous])
            (.inr rfl) (.inr rfl) (fun _ => ⟨original, runs, by simp [Stage.Plans, planned]⟩),
            fun on => keeps_turn on.keeps at_ fun _ => kept on⟩
        | false =>
          exact ⟨consistent.shift at_ (.decided uid .applied candidate.current false) id
            (by simp [Stage.previous]) (.inr rfl) (.inr rfl)
            (fun _ => ⟨original, runs, by simp [Stage.Plans, planned]⟩),
            fun on => keeps_turn on.keeps at_ fun _ => kept on⟩
    | _ => simp [step, at_, runs] at taken
  | _ => simp [step, at_] at taken

theorem begin_follows (consistent : state.Consistent os)
    (taken : step os state (.begin task) = some next) : state.Follows os next (.begin task) := by
  cases held : state.configUpdate with
  | some holder => simp [step, held] at taken
  | none =>
    have latest (on : state.Guards (.begin task)) := latest_current consistent on.keeps
    simp only [step, held, Option.isSome_none, Bool.false_eq_true, if_false] at taken
    split at taken
    · rename_i target previous at_
      cases taken
      have goes := consistent.previous task previous (by simp [at_, Stage.previous])
      exact ⟨consistent.shift at_ (.configuring (.switch target previous) _) id
        (by simp [Stage.previous, goes]) (.inr rfl) (.inr rfl) nofun,
        fun on => keeps_turn on.keeps at_ fun keep => ⟨latest on, keep⟩⟩
    · rename_i uid candidate at_
      cases taken
      have plan := consistent.plans task (by simp [at_, Stage.Planning])
      exact ⟨consistent.shift at_ (.configuring (.delete uid candidate) _) id
        (by simp [Stage.previous]) (.inr rfl) (.inr rfl)
        (fun _ => by simpa [at_, Stage.Plans] using plan),
        fun on => keeps_turn on.keeps at_ fun keep => ⟨keep, keep⟩⟩
    · rename_i at_
      cases taken
      exact ⟨consistent.plain at_ _ ⟨rfl, rfl, rfl, id⟩ ⟨rfl, rfl, rfl, id⟩ id,
        fun on => keeps_turn on.keeps at_ fun _ => ⟨latest on, trivial⟩⟩
    · simp at taken

theorem discard_follows (consistent : state.Consistent os)
    (taken : step os state (.discard task) = some next) : state.Follows os next (.discard task) := by
  cases at_ : state.stage task with
  | succeeded target =>
    simp only [step, at_, State.advance, Option.map_eq_some_iff] at taken
    obtain ⟨store, discarded, rfl⟩ := taken
    obtain ⟨after, empty, _⟩ := consistent.discard discarded
    cases target with
    | none =>
      exact ⟨after.shift at_ .leaving id (by simp [Stage.previous]) (.inl empty) (.inr rfl)
        nofun, fun on => keeps_turn on.keeps at_ fun _ => trivial⟩
    | some current =>
      exact ⟨after.shift at_ (.committing current) id (by simp [Stage.previous]) (.inl empty)
        (.inr rfl) nofun,
        fun on => keeps_turn on.keeps at_ (by simp [Stage.Keeps])⟩
  | failed target previous =>
    simp only [step, at_, State.advance, Option.map_eq_some_iff] at taken
    obtain ⟨store, discarded, rfl⟩ := taken
    obtain ⟨after, empty, _⟩ := consistent.discard discarded
    have goes := after.previous task previous (by simp [at_, Stage.previous])
    cases previous with
    | none =>
      exact ⟨after.shift at_ .leaving id (by simp [Stage.previous]) (.inl empty) (.inr rfl)
        nofun, fun on => keeps_turn on.keeps at_ fun _ => trivial⟩
    | some previous =>
      exact ⟨after.shift at_ (.restoring previous) id (by simp [Stage.previous, goes])
        (.inl empty) (.inr rfl) nofun,
        fun on => keeps_turn on.keeps at_ fun _ => trivial⟩
  | _ => simp [step, at_] at taken

theorem returned_follows (consistent : state.Consistent os)
    (taken : step os state (.returned task) = some next) : state.Follows os next (.returned task) := by
  cases ended : state.store.core.phase task with
  | returned outcome =>
    cases at_ : state.stage task with
    | activating current =>
      simp only [step, at_, ended] at taken
      cases taken
      exact ⟨consistent.shift at_ .leaving id (by simp [Stage.previous]) (.inr rfl)
        (.inl (by simp [ended])) nofun,
        fun on => keeps_turn on.keeps at_ fun _ => trivial⟩
    | removed forced candidate =>
      simp only [step, at_, ended] at taken
      cases taken
      exact ⟨consistent.shift at_ .deleted id (by simp [Stage.previous]) (.inr rfl)
        (.inl (by simp [ended])) nofun,
        fun on => keeps_turn on.keeps at_ fun _ => trivial⟩
    | persisting uid item =>
      simp only [step, at_, ended] at taken
      cases taken
      cases outcome <;>
        exact follows_plain consistent at_ rfl rfl rfl ⟨rfl, rfl, rfl, id⟩ ⟨rfl, rfl, rfl, id⟩ id id
    | _ => simp [step, at_, ended] at taken
  | _ => cases at_ : state.stage task <;> simp [step, at_, ended] at taken

theorem step_follows (consistent : state.Consistent os)
    (taken : step os state action = some next) : state.Follows os next action := by
  cases action with
  | patchProfilesConfig task target =>
    cases at_ : state.stage task with
    | idle =>
      simp only [step, at_] at taken
      cases taken
      split
      · exact follows_still consistent rfl rfl rfl
      · rename_i stopped
        exact ⟨consistent.plain at_ _ ⟨rfl, rfl, rfl, id⟩ ⟨rfl, rfl, rfl, id⟩ id,
          fun on => absurd on.running stopped⟩
    | _ => simp [step, at_] at taken
  | claim task =>
    cases at_ : state.stage task with
    | allowed target =>
      simp only [step, at_] at taken
      cases taken
      split
      · exact follows_plain consistent at_ rfl rfl rfl ⟨rfl, rfl, rfl, id⟩ ⟨rfl, rfl, rfl, id⟩ id
          fun _ => trivial
      · exact follows_plain consistent at_ rfl rfl rfl ⟨rfl, rfl, rfl, id⟩ ⟨rfl, rfl, rfl, id⟩ id id
    | _ => simp [step, at_] at taken
  | lock task =>
    cases held : state.profileWriteLock with
    | some holder => simp [step, held] at taken
    | none =>
      have free : Switching.Consistent os state.store state.stage none := held ▸ consistent
      simp only [step, held, Option.isSome_none, Bool.false_eq_true, if_false] at taken
      split at taken
      · rename_i target at_
        cases taken
        exact ⟨free.enterLock at_ _ ⟨rfl, rfl, rfl, id⟩ ⟨rfl, rfl, rfl, id⟩,
          fun on => keeps_turn on.keeps at_ id⟩
      · rename_i uid at_
        cases taken
        exact ⟨free.enterLock at_ _ ⟨rfl, rfl, rfl, id⟩ ⟨rfl, rfl, rfl, id⟩,
          fun on => keeps_turn on.keeps at_ id⟩
      · simp at taken
  | readPrevious task =>
    cases at_ : state.stage task with
    | locked target =>
      simp only [step, at_] at taken
      cases taken
      exact ⟨consistent.shift at_ _ id (by simp [State.current, Stage.previous]) (.inr rfl)
        (.inr rfl) nofun, fun on => keeps_turn on.keeps at_ id⟩
    | _ => simp [step, at_] at taken
  | stage task address =>
    cases at_ : state.stage task with
    | staging target previous =>
      simp only [step, at_, State.advance, Option.map_eq_some_iff] at taken
      obtain ⟨store, edited, rfl⟩ := taken
      have empty := consistent.no_draft task (by simp [at_, Stage.Locked]) (by simp [at_, Stage.edits])
      have goes := consistent.previous task previous (by simp [at_, Stage.previous])
      exact ⟨(consistent.shift at_ (.staged target previous) id (by simp [Stage.previous, goes])
        (.inl empty) (.inr rfl) nofun).editDraft empty
        (by rw [Function.update_self]; rfl) edited, fun on => keeps_turn on.keeps at_ id⟩
    | _ => simp [step, at_] at taken
  | deleteProfile task uid =>
    cases at_ : state.stage task with
    | idle =>
      simp only [step, at_] at taken
      cases taken
      exact follows_plain consistent at_ rfl rfl rfl ⟨rfl, rfl, rfl, id⟩ ⟨rfl, rfl, rfl, id⟩ id id
    | _ => simp [step, at_] at taken
  | plan task => exact plan_follows consistent taken
  | updateProfile task uid item =>
    cases at_ : state.stage task with
    | idle =>
      simp only [step, at_] at taken
      cases taken
      cases item <;>
        exact follows_plain consistent at_ rfl rfl rfl ⟨rfl, rfl, rfl, id⟩ ⟨rfl, rfl, rfl, id⟩ id id
    | _ => simp [step, at_] at taken
  | checkCurrent task manual =>
    cases at_ : state.stage task with
    | updated uid persisted =>
      simp only [step, at_] at taken
      cases taken
      split <;>
        exact follows_plain consistent at_ rfl rfl rfl ⟨rfl, rfl, rfl, id⟩ ⟨rfl, rfl, rfl, id⟩ id id
    | _ => simp [step, at_] at taken
  | begin task => exact begin_follows consistent taken
  | refuse task outcome =>
    cases at_ : state.stage task with
    | staged target previous =>
      simp only [step, at_] at taken
      cases taken
      have goes := consistent.previous task previous (by simp [at_, Stage.previous])
      exact ⟨consistent.shift at_ (.failed target previous) id (by simp [Stage.previous, goes])
        (.inr rfl) (.inr rfl) nofun, fun on => keeps_turn on.keeps at_ id⟩
    | planned uid candidate =>
      simp only [step, at_] at taken
      cases taken
      exact ⟨consistent.decide at_ trivial id rfl rfl (by simp [Stage.Plans]),
        fun on => keeps_turn on.keeps at_ fun _ => trivial⟩
    | refreshing =>
      simp only [step, at_] at taken
      cases taken
      exact follows_plain consistent at_ rfl rfl rfl ⟨rfl, rfl, rfl, id⟩ ⟨rfl, rfl, rfl, id⟩ id id
    | _ => simp [step, at_] at taken
  | take task =>
    cases at_ : state.stage task with
    | configuring purpose profile =>
      simp only [step, at_] at taken
      cases taken
      exact follows_still consistent rfl rfl rfl
    | _ => simp [step, at_] at taken
  | conclude task result =>
    cases at_ : state.stage task with
    | configuring purpose profile =>
      simp only [step, at_] at taken
      exact conclude_follows consistent at_ taken
    | _ => simp [step, at_] at taken
  | discard task => exact discard_follows consistent taken
  | restage task address =>
    cases at_ : state.stage task with
    | restoring previous =>
      simp only [step, at_, State.advance, Option.map_eq_some_iff] at taken
      obtain ⟨store, edited, rfl⟩ := taken
      have empty := consistent.no_draft task (by simp [at_, Stage.Locked]) (by simp [at_, Stage.edits])
      have goes := consistent.previous task (some previous) (by simp [at_, Stage.previous])
      exact ⟨(consistent.shift at_ (.restored previous) id (by simp [Stage.previous, goes])
        (.inl empty) (.inr rfl) nofun).editDraft empty
        (by rw [Function.update_self]; rfl) edited, fun on => keeps_turn on.keeps at_ id⟩
    | _ => simp [step, at_] at taken
  | publish task =>
    cases at_ : state.stage task with
    | restored previous =>
      simp only [step, at_, State.advance, Option.map_eq_some_iff] at taken
      obtain ⟨store, published, rfl⟩ := taken
      obtain ⟨after, empty, _⟩ := consistent.publish at_ published
      exact ⟨after.shift at_ .leaving id (by simp [Stage.previous]) (.inl empty) (.inr rfl)
        nofun, fun on => keeps_turn on.keeps at_ id⟩
    | _ => simp [step, at_] at taken
  | call task =>
    cases at_ : state.stage task with
    | committing current =>
      simp only [step, at_, State.advance, Option.map_eq_some_iff] at taken
      obtain ⟨store, started, rfl⟩ := taken
      obtain ⟨after, _, unfinished⟩ := consistent.call started
      exact ⟨after.shift at_ (.activating current) id (by simp [Stage.previous]) (.inr rfl)
        (.inl unfinished) nofun, fun on => keeps_turn on.keeps at_ id⟩
    | deletionLocked uid | downloaded uid item =>
      simp only [step, at_, State.advance, Option.map_eq_some_iff] at taken
      obtain ⟨store, started, rfl⟩ := taken
      exact ⟨(consistent.call started).1.plain at_ _ ⟨rfl, rfl, rfl, id⟩ ⟨rfl, rfl, rfl, id⟩ id,
        fun on => keeps_turn on.keeps at_ id⟩
    | _ => simp [step, at_] at taken
  | finish task write save removable => exact finish_follows consistent taken
  | modify action =>
    simp only [step, Option.ite_none_right_eq_some, Option.map_eq_some_iff] at taken
    obtain ⟨inCall, store, moved, rfl⟩ := taken
    exact ⟨consistent.modify inCall moved, fun on => on.keeps⟩
  | returned task => exact returned_follows consistent taken
  | leave task =>
    simp only [step] at taken
    split at taken
    · rename_i at_
      cases taken
      exact ⟨consistent.leaveLock at_ trivial ⟨rfl, rfl, rfl, id⟩,
        fun on => keeps_turn on.keeps at_ id⟩
    · rename_i at_
      cases taken
      exact ⟨consistent.leaveLock at_ trivial ⟨rfl, rfl, rfl, id⟩,
        fun on => keeps_turn on.keeps at_ id⟩
    · simp at taken
  | startHelper | takeHelper =>
    simp only [step, Option.ite_none_left_eq_some, Option.some.injEq] at taken
    obtain ⟨_, rfl⟩ := taken
    exact follows_still consistent rfl rfl rfl
  | storeStopped | helperDied =>
    simp only [step, Option.ite_none_right_eq_some, Option.some.injEq] at taken
    obtain ⟨_, rfl⟩ := taken
    exact follows_still consistent rfl rfl rfl

theorem keeping_step
    (consistent : state.Consistent os) (keeping : state.Keeping) (guarded : Guarded state action)
    (taken : step os state action = some next) : next.Keeping := by
  intro running other
  by_cases before : state.appProxyRunning = true
  · rw [(untouched_of_keeping consistent keeping action before next taken).1]
    exact (step_follows consistent taken).2 ⟨before, keeping before, guarded⟩ other
  · cases step_effect taken with
    | silent store applied kept => exact absurd (kept running) before
    | stored call moved applied same publishes
    | taken task purpose profile at_ store applied same => exact absurd (same ▸ running) before
    | started store stage applied =>
      rw [stage, show next.current = state.current by simp [State.current, store]]
      exact guarded other

/-- Where `APP_PROXY_RUNNING` is set only between commands that would change the profile, and no
deletion that moves the current profile is planned while it is set, no command touches the profile
while it is set. -/
theorem profile_untouched_while_running (os : Os) (store : IProfiles) (disk : Disk)
    (actions : List (Action Task))
    (guarded : Meets (step os) Guarded (State.new store disk) actions) :
    Meets (step os) (Untouched os) (State.new store disk) actions :=
  Meets.imp_of_invariant (fun state => state.Consistent os ∧ state.Keeping)
    (fun _ _ _ invariant guarded taken => ⟨(step_follows invariant.1 taken).1,
      keeping_step invariant.1 invariant.2 guarded taken⟩)
    (fun _ action invariant _ => untouched_of_keeping invariant.1 invariant.2 action)
    ⟨consistent_new os store disk, fun running => by simp [State.new] at running⟩ guarded

end

/-- A store with two profiles of which `a` is the current one. -/
def twoProfiles : IProfiles where
  current := some "a"
  items := some [{ PrfItem.default with uid := some "a", itype := some "local" },
    { PrfItem.default with uid := some "b", itype := some "local" }]

def deletionWhileRunning (uid : String) : List (Action Unit) :=
  [.startHelper, .deleteProfile () uid, .lock (), .call (), .modify (.acquire ()),
    .modify (.snapshot ()), .plan ()]

/-- Deleting the other profile while the application proxy runs touches nothing. -/
theorem other_deletion_while_running :
    Meets (step .linux) (Untouched .linux) (State.new twoProfiles ⟨none, fun _ => none⟩)
      (deletionWhileRunning "b" ++ [.finish () .written (.ok ()) (fun _ => true),
        .modify (.commit () 1)]) :=
  profile_untouched_while_running .linux twoProfiles ⟨none, fun _ => none⟩ _ (by decide)

/-- Deleting the current profile loads the next one while the application proxy runs. -/
theorem deletion_switches_while_running :
    ¬ Meets (step .linux) (Untouched .linux) (State.new twoProfiles ⟨none, fun _ => none⟩)
      (deletionWhileRunning "a" ++ [.begin ()] ++ [.take ()]) := by
  intro untouched
  have loaded := untouched.reached (Option.some_get (by decide)).symm (by decide) _
    (Option.some_get (by decide)).symm
  exact absurd loaded.2 (by decide)

end ClashVerge.Profiles.Switching
