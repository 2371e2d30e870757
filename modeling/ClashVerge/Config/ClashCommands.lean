import ClashVerge.Config.Clash

/-!
# Commands that share the clash draft

`patch_clash` stages its patch, carries out its effects and commits; `change_clash_mode` patches the
core, stages the mode and commits. Neither claims the draft slot, and the steps of all calls
interleave.

A commit publishes whatever is staged, also the patch of another call whose effects may still fail
or have failed. The committed configuration is what the successful calls made of it as long as each
call stages into an empty slot, and no call fails once it has committed.
-/

namespace ClashVerge.Config.Commands

open ClashVerge.Draft ClashVerge.Yaml Transition

variable {Task : Type}

inductive Command where
  | patchClash (patch : Mapping)
  | changeClashMode (mode : String)

def Command.patch : Command → Mapping
  | .patchClash patch => patch
  | .changeClashMode mode => OrderedMap.insert [] (.string "mode") (.string mode)

/-- How the awaits of the effects end. -/
structure Effects where
  generate : Except String Unit
  restartCore : Except String Unit
  updateConfigChecked : Except String Unit

/-- The block of `patch_clash` that computes `res`. The outer error is that of a `?`. -/
def patchClashEffects (patch : Mapping) (effects : Effects) : Except String (Except String Unit) :=
  if patch.containsKey "secret" || patch.containsKey "external-controller" then do
    effects.generate
    effects.restartCore
    return .ok ()
  else do
    effects.updateConfigChecked
    return .ok ()

inductive Phase where
  | idle
  | corePatched
  | staged
  /-- `patch_clash` has computed `res`. -/
  | settled (res : Except String Unit)
  /-- Applied, and about to write the configuration file. -/
  | committed
  | returned (result : Except String Unit)

inductive Action (Task : Type) where
  | patchBaseConfig (task : Task) (result : Except String Unit)
  | editDraft (task : Task)
  | effects (task : Task) (effects : Effects)
  | apply (task : Task)
  | discard (task : Task)
  | saveConfig (task : Task) (result : Except String Unit)

structure State (Task : Type) where
  slot : Slot Mapping
  phase : Task → Phase
  /-- The calls that have applied, in the order they did. -/
  commits : List Task

namespace State

def new (data : Mapping) : State Task := ⟨Slot.new data, fun _ => .idle, []⟩

def Quiescent (state : State Task) : Prop :=
  ∀ task, state.phase task = .idle ∨ ∃ result, state.phase task = .returned result

/-- The call has returned `Ok`. -/
def succeeded (state : State Task) (task : Task) : Bool :=
  match state.phase task with
  | .returned (.ok ()) => true
  | _ => false

variable [DecidableEq Task]

def setPhase (state : State Task) (task : Task) (phase : Phase) : State Task :=
  { state with phase := Function.update state.phase task phase }

theorem setPhase_self (state : State Task) (task : Task) (phase : Phase) :
    (state.setPhase task phase).phase task = phase := Function.update_self ..

theorem setPhase_other (state : State Task) {task other : Task} (phase : Phase)
    (different : other ≠ task) : (state.setPhase task phase).phase other = state.phase other :=
  Function.update_of_ne different ..

def stage (state : State Task) (task : Task) (patch : Mapping) : State Task :=
  { state.setPhase task .staged with
    slot := state.slot.editDraft (patchClashConfig · patch) }

def commit (state : State Task) (task : Task) : State Task :=
  { state.setPhase task .committed with
    slot := state.slot.apply
    commits := state.commits ++ [task] }

end State

/-- The patches of the listed calls, applied in order. -/
def replay (command : Task → Command) (data : Mapping) (tasks : List Task) : Mapping :=
  tasks.foldl (fun config task => patchClashConfig config (command task).patch) data

section

variable [DecidableEq Task]

/-- One step of a call, up to the next one that another call can come between. -/
def step (command : Task → Command) (state : State Task) : Action Task → Option (State Task)
  | .patchBaseConfig task result =>
    match command task, state.phase task, result with
    | .changeClashMode _, .idle, .ok () => some (state.setPhase task .corePatched)
    | .changeClashMode _, .idle, .error error =>
      some (state.setPhase task (.returned (.error error)))
    | _, _, _ => none
  | .editDraft task =>
    match command task, state.phase task with
    | .patchClash patch, .idle => some (state.stage task patch)
    | .changeClashMode mode, .corePatched =>
      some (state.stage task (Command.changeClashMode mode).patch)
    | _, _ => none
  | .effects task effects =>
    match command task, state.phase task with
    | .patchClash patch, .staged =>
      match patchClashEffects patch effects with
      | .error error => some (state.setPhase task (.returned (.error error)))
      | .ok res => some (state.setPhase task (.settled res))
    | _, _ => none
  | .apply task =>
    match command task, state.phase task with
    | .patchClash _, .settled (.ok ()) => some (state.commit task)
    | .changeClashMode _, .staged => some (state.commit task)
    | _, _ => none
  | .discard task =>
    match command task, state.phase task with
    | .patchClash _, .settled (.error error) =>
      some { state.setPhase task (.returned (.error error)) with slot := state.slot.discard }
    | _, _ => none
  | .saveConfig task result =>
    match command task, state.phase task with
    | .patchClash _, .committed => some (state.setPhase task (.returned result))
    | .changeClashMode _, .committed => some (state.setPhase task (.returned (.ok ())))
    | _, _ => none

end

/-- The committed configuration is the initial one with the patches of the calls that returned `Ok`,
in the order of their commits. -/
structure Exact (command : Task → Command) (data : Mapping) (state : State Task) : Prop where
  committed : state.slot.data = replay command data (state.commits.filter state.succeeded)
  once : state.commits.Nodup
  complete : ∀ task, state.succeeded task = true → task ∈ state.commits

/-- A call stages only while the slot is empty, and `patch_clash` does not fail to write what it
has committed. -/
def Alone (command : Task → Command) (state : State Task) : Action Task → Prop
  | .editDraft _ => state.slot.draft = none
  | .saveConfig task result =>
    match command task with
    | .patchClash _ => result.isOk = true
    | .changeClashMode _ => True
  | _ => True

instance (command : Task → Command) (state : State Task) (action : Action Task) :
    Decidable (Alone command state action) := by
  unfold Alone
  split
  · infer_instance
  · split <;> infer_instance
  · infer_instance

/-- The draft belongs to the call, and the call may still commit it. -/
def Phase.holds : Phase → Bool
  | .staged => true
  | .settled _ => true
  | _ => false

def Phase.past : Phase → Bool
  | .committed => true
  | .returned (.ok ()) => true
  | _ => false

/-- Every commit so far was of the committing call's own patch, and a call that holds the draft
finds its own patch there. -/
structure Serial (command : Task → Command) (data : Mapping) (state : State Task) : Prop where
  committed : state.slot.data = replay command data state.commits
  once : state.commits.Nodup
  past : ∀ task, task ∈ state.commits ↔ (state.phase task).past = true
  holder : ∀ task, (state.phase task).holds = true →
    state.slot.draft = some (patchClashConfig state.slot.data (command task).patch)
  single : ∀ task other, (state.phase task).holds = true → (state.phase other).holds = true →
    task = other

section

variable {command : Task → Command} {data : Mapping}

theorem serial_new : Serial command data (State.new data) where
  committed := rfl
  once := List.nodup_nil
  past task := by simp [State.new, Phase.past]
  holder task holds := by contradiction
  single task other holds := by contradiction

variable {state : State Task}

theorem Serial.exact (serial : Serial command data state)
    (quiescent : state.Quiescent) : Exact command data state := by
  have succeeded : ∀ task, state.succeeded task = true ↔ task ∈ state.commits := by
    intro task
    rw [serial.past task]
    obtain idle | ⟨result, returned⟩ := quiescent task
    · simp [State.succeeded, Phase.past, idle]
    · cases result <;> simp [State.succeeded, Phase.past, returned]
  refine ⟨?_, serial.once, fun task => (succeeded task).mp⟩
  rw [List.filter_eq_self.mpr fun task member => (succeeded task).mpr member]
  exact serial.committed

variable [DecidableEq Task]

section

variable (old : Serial command data state)
include old

/-- A step that leaves the slot alone keeps the calls apart if it lets nobody commit or hold the
draft who did not before. -/
theorem Serial.setPhase {task : Task} {phase : Phase} (past : phase.past = (state.phase task).past)
    (holds : phase.holds = true → (state.phase task).holds = true) :
    Serial command data (state.setPhase task phase) := by
  have before : ∀ other, ((state.setPhase task phase).phase other).holds = true →
      (state.phase other).holds = true := by
    intro other held
    by_cases same : other = task
    · subst same
      rw [State.setPhase_self] at held
      exact holds held
    · rwa [State.setPhase_other _ _ same] at held
  refine ⟨old.committed, old.once, fun other => ?_, fun other held => old.holder other (before _ held),
    fun _ _ first second => old.single _ _ (before _ first) (before _ second)⟩
  refine (old.past other).trans ?_
  by_cases same : other = task
  · subst same
    rw [State.setPhase_self, past]
  · rw [State.setPhase_other _ _ same]

theorem Serial.stage (task : Task)
    (fresh : (state.phase task).past = false) (empty : state.slot.draft = none) :
    Serial command data (state.stage task (command task).patch) := by
  have nobody : ∀ other, (state.phase other).holds ≠ true := by
    intro other holds
    rw [old.holder other holds] at empty
    contradiction
  have only : ∀ other, ((state.stage task (command task).patch).phase other).holds = true →
      other = task := by
    intro other held
    by_contra different
    refine nobody other ?_
    rw [← state.setPhase_other .staged different]
    exact held
  refine ⟨old.committed, old.once, fun other => ?_, fun other held => ?_,
    fun first second one two => (only first one).trans (only second two).symm⟩
  · refine (old.past other).trans ?_
    by_cases same : other = task
    · subst same
      rw [fresh, State.stage, State.setPhase_self]
      rfl
    · rw [State.stage, State.setPhase_other _ _ same]
  · obtain rfl := only other held
    rw [State.stage, Slot.editDraft_draft, Slot.editDraft_data, Slot.latest_of_draft_none empty]

theorem Serial.commit {task : Task}
    (holds : (state.phase task).holds = true) (fresh : (state.phase task).past = false) :
    Serial command data (state.commit task) := by
  have mine := old.holder task holds
  have nobody : ∀ other, ((state.setPhase task .committed).phase other).holds ≠ true := by
    intro other held
    by_cases same : other = task
    · subst same
      rw [State.setPhase_self] at held
      contradiction
    · rw [State.setPhase_other _ _ same] at held
      exact same (old.single other task held holds)
  have new : task ∉ state.commits := by
    rw [old.past task, fresh]
    decide
  refine ⟨?_, ?_, fun other => ?_, fun other held => absurd held (nobody other),
    fun other _ held => absurd held (nobody other)⟩
  · rw [State.commit, Slot.apply_data, Slot.latest, mine, Option.getD_some, old.committed]
    simp [replay]
  · rw [State.commit, ← List.concat_eq_append]
    exact old.once.concat new
  · rw [State.commit, List.mem_append, List.mem_singleton, old.past other]
    by_cases same : other = task
    · subst same
      rw [State.setPhase_self]
      simp [Phase.past]
    · rw [State.setPhase_other _ _ same]
      simp [same]

theorem Serial.discard {task : Task}
    (holds : (state.phase task).holds = true) (fresh : (state.phase task).past = false)
    (error : String) :
    Serial command data { state.setPhase task (.returned (.error error)) with
      slot := state.slot.discard } := by
  have left : Serial command data (state.setPhase task (.returned (.error error))) :=
    old.setPhase fresh.symm (by simp [Phase.holds])
  have nobody : ∀ other,
      ((state.setPhase task (.returned (.error error))).phase other).holds ≠ true := by
    intro other held
    by_cases same : other = task
    · subst same
      rw [State.setPhase_self] at held
      contradiction
    · rw [State.setPhase_other _ _ same] at held
      exact same (old.single other task held holds)
  exact ⟨left.committed, left.once, left.past, fun other held => absurd held (nobody other),
    left.single⟩

end

theorem serial_step {state next : State Task} {action : Action Task}
    (old : Serial command data state) (alone : Alone command state action)
    (taken : step command state action = some next) : Serial command data next := by
  cases action with simp only [step] at taken
  | patchBaseConfig task result =>
    split at taken
    · rename_i runs idle
      cases taken
      exact old.setPhase (by rw [idle]; rfl) (by simp [Phase.holds])
    · rename_i runs idle
      cases taken
      exact old.setPhase (by rw [idle]; rfl) (by simp [Phase.holds])
    · contradiction
  | editDraft task =>
    split at taken
    · rename_i patch runs idle
      cases taken
      have staged := old.stage task (by rw [idle]; rfl) alone
      rwa [runs] at staged
    · rename_i mode runs ready
      cases taken
      have staged := old.stage task (by rw [ready]; rfl) alone
      rwa [runs] at staged
    · contradiction
  | effects task effects =>
    split at taken
    · rename_i patch runs staged
      split at taken
      · cases taken
        exact old.setPhase (by rw [staged]; rfl) (by simp [Phase.holds])
      · cases taken
        exact old.setPhase (by rw [staged]; rfl) (fun _ => by rw [staged]; rfl)
    · contradiction
  | apply task =>
    split at taken
    · rename_i patch runs ready
      cases taken
      exact old.commit (by rw [ready]; rfl) (by rw [ready]; rfl)
    · rename_i mode runs ready
      cases taken
      exact old.commit (by rw [ready]; rfl) (by rw [ready]; rfl)
    · contradiction
  | discard task =>
    split at taken
    · rename_i patch error runs ready
      cases taken
      exact old.discard (by rw [ready]; rfl) (by rw [ready]; rfl) error
    · contradiction
  | saveConfig task result =>
    split at taken
    · rename_i patch runs ready
      cases taken
      simp only [Alone, runs] at alone
      cases result with
      | ok done => exact old.setPhase (by rw [ready]; rfl) (by simp [Phase.holds])
      | error error => contradiction
    · rename_i mode runs ready
      cases taken
      exact old.setPhase (by rw [ready]; rfl) (by simp [Phase.holds])
    · contradiction

/-- Where each call stages into an empty slot and none fails after its commit, the committed
configuration is exactly what the successful calls made of it. -/
theorem commands_exact {actions : List (Action Task)} {state : State Task}
    (alone : Meets (step command) (Alone command) (State.new data) actions)
    (ran : run (step command) (State.new data) actions = some state)
    (quiescent : state.Quiescent) : Exact command data state :=
  (run_invariant_of_meets (Serial command data)
    (fun _ _ _ old met taken => serial_step old met taken) serial_new alone ran).exact quiescent

end

def twoCalls : Bool → Command
  | false => .patchClash [(.string "log-level", .string "debug")]
  | true => .changeClashMode "global"

def ruleConfig : Mapping :=
  [(.string "mode", .string "rule"), (.string "log-level", .string "info")]

/-- The mode is changed once the patch has been committed. -/
def inTurn : List (Action Bool) :=
  [.editDraft false, .effects false ⟨.ok (), .ok (), .ok ()⟩, .apply false, .saveConfig false (.ok ()),
    .patchBaseConfig true (.ok ()), .editDraft true, .apply true, .saveConfig true (.ok ())]

theorem commands_exact_in_turn :
    Meets (step twoCalls) (Alone twoCalls) (State.new ruleConfig) inTurn ∧
      ∃ state, run (step twoCalls) (State.new ruleConfig) inTurn = some state ∧
        state.Quiescent ∧ Exact twoCalls ruleConfig state := by
  have alone : Meets (step twoCalls) (Alone twoCalls) (State.new ruleConfig) inTurn := by decide
  have quiescent : ∃ state, run (step twoCalls) (State.new ruleConfig) inTurn = some state ∧
      state.Quiescent := by
    refine ⟨_, rfl, fun task => .inr ⟨.ok (), ?_⟩⟩
    cases task <;> rfl
  obtain ⟨state, ran, quiescent⟩ := quiescent
  exact ⟨alone, state, ran, quiescent, commands_exact alone ran quiescent⟩

/-- The mode change commits the patch that is staged, and the effects of that patch then fail. -/
theorem rejected_patch_committed :
    ¬ ∀ (command : Bool → Command) (data : Mapping) (actions : List (Action Bool))
      (state : State Bool), run (step command) (State.new data) actions = some state →
        state.Quiescent → Exact command data state := by
  intro all
  have ran : ∃ state, run (step twoCalls) (State.new ruleConfig) [.editDraft false,
      .patchBaseConfig true (.ok ()), .editDraft true, .apply true, .saveConfig true (.ok ()),
      .effects false ⟨.ok (), .ok (), .error "busy"⟩] = some state ∧ state.Quiescent ∧
      state.slot.data = [(.string "mode", .string "global"), (.string "log-level", .string "debug")] ∧
      state.commits.filter state.succeeded = [true] := by
    refine ⟨_, rfl, fun task => .inr ?_, by decide, by decide⟩
    cases task
    · exact ⟨.error "busy", rfl⟩
    · exact ⟨.ok (), rfl⟩
  obtain ⟨state, ran, quiescent, committed, accepted⟩ := ran
  have exact_ := (all _ _ _ state ran quiescent).committed
  rw [committed, accepted] at exact_
  revert exact_
  decide

end ClashVerge.Config.Commands
