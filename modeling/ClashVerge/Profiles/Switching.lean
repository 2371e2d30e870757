import ClashVerge.Profiles.Failure

/-!
# Profile switches while the application proxy runs

Any number of tasks run the commands that can move the current profile or load another one into the
core: `patch_profiles_config`, `delete_profile` and `update_profile`. Beside them `AppProxyManager`
starts and stops the helper. A command holds meanwhile `PROFILE_WRITE_LOCK`, the permit of the
configuration updates and the permit of `with_data_modify`.

A configuration is known here by the profile it was generated for. `applied` lists those the core
has taken. Whether an update ends well, and whether the core has taken its configuration by then, is
left to the run.

`patch_profiles_config` asks once whether the application proxy runs. `delete_profile` does not ask.
-/

namespace ClashVerge.Profiles.Switching

open ClashVerge.Draft ClashVerge.Verge Transition

variable {Task : Type}

/-- The command a configuration update belongs to, with what the command needs when it ends. -/
inductive Purpose where
  | switch (target previous : Option String)
  | delete (uid : String) (candidate : Option String)
  /-- `restore_profile_config`, after the update of a deletion failed. -/
  | revert (uid : String) (candidate : Option String) (error : String)
  | refresh

/-- Where the command of a task stands. -/
inductive Stage where
  | idle
  /-- `ensure_profile_switch_allowed` has passed. -/
  | allowed (target : Option String)
  /-- `CURRENT_SWITCHING_PROFILE` is set and `PROFILE_WRITE_LOCK` is awaited. -/
  | claimed (target : Option String)
  | locked (target : Option String)
  | staging (target previous : Option String)
  | staged (target previous : Option String)
  /-- The configuration is generated and the update is under way. -/
  | configuring (purpose : Purpose) (profile : Option String)
  | succeeded (target : Option String)
  | committing (current : String)
  /-- In the `with_data_modify` of `commit_current_profile`. -/
  | activating (current : String)
  | failed (target previous : Option String)
  | restoring (previous : String)
  | restored (previous : String)
  | leaving
  | deletion (uid : String)
  | deletionLocked (uid : String)
  /-- In the `with_data_modify` of `delete_profile`, which plans once its body begins. -/
  | deleting (uid : String)
  /-- The current profile goes, so the core has to be updated first. -/
  | planned (uid : String) (candidate : Option String)
  /-- The body is about to end. `saved` says that the update has saved the candidate. -/
  | decided (uid : String) (forced : ForcedUpdate) (candidate : Option String) (saved : Bool)
  | removed (forced : ForcedUpdate) (candidate : Option String)
  | deleted
  | downloaded (uid : String) (item : PrfItem)
  /-- In the `with_data_modify` of `profiles_update_item_safe`. -/
  | persisting (uid : String) (item : PrfItem)
  | updated (uid : String) (persisted : Bool)
  | refreshing

structure State (Task : Type) where
  store : Failure.State Task
  stage : Task → Stage
  profileWriteLock : Option Task
  currentSwitchingProfile : Bool
  /-- The task whose configuration update is let in. -/
  configUpdate : Option Task
  helper : Bool
  /-- `stop_inner` has taken the helper and holds the rules lock. -/
  stopping : Bool
  appProxyRunning : Bool
  /-- The profiles whose configurations the core has taken, the last one first. -/
  applied : List (Option String)

inductive Action (Task : Type) where
  | patchProfilesConfig (task : Task) (target : Option String)
  | claim (task : Task)
  | lock (task : Task)
  | readPrevious (task : Task)
  | stage (task : Task) (address : Nat)
  | deleteProfile (task : Task) (uid : String)
  | plan (task : Task)
  | updateProfile (task : Task) (uid : String) (item : Option PrfItem)
  | checkCurrent (task : Task) (manual : Bool)
  /-- The update is let in and generates its configuration. -/
  | begin (task : Task)
  | refuse (task : Task) (outcome : Config.ValidationOutcome)
  | take (task : Task)
  | conclude (task : Task) (result : Except String Config.ValidationOutcome)
  | discard (task : Task)
  | restage (task : Task) (address : Nat)
  | publish (task : Task)
  | call (task : Task)
  | finish (task : Task) (write : WriteOutcome) (save : Except String Unit)
      (removable : String → Bool)
  /-- A step inside a call of `with_data_modify`. -/
  | modify (action : Modify.Action Task IProfiles String (Except String Unit))
  | returned (task : Task)
  | leave (task : Task)
  /-- The end of `start_inner` that sets `APP_PROXY_RUNNING`. -/
  | startHelper
  | takeHelper
  | storeStopped
  /-- `status` finds the helper's process dead. -/
  | helperDied

def Action.patchProfilesConfigByProfileIndex (task : Task) (profileIndex : String) : Action Task :=
  .patchProfilesConfig task (some profileIndex)

def State.new (store : IProfiles) (disk : Disk) : State Task where
  store := Failure.State.new store disk
  stage := fun _ => .idle
  profileWriteLock := none
  currentSwitchingProfile := false
  configUpdate := none
  helper := false
  stopping := false
  appProxyRunning := false
  applied := []

def State.current (state : State Task) : Option String :=
  state.store.core.data.committed.value.current

/-- The current profile as `latest_arc` shows it. -/
def State.latest (state : State Task) : Option String :=
  state.store.core.data.latestArc.value.current

/-- The steps a call of `with_data_modify` takes beside its start and the end of its body. -/
def InCall : Modify.Action Task IProfiles String (Except String Unit) → Bool
  | .acquire _ | .resume _ | .poll _ | .snapshot _ | .commit _ _ | .release _ | .notify _ => true
  | _ => false

section

variable [DecidableEq Task] [Fintype Task]

def State.enter (state : State Task) (task : Task) (stage : Stage) : State Task :=
  { state with stage := Function.update state.stage task stage }

def State.advance (os : Os) (state : State Task) (task : Task) (stage : Stage)
    (action : Failure.Action Task) : Option (State Task) :=
  (Failure.step os state.store action).map fun store =>
    { state with store := store }.enter task stage

def endsValid : Except String Config.ValidationOutcome → Bool
  | .ok outcome => outcome.isValid
  | .error _ => false

/-- The end of a configuration update. A deletion keeps the permit when it goes on to its commit or
restores the configuration. -/
def State.conclude (state : State Task) (task : Task)
    (result : Except String Config.ValidationOutcome) : Purpose → Option (State Task)
  | .switch target previous =>
    some ({ state with configUpdate := none }.enter task
      (if endsValid result then .succeeded target else .failed target previous))
  | .delete uid candidate =>
    match result, state.store.core.phase task with
    | .ok outcome, _ =>
      if outcome.isValid then some (state.enter task (.decided uid .applied candidate true))
      else some ({ state with configUpdate := none }.enter task
        (.decided uid (.refused outcome) candidate true))
    | .error error, .running original =>
      some (state.enter task (.configuring (.revert uid candidate error) original.value.current))
    | _, _ => none
  | .revert uid candidate error =>
    some ({ state with configUpdate := none }.enter task
      (.decided uid (.failed error) candidate true))
  | .refresh => some ({ state with configUpdate := none }.enter task .idle)

/-- One step of a command, of a `with_data_modify` call or of the manager. -/
def step (os : Os) (state : State Task) : Action Task → Option (State Task)
  | .patchProfilesConfig task target =>
    match state.stage task with
    | .idle => some (if state.appProxyRunning then state else state.enter task (.allowed target))
    | _ => none
  | .claim task =>
    match state.stage task with
    | .allowed target =>
      some (if state.currentSwitchingProfile then state.enter task .idle
        else { state with currentSwitchingProfile := true }.enter task (.claimed target))
    | _ => none
  | .lock task =>
    if state.profileWriteLock.isSome then none
    else match state.stage task with
    | .claimed target =>
      some ({ state with profileWriteLock := some task }.enter task (.locked target))
    | .deletion uid =>
      some ({ state with profileWriteLock := some task }.enter task (.deletionLocked uid))
    | _ => none
  | .readPrevious task =>
    match state.stage task with
    | .locked target => some (state.enter task (.staging target state.current))
    | _ => none
  | .stage task address =>
    match state.stage task with
    | .staging target previous => state.advance os task (.staged target previous)
        (.other (.editDraft (·.patchConfig ⟨target, none⟩) address))
    | _ => none
  | .deleteProfile task uid =>
    match state.stage task with
    | .idle => some (state.enter task (.deletion uid))
    | _ => none
  | .plan task =>
    match state.stage task, state.store.core.phase task with
    | .deleting uid, .running original =>
      match original.value.planDeleteItem uid with
      | .error error => some (state.enter task (.decided uid (.failed error) none true))
      | .ok (shouldUpdate, _, candidate) =>
        some (state.enter task (if shouldUpdate then .planned uid candidate.current
          else .decided uid .applied candidate.current false))
    | _, _ => none
  | .updateProfile task uid item =>
    match state.stage task with
    | .idle => some (state.enter task (match item with
      | some item => .downloaded uid item
      | none => .updated uid false))
    | _ => none
  | .checkCurrent task manual =>
    match state.stage task with
    | .updated uid persisted =>
      some (state.enter task
        (if state.latest = some uid ∨ (!persisted && manual) then .refreshing else .idle))
    | _ => none
  | .begin task =>
    if state.configUpdate.isSome then none
    else match state.stage task with
    | .staged target previous => some ({ state with configUpdate := some task }.enter task
        (.configuring (.switch target previous) state.latest))
    | .planned uid candidate => some ({ state with configUpdate := some task }.enter task
        (.configuring (.delete uid candidate) candidate))
    | .refreshing => some ({ state with configUpdate := some task }.enter task
        (.configuring .refresh state.latest))
    | _ => none
  | .refuse task outcome =>
    match state.stage task with
    | .staged target previous => some (state.enter task (.failed target previous))
    | .planned uid candidate =>
      some (state.enter task (.decided uid (.refused outcome) candidate true))
    | .refreshing => some (state.enter task .idle)
    | _ => none
  | .take task =>
    match state.stage task with
    | .configuring _ profile => some { state with applied := profile :: state.applied }
    | _ => none
  | .conclude task result =>
    match state.stage task with
    | .configuring purpose _ => state.conclude task result purpose
    | _ => none
  | .discard task =>
    match state.stage task with
    | .succeeded target => state.advance os task (match target with
        | some current => .committing current
        | none => .leaving) (.other .discard)
    | .failed _ previous => state.advance os task (match previous with
        | some previous => .restoring previous
        | none => .leaving) (.other .discard)
    | _ => none
  | .restage task address =>
    match state.stage task with
    | .restoring previous => state.advance os task (.restored previous)
        (.other (.editDraft (·.patchConfig ⟨some previous, none⟩) address))
    | _ => none
  | .publish task =>
    match state.stage task with
    | .restored _ => state.advance os task .leaving (.other .apply)
    | _ => none
  | .call task =>
    match state.stage task with
    | .committing current => state.advance os task (.activating current) (.other (.start task))
    | .deletionLocked uid => state.advance os task (.deleting uid) (.other (.start task))
    | .downloaded uid item => state.advance os task (.persisting uid item) (.other (.start task))
    | _ => none
  | .finish task write save removable =>
    match state.stage task with
    | .activating current =>
      state.advance os task (.activating current) (.finish task (.activate current))
    | .decided uid forced candidate saved => state.advance os task (.removed forced candidate)
        (.finish task (.delete uid forced (if saved then .ok () else save) removable))
    | .persisting uid item => state.advance os task (.persisting uid item)
        (.finish task (.update uid item write save))
    | _ => none
  | .modify action =>
    if InCall action then
      (Failure.step os state.store (.other action)).map ({ state with store := · })
    else none
  | .returned task =>
    match state.stage task, state.store.core.phase task with
    | .activating _, .returned _ => some (state.enter task .leaving)
    | .removed _ _, .returned _ => some (state.enter task .deleted)
    | .persisting uid _, .returned outcome => some (state.enter task (match outcome with
      | .ok _ => .updated uid true
      | _ => .idle))
    | _, _ => none
  | .leave task =>
    match state.stage task with
    | .leaving => some ({ state with
        currentSwitchingProfile := false
        profileWriteLock := none }.enter task .idle)
    | .deleted => some ({ state with
        configUpdate := if state.configUpdate = some task then none else state.configUpdate
        profileWriteLock := none }.enter task .idle)
    | _ => none
  | .startHelper =>
    if state.helper || state.stopping then none
    else some { state with helper := true, appProxyRunning := true }
  | .takeHelper =>
    if state.stopping then none else some { state with helper := false, stopping := true }
  | .storeStopped =>
    if state.stopping then some { state with stopping := false, appProxyRunning := false } else none
  | .helperDied =>
    if state.helper then some { state with helper := false, appProxyRunning := false } else none

/-- While the application proxy runs, a step leaves the committed current profile as it is and
applies no other profile's configuration. -/
def Untouched (os : Os) (state : State Task) (action : Action Task) : Prop :=
  state.appProxyRunning = true → ∀ next, step os state action = some next →
    next.current = state.current ∧
      (next.applied = state.applied ∨ next.applied = state.current :: state.applied)

end

/-- The update leaves the current profile where it is. -/
def Purpose.Keeps (current : Option String) : Purpose → Prop
  | .switch target _ => target = none ∨ target = current
  | .delete _ candidate => candidate = current
  | .revert _ _ _ | .refresh => True

/-- Ended this way, the command neither commits nor loads another profile than the current one. A
switch whose update has failed counts until it has discarded its draft. -/
def Stage.Keeps (current : Option String) : Stage → Prop
  | allowed target | claimed target | locked target | staging target _ | staged target _
  | succeeded target | failed target _ => target = none ∨ target = current
  | committing target | activating target => some target = current
  | planned _ candidate | decided _ .applied candidate _ | removed .applied candidate =>
    candidate = current
  | configuring purpose profile => profile = current ∧ purpose.Keeps current
  | _ => True

instance (current : Option String) : (purpose : Purpose) → Decidable (purpose.Keeps current)
  | .switch target _ => inferInstanceAs (Decidable (target = none ∨ target = current))
  | .delete _ candidate => inferInstanceAs (Decidable (candidate = current))
  | .revert _ _ _ | .refresh => inferInstanceAs (Decidable True)

instance (current : Option String) : (stage : Stage) → Decidable (stage.Keeps current)
  | .allowed target | .claimed target | .locked target | .staging target _ | .staged target _
  | .succeeded target | .failed target _ =>
    inferInstanceAs (Decidable (target = none ∨ target = current))
  | .committing target | .activating target => inferInstanceAs (Decidable (some target = current))
  | .planned _ candidate | .decided _ .applied candidate _ | .removed .applied candidate =>
    inferInstanceAs (Decidable (candidate = current))
  | .configuring purpose profile =>
    inferInstanceAs (Decidable (profile = current ∧ purpose.Keeps current))
  | .decided _ (.refused _) _ _ | .decided _ (.failed _) _ _ | .removed (.refused _) _
  | .removed (.failed _) _ | .idle | .restoring _ | .restored _ | .leaving | .deletion _
  | .deletionLocked _ | .deleting _ | .deleted | .downloaded _ _ | .persisting _ _ | .updated _ _
  | .refreshing => inferInstanceAs (Decidable True)

/-- The deletion whose body is about to plan leaves the current profile alone. -/
def PlanKeeps (state : State Task) (task : Task) : Prop :=
  match state.stage task, state.store.core.phase task with
  | .deleting uid, .running original =>
    match original.value.planDeleteItem uid with
    | .ok (_, _, candidate) => candidate.current = original.value.current
    | .error _ => True
  | _, _ => True

instance (state : State Task) (task : Task) : Decidable (PlanKeeps state task) := by
  unfold PlanKeeps
  split
  · split <;> infer_instance
  · infer_instance

/-- `APP_PROXY_RUNNING` is set only when no command under way is about to change the profile, and no
deletion that moves the current profile is planned while it is set. -/
def Guarded (state : State Task) : Action Task → Prop
  | .startHelper => ∀ task, (state.stage task).Keeps state.current
  | .plan task => state.appProxyRunning = true → PlanKeeps state task
  | _ => True

instance [Fintype Task] (state : State Task) (action : Action Task) :
    Decidable (Guarded state action) := by
  unfold Guarded
  split <;> infer_instance

/-- The stages between `PROFILE_WRITE_LOCK` and its release. -/
def Stage.Locked : Stage → Prop
  | locked _ | staging _ _ | staged _ _ | configuring (.switch _ _) _ | succeeded _ | committing _
  | activating _ | failed _ _ | restoring _ | restored _ | leaving
  | deletionLocked _ | deleting _ | planned _ _ | configuring (.delete _ _) _
  | configuring (.revert _ _ _) _ | decided _ _ _ _ | removed _ _ | deleted => True
  | _ => False

/-- The profile a switch goes back to. -/
def Stage.previous : Stage → Option (Option String)
  | staging _ previous | staged _ previous | configuring (.switch _ previous) _
  | failed _ previous => some previous
  | restoring previous | restored previous => some (some previous)
  | _ => none

def Stage.edits : Stage → Option (Option String)
  | staged target _ | configuring (.switch target _) _ | succeeded target | failed target _ =>
    some target
  | restored previous => some (some previous)
  | _ => none

/-- The current profile that the command's own commit sets. -/
def Stage.commits : Stage → Option (Option String)
  | activating current => some (some current)
  | removed .applied candidate => some candidate
  | _ => none

/-- A deletion whose body runs on a plan of its snapshot. -/
def Stage.Planning : Stage → Prop
  | planned _ _ | configuring (.delete _ _) _ | configuring (.revert _ _ _) _ | decided _ _ _ _ =>
    True
  | _ => False

/-- What the stage of such a deletion says about the plan: its candidate, and whether it needs the
update. -/
def Stage.Plans (stage : Stage) (original : IProfiles) : Prop :=
  match stage with
  | planned uid candidate | configuring (.delete uid candidate) _
  | configuring (.revert uid candidate _) _ => ∀ plan, original.planDeleteItem uid = .ok plan →
      plan.2.2.current = candidate ∧ plan.1 = true
  | decided uid forced candidate _ => ∀ plan, original.planDeleteItem uid = .ok plan →
      plan.2.2.current = candidate ∧ (plan.1 = false → forced = .applied)
  | _ => True

end ClashVerge.Profiles.Switching
