import ClashVerge.Config.Clash
import ClashVerge.Config.VergePatch

/-!
# Does the runtime layer describe what the core runs?

An update commits what the core has taken; a restart path stages a configuration and restarts the
core from it, and commits nothing. The committed runtime configuration is the one the core runs
exactly as long as no restart path leaves a core running, unless an update of the same command
follows, and no update starts a core on anything but what it commits.
-/

namespace ClashVerge.Config

open ClashVerge.Draft ClashVerge.Verge ClashVerge.Yaml

structure RunState where
  tunCapable : Bool
  healthUnknown : Bool
  opInFlight : Bool
  serviceNeedsAttention : Bool

def RunState.tunShouldBeDisabled (state : RunState) (tunEnabled : Bool) : Bool :=
  if !tunEnabled || state.tunCapable then false
  else !state.healthUnknown && !state.opInFlight && !state.serviceNeedsAttention

/-- A call of `patch_verge`, and what the reconciliation of TUN meets that may follow the patch. -/
structure PatchVergeCall where
  patch : VergeCall
  writesDisabled : Bool
  runState : RunState
  disable : PatchEffects
  disableSaved : Except String Unit

/-- The text of the refusal to change the system proxy. -/
def readOnlySystemProxy : String :=
  "System proxy control is read-only for this explicitly isolated instance; existing Windows " ++
    "proxy settings are preserved."

namespace World

variable (world : World)

/-- The test of `reconcile_tun_availability`: a core runs, and TUN is on and cannot work. -/
def reconciles (runState : RunState) : Bool :=
  let enableTunMode : Option Bool := world.verge.data .enableTunMode
  world.core.isRunning && runState.tunShouldBeDisabled (enableTunMode.getD false)

/-- The patch with which `reconcile_tun_availability` turns TUN off. -/
def disableTun (effects : PatchEffects) (saved : Except String Unit) : VergeCall where
  patch := IVerge.default.set .enableTunMode false
  notSaveFile := false
  effects := effects
  saved := saved

def reconcileTunAvailability (runState : RunState) (effects : PatchEffects)
    (saved : Except String Unit) : World :=
  if world.reconciles runState then (world.applyVergePatchLocked (disableTun effects saved)).2
  else world

def patchVerge (call : PatchVergeCall) : Outcome Unit :=
  if (call.patch.patch .enableSystemProxy).isSome && call.writesDisabled then
    (.error readOnlySystemProxy, world)
  else
    match world.applyVergePatchLocked call.patch with
    | (.error error, left) => (.error error, left)
    | (.ok (), left) =>
      if (call.patch.patch .enableTunMode).isSome then
        (.ok (), left.reconcileTunAvailability call.runState call.disable call.disableSaved)
      else (.ok (), left)

end World

/-- A command that reaches the runtime configuration. -/
inductive Call where
  | patchVerge (call : PatchVergeCall)
  | patchClash (call : ClashCall)
  | updateConfig (force debounced : Bool) (update : Update)
  | updateRuntimeConfig (edit : Mapping → Mapping) (update : Update)

/-- The world once a command has returned. -/
def World.after (world : World) : Call → World
  | .patchVerge call => (world.patchVerge call).2
  | .patchClash call => (world.patchClash call).2
  | .updateConfig force debounced update => (world.updateConfigWithForce force debounced update).2
  | .updateRuntimeConfig edit update => (world.updateRuntimeConfig edit update).2

def World.afterStep (world : World) (call : Call) : Option World := some (world.after call)

def Core.config : Core → Option Mapping
  | notRunning => none
  | running _ loaded => some loaded.config

/-- When a core runs, the committed runtime configuration is what it runs, and nothing is staged. -/
def Synced (world : World) : Prop :=
  ∀ config ∈ world.core.config,
    world.runtime.data.config = some config ∧ world.runtime.draft = none

def StagedConfig (world : World) : Prop := ∀ draft ∈ world.runtime.draft, draft.config.isSome

/-- A core that is started is started from what is committed afterwards, and a core that is kept ran
it before. -/
def Fate.agrees (fate : Fate) (world : World) (commits : Bool) (config : Mapping) : Prop :=
  match fate with
  | .kept => ∀ running ∈ world.core.config, world.runtime.data.config = some running
  | .started mode =>
    (if commits then some config else world.runtime.data.config) = some (world.launch mode config)
  | .stopped | .reloaded => True

def Update.agrees (update : Update) (world : World) : Prop :=
  (update.wholeFate world).agrees world (update.commits world) (update.loaded world).config

def Fate.leavesRunning (core : Core) : Fate → Bool
  | kept | reloaded => core.isRunning
  | stopped => false
  | started _ => true

/-- The condition on a restart path that no update follows: where it stages a configuration, it
leaves no core running. -/
def Restart.agrees (restart : Restart) (world : World) : Prop :=
  restart.generated.isOk = true → (restart.fate world).leavesRunning world.core = false

/-- The condition on the effects of a patch: an update that is let in decides, and otherwise the
restart. -/
def PatchEffects.agrees (effects : PatchEffects) (flags : UpdateFlags) (world : World) : Prop :=
  if effects.restarts flags world = true ∧ .clashConfig ∈ flags ∧ world.admits = true then
    effects.update.agrees (effects.afterRestart flags world)
  else .restartCore ∈ flags → effects.restart.agrees world

def VergeCall.agrees (call : VergeCall) (world : World) : Prop :=
  world.vergeClaimed = false →
    call.effects.agrees (determineUpdateFlags world.os call.patch) (world.stageVerge call.patch)

/-- The condition on `patch_verge`. Where TUN is reconciled, the update that turns it off decides,
in the world the patch leaves. -/
def PatchVergeCall.agrees (call : PatchVergeCall) (world : World) : Prop :=
  let patched := world.applyVergePatchLocked call.patch
  if (call.patch.patch .enableSystemProxy).isSome && call.writesDisabled then True
  else if patched.1.isOk && (call.patch.patch .enableTunMode).isSome &&
      patched.2.reconciles call.runState then
    call.disable.update.agrees patched.2
  else call.patch.agrees world

def ClashCall.agrees (call : ClashCall) (world : World) : Prop :=
  if call.restarts then call.restart.agrees world
  else world.admits = true → call.update.agrees world

/-- The condition on an edit of the runtime configuration that finds one to edit. -/
def Update.agreesOnEdit (update : Update) (edit : Mapping → Mapping) (world : World) : Prop :=
  world.configUpdateInProgress = false → world.runtimeClaimed = false →
    ∀ config ∈ world.runtime.latest.config,
      (update.fate world.core world.exiting).agrees world
        (update.applies world.core world.exiting) (edit config)

/-- The condition on a command, in the world it is given in. -/
def Call.agrees (call : Call) (world : World) : Prop :=
  match call with
  | .patchVerge call => call.agrees world
  | .patchClash call => call.agrees world
  | .updateConfig force debounced update =>
    world.admits = true → (force || !debounced) = true → update.agrees world
  | .updateRuntimeConfig edit update => update.agreesOnEdit edit world

theorem Fate.core_config (fate : Fate) (world : World) (loaded : Loaded) :
    (fate.core world loaded).config =
      match fate with
      | .kept => world.core.config
      | .stopped => none
      | .reloaded => if world.core.isRunning then some loaded.config else none
      | .started mode => some (world.launch mode loaded.config) := by
  cases fate with
  | kept | stopped | started mode => rfl
  | reloaded => cases core : world.core <;> simp [Fate.core, Core.config, Core.isRunning, core]

theorem Fate.core_isRunning (fate : Fate) (world : World) (loaded : Loaded) :
    (fate.core world loaded).isRunning = fate.leavesRunning world.core := by
  cases fate with
  | kept | stopped | started mode => rfl
  | reloaded => cases core : world.core <;> simp [Fate.core, Core.isRunning, core, leavesRunning]

theorem Replacement.fate_ne_reloaded (replacement : Replacement) (running exiting : Bool) :
    replacement.fate running exiting ≠ .reloaded := by
  cases running <;> cases stop : replacement.stop <;> cases start : replacement.start <;>
    cases exiting <;> simp [Replacement.fate, StartOutcome.fate, stop, start]

theorem Replacement.serviceFate_ne_reloaded (replacement : Replacement) :
    replacement.serviceFate ≠ .reloaded := by
  cases stop : replacement.stop <;> cases start : replacement.start <;>
    simp [Replacement.serviceFate, stop, start]

theorem Application.succeeds_of_reloaded {application : Application} {core : Core} {exiting : Bool}
    (reloaded : application.fate core exiting = .reloaded) :
    application.succeeds core exiting = true := by
  unfold Application.fate at reloaded
  unfold Application.succeeds
  split at reloaded
  · split at reloaded
    · contradiction
    · split at reloaded
      · rename_i reload
        simp [reload]
      · exact absurd reloaded (Replacement.serviceFate_ne_reloaded _)
    · exact absurd reloaded (Replacement.serviceFate_ne_reloaded _)
  · split at reloaded
    · rename_i reload
      simp [reload]
    · exact absurd reloaded (Replacement.fate_ne_reloaded _ _ _)

namespace Update

variable {update : Update}

theorem loads_of_applies {core : Core} {exiting : Bool}
    (applies : update.applies core exiting = true) : (update.fate core exiting).loads = true := by
  simp only [Update.applies, Bool.and_eq_true] at applies
  simpa [Update.fate, applies.1] using Application.loads_of_succeeds applies.2

theorem applies_of_reloaded {core : Core} {exiting : Bool}
    (reloaded : update.fate core exiting = .reloaded) : update.applies core exiting = true := by
  unfold Update.fate at reloaded
  split at reloaded
  · rename_i reaches
    simp [Update.applies, reaches, Application.succeeds_of_reloaded reloaded]
  · contradiction

theorem loads_of_commits {world : World} (commits : update.commits world = true) :
    (update.wholeFate world).loads = true := by
  simp only [Update.commits, Bool.and_eq_true] at commits
  simpa [Update.wholeFate, commits.1] using loads_of_applies commits.2

theorem commits_of_reloaded {world : World} (reloaded : update.wholeFate world = .reloaded) :
    update.commits world = true := by
  unfold Update.wholeFate at reloaded
  split at reloaded
  · rename_i generated
    simp [Update.commits, generated, applies_of_reloaded reloaded]
  · contradiction

end Update

theorem synced_iff_agrees {world after : World} {fate : Fate} {commits : Bool} (loaded : Loaded)
    {origin : IVerge} (core : after.core = fate.core world loaded)
    (runtime : after.runtime =
      if commits then Slot.new ⟨some loaded.config, origin⟩ else world.runtime.discard)
    (loads : commits = true → fate.loads = true) (reload : fate = .reloaded → commits = true) :
    Synced after ↔ fate.agrees world commits loaded.config := by
  have unstaged : after.runtime.draft = none := by
    rw [runtime]
    split <;> rfl
  have data : after.runtime.data.config =
      if commits then some loaded.config else world.runtime.data.config := by
    rw [runtime]
    split <;> rfl
  unfold Synced
  simp only [core, Fate.core_config, unstaged, and_true, data]
  cases fate with
  | kept =>
    have fails : commits = false := by
      cases commits with
      | false => rfl
      | true => exact absurd (loads rfl) (by simp [Fate.loads])
    simp [Fate.agrees, fails]
  | stopped | started mode => simp [Fate.agrees]
  | reloaded =>
    simp only [Fate.agrees, reload rfl, if_true, iff_true]
    split <;> simp

namespace World

variable {world : World}

theorem synced_updateConfigWithForce (synced : Synced world) (force debounced : Bool)
    (update : Update) :
    Synced (world.updateConfigWithForce force debounced update).2 ↔
      (world.admits = true → (force || !debounced) = true → update.agrees world) := by
  by_cases due : (world.admits && (force || !debounced)) = true
  · obtain ⟨admits, due⟩ := (Bool.and_eq_true _ _).mp due
    have left := (world.updateConfigWithForce_spec force debounced update admits due).1
    simp only [left, admits, due, true_imp_iff]
    exact synced_iff_agrees _ rfl rfl Update.loads_of_commits Update.commits_of_reloaded
  · have refused := Bool.eq_false_of_not_eq_true due
    rw [(world.updateConfigWithForce_refused force debounced update refused).1]
    simp only [synced, true_iff]
    intro admits due
    simp [admits, due] at refused

theorem synced_generateAndRestart (synced : Synced world) (restart : Restart) :
    Synced (world.generateAndRestart restart).2 ↔ restart.agrees world := by
  have left := (world.generateAndRestart_spec restart).1
  cases generated : restart.generated.isOk with
  | false =>
    have same : (world.generateAndRestart restart).2 = world := by
      rw [left]
      simp [generated, Restart.fate, Fate.core]
    simp [same, synced, Restart.agrees, generated]
  | true =>
    have staged : (world.generateAndRestart restart).2.runtime.draft ≠ none := by
      simp [left, generated]
    have core : (world.generateAndRestart restart).2.core.isRunning =
        (restart.fate world).leavesRunning world.core := by
      rw [left, Fate.core_isRunning]
    simp only [Restart.agrees, generated, true_imp_iff, ← core, Synced, staged, and_false]
    cases (world.generateAndRestart restart).2.core <;> simp [Core.config, Core.isRunning]

theorem synced_congr {left right : World} (core : left.core = right.core)
    (runtime : left.runtime = right.runtime) : Synced left ↔ Synced right := by
  simp [Synced, core, runtime]

theorem patchClash_reaches (world : World) (call : ClashCall) :
    (world.patchClash call).2.core = ((world.stageClash call.patch).patchClashEffects call).2.core ∧
      (world.patchClash call).2.runtime =
        ((world.stageClash call.patch).patchClashEffects call).2.runtime := by
  unfold patchClash
  split <;> simp_all

theorem synced_patchClash (synced : Synced world) (call : ClashCall) :
    Synced (world.patchClash call).2 ↔ call.agrees world := by
  obtain ⟨core, runtime⟩ := patchClash_reaches world call
  rw [synced_congr core runtime]
  have staged : Synced (world.stageClash call.patch) := synced
  unfold patchClashEffects ClashCall.agrees
  cases restarts : call.restarts with
  | true => exact synced_generateAndRestart staged call.restart
  | false =>
    have updated := synced_updateConfigWithForce staged true false call.update
    simp only [Bool.true_or, true_imp_iff] at updated
    simp only [Bool.false_eq_true, if_false, updateConfigChecked_world]
    exact updated

theorem unstaged_of_latest (staged : StagedConfig world)
    (latest : world.runtime.latest.config = none) : world.runtime.draft = none := by
  cases stage : world.runtime.draft with
  | none => rfl
  | some draft =>
    have present := staged draft stage
    simp [Slot.latest, stage] at latest
    simp [latest] at present

theorem data_config_of_latest (staged : StagedConfig world)
    (latest : world.runtime.latest.config = none) : world.runtime.data.config = none := by
  rwa [Slot.latest_of_draft_none (unstaged_of_latest staged latest)] at latest

theorem synced_updateRuntimeConfig (synced : Synced world) (stagedConfig : StagedConfig world)
    (edit : Mapping → Mapping) (update : Update) :
    Synced (world.updateRuntimeConfig edit update).2 ↔ update.agreesOnEdit edit world := by
  unfold Update.agreesOnEdit
  by_cases refused : world.configUpdateInProgress = true ∨ world.runtimeClaimed = true
  · rw [world.updateRuntimeConfig_refused edit update refused]
    simp only [synced, true_iff]
    intro idle unclaimed
    simp [idle, unclaimed] at refused
  · obtain ⟨idle, unclaimed⟩ := not_or.mp refused
    simp only [Bool.not_eq_true] at idle unclaimed
    simp only [idle, unclaimed, true_imp_iff]
    cases latest : world.runtime.latest.config with
    | none =>
      rw [world.updateRuntimeConfig_missing edit update idle unclaimed latest
        (data_config_of_latest stagedConfig latest),
        Slot.discard_of_draft_none (unstaged_of_latest stagedConfig latest)]
      exact iff_of_true synced (by simp)
    | some config =>
      have left := world.updateRuntimeConfig_spec edit update idle unclaimed latest
      simp only [left, Option.mem_some_iff, forall_eq']
      exact synced_iff_agrees ⟨edit config, world.runtime.latest.origin⟩ rfl rfl
        Update.loads_of_applies Update.applies_of_reloaded

theorem synced_of_update (flags : UpdateFlags) (patch : IVerge) (effects : PatchEffects)
    (restarts : effects.restarts flags world = true) (updates : .clashConfig ∈ flags)
    (admits : world.admits = true) :
    Synced (world.processTerminatedFlags flags patch effects).2 ↔
      effects.update.agrees (effects.afterRestart flags world) := by
  rw [processTerminatedFlags_world, if_pos restarts]
  have restarted := (world.restartForFlags_spec flags effects).1
  generalize (world.restartForFlags flags effects.restart).2 = next at restarted
  have admitted : next.admits = true := by
    rw [restarted]
    exact admits
  have left := (next.updateConfigChecked_spec effects.update admitted).1
  have data : next.runtime.data = world.runtime.data := by
    rw [restarted]
    split <;> rfl
  have agrees : effects.update.agrees next ↔
      effects.update.agrees (effects.afterRestart flags world) := by
    unfold Update.agrees Fate.agrees
    rw [data, restarted]
    rfl
  rw [← agrees, updateForFlags, if_pos updates, left]
  exact synced_iff_agrees _ rfl rfl Update.loads_of_commits Update.commits_of_reloaded

theorem synced_of_restart (synced : Synced world) (flags : UpdateFlags) (patch : IVerge)
    (effects : PatchEffects) (undecided : ¬ (effects.restarts flags world = true ∧
      .clashConfig ∈ flags ∧ world.admits = true)) :
    Synced (world.processTerminatedFlags flags patch effects).2 ↔
      (.restartCore ∈ flags → effects.restart.agrees world) := by
  have left : (world.processTerminatedFlags flags patch effects).2 =
      (world.restartForFlags flags effects.restart).2 := by
    rw [processTerminatedFlags_world]
    split
    · rename_i restarts
      have restarted := (world.restartForFlags_spec flags effects).1
      unfold updateForFlags
      split
      · rename_i updates
        refine (updateConfigChecked_refused _ effects.update ?_).1
        rw [restarted]
        exact Bool.eq_false_of_not_eq_true fun admits => undecided ⟨restarts, updates, admits⟩
      · rfl
    · rfl
  rw [left]
  unfold restartForFlags
  split
  · rename_i needed
    simpa [needed] using synced_generateAndRestart synced effects.restart
  · rename_i unneeded
    simp [unneeded, synced]

theorem synced_processTerminatedFlags (synced : Synced world) (flags : UpdateFlags)
    (patch : IVerge) (effects : PatchEffects) :
    Synced (world.processTerminatedFlags flags patch effects).2 ↔ effects.agrees flags world := by
  unfold PatchEffects.agrees
  split
  · rename_i decided
    exact synced_of_update flags patch effects decided.1 decided.2.1 decided.2.2
  · rename_i undecided
    exact synced_of_restart synced flags patch effects undecided

theorem synced_applyVergePatchLocked (synced : Synced world) (call : VergeCall) :
    Synced (world.applyVergePatchLocked call).2 ↔ call.agrees world := by
  unfold VergeCall.agrees
  cases claimed : world.vergeClaimed with
  | true => simp [applyVergePatchLocked, claimed, synced]
  | false =>
    rw [synced_congr (applyVergePatchLocked_core world call claimed)
      (applyVergePatchLocked_runtime world call claimed)]
    have staged : Synced (world.stageVerge call.patch) := synced
    simp only [true_imp_iff]
    exact synced_processTerminatedFlags staged _ call.patch call.effects

theorem processTerminatedFlags_admits (flags : UpdateFlags) (patch : IVerge)
    (effects : PatchEffects) :
    (world.processTerminatedFlags flags patch effects).2.admits = world.admits := by
  rw [processTerminatedFlags_world, (updateForFlags_spec _ flags effects).1,
    (world.restartForFlags_spec flags effects).1]
  split <;> rfl

theorem afterEffects_admits (call : VergeCall) : (world.afterEffects call).admits = world.admits :=
  processTerminatedFlags_admits _ _ _

theorem applyVergePatchLocked_admits (call : VergeCall) (unclaimed : world.vergeClaimed = false) :
    (world.applyVergePatchLocked call).2.admits = world.admits :=
  calc (world.applyVergePatchLocked call).2.admits
    _ = (world.afterEffects call).admits := by
      simp only [admits, (world.applyVergePatchLocked_spec call unclaimed).1]
    _ = world.admits := afterEffects_admits call

theorem stageVerge_admits (patch : IVerge) : (world.stageVerge patch).admits = world.admits := rfl

theorem afterRestart_admits (effects : PatchEffects) (flags : UpdateFlags) :
    (effects.afterRestart flags world).admits = world.admits := rfl

theorem admits_of_patched {call : VergeCall}
    (patched : (world.applyVergePatchLocked call).1.isOk = true)
    (tun : (call.patch .enableTunMode).isSome = true) :
    (world.applyVergePatchLocked call).2.vergeClaimed = false ∧
      (world.applyVergePatchLocked call).2.admits = true := by
  have unclaimed : world.vergeClaimed = false := by
    cases claimed : world.vergeClaimed with
    | false => rfl
    | true => simp [applyVergePatchLocked, claimed, Except.isOk, Except.toBool] at patched
  obtain ⟨left, isOk⟩ := world.applyVergePatchLocked_spec call unclaimed
  have succeeds : call.succeeds world = true := by
    rw [isOk, Bool.and_eq_true] at patched
    exact patched.1
  have needed := (clashConfig_mem_determineUpdateFlags world.os call.patch).mpr tun
  have updates : call.effects.updates (determineUpdateFlags world.os call.patch)
      (call.effects.afterRestart (determineUpdateFlags world.os call.patch)
        (world.stageVerge call.patch)) = true := by
    unfold VergeCall.succeeds PatchEffects.succeed at succeeds
    exact ((Bool.and_eq_true _ _).mp ((Bool.and_eq_true _ _).mp succeeds).1).2
  constructor
  · simp only [left]
  · rw [applyVergePatchLocked_admits call unclaimed, ← stageVerge_admits call.patch]
    simp only [PatchEffects.updates, needed, not_true_eq_false, decide_false, Bool.false_or,
      Bool.and_eq_true, afterRestart_admits] at updates
    exact updates.1

theorem synced_disableTun (effects : PatchEffects) (saved : Except String Unit)
    (unclaimed : world.vergeClaimed = false) (admits : world.admits = true) :
    Synced (world.applyVergePatchLocked (disableTun effects saved)).2 ↔
      effects.update.agrees world := by
  rw [synced_congr (applyVergePatchLocked_core world _ unclaimed)
    (applyVergePatchLocked_runtime world _ unclaimed)]
  have needed : .clashConfig ∈ determineUpdateFlags world.os (disableTun effects saved).patch := by
    rw [clashConfig_mem_determineUpdateFlags]
    simp only [disableTun, IVerge.set, Function.update_self]
    rfl
  have unneeded :
      .restartCore ∉ determineUpdateFlags world.os (disableTun effects saved).patch := by
    rw [restartCore_mem_determineUpdateFlags]
    simp [disableTun, restartCoreNeeded, IVerge.set, IVerge.default]
    exact fun _ => rfl
  let staged := world.stageVerge (disableTun effects saved).patch
  have restarts : effects.restarts (determineUpdateFlags world.os (disableTun effects saved).patch)
      staged = true := by
    simp [PatchEffects.restarts, unneeded]
  have kept : effects.afterRestart (determineUpdateFlags world.os (disableTun effects saved).patch)
      staged = staged := by
    simp [PatchEffects.afterRestart, PatchEffects.restartFate, unneeded, Fate.core]
  have admitted : staged.admits = true := admits
  have decided := synced_of_update _ (disableTun effects saved).patch effects restarts needed admitted
  rw [kept] at decided
  exact decided

theorem synced_patchVerge (synced : Synced world) (call : PatchVergeCall) :
    Synced (world.patchVerge call).2 ↔ call.agrees world := by
  have patched := synced_applyVergePatchLocked synced call.patch
  unfold patchVerge PatchVergeCall.agrees
  split
  · simp [synced]
  · cases outcome : world.applyVergePatchLocked call.patch with
    | mk result left =>
      rw [outcome] at patched
      cases result with
      | error error => simpa [Except.isOk, Except.toBool] using patched
      | ok done =>
        cases tun : (call.patch.patch .enableTunMode).isSome with
        | false => simpa using patched
        | true =>
          cases reconciles : left.reconciles call.runState with
          | false => simpa [reconcileTunAvailability, reconciles] using patched
          | true =>
            have patched : (world.applyVergePatchLocked call.patch).1.isOk = true := by
              simp [outcome, Except.isOk, Except.toBool]
            obtain ⟨unclaimed, admits⟩ := admits_of_patched patched tun
            rw [outcome] at unclaimed admits
            simpa [reconcileTunAvailability, reconciles, Except.isOk, Except.toBool] using
              synced_disableTun call.disable call.disableSaved unclaimed admits

theorem synced_after (synced : Synced world) (stagedConfig : StagedConfig world) (call : Call) :
    Synced (world.after call) ↔ call.agrees world := by
  cases call with
  | patchVerge call => exact synced_patchVerge synced call
  | patchClash call => exact synced_patchClash synced call
  | updateConfig force debounced update =>
    exact synced_updateConfigWithForce synced force debounced update
  | updateRuntimeConfig edit update =>
    exact synced_updateRuntimeConfig synced stagedConfig edit update

theorem stagedConfig_of_unstaged (unstaged : world.runtime.draft = none) : StagedConfig world := by
  simp [StagedConfig, unstaged]

section

variable (staged : StagedConfig world)
include staged

theorem stagedConfig_updateConfigWithForce (force debounced : Bool)
    (update : Update) : StagedConfig (world.updateConfigWithForce force debounced update).2 := by
  by_cases due : (world.admits && (force || !debounced)) = true
  · obtain ⟨admits, due⟩ := (Bool.and_eq_true _ _).mp due
    rw [(world.updateConfigWithForce_spec force debounced update admits due).1]
    refine stagedConfig_of_unstaged ?_
    dsimp only
    split <;> rfl
  · rwa [(world.updateConfigWithForce_refused force debounced update
      (Bool.eq_false_of_not_eq_true due)).1]

theorem stagedConfig_generateAndRestart (restart : Restart) :
    StagedConfig (world.generateAndRestart restart).2 := by
  rw [(world.generateAndRestart_spec restart).1]
  unfold StagedConfig
  dsimp only
  split
  · simp
  · exact staged

theorem stagedConfig_processTerminatedFlags (flags : UpdateFlags)
    (patch : IVerge) (effects : PatchEffects) :
    StagedConfig (world.processTerminatedFlags flags patch effects).2 := by
  have restarted : StagedConfig (world.restartForFlags flags effects.restart).2 := by
    unfold restartForFlags
    split
    · exact stagedConfig_generateAndRestart staged _
    · exact staged
  rw [processTerminatedFlags_world]
  split
  · unfold updateForFlags
    split
    · rw [updateConfigChecked_world]
      exact stagedConfig_updateConfigWithForce restarted _ _ _
    · exact restarted
  · exact restarted

theorem stagedConfig_applyVergePatchLocked (call : VergeCall) :
    StagedConfig (world.applyVergePatchLocked call).2 := by
  cases claimed : world.vergeClaimed with
  | true => simpa [applyVergePatchLocked, claimed] using staged
  | false =>
    have patched : StagedConfig (world.stageVerge call.patch) := staged
    have effects : StagedConfig (world.afterEffects call) :=
      stagedConfig_processTerminatedFlags patched _ _ _
    unfold StagedConfig at effects ⊢
    rwa [applyVergePatchLocked_runtime world call claimed]

theorem stagedConfig_updateRuntimeConfig (edit : Mapping → Mapping)
    (update : Update) : StagedConfig (world.updateRuntimeConfig edit update).2 := by
  by_cases refused : world.configUpdateInProgress = true ∨ world.runtimeClaimed = true
  · rwa [world.updateRuntimeConfig_refused edit update refused]
  · obtain ⟨idle, unclaimed⟩ := not_or.mp refused
    simp only [Bool.not_eq_true] at idle unclaimed
    cases latest : world.runtime.latest.config with
    | none =>
      rw [world.updateRuntimeConfig_missing edit update idle unclaimed latest
        (data_config_of_latest staged latest)]
      exact stagedConfig_of_unstaged rfl
    | some config =>
      rw [world.updateRuntimeConfig_spec edit update idle unclaimed latest]
      refine stagedConfig_of_unstaged ?_
      dsimp only
      split <;> rfl

end

theorem patchVerge_cases (world : World) (call : PatchVergeCall) :
    (world.patchVerge call).2 = world ∨
      (world.patchVerge call).2 = (world.applyVergePatchLocked call.patch).2 ∨
      (world.patchVerge call).2 = ((world.applyVergePatchLocked call.patch).2.applyVergePatchLocked
        (disableTun call.disable call.disableSaved)).2 := by
  unfold patchVerge
  split
  · exact .inl rfl
  · cases world.applyVergePatchLocked call.patch with
    | mk result left =>
      cases result with
      | error error => exact .inr (.inl rfl)
      | ok done =>
        cases reconciles : left.reconciles call.runState <;>
          cases (call.patch.patch .enableTunMode).isSome <;>
          simp [reconcileTunAvailability, reconciles]

theorem stagedConfig_after (staged : StagedConfig world) (call : Call) :
    StagedConfig (world.after call) := by
  cases call with
  | patchVerge call =>
    have patched := stagedConfig_applyVergePatchLocked staged call.patch
    change StagedConfig (world.patchVerge call).2
    rcases patchVerge_cases world call with left | left | left
    · rwa [left]
    · rwa [left]
    · rw [left]
      exact stagedConfig_applyVergePatchLocked patched _
  | patchClash call =>
    have patched : StagedConfig (world.stageClash call.patch) := staged
    unfold after StagedConfig
    rw [(patchClash_reaches world call).2]
    unfold patchClashEffects
    dsimp only
    split
    · exact stagedConfig_generateAndRestart patched _
    · rw [updateConfigChecked_world]
      exact stagedConfig_updateConfigWithForce patched _ _ _
  | updateConfig force debounced update =>
    exact stagedConfig_updateConfigWithForce staged force debounced update
  | updateRuntimeConfig edit update => exact stagedConfig_updateRuntimeConfig staged edit update

/-- In a run from an agreement, each command returns with the committed runtime configuration that
the core runs, and nothing staged, exactly when each command meets its condition. -/
theorem runtime_describes_core {start : World} (synced : Synced start)
    (unstaged : start.runtime.draft = none) (calls : List Call) :
    Transition.Meets afterStep (fun world call => Synced (world.after call)) start calls ↔
      Transition.Meets afterStep (fun world call => call.agrees world) start calls := by
  have stagedConfig : StagedConfig start := stagedConfig_of_unstaged unstaged
  clear unstaged
  induction calls generalizing start with
  | nil => rfl
  | cons call rest ih =>
    have step := synced_after synced stagedConfig call
    constructor
    · rintro ⟨agreed, remaining⟩
      refine ⟨step.mp agreed, fun next taken => ?_⟩
      obtain rfl : start.after call = next := Option.some.inj taken
      exact (ih agreed (stagedConfig_after stagedConfig call)).mp
        (remaining _ taken)
    · rintro ⟨agrees, remaining⟩
      have agreed := step.mpr agrees
      refine ⟨agreed, fun next taken => ?_⟩
      obtain rfl : start.after call = next := Option.some.inj taken
      exact (ih agreed (stagedConfig_after stagedConfig call)).mpr
        (remaining _ taken)

theorem synced_atRest (os : Os) (mode : CoreMode) (loaded : Loaded) :
    Synced (.atRest os mode loaded) := fun _ same => ⟨same, rfl⟩

/-- A call of `patch_clash` with a new secret, whose generation and restart succeed. -/
def secretPatch : ClashCall :=
  let restart : Replacement := ⟨.stopped, .started .sidecar, true, .ok ()⟩
  let config : Mapping := [(.string "secret", .string "s")]
  { patch := config
    restart := ⟨.ok config, restart⟩
    update := ⟨.ok config, .ok .valid, .ok (), ⟨false, .unsupported, none, .ok (), restart⟩⟩
    saved := .ok () }

/-- Two updates that reload the core, the second with another configuration. -/
theorem updates_describe_core :
    Transition.Meets afterStep (fun world call => Synced (world.after call))
      (.atRest .linux .sidecar ⟨[], .default⟩)
      [.updateConfig true false secretPatch.update,
        .updateConfig true false { secretPatch.update with generated := .ok [] }] :=
  (runtime_describes_core (synced_atRest _ _ _) rfl _).mpr
    ⟨fun _ _ => trivial, fun _ taken => by
      cases taken
      exact ⟨fun _ _ => trivial, fun _ _ => trivial⟩⟩

/-- A new secret restarts the core from a configuration that stays staged. -/
theorem restarted_core_undescribed :
    ¬ ∀ start : World, Synced start → start.runtime.draft = none → ∀ calls : List Call,
      Transition.Meets afterStep (fun world call => Synced (world.after call)) start calls := by
  intro describes
  obtain ⟨synced, -⟩ := describes (.atRest .linux .sidecar ⟨[], .default⟩) (synced_atRest _ _ _) rfl
    [.patchClash secretPatch]
  have staged := (synced [(.string "secret", .string "s")] rfl).2
  exact absurd staged nofun

end World

end ClashVerge.Config
