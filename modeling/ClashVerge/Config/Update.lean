import ClashVerge.Config.World

/-!
# Generating, validating and applying a runtime configuration

The update path holds a transaction on the runtime layer while the staged configuration is
validated, written and handed to the core, and commits it only when the core has taken it. A core
that does not take it by a reload is replaced by one started from it.
-/

namespace ClashVerge.Config

open ClashVerge.Draft ClashVerge.Verge ClashVerge.Yaml

inductive ValidationSkipReason where
  | exiting
  | debounced
deriving DecidableEq

def ValidationSkipReason.display : ValidationSkipReason → String
  | exiting => "application is exiting"
  | debounced => "debounced"

inductive ValidationOutcome where
  | valid
  | invalid (message : String)
  | skipped (reason : ValidationSkipReason)
  | busy
deriving DecidableEq

namespace ValidationOutcome

def isValid : ValidationOutcome → Bool
  | valid => true
  | _ => false

def display : ValidationOutcome → String
  | valid => "configuration is valid"
  | invalid message => message
  | skipped reason => "Configuration validation skipped: " ++ reason.display
  | busy => "Configuration validation is already running"

end ValidationOutcome

inductive StageRuntimeOutcome where
  | staged (configPath : String)
  | restartRequired (reason : String)

inductive StageAttempt where
  | unsupported
  | refusedTheBundle (message : String)
  | refusedForAnotherReason (message : String)
  | unanswered (error : String)
  | answered (outcome : StageRuntimeOutcome)

inductive ConfigApplication where
  | reloadFrom (path : String)
  | replaceCore
  | fail (message : String)

def planConfigApplication : StageAttempt → ConfigApplication
  | .answered (.staged configPath) => .reloadFrom configPath
  | .answered (.restartRequired _) => .replaceCore
  | .refusedTheBundle message => .fail message
  | .refusedForAnotherReason _ => .replaceCore
  | .unanswered _ => .replaceCore
  | .unsupported => .replaceCore

/-- `stage_with_confirmation`; a second request that is `none` ran out of time. -/
def stageWithConfirmation (first : StageAttempt) (second : Option StageAttempt) : StageAttempt :=
  match first, second with
  | .unanswered first, some (.unanswered again) => .unanswered (first ++ "; asked again: " ++ again)
  | .unanswered _, some answered => answered
  | .unanswered first, none => .unanswered (first ++ "; the second ask did not answer either")
  | answered, _ => answered

structure Application where
  stagingSupported : Bool
  firstAsk : StageAttempt
  secondAsk : Option StageAttempt
  reload : Except String Unit
  replacement : Replacement

def Application.attemptStaging (application : Application) : StageAttempt :=
  if application.stagingSupported then
    stageWithConfirmation application.firstAsk application.secondAsk
  else .unsupported

namespace World

variable (world : World)

def reloadConfig (loaded : Loaded) (reload : Except String Unit) : Outcome Unit :=
  match reload with
  | .error error => (.error error, world)
  | .ok () => (.ok (), { world with core := Fate.reloaded.core world loaded })

def replaceServiceCoreWithConfig (loaded : Loaded) (replacement : Replacement) : Outcome Unit :=
  match world.stopCore replacement.stop with
  | (.error error, stopped) => (.error error, stopped)
  | (.ok (), stopped) =>
    match replacement.start with
    | .failed error => (.error error, stopped)
    | .waits | .started _ =>
      if replacement.ready then (replacement.proxy, stopped.startWith .service loaded)
      else (.error "core did not become ready after start", stopped.startWith .service loaded)

def applyConfigByService (loaded : Loaded) (application : Application) : Outcome Unit :=
  match planConfigApplication application.attemptStaging with
  | .fail message => (.error message, world)
  | .reloadFrom _ =>
    match world.reloadConfig loaded application.reload with
    | (.ok (), reloaded) => (.ok (), reloaded)
    | (.error _, kept) => kept.replaceServiceCoreWithConfig loaded application.replacement
  | .replaceCore => world.replaceServiceCoreWithConfig loaded application.replacement

def reloadOrRestart (loaded : Loaded) (application : Application) : Outcome Unit :=
  match world.reloadConfig loaded application.reload with
  | (.ok (), reloaded) => (.ok (), reloaded)
  | (.error _, kept) =>
    match kept.restartCoreDuringConfigUpdate application.replacement with
    | (.ok (), restarted) => (.ok (), restarted)
    | (.error _, left) => (.error "failed to apply the configuration", left)

def applyConfig (loaded : Loaded) (application : Application) : Outcome Unit :=
  match world.core with
  | .running .service _ => world.applyConfigByService loaded application
  | _ => world.reloadOrRestart loaded application

end World

structure Update where
  generated : Except String Mapping
  validation : Except String ValidationOutcome
  written : Except String Unit
  application : Application

/-- The text of `DraftBusy` for the runtime layer. -/
def runtimeBusy : String := "configuration layer IRuntime is being changed elsewhere"

namespace World

variable (world : World)

/-- `Config::generate`: stage the configuration generated from the layers as readers see them. -/
def generate (generated : Except String Mapping) : Outcome Unit :=
  match generated with
  | .error error => (.error error, world)
  | .ok config => (.ok (), { world with
      runtime := world.runtime.editDraft fun _ => ⟨some config, world.verge.latest⟩ })

/-- The end of a transaction on the runtime layer that was not committed. -/
def rollBackRuntime : World :=
  { world with runtime := world.runtime.discard, runtimeClaimed := false }

/-- `commit` and the drop that follows it. -/
def commitRuntime : World := { world with runtime := world.runtime.apply, runtimeClaimed := false }

def validateAndApply (update : Update) : Outcome ValidationOutcome :=
  match world.runtimeConfig with
  | .error error => (.error error, world.rollBackRuntime)
  | .ok loaded =>
    match update.validation with
    | .error error => (.error error, world.rollBackRuntime)
    | .ok outcome =>
      if outcome.isValid then
        match update.written with
        | .error error => (.error error, world.rollBackRuntime)
        | .ok () =>
          match world.applyConfig loaded update.application with
          | (.error error, applied) => (.error error, applied.rollBackRuntime)
          | (.ok (), applied) => (.ok .valid, applied.commitRuntime)
      else (.ok outcome, world.rollBackRuntime)

def performConfigUpdate (update : Update) : Outcome ValidationOutcome :=
  if world.runtimeClaimed then (.error runtimeBusy, world)
  else
    let claimed := { world with runtimeClaimed := true }
    match claimed.generate update.generated with
    | (.error message, kept) => (.ok (.invalid message), kept.rollBackRuntime)
    | (.ok (), staged) => staged.validateAndApply update

/-- `update_config_with_force`; `debounced` is the verdict of `should_update_config`. -/
def updateConfigWithForce (force debounced : Bool) (update : Update) :
    Outcome ValidationOutcome :=
  if world.exiting then (.ok (.skipped .exiting), world)
  else if world.configUpdateInProgress then (.ok .busy, world)
  else if !force && debounced then (.ok (.skipped .debounced), world)
  else
    let outcome := { world with configUpdateInProgress := true }.performConfigUpdate update
    (outcome.1, { outcome.2 with configUpdateInProgress := false })

def updateConfigChecked (update : Update) : Outcome Unit :=
  match world.updateConfigWithForce true false update with
  | (.error error, updated) => (.error error, updated)
  | (.ok outcome, updated) =>
    if outcome.isValid then (.ok (), updated) else (.error outcome.display, updated)

/-- `update_runtime_config`. Its callers edit the configuration they find, and nothing when there is
none. -/
def updateRuntimeConfig (edit : Mapping → Mapping) (update : Update) :
    Outcome ValidationOutcome :=
  if world.configUpdateInProgress then (.ok .busy, world)
  else if world.runtimeClaimed then (.error runtimeBusy, world)
  else
    let edited := { world with
      configUpdateInProgress := true
      runtimeClaimed := true
      runtime := world.runtime.editDraft fun runtime =>
        { runtime with config := runtime.config.map edit } }
    let outcome := edited.validateAndApply update
    (outcome.1, { outcome.2 with configUpdateInProgress := false })

end World

def Replacement.serviceFate (replacement : Replacement) : Fate :=
  match replacement.stop, replacement.start with
  | .refused _, _ => .kept
  | .unconfirmed _, _ => .stopped
  | .stopped, .failed _ => .stopped
  | .stopped, .waits | .stopped, .started _ => .started .service

def Replacement.serviceSucceeds (replacement : Replacement) : Bool :=
  match replacement.serviceFate with
  | .started _ => replacement.ready && replacement.proxy.isOk
  | _ => false

namespace Application

variable (application : Application)

def fate (core : Core) (exiting : Bool) : Fate :=
  match core with
  | .running .service _ =>
    match planConfigApplication application.attemptStaging with
    | .fail _ => .kept
    | .reloadFrom _ =>
      if application.reload.isOk then .reloaded else application.replacement.serviceFate
    | .replaceCore => application.replacement.serviceFate
  | _ =>
    if application.reload.isOk then .reloaded
    else application.replacement.fate core.isRunning exiting

/-- Whether applying a configuration reports success. -/
def succeeds (core : Core) (exiting : Bool) : Bool :=
  match core with
  | .running .service _ =>
    match planConfigApplication application.attemptStaging with
    | .fail _ => false
    | .reloadFrom _ => application.reload.isOk || application.replacement.serviceSucceeds
    | .replaceCore => application.replacement.serviceSucceeds
  | _ => application.reload.isOk || application.replacement.succeeds core.isRunning exiting

end Application

theorem Replacement.loads_of_succeeds {replacement : Replacement} {running exiting : Bool}
    (succeeds : replacement.succeeds running exiting = true) :
    (replacement.fate running exiting).loads = true := by
  unfold Replacement.succeeds at succeeds
  split at succeeds
  · rename_i mode fate
    rw [fate]
    rfl
  · simp at succeeds

theorem Replacement.loads_of_serviceSucceeds {replacement : Replacement}
    (succeeds : replacement.serviceSucceeds = true) : replacement.serviceFate.loads = true := by
  unfold Replacement.serviceSucceeds at succeeds
  split at succeeds
  · rename_i mode fate
    rw [fate]
    rfl
  · simp at succeeds

theorem Application.loads_of_succeeds {application : Application} {core : Core} {exiting : Bool}
    (succeeds : application.succeeds core exiting = true) :
    (application.fate core exiting).loads = true := by
  unfold Application.succeeds at succeeds
  unfold Application.fate
  split at succeeds
  · split at succeeds
    · simp at succeeds
    · split
      · rfl
      · rename_i failed
        exact Replacement.loads_of_serviceSucceeds (by simpa [failed] using succeeds)
    · exact Replacement.loads_of_serviceSucceeds succeeds
  · split
    · rfl
    · rename_i failed
      exact Replacement.loads_of_succeeds (by simpa [failed] using succeeds)

namespace World

variable (world : World)

theorem replaceServiceCoreWithConfig_spec (loaded : Loaded) (replacement : Replacement)
    {before : Loaded} (core : world.core = .running .service before) :
    (world.replaceServiceCoreWithConfig loaded replacement).2 =
        { world with core := replacement.serviceFate.core world loaded } ∧
      (world.replaceServiceCoreWithConfig loaded replacement).1.isOk =
        replacement.serviceSucceeds := by
  obtain ⟨os, isAdmin, exiting, clash, verge, runtime, vergeClaimed, runtimeClaimed, busy, current⟩ :=
    world
  obtain rfl : current = .running .service before := core
  cases stop : replacement.stop <;> cases start : replacement.start <;>
    cases ready : replacement.ready <;>
    simp [replaceServiceCoreWithConfig, stopCore, stop, start, ready, Replacement.serviceFate,
      Replacement.serviceSucceeds, Fate.core, startWith, launch, Except.isOk, Except.toBool]

theorem reloadOrRestart_spec {loaded : Loaded} (application : Application)
    (config : world.runtimeConfig = .ok loaded) :
    (world.reloadOrRestart loaded application).2 = { world with
        core := (if application.reload.isOk then Fate.reloaded
          else application.replacement.fate world.core.isRunning world.exiting).core world loaded } ∧
      (world.reloadOrRestart loaded application).1.isOk = (application.reload.isOk ||
        application.replacement.succeeds world.core.isRunning world.exiting) := by
  obtain ⟨restarted, restartOk⟩ :=
    world.restartCoreDuringConfigUpdate_spec application.replacement config
  cases reload : application.reload with
  | ok done => simp [reloadOrRestart, reloadConfig, reload, Except.isOk, Except.toBool]
  | error failed =>
    cases outcome : world.restartCoreDuringConfigUpdate application.replacement with
    | mk result left =>
      rw [outcome] at restarted restartOk
      cases result <;>
        simp_all [reloadOrRestart, reloadConfig, Except.isOk, Except.toBool]

theorem applyConfigByService_spec (loaded : Loaded) (application : Application)
    {before : Loaded} (core : world.core = .running .service before) :
    (world.applyConfigByService loaded application).2 =
        { world with core := (application.fate world.core world.exiting).core world loaded } ∧
      (world.applyConfigByService loaded application).1.isOk =
        application.succeeds world.core world.exiting := by
  have replaced := world.replaceServiceCoreWithConfig_spec loaded application.replacement core
  cases plan : planConfigApplication application.attemptStaging with
  | fail message =>
    have fate : application.fate world.core world.exiting = .kept := by
      simp [core, Application.fate, plan]
    have fails : application.succeeds world.core world.exiting = false := by
      simp [core, Application.succeeds, plan]
    simp [applyConfigByService, plan, fate, fails, Fate.core, Except.isOk, Except.toBool]
  | replaceCore =>
    simpa [applyConfigByService, plan, core, Application.fate, Application.succeeds] using replaced
  | reloadFrom path =>
    cases reload : application.reload with
    | ok done =>
      simp [applyConfigByService, plan, core, reload, reloadConfig, Application.fate,
        Application.succeeds, Except.isOk, Except.toBool]
    | error failed =>
      simpa [applyConfigByService, plan, core, reload, reloadConfig, Application.fate,
        Application.succeeds, Except.isOk, Except.toBool] using replaced

theorem applyConfig_spec {loaded : Loaded} (application : Application)
    (config : world.runtimeConfig = .ok loaded) :
    (world.applyConfig loaded application).2 =
        { world with core := (application.fate world.core world.exiting).core world loaded } ∧
      (world.applyConfig loaded application).1.isOk =
        application.succeeds world.core world.exiting := by
  have restarts := world.reloadOrRestart_spec application config
  cases core : world.core with
  | notRunning =>
    simpa [applyConfig, core, Application.fate, Application.succeeds] using restarts
  | running mode before =>
    cases mode with
    | sidecar =>
      simpa [applyConfig, core, Application.fate, Application.succeeds] using restarts
    | service =>
      have serves := world.applyConfigByService_spec loaded application core
      simpa [applyConfig, core] using serves

end World

namespace Update

variable (update : Update)

/-- The validated configuration is written and handed to the core. -/
def reachesCore : Bool :=
  (match update.validation with
    | .ok outcome => outcome.isValid
    | .error _ => false) && update.written.isOk

/-- The update commits the configuration it has staged. -/
def applies (core : Core) (exiting : Bool) : Bool :=
  update.reachesCore && update.application.succeeds core exiting

def fate (core : Core) (exiting : Bool) : Fate :=
  if update.reachesCore then update.application.fate core exiting else .kept

end Update

namespace World

variable (world : World)

theorem validateAndApply_spec {loaded : Loaded} (update : Update)
    (config : world.runtimeConfig = .ok loaded) :
    (world.validateAndApply update).2 = { world with
        core := (update.fate world.core world.exiting).core world loaded
        runtime := if update.applies world.core world.exiting then world.runtime.apply
          else world.runtime.discard
        runtimeClaimed := false } ∧
      ((world.validateAndApply update).1 = .ok .valid ↔
        update.applies world.core world.exiting = true) := by
  have applied := world.applyConfig_spec update.application config
  cases verdict : update.validation with
  | error failed =>
    simp [validateAndApply, config, verdict, Update.applies, Update.fate, Update.reachesCore,
      rollBackRuntime, Fate.core]
  | ok outcome =>
    cases valid : outcome.isValid with
    | false =>
      have rejected : outcome ≠ .valid := by
        rintro rfl
        simp [ValidationOutcome.isValid] at valid
      simp [validateAndApply, config, verdict, valid, rejected, Update.applies, Update.fate,
        Update.reachesCore, rollBackRuntime, Fate.core]
    | true =>
      cases written : update.written with
      | error failed =>
        simp [validateAndApply, config, verdict, valid, written, Update.applies, Update.fate,
          Update.reachesCore, rollBackRuntime, Fate.core, Except.isOk, Except.toBool]
      | ok done =>
        cases application : world.applyConfig loaded update.application with
        | mk result left =>
          rw [application] at applied
          obtain ⟨rfl, succeeds⟩ := applied
          cases result <;>
            simp_all [validateAndApply, Update.applies, Update.fate, Update.reachesCore,
              rollBackRuntime, commitRuntime, Except.isOk, Except.toBool]

end World

namespace Update

variable (update : Update) (world : World)

def loaded : Loaded where
  config := match update.generated with
    | .ok config => config
    | .error _ => []
  origin := world.verge.latest

def commits : Bool := update.generated.isOk && update.applies world.core world.exiting

def wholeFate : Fate :=
  if update.generated.isOk then update.fate world.core world.exiting else .kept

end Update

/-- No shutdown has begun, and no command is updating the configuration or has claimed the runtime
layer. -/
def World.admits (world : World) : Bool :=
  !world.exiting && !world.configUpdateInProgress && !world.runtimeClaimed

theorem Fate.core_congr {left right : World} (core : left.core = right.core)
    (os : left.os = right.os) (isAdmin : left.isAdmin = right.isAdmin) (loaded : Loaded)
    (fate : Fate) : fate.core left loaded = fate.core right loaded := by
  cases fate <;> simp [Fate.core, World.launch, core, os, isAdmin]

namespace World

variable (world : World)

/-- What an update leaves: the generated configuration committed, or the committed one as it was,
with nothing staged in either case. -/
theorem performConfigUpdate_spec (update : Update) (unclaimed : world.runtimeClaimed = false) :
    (world.performConfigUpdate update).2 = { world with
        core := (update.wholeFate world).core world (update.loaded world)
        runtime := if update.commits world then
            Slot.new ⟨some (update.loaded world).config, world.verge.latest⟩
          else world.runtime.discard
        runtimeClaimed := false } ∧
      ((world.performConfigUpdate update).1 = .ok .valid ↔ update.commits world = true) := by
  cases generated : update.generated with
  | error message =>
    simp [performConfigUpdate, unclaimed, generate, generated, Update.commits, Update.wholeFate,
      rollBackRuntime, Fate.core, Except.isOk, Except.toBool]
  | ok config =>
    let staged : World := { world with
      runtimeClaimed := true
      runtime := world.runtime.editDraft fun _ => ⟨some config, world.verge.latest⟩ }
    have ready : staged.runtimeConfig = .ok (update.loaded world) := by
      simp [staged, runtimeConfig, Update.loaded, generated]
    have performs : world.performConfigUpdate update = staged.validateAndApply update := by
      simp [performConfigUpdate, unclaimed, generate, generated, staged]
    obtain ⟨left, commits⟩ := staged.validateAndApply_spec update ready
    rw [performs]
    refine ⟨?_, ?_⟩
    · rw [left]
      cases applies : update.applies world.core world.exiting <;>
        simp [staged, Update.wholeFate, Update.commits, Update.loaded, generated, applies,
          Slot.apply, Slot.editDraft, Slot.discard, Slot.new, Except.isOk, Except.toBool] <;>
        exact Fate.core_congr rfl rfl rfl _ _
    · simpa [Update.commits, generated, Except.isOk, Except.toBool, staged] using commits

theorem updateConfigWithForce_spec (force debounced : Bool) (update : Update)
    (admits : world.admits = true) (due : (force || !debounced) = true) :
    (world.updateConfigWithForce force debounced update).2 = { world with
        core := (update.wholeFate world).core world (update.loaded world)
        runtime := if update.commits world then
            Slot.new ⟨some (update.loaded world).config, world.verge.latest⟩
          else world.runtime.discard } ∧
      ((world.updateConfigWithForce force debounced update).1 = .ok .valid ↔
        update.commits world = true) := by
  obtain ⟨os, isAdmin, exiting, clash, verge, runtime, vergeClaimed, claimed, updating, core⟩ := world
  obtain ⟨⟨rfl, rfl⟩, rfl⟩ : (exiting = false ∧ updating = false) ∧ claimed = false := by
    simpa [World.admits] using admits
  let idle : World := ⟨os, isAdmin, false, clash, verge, runtime, vergeClaimed, false, false, core⟩
  let busy : World := { idle with configUpdateInProgress := true }
  obtain ⟨left, valid⟩ := busy.performConfigUpdate_spec update rfl
  have runs : idle.updateConfigWithForce force debounced update =
      ((busy.performConfigUpdate update).1,
        { (busy.performConfigUpdate update).2 with configUpdateInProgress := false }) := by
    have notDebounced : (!force && debounced) = false := by
      cases force <;> simp_all
    simp only [updateConfigWithForce, notDebounced]
    rfl
  have fate : (update.wholeFate busy).core busy (update.loaded busy) =
      (update.wholeFate idle).core idle (update.loaded idle) :=
    Fate.core_congr rfl rfl rfl _ _
  rw [runs]
  constructor
  · rw [left, fate]
    rfl
  · exact valid

theorem updateConfigWithForce_refused (force debounced : Bool) (update : Update)
    (refused : (world.admits && (force || !debounced)) = false) :
    (world.updateConfigWithForce force debounced update).2 = world ∧
      (world.updateConfigWithForce force debounced update).1 ≠ .ok .valid := by
  unfold updateConfigWithForce
  split
  · simp
  · split
    · simp
    · split
      · simp
      · rename_i alive idle due
        have claimed : world.runtimeClaimed = true := by
          cases force <;> simp_all [World.admits]
        obtain ⟨os, isAdmin, exiting, clash, verge, runtime, vergeClaimed, claim, updating, core⟩ :=
          world
        obtain rfl : claim = true := claimed
        obtain rfl : updating = false := by simpa using idle
        exact ⟨rfl, nofun⟩

theorem updateConfigChecked_world (update : Update) :
    (world.updateConfigChecked update).2 = (world.updateConfigWithForce true false update).2 := by
  unfold updateConfigChecked
  split <;> rename_i outcome
  · simp [outcome]
  · split <;> simp [outcome]

theorem updateConfigChecked_isOk (update : Update) :
    (world.updateConfigChecked update).1.isOk = true ↔
      (world.updateConfigWithForce true false update).1 = .ok .valid := by
  unfold updateConfigChecked
  split <;> rename_i outcome
  · simp [outcome, Except.isOk, Except.toBool]
  · rename_i verdict updated
    cases verdict <;>
      simp [outcome, ValidationOutcome.isValid, Except.isOk, Except.toBool]

theorem updateConfigChecked_spec (update : Update) (admits : world.admits = true) :
    (world.updateConfigChecked update).2 = { world with
        core := (update.wholeFate world).core world (update.loaded world)
        runtime := if update.commits world then
            Slot.new ⟨some (update.loaded world).config, world.verge.latest⟩
          else world.runtime.discard } ∧
      (world.updateConfigChecked update).1.isOk = update.commits world := by
  obtain ⟨left, valid⟩ := world.updateConfigWithForce_spec true false update admits rfl
  constructor
  · rw [updateConfigChecked_world, left]
  · rw [Bool.eq_iff_iff, updateConfigChecked_isOk, valid]

theorem updateConfigChecked_refused (update : Update) (refused : world.admits = false) :
    (world.updateConfigChecked update).2 = world ∧
      (world.updateConfigChecked update).1.isOk = false := by
  obtain ⟨left, failed⟩ :=
    world.updateConfigWithForce_refused true false update (by simp [refused])
  constructor
  · rw [updateConfigChecked_world, left]
  · rw [← Bool.not_eq_true, updateConfigChecked_isOk]
    exact failed

theorem updateRuntimeConfig_spec (edit : Mapping → Mapping) (update : Update) {config : Mapping}
    (idle : world.configUpdateInProgress = false) (unclaimed : world.runtimeClaimed = false)
    (latest : world.runtime.latest.config = some config) :
    (world.updateRuntimeConfig edit update).2 = { world with
      core := (update.fate world.core world.exiting).core world
        ⟨edit config, world.runtime.latest.origin⟩
      runtime := if update.applies world.core world.exiting then
          Slot.new ⟨some (edit config), world.runtime.latest.origin⟩
        else world.runtime.discard } := by
  obtain ⟨os, isAdmin, exiting, clash, verge, runtime, vergeClaimed, claimed, updating, core⟩ := world
  obtain rfl : updating = false := idle
  obtain rfl : claimed = false := unclaimed
  let edited : World := ⟨os, isAdmin, exiting, clash, verge,
    runtime.editDraft fun runtime => { runtime with config := runtime.config.map edit },
    vergeClaimed, true, true, core⟩
  have staged : edited.runtimeConfig = .ok ⟨edit config, runtime.latest.origin⟩ := by
    simp [edited, runtimeConfig, show runtime.latest.config = some config from latest]
  have left := (edited.validateAndApply_spec update staged).1
  change { (edited.validateAndApply update).2 with configUpdateInProgress := false } = _
  rw [left]
  simp only [edited, Slot.editDraft, Slot.apply, Slot.discard, Slot.new, Option.map_some,
    show runtime.latest.config = some config from latest]
  rfl

theorem updateRuntimeConfig_missing (edit : Mapping → Mapping) (update : Update)
    (idle : world.configUpdateInProgress = false) (unclaimed : world.runtimeClaimed = false)
    (latest : world.runtime.latest.config = none) (data : world.runtime.data.config = none) :
    (world.updateRuntimeConfig edit update).2 = { world with runtime := world.runtime.discard } := by
  obtain ⟨os, isAdmin, exiting, clash, verge, runtime, vergeClaimed, claimed, updating, core⟩ := world
  obtain rfl : updating = false := idle
  obtain rfl : claimed = false := unclaimed
  simp [updateRuntimeConfig, validateAndApply, runtimeConfig, rollBackRuntime, Slot.discard,
    show runtime.latest.config = none from latest, show runtime.data.config = none from data]

theorem updateRuntimeConfig_refused (edit : Mapping → Mapping) (update : Update)
    (refused : world.configUpdateInProgress = true ∨ world.runtimeClaimed = true) :
    (world.updateRuntimeConfig edit update).2 = world := by
  unfold updateRuntimeConfig
  split
  · rfl
  · split
    · rfl
    · simp_all

theorem restartCore_spec (replacement : Replacement) {loaded : Loaded}
    (config : world.runtimeConfig = .ok loaded) :
    (world.restartCore replacement).2 = { world with
        core := if world.configUpdateInProgress then world.core
          else (replacement.fate world.core.isRunning world.exiting).core world loaded } ∧
      (world.restartCore replacement).1.isOk = (!world.configUpdateInProgress &&
        replacement.succeeds world.core.isRunning world.exiting) := by
  obtain ⟨os, isAdmin, exiting, clash, verge, runtime, vergeClaimed, claimed, updating, core⟩ := world
  cases updating with
  | true => exact ⟨rfl, rfl⟩
  | false =>
    let outside : World :=
      ⟨os, isAdmin, exiting, clash, verge, runtime, vergeClaimed, claimed, false, core⟩
    let claimed : World := { outside with configUpdateInProgress := true }
    obtain ⟨left, succeeds⟩ := claimed.restartCoreDuringConfigUpdate_spec replacement config
    have fate : (replacement.fate core.isRunning exiting).core claimed loaded =
        (replacement.fate core.isRunning exiting).core outside loaded :=
      Fate.core_congr rfl rfl rfl _ _
    constructor
    · change { (claimed.restartCoreDuringConfigUpdate replacement).2 with
        configUpdateInProgress := false } = _
      rw [left]
      exact congrArg (fun core => ({ outside with core := core } : World)) fate
    · exact succeeds

end World

structure Restart where
  generated : Except String Mapping
  replacement : Replacement

namespace Restart

variable (restart : Restart) (world : World)

def loaded : Loaded where
  config := match restart.generated with
    | .ok config => config
    | .error _ => []
  origin := world.verge.latest

def fate : Fate :=
  if restart.generated.isOk && !world.configUpdateInProgress then
    restart.replacement.fate world.core.isRunning world.exiting
  else .kept

def succeeds : Bool :=
  restart.generated.isOk && (!world.configUpdateInProgress &&
    restart.replacement.succeeds world.core.isRunning world.exiting)

end Restart

namespace World

variable (world : World)

/-- `Config::generate` and then `restart_core`, the restart path of a patch. -/
def generateAndRestart (restart : Restart) : Outcome Unit :=
  match world.generate restart.generated with
  | (.error error, left) => (.error error, left)
  | (.ok (), staged) => staged.restartCore restart.replacement

theorem generateAndRestart_spec (restart : Restart) :
    (world.generateAndRestart restart).2 = { world with
        core := (restart.fate world).core world (restart.loaded world)
        runtime := if restart.generated.isOk then
            world.runtime.editDraft fun _ => ⟨some (restart.loaded world).config, world.verge.latest⟩
          else world.runtime } ∧
      (world.generateAndRestart restart).1.isOk = restart.succeeds world := by
  cases generated : restart.generated with
  | error error =>
    simp [generateAndRestart, generate, generated, Restart.fate, Restart.succeeds, Fate.core,
      Except.isOk, Except.toBool]
  | ok config =>
    let staged : World := { world with
      runtime := world.runtime.editDraft fun _ => ⟨some config, world.verge.latest⟩ }
    have ready : staged.runtimeConfig = .ok (restart.loaded world) := by
      simp [staged, runtimeConfig, Restart.loaded, generated]
    obtain ⟨left, succeeds⟩ := staged.restartCore_spec restart.replacement ready
    have restarts : world.generateAndRestart restart = staged.restartCore restart.replacement := by
      simp [generateAndRestart, generate, generated, staged]
    have core : (restart.fate world).core world (restart.loaded world) =
        if world.configUpdateInProgress then world.core
        else (restart.replacement.fate world.core.isRunning world.exiting).core staged
          (restart.loaded world) := by
      cases busy : world.configUpdateInProgress with
      | true => simp [Restart.fate, busy, Fate.core]
      | false =>
        simp only [Restart.fate, generated, busy, Except.isOk, Except.toBool]
        exact Fate.core_congr rfl rfl rfl _ _
    constructor
    · rw [restarts, left, core]
      simp [staged, Restart.loaded, generated, Except.isOk, Except.toBool]
    · rw [restarts, succeeds]
      simp [Restart.succeeds, staged, generated, Except.isOk, Except.toBool]

end World

end ClashVerge.Config
