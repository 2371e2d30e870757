import ClashVerge.Config.Update
import ClashVerge.Verge.Flags

/-!
# Applying a patch of the application's configuration

`apply_verge_patch_locked` stages the patch, carries out the effects it makes necessary, and commits
it. The effects that reach the core come first and read the staged patch; the first one that fails
ends the call, which does not take back the configuration that a core has been handed.
-/

namespace ClashVerge.Config

open ClashVerge.Draft ClashVerge.Verge ClashVerge.Yaml

/-- Setting the locale and switching the lightweight mode cannot fail and reach nothing modelled
here. -/
structure PatchEffects where
  restart : Restart
  update : Update
  updateLaunch : Except String Unit
  applyProxyAfterStart : Except String Unit
  applyProxy : Except String Unit
  refreshGuard : Except String Unit
  updateHotkeys : List String → Except String Unit
  updateMenu : Except String Unit
  updateIcon : IVerge → Except String Unit
  updateTooltip : Except String Unit
  updateClickBehavior : Except String Unit
  updateLogLevel : LevelFilter → Except String Unit
  updateLogConfig : Nat → Nat → Except String Unit

namespace PatchEffects

variable (effects : PatchEffects) (flags : UpdateFlags) (patch latest : IVerge)

def onFlag (flag : UpdateFlag) (effect : Except String Unit) : Except String Unit :=
  if flag ∈ flags then effect else .ok ()

/-- The system proxy. Turning it off only writes OS state. -/
def setSysProxy : Except String Unit :=
  let enableSystemProxy : Option Bool := latest .enableSystemProxy
  if enableSystemProxy.getD false then effects.applyProxyAfterStart
  else do
    effects.applyProxy
    effects.refreshGuard

def setHotkeys : Except String Unit :=
  match patch .hotkeys with
  | some hotkeys => effects.updateHotkeys hotkeys
  | none => .ok ()

def setLogFile : Except String Unit :=
  let logMaxSize : Option Nat := patch .appLogMaxSize
  let logMaxCount : Option Nat := patch .appLogMaxCount
  effects.updateLogConfig (logMaxSize.getD 128) (logMaxCount.getD 8)

/-- The effects of `process_terminated_flags` that follow the core's, in their order. -/
def settle : Except String Unit := do
  onFlag flags .launch effects.updateLaunch
  onFlag flags .sysProxy (effects.setSysProxy latest)
  onFlag flags .hotkey (effects.setHotkeys patch)
  onFlag flags .systrayMenu effects.updateMenu
  onFlag flags .systrayIcon (effects.updateIcon latest)
  onFlag flags .systrayTooltip effects.updateTooltip
  onFlag flags .systrayClickBehavior effects.updateClickBehavior
  onFlag flags .logLevel (effects.updateLogLevel patch.getLogLevel)
  onFlag flags .logFile (effects.setLogFile patch)

/-- None of the effects the flags ask for fails. -/
def settles : Bool :=
  (onFlag flags .launch effects.updateLaunch).isOk
    && (onFlag flags .sysProxy (effects.setSysProxy latest)).isOk
    && (onFlag flags .hotkey (effects.setHotkeys patch)).isOk
    && (onFlag flags .systrayMenu effects.updateMenu).isOk
    && (onFlag flags .systrayIcon (effects.updateIcon latest)).isOk
    && (onFlag flags .systrayTooltip effects.updateTooltip).isOk
    && (onFlag flags .systrayClickBehavior effects.updateClickBehavior).isOk
    && (onFlag flags .logLevel (effects.updateLogLevel patch.getLogLevel)).isOk
    && (onFlag flags .logFile (effects.setLogFile patch)).isOk

theorem isOk_bind_unit (first : Except String Unit) (second : Unit → Except String Unit) :
    (first >>= second).isOk = (first.isOk && (second ()).isOk) := by
  cases first <;> simp [bind, Except.bind, Except.isOk, Except.toBool]

theorem settle_isOk : (effects.settle flags patch latest).isOk =
    effects.settles flags patch latest := by
  simp only [settle, settles, isOk_bind_unit, Bool.and_assoc]

end PatchEffects

/-- The `?` between two commands. -/
def andThen (first : Outcome Unit) (second : World → Outcome Unit) : Outcome Unit :=
  match first with
  | (.error error, left) => (.error error, left)
  | (.ok (), left) => second left

theorem andThen_world (first : Outcome Unit) (second : World → Outcome Unit) :
    (andThen first second).2 = if first.1.isOk then (second first.2).2 else first.2 := by
  obtain ⟨_ | _, left⟩ := first <;> rfl

theorem andThen_isOk (first : Outcome Unit) (second : World → Outcome Unit) :
    (andThen first second).1.isOk = (first.1.isOk && (second first.2).1.isOk) := by
  obtain ⟨_ | _, left⟩ := first <;> rfl

namespace World

variable (world : World)

def restartForFlags (flags : UpdateFlags) (restart : Restart) : Outcome Unit :=
  if .restartCore ∈ flags then world.generateAndRestart restart else (.ok (), world)

/-- The update of the runtime configuration that a flag asks for. -/
def updateForFlags (flags : UpdateFlags) (update : Update) : Outcome Unit :=
  if .clashConfig ∈ flags then world.updateConfigChecked update else (.ok (), world)

def processTerminatedFlags (flags : UpdateFlags) (patch : IVerge) (effects : PatchEffects) :
    Outcome Unit :=
  andThen (world.restartForFlags flags effects.restart) fun restarted =>
    andThen (restarted.updateForFlags flags effects.update) fun updated =>
      (effects.settle flags patch updated.verge.latest, updated)

end World

/-- A call of `apply_verge_patch_locked` and what it meets. -/
structure VergeCall where
  patch : IVerge
  notSaveFile : Bool
  effects : PatchEffects
  saved : Except String Unit

/-- The text of `DraftBusy` for the application's configuration. -/
def vergeBusy : String := "configuration layer IVerge is being changed elsewhere"

namespace World

variable (world : World)

def stageVerge (patch : IVerge) : World :=
  { world with vergeClaimed := true, verge := world.verge.editDraft (·.patchConfig patch) }

def applyVergePatchLocked (call : VergeCall) : Outcome Unit :=
  if world.vergeClaimed then (.error vergeBusy, world)
  else
    match (world.stageVerge call.patch).processTerminatedFlags
      (determineUpdateFlags world.os call.patch) call.patch call.effects with
    | (.error error, left) =>
      (.error error, { left with verge := left.verge.discard, vergeClaimed := false })
    | (.ok (), left) =>
      let committed := { left with verge := left.verge.apply, vergeClaimed := false }
      if call.notSaveFile then (.ok (), committed) else (call.saved, committed)

end World

/-- The record a running core's configuration was generated from. -/
def Core.origin : Core → Option IVerge
  | notRunning => none
  | running _ loaded => some loaded.origin

def Fate.handsOver (core : Core) : Fate → Bool
  | kept | stopped => false
  | reloaded => core.isRunning
  | started _ => true

theorem Fate.core_origin (world : World) (loaded : Loaded) (fate : Fate) :
    (fate.core world loaded).origin =
      if fate.handsOver world.core then some loaded.origin
      else if fate = .kept then world.core.origin else none := by
  cases fate with
  | kept | stopped | started mode => simp [Fate.core, Fate.handsOver, Core.origin]
  | reloaded => cases core : world.core <;> simp [Fate.core, Fate.handsOver, Core.origin, core,
      Core.isRunning]

namespace PatchEffects

variable (effects : PatchEffects) (flags : UpdateFlags) (patch : IVerge) (world : World)

def restartFate : Fate := if .restartCore ∈ flags then effects.restart.fate world else .kept

def restarts : Bool := .restartCore ∉ flags || effects.restart.succeeds world

def afterRestart : World :=
  { world with core := (effects.restartFate flags world).core world (effects.restart.loaded world) }

/-- The fate of the core in the update that follows a restart. -/
def updateFate : Fate :=
  if .clashConfig ∈ flags ∧ world.admits then effects.update.wholeFate world else .kept

def updates : Bool := .clashConfig ∉ flags || (world.admits && effects.update.commits world)

def succeed : Bool :=
  effects.restarts flags world && effects.updates flags (effects.afterRestart flags world) &&
    effects.settles flags patch world.verge.latest

def reachCore : Bool :=
  let restarted := effects.afterRestart flags world
  if effects.restarts flags world then
    (effects.updateFate flags restarted).handsOver restarted.core ||
      effects.updateFate flags restarted == .kept &&
        (effects.restartFate flags world).handsOver world.core
  else (effects.restartFate flags world).handsOver world.core

end PatchEffects

namespace World

variable (world : World)

section

variable (flags : UpdateFlags)
include flags

theorem restartForFlags_spec (effects : PatchEffects) :
    (world.restartForFlags flags effects.restart).2 = { effects.afterRestart flags world with
        runtime := if .restartCore ∈ flags ∧ effects.restart.generated.isOk then
            world.runtime.editDraft fun _ =>
              ⟨some (effects.restart.loaded world).config, world.verge.latest⟩
          else world.runtime } ∧
      (world.restartForFlags flags effects.restart).1.isOk = effects.restarts flags world := by
  obtain ⟨left, succeeds⟩ := world.generateAndRestart_spec effects.restart
  by_cases needed : .restartCore ∈ flags
  · simp [restartForFlags, needed, left, succeeds, PatchEffects.afterRestart,
      PatchEffects.restartFate, PatchEffects.restarts]
  · simp [restartForFlags, needed, PatchEffects.afterRestart, PatchEffects.restartFate,
      PatchEffects.restarts, Fate.core, Except.isOk, Except.toBool]

theorem updateForFlags_spec (effects : PatchEffects) :
    (world.updateForFlags flags effects.update).2 = { world with
        core := (effects.updateFate flags world).core world (effects.update.loaded world)
        runtime := if .clashConfig ∈ flags ∧ world.admits then
            if effects.update.commits world then
              Slot.new ⟨some (effects.update.loaded world).config, world.verge.latest⟩
            else world.runtime.discard
          else world.runtime } ∧
      (world.updateForFlags flags effects.update).1.isOk = effects.updates flags world := by
  by_cases needed : .clashConfig ∈ flags
  · cases admits : world.admits with
    | true =>
      obtain ⟨left, succeeds⟩ := world.updateConfigChecked_spec effects.update admits
      simp [updateForFlags, needed, admits, left, succeeds, PatchEffects.updateFate,
        PatchEffects.updates]
    | false =>
      obtain ⟨left, succeeds⟩ := world.updateConfigChecked_refused effects.update admits
      simp [updateForFlags, needed, admits, left, succeeds, PatchEffects.updateFate,
        PatchEffects.updates, Fate.core]
  · simp [updateForFlags, needed, PatchEffects.updateFate, PatchEffects.updates, Fate.core,
      Except.isOk, Except.toBool]

section

variable (patch : IVerge)
include patch

theorem processTerminatedFlags_isOk (effects : PatchEffects) :
    (world.processTerminatedFlags flags patch effects).1.isOk = effects.succeed flags patch world := by
  obtain ⟨left, restarts⟩ := world.restartForFlags_spec flags effects
  unfold processTerminatedFlags
  rw [andThen_isOk, andThen_isOk, restarts, (updateForFlags_spec _ flags effects).1,
    (updateForFlags_spec _ flags effects).2, PatchEffects.settle_isOk, left]
  exact (Bool.and_assoc _ _ _).symm

theorem processTerminatedFlags_world (effects : PatchEffects) :
    (world.processTerminatedFlags flags patch effects).2 =
      if effects.restarts flags world then
        ((world.restartForFlags flags effects.restart).2.updateForFlags flags effects.update).2
      else (world.restartForFlags flags effects.restart).2 := by
  unfold processTerminatedFlags
  simp only [andThen_world, ite_self, (world.restartForFlags_spec flags effects).2]

theorem processTerminatedFlags_verge (effects : PatchEffects) :
    (world.processTerminatedFlags flags patch effects).2.verge = world.verge := by
  rw [processTerminatedFlags_world, (updateForFlags_spec _ flags effects).1,
    (world.restartForFlags_spec flags effects).1]
  split <;> rfl

theorem processTerminatedFlags_clash (effects : PatchEffects) :
    (world.processTerminatedFlags flags patch effects).2.clash = world.clash := by
  rw [processTerminatedFlags_world, (updateForFlags_spec _ flags effects).1,
    (world.restartForFlags_spec flags effects).1]
  split <;> rfl

theorem processTerminatedFlags_core (effects : PatchEffects) :
    (world.processTerminatedFlags flags patch effects).2.core =
      if effects.restarts flags world then
        (effects.updateFate flags (effects.afterRestart flags world)).core
          (effects.afterRestart flags world) (effects.update.loaded world)
      else (effects.afterRestart flags world).core := by
  rw [processTerminatedFlags_world, (updateForFlags_spec _ flags effects).1,
    (world.restartForFlags_spec flags effects).1]
  split
  · exact Fate.core_congr rfl rfl rfl _ _
  · rfl

/-- The core ends up running the staged patch exactly when the effects have handed it over;
otherwise it runs what it ran before, or does not run. -/
theorem processTerminatedFlags_origin (effects : PatchEffects) :
    (world.processTerminatedFlags flags patch effects).2.core.origin =
      if effects.reachCore flags world then some world.verge.latest
      else if effects.restartFate flags world = .kept ∧
          (effects.restarts flags world = false ∨
            effects.updateFate flags (effects.afterRestart flags world) = .kept) then
        world.core.origin
      else none := by
  have restarted : (effects.afterRestart flags world).core.origin =
      if (effects.restartFate flags world).handsOver world.core then some world.verge.latest
      else if effects.restartFate flags world = .kept then world.core.origin else none :=
    Fate.core_origin _ _ _
  rw [processTerminatedFlags_core]
  cases restarts : effects.restarts flags world with
  | false => simp [PatchEffects.reachCore, restarts, restarted]
  | true =>
    simp only [if_true, Fate.core_origin, restarted]
    have loaded : (effects.update.loaded world).origin = world.verge.latest := rfl
    by_cases kept : effects.updateFate flags (effects.afterRestart flags world) = .kept
    · have keeps : Fate.kept.handsOver (effects.afterRestart flags world).core = false := rfl
      simp [PatchEffects.reachCore, restarts, kept, keeps]
    · simp [PatchEffects.reachCore, restarts, kept, loaded]

end

end

end World

/-- A failed call has left the committed record, cleared the draft, and left the core running a
configuration generated from the committed record, if it runs at all. -/
def RollsBack (world : World) (call : VergeCall) : Prop :=
  (world.applyVergePatchLocked call).1.isOk = false →
    (world.applyVergePatchLocked call).2.verge.data = world.verge.data ∧
    (world.applyVergePatchLocked call).2.verge.draft = none ∧
    ∀ origin ∈ (world.applyVergePatchLocked call).2.core.origin, origin = world.verge.data

/-- Nothing is staged, and a running core runs a configuration of the committed record. -/
structure Settled (world : World) : Prop where
  unstaged : world.verge.draft = none
  current : ∀ origin ∈ world.core.origin, origin = world.verge.data

namespace VergeCall

variable (call : VergeCall) (world : World)

def succeeds : Bool :=
  call.effects.succeed (determineUpdateFlags world.os call.patch) call.patch
    (world.stageVerge call.patch)

def reachesCore : Bool :=
  call.effects.reachCore (determineUpdateFlags world.os call.patch) (world.stageVerge call.patch)

/-- The committed record is not to be written, or is written. -/
def saves : Bool := call.notSaveFile || call.saved.isOk

end VergeCall

namespace World

variable (world : World)

def afterEffects (call : VergeCall) : World :=
  ((world.stageVerge call.patch).processTerminatedFlags (determineUpdateFlags world.os call.patch)
    call.patch call.effects).2

/-- A call that carries out its effects commits the patch when they succeed and drops it when one
fails; all else is as the effects leave it. -/
theorem applyVergePatchLocked_spec (call : VergeCall) (unclaimed : world.vergeClaimed = false) :
    (world.applyVergePatchLocked call).2 = { world.afterEffects call with
        verge := if call.succeeds world then (world.stageVerge call.patch).verge.apply
          else (world.stageVerge call.patch).verge.discard
        vergeClaimed := false } ∧
      (world.applyVergePatchLocked call).1.isOk = (call.succeeds world && call.saves) := by
  have verge := (world.stageVerge call.patch).processTerminatedFlags_verge
    (determineUpdateFlags world.os call.patch) call.patch call.effects
  have succeeds := (world.stageVerge call.patch).processTerminatedFlags_isOk
    (determineUpdateFlags world.os call.patch) call.patch call.effects
  unfold applyVergePatchLocked afterEffects VergeCall.succeeds
  rw [← succeeds, ← verge]
  cases effects : (world.stageVerge call.patch).processTerminatedFlags
    (determineUpdateFlags world.os call.patch) call.patch call.effects with
  | mk result left =>
    cases result with
    | error error => simp [unclaimed, Except.isOk, Except.toBool]
    | ok done =>
      cases quiet : call.notSaveFile <;>
        simp [unclaimed, quiet, VergeCall.saves, Except.isOk, Except.toBool]

theorem applyVergePatchLocked_core (call : VergeCall) (unclaimed : world.vergeClaimed = false) :
    (world.applyVergePatchLocked call).2.core = (world.afterEffects call).core := by
  simp only [(world.applyVergePatchLocked_spec call unclaimed).1]

theorem applyVergePatchLocked_runtime (call : VergeCall) (unclaimed : world.vergeClaimed = false) :
    (world.applyVergePatchLocked call).2.runtime = (world.afterEffects call).runtime := by
  simp only [(world.applyVergePatchLocked_spec call unclaimed).1]

theorem applyVergePatchLocked_clash (call : VergeCall) :
    (world.applyVergePatchLocked call).2.clash = world.clash := by
  cases claimed : world.vergeClaimed with
  | true => simp [applyVergePatchLocked, claimed]
  | false =>
    simp only [(world.applyVergePatchLocked_spec call claimed).1]
    rw [afterEffects, processTerminatedFlags_clash, stageVerge]

theorem applyVergePatchLocked_verge (call : VergeCall) (unclaimed : world.vergeClaimed = false)
    (unstaged : world.verge.draft = none) :
    (world.applyVergePatchLocked call).2.verge = Slot.new
      (if call.succeeds world then world.verge.data.patchConfig call.patch else world.verge.data) := by
  rw [(world.applyVergePatchLocked_spec call unclaimed).1]
  split <;> simp [stageVerge, Slot.apply, Slot.editDraft, Slot.discard, Slot.new,
    Slot.latest_of_draft_none unstaged]

theorem applyVergePatchLocked_reached {call : VergeCall} (unclaimed : world.vergeClaimed = false)
    (unstaged : world.verge.draft = none) (reached : call.reachesCore world = true) :
    (world.applyVergePatchLocked call).2.core.origin =
      some (world.verge.data.patchConfig call.patch) := by
  unfold VergeCall.reachesCore at reached
  rw [applyVergePatchLocked_core world call unclaimed, afterEffects,
    processTerminatedFlags_origin, if_pos reached]
  simp [stageVerge, Slot.latest_of_draft_none unstaged]

theorem applyVergePatchLocked_unreached {call : VergeCall} (unclaimed : world.vergeClaimed = false)
    (unreached : ¬ call.reachesCore world = true) :
    (world.applyVergePatchLocked call).2.core.origin = world.core.origin ∨
      (world.applyVergePatchLocked call).2.core.origin = none := by
  unfold VergeCall.reachesCore at unreached
  rw [applyVergePatchLocked_core world call unclaimed, afterEffects,
    processTerminatedFlags_origin, if_neg unreached]
  exact ite_eq_or_eq _ _ _

/-- A call that fails rolls back exactly when the layer was claimed by another, the patch changes
nothing, or an effect failed before the patch reached the core. -/
theorem failed_patch_rolls_back (call : VergeCall) (settled : Settled world) :
    RollsBack world call ↔
      world.vergeClaimed = true ∨ world.verge.data.patchConfig call.patch = world.verge.data ∨
        (if call.succeeds world then call.saves else !call.reachesCore world) = true := by
  cases claimed : world.vergeClaimed with
  | true =>
    have refused : (world.applyVergePatchLocked call).2 = world := by
      simp [applyVergePatchLocked, claimed]
    simp only [RollsBack, refused, true_or, iff_true]
    exact fun _ => ⟨trivial, settled.unstaged, settled.current⟩
  | false =>
    have verge := world.applyVergePatchLocked_verge call claimed settled.unstaged
    have isOk := (world.applyVergePatchLocked_spec call claimed).2
    have current : (∀ origin ∈ (world.applyVergePatchLocked call).2.core.origin,
        origin = world.verge.data) ↔
          world.verge.data.patchConfig call.patch = world.verge.data ∨
            call.reachesCore world = false := by
      by_cases reached : call.reachesCore world = true
      · rw [applyVergePatchLocked_reached world claimed settled.unstaged reached]
        simp [reached]
      · obtain same | gone :=
          applyVergePatchLocked_unreached world claimed reached
        · rw [same]
          exact iff_of_true settled.current (.inr (by simpa using reached))
        · rw [gone]
          exact iff_of_true (by simp) (.inr (by simpa using reached))
    unfold RollsBack
    rw [verge, isOk, current]
    cases call.succeeds world <;> cases call.saves <;> simp +contextual

def launchRefused : PatchEffects :=
  let restart : Replacement := ⟨.stopped, .started .sidecar, true, .ok ()⟩
  { restart := ⟨.ok [], restart⟩
    update := ⟨.ok [], .ok .valid, .ok (), ⟨false, .unsupported, none, .ok (), restart⟩⟩
    updateLaunch := .error "the autostart entry cannot be written"
    applyProxyAfterStart := .ok ()
    applyProxy := .ok ()
    refreshGuard := .ok ()
    updateHotkeys := fun _ => .ok ()
    updateMenu := .ok ()
    updateIcon := fun _ => .ok ()
    updateTooltip := .ok ()
    updateClickBehavior := .ok ()
    updateLogLevel := fun _ => .ok ()
    updateLogConfig := fun _ _ => .ok () }

theorem settled_atRest (os : Os) (mode : CoreMode) (loaded : Loaded) :
    Settled (.atRest os mode loaded) :=
  ⟨rfl, fun _ same => (Option.some.inj same).symm⟩

/-- A patch of the autostart entry alone is rolled back. -/
theorem failed_launch_rolls_back : RollsBack (.atRest .linux .sidecar ⟨[], .default⟩)
      ⟨IVerge.default.set .enableAutoLaunch true, false, launchRefused, .ok ()⟩ :=
  (failed_patch_rolls_back _ _ (settled_atRest _ _ _)).mpr (.inr (.inr (by decide +kernel)))

/-- A port change whose restart succeeds and whose autostart entry cannot be written: the call
fails, and the core keeps running on the rejected port. -/
theorem rejected_patch_keeps_running :
    ¬ ∀ (world : World) (call : VergeCall), Settled world → RollsBack world call := by
  intro rollsBack
  let world : World := .atRest .linux .sidecar ⟨[], .default⟩
  let patch := (IVerge.default.set .vergeMixedPort (7890 : Nat)).set .enableAutoLaunch true
  let call : VergeCall := ⟨patch, false, launchRefused, .ok ()⟩
  have isOk := (world.applyVergePatchLocked_spec call rfl).2
  have failed : call.succeeds world = false := by decide +kernel
  have reached : call.reachesCore world = true := by decide +kernel
  obtain ⟨-, -, current⟩ := rollsBack world call (settled_atRest _ _ _)
    (by rw [isOk, failed, Bool.false_and])
  rw [applyVergePatchLocked_reached world rfl rfl reached] at current
  have mixedPort := congrFun (current _ rfl) .vergeMixedPort
  exact absurd mixedPort nofun

end World

end ClashVerge.Config
