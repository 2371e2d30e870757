import ClashVerge.Config.Update
import ClashVerge.Library.Transition

/-!
# Patching the clash configuration

`patch_clash` stages a patch, carries out its effects, and commits the patch once they have
succeeded. The `?` of the effects leaves the function itself: the branch that discards the draft is
never taken, and a call whose effects fail leaves its patch staged for whoever commits next. A run
of calls is all-or-nothing exactly when the effects of every call succeed.
-/

namespace ClashVerge.Config

open ClashVerge.Draft ClashVerge.Verge ClashVerge.Yaml

/-- `IClashTemp::patch_config`. -/
def patchClashConfig (config patch : Mapping) : Mapping := OrderedMap.extend config patch

structure ClashCall where
  patch : Mapping
  restart : Restart
  update : Update
  saved : Except String Unit

/-- The patch touches what the core reads only when it starts. -/
def ClashCall.restarts (call : ClashCall) : Bool :=
  call.patch.containsKey "secret" || call.patch.containsKey "external-controller"

namespace World

variable (world : World)

/-- The block of `patch_clash` that computes `res`. The outer error is that of a `?`. -/
def patchClashEffects (call : ClashCall) : Outcome (Except String Unit) :=
  let outcome := if call.restarts then world.generateAndRestart call.restart
    else world.updateConfigChecked call.update
  (outcome.1.map .ok, outcome.2)

def stageClash (patch : Mapping) : World :=
  { world with clash := world.clash.editDraft (patchClashConfig · patch) }

def patchClash (call : ClashCall) : Outcome Unit :=
  match (world.stageClash call.patch).patchClashEffects call with
  | (.error error, left) => (.error error, left)
  | (.ok (.ok ()), left) => (call.saved, { left with clash := left.clash.apply })
  | (.ok (.error error), left) => (.error error, { left with clash := left.clash.discard })

def effectsSucceed (call : ClashCall) : Bool :=
  match ((world.stageClash call.patch).patchClashEffects call).1 with
  | .ok res => res.isOk
  | .error _ => false

def patchClashStep (call : ClashCall) : Option World := some (world.patchClash call).2

def acceptedPatches (world : World) : List ClashCall → List Mapping
  | [] => []
  | call :: rest =>
    if world.effectsSucceed call then call.patch :: (world.patchClash call).2.acceptedPatches rest
    else (world.patchClash call).2.acceptedPatches rest

end World

/-- A run of calls publishes exactly the accepted patches, and no failed call leaves a draft. -/
structure AllOrNothing (start : World) (calls : List ClashCall) : Prop where
  committed : ∀ final, Transition.run World.patchClashStep start calls = some final →
    final.clash.data = (start.acceptedPatches calls).foldl patchClashConfig start.clash.data
  unstaged : Transition.Meets World.patchClashStep (fun world call =>
    (world.patchClash call).1.isOk = false → (world.patchClash call).2.clash.draft = none) start calls

/-- On the restart path a configuration to generate and a replacement that succeeds, otherwise an
update that is let in and commits. -/
def ClashCall.succeeds (call : ClashCall) (world : World) : Bool :=
  if call.restarts then call.restart.succeeds world
  else world.admits && call.update.commits world

theorem isOk_passed_on (result : Except String Unit) :
    (result.map fun done => (.ok done : Except String Unit)).isOk = result.isOk := by
  cases result <;> rfl

namespace World

variable (world : World)

theorem patchClashEffects_clash (call : ClashCall) :
    (world.patchClashEffects call).2.clash = world.clash := by
  cases restarts : call.restarts with
  | true => simp [patchClashEffects, restarts, (world.generateAndRestart_spec call.restart).1]
  | false =>
    cases admits : world.admits with
    | true =>
      simp [patchClashEffects, restarts, (world.updateConfigChecked_spec call.update admits).1]
    | false =>
      simp [patchClashEffects, restarts, (world.updateConfigChecked_refused call.update admits).1]

theorem patchClashEffects_isOk (call : ClashCall) :
    (world.patchClashEffects call).1.isOk = call.succeeds world := by
  unfold patchClashEffects
  rw [isOk_passed_on]
  cases restarts : call.restarts with
  | true =>
    simp [ClashCall.succeeds, restarts, (world.generateAndRestart_spec call.restart).2]
  | false =>
    cases admits : world.admits with
    | true =>
      simp [ClashCall.succeeds, restarts, admits,
        (world.updateConfigChecked_spec call.update admits).2]
    | false =>
      simp [ClashCall.succeeds, restarts, admits,
        (world.updateConfigChecked_refused call.update admits).2]

theorem patchClashEffects_res {call : ClashCall} {res : Except String Unit}
    (result : (world.patchClashEffects call).1 = .ok res) : res = .ok () := by
  unfold patchClashEffects at result
  generalize (if call.restarts then world.generateAndRestart call.restart
    else world.updateConfigChecked call.update) = outcome at result
  cases effects : outcome.1 <;> simp_all [Except.map]

theorem patchClash_clash (call : ClashCall) : (world.patchClash call).2.clash =
      if call.succeeds world then (world.stageClash call.patch).clash.apply
      else (world.stageClash call.patch).clash := by
  have untouched := (world.stageClash call.patch).patchClashEffects_clash call
  have isOk := (world.stageClash call.patch).patchClashEffects_isOk call
  have inputs : call.succeeds (world.stageClash call.patch) = call.succeeds world := rfl
  rw [inputs] at isOk
  unfold patchClash
  cases effects : (world.stageClash call.patch).patchClashEffects call with
  | mk result left =>
    rw [effects] at untouched isOk
    cases result with
    | error error =>
      have fails : call.succeeds world = false := isOk.symm
      simpa [fails] using untouched
    | ok res =>
      obtain rfl := patchClashEffects_res _ (by rw [effects])
      have succeeds : call.succeeds world = true := isOk.symm
      simpa [succeeds] using congrArg Slot.apply untouched

theorem patchClash_isOk (call : ClashCall) :
    (world.patchClash call).1.isOk = (call.succeeds world && call.saved.isOk) := by
  have isOk := (world.stageClash call.patch).patchClashEffects_isOk call
  have inputs : call.succeeds (world.stageClash call.patch) = call.succeeds world := rfl
  rw [inputs] at isOk
  unfold patchClash
  cases effects : (world.stageClash call.patch).patchClashEffects call with
  | mk result left =>
    rw [effects] at isOk
    cases result with
    | error error => simp_all [Except.isOk, Except.toBool]
    | ok res =>
      obtain rfl := patchClashEffects_res _ (by rw [effects])
      simp_all [Except.isOk, Except.toBool]

theorem effectsSucceed_eq (call : ClashCall) : world.effectsSucceed call = call.succeeds world := by
  have isOk := (world.stageClash call.patch).patchClashEffects_isOk call
  have inputs : call.succeeds (world.stageClash call.patch) = call.succeeds world := rfl
  rw [inputs] at isOk
  unfold effectsSucceed
  cases result : ((world.stageClash call.patch).patchClashEffects call).1 with
  | error error => simp_all [Except.isOk, Except.toBool]
  | ok res =>
    obtain rfl := patchClashEffects_res _ result
    simp_all [Except.isOk, Except.toBool]

theorem committed_of_meets {calls : List ClashCall} {start final : World}
    (empty : start.clash.draft = none)
    (meets : Transition.Meets patchClashStep (fun world call => call.succeeds world = true)
      start calls)
    (ran : Transition.run patchClashStep start calls = some final) :
    final.clash.data = (start.acceptedPatches calls).foldl patchClashConfig start.clash.data := by
  induction calls generalizing start with
  | nil =>
    obtain rfl : start = final := Option.some.inj ran
    rfl
  | cons call rest ih =>
    obtain ⟨succeeds, remaining⟩ := meets
    obtain ⟨next, taken, runs⟩ := (Transition.run_cons_iff _ _ _ _ _).mp ran
    obtain rfl : (start.patchClash call).2 = next := Option.some.inj taken
    have clash := start.patchClash_clash call
    rw [if_pos succeeds] at clash
    have cleared : (start.patchClash call).2.clash.draft = none := by simp [clash]
    have data : (start.patchClash call).2.clash.data =
        patchClashConfig start.clash.data call.patch := by
      simp [clash, stageClash, Slot.latest_of_draft_none empty]
    rw [ih cleared (remaining _ rfl) runs, data]
    simp [acceptedPatches, effectsSucceed_eq, succeeds]

/-- A run of `patch_clash` calls on a committed configuration is all-or-nothing exactly when the
effects of every call get what they need. -/
theorem patch_clash_all_or_nothing (config : Mapping) (calls : List ClashCall) :
    AllOrNothing { world with clash := Slot.new config } calls ↔
      Transition.Meets patchClashStep (fun world call => call.succeeds world = true)
        { world with clash := Slot.new config } calls := by
  constructor
  · rintro ⟨-, unstaged⟩
    refine unstaged.mono fun reached call cleared => ?_
    by_contra fails
    have clash := reached.patchClash_clash call
    rw [if_neg fails] at clash
    have isOk := reached.patchClash_isOk call
    simp only [Bool.not_eq_true] at fails
    have left := cleared (by simp [isOk, fails])
    simp [clash, stageClash] at left
  · intro meets
    constructor
    · exact fun final ran => committed_of_meets rfl meets ran
    · refine meets.mono fun reached call succeeds _ => ?_
      simp [reached.patchClash_clash call, succeeds]

/-- A patch whose update could not generate a configuration, committed by the next call. -/
theorem rejected_patch_committed_later :
    ¬ ∀ (world : World) (config : Mapping) (calls : List ClashCall),
      AllOrNothing { world with clash := Slot.new config } calls := by
  intro allOrNothing
  let restart : Replacement := ⟨.stopped, .started .sidecar, true, .ok ()⟩
  let reload : Application := ⟨false, .unsupported, none, .ok (), restart⟩
  let update (generated : Except String Mapping) : Update := ⟨generated, .ok .valid, .ok (), reload⟩
  let call (patch : Mapping) (generated : Except String Mapping) : ClashCall :=
    ⟨patch, ⟨generated, restart⟩, update generated, .ok ()⟩
  have committed := (allOrNothing (.atRest .linux .sidecar ⟨[], .default⟩) []
    [call [(.string "allow-lan", .bool true)] (.error "the profile is not a mapping"),
      call [(.string "mode", .string "rule")] (.ok [])]).committed _ rfl
  exact absurd committed (by decide)

end World

end ClashVerge.Config
