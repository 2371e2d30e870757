import ClashVerge.Enhance.BindAddress
import ClashVerge.Runstate.Store

/-!
# Upgrading the core

`upgrade_core` downloads a release, stages it beside the managed core, renames it into place, hands
it to the service and restarts. Two copies change on the way: the managed file, and the copy that
the service has approved. A failure after the replacement is rolled back where a hard link to the
previous core was made first.

Where none could be made and the service refuses the new core, the managed file stays new and the
approved copy old, and the next upgrade reads the new version and finds nothing to do.
-/

namespace ClashVerge.Feat

open ClashVerge.Enhance ClashVerge.Runstate

/-- The content of an executable or of a package. -/
abbrev Bytes := List UInt8

inductive ProxyType where
  | localhost
  | system
  | none
deriving DecidableEq, Repr

def ProxyType.debug : ProxyType → String
  | .localhost => "Localhost"
  | .system => "System"
  | .none => "None"

structure Response where
  success : Bool
  status : String
  text : String
deriving Repr

/-- What running an executable with `-v` leaves. -/
structure ProbeOutput where
  success : Bool
  status : String
  stdout : String
deriving Repr

/-- The files that `upgrade_core` removes without looking at the result. -/
inductive Removal where
  | staleRollback
  | staleDisplaced
  | publishedDisplaced
  | rollback
  | displaced
deriving DecidableEq, Repr

structure Course where
  /-- `get_valid_clash_core`. -/
  core : String
  windows : Bool
  currentExe : Except String Unit
  execute : Bytes → Except String ProbeOutput
  get : ProxyType → Except String Response
  download : ProxyType → String → Except String Bytes
  /-- `create_staging_file`, `unpack`, the permissions and the flush. -/
  writeStaged : Bytes → Except String Bytes
  hardLink : Bool
  runningMode : RunningMode
  /-- The rename that replaces the target, and on Windows the three that go around it. -/
  renames : Bool
  movesAside : Bool
  renamesAgain : Bool
  movesBack : Bool
  stageApproved : Except String Unit
  restartCore : Except String Unit
  /-- The running mode that the error path reads. -/
  modeAfterwards : RunningMode
  rollbackRenames : Bool
  restage : Except String Unit
  removes : Removal → Bool

/-- The managed core and its names beside it, and the copy that the service has approved. -/
structure Files where
  target : Option Bytes
  rollback : Option Bytes
  displaced : Option Bytes
  approved : Option Bytes
deriving DecidableEq, Repr

structure CoreUpgradeReport where
  upgraded : Bool
  from_ : String
  to_ : String
deriving DecidableEq, Repr

inductive ServiceStaging where
  | notAttempted
  | succeeded
  | refused
deriving DecidableEq, Repr

def splitWhitespace (chars : List Char) : List (List Char) :=
  (chars.splitOnP isWhitespace).filter (· ≠ [])

def isAsciiAlphanumeric (char : Char) : Bool :=
  ('0' ≤ char && char ≤ '9') || ('a' ≤ char && char ≤ 'z') || ('A' ≤ char && char ≤ 'Z')

def isUsableVersion (version : String) : Bool :=
  version.toList.head?.any isAsciiAlphanumeric && version.utf8ByteSize ≤ 64 &&
    version.toList.all fun char => isAsciiAlphanumeric char || ['.', '-', '_'].contains char

def releaseVersionUrl : String :=
  "https://github.com/MetaCubeX/mihomo/releases/latest/download/version.txt"

def alphaBaseUrl : String := "https://github.com/MetaCubeX/mihomo/releases/download/Prerelease-Alpha"

namespace Course

variable (course : Course)

def alpha : Bool := course.core.endsWith "-alpha"

def readCoreVersion : Option Bytes → Except String String
  | none => .error "failed to run the core"
  | some image =>
    match course.execute image with
    | .error error => .error s!"failed to run the core: {error}"
    | .ok output =>
      if !output.success then .error s!"the core exited with {output.status}"
      else match (splitWhitespace output.stdout.toList)[2]? with
        | some version => .ok (String.ofList version)
        | none => .error s!"unexpected version output: {output.stdout}"

def versionUrl : String :=
  if course.alpha then alphaBaseUrl ++ "/version.txt" else releaseVersionUrl

/-- The loop of `resolve_latest_version`, with the error it would end in. -/
def resolveFrom (lastError : Option String) : List ProxyType → Except String (ProxyType × String)
  | [] => .error
      (lastError.getD ("failed to read the latest core version from " ++ course.versionUrl))
  | proxy :: rest =>
    match course.get proxy with
    | .ok response =>
      if response.success then
        let version := String.ofList (trim response.text.toList)
        if !isUsableVersion version then
          resolveFrom (some (course.versionUrl ++ " returned an unusable version")) rest
        else .ok (proxy, version)
      else resolveFrom (some (course.versionUrl ++ " returned status " ++ response.status)) rest
    | .error error =>
      resolveFrom (some (proxy.debug ++ " could not reach " ++ course.versionUrl ++ ": " ++ error))
        rest

def resolveLatestVersion : Except String (ProxyType × String) :=
  course.resolveFrom none [.localhost, .system, .none]

def stageCore (package : Bytes) (version : String) : Except String Bytes :=
  match course.writeStaged package with
  | .error error => .error error
  | .ok staged =>
    match course.readCoreVersion (some staged) with
    | .error error => .error s!"the staged core is not runnable: {error}"
    | .ok stagedVersion =>
      if stagedVersion != version then
        .error s!"the staged core reports {stagedVersion}, expected {version}"
      else .ok staged

/-- What `upgrade_core` holds before it touches a file that is in use. -/
inductive Prepared where
  | report (report : CoreUpgradeReport)
  | staged (installed latest : String) (image : Bytes)

/-- The version of the managed core, empty where it reports none. -/
def installed (target : Option Bytes) : String := (course.readCoreVersion target).toOption.getD ""

/-- `upgrade_core` until the new core is staged. -/
def prepare (force : Bool) (target : Option Bytes) : Except String Prepared :=
  match course.currentExe with
  | .error error => .error s!"failed to locate the current executable: {error}"
  | .ok () =>
    let installed := course.installed target
    match course.resolveLatestVersion with
    | .error error => .error error
    | .ok (proxy, latest) =>
      if !force && installed == latest then .ok (.report ⟨false, installed, latest⟩)
      else match course.download proxy latest with
        | .error error => .error error
        | .ok package =>
          match course.stageCore package latest with
          | .error error => .error error
          | .ok staged => .ok (.staged installed latest staged)

/-- A removal whose result is not looked at. -/
def remove (removal : Removal) (file : Option Bytes) : Option Bytes :=
  if course.removes removal then none else file

/-- Remove a stale rollback name and link the managed core to it, unless the core could not report a
version. A name that is still taken refuses the link. -/
def linkRollback (installed : String) (files : Files) : Bool × Files :=
  let files := { files with rollback := course.remove .staleRollback files.rollback }
  match files.target, files.rollback with
  | some image, none =>
    if !installed.isEmpty && course.hardLink then (true, { files with rollback := some image })
    else (false, files)
  | _, _ => (false, files)

def publish (staged : Bytes) (files : Files) : Except String Unit × Files :=
  if course.renames then (.ok (), { files with target := some staged })
  else if !course.windows then (.error "failed to publish the core", files)
  else
    -- A running executable cannot be replaced on Windows, but it can be moved aside.
    let files := { files with displaced := course.remove .staleDisplaced files.displaced }
    if files.target.isNone || !course.movesAside then
      (.error "failed to move the running core aside", files)
    else
      let files := { files with target := none, displaced := files.target }
      if course.renamesAgain then
        (.ok (), { files with
          target := some staged
          displaced := course.remove .publishedDisplaced files.displaced })
      else if course.movesBack then
        (.error "failed to publish the core",
          { files with target := files.displaced, displaced := none })
      else (.error "failed to publish the core and to restore it", files)

/-- `stage_approved_core`: the service copies the managed core, or refuses and keeps its own. -/
def stageApprovedCore (answer : Except String Unit) (files : Files) : Except String Unit × Files :=
  match answer, files.target with
  | .ok (), some image => (.ok (), { files with approved := some image })
  | .ok (), none => (.error "core not found", files)
  | .error error, _ => (.error error, files)

def handOver (published : Except String Unit × Files) :
    Except String Unit × ServiceStaging × Files :=
  match published with
  | (.error error, files) => (.error error, .notAttempted, files)
  | (.ok (), files) =>
    if course.runningMode = .service then
      match stageApprovedCore course.stageApproved files with
      | (.ok (), files) => (.ok (), .succeeded, files)
      | (.error error, files) =>
        (.error s!"core replaced but not accepted by the service: {error}", .refused, files)
    else (.ok (), .notAttempted, files)

/-- The condition under which the error path renames the rollback name over the core. -/
def rollsBack (restorable : Bool) (staging : ServiceStaging) (files : Files) : Bool :=
  restorable &&
    (staging == .refused || course.modeAfterwards == .notRunning || files.target.isNone) &&
    course.rollbackRenames

/-- The error path. A rename between two links of one file leaves the name, which is removed
    afterwards either way. -/
def rollBack (restorable : Bool) (staging : ServiceStaging) (files : Files) : Files :=
  let files :=
    if course.rollsBack restorable staging files then
      let files := { files with target := files.rollback, rollback := none }
      if staging = .succeeded then (stageApprovedCore course.restage files).2 else files
    else files
  { files with
    rollback := course.remove .rollback files.rollback
    displaced :=
      if course.windows && restorable then course.remove .displaced files.displaced
      else files.displaced }

/-- `upgrade_core` from the rollback link on. -/
def replace (installed latest : String) (staged : Bytes) (files : Files) :
    Except String CoreUpgradeReport × Files :=
  let (restorable, files) := course.linkRollback installed files
  let (result, staging, files) := course.handOver (course.publish staged files)
  let result := match result with
    | .ok () => course.restartCore.mapError ("core replaced but failed to restart: " ++ ·)
    | .error error => .error error
  match result with
  | .error error => (.error error, course.rollBack restorable staging files)
  | .ok () =>
    (.ok ⟨true, installed, latest⟩, { files with
      rollback := course.remove .rollback files.rollback
      displaced :=
        if course.windows then course.remove .displaced files.displaced else files.displaced })

def upgradeCore (force : Bool) (files : Files) : Except String CoreUpgradeReport × Files :=
  match course.prepare force files.target with
  | .error error => (.error error, files)
  | .ok (.report report) => (.ok report, files)
  | .ok (.staged installed latest staged) => course.replace installed latest staged files

/-! ## What each part leaves -/

theorem version_ne_empty {target : Option Bytes} {version : String}
    (reports : course.readCoreVersion target = .ok version) : version.isEmpty = false := by
  cases target with
  | none => simp [readCoreVersion] at reports
  | some image =>
    cases ran : course.execute image with
    | error error => simp [readCoreVersion, ran] at reports
    | ok output =>
      simp only [readCoreVersion, ran] at reports
      cases word : (splitWhitespace output.stdout.toList)[2]? with
      | none => split at reports <;> simp [word] at reports
      | some chars =>
        have member : chars ∈ splitWhitespace output.stdout.toList := List.mem_of_getElem? word
        have nonempty : chars ≠ [] := by simpa [splitWhitespace] using (List.mem_filter.mp member).2
        split at reports
        · simp at reports
        · simp only [word, Except.ok.injEq] at reports
          rw [← reports]
          simpa using nonempty

theorem installed_isEmpty (target : Option Bytes) : (course.installed target).isEmpty = false ↔
      ∃ version, course.readCoreVersion target = .ok version := by
  unfold installed
  cases reports : course.readCoreVersion target with
  | error error => simp [Except.toOption]
  | ok version =>
    have nonempty := course.version_ne_empty reports
    simpa [Except.toOption] using nonempty

/-- The previous core reports a version and a hard link to it is made. -/
def Restorable (files : Files) : Prop :=
  (∃ version, course.readCoreVersion files.target = .ok version) ∧ course.hardLink = true ∧
    course.remove .staleRollback files.rollback = none

/-- The staged core reaches the place of the managed one. -/
def Publishes (files : Files) : Prop :=
  course.renames = true ∨ (course.windows = true ∧ files.target.isSome = true ∧
    course.movesAside = true ∧ course.renamesAgain = true)

/-- On Windows the managed core is moved aside, and neither the new one nor the old one can then
    be moved to its place. -/
def LosesCore (files : Files) : Prop :=
  course.renames = false ∧ course.windows = true ∧ files.target.isSome = true ∧
    course.movesAside = true ∧ course.renamesAgain = false ∧ course.movesBack = false

instance (files : Files) : Decidable (course.LosesCore files) := by
  unfold LosesCore; infer_instance

theorem linkRollback_eq (files : Files) :
    ∃ restorable rollback, course.linkRollback (course.installed files.target) files =
        (restorable, { files with rollback := rollback }) ∧
      (restorable = true ↔ course.Restorable files) ∧
      (course.Restorable files → files.target.isSome = true ∧ rollback = files.target) := by
  unfold linkRollback Restorable
  rw [← installed_isEmpty]
  cases target : files.target with
  | none =>
    exact ⟨false, course.remove .staleRollback files.rollback, by
      simp [installed, readCoreVersion, Except.toOption]⟩
  | some image =>
    cases stale : course.remove .staleRollback files.rollback with
    | some old => exact ⟨false, some old, by simp⟩
    | none =>
      by_cases linked : (course.installed (some image)).isEmpty = false ∧ course.hardLink = true
      · exact ⟨true, some image, by simp [linked.1, linked.2]⟩
      · refine ⟨false, none, ?_, by simpa using linked, fun both =>
          absurd ⟨both.1, both.2.1⟩ linked⟩
        simp only [not_and, Bool.not_eq_true] at linked
        cases empty : (course.installed (some image)).isEmpty with
        | true => simp
        | false => simp [linked empty]

theorem Restorable.target {course : Course} {files : Files} (restores : course.Restorable files) :
    ∃ image, files.target = some image := by
  obtain ⟨⟨version, reports⟩, -⟩ := restores
  cases target : files.target with
  | none => simp [target, readCoreVersion] at reports
  | some image => exact ⟨image, rfl⟩

theorem publish_cases (staged : Bytes) (files : Files) :
    (course.Publishes files ∧ ∃ displaced, course.publish staged files =
      (.ok (), { files with target := some staged, displaced := displaced })) ∨
    (¬course.Publishes files ∧ ∃ error displaced, course.publish staged files =
      (.error error, { files with
        target := if course.LosesCore files then none else files.target
        displaced := displaced })) := by
  by_cases renames : course.renames = true
  · exact .inl ⟨.inl renames, files.displaced, by simp [publish, renames]⟩
  have notLost (safe : ¬course.LosesCore files) :
      (if course.LosesCore files then none else files.target) = files.target := if_neg safe
  by_cases windows : course.windows = true
  · by_cases moves : files.target.isSome = true ∧ course.movesAside = true
    · obtain ⟨present, aside⟩ := moves
      obtain ⟨image, target⟩ := Option.isSome_iff_exists.mp present
      by_cases again : course.renamesAgain = true
      · exact .inl ⟨.inr ⟨windows, present, aside, again⟩,
          course.remove .publishedDisplaced (some image), by
            simp [publish, renames, windows, target, aside, again]⟩
      · refine .inr ⟨by simp [Publishes, renames, again], ?_⟩
        by_cases back : course.movesBack = true
        · have safe : ¬course.LosesCore files := by simp [LosesCore, back]
          rw [notLost safe]
          exact ⟨"failed to publish the core", none, by
            simp [publish, renames, windows, target, aside, again, back]⟩
        · have lost : course.LosesCore files := by
            simp [LosesCore, renames, windows, present, aside, again, back]
          rw [if_pos lost]
          exact ⟨"failed to publish the core and to restore it", some image, by
            simp [publish, renames, windows, target, aside, again, back]⟩
    · have stays : (files.target.isNone || !course.movesAside) = true := by
        cases target : files.target <;> simp_all
      refine .inr ⟨by simp [Publishes, renames]; tauto,
        "failed to move the running core aside", course.remove .staleDisplaced files.displaced, ?_⟩
      rw [notLost fun lost => moves ⟨lost.2.2.1, lost.2.2.2.1⟩]
      simp only [publish, renames, windows, stays]
      rfl
  · refine .inr ⟨by simp [Publishes, renames, windows], "failed to publish the core",
      files.displaced, ?_⟩
    rw [notLost fun lost => windows lost.2.1]
    simp only [publish, renames, windows]
    rfl

theorem handOver_ok (files : Files) {image : Bytes} (present : files.target = some image) :
    (course.runningMode = .service ∧ course.stageApproved = .ok () ∧
      course.handOver (.ok (), files) =
        (.ok (), .succeeded, { files with approved := some image })) ∨
    (course.runningMode = .service ∧ course.stageApproved ≠ .ok () ∧ ∃ error,
      course.handOver (.ok (), files) = (.error error, .refused, files)) ∨
    (course.runningMode ≠ .service ∧
      course.handOver (.ok (), files) = (.ok (), .notAttempted, files)) := by
  unfold handOver stageApprovedCore
  by_cases service : course.runningMode = .service
  · cases answer : course.stageApproved with
    | ok => exact .inl (by simp [service, present])
    | error error => exact .inr (.inl (by simp [service]))
  · exact .inr (.inr (by simp [service]))

theorem handOver_accepted (files : Files) {image : Bytes} (present : files.target = some image)
    (accepted : course.runningMode = .service → course.stageApproved = .ok ()) :
    ∃ staging approved,
      course.handOver (.ok (), files) = (.ok (), staging, { files with approved := approved }) ∧
      (staging = .succeeded ↔ course.runningMode = .service) ∧ staging ≠ .refused ∧
      (course.runningMode = .service → approved = some image) := by
  obtain ⟨service, -, hands⟩ | ⟨service, refuses, -⟩ | ⟨elsewhere, hands⟩ :=
    course.handOver_ok files present
  · exact ⟨.succeeded, some image, hands, by simp [service], by simp, fun _ => rfl⟩
  · exact absurd (accepted service) refuses
  · exact ⟨.notAttempted, files.approved, hands, by simp [elsewhere], by simp,
      fun service => absurd service elsewhere⟩

theorem rollBack_stays {restorable : Bool} {staging : ServiceStaging} {files : Files}
    (stays : course.rollsBack restorable staging files = false) :
    (course.rollBack restorable staging files).target = files.target ∧
      (course.rollBack restorable staging files).approved = files.approved := by
  simp [rollBack, stays]

theorem rollBack_rolls {restorable : Bool} {staging : ServiceStaging} {files : Files}
    {previous : Bytes} (rolls : course.rollsBack restorable staging files = true)
    (linked : files.rollback = some previous) (restages : course.restage = .ok ()) :
    (course.rollBack restorable staging files).target = some previous ∧
      (course.rollBack restorable staging files).approved =
        if staging = .succeeded then some previous else files.approved := by
  cases staging <;> simp [rollBack, rolls, linked, stageApprovedCore, restages]

end Course

/-! ## Where a failed upgrade leaves the two copies -/

namespace Course

variable (course : Course)

/-- The new core that is staged, if the upgrade gets that far. -/
def stagedImage (force : Bool) (target : Option Bytes) : Option Bytes :=
  match course.prepare force target with
  | .ok (.staged _ _ image) => some image
  | _ => none

/-- The image reports the version that the release has. -/
def Verified (image : Bytes) : Prop :=
  ∃ proxy latest, course.resolveLatestVersion = .ok (proxy, latest) ∧
    course.readCoreVersion (some image) = .ok latest

theorem prepare_staged {force : Bool} {target : Option Bytes} {installed latest : String}
    {image : Bytes} (prepared : course.prepare force target = .ok (.staged installed latest image)) :
    installed = course.installed target ∧ course.Verified image := by
  unfold prepare at prepared
  cases exe : course.currentExe with
  | error error => simp [exe] at prepared
  | ok =>
    cases resolved : course.resolveLatestVersion with
    | error error => simp [exe, resolved] at prepared
    | ok pair =>
      obtain ⟨proxy, version⟩ := pair
      simp only [exe, resolved] at prepared
      split at prepared
      · simp at prepared
      · cases downloaded : course.download proxy version with
        | error error => simp [downloaded] at prepared
        | ok package =>
          cases staged : course.stageCore package version with
          | error error => simp [downloaded, staged] at prepared
          | ok bytes =>
            simp only [downloaded, staged, Except.ok.injEq, Prepared.staged.injEq] at prepared
            obtain ⟨rfl, rfl, rfl⟩ := prepared
            refine ⟨rfl, proxy, version, resolved, ?_⟩
            unfold stageCore at staged
            cases written : course.writeStaged package with
            | error error => simp [written] at staged
            | ok fresh =>
              cases reports : course.readCoreVersion (some fresh) with
              | error error => simp [written, reports] at staged
              | ok reported =>
                simp only [written, reports] at staged
                split at staged
                · simp at staged
                · next same =>
                  cases staged
                  simpa [reports] using same

section

variable {course : Course} {before after : Files} {latest : String} {image : Bytes}

section

variable (renames : course.rollbackRenames = true)
include renames

theorem replace_unpublished
    (restages : course.restage = .ok ()) (unpublished : ¬course.Publishes before)
    (ends : (course.replace (course.installed before.target) latest image before).2 = after) :
    ((course.LosesCore before → course.Restorable before) → after.target = before.target) ∧
      (course.LosesCore before → ¬course.Restorable before → after.target = none) ∧
      after.approved = before.approved := by
  obtain ⟨restorable, rollback, links, made, source⟩ := course.linkRollback_eq before
  obtain ⟨published, -⟩ | ⟨-, error, displaced, refused⟩ :=
    course.publish_cases image { before with rollback := rollback }
  · exact absurd published unpublished
  · have lost_iff : course.LosesCore { before with rollback := rollback } ↔
      course.LosesCore before := Iff.rfl
    simp only [replace, links, refused, handOver, lost_iff] at ends
    cases rolls : course.rollsBack restorable .notAttempted
        { before with
          target := if course.LosesCore before then none else before.target
          rollback := rollback
          displaced := displaced } with
    | true =>
      have restores : course.Restorable before := made.mp (by simp_all [rollsBack])
      obtain ⟨present, rfl⟩ := source restores
      obtain ⟨previous, target⟩ := Option.isSome_iff_exists.mp present
      obtain ⟨target_after, approved_after⟩ := course.rollBack_rolls rolls target restages
      rw [← ends]
      exact ⟨fun _ => target_after.trans target.symm, fun _ gone => absurd restores gone,
        approved_after⟩
    | false =>
      obtain ⟨target_after, approved_after⟩ := course.rollBack_stays rolls
      rw [ends] at target_after approved_after
      refine ⟨fun safe => ?_, fun lost _ => by rw [target_after, if_pos lost], approved_after⟩
      by_cases lost : course.LosesCore before
      · have restores := made.mpr (safe lost)
        simp [rollsBack, restores, lost, renames] at rolls
      · rw [target_after, if_neg lost]

theorem replace_refused (restages : course.restage = .ok ()) (published : course.Publishes before)
    (service : course.runningMode = .service) (refuses : course.stageApproved ≠ .ok ())
    (ends : (course.replace (course.installed before.target) latest image before).2 = after) :
    (course.Restorable before → after.target = before.target) ∧
      (¬course.Restorable before → after.target = some image) ∧
      after.approved = before.approved := by
  obtain ⟨restorable, rollback, links, made, source⟩ := course.linkRollback_eq before
  obtain ⟨-, displaced, publishes⟩ | ⟨unpublished, -⟩ :=
    course.publish_cases image { before with rollback := rollback }
  · obtain ⟨-, accepts, -⟩ | ⟨-, -, error, refused⟩ | ⟨elsewhere, -⟩ := course.handOver_ok
      { before with target := some image, rollback := rollback, displaced := displaced } rfl
    · exact absurd accepts refuses
    · simp only [replace, links, publishes, refused] at ends
      by_cases restores : course.Restorable before
      · obtain ⟨present, rfl⟩ := source restores
        obtain ⟨previous, target⟩ := Option.isSome_iff_exists.mp present
        have rolls : course.rollsBack restorable .refused
            { before with
              target := some image, rollback := before.target, displaced := displaced } = true := by
          simp [rollsBack, made.mpr restores, renames]
        obtain ⟨target_after, approved_after⟩ := course.rollBack_rolls rolls target restages
        rw [← ends]
        exact ⟨fun _ => target_after.trans target.symm, fun gone => absurd restores gone,
          approved_after⟩
      · have stays : course.rollsBack restorable .refused
            { before with
              target := some image, rollback := rollback, displaced := displaced } = false := by
          have unlinked : restorable = false := by
            simpa using fun linked => restores (made.mp linked)
          simp [rollsBack, unlinked]
        obtain ⟨target_after, approved_after⟩ := course.rollBack_stays stays
        rw [ends] at target_after approved_after
        exact ⟨fun linked => absurd linked restores, fun _ => target_after, approved_after⟩
    · exact absurd service elsewhere
  · exact absurd published unpublished

/-- When the restart fails, the approved copy has the bytes of the managed file in service mode,
    be they the new ones or the previous ones. -/
theorem replace_stopped (restages : course.restage = .ok ()) (published : course.Publishes before)
    (accepted : course.runningMode = .service → course.stageApproved = .ok ()) {error : String}
    (failed : (course.replace (course.installed before.target) latest image before).1 = .error error)
    (ends : (course.replace (course.installed before.target) latest image before).2 = after) :
    (after.target = before.target ∧ before.target.isSome = true ∨ after.target = some image) ∧
      (course.Restorable before → course.modeAfterwards = .notRunning →
        after.target = before.target) ∧
      (course.runningMode = .service → after.approved = after.target) := by
  obtain ⟨restorable, rollback, links, made, source⟩ := course.linkRollback_eq before
  obtain ⟨-, displaced, publishes⟩ | ⟨unpublished, -⟩ :=
    course.publish_cases image { before with rollback := rollback }
  · obtain ⟨staging, approved, hands, attempted, unrefused, handed⟩ := course.handOver_accepted
      { before with target := some image, rollback := rollback, displaced := displaced } rfl accepted
    simp only [replace, links, publishes, hands] at failed ends
    cases restarted : course.restartCore with
    | ok => simp [restarted, Except.mapError] at failed
    | error reason =>
      simp only [restarted, Except.mapError] at ends
      cases rolls : course.rollsBack restorable staging
          { before with
            target := some image
            rollback := rollback
            displaced := displaced
            approved := approved } with
      | true =>
        have restores : course.Restorable before := made.mp (by simp_all [rollsBack])
        obtain ⟨present, rfl⟩ := source restores
        obtain ⟨previous, target⟩ := Option.isSome_iff_exists.mp present
        obtain ⟨target_after, approved_after⟩ := course.rollBack_rolls rolls target restages
        rw [ends] at target_after approved_after
        refine ⟨.inl ⟨target_after.trans target.symm, present⟩,
          fun _ _ => target_after.trans target.symm, fun service => ?_⟩
        rw [approved_after, if_pos (attempted.mpr service), target_after]
      | false =>
        obtain ⟨target_after, approved_after⟩ := course.rollBack_stays rolls
        rw [ends] at target_after approved_after
        refine ⟨.inr target_after, fun restores down => ?_, fun service => ?_⟩
        · simp [rollsBack, made.mpr restores, down, renames] at rolls
        · rw [approved_after, target_after]
          exact handed service
  · exact absurd published unpublished

end

end

/-- What a failed upgrade has to leave: a core, the previous or a verified one; the previous one
    where it is restorable and the service refused the new core or the core is down; and in
    service mode the same bytes in the approved copy. -/
structure LeavesAgreement (before after : Files) : Prop where
  present : ∃ image, after.target = some image ∧
    (before.target = some image ∨ course.Verified image)
  restored : course.Restorable before →
    (course.runningMode = .service ∧ course.stageApproved ≠ .ok ()) ∨
      course.modeAfterwards = .notRunning → after.target = before.target
  copies : course.runningMode = .service → after.approved = after.target

/-- Nothing to put back, or a link to put it back from; and a step that does not reach the
    approved copy finds it with the bytes that stay in the managed file. -/
def Recoverable (force : Bool) (before : Files) : Prop :=
  match course.stagedImage force before.target with
  | none => before.target.isSome = true ∧
      (course.runningMode = .service → before.approved = before.target)
  | some image =>
    (course.Publishes before → course.runningMode = .service → course.stageApproved ≠ .ok () →
      (course.Restorable before → before.approved = before.target) ∧
      (¬course.Restorable before → before.approved = some image)) ∧
    (¬course.Publishes before → before.target.isSome = true ∧
      (course.LosesCore before → course.Restorable before) ∧
      (course.runningMode = .service → before.approved = before.target))

section

variable {course : Course} {force : Bool} {before : Files}

/-- A failed upgrade leaves the two copies as they have to be exactly where it finds or makes what
    its failing step needs. -/
theorem failed_upgrade_agrees_iff {error : String} (renames : course.rollbackRenames = true)
    (restages : course.restage = .ok ()) (failed : (course.upgradeCore force before).1 = .error error) :
    course.LeavesAgreement before (course.upgradeCore force before).2 ↔
      course.Recoverable force before := by
  unfold upgradeCore at failed ⊢
  unfold Recoverable stagedImage
  cases prepared : course.prepare force before.target with
  | error early =>
    simp only
    constructor
    · intro leaves
      obtain ⟨image, target, -⟩ := leaves.present
      exact ⟨by simp [target], leaves.copies⟩
    · rintro ⟨present, copies⟩
      obtain ⟨image, target⟩ := Option.isSome_iff_exists.mp present
      exact ⟨⟨image, target, .inl target⟩, fun _ _ => rfl, copies⟩
  | ok prepared_ =>
    cases prepared_ with
    | report report => simp [prepared] at failed
    | staged installed latest image =>
      obtain ⟨rfl, verified⟩ := course.prepare_staged prepared
      simp only [prepared] at failed
      simp only
      generalize ends : (course.replace (course.installed before.target) latest image before).2 =
        after
      by_cases published : course.Publishes before
      · by_cases refused : course.runningMode = .service ∧ course.stageApproved ≠ .ok ()
        · obtain ⟨service, refuses⟩ := refused
          obtain ⟨restored, kept, approved⟩ :=
            replace_refused renames restages published service refuses ends
          refine ⟨fun leaves => ⟨fun _ _ _ => ⟨fun restores => ?_, fun gone => ?_⟩,
            fun unpublished => absurd published unpublished⟩, fun recoverable => ?_⟩
          · rw [← approved, leaves.copies service, restored restores]
          · rw [← approved, leaves.copies service, kept gone]
          · obtain ⟨linked, unlinked⟩ := recoverable.1 published service refuses
            by_cases restores : course.Restorable before
            · obtain ⟨previous, target⟩ := restores.target
              refine ⟨⟨previous, (restored restores).trans target, .inl target⟩,
                fun _ _ => restored restores, fun _ => ?_⟩
              rw [approved, linked restores, restored restores]
            · refine ⟨⟨image, kept restores, .inr verified⟩,
                fun linked => absurd linked restores, fun _ => ?_⟩
              rw [approved, unlinked restores, kept restores]
        · have accepted : course.runningMode = .service → course.stageApproved = .ok () :=
            fun service => Classical.byContradiction fun refuses => refused ⟨service, refuses⟩
          obtain ⟨image_after, restored, copies⟩ :=
            replace_stopped renames restages published accepted failed ends
          refine ⟨fun _ => ⟨fun _ service refuses => absurd ⟨service, refuses⟩ refused,
            fun unpublished => absurd published unpublished⟩, fun _ => ⟨?_, ?_, copies⟩⟩
          · obtain ⟨previous, present⟩ | new := image_after
            · obtain ⟨bytes, target⟩ := Option.isSome_iff_exists.mp present
              exact ⟨bytes, previous.trans target, .inl target⟩
            · exact ⟨image, new, .inr verified⟩
          · rintro restores (refuses | down)
            · exact absurd refuses refused
            · exact restored restores down
      · obtain ⟨stays, lost, approved⟩ := replace_unpublished renames restages published ends
        constructor
        · intro leaves
          obtain ⟨bytes, target, -⟩ := leaves.present
          have safe : course.LosesCore before → course.Restorable before := fun loses =>
            Classical.byContradiction fun gone => by simp [lost loses gone] at target
          refine ⟨fun publishes => absurd publishes published, fun _ => ⟨?_, safe, fun service => ?_⟩⟩
          · rw [← stays safe, target, Option.isSome_some]
          · rw [← approved, leaves.copies service, stays safe]
        · rintro ⟨-, unpublished⟩
          obtain ⟨present, safe, copies⟩ := unpublished published
          obtain ⟨bytes, target⟩ := Option.isSome_iff_exists.mp present
          refine ⟨⟨bytes, (stays safe).trans target, .inl target⟩, fun _ _ => stays safe,
            fun service => ?_⟩
          rw [approved, copies service, stays safe]

end

def twoCores : Bytes → Except String ProbeOutput
  | [1] => .ok ⟨true, "exit status: 0", "Mihomo Meta v1.19.29 linux amd64"⟩
  | [2] => .ok ⟨true, "exit status: 0", "Mihomo Meta v1.19.30 linux amd64"⟩
  | _ => .error "exec format error"

def refusedUpgrade (hardLink : Bool) : Course where
  core := "verge-mihomo"
  windows := false
  currentExe := .ok ()
  execute := twoCores
  get := fun _ => .ok ⟨true, "200 OK", "v1.19.30\n"⟩
  download := fun _ _ => .ok [31]
  writeStaged := fun _ => .ok [2]
  hardLink := hardLink
  runningMode := .service
  renames := true
  movesAside := true
  renamesAgain := true
  movesBack := true
  stageApproved := .error "the prompt was dismissed"
  restartCore := .ok ()
  modeAfterwards := .service
  rollbackRenames := true
  restage := .ok ()
  removes := fun _ => true

/-- The managed core and the approved copy of one version. -/
def firstCore : Files := ⟨some [1], none, none, some [1]⟩

/-- With the link the refused core is rolled back. -/
theorem failed_upgrade_agrees_linked : (refusedUpgrade true).LeavesAgreement firstCore
      ((refusedUpgrade true).upgradeCore false firstCore).2 := by
  have failed : ((refusedUpgrade true).upgradeCore false firstCore).1 = .error
      "core replaced but not accepted by the service: the prompt was dismissed" := by
    rfl
  refine (failed_upgrade_agrees_iff rfl rfl failed).mpr ?_
  have staged : (refusedUpgrade true).stagedImage false firstCore.target = some [2] := by rfl
  simp only [Recoverable, staged]
  refine ⟨fun _ _ _ => ⟨fun _ => rfl, fun gone => absurd ⟨⟨"v1.19.29", ?_⟩, rfl, rfl⟩ gone⟩,
    fun unpublished => absurd (.inl rfl) unpublished⟩
  rfl

/-- Without it the new core stays in place, the approved copy stays old, and a retry says that
    nothing is to do. -/
theorem unlinked_refusal_diverges :
    (refusedUpgrade false).rollbackRenames = true ∧ (refusedUpgrade false).restage = .ok () ∧
      ((refusedUpgrade false).upgradeCore false firstCore).1 = .error
        "core replaced but not accepted by the service: the prompt was dismissed" ∧
      ((refusedUpgrade false).upgradeCore false firstCore).2 = ⟨some [2], none, none, some [1]⟩ ∧
      ¬(refusedUpgrade false).LeavesAgreement firstCore
        ((refusedUpgrade false).upgradeCore false firstCore).2 ∧
      (refusedUpgrade false).upgradeCore false ⟨some [2], none, none, some [1]⟩ =
        (.ok ⟨false, "v1.19.30", "v1.19.30"⟩, ⟨some [2], none, none, some [1]⟩) := by
  have left : ((refusedUpgrade false).upgradeCore false firstCore).2 =
      ⟨some [2], none, none, some [1]⟩ := by rfl
  refine ⟨rfl, rfl, by rfl, left, fun leaves => ?_, by rfl⟩
  have copies := leaves.copies rfl
  rw [left] at copies
  simp at copies

end Course

end ClashVerge.Feat
