import ClashVerge.Config.ProxyPorts

/-!
# A save of the proxy ports lands or is undone

A save that is refused before its transaction begins changes nothing. Any other save that does not
report success leaves the committed layers, the borrowed port and the two files as they were and no
draft, as long as the files can be restored; the runtime file too, unless the core was started again
for the way back.

A save that reports success has committed the ports, named no borrowed port any more, and written
the three files from what it committed. The runtime configuration has the ports as well, where no
other key of the profile becomes one of theirs in lower case.
-/

namespace ClashVerge.Config

open Draft Enhance Verge Yaml

namespace Setup

section

variable (setup : Setup) (platform : Platform)

/-- What starting a core leaves in the runtime file: what was there, or the text for a core. -/
def Launched (runtime : Option String) : Prop :=
  runtime = setup.files .runtime ∨
    ∃ mode text, setup.launchText platform mode = .ok text ∧ runtime = some text

def CoreChanged (changed : Setup) : Prop :=
  ∃ core runtime, changed = { setup with
    core := core, files := Function.update setup.files .runtime runtime } ∧
      setup.Launched platform runtime

theorem coreChanged_core (core : Core) : setup.CoreChanged platform { setup with core := core } :=
  ⟨core, setup.files .runtime, by rw [Function.update_eq_self], .inl rfl⟩

theorem foldl_writeLaunch (modes : List CoreMode) (files : ConfigFiles) :
    ∃ runtime, modes.foldl (setup.writeLaunch platform) files =
        Function.update files .runtime runtime ∧
      (runtime = files .runtime ∨
        ∃ mode text, setup.launchText platform mode = .ok text ∧ runtime = some text) := by
  induction modes generalizing files with
  | nil => exact ⟨files .runtime, by rw [Function.update_eq_self]; rfl, .inl rfl⟩
  | cons mode rest ih =>
    obtain ⟨runtime, final, source⟩ := ih (setup.writeLaunch platform files mode)
    rw [List.foldl_cons, final]
    unfold writeLaunch at source ⊢
    cases text : setup.launchText platform mode with
    | error error =>
      simp only [text] at source ⊢
      exact ⟨runtime, rfl, source⟩
    | ok text' =>
      simp only [text, Function.update_self, Function.update_idem] at source ⊢
      refine ⟨runtime, rfl, .inr ?_⟩
      obtain rfl | launched := source
      · exact ⟨mode, text', text, rfl⟩
      · exact launched

theorem startCoreInner_changed (change : CoreChange) :
    setup.CoreChanged platform (setup.startCoreInner platform change).2 := by
  unfold startCoreInner
  split
  · exact setup.coreChanged_core platform setup.core
  · obtain ⟨runtime, files, source⟩ := setup.foldl_writeLaunch platform change.written setup.files
    exact ⟨_, runtime, by rw [files], source⟩

theorem startCore_changed (change : CoreChange) :
    setup.CoreChanged platform (setup.startCore platform change).2 := by
  have changed := setup.startCoreInner_changed platform change
  unfold startCore
  cases started : setup.startCoreInner platform change with
  | mk result left =>
    rw [started] at changed
    cases result with
    | error error => exact changed
    | ok done =>
      simp only
      split <;> exact changed

theorem CoreChanged.of_core {core : Core} {changed : Setup}
    (changes : { setup with core := core }.CoreChanged platform changed) :
    setup.CoreChanged platform changed := by
  obtain ⟨core', runtime, rfl, source⟩ := changes
  exact ⟨core', runtime, rfl, source⟩

theorem restartCore_changed (change : CoreChange) :
    setup.CoreChanged platform (setup.restartCore platform change).2 := by
  unfold restartCore
  cases stopped : setup.world.stopCore change.replacement.stop with
  | mk result world =>
    cases result with
    | error error => exact setup.coreChanged_core platform world.core
    | ok done =>
      have changed := CoreChanged.of_core setup platform
        ({ setup with core := world.core }.startCoreInner_changed platform change)
      simp only
      cases started : { setup with core := world.core }.startCoreInner platform change with
      | mk result left =>
        rw [started] at changed
        cases result with
        | error error => exact changed
        | ok done =>
          simp only
          split <;> exact changed

theorem launchText_congr {other : Setup} (runtime : other.runtime = setup.runtime)
    (os : other.os = setup.os) (isAdmin : other.isAdmin = setup.isAdmin) (mode : CoreMode) :
    other.launchText platform mode = setup.launchText platform mode := by
  simp only [launchText, world, World.runtimeConfig, runtime, os, isAdmin]

theorem borrowedPort_restore (before : Setup) :
    (setup.restoreBorrowedPort before.sessionFallback).borrowedPort = before.borrowedPort := by
  unfold sessionFallback
  split
  · rename_i none_
    exact none_.symm
  · rfl

section

variable (port : Option UInt16)
include port

@[simp] theorem restoreBorrowedPort_clash :
    (setup.restoreBorrowedPort port).clash = setup.clash := by
  cases port <;> rfl

@[simp] theorem restoreBorrowedPort_verge :
    (setup.restoreBorrowedPort port).verge = setup.verge := by
  cases port <;> rfl

@[simp] theorem restoreBorrowedPort_runtime :
    (setup.restoreBorrowedPort port).runtime = setup.runtime := by
  cases port <;> rfl

@[simp] theorem restoreBorrowedPort_files :
    (setup.restoreBorrowedPort port).files = setup.files := by
  cases port <;> rfl

@[simp] theorem restoreBorrowedPort_machine : (setup.restoreBorrowedPort port).os = setup.os ∧
      (setup.restoreBorrowedPort port).isAdmin = setup.isAdmin := by
  cases port <;> exact ⟨rfl, rfl⟩

end

end

def committedText (setup : Setup) (platform : Platform) (mode : CoreMode) : Except String String :=
  setup.discardDrafts.launchText platform mode

/-- The committed layers without drafts, the borrowed port, and the files are as before, but the
runtime file may be the one that the core was started again with. -/
structure Undone (platform : Platform) (before after : Setup) : Prop where
  clash : after.clash = before.clash.discard
  verge : after.verge = before.verge.discard
  runtime : after.runtime = before.runtime.discard
  borrowedPort : after.borrowedPort = before.borrowedPort
  files : ∀ file, file ≠ .runtime → after.files file = before.files file
  runtimeFile : after.files .runtime = before.files .runtime ∨
    before.core.isRunning = true ∧ ∃ mode text, before.committedText platform mode = .ok text ∧
      after.files .runtime = some text

/-- What no step of a save changes before the commit. -/
structure Keeps (before setup : Setup) : Prop where
  os : setup.os = before.os
  isAdmin : setup.isAdmin = before.isAdmin
  clash : setup.clash.data = before.clash.data
  verge : setup.verge.data = before.verge.data
  runtime : setup.runtime.data = before.runtime.data

section

variable {platform : Platform} {run : SaveRun} {before setup : Setup}

theorem Keeps.refl : Keeps setup setup := ⟨rfl, rfl, rfl, rfl, rfl⟩

section

variable (keeps : Keeps before setup)
include keeps

theorem Keeps.changed {changed : Setup}
    (changes : setup.CoreChanged platform changed) : Keeps before changed := by
  obtain ⟨core, runtime, rfl, -⟩ := changes
  exact ⟨keeps.os, keeps.isAdmin, keeps.clash, keeps.verge, keeps.runtime⟩

theorem Keeps.discard_clash : setup.clash.discard = before.clash.discard := by
  rw [Slot.discard, Slot.discard, keeps.clash]

theorem Keeps.discard_verge : setup.verge.discard = before.verge.discard := by
  rw [Slot.discard, Slot.discard, keeps.verge]

theorem Keeps.discard_runtime : setup.runtime.discard = before.runtime.discard := by
  rw [Slot.discard, Slot.discard, keeps.runtime]

theorem Keeps.committedText (mode : CoreMode) :
    setup.committedText platform mode = before.committedText platform mode := by
  apply launchText_congr
  · exact keeps.discard_runtime
  · exact keeps.os
  · exact keeps.isAdmin

theorem Keeps.undone (files : setup.files = before.files) :
    Undone platform before (setup.restoreBorrowedPort before.sessionFallback).rollback where
  clash := by simpa [rollback, release, discardDrafts] using keeps.discard_clash
  verge := by simpa [rollback, release, discardDrafts] using keeps.discard_verge
  runtime := by simpa [rollback, release, discardDrafts] using keeps.discard_runtime
  borrowedPort := borrowedPort_restore setup before
  files file _ := by simp [rollback, release, discardDrafts, files]
  runtimeFile := .inl (by simp [rollback, release, discardDrafts, files])

theorem Keeps.undone_restored : Undone platform before
    ({ setup.rollback with files := before.files }.restoreBorrowedPort
      before.sessionFallback) where
  clash := by simpa [rollback, release, discardDrafts] using keeps.discard_clash
  verge := by simpa [rollback, release, discardDrafts] using keeps.discard_verge
  runtime := by simpa [rollback, release, discardDrafts] using keeps.discard_runtime
  borrowedPort := borrowedPort_restore _ before
  files file _ := by simp
  runtimeFile := .inl (by simp)

end

section

variable (restores : ∀ file, run.restored file = .ok ())
include restores

theorem restoredFile_eq (snapshots : ConfigFiles) : restoredFile run snapshots = snapshots := by
  funext file
  rw [restoredFile, restores]

theorem restoreErrors_eq : restoreErrors platform run = [] := by
  simp [restoreErrors, restores]

theorem restoreFiles_eq (snapshots : ConfigFiles) :
    setup.restoreFiles platform run snapshots = (.ok (), { setup with files := snapshots }) := by
  rw [restoreFiles, restoredFile_eq restores, if_pos (restoreErrors_eq restores)]

end

/-- What `rollback_proxy_ports` leaves when it has restored the files: no draft, and perhaps the
runtime file of the core that was started again. -/
structure RolledBack (platform : Platform) (setup : Setup) (snapshots : ConfigFiles)
    (wasRunning : Bool) (left : Setup) : Prop where
  clash : left.clash = setup.clash.discard
  verge : left.verge = setup.verge.discard
  runtime : left.runtime = setup.runtime.discard
  files : ∀ file, file ≠ .runtime → left.files file = snapshots file
  runtimeFile : left.files .runtime = snapshots .runtime ∨ wasRunning = true ∧
    ∃ mode text, setup.committedText platform mode = .ok text ∧ left.files .runtime = some text

theorem CoreChanged.rolledBack {snapshots : ConfigFiles} {left : Setup}
    (changed : { setup.discardDrafts with files := snapshots }.CoreChanged platform left) :
    RolledBack platform setup snapshots true left := by
  obtain ⟨core, runtime, rfl, source⟩ := changed
  exact {
    clash := rfl
    verge := rfl
    runtime := rfl
    files := fun file other => Function.update_of_ne other _ _
    runtimeFile := by
      have here : Function.update snapshots ConfigFile.runtime runtime .runtime = runtime :=
        Function.update_self _ _ _
      refine source.imp here.trans ?_
      rintro ⟨mode, text, launched, same⟩
      exact ⟨rfl, mode, text, launched, here.trans same⟩ }

theorem rollbackProxyPorts_left (restores : ∀ file, run.restored file = .ok ())
    (snapshots : ConfigFiles) (wasRunning : Bool) :
    RolledBack platform setup snapshots wasRunning
      (setup.rollbackProxyPorts platform run snapshots wasRunning).2 := by
  simp only [rollbackProxyPorts, restoreFiles_eq restores]
  cases wasRunning with
  | false => exact ⟨rfl, rfl, rfl, fun _ _ => rfl, .inl rfl⟩
  | true =>
    simp only [if_true]
    split
    · exact CoreChanged.rolledBack (restartCore_changed _ _ _)
    · exact CoreChanged.rolledBack (startCore_changed _ _ _)

theorem Keeps.undone_rollback (keeps : Keeps before setup)
    (restores : ∀ file, run.restored file = .ok ()) (wasRunning : Bool)
    (ran : wasRunning = before.core.isRunning) :
    Undone platform before
      (((setup.rollback.restoreBorrowedPort before.sessionFallback).rollbackProxyPorts platform run
        before.files wasRunning).2.restoreBorrowedPort before.sessionFallback) := by
  have kept : Keeps before (setup.rollback.restoreBorrowedPort before.sessionFallback) := by
    constructor
    · simpa [rollback, release, discardDrafts] using keeps.os
    · simpa [rollback, release, discardDrafts] using keeps.isAdmin
    · simpa [rollback, release, discardDrafts] using keeps.clash
    · simpa [rollback, release, discardDrafts] using keeps.verge
    · simpa [rollback, release, discardDrafts] using keeps.runtime
  have left : RolledBack platform (setup.rollback.restoreBorrowedPort before.sessionFallback)
    before.files wasRunning _ := rollbackProxyPorts_left restores before.files wasRunning
  exact {
    clash := by simpa using left.clash.trans kept.discard_clash
    verge := by simpa using left.verge.trans kept.discard_verge
    runtime := by simpa using left.runtime.trans kept.discard_runtime
    borrowedPort := borrowedPort_restore _ before
    files := fun file other => by simpa using left.files file other
    runtimeFile := by
      rw [restoreBorrowedPort_files]
      refine left.runtimeFile.imp id ?_
      rintro ⟨ran', mode, text, launched, written⟩
      exact ⟨ran ▸ ran', mode, text, (kept.committedText mode).symm.trans launched, written⟩ }

theorem Keeps.trans {middle : Setup} (first : Keeps before middle) (second : Keeps middle setup) :
    Keeps before setup where
  os := second.os.trans first.os
  isAdmin := second.isAdmin.trans first.isAdmin
  clash := second.clash.trans first.clash
  verge := second.verge.trans first.verge
  runtime := second.runtime.trans first.runtime

end

section

variable (setup : Setup) (platform : Platform) (settings : ProxyPortSettings) (run : SaveRun)

def staged : Setup := (setup.stageProxyPorts settings).clearSessionFallback

def withCandidate (config : Mapping) : Setup :=
  { setup with runtime := setup.runtime.editDraft fun _ => ⟨some config, setup.verge.latest⟩ }

theorem keeps_staged : Keeps setup (setup.staged settings) := ⟨rfl, rfl, rfl, rfl, rfl⟩

theorem keeps_withCandidate (config : Mapping) : Keeps setup (setup.withCandidate config) :=
  ⟨rfl, rfl, rfl, rfl, rfl⟩

/-- With a reply, before a file has changed, or with the text of what was generated. -/
inductive Prepared : Except Reply String × Setup → Prop
  | rejected {reply : Reply} {left : Setup} (unsaved : reply ≠ .ok .saved)
      (keeps : Keeps setup left) (files : left.files = setup.files) : Prepared (.error reply, left)
  | ready {config : Mapping} {yaml : String}
      (generated : run.generation.generate setup.os setup.clash.latest setup.verge.latest
        setup.sessionFallback = .ok config)
      (text : platform.generatedText config = .ok yaml) :
      Prepared (.ok yaml, setup.withCandidate config)

theorem rejectedSaveOutcome_ne_saved (assessment : ListenerProbeOutcome) :
    rejectedSaveOutcome assessment ≠ .ok (some .saved) := by
  cases assessment <;> simp [rejectedSaveOutcome]

theorem prepareCandidate_prepared :
    Prepared setup platform run (setup.prepareCandidate platform run) := by
  cases generated : run.generation.generate setup.os setup.clash.latest setup.verge.latest
      setup.sessionFallback with
  | error failure =>
    have fails : setup.generate run = .error failure := by simp [generate, generated]
    rw [prepareCandidate, fails]
    exact .rejected (by simp [failed]) .refl rfl
  | ok config =>
    have left : setup.generate run = .ok (setup.withCandidate config) := by
      simp [generate, generated, withCandidate]
    have latest : (setup.withCandidate config).latestRuntimeMapping = .ok config := rfl
    have rejects : ∀ reply : Reply, reply ≠ .ok .saved →
        Prepared setup platform run (.error reply, setup.withCandidate config) :=
      fun reply unsaved => .rejected unsaved (setup.keeps_withCandidate config) rfl
    have fails : ∀ failure, failed failure ≠ .ok .saved := by simp [failed]
    simp only [prepareCandidate, left, latest]
    cases run.probe with
    | error error => exact rejects _ (fails _)
    | ok assessment =>
      simp only
      cases rejected : rejectedSaveOutcome assessment with
      | error error => exact rejects _ (fails _)
      | ok outcome =>
        cases outcome with
        | some outcome =>
          refine rejects _ fun saved => rejectedSaveOutcome_ne_saved assessment ?_
          rw [rejected, Except.ok.inj saved]
        | none =>
          simp only
          cases text : (setup.withCandidate config).runtimeConfigYaml platform with
          | error error => exact rejects _ (fails _)
          | ok yaml =>
            simp only
            cases run.validation with
            | error error => exact rejects _ (fails _)
            | ok validation =>
              simp only
              split
              · cases run.captured with
                | error error => exact rejects _ (fails _)
                | ok done => exact .ready generated text
              · exact rejects _ (fails _)

end

/-- The runtime file has the text of the configuration, or of what a sidecar gets of it. -/
def HoldsRuntime (platform : Platform) (config : Mapping) (content : Option String) : Prop :=
  ∃ text, (platform.generatedText config = .ok text ∨
    platform.mappingYaml (sidecarConfigWithoutTun config) = .ok text) ∧ content = some text

/-- A save on its way after the runtime file is written: nothing is committed, and what is staged is
what it started from, with the candidate. -/
structure Active (platform : Platform) (base : Setup) (config : Mapping) (setup : Setup) : Prop
    extends Keeps base setup where
  clashLatest : setup.clash.latest = base.clash.latest
  vergeLatest : setup.verge.latest = base.verge.latest
  runtimeLatest : setup.runtime.latest = ⟨some config, base.verge.latest⟩
  borrowedPort : setup.borrowedPort = base.borrowedPort
  runtimeFile : HoldsRuntime platform config (setup.files .runtime)

structure Landed (platform : Platform) (base : Setup) (config : Mapping) (after : Setup) : Prop where
  clash : after.clash = Slot.new base.clash.latest
  verge : after.verge = Slot.new base.verge.latest
  runtime : after.runtime = Slot.new ⟨some config, base.verge.latest⟩
  borrowedPort : after.borrowedPort = base.borrowedPort
  clashFile : ∃ text, platform.generatedText after.clash.data.config = .ok text ∧
    after.files .clash = some text
  vergeFile : ∃ text, platform.vergeText after.verge.data = .ok text ∧
    after.files .verge = some text
  runtimeFile : HoldsRuntime platform config (after.files .runtime)

/-- How a save ends that has claimed the layers. -/
inductive Ends (platform : Platform) (run : SaveRun) (before base : Setup) : Reply × Setup → Prop
  | undone {reply : Reply} {after : Setup} (unsaved : reply ≠ .ok .saved)
      (undone : Undone platform before after) : Ends platform run before base (reply, after)
  | landed {config : Mapping} {after : Setup}
      (generated : run.generation.generate base.os base.clash.latest base.verge.latest
        base.sessionFallback = .ok config)
      (landed : Landed platform base config after) :
      Ends platform run before base (.ok .saved, after)

/-- How saving the two configurations ends: early, or with both texts in their files. -/
inductive Persisted (platform : Platform) (setup : Setup) : Except Failure Unit × Setup → Prop
  | stopped (failure : Failure) (files : ConfigFiles) :
      Persisted platform setup (.error failure, { setup with files := files })
  | saved {clash verge : String}
      (clashText : platform.generatedText setup.clash.latest.config = .ok clash)
      (vergeText : platform.vergeText setup.verge.latest = .ok verge) :
      Persisted platform setup (.ok (), { setup with
        files := Function.update (Function.update setup.files .clash (some clash)) .verge
          (some verge) })

section

variable {platform : Platform} {run : SaveRun} {before base setup : Setup} {config : Mapping}

theorem holdsRuntime_launch {mode : CoreMode} {text : String}
    (latest : setup.runtime.latest.config = some config)
    (launched : setup.launchText platform mode = .ok text) :
    HoldsRuntime platform config (some text) := by
  have staged : ∃ origin, setup.world.runtimeConfig = .ok ⟨config, origin⟩ := by
    refine ⟨setup.runtime.latest.origin, ?_⟩
    simp [World.runtimeConfig, world, latest]
  obtain ⟨origin, staged⟩ := staged
  simp only [launchText, staged] at launched
  split at launched
  · exact ⟨text, .inr launched, rfl⟩
  · exact ⟨text, .inl launched, rfl⟩

theorem Active.changed {changed : Setup} (active : Active platform base config setup)
    (changes : setup.CoreChanged platform changed) : Active platform base config changed := by
  have keeps := active.toKeeps.changed changes
  obtain ⟨core, runtime, rfl, source⟩ := changes
  refine ⟨keeps, active.clashLatest, active.vergeLatest, active.runtimeLatest, active.borrowedPort,
    ?_⟩
  have here : Function.update setup.files ConfigFile.runtime runtime .runtime = runtime :=
    Function.update_self _ _ _
  simp only [here]
  obtain rfl | ⟨mode, text, launched, rfl⟩ := source
  · exact active.runtimeFile
  · exact holdsRuntime_launch (by rw [active.runtimeLatest]) launched

theorem persistProxyPortSources_persisted :
    Persisted platform setup (setup.persistProxyPortSources platform run) := by
  simp only [persistProxyPortSources]
  cases clashText : platform.generatedText setup.clash.latest.config with
  | error error => exact .stopped _ setup.files
  | ok clash =>
    cases run.clashSaved with
    | error error => exact .stopped _ setup.files
    | ok done =>
      simp only [writeFile]
      cases vergeText : platform.vergeText setup.verge.latest with
      | error error => exact .stopped _ _
      | ok verge =>
        cases run.vergeSaved with
        | error error => exact .stopped _ _
        | ok done => exact .saved clashText vergeText

theorem apply_eq_new {T : Type} (slot : Slot T) : slot.apply = Slot.new slot.latest := by
  rcases slot with ⟨data, _ | draft⟩ <;> rfl

theorem finishSave_ends (active : Active platform base config setup) (keeps : Keeps before base)
    (generated : run.generation.generate base.os base.clash.latest base.verge.latest
      base.sessionFallback = .ok config)
    (restores : ∀ file, run.restored file = .ok ()) (wasRunning : Bool)
    (ran : wasRunning = before.core.isRunning) :
    Ends platform run before base
      (setup.finishSave platform run before.sessionFallback before.files wasRunning) := by
  have persisted : Persisted platform setup (setup.persistProxyPortSources platform run) :=
    persistProxyPortSources_persisted
  unfold finishSave
  generalize setup.persistProxyPortSources platform run = outcome at persisted
  cases persisted with
  | stopped failure files =>
    have stays : Keeps base { setup with files := files } := ⟨active.os, active.isAdmin,
      active.clash, active.verge, active.runtime⟩
    exact .undone (by simp [failed]) ((keeps.trans stays).undone_rollback restores wasRunning ran)
  | saved clashText vergeText =>
    refine .landed generated ?_
    exact {
      clash := (apply_eq_new _).trans (by rw [active.clashLatest])
      verge := (apply_eq_new _).trans (by rw [active.vergeLatest])
      runtime := (apply_eq_new _).trans (by rw [active.runtimeLatest])
      borrowedPort := active.borrowedPort
      clashFile := ⟨_, by simpa [commit, release] using clashText, by simp [commit, release]⟩
      vergeFile := ⟨_, by simpa [commit, release] using vergeText, by simp [commit, release]⟩
      runtimeFile := by simpa [commit, release] using active.runtimeFile }

theorem recoverCore_ends (keeps : Keeps before setup)
    (restores : ∀ file, run.restored file = .ok ()) (ran : before.core.isRunning = true)
    (activationError : String) :
    Ends platform run before base
      (setup.recoverCore platform run before.sessionFallback before.files activationError) := by
  refine .undone ?_ (keeps.undone_rollback restores true ran.symm)
  split
  · simp [failed]
  · split
    · simp [failed]
    · rename_i assessment _
      have unsaved := rejectedSaveOutcome_ne_saved assessment
      split
      · simp [failed]
      · rename_i outcome rejected
        rintro saved
        rw [rejected, Except.ok.inj saved] at unsaved
        exact unsaved rfl
      · simp [failed]

theorem activate_ends (keeps : Keeps before base) (files : base.files = before.files)
    (core : base.core = before.core)
    (generated : run.generation.generate base.os base.clash.latest base.verge.latest
      base.sessionFallback = .ok config)
    (restores : ∀ file, run.restored file = .ok ()) {yaml : String}
    (text : platform.generatedText config = .ok yaml) :
    Ends platform run before base
      ((base.withCandidate config).activate platform run before.sessionFallback yaml) := by
  have snapshots : (base.withCandidate config).files = before.files := files
  have running : (base.withCandidate config).core.isRunning = before.core.isRunning :=
    congrArg Core.isRunning core
  have candidate : Keeps before (base.withCandidate config) :=
    keeps.trans (base.keeps_withCandidate config)
  simp only [activate, snapshots, running]
  cases written : run.runtimeWritten with
  | error error =>
    refine .undone (by simp [failed]) ?_
    simp only [restoreFiles_eq restores]
    exact candidate.undone_restored
  | ok done =>
    have active : Active platform base config { base.withCandidate config with
        files := Function.update (base.withCandidate config).files .runtime (some yaml) } := {
      toKeeps := ⟨rfl, rfl, rfl, rfl, rfl⟩
      clashLatest := rfl
      vergeLatest := rfl
      runtimeLatest := rfl
      borrowedPort := rfl
      runtimeFile := ⟨yaml, .inl text, by simp⟩ }
    simp only [writeFile]
    split
    · rename_i ran
      have changed := active.changed (restartCore_changed _ platform run.restart)
      generalize restartCore _ platform run.restart = outcome at changed
      obtain ⟨error | done, left⟩ := outcome
      · exact recoverCore_ends (keeps.trans changed.toKeeps) restores ran error
      · exact finishSave_ends changed keeps generated restores _ rfl
    · exact finishSave_ends active keeps generated restores _ rfl

theorem saveClaimed_ends (settings : ProxyPortSettings)
    (restores : ∀ file, run.restored file = .ok ()) :
    Ends platform run setup (setup.staged settings) (setup.saveClaimed platform run settings) := by
  have prepared := (setup.staged settings).prepareCandidate_prepared platform run
  simp only [saveClaimed]
  rw [← staged]
  generalize (setup.staged settings).prepareCandidate platform run = outcome at prepared
  cases prepared with
  | rejected unsaved keeps files =>
    exact .undone unsaved (((setup.keeps_staged settings).trans keeps).undone files)
  | ready generated text =>
    exact activate_ends (setup.keeps_staged settings) rfl rfl generated restores text

end

end Setup

namespace ProxyPortSettings

variable (settings : ProxyPortSettings) (os : Os)

/-- The keys of the listeners that a save sets on the system, with their switches and ports. -/
def listeners : List (String × ToggleableProxyPort) :=
  [("mixed-port", ⟨true, settings.mixedPort⟩), ("socks-port", settings.socks),
    ("port", settings.http)] ++
  (if os ≠ .windows then [("redir-port", settings.redir)] else []) ++
  (if os = .linux then [("tproxy-port", settings.tproxy)] else [])

def InClash (config : Mapping) : Prop :=
  ∀ listener ∈ settings.listeners os, config.get listener.1 = some (portValue listener.2.port)

/-- A record of the application has the ports and their switches. -/
structure InVerge (verge : IVerge) : Prop where
  mixedPort : verge .vergeMixedPort = some settings.mixedPort.toNat
  socks : verge .vergeSocksPort = some settings.socks.port.toNat ∧
    verge .vergeSocksEnabled = some settings.socks.enabled
  http : verge .vergePort = some settings.http.port.toNat ∧
    verge .vergeHttpEnabled = some settings.http.enabled
  redir : os ≠ .windows → verge .vergeRedirPort = some settings.redir.port.toNat ∧
    verge .vergeRedirEnabled = some settings.redir.enabled
  tproxy : os = .linux → verge .vergeTproxyPort = some settings.tproxy.port.toNat ∧
    verge .vergeTproxyEnabled = some settings.tproxy.enabled

/-- A runtime configuration, and what a sidecar gets of it, have the ports that are switched on and
none that is switched off. -/
def InRuntime (config : Mapping) : Prop :=
  ∀ listener ∈ settings.listeners os, ∀ held ∈ [config, sidecarConfigWithoutTun config],
    held.get listener.1 = if listener.2.enabled then some (portValue listener.2.port) else none

variable {settings os}

theorem mem_listeners {listener : String × ToggleableProxyPort}
    (listed : listener ∈ settings.listeners os) :
    listener = ("mixed-port", ⟨true, settings.mixedPort⟩) ∨ listener = ("socks-port", settings.socks) ∨
      listener = ("port", settings.http) ∨
      os ≠ .windows ∧ listener = ("redir-port", settings.redir) ∨
      os = .linux ∧ listener = ("tproxy-port", settings.tproxy) := by
  rw [listeners, List.mem_append, List.mem_append] at listed
  obtain (always | redir) | tproxy := listed
  · simp only [List.mem_cons, List.not_mem_nil, or_false] at always
    tauto
  · split at redir
    · rename_i unix
      exact .inr (.inr (.inr (.inl ⟨unix, List.mem_singleton.mp redir⟩)))
    · simp at redir
  · split at tproxy
    · rename_i linux
      exact .inr (.inr (.inr (.inr ⟨linux, List.mem_singleton.mp tproxy⟩)))
    · simp at tproxy

theorem listeners_owned {listener : String × ToggleableProxyPort}
    (listed : listener ∈ settings.listeners os) : listener.1 ∈ controlPlaneKeys os := by
  obtain rfl | rfl | rfl | ⟨unix, rfl⟩ | ⟨rfl, rfl⟩ := mem_listeners listed
  · simp [controlPlaneKeys]
  · simp [controlPlaneKeys]
  · simp [controlPlaneKeys]
  · cases os with
    | windows => exact absurd rfl unix
    | macos | linux => simp [controlPlaneKeys]
  · simp [controlPlaneKeys]

variable (settings os)

theorem stageVerge_inVerge (verge : IVerge) :
    settings.InVerge os (settings.stageVerge os verge) := by
  cases os with
  | windows =>
    exact ⟨rfl, ⟨rfl, rfl⟩, ⟨rfl, rfl⟩, fun unix => absurd rfl unix, fun linux => nomatch linux⟩
  | macos => exact ⟨rfl, ⟨rfl, rfl⟩, ⟨rfl, rfl⟩, fun _ => ⟨rfl, rfl⟩, fun linux => nomatch linux⟩
  | linux => exact ⟨rfl, ⟨rfl, rfl⟩, ⟨rfl, rfl⟩, fun _ => ⟨rfl, rfl⟩, fun _ => ⟨rfl, rfl⟩⟩

theorem mergedPort_staged (clash : IClashTemp) (verge : IVerge)
    {listener : String × ToggleableProxyPort} (listed : listener ∈ settings.listeners os) :
    mergedPort os (getConfigValues clash (settings.stageVerge os verge)) listener.1
        (portValue listener.2.port) =
      if listener.2.enabled then some (portValue listener.2.port) else none := by
  have staged := settings.stageVerge_inVerge os verge
  have off := mem_switchedOff_iff (getConfigValues clash (settings.stageVerge os verge))
    (listeners_owned listed)
  obtain rfl | rfl | rfl | ⟨unix, rfl⟩ | ⟨linux, rfl⟩ := mem_listeners listed
  · simp [mergedPort, mergedValue, off]
  · have switch : (getConfigValues clash (settings.stageVerge os verge)).socksEnabled =
        settings.socks.enabled :=
      congrArg (fun switch : Option Bool => switch.getD false) staged.socks.2
    cases enabled : settings.socks.enabled <;> simp [mergedPort, mergedValue, off, switch, enabled]
  · have switch : (getConfigValues clash (settings.stageVerge os verge)).httpEnabled =
        settings.http.enabled :=
      congrArg (fun switch : Option Bool => switch.getD false) staged.http.2
    cases enabled : settings.http.enabled <;> simp [mergedPort, mergedValue, off, switch, enabled]
  · have switch : (getConfigValues clash (settings.stageVerge os verge)).redirEnabled =
        settings.redir.enabled :=
      congrArg (fun switch : Option Bool => switch.getD false) (staged.redir unix).2
    cases enabled : settings.redir.enabled <;> simp [mergedPort, mergedValue, off, switch, enabled]
  · have switch : (getConfigValues clash (settings.stageVerge os verge)).tproxyEnabled =
        settings.tproxy.enabled :=
      congrArg (fun switch : Option Bool => switch.getD false) (staged.tproxy linux).2
    cases enabled : settings.tproxy.enabled <;> simp [mergedPort, mergedValue, off, switch, enabled]

theorem stageClash_inClash (clash : IClashTemp) :
    settings.InClash os (settings.stageClash os clash).config := by
  intro listener listed
  obtain rfl | rfl | rfl | ⟨unix, rfl⟩ | ⟨rfl, rfl⟩ := mem_listeners listed
  · cases os <;>
      simp [stageClash, IClashTemp.insert, Mapping.get, Mapping.insert, OrderedMap.get_insert]
  · cases os <;>
      simp [stageClash, IClashTemp.insert, Mapping.get, Mapping.insert, OrderedMap.get_insert]
  · cases os <;>
      simp [stageClash, IClashTemp.insert, Mapping.get, Mapping.insert, OrderedMap.get_insert]
  · cases os <;>
      simp_all [stageClash, IClashTemp.insert, Mapping.get, Mapping.insert, OrderedMap.get_insert]
  · simp [stageClash, IClashTemp.insert, Mapping.get, Mapping.insert]

theorem sole_stageClash {key : String} {clash : IClashTemp} (sole : Sole key clash.config) :
    Sole key (settings.stageClash os clash).config := by
  have port : ∀ field ∈ ["mixed-port", "socks-port", "port", "redir-port", "tproxy-port"],
      Lowers key (.string field) = true → Value.string field = .string key := by
    have lower : ∀ field ∈ ["mixed-port", "socks-port", "port", "redir-port", "tproxy-port"],
        asciiLowercase field = field := by decide
    intro field listed lowers
    simpa [Lowers, lower field listed] using lowers
  have inserted : ∀ {clash : IClashTemp} field value, Sole key clash.config →
      field ∈ ["mixed-port", "socks-port", "port", "redir-port", "tproxy-port"] →
      Sole key (clash.insert field value).config :=
    fun field _ sole listed => sole.insert _ (port field listed)
  have always := inserted "port" (portValue settings.http.port)
    (inserted "socks-port" (portValue settings.socks.port)
      (inserted "mixed-port" (portValue settings.mixedPort) sole (by simp)) (by simp)) (by simp)
  have redir := inserted "redir-port" (portValue settings.redir.port) always (by simp)
  have tproxy := inserted "tproxy-port" (portValue settings.tproxy.port) redir (by simp)
  cases os with
  | windows => exact always
  | macos => exact redir
  | linux => exact tproxy

theorem runsBuiltins_staged {clash clash' : IClashTemp} {verge : IVerge}
    (runs : (getConfigValues clash (settings.stageVerge os verge)).RunsBuiltins) :
    (getConfigValues clash' verge).RunsBuiltins := by
  cases os with
  | windows | macos | linux => exact runs

end ProxyPortSettings

/-- No other key of the app's configuration or of the profile becomes the key of a listener in lower
case. -/
def SaveRun.PortsAlone (run : SaveRun) (settings : ProxyPortSettings) (before : Setup) : Prop :=
  (getConfigValues before.clash.latest before.verge.latest).RunsBuiltins →
    ∀ listener ∈ settings.listeners before.os, Sole listener.1 before.clash.latest.config ∧
      ∀ items, run.generation.items = .ok items → Sole listener.1 items.config

/-- What is committed has the ports, nothing is staged, no port is borrowed, and the three files have
what is committed. -/
structure CarriesPorts (platform : Platform) (settings : ProxyPortSettings) (os : Os)
    (config : Mapping) (after : Setup) : Prop where
  clash : settings.InClash os after.clash.data.config
  verge : settings.InVerge os after.verge.data
  runtime : after.runtime.data.config = some config
  unstaged : after.clash.draft = none ∧ after.verge.draft = none ∧ after.runtime.draft = none
  fallback : after.sessionFallback = none
  clashFile : ∃ text, platform.generatedText after.clash.data.config = .ok text ∧
    after.files .clash = some text
  vergeFile : ∃ text, platform.vergeText after.verge.data = .ok text ∧
    after.files .verge = some text
  runtimeFile : Setup.HoldsRuntime platform config (after.files .runtime)

/-- A save that is refused before its transaction begins. -/
def Setup.refuses (before : Setup) (settings : ProxyPortSettings) : Bool :=
  !settings.validate.isOk || before.configUpdateInProgress || before.runtime.data.config.isNone ||
    before.clashClaimed || before.vergeClaimed || before.runtimeClaimed

structure LandsOrLeaves (platform : Platform) (settings : ProxyPortSettings) (run : SaveRun)
    (before : Setup) (outcome : Reply × Setup) : Prop where
  refused : before.refuses settings = true → outcome.1 ≠ .ok .saved ∧ outcome.2 = before
  unsaved : before.refuses settings = false → outcome.1 ≠ .ok .saved →
    Setup.Undone platform before outcome.2
  saved : outcome.1 = .ok .saved → ∃ config,
    CarriesPorts platform settings before.os config outcome.2 ∧
    (run.PortsAlone settings before → settings.InRuntime before.os config)

namespace Setup

section

variable {platform : Platform} {run : SaveRun} {settings : ProxyPortSettings} {before : Setup}

theorem get_sidecarConfigWithoutTun {config : Mapping} {key : String} (other : key ≠ "tun") :
    (sidecarConfigWithoutTun config).get key = config.get key :=
  get_insert_ne _ _ other

theorem inRuntime_of_generated {config : Mapping}
    (generated : run.generation.generate before.os (settings.stageClash before.os before.clash.latest)
      (settings.stageVerge before.os before.verge.latest) none = .ok config)
    (alone : run.PortsAlone settings before) : settings.InRuntime before.os config := by
  intro listener listed held among
  have owned := ProxyPortSettings.listeners_owned listed
  have apart : listener.1 ≠ "mode" ∧ listener.1 ≠ "tun" := by
    obtain rfl | rfl | rfl | ⟨-, rfl⟩ | ⟨-, rfl⟩ := ProxyPortSettings.mem_listeners listed <;> simp
  have port := Generation.generate_port generated owned apart.1
    (settings.stageClash_inClash before.os before.clash.latest listener listed) fun runs => by
      obtain ⟨app, profile⟩ := alone (settings.runsBuiltins_staged before.os runs) listener listed
      exact ⟨settings.sole_stageClash before.os app, profile⟩
  have same : held.get listener.1 = config.get listener.1 := by
    simp only [List.mem_cons, List.not_mem_nil, or_false] at among
    obtain rfl | rfl := among
    · rfl
    · exact get_sidecarConfigWithoutTun apart.2
  rw [same, port, settings.mergedPort_staged before.os _ _ listed]

theorem Landed.carries {config : Mapping} {after : Setup}
    (landed : Landed platform (before.staged settings) config after) :
    CarriesPorts platform settings before.os config after where
  clash := by
    rw [landed.clash]
    exact settings.stageClash_inClash before.os before.clash.latest
  verge := by
    rw [landed.verge]
    exact settings.stageVerge_inVerge before.os before.verge.latest
  runtime := by rw [landed.runtime, Slot.new_data]
  unstaged := by
    rw [landed.clash, landed.verge, landed.runtime]
    exact ⟨rfl, rfl, rfl⟩
  fallback := if_pos landed.borrowedPort
  clashFile := landed.clashFile
  vergeFile := landed.vergeFile
  runtimeFile := landed.runtimeFile

/-- The setup on which a save that is not refused goes on. -/
def claimed (setup : Setup) : Setup :=
  { setup with
    configUpdateInProgress := true, clashClaimed := true, vergeClaimed := true,
    runtimeClaimed := true }

theorem saveProxyPorts_refused (refused : before.refuses settings = true) :
    (before.saveProxyPorts platform run settings).1 ≠ .ok .saved ∧
      (before.saveProxyPorts platform run settings).2 = before := by
  unfold saveProxyPorts
  cases valid : settings.validate with
  | error error => exact ⟨by simp [failed], rfl⟩
  | ok done =>
    simp only
    split
    · exact ⟨by simp [failed], rfl⟩
    · rename_i idle
      have same : { { before with configUpdateInProgress := true } with
          configUpdateInProgress := false } = before := by
        simp only [Bool.not_eq_true] at idle
        simp [← idle]
      unfold saveExclusive currentRuntimeMapping
      cases current : before.runtime.data.config with
      | none => exact ⟨by simp [failed], same⟩
      | some config =>
        have claims : before.clashClaimed = true ∨ before.vergeClaimed = true ∨
            before.runtimeClaimed = true := by
          simpa [refuses, valid, idle, current, Except.isOk, Except.toBool, or_assoc] using refused
        have busy : ∃ layer, begin { before with configUpdateInProgress := true } =
            .error layer := by
          unfold begin
          split
          · exact ⟨_, rfl⟩
          · split
            · exact ⟨_, rfl⟩
            · rename_i clash verge
              exact ⟨.runtime, if_pos (by tauto)⟩
        obtain ⟨layer, busy⟩ := busy
        simp only [busy]
        exact ⟨by simp, same⟩

theorem saveProxyPorts_admitted (admitted : before.refuses settings = false) :
    before.saveProxyPorts platform run settings =
      ((before.claimed.saveClaimed platform run settings).1,
        { (before.claimed.saveClaimed platform run settings).2 with
          configUpdateInProgress := false }) := by
  simp only [refuses, Bool.or_eq_false_iff, Bool.not_eq_false'] at admitted
  obtain ⟨⟨⟨⟨⟨valid, idle⟩, current⟩, clash⟩, verge⟩, runtime⟩ := admitted
  have valid : settings.validate = .ok () := by
    cases validated : settings.validate with
    | error error => simp [validated, Except.isOk, Except.toBool] at valid
    | ok done => rfl
  obtain ⟨config, current⟩ : ∃ config, before.runtime.data.config = some config := by
    cases held : before.runtime.data.config with
    | none => simp [held] at current
    | some config => exact ⟨config, rfl⟩
  have begins : begin { before with configUpdateInProgress := true } = .ok before.claimed := by
    simp [begin, clash, verge, runtime, claimed]
  have mapping : currentRuntimeMapping { before with configUpdateInProgress := true } =
      .ok config := by
    simp [currentRuntimeMapping, current]
  simp [saveProxyPorts, valid, idle, saveExclusive, mapping, begins]

end

end Setup

/-- The compensating steps of a save succeed: the files are restored, and the core is replaced. -/
structure SaveRun.Compensates (run : SaveRun) : Prop where
  restored : ∀ file, run.restored file = .ok ()
  stopped : run.recovery.replacement.stop = .stopped
  started : ∃ mode, run.recovery.replacement.start = .started mode
  ready : run.recovery.replacement.ready = true
  proxy : run.recovery.replacement.proxy = .ok ()

/-- What a setup has after a save that leaves all as it was. -/
structure Setup.Untouched (before after : Setup) : Prop where
  committed : after.clash.data = before.clash.data ∧ after.verge.data = before.verge.data ∧
    after.runtime.data = before.runtime.data
  unstaged : after.clash.draft = none ∧ after.verge.draft = none ∧ after.runtime.draft = none
  files : after.files = before.files
  fallback : after.sessionFallback = before.sessionFallback

/-- A save leaves all as it was and no draft, or all carries the ports. -/
structure Atomic (platform : Platform) (settings : ProxyPortSettings) (before : Setup)
    (outcome : Reply × Setup) : Prop where
  unsaved : outcome.1 ≠ .ok .saved → before.Untouched outcome.2
  saved : outcome.1 = .ok .saved → ∃ config,
    CarriesPorts platform settings before.os config outcome.2 ∧
    settings.InRuntime before.os config

section

def oldConfig : Mapping := [(.string "mixed-port", portValue 7897)]

/-- A setup whose core runs, with a runtime file that a refused update has left. -/
def staleSetup : Setup where
  os := .linux
  isAdmin := false
  exiting := false
  clash := Slot.new ⟨oldConfig, by unfold OrderedMap.Distinct; decide⟩
  verge := Slot.new .default
  runtime := Slot.new ⟨some oldConfig, .default⟩
  clashClaimed := false
  vergeClaimed := false
  runtimeClaimed := false
  configUpdateInProgress := false
  core := .running .sidecar ⟨oldConfig, .default⟩
  files
    | .clash => some "# Generated by Clash Verge\n\nmixed-port: 7897\n"
    | .verge => some "# Clash Verge Config\n\n\x7b\x7d\n"
    | .runtime => some "# Generated by Clash Verge\n\nmixed-port: 7897\nmode: rule\n"
  borrowedPort := 0

/-- The texts that the serializer gives for the configurations of the save. -/
def plainPlatform : Platform where
  path
    | .clash => "/verge/config.yaml"
    | .verge => "/verge/verge.yaml"
    | .runtime => "/verge/clash-verge.yaml"
  mappingYaml config :=
    if config = oldConfig then .ok "mixed-port: 7897\n"
    else .ok "mixed-port: 7890\ntun:\n  enable: false\n"
  vergeYaml _ := .ok "verge_mixed_port: 7890\n"

def newPorts (mixedPort : UInt16) : ProxyPortSettings where
  mixedPort := mixedPort
  socks := ⟨false, 7898⟩
  http := ⟨false, 7899⟩
  redir := ⟨false, 7895⟩
  tproxy := ⟨false, 7896⟩

/-- A save whose core does not start on the new ports, while everything else succeeds. -/
def refusedRestart : SaveRun where
  generation := {
    engine := noScripts
    digest := fun _ _ => .ok ""
    profileUid := ""
    items := .ok (.plain [] OrderedMap.distinct_nil)
    dnsSettingsFor := fun _ _ => ⟨false, none⟩
    dnsConfig := none
    files := RuntimeBundle.plainFiles
    sha256 := fun _ => []
    appHome := "/verge".toList
    desiredListeners := none }
  probe := .ok .available
  validation := .ok .valid
  captured := .ok ()
  runtimeWritten := .ok ()
  restart := ⟨⟨.stopped, .failed "the port is taken", false, .ok ()⟩, [.sidecar]⟩
  clashSaved := .ok ()
  vergeSaved := .ok ()
  restored := fun _ => .ok ()
  regenerated := .ok ()
  recovery := ⟨⟨.stopped, .started .sidecar, true, .ok ()⟩, []⟩
  probeAgain := .ok .available

def acceptedRestart : SaveRun :=
  { refusedRestart with restart := ⟨⟨.stopped, .started .sidecar, true, .ok ()⟩, []⟩ }

end

end ClashVerge.Config
