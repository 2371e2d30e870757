import ClashVerge.Config.Generate
import ClashVerge.Config.Update

/-!
# Saving the proxy ports

`save_proxy_ports` stages the ports on the application's two configurations, generates, probes and
validates the runtime configuration they give, and then changes in turn the runtime file, the core
and the files of the two configurations. Whatever fails after the runtime file is written is undone
step by step, and a core that ran is started again.

How each step ends is an argument. A file is replaced whole or not at all when it is written, and
may be left in any state when it is restored.
-/

namespace ClashVerge.Config

open Draft Enhance Verge Yaml

structure ToggleableProxyPort where
  enabled : Bool
  port : UInt16
deriving DecidableEq

structure ProxyPortSettings where
  mixedPort : UInt16
  socks : ToggleableProxyPort
  http : ToggleableProxyPort
  redir : ToggleableProxyPort
  tproxy : ToggleableProxyPort
deriving DecidableEq

inductive ListenerTransport where
  | tcp
  | udp
deriving DecidableEq

inductive ListenerProbeOutcome where
  | available
  | conflict (port : UInt16) (transport : ListenerTransport)
  | invalid (message : String)
  | indeterminate (message : String)
deriving DecidableEq

inductive SaveProxyPortsOutcome where
  | saved
  | conflict (port : UInt16) (transport : ListenerTransport)
deriving DecidableEq

/-- The layers of a transaction, in the order in which it claims them. -/
inductive ConfigLayer where
  | clash
  | verge
  | runtime
deriving DecidableEq

/-- The three configuration files, in the order in which they are restored. -/
inductive ConfigFile where
  | clash
  | verge
  | runtime
deriving DecidableEq

def ConfigFile.all : List ConfigFile := [.clash, .verge, .runtime]

abbrev ConfigFiles : Type := ConfigFile → Option String

inductive SaveFailure where
  | busy (layer : ConfigLayer)
  | failed (failure : Failure)
deriving DecidableEq

abbrev Reply : Type := Except SaveFailure SaveProxyPortsOutcome

namespace ProxyPortSettings

variable (settings : ProxyPortSettings)

def toggles : List (String × ToggleableProxyPort) :=
  [("SOCKS", settings.socks), ("HTTP", settings.http), ("redir", settings.redir),
    ("TProxy", settings.tproxy)]

def validate : Except String Unit :=
  if settings.mixedPort = 0 then .error "mixed proxy port must be between 1 and 65535"
  else
    match settings.toggles.find? fun toggle => toggle.2.port = 0 with
    | some toggle => .error (toggle.1 ++ " proxy port must be between 1 and 65535")
    | none => .ok ()

def stageClash (os : Os) (clash : IClashTemp) : IClashTemp :=
  let clash := clash.insert "mixed-port" (portValue settings.mixedPort)
  let clash := clash.insert "socks-port" (portValue settings.socks.port)
  let clash := clash.insert "port" (portValue settings.http.port)
  let clash :=
    if os ≠ .windows then clash.insert "redir-port" (portValue settings.redir.port) else clash
  if os = .linux then clash.insert "tproxy-port" (portValue settings.tproxy.port) else clash

/-- The draft of the application's own configuration with the ports. -/
def stageVerge (os : Os) (verge : IVerge) : IVerge :=
  let verge := verge.set .vergeMixedPort settings.mixedPort.toNat
  let verge := verge.set .vergeSocksPort settings.socks.port.toNat
  let verge := verge.set .vergeSocksEnabled settings.socks.enabled
  let verge := verge.set .vergePort settings.http.port.toNat
  let verge := verge.set .vergeHttpEnabled settings.http.enabled
  let verge :=
    if os ≠ .windows then
      (verge.set .vergeRedirPort settings.redir.port.toNat).set .vergeRedirEnabled
        settings.redir.enabled
    else verge
  if os = .linux then
    (verge.set .vergeTproxyPort settings.tproxy.port.toNat).set .vergeTproxyEnabled
      settings.tproxy.enabled
  else verge

end ProxyPortSettings

def rejectedSaveOutcome : ListenerProbeOutcome → Except String (Option SaveProxyPortsOutcome)
  | .available => .ok none
  | .conflict port transport => .ok (some (.conflict port transport))
  | .invalid message => .error message
  | .indeterminate message => .error message

/-- The paths of the files, and the texts that the serializer gives. -/
structure Platform where
  path : ConfigFile → String
  mappingYaml : Mapping → Except String String
  vergeYaml : IVerge → Except String String

namespace Platform

variable (platform : Platform)

/-- The text of `save_config`, and of `runtime_config_yaml`. -/
def generatedText (config : Mapping) : Except String String :=
  (platform.mappingYaml config).map ("# Generated by Clash Verge\n\n" ++ ·)

/-- The text of `save_file`. -/
def vergeText (verge : IVerge) : Except String String :=
  (platform.vergeYaml verge).map ("# Clash Verge Config\n\n" ++ ·)

end Platform

/-- A file that could not be restored, and what it then holds. -/
structure Damage where
  message : String
  left : Option String

structure CoreChange where
  replacement : Replacement
  attempts : List CoreMode

/-- The modes whose runtime file is written, in order. -/
def CoreChange.written (change : CoreChange) : List CoreMode :=
  match change.replacement.start with
  | .waits => []
  | .failed _ => change.attempts
  | .started mode => change.attempts ++ [mode]

/-- How each step of a save ends. -/
structure SaveRun where
  generation : Generation
  probe : Except String ListenerProbeOutcome
  validation : Except String ValidationOutcome
  captured : Except String Unit
  runtimeWritten : Except String Unit
  restart : CoreChange
  clashSaved : Except String Unit
  vergeSaved : Except String Unit
  /-- `restore_files`. -/
  restored : ConfigFile → Except Damage Unit
  /-- `generate_file`, when not all files are restored. -/
  regenerated : Except String Unit
  recovery : CoreChange
  /-- The probe after that. -/
  probeAgain : Except String ListenerProbeOutcome

structure Setup where
  os : Os
  isAdmin : Bool
  exiting : Bool
  clash : Slot IClashTemp
  verge : Slot IVerge
  runtime : Slot IRuntime
  clashClaimed : Bool
  vergeClaimed : Bool
  runtimeClaimed : Bool
  configUpdateInProgress : Bool
  core : Core
  files : ConfigFiles
  /-- `SESSION_FALLBACK`, where zero stands for no port. -/
  borrowedPort : UInt16

namespace Setup

variable (setup : Setup) (platform : Platform) (run : SaveRun)

/-- The layers and the core, without the files. -/
def world : World where
  os := setup.os
  isAdmin := setup.isAdmin
  exiting := setup.exiting
  clash := ⟨setup.clash.data.config, setup.clash.draft.map IClashTemp.config⟩
  verge := setup.verge
  runtime := setup.runtime
  vergeClaimed := setup.vergeClaimed
  runtimeClaimed := setup.runtimeClaimed
  configUpdateInProgress := setup.configUpdateInProgress
  core := setup.core

def sessionFallback : Option UInt16 :=
  if setup.borrowedPort = 0 then none else some setup.borrowedPort

def clearSessionFallback : Setup := { setup with borrowedPort := 0 }

def restoreBorrowedPort : Option UInt16 → Setup
  | some port => { setup with borrowedPort := port }
  | none => setup.clearSessionFallback

def currentRuntimeMapping : Except String Mapping :=
  match setup.runtime.data.config with
  | some config => .ok config
  | none => .error "current Runtime Configuration is unavailable"

def latestRuntimeMapping : Except String Mapping :=
  match setup.runtime.latest.config with
  | some config => .ok config
  | none => .error "candidate Runtime Configuration is unavailable"

/-- `DraftTransaction::begin` with the three layers. -/
def begin : Except ConfigLayer Setup :=
  if setup.clashClaimed then .error .clash
  else if setup.vergeClaimed then .error .verge
  else if setup.runtimeClaimed then .error .runtime
  else .ok { setup with clashClaimed := true, vergeClaimed := true, runtimeClaimed := true }

def release : Setup :=
  { setup with clashClaimed := false, vergeClaimed := false, runtimeClaimed := false }

/-- `discard_proxy_port_drafts`. -/
def discardDrafts : Setup :=
  { setup with
    clash := setup.clash.discard, verge := setup.verge.discard, runtime := setup.runtime.discard }

/-- The transaction ends without a commit. -/
def rollback : Setup := setup.discardDrafts.release

def commit : Setup :=
  { setup with
    clash := setup.clash.apply, verge := setup.verge.apply, runtime := setup.runtime.apply }.release

def stageProxyPorts (settings : ProxyPortSettings) : Setup :=
  { setup with
    clash := setup.clash.editDraft (settings.stageClash setup.os)
    verge := setup.verge.editDraft (settings.stageVerge setup.os) }

def generate : Except Failure Setup :=
  match run.generation.generate setup.os setup.clash.latest setup.verge.latest
      setup.sessionFallback with
  | .error failure => .error failure
  | .ok config =>
    .ok { setup with runtime := setup.runtime.editDraft fun _ => ⟨some config, setup.verge.latest⟩ }

def runtimeConfigYaml : Except String String :=
  match setup.world.runtimeConfig with
  | .error error => .error error
  | .ok loaded => platform.generatedText loaded.config

def writeFile (file : ConfigFile) (text : String) : Except String Unit → Except String Unit × Setup
  | .ok () => (.ok (), { setup with files := Function.update setup.files file (some text) })
  | .error error => (.error error, setup)

def launchText (mode : CoreMode) : Except String String :=
  match setup.world.runtimeConfig with
  | .error error => .error error
  | .ok loaded =>
    if mode = .sidecar ∧ setup.os = .windows ∧ setup.isAdmin = false then
      platform.mappingYaml (sidecarConfigWithoutTun loaded.config)
    else platform.generatedText loaded.config

def writeLaunch (files : ConfigFiles) (mode : CoreMode) : ConfigFiles :=
  match setup.launchText platform mode with
  | .error _ => files
  | .ok text => Function.update files .runtime (some text)

def startOutcome (change : CoreChange) : StartOutcome :=
  match change.replacement.start with
  | .waits => .waits
  | .failed error => .failed error
  | .started mode =>
    match setup.launchText platform mode with
    | .error error => .failed error
    | .ok _ => .started mode

def startCoreInner (change : CoreChange) : Except String Unit × Setup :=
  if setup.exiting || setup.core.isRunning then (.ok (), setup)
  else
    let outcome := setup.world.startCoreInner (setup.startOutcome platform change)
    (outcome.1, { setup with
      core := outcome.2.core
      files := change.written.foldl (setup.writeLaunch platform) setup.files })

/-- `start_core_during_config_update`. -/
def startCore (change : CoreChange) : Except String Unit × Setup :=
  match setup.startCoreInner platform change with
  | (.error error, started) => (.error error, started)
  | (.ok (), started) =>
    if started.core.isRunning && change.replacement.ready then (change.replacement.proxy, started)
    else (.ok (), started)

/-- `restart_core_during_config_update`. -/
def restartCore (change : CoreChange) : Except String Unit × Setup :=
  match setup.world.stopCore change.replacement.stop with
  | (.error error, stopped) => (.error error, { setup with core := stopped.core })
  | (.ok (), stopped) =>
    match { setup with core := stopped.core }.startCoreInner platform change with
    | (.error error, started) => (.error error, started)
    | (.ok (), started) =>
      if started.core.isRunning && change.replacement.ready then
        (change.replacement.proxy, started)
      else (.error "core did not become ready after restart", started)

def restoredFile (snapshots : ConfigFiles) (file : ConfigFile) : Option String :=
  match run.restored file with
  | .ok () => snapshots file
  | .error damage => damage.left

def restoreErrors : List String :=
  ConfigFile.all.filterMap fun file =>
    match run.restored file with
    | .ok () => none
    | .error damage => some (platform.path file ++ ": " ++ damage.message)

def restoreFiles (snapshots : ConfigFiles) : Except String Unit × Setup :=
  (if restoreErrors platform run = [] then .ok ()
    else .error ("; ".intercalate (restoreErrors platform run)),
  { setup with files := restoredFile run snapshots })

def generateFile : Setup :=
  match setup.runtimeConfigYaml platform with
  | .error _ => setup
  | .ok yaml => (setup.writeFile .runtime yaml run.regenerated).2

def rollbackProxyPorts (snapshots : ConfigFiles) (wasRunning : Bool) :
    Except Failure Unit × Setup :=
  let fileResult := setup.discardDrafts.restoreFiles platform run snapshots
  let left := match fileResult.1 with
    | .ok () => fileResult.2
    | .error _ => fileResult.2.generateFile platform run
  let lifecycleResult :=
    if wasRunning then
      if left.core.isRunning then left.restartCore platform run.recovery
      else left.startCore platform run.recovery
    else (.ok (), left)
  (match fileResult.1, lifecycleResult.1 with
    | .ok (), .ok () => .ok ()
    | .error fileError, .ok () => .error (.message fileError)
    | .ok (), .error lifecycleError =>
      .error (.context "failed to restore the previous core" (.message lifecycleError))
    | .error fileError, .error lifecycleError =>
      .error (.context "failed to restore the previous core"
        (.context ("failed to restore configuration files: " ++ fileError)
          (.message lifecycleError))),
  lifecycleResult.2)

def persistProxyPortSources : Except Failure Unit × Setup :=
  let clashFailed := fun error =>
    Failure.context "failed to persist Application Merge Configuration" (.message error)
  let vergeFailed := fun error =>
    Failure.context "failed to persist selected proxy ports" (.message error)
  match platform.generatedText setup.clash.latest.config with
  | .error error => (.error (clashFailed error), setup)
  | .ok text =>
    match setup.writeFile .clash text run.clashSaved with
    | (.error error, left) => (.error (clashFailed error), left)
    | (.ok (), saved) =>
      match platform.vergeText saved.verge.latest with
      | .error error => (.error (vergeFailed error), saved)
      | .ok text =>
        match saved.writeFile .verge text run.vergeSaved with
        | (.error error, left) => (.error (vergeFailed error), left)
        | (.ok (), saved) => (.ok (), saved)

def failed (failure : Failure) : Reply := .error (.failed failure)

/-- From the staged ports to the text of a candidate, or the reply that ends the save before any
file has changed. -/
def prepareCandidate : Except Reply String × Setup :=
  match setup.generate run with
  | .error failure =>
    (.error (failed
      (.context "failed to generate candidate proxy port configuration" failure)), setup)
  | .ok left =>
    match left.latestRuntimeMapping with
    | .error error => (.error (failed (.message error)), left)
    | .ok _ =>
      match run.probe with
      | .error error =>
        (.error (failed (.context "proxy port probe task failed" (.message error))), left)
      | .ok assessment =>
        match rejectedSaveOutcome assessment with
        | .error error => (.error (failed (.message error)), left)
        | .ok (some outcome) => (.error (.ok outcome), left)
        | .ok none =>
          match left.runtimeConfigYaml platform with
          | .error error =>
            (.error (failed (.context "failed to serialize candidate proxy port configuration"
              (.message error))), left)
          | .ok yaml =>
            match run.validation with
            | .error error =>
              (.error (failed (.context "failed to validate candidate proxy port configuration"
                (.message error))), left)
            | .ok validation =>
              if validation.isValid then
                match run.captured with
                | .error error => (.error (failed (.message error)), left)
                | .ok () => (.ok yaml, left)
              else
                (.error (failed (.message ("candidate proxy port configuration is invalid: " ++
                  validation.display))), left)

/-- The core could not be restarted on the new ports. -/
def recoverCore (borrowed : Option UInt16) (snapshots : ConfigFiles) (activationError : String) :
    Reply × Setup :=
  let undone := (setup.rollback.restoreBorrowedPort borrowed).rollbackProxyPorts platform run
    snapshots true
  (match undone.1 with
    | .error rollbackError =>
      failed (.context "failed to activate the proxy port configuration"
        (.rollback (.message activationError) rollbackError))
    | .ok () =>
      match run.probeAgain with
      | .error error => failed (.context "proxy port probe task failed" (.message error))
      | .ok assessment =>
        match rejectedSaveOutcome assessment with
        | .error error => failed (.message error)
        | .ok (some outcome) => .ok outcome
        | .ok none =>
          failed (.context "failed to activate the proxy port configuration"
            (.message activationError)),
  undone.2.restoreBorrowedPort borrowed)

/-- The candidate is active; its sources are saved and its drafts committed. -/
def finishSave (borrowed : Option UInt16) (snapshots : ConfigFiles) (wasRunning : Bool) :
    Reply × Setup :=
  match setup.persistProxyPortSources platform run with
  | (.error persistError, left) =>
    let undone := (left.rollback.restoreBorrowedPort borrowed).rollbackProxyPorts platform run
      snapshots wasRunning
    (failed (match undone.1 with
      | .ok () => persistError
      | .error rollbackError => .rollback persistError rollbackError),
    undone.2.restoreBorrowedPort borrowed)
  | (.ok (), saved) => (.ok .saved, saved.commit)

/-- The part of a save that changes the files and the core. -/
def activate (borrowed : Option UInt16) (yaml : String) : Reply × Setup :=
  let snapshots := setup.files
  let wasRunning := setup.core.isRunning
  match setup.writeFile .runtime yaml run.runtimeWritten with
  | (.error error, left) =>
    let restored := left.rollback.restoreFiles platform run snapshots
    (failed (match restored.1 with
      | .ok () => .context "failed to persist candidate Runtime Configuration" (.message error)
      | .error rollbackError => .rollback (.message error) (.message rollbackError)),
    restored.2.restoreBorrowedPort borrowed)
  | (.ok (), written) =>
    if wasRunning then
      match written.restartCore platform run.restart with
      | (.error activationError, left) =>
        left.recoverCore platform run borrowed snapshots activationError
      | (.ok (), started) => started.finishSave platform run borrowed snapshots wasRunning
    else written.finishSave platform run borrowed snapshots wasRunning

/-- A save that has claimed the layers. An error on the way to the candidate drops the guard of the
borrowed port and then the transaction. -/
def saveClaimed (settings : ProxyPortSettings) : Reply × Setup :=
  let borrowed := setup.sessionFallback
  match ((setup.stageProxyPorts settings).clearSessionFallback).prepareCandidate platform run with
  | (.error reply, left) => (reply, (left.restoreBorrowedPort borrowed).rollback)
  | (.ok yaml, left) => left.activate platform run borrowed yaml

/-- A save that has set the update flag. -/
def saveExclusive (settings : ProxyPortSettings) : Reply × Setup :=
  match setup.currentRuntimeMapping with
  | .error error => (failed (.message error), setup)
  | .ok _ =>
    match setup.begin with
    | .error layer => (.error (.busy layer), setup)
    | .ok claimed => claimed.saveClaimed platform run settings

def saveProxyPorts (settings : ProxyPortSettings) : Reply × Setup :=
  match settings.validate with
  | .error error => (failed (.message error), setup)
  | .ok () =>
    if setup.configUpdateInProgress then
      (failed (.message "configuration update is already running"), setup)
    else
      let outcome := { setup with configUpdateInProgress := true }.saveExclusive platform run settings
      (outcome.1, { outcome.2 with configUpdateInProgress := false })

end Setup

end ClashVerge.Config
