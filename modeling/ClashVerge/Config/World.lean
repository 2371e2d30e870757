import ClashVerge.Draft.Slot
import ClashVerge.Verge.Config
import ClashVerge.Yaml.Value

/-!
# Configuration layers and the core process

A command runs on a world: three draft layers, the claims and flags that keep commands apart, and
the core process with the configuration it loaded last. Commands run one after another, so locks
that only serialize them are left out.

A runtime configuration also remembers the record of the application's configuration it was
generated from, which no function reads.
-/

namespace ClashVerge.Config

open ClashVerge.Draft ClashVerge.Verge ClashVerge.Yaml

/-- The `config` entry of `IRuntime`, and what it was generated from. -/
structure IRuntime where
  config : Option Mapping
  origin : IVerge

/-- `RunningMode` of a core that runs. -/
inductive CoreMode where
  | service
  | sidecar
deriving DecidableEq, Repr

structure Loaded where
  config : Mapping
  origin : IVerge

inductive Core where
  | notRunning
  | running (mode : CoreMode) (loaded : Loaded)

def Core.isRunning : Core → Bool
  | notRunning => false
  | running _ _ => true

structure World where
  os : Os
  isAdmin : Bool
  exiting : Bool
  clash : Slot Mapping
  verge : Slot IVerge
  runtime : Slot IRuntime
  vergeClaimed : Bool
  runtimeClaimed : Bool
  configUpdateInProgress : Bool
  core : Core

/-- An application at rest, whose core runs the committed runtime configuration. -/
def World.atRest (os : Os) (mode : CoreMode) (loaded : Loaded) : World where
  os := os
  isAdmin := false
  exiting := false
  clash := Slot.new []
  verge := Slot.new loaded.origin
  runtime := Slot.new ⟨some loaded.config, loaded.origin⟩
  vergeClaimed := false
  runtimeClaimed := false
  configUpdateInProgress := false
  core := .running mode loaded

/-- `Ok` or the text of the error, and the world afterwards. -/
abbrev Outcome (α : Type) : Type := Except String α × World

/-- How stopping a running core ends. A proxy that cannot be cleared and a service that does not
stop its core leave it running. -/
inductive StopOutcome where
  | stopped
  | refused (error : String)
  | unconfirmed (error : String)

/-- How starting a core ends. `waits` is the startup decision to wait for the service. -/
inductive StartOutcome where
  | waits
  | failed (error : String)
  | started (mode : CoreMode)

structure Replacement where
  stop : StopOutcome
  start : StartOutcome
  ready : Bool
  proxy : Except String Unit

def sidecarConfigWithoutTun (config : Mapping) : Mapping :=
  let tun := match config.get "tun" with
    | some (.mapping tun) => tun
    | _ => []
  config.insert (.string "tun") (.mapping (Mapping.insert tun (.string "enable") (.bool false)))

namespace World

variable (world : World)

/-- An unelevated Windows sidecar starts with TUN switched off. -/
def launch (mode : CoreMode) (config : Mapping) : Mapping :=
  match mode with
  | .service => config
  | .sidecar =>
    if world.os = .windows ∧ world.isAdmin = false then sidecarConfigWithoutTun config else config

/-- `runtime_config_yaml` before serialization: the staged configuration, or the committed one. -/
def runtimeConfig : Except String Loaded :=
  match world.runtime.latest.config, world.runtime.data.config with
  | some config, _ => .ok ⟨config, world.runtime.latest.origin⟩
  | none, some config => .ok ⟨config, world.runtime.data.origin⟩
  | none, none => .error "failed to generate runtime config, might need to restart application"

/-- `controlled_stop_core_with_intent`. -/
def stopCore (stop : StopOutcome) : Outcome Unit :=
  match world.core, stop with
  | .notRunning, _ => (.ok (), world)
  | .running _ _, .stopped => (.ok (), { world with core := .notRunning })
  | .running _ _, .refused error => (.error error, world)
  | .running _ _, .unconfirmed error => (.error error, { world with core := .notRunning })

def startWith (mode : CoreMode) (loaded : Loaded) : World :=
  { world with core := .running mode { loaded with config := world.launch mode loaded.config } }

/-- `start_core_inner`, whose core starts with the file `generate_file` writes. -/
def startCoreInner (start : StartOutcome) : Outcome Unit :=
  if world.exiting || world.core.isRunning then (.ok (), world)
  else
    match start with
    | .waits => (.ok (), world)
    | .failed error => (.error error, world)
    | .started mode =>
      match world.runtimeConfig with
      | .error error => (.error error, world)
      | .ok loaded => (.ok (), world.startWith mode loaded)

def restartCoreDuringConfigUpdate (replacement : Replacement) : Outcome Unit :=
  match world.stopCore replacement.stop with
  | (.error error, stopped) => (.error error, stopped)
  | (.ok (), stopped) =>
    match stopped.startCoreInner replacement.start with
    | (.error error, started) => (.error error, started)
    | (.ok (), started) =>
      if started.core.isRunning && replacement.ready then (replacement.proxy, started)
      else (.error "core did not become ready after restart", started)

def restartCore (replacement : Replacement) : Outcome Unit :=
  if world.configUpdateInProgress then (.error "configuration update is already running", world)
  else
    let outcome := { world with configUpdateInProgress := true }.restartCoreDuringConfigUpdate
      replacement
    (outcome.1, { outcome.2 with configUpdateInProgress := false })

end World

/-- Nothing, a stop, a configuration handed over, or a start of the mode from one. -/
inductive Fate where
  | kept
  | stopped
  | reloaded
  | started (mode : CoreMode)
deriving DecidableEq

namespace Fate

/-- The core has taken the configuration at hand. -/
def loads : Fate → Bool
  | reloaded | started _ => true
  | kept | stopped => false

/-- The core a fate leaves, for the configuration at hand. -/
def core (world : World) (loaded : Loaded) : Fate → Core
  | kept => world.core
  | stopped => .notRunning
  | reloaded =>
    match world.core with
    | .notRunning => .notRunning
    | .running mode _ => .running mode loaded
  | started mode => .running mode { loaded with config := world.launch mode loaded.config }

end Fate

/-- The fate of the core once the old one is stopped. -/
def StartOutcome.fate (exiting : Bool) : StartOutcome → Fate
  | .started mode => if exiting then .stopped else .started mode
  | .waits | .failed _ => .stopped

def Replacement.fate (replacement : Replacement) (running exiting : Bool) : Fate :=
  match running, replacement.stop with
  | true, .refused _ => .kept
  | true, .unconfirmed _ => .stopped
  | true, .stopped | false, _ => replacement.start.fate exiting

/-- The new core started, became ready, and the system proxy was applied again. -/
def Replacement.succeeds (replacement : Replacement) (running exiting : Bool) : Bool :=
  match replacement.fate running exiting with
  | .started _ => replacement.ready && replacement.proxy.isOk
  | _ => false

namespace World

variable (world : World)

theorem restartCoreDuringConfigUpdate_spec (replacement : Replacement) {loaded : Loaded}
    (config : world.runtimeConfig = .ok loaded) :
    (world.restartCoreDuringConfigUpdate replacement).2 = { world with
      core := (replacement.fate world.core.isRunning world.exiting).core world loaded } ∧
    (world.restartCoreDuringConfigUpdate replacement).1.isOk =
      replacement.succeeds world.core.isRunning world.exiting := by
  obtain ⟨os, isAdmin, exiting, clash, verge, runtime, vergeClaimed, runtimeClaimed, busy, core⟩ :=
    world
  have staged : ∀ core, runtimeConfig ⟨os, isAdmin, exiting, clash, verge, runtime, vergeClaimed,
      runtimeClaimed, busy, core⟩ = .ok loaded := fun _ => config
  cases core <;> cases stop : replacement.stop <;> cases start : replacement.start <;>
    cases exiting <;> constructor <;>
    simp [restartCoreDuringConfigUpdate, stopCore, startCoreInner, stop, start, staged,
      Replacement.fate, Replacement.succeeds, StartOutcome.fate, Fate.core, Core.isRunning,
      startWith, launch] <;>
    cases replacement.ready <;> rfl

end World

end ClashVerge.Config
