import ClashVerge.Library.Transition

/-!
# The system proxy

`Sysopt` writes the proxy settings of the operating system: a global proxy and an automatic one. It
writes one kind after the other, reads back what it has enabled, and keeps the state it has read as
the one it owns. Settings that are not owned, or that have changed since, are not turned off.

The state of the operating system is what the two getters read when they succeed; whether a setter
fails, with which error, and what state it leaves, is an answer from outside. The calls of
`update_sysproxy` and `reset_sysproxy` follow each other, as the update lock makes them. What the
guard writes by itself is left out.

`ours`, `writes` and `confirmed` are not in the source: they say whether a call has changed the
settings since another process did, which writes were issued, and which were confirmed.
-/

namespace ClashVerge.SystemProxy

structure Sysproxy where
  enable : Bool
  host : String
  port : UInt16
  bypass : String
deriving DecidableEq

structure Autoproxy where
  enable : Bool
  url : String
deriving DecidableEq

/-- The two kinds together, as the code keeps them in pairs. -/
structure ProxyState where
  sys : Sysproxy
  auto : Autoproxy
deriving DecidableEq

namespace ProxyState

def default : ProxyState := ⟨⟨false, "", 0, ""⟩, ⟨false, ""⟩⟩

def off (state : ProxyState) : Bool := !state.sys.enable && !state.auto.enable

/-- The disabled state with the values of another. -/
def turnedOff (state : ProxyState) : ProxyState :=
  ⟨{ state.sys with enable := false }, { state.auto with enable := false }⟩

end ProxyState

inductive ProxyApplyStep where
  | sysproxy
  | autoproxy
deriving DecidableEq

/-- Disabling the automatic proxy clears flags of the global one on Windows, so it comes first when
only the global one is enabled. -/
def proxyApplySteps (sysEnabled autoEnabled : Bool) : ProxyApplyStep × ProxyApplyStep :=
  if sysEnabled && !autoEnabled then (.autoproxy, .sysproxy) else (.sysproxy, .autoproxy)

def enabledProxyTargetMatches (current target : ProxyState) : Bool :=
  if target.sys.enable then current.sys = target.sys
  else !current.sys.enable && current.auto = target.auto

inductive Platform where
  | linux
  | macos
  | windows
deriving DecidableEq

structure SetError where
  message : String
  missingService : Bool
  wroteSomething : Bool
deriving DecidableEq

/-- What a setter answers, and the state it leaves. -/
structure SetAnswer where
  error : Option SetError
  left : ProxyState
deriving DecidableEq

structure Failure where
  message : String
  /-- The context `SystemProxyStateUnknown`. -/
  stateUnknown : Bool
deriving DecidableEq

inductive AuthoritativeState where
  | unchanged
  | unknown
deriving DecidableEq

/-- Setters prove nothing on Linux; elsewhere a completed step or the error itself is evidence. An
error that is not from a setter is none. -/
def authoritativeState (platform : Platform) (error : Option SetError) (earlierStepCompleted : Bool) :
    AuthoritativeState :=
  if platform = .linux then .unchanged
  else if earlierStepCompleted then .unknown
  else
    match error with
    | some error => if error.wroteSomething then .unknown else .unchanged
    | none => .unchanged

def skipWithoutNetworkService (enabling : Bool) (answer : SetAnswer) : Except SetError Bool :=
  match answer.error with
  | none => .ok true
  | some error => if !enabling && error.missingService then .ok false else .error error

inductive GuardType where
  | none
  | autoproxy (auto : Autoproxy)
  | sysproxy (sys : Sysproxy)
deriving DecidableEq

/-- What a call of `update_sysproxy` finds in the configuration. -/
structure Request where
  enableSystemProxy : Option Bool
  proxyAutoConfig : Option Bool
  proxyHost : Option String
  enableProxyGuard : Option Bool
  port : UInt16
  bypass : String
  embeddedServerPort : Except String UInt16

namespace Request

variable (request : Request)

def host : String := request.proxyHost.getD "127.0.0.1"

/-- The target, with the port of the embedded server in the address of the automatic proxy. -/
def target (pacPort : UInt16) : ProxyState where
  sys :=
    { enable := request.enableSystemProxy.getD false && !request.proxyAutoConfig.getD false
      host := request.host
      port := request.port
      bypass := request.bypass }
  auto :=
    { enable := request.enableSystemProxy.getD false && request.proxyAutoConfig.getD false
      url := "http://" ++ request.host ++ ":" ++ toString pacPort.toNat ++ "/commands/pac" }

def guardType (target : ProxyState) : GuardType :=
  if target.off || !request.enableProxyGuard.getD false then .none
  else if target.auto.enable then .autoproxy target.auto
  else .sysproxy target.sys

end Request

/-- What a call of `update_sysproxy` is answered. -/
structure UpdateAnswers where
  /-- The error of the first reading. -/
  before : Option String
  drained : Bool
  /-- The snapshot that is read on macOS shows the target. -/
  alreadyApplied : Bool
  /-- The task of the setters did not finish. -/
  unfinished : Option (String × ProxyState)
  first : SetAnswer
  second : SetAnswer
  compensation : SetAnswer × SetAnswer
  guardRestarts : Bool
  /-- The error of the second reading. -/
  after : Option String

structure ResetAnswers where
  /-- Another call of `reset_sysproxy` is under way. -/
  underWay : Bool
  before : Option String
  drained : Bool
  alreadyApplied : Bool
  first : SetAnswer × SetAnswer
  second : SetAnswer × SetAnswer

inductive Purpose where
  | update
  | reset
  | compensation
deriving DecidableEq

structure Write where
  purpose : Purpose
  target : ProxyState
  observed : ProxyState
  owned : Option ProxyState
deriving DecidableEq

/-- An enabling write that was confirmed, and what was read back. -/
structure Confirmation where
  target : ProxyState
  readback : ProxyState
deriving DecidableEq

structure State where
  os : ProxyState
  owned : Option ProxyState
  inner : ProxyState
  guardType : GuardType
  guardRunning : Bool
  ours : Bool
  writes : List Write
  confirmed : List Confirmation
deriving DecidableEq

namespace State

def new (os : ProxyState) : State where
  os := os
  owned := none
  inner := .default
  guardType := .none
  guardRunning := false
  ours := false
  writes := []
  confirmed := []

def stopGuard (state : State) : State := { state with guardRunning := false }

def setGuardType (state : State) (guardType : GuardType) : State :=
  { state with guardType := guardType }

/-- A write is issued, and leaves the system in some state. -/
def write (state : State) (purpose : Purpose) (target observed left : ProxyState) : State :=
  { state with
    os := left
    writes := state.writes ++ [⟨purpose, target, observed, state.owned⟩] }

end State

/-- What does not change while the process runs. -/
structure Instance where
  platform : Platform
  writesDisabled : Bool

def unfinishedText (message : String) : String :=
  "the system proxy write task did not finish: " ++ message

def unconfirmedText : String := "System proxy changed before its applied state could be confirmed."

def ProxyApplyStep.enables (target : ProxyState) : ProxyApplyStep → Bool
  | sysproxy => target.sys.enable
  | autoproxy => target.auto.enable

/-- The loop over the two steps; an error says whether an earlier step has reached the system. -/
def applySteps (target : ProxyState) (answers : UpdateAnswers) :
    ProxyState × Except (Bool × SetError) Unit :=
  let steps := proxyApplySteps target.sys.enable target.auto.enable
  match skipWithoutNetworkService (steps.1.enables target) answers.first with
  | .error error => (answers.first.left, .error (false, error))
  | .ok reached =>
    match skipWithoutNetworkService (steps.2.enables target) answers.second with
    | .error error => (answers.second.left, .error (reached, error))
    | .ok _ => (answers.second.left, .ok ())

namespace Instance

variable (process : Instance)

/-- `recover_from_failed_write`. The compensation turns both kinds off, whatever the setters answer. -/
def recoverFromFailedWrite (target observed : ProxyState) (answers : UpdateAnswers)
    (error : Option SetError) (message : String) (earlierStepCompleted guardWasRunning : Bool)
    (state : State) : State × Failure :=
  match authoritativeState process.platform error earlierStepCompleted with
  | .unchanged =>
    ({ state with guardRunning := guardWasRunning && answers.guardRestarts }, ⟨message, false⟩)
  | .unknown =>
    ((state.setGuardType .none).write .compensation target.turnedOff observed
      answers.compensation.2.left, ⟨message, true⟩)

def confirm (target observed : ProxyState) (guardType : GuardType) (answers : UpdateAnswers)
    (state : State) : State × Except Failure Unit :=
  if target.off then (({ state with owned := none } : State).setGuardType guardType, .ok ())
  else
    match answers.after with
    | some message => (state, .error ⟨message, false⟩)
    | none =>
      if enabledProxyTargetMatches state.os target then
        let confirmed :=
          { state with confirmed := state.confirmed ++ [Confirmation.mk target state.os] }
        let recorded :=
          if state.owned.isSome || observed ≠ target then { confirmed with owned := some state.os }
          else confirmed
        (recorded.setGuardType guardType, .ok ())
      else (state, .error ⟨unconfirmedText, false⟩)

def apply (target observed : ProxyState) (guardType : GuardType) (answers : UpdateAnswers)
    (guardWasRunning : Bool) (state : State) : State × Except Failure Unit :=
  match answers.unfinished with
  | some (message, left) =>
    let recovered := process.recoverFromFailedWrite target observed answers none
      (unfinishedText message) false guardWasRunning (state.write .update target observed left)
    (recovered.1, .error recovered.2)
  | none =>
    let applied := applySteps target answers
    match applied.2 with
    | .error (earlierStepCompleted, error) =>
      let recovered := process.recoverFromFailedWrite target observed answers (some error)
        error.message earlierStepCompleted guardWasRunning
        (state.write .update target observed applied.1)
      (recovered.1, .error recovered.2)
    | .ok () => confirm target observed guardType answers
        (state.write .update target observed applied.1)

def updateSysproxy (request : Request) (answers : UpdateAnswers) (state : State) :
    State × Except Failure Unit :=
  if process.writesDisabled then (state.stopGuard, .ok ())
  else
    match request.embeddedServerPort with
    | .error message => (state, .error ⟨message, false⟩)
    | .ok pacPort =>
      let target := request.target pacPort
      let entered := { state with inner := target }
      if target.off && state.owned.isNone then (entered.stopGuard, .ok ())
      else
        match answers.before with
        | some message => (entered, .error ⟨message, false⟩)
        | none =>
          let observed := state.os
          if target.off && state.owned ≠ some observed then
            (({ entered with owned := none } : State).stopGuard, .ok ())
          else if process.platform = .macos ∧ answers.drained ∧ answers.alreadyApplied then
            (entered.stopGuard.setGuardType (request.guardType target), .ok ())
          else
            process.apply target observed (request.guardType target) answers state.guardRunning
              entered.stopGuard

end Instance

/-- `disable_all_proxies`: both setters are called, and the first failure is returned. -/
def disableAllProxies (answers : SetAnswer × SetAnswer) : ProxyState × Except Failure Unit :=
  let failure (answer : SetAnswer) : Option Failure :=
    match skipWithoutNetworkService false answer with
    | .ok _ => none
    | .error error => some ⟨error.message, false⟩
  match failure answers.1, failure answers.2 with
  | some failure, _ => (answers.2.left, .error failure)
  | none, some failure => (answers.2.left, .error failure)
  | none, none => (answers.2.left, .ok ())

namespace Instance

variable (process : Instance)

/-- `disable_until_the_last_write_is_ours`. -/
def disable (target observed : ProxyState) (answers : ResetAnswers) (state : State) :
    State × Except Failure Unit :=
  let disabled := disableAllProxies answers.first
  let written := state.write .reset target observed disabled.1
  match disabled.2 with
  | .error failure => (written, .error failure)
  | .ok () =>
    if answers.drained then (written, .ok ())
    else
      let again := disableAllProxies answers.second
      (written.write .reset target observed again.1, again.2)

def resetSysproxy (answers : ResetAnswers) (state : State) : State × Except Failure Unit :=
  if process.writesDisabled then (state.stopGuard, .ok ())
  else if answers.underWay then (state, .ok ())
  else if state.owned = none then (state, .ok ())
  else
    match answers.before with
    | some message => (state, .error ⟨message, false⟩)
    | none =>
      let observed := state.os
      if state.owned ≠ some observed then ({ state with owned := none }, .ok ())
      else
        let target := state.inner.turnedOff
        let stopped := { state.stopGuard with inner := target }
        if process.platform = .macos ∧ answers.drained ∧ answers.alreadyApplied then
          (stopped, .ok ())
        else
          let disabled := disable target observed answers stopped
          match disabled.2 with
          | .ok () => ({ disabled.1 with owned := none }, .ok ())
          | .error failure => (disabled.1, .error failure)

end Instance

/-- A call, or a change of the settings by another process. -/
inductive Action where
  | update (request : Request) (answers : UpdateAnswers)
  | reset (answers : ResetAnswers)
  | foreign (os : ProxyState)

namespace Instance

variable (process : Instance)

def after (state : State) : Action → State
  | .update request answers =>
    let next := (process.updateSysproxy request answers state).1
    { next with ours := state.ours || next.os ≠ state.os }
  | .reset answers =>
    let next := (process.resetSysproxy answers state).1
    { next with ours := state.ours || next.os ≠ state.os }
  | .foreign os => { state with os := os, ours := false }

def step (state : State) (action : Action) : Option State := some (process.after state action)

end Instance

end ClashVerge.SystemProxy
