import ClashVerge.AppProxy.Listeners
import ClashVerge.Config.Update
import ClashVerge.Profiles.Selection

/-!
# The application-proxy manager

The manager starts a helper, keeps the listeners that the helper sends connections to in the runtime
configuration, and replaces the helper's rules while it runs. Starting, replacing the rules and
stopping hold one lock from their beginning to their end, so each is one function of the state.

What the outside answers to a call is an argument of it; a list of answers is read from its
beginning, one for each question. The helper itself is modelled: it numbers its rules and takes new
ones only for the number it is at. No function panics while it holds a lock of the manager.

`configured` and `unremoved` are not fields of the source. They list the listeners that were put
into the runtime configuration, and those that were to be taken out and were not.
-/

namespace ClashVerge.AppProxy

open ClashVerge.Config ClashVerge.Profiles ClashVerge.Yaml

/-- The process of the helper: what `config_service` holds. -/
structure ManagedProcess where
  rules : List AppProxyRule
  groups : List ProxyGroup
  rulesRevision : Nat
deriving DecidableEq

/-- The helper, with its `listener` given by the port. -/
structure ManagedHelper where
  process : ManagedProcess
  rules : List AppProxyRule
  listener : Nat
  listenerName : String
  extraListeners : Listeners
  strategyGroup : String
  effectiveRulesVersion : Nat
  failed : Bool
deriving DecidableEq

structure State where
  processId : String
  inner : Option ManagedHelper
  desiredListener : List ManagedListenerSpec
  rules : List AppProxyRule
  rulesFile : List AppProxyRule
  /-- The configuration of the runtime. -/
  config : Option Mapping
  configured : List String
  unremoved : List String

def State.new (processId : String) (rules : List AppProxyRule) (config : Option Mapping) : State where
  processId := processId
  inner := none
  desiredListener := []
  rules := rules
  rulesFile := rules
  config := config
  configured := []
  unremoved := []

/-- What `update_runtime_config` returns. -/
abbrev RuntimeAnswer : Type := Except String ValidationOutcome

def RuntimeAnswer.taken : RuntimeAnswer → Bool
  | .ok outcome => outcome.isValid
  | .error _ => false

/-- Why it has not, after what the caller says of it. -/
def RuntimeAnswer.message (rejected : String) : RuntimeAnswer → String
  | .ok outcome => rejected ++ outcome.display
  | .error error => error

def strategyBinding (proxies : Except String Proxies) (name : String) :
    Except String (Option String) :=
  if name = "regular" then .ok none
  else proxies.bind fun proxies =>
    match OrderedMap.get proxies name with
    | none => .error ("Mihomo strategy group does not exist: " ++ name)
    | some proxy =>
      if proxy.proxyType.isSelectable then .ok (some name)
      else .error ("Mihomo entry is not a strategy group: " ++ name)

/-- One of 32 ports that no listener has, of those the system gives. -/
def allocateUnusedListenerPort (listeners : Listeners) : Nat → List (Except String Nat) →
    Except String Nat
  | _ + 1, .error error :: _ => .error error
  | left + 1, .ok port :: rest =>
    if listeners.all fun entry => entry.2.port ≠ port then .ok port
    else allocateUnusedListenerPort listeners left rest
  | _, _ => .error "could not allocate a distinct managed listener port"

namespace State

variable (state : State)

def configureListener (answer : RuntimeAnswer) (spec : ManagedListenerSpec) :
    State × Except String Unit :=
  if answer.taken then
    ({ state with
        config := state.config.map (putListener spec)
        configured := state.configured ++ [spec.name] }, .ok ())
  else
    (state, .error
      (answer.message "Mihomo rejected managed app proxy listener configuration: "))

def removeListener (answer : RuntimeAnswer) (name : String) : State × Except String Unit :=
  if answer.taken then ({ state with config := state.config.map (takeListener name) }, .ok ())
  else
    ({ state with unremoved := state.unremoved ++ [name] }, .error
      (answer.message "failed to remove managed Mihomo app proxy listener: "))

def removeListeners : List RuntimeAnswer → List String → State → State × Except String Unit
  | _, [], state => (state, .ok ())
  | answers, name :: rest, state =>
    match state.removeListener (answers.headD (.ok .valid)) name with
    | (state, .ok _) => removeListeners answers.tail rest state
    | (state, .error error) => (state, .error error)

/-- Try to remove each of some listeners, and keep the last error. -/
def removeEach : List RuntimeAnswer → List String → State → State × Option String
  | _, [], state => (state, none)
  | answers, name :: rest, state =>
    let removed := state.removeListener (answers.headD (.ok .valid)) name
    let later := removeEach answers.tail rest removed.1
    match removed.2 with
    | .ok _ => later
    | .error error => (later.1, later.2 <|> some error)

def clearDesiredListener (name : String) : State :=
  { state with desiredListener := state.desiredListener.filter (·.name ≠ name) }

/-- Give up the listeners of a start that has failed. -/
def dropListeners : List RuntimeAnswer → List ManagedListenerSpec → State → State
  | _, [], state => state
  | answers, spec :: rest, state =>
    dropListeners answers.tail rest
      ((state.clearDesiredListener spec.name).removeListener (answers.headD (.ok .valid)) spec.name).1

def configureListeners : List RuntimeAnswer → List Bool → List ManagedListenerSpec → State →
    State × Except String Unit
  | _, _, [], state => (state, .ok ())
  | answers, listening, spec :: rest, state =>
    match state.configureListener (answers.headD (.ok .valid)) spec with
    | (state, .error error) => (state, .error error)
    | (state, .ok _) =>
      if managedListenerLoaded spec state.config ∧ listening.headD true then
        configureListeners answers.tail listening.tail rest state
      else (state, .error "managed listener did not become ready")

def withHelper (change : ManagedHelper → ManagedHelper) : State :=
  { state with inner := state.inner.map change }

def fail : State := state.withHelper fun helper => { helper with failed := true }

/-- What `stop_inner` is answered. -/
structure StopAnswers where
  removed : List RuntimeAnswer
  token : Except String Unit

structure StatusAnswers where
  alive : Bool
  removed : List RuntimeAnswer

end State

def ManagedHelper.listenerNames (helper : ManagedHelper) : List String :=
  helper.listenerName :: helper.extraListeners.map (·.2.name)

namespace State

variable (state : State)

/-- `status`, which clears up after a process that has ended. -/
def status (answers : StatusAnswers) : State :=
  match state.inner with
  | none => state
  | some helper =>
    if answers.alive then state
    else
      { (removeEach answers.removed helper.listenerNames { state with desiredListener := [] }).1 with
        inner := none }

def stopInner (answers : StopAnswers) : State × Except String Unit :=
  match state.inner with
  | none => (state, .ok ())
  | some helper =>
    let stopped := removeEach answers.removed helper.listenerNames
      { state with inner := none, desiredListener := [] }
    match stopped.2 with
    | some error => (stopped.1, .error error)
    | none => (stopped.1, answers.token)

/-- `save_rules_to_disk`. The rename at its end replaces the file, so one that fails leaves it. -/
def saveRulesToDisk (saved : Except String Unit) (rules : List AppProxyRule) :
    State × Except String Unit :=
  match saved with
  | .ok _ => ({ state with rulesFile := rules }, .ok ())
  | .error error => (state, .error error)

end State

/-- How a request reaches the helper and its response comes back. -/
inductive Delivery where
  | lost
  | unanswered
  | answered
deriving DecidableEq

/-- A request that replaces the rules, and whether the helper can read what it carries. -/
structure Exchange where
  delivery : Delivery
  readable : Bool
deriving DecidableEq

inductive RulePublishError where
  | rejected (error : String)
  | uncertain (error : String)

/-- `replace_rules`: the version it returns, or the status of the refusal. -/
def ManagedProcess.replaceRules (process : ManagedProcess) (readable : Bool) (expectedVersion : Nat)
    (rules : List AppProxyRule) (groups : List ProxyGroup) : ManagedProcess × Except Nat Nat :=
  if expectedVersion ≠ 0 ∧ expectedVersion ≠ process.rulesRevision then (process, .error 409)
  else if readable then
    (⟨rules, groups, process.rulesRevision + 1⟩, .ok (process.rulesRevision + 1))
  else (process, .error 400)

def applyRulesToHelper (exchange : Exchange) (process : ManagedProcess) (rules : List AppProxyRule)
    (groups : List ProxyGroup) (expectedVersion : Nat) :
    ManagedProcess × Except RulePublishError Nat :=
  let replaced := process.replaceRules exchange.readable expectedVersion rules groups
  match exchange.delivery with
  | .lost => (process, .error (.uncertain "send rules update to helper"))
  | .unanswered => (replaced.1, .error (.uncertain "decode rules response"))
  | .answered =>
    match replaced.2 with
    | .ok version => (replaced.1, .ok version)
    | .error status =>
      let error := "helper rejected rules update (status " ++ toString status ++ ")"
      (replaced.1, .error (if status = 400 then .rejected error else .uncertain error))

theorem applyRulesToHelper_cases (exchange : Exchange) (process : ManagedProcess)
    (rules : List AppProxyRule) (groups : List ProxyGroup) (expectedVersion : Nat) :
    let published := applyRulesToHelper exchange process rules groups expectedVersion
    (∀ version, published.2 = .ok version → published.1 = ⟨rules, groups, version⟩) ∧
      ∀ error, published.2 = .error (.rejected error) → published.1 = process := by
  obtain ⟨delivery, readable⟩ := exchange
  cases delivery with
  | lost | unanswered => simp [applyRulesToHelper]
  | answered =>
    by_cases stale : expectedVersion ≠ 0 ∧ expectedVersion ≠ process.rulesRevision
    · simp [applyRulesToHelper, ManagedProcess.replaceRules, stale]
    · cases readable with
      | false => simp [applyRulesToHelper, ManagedProcess.replaceRules, stale]
      | true =>
        rw [applyRulesToHelper, ManagedProcess.replaceRules, if_neg stale]
        simp

/-- What `wait_rules_applied` compares of a group and of a rule. -/
def exposes (process : ManagedProcess) (rules : List AppProxyRule) (groups : List ProxyGroup)
    (version : Nat) : Bool :=
  (process.groups.length = groups.length ∧ groups.all fun expected => process.groups.any fun group =>
      group.id = expected.id ∧ group.port = expected.port ∧ group.host = expected.host) ∧
    (process.rules.length = rules.length ∧ rules.all fun expected => process.rules.any fun rule =>
      rule.id = expected.id ∧ rule.cmdlinePattern = expected.cmdlinePattern ∧
        rule.proxyGroupId = expected.proxyGroupId ∧ rule.enabled = expected.enabled ∧
        rule.protocol = expected.protocol ∧ rule.hackTree = expected.hackTree) ∧
    process.rulesRevision = version

def waitRulesApplied (answers : Bool) (process : ManagedProcess) (rules : List AppProxyRule)
    (groups : List ProxyGroup) (version : Nat) : Except String Unit :=
  if answers ∧ exposes process rules groups version then .ok ()
  else .error ("helper accepted rules but did not expose the requested runtime rule before the " ++
    "publication deadline")

/-- Only the runtime configuration is another one. -/
structure Frame (before after : State) : Prop where
  processId : after.processId = before.processId
  inner : after.inner = before.inner
  desiredListener : after.desiredListener = before.desiredListener
  rules : after.rules = before.rules
  rulesFile : after.rulesFile = before.rulesFile

theorem Frame.refl (state : State) : Frame state state := ⟨rfl, rfl, rfl, rfl, rfl⟩

theorem Frame.trans {first second third : State} (before : Frame first second)
    (after : Frame second third) : Frame first third :=
  ⟨after.processId.trans before.processId, after.inner.trans before.inner,
    after.desiredListener.trans before.desiredListener, after.rules.trans before.rules,
    after.rulesFile.trans before.rulesFile⟩

namespace State

theorem configureListener_frame (state : State) (answer : RuntimeAnswer)
    (spec : ManagedListenerSpec) : Frame state (state.configureListener answer spec).1 := by
  unfold configureListener
  split <;> exact ⟨rfl, rfl, rfl, rfl, rfl⟩

theorem removeListener_frame (state : State) (answer : RuntimeAnswer) (name : String) :
    Frame state (state.removeListener answer name).1 := by
  unfold removeListener
  split <;> exact ⟨rfl, rfl, rfl, rfl, rfl⟩

theorem removeListeners_frame (answers : List RuntimeAnswer) (names : List String) (state : State) :
    Frame state (removeListeners answers names state).1 := by
  induction names generalizing answers state with
  | nil => exact Frame.refl state
  | cons name rest ih =>
    have first := state.removeListener_frame (answers.headD (.ok .valid)) name
    unfold removeListeners
    split <;> rename_i next _ removed <;> rw [removed] at first
    · exact first.trans (ih _ next)
    · exact first

theorem removeEach_frame (answers : List RuntimeAnswer) (names : List String) (state : State) :
    Frame state (removeEach answers names state).1 := by
  induction names generalizing answers state with
  | nil => exact Frame.refl state
  | cons name rest ih =>
    have first := state.removeListener_frame (answers.headD (.ok .valid)) name
    unfold removeEach
    dsimp only
    split <;> exact first.trans (ih _ _)

theorem configureListeners_frame (answers : List RuntimeAnswer) (listening : List Bool)
    (specs : List ManagedListenerSpec) (state : State) :
    Frame state (configureListeners answers listening specs state).1 := by
  induction specs generalizing answers listening state with
  | nil => exact Frame.refl state
  | cons spec rest ih =>
    have first := state.configureListener_frame (answers.headD (.ok .valid)) spec
    unfold configureListeners
    split <;> rename_i next _ configured <;> rw [configured] at first
    · exact first
    · split
      · exact first.trans (ih _ _ next)
      · exact first

end State

end ClashVerge.AppProxy
