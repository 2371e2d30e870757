import ClashVerge.AppProxy.Manager
import ClashVerge.Library.Transition

/-!
# The calls of the manager

`start_inner`, `set_rules_locked` and `stop_inner`, in the order of the source. A rule update stages
a listener for each group it needs further, publishes the compiled rules, waits until the helper
shows them, saves the rules, and retires the listeners that are no longer needed. Most failures
restore the listeners; the others mark the helper as failed, and it is stopped.
-/

namespace ClashVerge.AppProxy

open ClashVerge.Enhance ClashVerge.Profiles

/-- The strategy groups that can be bound, asked for one after the other. -/
def checkGroups : List (Except String Proxies) → List String → Except String Unit
  | _, [] => .ok ()
  | answers, group :: rest =>
    (strategyBinding (answers.headD (.ok [])) group).bind fun _ => checkGroups answers.tail rest

def listenerNameOf (processId nanoid : String) : String :=
  "clash-verge-app-proxy-" ++ processId ++ "-" ++ nanoid

/-- What is asked for each group that gets a new listener. -/
structure ListenerAnswers where
  bindings : List (Except String Proxies)
  ports : List (List (Except String Nat))
  nanoids : List String

def ListenerAnswers.tail (answers : ListenerAnswers) : ListenerAnswers :=
  ⟨answers.bindings.tail, answers.ports.tail, answers.nanoids.tail⟩

/-- The listener that a group gets, bound as it is found to be. -/
def newListener (processId : String) (answers : ListenerAnswers) (listeners : Listeners)
    (binding : Except String (Option String)) : Except String ManagedListenerSpec :=
  binding.bind fun group =>
    (allocateUnusedListenerPort listeners 32 (answers.ports.headD [])).map fun port =>
      ⟨listenerNameOf processId (answers.nanoids.headD ""), port, group⟩

def stageListeners (processId : String) : ListenerAnswers → List String →
    Listeners → List ManagedListenerSpec → Except String (Listeners × List ManagedListenerSpec)
  | _, [], listeners, staged => .ok (listeners, staged)
  | answers, group :: rest, listeners, staged =>
    if OrderedMap.contains listeners group then
      stageListeners processId answers rest listeners staged
    else
      (newListener processId answers listeners
        (strategyBinding (answers.bindings.headD (.ok [])) group)).bind fun spec =>
          stageListeners processId answers.tail rest (SortedMap.insert listeners group spec)
            (staged ++ [spec])

/-- The same in `start_inner`, which binds each listener to its group. -/
def startListeners (processId : String) : ListenerAnswers → List String → Listeners →
    Except String Listeners
  | _, [], listeners => .ok listeners
  | answers, group :: rest, listeners =>
    if OrderedMap.contains listeners group then startListeners processId answers rest listeners
    else
      (newListener processId answers listeners (.ok (some group))).bind fun spec =>
        startListeners processId answers.tail rest (SortedMap.insert listeners group spec)

/-- What the outside answers to `set_rules`. -/
structure UpdateAnswers where
  alive : Bool
  required : List (Except String Proxies)
  primary : Except String Proxies
  listeners : ListenerAnswers
  configured : List RuntimeAnswer
  listening : List Bool
  client : Except String Unit
  publication : Exchange
  /-- Whether the helper says its revision after it has refused the rules. -/
  observed : Bool
  confirmed : Bool
  saved : Except String Unit
  rollback : Exchange
  rollbackConfirmed : Bool
  /-- The removals of the staged listeners, or else of the obsolete ones. -/
  removed : List RuntimeAnswer
  status : State.StatusAnswers
  stop : State.StopAnswers

structure StagedUpdate where
  oldListeners : Listeners
  listeners : Listeners
  staged : List ManagedListenerSpec
  compiled : List AppProxyRule
  groups : List ProxyGroup
  oldGroups : List ProxyGroup

def ManagedHelper.oldListeners (helper : ManagedHelper) (group : Option String) : Listeners :=
  SortedMap.ofList ((helper.strategyGroup, ⟨helper.listenerName, helper.listener, group⟩) ::
    helper.extraListeners)

namespace State

variable (state : State)

/-- `set_rules_locked` up to the point where it changes anything. -/
def prepareUpdate (helper : ManagedHelper) (newRules : List AppProxyRule) (answers : UpdateAnswers) :
    Except String StagedUpdate :=
  let primary := helper.strategyGroup
  let required := requiredGroups newRules primary
  if helper.failed ∨ answers.alive = false then
    .error "application proxy is not ready for rule updates"
  else
    (checkGroups answers.required required).bind fun _ =>
    (strategyBinding answers.primary primary).bind fun group =>
    (stageListeners state.processId answers.listeners required (helper.oldListeners group) []).bind
      fun staged =>
    (compileRules newRules primary staged.1).bind fun compiled =>
    (compileRules helper.rules primary (helper.oldListeners group)).map fun old =>
      ⟨helper.oldListeners group, staged.1, staged.2, compiled.1, compiled.2, old.2⟩

def restoreStagedListeners (removed : List RuntimeAnswer) (update : StagedUpdate) :
    State × Except String Unit :=
  removeListeners removed (update.staged.map (·.name))
    { state with desiredListener := update.oldListeners.map (·.2) }

def restore (removed : List RuntimeAnswer) (update : StagedUpdate) (error restoring : String) :
    State × Except String Nat :=
  match state.restoreStagedListeners removed update with
  | (state, .ok _) => (state, .error error)
  | (state, .error _) => (state.fail, .error restoring)

def publishRules (helper : ManagedHelper) (answers : UpdateAnswers) (update : StagedUpdate) :
    State × Except String Nat :=
  match configureListeners answers.configured answers.listening update.staged
    { state with desiredListener := update.listeners.map (·.2) } with
  | (state, .error error) => state.restore answers.removed update error
      "restore previous listeners after staging failure"
  | (state, .ok _) =>
    match answers.client with
    | .error error => state.restore answers.removed update error
        "restore previous listeners after HTTP client failure"
    | .ok _ =>
      let published := applyRulesToHelper answers.publication helper.process update.compiled
        update.groups helper.effectiveRulesVersion
      let state := state.withHelper fun helper => { helper with process := published.1 }
      match published.2 with
      | .ok version => (state, .ok version)
      | .error (.rejected error) =>
        if answers.observed ∧ published.1.rulesRevision = helper.effectiveRulesVersion then
          state.restore answers.removed update error
            "restore previous listeners after rejected rules"
        else (state.fail, .error error)
      | .error (.uncertain _) => (state.fail, .error "uncertain rules update")

/-- Put the old rules back after the new ones could not be saved. -/
def rollBack (helper : ManagedHelper) (process : ManagedProcess) (answers : UpdateAnswers)
    (update : StagedUpdate) (version : Nat) : State × Except String Nat :=
  let rollback := applyRulesToHelper answers.rollback process helper.rules update.oldGroups version
  let state := state.withHelper fun helper => { helper with process := rollback.1 }
  match rollback.2 with
  | .error _ => (state.fail, .error "persist application rules")
  | .ok oldVersion =>
    match waitRulesApplied answers.rollbackConfirmed rollback.1 helper.rules update.oldGroups
      oldVersion with
    | .error _ => (state.fail, .error "persist application rules")
    | .ok _ =>
      match state.restoreStagedListeners answers.removed update with
      | (state, .error _) =>
        (state.fail, .error "restore previous listeners after persistence failure")
      | (state, .ok _) =>
        (state.withHelper fun helper => { helper with effectiveRulesVersion := oldVersion },
          .error "persist application rules")

def persistRules (helper : ManagedHelper) (newRules : List AppProxyRule) (answers : UpdateAnswers)
    (update : StagedUpdate) (version : Nat) : State × Except String Nat :=
  let process := (applyRulesToHelper answers.publication helper.process update.compiled
    update.groups helper.effectiveRulesVersion).1
  match waitRulesApplied answers.confirmed process update.compiled update.groups version with
  | .error _ => (state.fail, .error "confirm new application rules")
  | .ok _ =>
    match state.saveRulesToDisk answers.saved newRules with
    | (state, .ok _) => (state, .ok version)
    | (state, .error _) => state.rollBack helper process answers update version

def adoptRules (helper : ManagedHelper) (newRules : List AppProxyRule) (answers : UpdateAnswers)
    (update : StagedUpdate) (version : Nat) : State × Except String Unit :=
  let primary := helper.strategyGroup
  let extra := update.listeners.filter fun entry =>
    entry.1 ≠ primary ∧ entry.1 ∈ requiredGroups newRules primary
  let state := { state with rules := newRules }.withHelper fun helper =>
    { helper with
      effectiveRulesVersion := version
      rules := update.compiled
      extraListeners := extra }
  match OrderedMap.get update.oldListeners primary with
  | none => (state, .error "missing primary listener")
  | some primarySpec =>
    let obsolete := update.oldListeners.filter fun entry =>
      entry.1 ≠ primary ∧ OrderedMap.contains extra entry.1 = false
    match removeListeners answers.removed (obsolete.map (·.2.name))
      { state with desiredListener := primarySpec :: extra.map (·.2) } with
    | (state, .error _) => (state.fail, .error "retire obsolete managed listener")
    | (state, .ok _) => (state, .ok ())

/-- `set_rules_locked` with a helper. -/
def updateRules (helper : ManagedHelper) (newRules : List AppProxyRule) (answers : UpdateAnswers) :
    State × Except String Unit :=
  match state.prepareUpdate helper newRules answers with
  | .error error => (state, .error error)
  | .ok update =>
    match state.publishRules helper answers update with
    | (state, .error error) => (state, .error error)
    | (state, .ok version) =>
      match state.persistRules helper newRules answers update version with
      | (state, .error error) => (state, .error error)
      | (state, .ok version) => state.adoptRules helper newRules answers update version

/-- The listeners that rules are compiled with while there is no helper. -/
def validationListeners (newRules : List AppProxyRule) : Listeners :=
  SortedMap.ofList ((requiredGroups newRules "regular").map fun group => (group, ⟨group, 0, none⟩))

def setRulesLocked (newRules : List AppProxyRule) (answers : UpdateAnswers) :
    State × Except String Unit :=
  let updated : State × Except String Unit :=
    match state.inner with
    | some helper => state.updateRules helper newRules answers
    | none =>
      match compileRules newRules "regular" (validationListeners newRules) with
      | .error error => (state, .error error)
      | .ok _ =>
        match state.saveRulesToDisk answers.saved newRules with
        | (state, .error error) => (state, .error error)
        | (state, .ok _) => ({ state with rules := newRules }, .ok ())
  match updated with
  | (state, .ok _) => (state.status answers.status, .ok ())
  | (state, .error error) => (state, .error error)

def settleRuleUpdate (answers : StopAnswers) : Except String Unit → State × Except String Unit
  | .ok _ => (state, .ok ())
  | .error error =>
    if state.inner.any (·.failed) then
      match state.stopInner answers with
      | (state, .ok _) => (state, .error error)
      | (state, .error _) => (state, .error "stop faulted application proxy")
    else (state, .error error)

def setRules (newRules : List AppProxyRule) (answers : UpdateAnswers) : State × Except String Unit :=
  let updated := state.setRulesLocked newRules answers
  updated.1.settleRuleUpdate answers.stop updated.2

end State

structure AppProxyStartRequest where
  processCmdline : String
  strategyGroup : String
  rules : Option (List AppProxyRule)

def selectedApplication (request : AppProxyStartRequest) : AppProxyRule where
  id := "verge-app-proxy"
  name := "Verge selected application"
  enabled := true
  processName := "*"
  cmdlinePattern := request.processCmdline
  hackTree := false
  proxyGroupId := 0
  strategyGroup := request.strategyGroup
  protocol := "tcp"

def AppProxyStartRequest.effectiveRules (request : AppProxyStartRequest)
    (stored : List AppProxyRule) : List AppProxyRule :=
  match request.rules with
  | some rules => if rules = [] then stored else rules
  | none => if trim request.processCmdline.toList = [] then stored else [selectedApplication request]

structure StartAnswers where
  apiFree : Bool
  required : List (Except String Proxies)
  port : Except String Nat
  listeners : ListenerAnswers
  configured : List RuntimeAnswer
  listening : List Bool
  listenerReady : Bool
  preparation : Except String Unit
  spawned : Except String Unit
  client : Except String Unit
  ready : Except String Unit
  publication : Exchange
  confirmed : Bool
  saved : Except String Unit
  removed : List RuntimeAnswer
  proxyReady : Bool
  resumeIntent : Except String Unit
  status : State.StatusAnswers
  stop : State.StopAnswers

structure Launch where
  rules : List AppProxyRule
  primary : ManagedListenerSpec
  listeners : Listeners
  compiled : List AppProxyRule
  groups : List ProxyGroup

def Launch.helper (launch : Launch) (version : Nat) : ManagedHelper where
  process := ⟨launch.compiled, launch.groups, version⟩
  rules := launch.compiled
  listener := launch.primary.port
  listenerName := launch.primary.name
  extraListeners := launch.listeners.filter (·.1 ≠ "regular")
  strategyGroup := "regular"
  effectiveRulesVersion := version
  failed := false

namespace State

variable (state : State)

/-- `start_inner` up to the point where it changes anything. -/
def prepareStart (request : AppProxyStartRequest) (answers : StartAnswers) : Except String Launch :=
  let effectiveRules := request.effectiveRules state.rules
  let required := requiredGroups effectiveRules "regular"
  if state.inner.isSome then .error "app proxy helper is already running"
  else if effectiveRules.any (·.enabled) = false then
    .error "no enabled process proxy rules configured"
  else if answers.apiFree = false then .error "Clew helper API port 18080 is already occupied"
  else
    (checkGroups answers.required required).bind fun _ =>
    answers.port.bind fun port =>
    let primary : ManagedListenerSpec := ⟨"clash-verge-app-proxy-" ++ state.processId, port, none⟩
    (startListeners state.processId answers.listeners required [("regular", primary)]).bind
      fun listeners =>
    (compileRules effectiveRules "regular" listeners).map fun compiled =>
      ⟨effectiveRules, primary, listeners, compiled.1, compiled.2⟩

def publishStart (answers : StartAnswers) (launch : Launch) : Except String Nat :=
  if answers.listenerReady = false then .error "managed Mihomo listener is not ready"
  else
    answers.preparation.bind fun _ => answers.spawned.bind fun _ => answers.client.bind fun _ =>
    answers.ready.bind fun _ =>
      let published := applyRulesToHelper answers.publication ⟨[], launch.groups, 0⟩ launch.compiled
        launch.groups 0
      match published.2 with
      | .error _ => .error "helper rejected rules"
      | .ok version =>
        (waitRulesApplied answers.confirmed published.1 launch.compiled launch.groups version).map
          fun _ => version

/-- The end of `start_inner`, with the helper in place. -/
def finishStart (answers : StartAnswers) : State × Except String Unit :=
  let state := state.status answers.status
  if answers.status.alive = false ∨ answers.proxyReady = false then
    ((state.stopInner answers.stop).1,
      .error "application proxy did not reach full readiness after rule activation")
  else
    match answers.resumeIntent with
    | .error error => ((state.stopInner answers.stop).1, .error error)
    | .ok _ => (state, .ok ())

def startInner (request : AppProxyStartRequest) (answers : StartAnswers) :
    State × Except String Unit :=
  match state.prepareStart request answers with
  | .error error => (state, .error error)
  | .ok launch =>
    let allListeners := launch.listeners.map (·.2)
    match configureListeners answers.configured answers.listening allListeners
      { state with desiredListener := allListeners } with
    | (state, .error error) => (dropListeners answers.removed allListeners state, .error error)
    | (state, .ok _) =>
      match publishStart answers launch with
      | .error error => (dropListeners answers.removed allListeners state, .error error)
      | .ok version =>
        match state.saveRulesToDisk answers.saved launch.rules with
        | (state, .error error) => (dropListeners answers.removed allListeners state, .error error)
        | (state, .ok _) =>
          { state with
            rules := launch.rules
            inner := some (launch.helper version) }.finishStart answers

end State

/-- The calls that the lock puts in order, and a look at the status between two of them. -/
inductive Call where
  | start (request : AppProxyStartRequest) (answers : StartAnswers)
  | setRules (newRules : List AppProxyRule) (answers : UpdateAnswers)
  | stop (answers : State.StopAnswers)
  | status (answers : State.StatusAnswers)

def step (state : State) : Call → Option State
  | .start request answers => some (state.startInner request answers).1
  | .setRules newRules answers => some (state.setRules newRules answers).1
  | .stop answers => some (state.stopInner answers).1
  | .status answers => some (state.status answers)

end ClashVerge.AppProxy
