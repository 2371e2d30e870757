import Mathlib.Data.List.Permutation
import ClashVerge.AppProxy.Durable
import ClashVerge.Library.History

/-!
# Edits of the stored rules

Every command that changes the stored rules replaces the whole list. `add_or_update_rule`,
`remove_rule`, `toggle_rule`, `set_rules` and `start` hold the update lock from before they read the
list. `set_app_proxy_strategy` reads it without the lock, and only then calls `set_rules`: what has
been stored in between is lost. Some calls report an error after they have stored their rules.
-/

namespace ClashVerge.AppProxy.Edits

open Function (update update_self update_of_ne)
open History Transition

def addOrUpdateRule (rule : AppProxyRule) (rules : List AppProxyRule) : List AppProxyRule :=
  match rules.findIdx? (·.id = rule.id) with
  | some pos => rules.set pos rule
  | none => rules ++ [rule]

def removeRule (ruleId : String) (rules : List AppProxyRule) : List AppProxyRule :=
  rules.filter (·.id ≠ ruleId)

def toggleRule (ruleId : String) (enabled : Bool) (rules : List AppProxyRule) : List AppProxyRule :=
  match rules.findIdx? (·.id = ruleId) with
  | some pos => rules.modify pos fun rule => { rule with enabled }
  | none => rules

def setAppProxyStrategy (strategyGroup : String) (rules : List AppProxyRule) : List AppProxyRule :=
  rules.map fun rule => { rule with strategyGroup }

inductive Command where
  | addOrUpdateRule (rule : AppProxyRule)
  | removeRule (ruleId : String)
  | toggleRule (ruleId : String) (enabled : Bool)
  | setRules (newRules : List AppProxyRule)
  | start (request : AppProxyStartRequest)
  | setAppProxyStrategy (strategyGroup : String)

/-- The rules that a command stores where it has read the given ones. -/
def Command.rules : Command → List AppProxyRule → List AppProxyRule
  | .addOrUpdateRule rule, rules => Edits.addOrUpdateRule rule rules
  | .removeRule ruleId, rules => Edits.removeRule ruleId rules
  | .toggleRule ruleId enabled, rules => Edits.toggleRule ruleId enabled rules
  | .setRules newRules, _ => newRules
  | .start request, rules => request.effectiveRules rules
  | .setAppProxyStrategy strategyGroup, rules => Edits.setAppProxyStrategy strategyGroup rules

/-- The command takes the update lock before it reads. -/
def Command.editor : Command → Bool
  | .addOrUpdateRule _ | .removeRule _ | .toggleRule _ _ => true
  | _ => false

inductive Phase where
  | idle
  | entered (command : Command)
  /-- It has read the stored rules, and is about to set others. -/
  | read (command : Command) (newRules : List AppProxyRule)
  | returned

structure State (Task : Type) where
  manager : AppProxy.State
  /-- Who holds `rules_update_lock` between two steps. -/
  rulesUpdateLock : Option Task
  phase : Task → Phase
  history : List (Event Task Command)

inductive Action (Task : Type) where
  | invoke (task : Task) (command : Command)
  | read (task : Task)
  | settle (task : Task) (answers : UpdateAnswers)
  | launch (task : Task) (answers : StartAnswers)
  | stop (answers : State.StopAnswers)
  | status (answers : State.StatusAnswers)

variable {Task : Type} [DecidableEq Task]

namespace State

def new (manager : AppProxy.State) : State Task := ⟨manager, none, fun _ => .idle, []⟩

variable (state : State Task)

def invoke (task : Task) (command : Command) : Option (State Task) :=
  match state.phase task with
  | .idle =>
    some { state with
      phase := update state.phase task (.entered command)
      history := state.history ++ [.invoked task command] }
  | _ => none

/-- `get_rules`, and what the command makes of them. -/
def read (task : Task) : Option (State Task) :=
  match state.phase task with
  | .entered command =>
    let reading := { state with
      phase := update state.phase task (.read command (command.rules state.manager.rules)) }
    if command.editor then
      if state.rulesUpdateLock.isNone then some { reading with rulesUpdateLock := some task }
      else none
    else
      match command with
      | .setAppProxyStrategy _ => some reading
      | _ => none
  | _ => none

/-- The call returns, and the lock is free again. -/
def finish (task : Task) (command : Command) (settled : AppProxy.State × Except String Unit) :
    State Task where
  manager := settled.1
  rulesUpdateLock := none
  phase := update state.phase task .returned
  history := state.history ++ [.returned task command settled.2.isOk]

/-- The rules that the next step of a call sets, and whether it holds the lock already. -/
def newRules (task : Task) : Option (Command × List AppProxyRule) :=
  match state.phase task with
  | .read command newRules =>
    if command.editor then
      if state.rulesUpdateLock = some task then some (command, newRules) else none
    else if state.rulesUpdateLock.isNone then some (command, newRules) else none
  | .entered (.setRules newRules) =>
    if state.rulesUpdateLock.isNone then some (.setRules newRules, newRules) else none
  | _ => none

/-- `set_rules_locked` and the settlement of its result. -/
def settle (task : Task) (answers : UpdateAnswers) : Option (State Task) :=
  match state.newRules task with
  | some (command, newRules) =>
    some (state.finish task command (state.manager.setRules newRules answers))
  | none => none

def launch (task : Task) (answers : StartAnswers) : Option (State Task) :=
  match state.phase task with
  | .entered (.start request) =>
    if state.rulesUpdateLock.isNone then
      some (state.finish task (.start request) (state.manager.startInner request answers))
    else none
  | _ => none

end State

def step (state : State Task) : Action Task → Option (State Task)
  | .invoke task command => state.invoke task command
  | .read task => state.read task
  | .settle task answers => state.settle task answers
  | .launch task answers => state.launch task answers
  | .stop answers =>
    if state.rulesUpdateLock.isNone then
      some { state with manager := (state.manager.stopInner answers).1 }
    else none
  | .status answers => some { state with manager := state.manager.status answers }

/-- The listeners that `adopt_rules` retires. -/
def obsolete (helper : ManagedHelper) (newRules : List AppProxyRule) (update : StagedUpdate) :
    List String :=
  let primary := helper.strategyGroup
  let extra := update.listeners.filter fun entry =>
    entry.1 ≠ primary ∧ entry.1 ∈ requiredGroups newRules primary
  (update.oldListeners.filter fun entry =>
    entry.1 ≠ primary ∧ OrderedMap.contains extra entry.1 = false).map (·.2.name)

/-- Whether an update stores its rules, and then retires each listener they do not need. -/
def stored (manager : AppProxy.State) (newRules : List AppProxyRule) (answers : UpdateAnswers) :
    Option Bool :=
  match manager.inner with
  | none =>
    if (compileRules newRules "regular" (State.validationListeners newRules)).isOk ∧
        answers.saved.isOk then some true
    else none
  | some helper =>
    match manager.prepareUpdate helper newRules answers with
    | .error _ => none
    | .ok update =>
      match manager.publishRules helper answers update with
      | (_, .error _) => none
      | (published, .ok version) =>
        match published.persistRules helper newRules answers update version with
        | (_, .error _) => none
        | (_, .ok _) => some
            ((answers.removed.take (obsolete helper newRules update).length).all RuntimeAnswer.taken)

/-- Whether a start stores its rules, and then finds its helper alive and its proxy ready, and saves
that it is to be resumed. -/
def launched (manager : AppProxy.State) (request : AppProxyStartRequest) (answers : StartAnswers) :
    Option Bool :=
  match manager.prepareStart request answers with
  | .error _ => none
  | .ok launch =>
    let allListeners := launch.listeners.map (·.2)
    match State.configureListeners answers.configured answers.listening allListeners
      { manager with desiredListener := allListeners } with
    | (_, .error _) => none
    | (_, .ok _) =>
      if (State.publishStart answers launch).isOk ∧ answers.saved.isOk then
        some (answers.status.alive && answers.proxyReady && answers.resumeIntent.isOk)
      else none

/-- A change of the strategy that succeeds sets what it would make of the rules that are stored now, and
a call that fails after it has stored its rules has stored the same ones again. -/
def Sequential (state : State Task) : Action Task → Prop
  | .settle task answers => ∀ command newRules, state.newRules task = some (command, newRules) →
      (stored state.manager newRules answers = some true → ∀ strategyGroup,
          command = .setAppProxyStrategy strategyGroup →
            newRules = setAppProxyStrategy strategyGroup state.manager.rules) ∧
        (stored state.manager newRules answers = some false → newRules = state.manager.rules)
  | .launch task answers => ∀ request, state.phase task = .entered (.start request) →
      launched state.manager request answers = some false →
        request.effectiveRules state.manager.rules = state.manager.rules
  | _ => True

section

variable {manager next : AppProxy.State} {newRules : List AppProxyRule}

theorem removeListeners_isOk (answers : List RuntimeAnswer) (names : List String)
    (manager : AppProxy.State) : (State.removeListeners answers names manager).2.isOk =
      (answers.take names.length).all RuntimeAnswer.taken := by
  induction names generalizing answers manager with
  | nil => rfl
  | cons name rest ih =>
    have split_ : (answers.take (name :: rest).length).all RuntimeAnswer.taken =
        ((answers.headD (.ok .valid)).taken &&
          (answers.tail.take rest.length).all RuntimeAnswer.taken) := by
      cases answers <;> simp [RuntimeAnswer.taken, Config.ValidationOutcome.isValid]
    rw [split_, State.removeListeners, State.removeListener]
    cases (answers.headD (.ok .valid)).taken with
    | true => exact ih _ _
    | false => rfl

theorem removeListeners_result {answers : List RuntimeAnswer} {names : List String}
    {result : Except String Unit}
    (removed : State.removeListeners answers names manager = (next, result)) :
    next.rules = manager.rules ∧
      result.isOk = (answers.take names.length).all RuntimeAnswer.taken := by
  have frame := State.removeListeners_frame answers names manager
  have isOk := removeListeners_isOk answers names manager
  rw [removed] at frame isOk
  exact ⟨frame.rules, isOk⟩

theorem adoptRules_stores (manager : AppProxy.State) (newRules : List AppProxyRule)
    {helper : ManagedHelper} {update : StagedUpdate} {primary : ManagedListenerSpec}
    (known : OrderedMap.get update.oldListeners helper.strategyGroup = some primary)
    (answers : UpdateAnswers) (version : Nat) :
    (manager.adoptRules helper newRules answers update version).1.rules = newRules ∧
      (manager.adoptRules helper newRules answers update version).2.isOk =
        (answers.removed.take (obsolete helper newRules update).length).all RuntimeAnswer.taken := by
  unfold State.adoptRules
  simp only [known]
  split
  · rename_i last error removed
    obtain ⟨rules, isOk⟩ := removeListeners_result removed
    exact ⟨rules, isOk⟩
  · rename_i last result removed
    obtain ⟨rules, isOk⟩ := removeListeners_result removed
    exact ⟨rules, isOk⟩

theorem updateRules_stores {helper : ManagedHelper} (consistent : Consistent manager)
    (inner : manager.inner = some helper) (newRules : List AppProxyRule) (answers : UpdateAnswers) :
    (manager.updateRules helper newRules answers).2.isOk =
        (stored manager newRules answers).getD false ∧
      (manager.updateRules helper newRules answers).1.rules =
        (stored manager newRules answers).elim manager.rules fun _ => newRules := by
  have managed := consistent.managed helper inner
  unfold State.updateRules stored
  rw [inner]
  dsimp only
  cases prepares : manager.prepareUpdate helper newRules answers with
  | error message => exact ⟨rfl, rfl⟩
  | ok update =>
    have prepared := prepareUpdate_ok managed prepares
    have primary : OrderedMap.get update.oldListeners helper.strategyGroup = some helper.primary := by
      rw [prepared.oldListeners, managed.shaped.get_old, managed.shaped.regular, if_pos rfl]
    have publishing := publishRules_spec answers update inner
    dsimp only at publishing ⊢
    cases publishes : manager.publishRules helper answers update with
    | mk published result =>
      rw [publishes] at publishing
      obtain ⟨version, rfl, accepted, -, between⟩ | ⟨message, rfl, restored | faulted⟩ := publishing
      · have persisting := persistRules_spec newRules accepted between
        dsimp only at persisting ⊢
        cases persists : published.persistRules helper newRules answers update version with
        | mk saved result =>
          rw [persists] at persisting
          obtain here | ⟨message, rfl, ⟨-, _, restored⟩ | faulted⟩ := persisting
          · cases here
            obtain ⟨rules, isOk⟩ := adoptRules_stores { published with rulesFile := newRules } newRules
              primary answers version
            exact ⟨isOk, rules⟩
          · exact ⟨rfl, restored.rules⟩
          · exact ⟨rfl, faulted.rules⟩
      · exact ⟨rfl, restored.rules⟩
      · exact ⟨rfl, faulted.rules⟩

theorem setRules_stores (consistent : Consistent manager) (newRules : List AppProxyRule)
    (answers : UpdateAnswers) :
    (manager.setRules newRules answers).2.isOk = (stored manager newRules answers).getD false ∧
      (manager.setRules newRules answers).1.rules =
        (stored manager newRules answers).elim manager.rules fun _ => newRules := by
  cases inner : manager.inner with
  | none =>
    unfold State.setRules State.setRulesLocked State.saveRulesToDisk stored
    rw [inner]
    dsimp only
    cases compileRules newRules "regular" (State.validationListeners newRules) with
    | error error => simp [State.settleRuleUpdate, inner, Except.isOk, Except.toBool]
    | ok _ =>
      cases answers.saved with
      | error error => simp [State.settleRuleUpdate, inner, Except.isOk, Except.toBool]
      | ok _ => simp [State.settleRuleUpdate, State.status, Except.isOk, Except.toBool]
  | some helper =>
    obtain ⟨isOk, rules⟩ := updateRules_stores consistent inner newRules answers
    rw [setRules_some inner, ← isOk]
    cases updates : manager.updateRules helper newRules answers with
    | mk next result =>
      rw [updates] at rules
      cases result with
      | ok _ =>
        refine ⟨rfl, Eq.trans ?_ rules⟩
        change (next.status answers.status).rules = next.rules
        obtain same | ⟨-, -, -, same, -⟩ := status_cases next answers.status
        · rw [same]
        · exact same
      | error error =>
        obtain ⟨message, fails, ⟨-, same⟩ | ⟨-, same⟩⟩ :=
          settleRuleUpdate_cases next answers.stop error
        · refine ⟨by rw [fails]; rfl, ?_⟩
          rw [same]
          exact rules
        · refine ⟨by rw [fails]; rfl, ?_⟩
          rw [same, (stopInner_stored next answers.stop).1]
          exact rules

theorem prepareStart_rules {request : AppProxyStartRequest} {answers : StartAnswers} {launch : Launch}
    (prepares : manager.prepareStart request answers = .ok launch) :
    launch.rules = request.effectiveRules manager.rules := by
  unfold State.prepareStart at prepares
  dsimp only at prepares
  split_ifs at prepares
  obtain ⟨_, -, prepares⟩ := bind_ok prepares
  obtain ⟨_, -, prepares⟩ := bind_ok prepares
  obtain ⟨_, -, prepares⟩ := bind_ok prepares
  obtain ⟨_, -, rfl⟩ := map_ok prepares
  rfl

theorem dropListeners_rules (removed : List RuntimeAnswer) (specs : List ManagedListenerSpec)
    (manager : AppProxy.State) : (State.dropListeners removed specs manager).rules = manager.rules := by
  induction specs generalizing removed manager with
  | nil => rfl
  | cons spec rest ih =>
    rw [State.dropListeners, ih]
    exact (State.removeListener_frame _ _ _).rules

theorem finishStart_stores (manager : AppProxy.State) (answers : StartAnswers) :
    (manager.finishStart answers).2.isOk =
        (answers.status.alive && answers.proxyReady && answers.resumeIntent.isOk) ∧
      (manager.finishStart answers).1.rules = manager.rules := by
  have rules : (manager.status answers.status).rules = manager.rules := by
    obtain same | ⟨-, -, -, same, -⟩ := status_cases manager answers.status
    · rw [same]
    · exact same
  have stopped := (stopInner_stored (manager.status answers.status) answers.stop).1.trans rules
  unfold State.finishStart
  dsimp only
  split
  · rename_i unready
    refine ⟨?_, stopped⟩
    obtain dead | unready := unready
    · simp [dead, Except.isOk, Except.toBool]
    · simp [unready, Except.isOk, Except.toBool]
  · rename_i ready
    rw [not_or, Bool.not_eq_false, Bool.not_eq_false] at ready
    rw [ready.1, ready.2]
    cases answers.resumeIntent with
    | error error => exact ⟨rfl, stopped⟩
    | ok _ => exact ⟨rfl, rules⟩

theorem startInner_stores (manager : AppProxy.State) (request : AppProxyStartRequest)
    (answers : StartAnswers) :
    (manager.startInner request answers).2.isOk = (launched manager request answers).getD false ∧
      (manager.startInner request answers).1.rules =
        (launched manager request answers).elim manager.rules fun _ =>
          request.effectiveRules manager.rules := by
  unfold State.startInner launched
  cases prepares : manager.prepareStart request answers with
  | error error => exact ⟨rfl, rfl⟩
  | ok launch =>
    have effective := prepareStart_rules prepares
    have frame := State.configureListeners_frame answers.configured answers.listening
      (launch.listeners.map (·.2)) { manager with desiredListener := launch.listeners.map (·.2) }
    dsimp only
    cases opened : State.configureListeners answers.configured answers.listening
        (launch.listeners.map (·.2)) { manager with desiredListener := launch.listeners.map (·.2) } with
    | mk middle result =>
      rw [opened] at frame
      have dropped := (dropListeners_rules answers.removed (launch.listeners.map (·.2)) middle).trans
        frame.rules
      cases result with
      | error error => exact ⟨rfl, dropped⟩
      | ok _ =>
        dsimp only
        cases State.publishStart answers launch with
        | error error => exact ⟨rfl, dropped⟩
        | ok version =>
          unfold State.saveRulesToDisk
          cases answers.saved with
          | error error => exact ⟨rfl, dropped⟩
          | ok _ =>
            obtain ⟨isOk, rules⟩ := finishStart_stores { middle with
              rulesFile := launch.rules
              rules := launch.rules
              inner := some (launch.helper version) } answers
            exact ⟨isOk, rules.trans effective⟩

end

/-- The stored rules are those of the successful calls in the order of their returns. Whoever holds the
lock between two steps has read the rules that are still stored. -/
structure Sound (initial : List AppProxyRule) (state : State Task) : Prop where
  consistent : Consistent state.manager
  replayed : replay Command.rules (succeeded state.history) initial = state.manager.rules
  closed : Closed state.history
  returned : ∀ task command ok, .returned task command ok ∈ state.history →
    state.phase task = .returned
  held : ∀ task, state.rulesUpdateLock = some task → ∃ command, command.editor = true ∧
    state.phase task = .read command (command.rules state.manager.rules)
  reads : ∀ task command newRules, state.phase task = .read command newRules →
    command.editor = true ∨ ∃ strategyGroup, command = .setAppProxyStrategy strategyGroup

variable {initial : List AppProxyRule} {state next : State Task}

omit [DecidableEq Task] in
theorem sound_new {manager : AppProxy.State} (consistent : Consistent manager) :
    Sound manager.rules (State.new manager : State Task) where
  consistent := consistent
  replayed := rfl
  closed := closed_nil
  returned _ _ _ member := by contradiction
  held _ held := by contradiction
  reads _ _ _ here := by contradiction

omit [DecidableEq Task] in
theorem Sound.withManager (old : Sound initial state) {manager : AppProxy.State}
    (consistent : Consistent manager) (rules : manager.rules = state.manager.rules) :
    Sound initial { state with manager } where
  consistent := consistent
  replayed := old.replayed.trans rules.symm
  closed := old.closed
  returned := old.returned
  held task held := by
    rw [rules]
    exact old.held task held
  reads := old.reads

variable {task : Task}

section

variable (old : Sound initial state)
include old

theorem Sound.invoke {command : Command}
    (taken : state.invoke task command = some next) : Sound initial next := by
  unfold State.invoke at taken
  split at taken
  case h_2 => contradiction
  rename_i idle
  cases taken
  have fresh : ∀ command ok, .returned task command ok ∉ state.history := fun command ok member => by
    have same := old.returned task command ok member
    rw [idle] at same
    contradiction
  refine ⟨old.consistent, ?_, ?_, fun other command ok member => ?_, fun other held => ?_,
    fun other command newRules here => ?_⟩
  · rw [succeeded_append_invoked]
    exact old.replayed
  · exact (closed_append_iff _).mpr ⟨old.closed, fresh⟩
  · obtain before | last := List.mem_append.mp member
    · have apart : other ≠ task := by
        rintro rfl
        exact fresh _ ok before
      exact (update_of_ne apart ..).trans (old.returned other _ ok before)
    · exact absurd (List.mem_singleton.mp last) nofun
  · obtain ⟨command, editor, here⟩ := old.held other held
    have apart : other ≠ task := by
      rintro rfl
      exact absurd (idle.symm.trans here) nofun
    exact ⟨command, editor, (update_of_ne apart ..).trans here⟩
  · have apart : other ≠ task := by
      rintro rfl
      exact absurd ((update_self ..).symm.trans here) nofun
    exact old.reads other _ newRules ((update_of_ne apart ..).symm.trans here)

theorem Sound.setPhase {command : Command} (entered : state.phase task = .entered command)
    (reads : command.editor = true ∨ ∃ strategyGroup, command = .setAppProxyStrategy strategyGroup)
    (lock : Option Task) (held : lock = state.rulesUpdateLock ∨
      lock = some task ∧ command.editor = true) :
    Sound initial { state with
      rulesUpdateLock := lock
      phase := update state.phase task (.read command (command.rules state.manager.rules)) } where
  consistent := old.consistent
  replayed := old.replayed
  closed := old.closed
  returned other command ok member := by
    have before := old.returned other command ok member
    have apart : other ≠ task := by
      rintro rfl
      exact absurd (entered.symm.trans before) nofun
    exact (update_of_ne apart ..).trans before
  held other holds := by
    obtain rfl | ⟨rfl, editor⟩ := held
    · obtain ⟨command, editor, here⟩ := old.held other holds
      have apart : other ≠ task := by
        rintro rfl
        exact absurd (entered.symm.trans here) nofun
      exact ⟨command, editor, (update_of_ne apart ..).trans here⟩
    · cases holds
      exact ⟨command, editor, update_self ..⟩
  reads other command newRules here := by
    by_cases same : other = task
    · subst same
      obtain ⟨rfl, -⟩ := Phase.read.inj ((update_self ..).symm.trans here)
      exact reads
    · exact old.reads other command newRules ((update_of_ne same ..).symm.trans here)

theorem Sound.read (taken : state.read task = some next) : Sound initial next := by
  unfold State.read at taken
  split at taken
  case h_2 => contradiction
  rename_i command entered
  dsimp only at taken
  split at taken
  · rename_i editor
    split at taken
    · cases taken
      exact old.setPhase entered (.inl editor) _ (.inr ⟨rfl, editor⟩)
    · contradiction
  · split at taken
    · rename_i strategyGroup _
      cases taken
      exact old.setPhase entered (.inr ⟨strategyGroup, rfl⟩) _ (.inl rfl)
    · contradiction

theorem Sound.finish {command : Command}
    (running : state.phase task ≠ .returned) {settled : AppProxy.State × Except String Unit}
    (consistent : Consistent settled.1)
    (succeeds : settled.2.isOk = true → settled.1.rules = command.rules state.manager.rules)
    (fails : settled.2.isOk = false → settled.1.rules = state.manager.rules) :
    Sound initial (state.finish task command settled) where
  consistent := consistent
  replayed := by
    change replay Command.rules (succeeded (state.history ++ [_])) initial = settled.1.rules
    rw [succeeded_append_returned, replay_append, old.replayed]
    cases isOk : settled.2.isOk with
    | true => exact (succeeds isOk).symm
    | false => exact (fails isOk).symm
  closed := (closed_append_iff _).mpr ⟨old.closed, fun command ok member =>
    running (old.returned task command ok member)⟩
  returned other command ok member := by
    by_cases same : other = task
    · subst same
      exact update_self ..
    · obtain before | last := List.mem_append.mp member
      · exact (update_of_ne same ..).trans (old.returned other command ok before)
      · exact absurd (Event.returned.inj (List.mem_singleton.mp last)).1 same
  held other holds := by contradiction
  reads other command newRules here := by
    by_cases same : other = task
    · subst same
      have done : update state.phase other Phase.returned other = .returned := update_self ..
      exact absurd (here.symm.trans done) nofun
    · exact old.reads other command newRules ((update_of_ne same ..).symm.trans here)

theorem Sound.newRules {command : Command}
    {newRules : List AppProxyRule} (ready : state.newRules task = some (command, newRules)) :
    state.phase task ≠ .returned ∧
      ((∀ strategyGroup, command = .setAppProxyStrategy strategyGroup →
          newRules = setAppProxyStrategy strategyGroup state.manager.rules) →
        newRules = command.rules state.manager.rules) := by
  unfold State.newRules at ready
  split at ready
  · rename_i read newer here
    refine ⟨by rw [here]; exact nofun, fun current => ?_⟩
    split at ready
    · rename_i editor
      split at ready
      · rename_i held
        obtain ⟨rfl, rfl⟩ := Prod.mk.inj (Option.some.inj ready)
        obtain ⟨holder, -, same⟩ := old.held task held
        rw [here] at same
        obtain ⟨rfl, same⟩ := Phase.read.inj same
        exact same
      · contradiction
    · rename_i strategy
      split at ready
      · obtain ⟨rfl, rfl⟩ := Prod.mk.inj (Option.some.inj ready)
        obtain editor | ⟨strategyGroup, rfl⟩ := old.reads task read newer here
        · exact absurd editor strategy
        · exact current strategyGroup rfl
      · contradiction
  · rename_i newer here
    refine ⟨by rw [here]; exact nofun, fun _ => ?_⟩
    split at ready
    · obtain ⟨rfl, rfl⟩ := Prod.mk.inj (Option.some.inj ready)
      rfl
    · contradiction
  · contradiction

theorem Sound.settle {answers : UpdateAnswers}
    (sequential : Sequential state (.settle task answers))
    (taken : state.settle task answers = some next) : Sound initial next := by
  unfold State.settle at taken
  split at taken
  case h_2 => contradiction
  rename_i command newRules ready
  cases taken
  obtain ⟨running, current⟩ := old.newRules ready
  obtain ⟨made, kept⟩ := sequential command newRules ready
  obtain ⟨isOk, rules⟩ := setRules_stores old.consistent newRules answers
  refine old.finish running (old.consistent.setRules newRules answers) (fun succeeds => ?_)
    fun fails => ?_
  · rw [succeeds] at isOk
    cases is_ : stored state.manager newRules answers with
    | none => simp [is_] at isOk
    | some retired =>
      obtain rfl : true = retired := by simpa [is_] using isOk
      rw [rules, is_]
      exact current (made is_)
  · rw [fails] at isOk
    cases is_ : stored state.manager newRules answers with
    | none => rw [rules, is_, Option.elim_none]
    | some retired =>
      obtain rfl : false = retired := by simpa [is_] using isOk
      rw [rules, is_]
      exact kept is_

theorem Sound.launch {answers : StartAnswers} (sequential : Sequential state (.launch task answers))
    (taken : state.launch task answers = some next) : Sound initial next := by
  unfold State.launch at taken
  split at taken
  case h_2 => contradiction
  rename_i request entered
  split at taken
  case isFalse => contradiction
  cases taken
  have kept := sequential request entered
  obtain ⟨isOk, rules⟩ := startInner_stores state.manager request answers
  refine old.finish (by rw [entered]; exact nofun) (old.consistent.start request answers)
    (fun succeeds => ?_) fun fails => ?_
  · rw [succeeds] at isOk
    cases is_ : launched state.manager request answers with
    | none => simp [is_] at isOk
    | some ready => rw [rules, is_]; rfl
  · rw [fails] at isOk
    cases is_ : launched state.manager request answers with
    | none => rw [rules, is_, Option.elim_none]
    | some ready =>
      obtain rfl : false = ready := by simpa [is_] using isOk
      rw [rules, is_]
      exact kept is_

theorem Sound.step {action : Action Task}
    (sequential : Sequential state action) (taken : Edits.step state action = some next) :
    Sound initial next := by
  cases action with
  | invoke task command => exact old.invoke taken
  | read task => exact old.read taken
  | settle task answers => exact old.settle sequential taken
  | launch task answers => exact old.launch sequential taken
  | stop answers =>
    simp only [Edits.step] at taken
    split at taken
    · cases taken
      exact old.withManager (Consistent.stopInner old.consistent.desired answers)
        (stopInner_stored _ answers).1
    · contradiction
  | status answers =>
    cases taken
    refine old.withManager (old.consistent.status answers) ?_
    obtain same | ⟨-, -, -, same, -⟩ := status_cases state.manager answers
    · rw [same]
    · exact same

end

/-- Where no change of the strategy sets rules made of outdated ones, and no call fails after it has
stored others, the calls are serializable. -/
theorem rules_serializable (processId : String) (rules : List AppProxyRule)
    (config : Option Yaml.Mapping) (actions : List (Action Task)) (state : State Task)
    (sequential : Meets step Sequential (State.new (AppProxy.State.new processId rules config)) actions)
    (ran : run step (State.new (AppProxy.State.new processId rules config)) actions = some state) :
    Serializable Command.rules state.history rules state.manager.rules := by
  have sound := run_invariant_of_meets (Sound rules)
    (fun _ _ _ old met taken => old.step met taken)
    (sound_new (consistent_new processId rules config)) sequential ran
  exact sound.closed.serializable sound.replayed

/-- A change of the strategy that is asked for while a rule is being added. -/
def orderly : List (Action Nat) :=
  [.invoke 0 (.addOrUpdateRule (outlet "B")), .read 0, .invoke 1 (.setAppProxyStrategy "C"),
    .settle 0 UpdateAnswers.smooth, .read 1, .settle 1 UpdateAnswers.smooth]

theorem orderly_serializable :
    ∃ state, run step (State.new (AppProxy.State.new "4711" [outlet "A"] none)) orderly = some state ∧
      state.manager.rules.map (·.strategyGroup) = ["C", "C"] ∧
      Serializable Command.rules state.history [outlet "A"] state.manager.rules := by
  refine ⟨_, rfl, by decide, rules_serializable "4711" [outlet "A"] none orderly _ ?_ rfl⟩
  refine ⟨trivial, fun _ invoked => ?_⟩
  cases invoked
  refine ⟨trivial, fun _ read => ?_⟩
  cases read
  refine ⟨trivial, fun _ invoked => ?_⟩
  cases invoked
  refine ⟨fun command newRules ready => ?_, fun _ settled => ?_⟩
  · cases ready
    exact ⟨fun _ _ strategy => by contradiction, fun unretired => absurd unretired (by decide)⟩
  cases settled
  refine ⟨trivial, fun _ read => ?_⟩
  cases read
  refine ⟨fun command newRules ready => ?_, fun _ settled => trivial⟩
  cases ready
  refine ⟨fun _ strategyGroup strategy => ?_, fun unretired => absurd unretired (by decide)⟩
  obtain rfl := Command.setAppProxyStrategy.inj strategy
  rfl

/-- A rule is added between the two halves of a change of the strategy. -/
def overtaken : List (Action Nat) :=
  [.invoke 0 (.setAppProxyStrategy "C"), .read 0, .invoke 1 (.addOrUpdateRule (outlet "B")), .read 1,
    .settle 1 UpdateAnswers.smooth, .settle 0 UpdateAnswers.smooth]

/-- Both calls return a success, and the rule that was added is gone. -/
theorem overtaken_not_serializable : ¬ ∀ (actions : List (Action Nat)) (state : State Nat),
      run step (State.new (AppProxy.State.new "4711" [outlet "A"] none)) actions = some state →
        Serializable Command.rules state.history [outlet "A"] state.manager.rules := by
  intro serializable
  obtain ⟨order, perm, -, replayed⟩ := serializable overtaken _ rfl
  have kept := congrArg List.length replayed
  obtain rfl | rfl := List.perm_pair.mp perm
  · exact absurd kept (by decide)
  · exact absurd kept (by decide)

end ClashVerge.AppProxy.Edits
