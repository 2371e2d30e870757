import ClashVerge.AppProxy.RuleSet
import ClashVerge.AppProxy.Start

/-!
# Rule updates that fail

Between two calls a helper that is there runs the rules it is said to run and has one listener for
each group that they need. An update that fails leaves the stored rules as they were, except when it
has saved the new ones and cannot retire a listener; it leaves the helper as it was, with a new
version where the old rules had to be put back, or stops it.
-/

namespace ClashVerge.AppProxy

open OrderedMap Profiles Transition

/-- What holds between two calls. -/
structure Consistent (state : State) : Prop where
  desired : state.inner = none → state.desiredListener = []
  managed : ∀ helper, state.inner = some helper → Managed helper state.desiredListener

theorem consistent_new (processId : String) (rules : List AppProxyRule)
    (config : Option Yaml.Mapping) : Consistent (State.new processId rules config) :=
  ⟨fun _ => rfl, fun _ is_ => by contradiction⟩

section

variable {state next : State} {helper : ManagedHelper} {update : StagedUpdate}
  {newRules : List AppProxyRule} {answers : UpdateAnswers}

theorem Consistent.of_none (inner : next.inner = none) (desired : next.desiredListener = []) :
    Consistent next :=
  ⟨fun _ => desired, fun _ is_ => absurd (inner.symm.trans is_) (by simp)⟩

theorem Consistent.of_some {helper : ManagedHelper} (inner : next.inner = some helper)
    (managed : Managed helper next.desiredListener) : Consistent next :=
  ⟨fun none => absurd (inner.symm.trans none) (by simp), fun _ is_ =>
    Option.some.inj (inner.symm.trans is_) ▸ managed⟩

theorem stopInner_inner (state : State) (answers : State.StopAnswers) :
    (state.stopInner answers).1.inner = none := by
  unfold State.stopInner
  split
  · assumption
  · rename_i helper _
    have frame := State.removeEach_frame answers.removed helper.listenerNames
      { state with inner := none, desiredListener := [] }
    dsimp only
    split <;> exact frame.inner

theorem stopInner_desired (consistent : state.inner = none → state.desiredListener = [])
    (answers : State.StopAnswers) : (state.stopInner answers).1.desiredListener = [] := by
  unfold State.stopInner
  split
  · rename_i none
    exact consistent none
  · rename_i helper _
    have frame := State.removeEach_frame answers.removed helper.listenerNames
      { state with inner := none, desiredListener := [] }
    dsimp only
    split <;> exact frame.desiredListener

theorem Consistent.stopInner (consistent : state.inner = none → state.desiredListener = [])
    (answers : State.StopAnswers) : Consistent (state.stopInner answers).1 :=
  Consistent.of_none (stopInner_inner state answers) (stopInner_desired consistent answers)

theorem status_cases (state : State) (answers : State.StatusAnswers) :
    state.status answers = state ∨
      answers.alive = false ∧ (state.status answers).inner = none ∧
        (state.status answers).desiredListener = [] ∧
        (state.status answers).rules = state.rules ∧
        (state.status answers).rulesFile = state.rulesFile := by
  unfold State.status
  split
  · exact .inl rfl
  · rename_i helper _
    split
    · exact .inl rfl
    · rename_i dead
      have frame := State.removeEach_frame answers.removed helper.listenerNames
        { state with desiredListener := [] }
      exact .inr ⟨by simpa using dead, rfl, frame.desiredListener, frame.rules, frame.rulesFile⟩

theorem Consistent.status (consistent : Consistent state) (answers : State.StatusAnswers) :
    Consistent (state.status answers) := by
  rcases status_cases state answers with same | ⟨-, inner, desired, -⟩
  · rw [same]
    exact consistent
  · exact Consistent.of_none inner desired

theorem settleRuleUpdate_cases (state : State) (answers : State.StopAnswers) (message : String) :
    ∃ error, (state.settleRuleUpdate answers (.error message)).2 = .error error ∧
      ((state.inner.any (·.failed) = false ∧
          (state.settleRuleUpdate answers (.error message)).1 = state) ∨
        state.inner.any (·.failed) = true ∧
          (state.settleRuleUpdate answers (.error message)).1 = (state.stopInner answers).1) := by
  unfold State.settleRuleUpdate
  dsimp only
  split
  · rename_i failed
    cases stops : state.stopInner answers with
    | mk stopped result =>
      cases result with
      | ok _ | error _ => exact ⟨_, rfl, .inr ⟨failed, rfl⟩⟩
  · rename_i healthy
    exact ⟨_, rfl, .inl ⟨by simpa using healthy, rfl⟩⟩

theorem restored_desired {desired : List ManagedListenerSpec} (managed : Managed helper desired)
    (prepared : Prepared helper newRules update) :
    (update.oldListeners.map (·.2)).Perm (helper.primary :: helper.extraListeners.map (·.2)) := by
  rw [prepared.oldListeners]
  exact managed.shaped.old_perm.map (·.2)

theorem Managed.restored (managed : Managed helper state.desiredListener)
    (prepared : Prepared helper newRules update) (restored : Restored helper update state next) :
    Managed helper next.desiredListener :=
  { managed with desired := restored.desired ▸ restored_desired managed prepared }

theorem Managed.reverted (managed : Managed helper state.desiredListener)
    (prepared : Prepared helper newRules update) {oldVersion : Nat}
    (restored : Restored (helper.revert update oldVersion) update state next) :
    Managed (helper.revert update oldVersion) next.desiredListener where
  shaped := ⟨managed.shaped.regular, managed.shaped.sorted, managed.shaped.apart⟩
  healthy := managed.healthy
  extra := managed.extra
  compiled := by
    change compileRules helper.rules "regular" (helper.oldListeners none) =
      .ok (helper.rules, update.oldGroups)
    rw [prepared.oldGroups]
    exact managed.compiled
  published := rfl
  version := rfl
  desired := by
    have same := restored_desired managed prepared
    rw [restored.desired]
    exact same

theorem Consistent.settle (consistent : Consistent state) (answers : State.StopAnswers)
    (message : String) : Consistent (state.settleRuleUpdate answers (.error message)).1 := by
  obtain ⟨error, -, ⟨-, same⟩ | ⟨-, stopped⟩⟩ := settleRuleUpdate_cases state answers message
  · rw [same]
    exact consistent
  · rw [stopped]
    exact Consistent.stopInner consistent.desired answers

theorem settle_failing {failing : ManagedHelper} (inner : state.inner = some failing)
    (failed : failing.failed = true) (answers : State.StopAnswers) (message : String) :
    (state.settleRuleUpdate answers (.error message)).1 = (state.stopInner answers).1 ∧
      ∃ error, (state.settleRuleUpdate answers (.error message)).2 = .error error := by
  obtain ⟨error, ends, ⟨healthy, -⟩ | ⟨-, stopped⟩⟩ := settleRuleUpdate_cases state answers message
  · simp [inner, failed] at healthy
  · exact ⟨stopped, error, ends⟩

theorem Updated.consistent (consistent : Consistent state) (inner : state.inner = some helper)
    {result : Except String Unit} (updated : Updated helper newRules answers state next result) :
    Consistent next ∨ ∃ failing message, result = .error message ∧ next.inner = some failing ∧
      failing.failed = true := by
  have managed := consistent.managed helper inner
  cases updated with
  | refused message => exact .inl consistent
  | restored update next message prepares prepared restored =>
    exact .inl (Consistent.of_some restored.inner (managed.restored prepared restored))
  | reverted update next message oldVersion prepares prepared unsaved restored =>
    exact .inl (Consistent.of_some restored.inner (managed.reverted prepared restored))
  | faulted update next message prepares faulted =>
    obtain ⟨failing, is_, failed, -⟩ := faulted.inner
    exact .inr ⟨failing, message, rfl, is_, failed⟩
  | unretired next message unretired =>
    obtain ⟨failing, is_, failed⟩ := unretired.inner
    exact .inr ⟨failing, message, rfl, is_, failed⟩
  | adopted update next version prepares prepared adopted =>
    refine .inl (Consistent.of_some adopted.inner ?_)
    rw [adopted.desired]
    exact managed.adopt prepared version

theorem setRules_some (inner : state.inner = some helper) : state.setRules newRules answers =
    match state.updateRules helper newRules answers with
    | (next, .ok _) => (next.status answers.status, .ok ())
    | (next, .error error) => next.settleRuleUpdate answers.stop (.error error) := by
  unfold State.setRules State.setRulesLocked
  rw [inner]
  dsimp only
  cases state.updateRules helper newRules answers with
  | mk next result =>
    cases result with
    | ok _ => rfl
    | error error => rfl

theorem setRules_none (inner : state.inner = none) (newRules : List AppProxyRule)
    (answers : UpdateAnswers) : (state.setRules newRules answers).1 = state ∨
      (state.setRules newRules answers).1 =
        { state with rulesFile := newRules, rules := newRules } := by
  unfold State.setRules State.setRulesLocked State.saveRulesToDisk
  rw [inner]
  dsimp only
  cases compileRules newRules "regular" (State.validationListeners newRules) with
  | error error => exact .inl (by simp [State.settleRuleUpdate, inner])
  | ok _ =>
    cases answers.saved with
    | error error => exact .inl (by simp [State.settleRuleUpdate, inner])
    | ok _ => exact .inr (by simp [State.settleRuleUpdate, State.status])

theorem Consistent.setRules (consistent : Consistent state) (newRules : List AppProxyRule)
    (answers : UpdateAnswers) : Consistent (state.setRules newRules answers).1 := by
  cases inner : state.inner with
  | none =>
    have desired := consistent.desired inner
    rcases setRules_none inner newRules answers with same | stored
    · rw [same]
      exact consistent
    · rw [stored]
      exact Consistent.of_none inner desired
  | some helper =>
    have updated : Updated helper newRules answers state _ _ :=
      updateRules_updated (consistent.managed helper inner) inner
    rw [setRules_some inner]
    cases updates : state.updateRules helper newRules answers with
    | mk next result =>
      rw [updates] at updated
      obtain kept | ⟨failing, message, rfl, is_, failed⟩ := updated.consistent consistent inner
      · cases result with
        | ok _ => exact kept.status answers.status
        | error message => exact kept.settle answers.stop message
      · dsimp only
        rw [(settle_failing is_ failed answers.stop message).1]
        exact Consistent.stopInner (fun none => absurd (is_.symm.trans none) (by simp)) answers.stop

theorem Consistent.start (consistent : Consistent state) (request : AppProxyStartRequest)
    (answers : StartAnswers) : Consistent (state.startInner request answers).1 := by
  have started := startInner_started state request answers
  generalize (state.startInner request answers).1 = next at started
  cases started with
  | refused => exact consistent
  | dropped launch middle opened =>
    obtain ⟨inner, desired⟩ := opened.dropped answers.removed
    exact Consistent.of_none inner desired
  | running launch middle version ready opened =>
    let running : State := { middle with
      rulesFile := launch.rules
      rules := launch.rules
      inner := some (launch.helper version) }
    have managed : Managed (launch.helper version) running.desiredListener := by
      have same : running.desiredListener = launch.specs := opened.desired
      rw [same]
      exact ready.managed version
    have placed : Consistent running := Consistent.of_some rfl managed
    have settled := placed.status answers.status
    rcases finishStart_cases running answers with same | stopped
    · rw [same]
      exact settled
    · rw [stopped]
      exact Consistent.stopInner settled.desired answers.stop

theorem Consistent.step (consistent : Consistent state) {call : Call}
    (taken : step state call = some next) : Consistent next := by
  cases call with
  | start request answers =>
    cases taken
    exact consistent.start request answers
  | setRules newRules answers =>
    cases taken
    exact consistent.setRules newRules answers
  | stop answers =>
    cases taken
    exact Consistent.stopInner consistent.desired answers
  | status answers =>
    cases taken
    exact consistent.status answers

theorem consistent_reached {processId : String} {rules : List AppProxyRule}
    {config : Option Yaml.Mapping}
    (reached : Reachable AppProxy.step (State.new processId rules config) state) :
    Consistent state :=
  reached.invariant (consistent_new processId rules config) fun _ _ _ consistent taken =>
    consistent.step taken

theorem Managed.length_desired {desired : List ManagedListenerSpec}
    (managed : Managed helper desired) : desired.length = (requiredGroups helper.rules "regular").length := by
  have groups : ("regular" :: keys helper.extraListeners).Perm
      (requiredGroups helper.rules "regular") := by
    refine (List.perm_ext_iff_of_nodup ?_ ?_).mpr fun group => ?_
    · exact List.nodup_cons.mpr ⟨managed.shaped.apart, managed.shaped.sorted.distinct⟩
    · exact requiredGroups_sorted.imp fun less => ne_of_lt less
    · rw [List.mem_cons, managed.extra, mem_requiredGroups]
      by_cases same : group = "regular"
      · simp [same, Required]
      · simp [same]
  rw [managed.desired.length_eq, ← groups.length_eq]
  simp [keys]

theorem bound_group {listeners : Listeners} {compiled : List AppProxyRule}
    {groups : List ProxyGroup}
    (compiles : compileRules newRules "regular" listeners = .ok (compiled, groups))
    (few : (requiredGroups newRules "regular").length ≤ UInt32.size) {rule : AppProxyRule}
    (listed : rule ∈ compiled) (enabled : rule.enabled = true) :
    ∃ group ∈ groups, group.name = rule.strategyGroup ∧ group.id = rule.proxyGroupId := by
  obtain ⟨_, all, publishes⟩ := compileRules_ok compiles
  obtain ⟨original, -, compiled_⟩ := (exists_of_forall₂ (compileAll_spec all)).2 rule listed
  obtain ⟨switchedOn, switchedOff⟩ := compile_spec compiled_
  cases switch : original.enabled with
  | true =>
    obtain ⟨position, here, rfl⟩ := switchedOn switch
    have inside := (List.getElem?_eq_some_iff.mp here).1
    rw [length_destinations] at inside
    rw [exists_group_iff publishes, Nat.mod_eq_of_lt (Nat.lt_of_lt_of_le inside few)]
    exact here
  | false =>
    obtain rfl := switchedOff switch
    exact absurd enabled (by simp [switch])

/-- The names of the listeners that an update stages are new: `nanoid` makes them up. -/
def Fresh (state : State) (helper : ManagedHelper) (newRules : List AppProxyRule)
    (answers : UpdateAnswers) : Prop :=
  ∀ update, state.prepareUpdate helper newRules answers = .ok update →
    ∀ name ∈ update.names, name ∉ listenerNames state.config

/-- The helper is as it was, with a new version where the old rules had to be put back. -/
structure Kept (helper current : ManagedHelper) (putBack : Prop) (before after : State) : Prop where
  healthy : current.failed = false
  rules : current.rules = helper.rules
  extraListeners : current.extraListeners = helper.extraListeners
  runs : current.process.rules = helper.process.rules ∧ current.process.groups = helper.process.groups
  version : current.effectiveRulesVersion = helper.effectiveRulesVersion ∨
    putBack ∧ current.effectiveRulesVersion = current.process.rulesRevision
  desired : after.desiredListener.Perm before.desiredListener
  listeners : listenerItems after.config = listenerItems before.config

/-- The helper runs the new rules, with the primary listener and one for each other group. -/
structure Applied (helper current : ManagedHelper) (newRules : List AppProxyRule) (after : State) :
    Prop where
  healthy : current.failed = false
  primary : current.primary = helper.primary
  compiled : compileRules newRules "regular" (current.oldListeners none) =
    .ok (current.rules, current.process.groups)
  runs : current.process.rules = current.rules
  groups : keys current.extraListeners = (requiredGroups newRules "regular").filter (· ≠ "regular")
  desired : after.desiredListener = current.primary :: current.extraListeners.map (·.2)

theorem stopInner_stored (state : State) (answers : State.StopAnswers) :
    (state.stopInner answers).1.rules = state.rules ∧
      (state.stopInner answers).1.rulesFile = state.rulesFile := by
  unfold State.stopInner
  split
  · exact ⟨rfl, rfl⟩
  · rename_i helper _
    have frame := State.removeEach_frame answers.removed helper.listenerNames
      { state with inner := none, desiredListener := [] }
    dsimp only
    split <;> exact ⟨frame.rules, frame.rulesFile⟩

section

variable (managed : Managed helper state.desiredListener)
include managed

theorem Restored.kept {current : ManagedHelper} {putBack : Prop} (prepared : Prepared helper newRules update)
    (fresh : ∀ name ∈ update.names, name ∉ listenerNames state.config)
    (restored : Restored current update state next) (healthy : current.failed = false)
    (rules : current.rules = helper.rules)
    (extraListeners : current.extraListeners = helper.extraListeners)
    (runs : current.process.rules = helper.process.rules ∧
      current.process.groups = helper.process.groups)
    (version : current.effectiveRulesVersion = helper.effectiveRulesVersion ∨
      putBack ∧ current.effectiveRulesVersion = current.process.rulesRevision) :
    Kept helper current putBack state next where
  healthy := healthy
  rules := rules
  extraListeners := extraListeners
  runs := runs
  version := version
  desired := by
    rw [restored.desired]
    exact (restored_desired managed prepared).trans managed.desired.symm
  listeners := restored.items.trans (items_of_gone fresh).symm

theorem Managed.keys_adopt (prepared : Prepared helper newRules update) (version : Nat) :
    keys (helper.adopt newRules update version).extraListeners =
      (requiredGroups newRules "regular").filter (· ≠ "regular") := by
  have sorted := (managed.shaped_adopt prepared version).sorted
  have required : ((requiredGroups newRules "regular").filter (· ≠ "regular")).Pairwise (· < ·) :=
    requiredGroups_sorted.filter _
  refine List.Perm.eq_of_pairwise (fun left right _ _ less more => absurd more less.asymm) sorted
    required ?_
  refine (List.perm_ext_iff_of_nodup sorted.distinct (required.imp fun less => less.ne)).mpr ?_
  intro group
  rw [managed.mem_adopt prepared version, List.mem_filter, mem_requiredGroups]
  simp [and_comm]

theorem Managed.applied (prepared : Prepared helper newRules update) {version : Nat}
    (adopted : Adopted helper newRules update version state next) :
    Applied helper (helper.adopt newRules update version) newRules next where
  healthy := managed.healthy
  primary := rfl
  compiled := (compileRules_congr (managed.adopt_agrees prepared version)).trans prepared.compiled
  runs := rfl
  groups := managed.keys_adopt prepared version
  desired := adopted.desired

end

/-- What an error leaves: the stored rules, unless a removal was refused after the new ones had been
saved and the helper is gone, and the helper if it is still there. -/
structure Spared (helper : ManagedHelper) (newRules : List AppProxyRule) (answers : UpdateAnswers)
    (before after : State) : Prop where
  stored : after.rules = before.rules ∧ after.rulesFile = before.rulesFile ∨
    (∃ answer ∈ answers.removed, RuntimeAnswer.taken answer = false) ∧
      after.rules = newRules ∧ after.rulesFile = newRules ∧ after.inner = none
  helper : ∀ current, after.inner = some current →
    Kept helper current (answers.saved ≠ .ok ()) before after

/-- The new rules are stored, and the helper runs them if it is still alive. -/
structure Replaced (helper : ManagedHelper) (newRules : List AppProxyRule) (answers : UpdateAnswers)
    (after : State) : Prop where
  rules : after.rules = newRules
  rulesFile : after.rulesFile = newRules
  helper : answers.status.alive = false ∧ after.inner = none ∨
    ∃ current, after.inner = some current ∧ Applied helper current newRules after

theorem Kept.settle {current : ManagedHelper}
    (kept : Kept helper current (answers.saved ≠ .ok ()) state next)
    (inner : next.inner = some current)
    (stored : next.rules = state.rules ∧ next.rulesFile = state.rulesFile) (message : String) :
    Spared helper newRules answers state (next.settleRuleUpdate answers.stop (.error message)).1 := by
  have same : (next.settleRuleUpdate answers.stop (.error message)).1 = next := by
    obtain ⟨error, -, ⟨-, same⟩ | ⟨failed, -⟩⟩ :=
      settleRuleUpdate_cases next answers.stop message
    · exact same
    · simp [inner, kept.healthy] at failed
  rw [same]
  refine ⟨.inl stored, fun other is_ => ?_⟩
  obtain rfl := Option.some.inj (inner.symm.trans is_)
  exact kept

theorem Spared.of_failing {failing : ManagedHelper} (inner : next.inner = some failing)
    (failed : failing.failed = true)
    (stored : next.rules = state.rules ∧ next.rulesFile = state.rulesFile ∨
      (∃ answer ∈ answers.removed, RuntimeAnswer.taken answer = false) ∧
        next.rules = newRules ∧ next.rulesFile = newRules) (message : String) :
    Spared helper newRules answers state (next.settleRuleUpdate answers.stop (.error message)).1 := by
  rw [(settle_failing inner failed answers.stop message).1]
  have gone := stopInner_inner next answers.stop
  obtain ⟨rules, rulesFile⟩ := stopInner_stored next answers.stop
  refine ⟨?_, fun current is_ => absurd (gone.symm.trans is_) (by simp)⟩
  rw [rules, rulesFile]
  exact stored.imp_right fun ⟨refused, rules, rulesFile⟩ => ⟨refused, rules, rulesFile, gone⟩

theorem Updated.spared (managed : Managed helper state.desiredListener)
    (inner : state.inner = some helper) (fresh : Fresh state helper newRules answers)
    {message : String} (updated : Updated helper newRules answers state next (.error message)) :
    Spared helper newRules answers state
      (next.settleRuleUpdate answers.stop (.error message)).1 := by
  cases updated with
  | refused message =>
    have kept : Kept helper helper (answers.saved ≠ .ok ()) state state :=
      ⟨managed.healthy, rfl, rfl, ⟨rfl, rfl⟩, .inl rfl, List.Perm.refl _, rfl⟩
    exact kept.settle inner ⟨rfl, rfl⟩ message
  | restored update next message prepares prepared restored =>
    have kept : Kept helper helper (answers.saved ≠ .ok ()) state next :=
      restored.kept managed prepared (fresh update prepares) managed.healthy rfl rfl ⟨rfl, rfl⟩
        (.inl rfl)
    exact kept.settle restored.inner ⟨restored.rules, restored.rulesFile⟩ message
  | reverted update next message oldVersion prepares prepared unsaved restored =>
    have kept : Kept helper (helper.revert update oldVersion) (answers.saved ≠ .ok ()) state next :=
      restored.kept managed prepared (fresh update prepares) managed.healthy rfl rfl
        ⟨managed.published.symm, prepared.oldGroups⟩ (.inr ⟨unsaved, rfl⟩)
    exact kept.settle restored.inner ⟨restored.rules, restored.rulesFile⟩ message
  | faulted update next message prepares faulted =>
    obtain ⟨failing, is_, failed, -⟩ := faulted.inner
    exact Spared.of_failing is_ failed (.inl ⟨faulted.rules, faulted.rulesFile⟩) message
  | unretired next message unretired =>
    obtain ⟨failing, is_, failed⟩ := unretired.inner
    exact Spared.of_failing is_ failed
      (.inr ⟨unretired.refused, unretired.rules, unretired.rulesFile⟩) message

theorem Updated.replaced (managed : Managed helper state.desiredListener)
    (updated : Updated helper newRules answers state next (.ok ())) :
    Replaced helper newRules answers (next.status answers.status) := by
  cases updated with
  | adopted update next version prepares prepared adopted =>
    rcases status_cases next answers.status with same | ⟨dead, gone, -, rules, rulesFile⟩
    · rw [same]
      exact ⟨adopted.rules, adopted.rulesFile,
        .inr ⟨_, adopted.inner, managed.applied prepared adopted⟩⟩
    · exact ⟨rules.trans adopted.rules, rulesFile.trans adopted.rulesFile, .inl ⟨dead, gone⟩⟩

/-- A rule update that fails changes nothing that lasts, except where it cannot retire a listener
after it has saved the new rules; one that succeeds stores the new rules and runs them. -/
theorem set_rules_durable {processId : String} {rules : List AppProxyRule}
    {config : Option Yaml.Mapping}
    (reached : Reachable AppProxy.step (State.new processId rules config) state)
    (inner : state.inner = some helper) (newRules : List AppProxyRule) (answers : UpdateAnswers)
    (fresh : Fresh state helper newRules answers) :
    (∀ message, (state.setRules newRules answers).2 = .error message →
        Spared helper newRules answers state (state.setRules newRules answers).1) ∧
      ((state.setRules newRules answers).2 = .ok () →
        Replaced helper newRules answers (state.setRules newRules answers).1) := by
  have managed := (consistent_reached reached).managed helper inner
  have updated : Updated helper newRules answers state _ _ := updateRules_updated managed inner
  rw [setRules_some inner]
  cases updates : state.updateRules helper newRules answers with
  | mk next result =>
    rw [updates] at updated
    cases result with
    | ok _ => exact ⟨fun _ fails => by simp at fails, fun _ => updated.replaced managed⟩
    | error message =>
      obtain ⟨error, ends, -⟩ := settleRuleUpdate_cases next answers.stop message
      exact ⟨fun _ _ => updated.spared managed inner fresh,
        fun succeeds => by simp [ends] at succeeds⟩

end

def outlet (group : String) : AppProxyRule :=
  ⟨group, group, true, "*", "app.exe", false, 0, group, "tcp"⟩

def selectors : Except String Proxies :=
  .ok [("A", ⟨.selector, none, none⟩), ("B", ⟨.selector, none, none⟩)]

/-- Nothing fails, and the helper and its listeners answer. -/
def StartAnswers.smooth : StartAnswers where
  apiFree := true
  required := [selectors, selectors]
  port := .ok 7890
  listeners := ⟨[], [[.ok 7891], [.ok 7892]], ["V1StGXR8", "Uakgb_J5"]⟩
  configured := []
  listening := []
  listenerReady := true
  preparation := .ok ()
  spawned := .ok ()
  client := .ok ()
  ready := .ok ()
  publication := ⟨.answered, true⟩
  confirmed := true
  saved := .ok ()
  removed := []
  proxyReady := true
  resumeIntent := .ok ()
  status := ⟨true, []⟩
  stop := ⟨[], .ok ()⟩

def UpdateAnswers.smooth : UpdateAnswers where
  alive := true
  required := [selectors, selectors]
  primary := selectors
  listeners := ⟨[selectors], [[.ok 7893]], ["Zq3xK8vT"]⟩
  configured := []
  listening := []
  client := .ok ()
  publication := ⟨.answered, true⟩
  observed := true
  confirmed := true
  saved := .ok ()
  rollback := ⟨.answered, true⟩
  rollbackConfirmed := true
  removed := []
  status := ⟨true, []⟩
  stop := ⟨[], .ok ()⟩

def launch : Call := .start ⟨"", "regular", none⟩ StartAnswers.smooth

/-- The state after a start with the rule for group `A`. -/
def launched : State :=
  ((State.new "4711" [outlet "A"] (some [])).startInner ⟨"", "regular", none⟩ StartAnswers.smooth).1

theorem launched_reached : Reachable step (State.new "4711" [outlet "A"] (some [])) launched :=
  ⟨[launch], rfl⟩

/-- The rules cannot be saved, and the old ones are put back. -/
def unsaved : UpdateAnswers := { UpdateAnswers.smooth with saved := .error "disk full" }

def launchedHelper : ManagedHelper := launched.inner.get rfl

theorem unsaved_update_spares : Spared launchedHelper [outlet "B"] unsaved launched
    (launched.setRules [outlet "B"] unsaved).1 := by
  have fresh : Fresh launched launchedHelper [outlet "B"] unsaved := by
    intro update prepares
    have names : (launched.prepareUpdate launchedHelper [outlet "B"] unsaved).map
        StagedUpdate.names = .ok ["clash-verge-app-proxy-4711-Zq3xK8vT"] := by decide
    rw [prepares] at names
    rw [Except.ok.inj names]
    decide
  have durable := set_rules_durable launched_reached (by decide) [outlet "B"] unsaved fresh
  exact durable.1 "persist application rules" (by decide)

/-- An obsolete listener that cannot be removed, a save that fails and a process that ends before
the status each leave something else than is said; and a client that fails after an update changes
the order of the desired listeners. -/
theorem updates_leave_traces :
    let unretired := launched.setRules [outlet "regular"]
      { UpdateAnswers.smooth with removed := [.error "reload failed"] }
    let rolledBack := launched.setRules [outlet "B"] unsaved
    let ended := launched.setRules [outlet "B"]
      { UpdateAnswers.smooth with status := ⟨false, []⟩ }
    let moved := (launched.setRules [outlet "B"] UpdateAnswers.smooth).1
    let restored := moved.setRules [outlet "regular"]
      { UpdateAnswers.smooth with client := .error "no client" }
    (unretired.2 = .error "retire obsolete managed listener" ∧
        launched.rules = [outlet "A"] ∧ unretired.1.rules = [outlet "regular"] ∧
        unretired.1.rulesFile = [outlet "regular"]) ∧
      (rolledBack.2 = .error "persist application rules" ∧
        launched.inner.map (·.effectiveRulesVersion) = some 1 ∧
        rolledBack.1.inner.map (·.effectiveRulesVersion) = some 3) ∧
      (ended.2 = .ok () ∧ ended.1.desiredListener = []) ∧
      (restored.2 = .error "no client" ∧ restored.1.inner = moved.inner ∧
        moved.desiredListener.map (·.group) = [none, some "B"] ∧
        restored.1.desiredListener.map (·.group) = [some "B", none]) := by
  refine ⟨?_, ?_, ?_, ?_⟩ <;> decide

end ClashVerge.AppProxy
