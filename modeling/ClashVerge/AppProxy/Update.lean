import ClashVerge.AppProxy.Staging

/-!
# Rule updates

Where a rule update ends, and what it leaves. It is refused before it changes anything, or its
listeners are restored, or the helper has failed, or the rules are the new ones. A helper that has
failed is stopped before the call returns.
-/

namespace ClashVerge.AppProxy

open OrderedMap Profiles

/-- The listener of the primary group, which is not bound to a group of the core. -/
def ManagedHelper.primary (helper : ManagedHelper) : ManagedListenerSpec :=
  ⟨helper.listenerName, helper.listener, none⟩

/-- The listeners of a helper, sorted by group and apart from the primary one. -/
structure Shaped (helper : ManagedHelper) : Prop where
  regular : helper.strategyGroup = "regular"
  sorted : SortedMap.Sorted helper.extraListeners
  apart : "regular" ∉ keys helper.extraListeners

/-- A helper that runs the rules it is said to run, with one listener for each group they need. -/
structure Managed (helper : ManagedHelper) (desired : List ManagedListenerSpec) : Prop where
  shaped : Shaped helper
  healthy : helper.failed = false
  extra : ∀ group, group ∈ keys helper.extraListeners ↔
    group ≠ "regular" ∧ Required helper.rules "regular" group
  compiled : compileRules helper.rules "regular" (helper.oldListeners none) =
    .ok (helper.rules, helper.process.groups)
  published : helper.process.rules = helper.rules
  version : helper.effectiveRulesVersion = helper.process.rulesRevision
  desired : desired.Perm (helper.primary :: helper.extraListeners.map (·.2))

section

variable {helper : ManagedHelper}

theorem old_sorted (helper : ManagedHelper) (group : Option String) :
    SortedMap.Sorted (helper.oldListeners group) := SortedMap.sorted_ofList _

theorem Shaped.old_perm (shaped : Shaped helper) : (helper.oldListeners none).Perm
    (("regular", helper.primary) :: helper.extraListeners) := by
  have distinct : Distinct (("regular", helper.primary) :: helper.extraListeners) :=
    distinct_cons.mpr ⟨shaped.apart, shaped.sorted.distinct⟩
  have same : helper.oldListeners none =
      SortedMap.ofList (("regular", helper.primary) :: helper.extraListeners) := by
    rw [ManagedHelper.oldListeners, shaped.regular]
    rfl
  rw [same]
  exact SortedMap.ofList_perm distinct

theorem Shaped.get_old (shaped : Shaped helper) (group : String) :
    get (helper.oldListeners none) group =
      if "regular" = group then some helper.primary else get helper.extraListeners group := by
  have distinct : Distinct (("regular", helper.primary) :: helper.extraListeners) :=
    (shaped.old_perm.map Prod.fst).nodup_iff.mp (old_sorted helper none).distinct
  rw [get_perm distinct shaped.old_perm, get_cons]

theorem Shaped.mem_old (shaped : Shaped helper) (group : String) :
    group ∈ keys (helper.oldListeners none) ↔
      group = "regular" ∨ group ∈ keys helper.extraListeners := by
  have keyed : group ∈ keys (helper.oldListeners none) ↔
      group ∈ keys (("regular", helper.primary) :: helper.extraListeners) :=
    (shaped.old_perm.map Prod.fst).mem_iff
  exact keyed.trans List.mem_cons

end

structure Prepared (helper : ManagedHelper) (newRules : List AppProxyRule) (update : StagedUpdate) :
    Prop where
  oldListeners : update.oldListeners = helper.oldListeners none
  staged : Staged (requiredGroups newRules "regular") (helper.oldListeners none) update.listeners
    update.staged
  compiled : compileRules newRules "regular" update.listeners = .ok (update.compiled, update.groups)
  oldGroups : update.oldGroups = helper.process.groups

def StagedUpdate.names (update : StagedUpdate) : List String := update.staged.map (·.name)

theorem prepareUpdate_ok {state : State} {helper : ManagedHelper} {newRules : List AppProxyRule}
    {answers : UpdateAnswers} {update : StagedUpdate} (managed : Managed helper state.desiredListener)
    (prepares : state.prepareUpdate helper newRules answers = .ok update) :
    Prepared helper newRules update := by
  unfold State.prepareUpdate at prepares
  rw [managed.shaped.regular] at prepares
  dsimp only at prepares
  split at prepares
  · contradiction
  · obtain ⟨_, -, prepares⟩ := bind_ok prepares
    obtain ⟨group, bound, prepares⟩ := bind_ok prepares
    obtain ⟨staged, stages, prepares⟩ := bind_ok prepares
    obtain ⟨compiled, compiles, prepares⟩ := bind_ok prepares
    obtain ⟨old, again, rfl⟩ := map_ok prepares
    obtain rfl : none = group := Except.ok.inj bound
    obtain ⟨added, first, covers⟩ := stageListeners_staged (old_sorted helper none) stages
    obtain rfl : staged.2 = added := first
    have same := Except.ok.inj (again.symm.trans managed.compiled)
    exact ⟨rfl, covers, compiles, congrArg Prod.snd same⟩

def Reaches (state : State) (answers : UpdateAnswers) (update : StagedUpdate) : Prop :=
  (State.configureListeners answers.configured answers.listening update.staged
    { state with desiredListener := update.listeners.map (·.2) }).2 = .ok () ∧
  answers.client = .ok ()

/-- The old rules are not put back after the new ones could not be saved. -/
def Unreverted (helper : ManagedHelper) (answers : UpdateAnswers) (update : StagedUpdate)
    (process : ManagedProcess) (version : Nat) : Prop :=
  let rollback := applyRulesToHelper answers.rollback process helper.rules update.oldGroups version
  match rollback.2 with
  | .error _ => True
  | .ok oldVersion => waitRulesApplied answers.rollbackConfirmed rollback.1 helper.rules
      update.oldGroups oldVersion ≠ .ok ()

/-- The publication is uncertain, or it is refused and the helper is not known to be where it was,
or the helper does not show what it has taken, or the rules cannot be saved and the old ones are not
put back. -/
def Unresolved (helper : ManagedHelper) (answers : UpdateAnswers) (update : StagedUpdate) : Prop :=
  let published := applyRulesToHelper answers.publication helper.process update.compiled
    update.groups helper.effectiveRulesVersion
  match published.2 with
  | .error (.uncertain _) => True
  | .error (.rejected _) =>
    ¬ (answers.observed = true ∧ published.1.rulesRevision = helper.effectiveRulesVersion)
  | .ok version =>
    waitRulesApplied answers.confirmed published.1 update.compiled update.groups version ≠ .ok () ∨
    answers.saved ≠ .ok () ∧ Unreverted helper answers update published.1 version

/-- The helper is marked as failed, and the rules are the old ones. -/
structure Faulted (helper : ManagedHelper) (update : StagedUpdate) (unresolved : Prop)
    (state next : State) : Prop where
  inner : ∃ failing, next.inner = some failing ∧ failing.failed = true ∧
    failing.listenerNames = helper.listenerNames
  rules : next.rules = state.rules
  rulesFile : next.rulesFile = state.rulesFile
  cause : next.unremoved ≠ [] ∨ unresolved
  extends_ : Extends update.names state next

/-- The listeners are those from before the update, and so are the rules. -/
structure Restored (helper : ManagedHelper) (update : StagedUpdate) (state next : State) : Prop where
  processId : next.processId = state.processId
  inner : next.inner = some helper
  rules : next.rules = state.rules
  rulesFile : next.rulesFile = state.rulesFile
  desired : next.desiredListener = update.oldListeners.map (·.2)
  items : listenerItems next.config = others update.names state.config
  extends_ : Extends update.names state next

section

variable {state next : State} {helper current : ManagedHelper} {update : StagedUpdate}
  {answers : UpdateAnswers} {newRules : List AppProxyRule}

theorem items_of_gone (gone : ∀ name ∈ update.names, name ∉ listenerNames next.config) :
    listenerItems next.config = others update.names next.config := by
  refine (List.filter_eq_self.mpr fun item is_ => ?_).symm
  refine decide_eq_true fun name staged named => gone name staged ?_
  exact mem_listenerNames.mpr ⟨item, is_, named⟩

structure Between (current : ManagedHelper) (update : StagedUpdate) (state next : State) : Prop where
  processId : next.processId = state.processId
  inner : next.inner = some current
  rules : next.rules = state.rules
  rulesFile : next.rulesFile = state.rulesFile
  others : others update.names next.config = others update.names state.config
  extends_ : Extends update.names state next

variable {middle : State}

theorem restoreStagedListeners_spec (between : Between current update state middle)
    (removed : List RuntimeAnswer) :
    ((middle.restoreStagedListeners removed update).2 = .ok () →
        Restored current update state (middle.restoreStagedListeners removed update).1) ∧
      ∀ error, (middle.restoreStagedListeners removed update).2 = .error error →
        Faulted current update False state (middle.restoreStagedListeners removed update).1.fail := by
  let begun : State := { middle with desiredListener := update.oldListeners.map (·.2) }
  have frame := State.removeListeners_frame removed update.names begun
  have shrinks := removeListeners_extends begun update.names removed update.names
  have grows : Extends update.names middle (middle.restoreStagedListeners removed update).1 :=
    ⟨shrinks.configured, shrinks.listed, shrinks.unremoved⟩
  have left : others update.names (middle.restoreStagedListeners removed update).1.config =
      others update.names middle.config := removeListeners_others begun fun _ is_ => is_
  obtain ⟨gone, recorded⟩ := removeListeners_gone begun removed update.names
  refine ⟨fun succeeds => ⟨frame.processId.trans between.processId, frame.inner.trans between.inner,
    frame.rules.trans between.rules, frame.rulesFile.trans between.rulesFile, frame.desiredListener,
    ?_, between.extends_.trans grows⟩, fun error fails => ⟨?_, frame.rules.trans between.rules,
    frame.rulesFile.trans between.rulesFile, .inl (recorded error fails),
    between.extends_.trans ⟨grows.configured, grows.listed, grows.unremoved⟩⟩⟩
  · exact (items_of_gone (gone succeeds)).trans (left.trans between.others)
  · refine ⟨{ current with failed := true }, ?_, rfl, rfl⟩
    have same : (middle.restoreStagedListeners removed update).1.inner = some current :=
      frame.inner.trans between.inner
    simp [State.fail, State.withHelper, same]

theorem restore_spec (between : Between current update state middle)
    (removed : List RuntimeAnswer) (error restoring : String) :
    ∃ message, (middle.restore removed update error restoring).2 = .error message ∧
      (Restored current update state (middle.restore removed update error restoring).1 ∨
        Faulted current update False state (middle.restore removed update error restoring).1) := by
  obtain ⟨restores, fails⟩ := restoreStagedListeners_spec between removed
  unfold State.restore
  split <;> rename_i next _ ends <;> rw [ends] at restores fails
  · exact ⟨error, rfl, .inl (restores rfl)⟩
  · exact ⟨restoring, rfl, .inr (fails _ rfl)⟩

theorem Faulted.mono {other : ManagedHelper} {cause unresolved : Prop}
    (faulted : Faulted other update cause state next) (implies : cause → unresolved)
    (names : other.listenerNames = helper.listenerNames) :
    Faulted helper update unresolved state next where
  inner := by
    obtain ⟨failing, is_, failed, same⟩ := faulted.inner
    exact ⟨failing, is_, failed, same.trans names⟩
  rules := faulted.rules
  rulesFile := faulted.rulesFile
  cause := faulted.cause.imp_right implies
  extends_ := faulted.extends_

theorem Between.fail {unresolved : Prop}
    (between : Between current update state middle) (cause : unresolved) : Faulted current update unresolved state middle.fail where
  inner := ⟨{ current with failed := true }, by simp [State.fail, State.withHelper, between.inner],
    rfl, rfl⟩
  rules := between.rules
  rulesFile := between.rulesFile
  cause := .inr cause
  extends_ := ⟨between.extends_.configured, between.extends_.listed, between.extends_.unremoved⟩

theorem Between.withHelper (between : Between current update state middle)
    (change : ManagedHelper → ManagedHelper) :
    Between (change current) update state (middle.withHelper change) where
  processId := between.processId
  inner := by simp [State.withHelper, between.inner]
  rules := between.rules
  rulesFile := between.rulesFile
  others := between.others
  extends_ := ⟨between.extends_.configured, between.extends_.listed, between.extends_.unremoved⟩

theorem configureListeners_between (update : StagedUpdate) (inner : state.inner = some helper)
    (answers : List RuntimeAnswer) (listening : List Bool) :
    Between helper update state (State.configureListeners answers listening update.staged
      { state with desiredListener := update.listeners.map (·.2) }).1 := by
  let begun : State := { state with desiredListener := update.listeners.map (·.2) }
  have named : ∀ spec ∈ update.staged, spec.name ∈ update.names :=
    fun spec is_ => List.mem_map_of_mem is_
  have frame := State.configureListeners_frame answers listening update.staged begun
  have grows : Extends update.names begun
      (State.configureListeners answers listening update.staged begun).1 :=
    configureListeners_extends begun named
  exact ⟨frame.processId, frame.inner.trans inner, frame.rules, frame.rulesFile,
    configureListeners_others begun named, grows.configured, grows.listed, grows.unremoved⟩

theorem publishRules_spec (answers : UpdateAnswers) (update : StagedUpdate)
    (inner : state.inner = some helper) :
    let result := state.publishRules helper answers update
    let published := applyRulesToHelper answers.publication helper.process update.compiled
      update.groups helper.effectiveRulesVersion
    (∃ version, result.2 = .ok version ∧ published.2 = .ok version ∧
        Reaches state answers update ∧
        Between { helper with process := published.1 } update state result.1) ∨
      ∃ message, result.2 = .error message ∧ (Restored helper update state result.1 ∨
        Faulted helper update (Reaches state answers update ∧ Unresolved helper answers update)
          state result.1) := by
  have staging := configureListeners_between update inner answers.configured
    answers.listening
  dsimp only
  unfold State.publishRules
  split <;> rename_i middle _ staged <;> rw [staged] at staging
  · obtain ⟨message, ends, restored | faulted⟩ := restore_spec staging answers.removed _ _
    · exact .inr ⟨message, ends, .inl restored⟩
    · exact .inr ⟨message, ends, .inr (faulted.mono False.elim rfl)⟩
  · split
    · obtain ⟨message, ends, restored | faulted⟩ := restore_spec staging answers.removed _ _
      · exact .inr ⟨message, ends, .inl restored⟩
      · exact .inr ⟨message, ends, .inr (faulted.mono False.elim rfl)⟩
    · rename_i client
      have reaches : Reaches state answers update := ⟨by rw [staged], client⟩
      obtain ⟨-, refused⟩ := applyRulesToHelper_cases answers.publication helper.process
        update.compiled update.groups helper.effectiveRulesVersion
      have changed := staging.withHelper fun current => { current with process :=
        (applyRulesToHelper answers.publication helper.process update.compiled update.groups
          helper.effectiveRulesVersion).1 }
      dsimp only
      split <;> rename_i ends
      · exact .inl ⟨_, rfl, ends, reaches, changed⟩
      · split
        · obtain ⟨message, fails, restored | faulted⟩ := restore_spec changed answers.removed _ _
          · have same : { helper with process := (applyRulesToHelper answers.publication
                helper.process update.compiled update.groups helper.effectiveRulesVersion).1 } =
                  helper := by rw [refused _ ends]
            rw [same] at restored
            exact .inr ⟨message, fails, .inl restored⟩
          · exact .inr ⟨message, fails, .inr (faulted.mono False.elim rfl)⟩
        · rename_i unseen
          have unresolved : Unresolved helper answers update := by
            unfold Unresolved
            dsimp only
            rw [ends]
            exact unseen
          exact .inr ⟨_, rfl, .inr ((changed.fail ⟨reaches, unresolved⟩).mono id rfl)⟩
      · have unresolved : Unresolved helper answers update := by
          unfold Unresolved
          dsimp only
          rw [ends]
          trivial
        exact .inr ⟨_, rfl, .inr ((changed.fail ⟨reaches, unresolved⟩).mono id rfl)⟩

def ManagedHelper.revert (helper : ManagedHelper) (update : StagedUpdate) (oldVersion : Nat) :
    ManagedHelper :=
  { helper with
    process := ⟨helper.rules, update.oldGroups, oldVersion⟩
    effectiveRulesVersion := oldVersion }

theorem rollBack_spec {process : ManagedProcess} {version : Nat} {unresolved : Prop}
    (between : Between { helper with process } update state middle)
    (cause : Unreverted helper answers update process version → unresolved) :
    ∃ message, (middle.rollBack helper process answers update version).2 = .error message ∧
      ((∃ oldVersion, Restored (helper.revert update oldVersion) update state
          (middle.rollBack helper process answers update version).1) ∨
        Faulted helper update unresolved state
          (middle.rollBack helper process answers update version).1) := by
  obtain ⟨accepted, -⟩ := applyRulesToHelper_cases answers.rollback process helper.rules
    update.oldGroups version
  have changed := between.withHelper fun current => { current with process :=
    (applyRulesToHelper answers.rollback process helper.rules update.oldGroups version).1 }
  unfold State.rollBack
  dsimp only
  split
  · rename_i ends
    have refused : Unreverted helper answers update process version := by
      unfold Unreverted
      dsimp only
      rw [ends]
      trivial
    exact ⟨_, rfl, .inr ((changed.fail (cause refused)).mono id rfl)⟩
  · rename_i oldVersion ends
    split <;> rename_i shown
    · have hidden : Unreverted helper answers update process version := by
        unfold Unreverted
        dsimp only
        rw [ends]
        simp [shown]
      exact ⟨_, rfl, .inr ((changed.fail (cause hidden)).mono id rfl)⟩
    · obtain ⟨restores, fails⟩ := restoreStagedListeners_spec changed answers.removed
      split <;> rename_i last _ done <;> rw [done] at restores fails
      · exact ⟨_, rfl, .inr ((fails _ rfl).mono False.elim rfl)⟩
      · refine ⟨_, rfl, .inl ⟨oldVersion, ?_⟩⟩
        have restored := restores rfl
        rw [accepted _ ends] at restored
        have inner : last.inner = some _ := restored.inner
        exact ⟨restored.processId, by simp [State.withHelper, inner, ManagedHelper.revert],
          restored.rules, restored.rulesFile, restored.desired, restored.items,
          restored.extends_.configured, restored.extends_.listed, restored.extends_.unremoved⟩

theorem persistRules_spec (newRules : List AppProxyRule) {version : Nat}
    (published : (applyRulesToHelper answers.publication helper.process update.compiled
      update.groups helper.effectiveRulesVersion).2 = .ok version)
    (between : Between { helper with process := (applyRulesToHelper answers.publication
      helper.process update.compiled update.groups helper.effectiveRulesVersion).1 } update state
      middle) :
    let result := middle.persistRules helper newRules answers update version
    result = ({ middle with rulesFile := newRules }, .ok version) ∨
      ∃ message, result.2 = .error message ∧
        ((answers.saved ≠ .ok () ∧ ∃ oldVersion,
            Restored (helper.revert update oldVersion) update state result.1) ∨
          Faulted helper update (Unresolved helper answers update) state result.1) := by
  have unresolved : ∀ cause : Prop, (cause → waitRulesApplied answers.confirmed
      (applyRulesToHelper answers.publication helper.process update.compiled update.groups
        helper.effectiveRulesVersion).1 update.compiled update.groups version ≠ .ok () ∨
      answers.saved ≠ .ok () ∧ Unreverted helper answers update (applyRulesToHelper
        answers.publication helper.process update.compiled update.groups
        helper.effectiveRulesVersion).1 version) → cause → Unresolved helper answers update := by
    intro cause kind holds
    unfold Unresolved
    dsimp only
    rw [published]
    exact kind holds
  dsimp only
  unfold State.persistRules
  dsimp only
  split <;> rename_i shown
  · have hidden := unresolved True (fun _ => .inl (by rw [shown]; simp)) trivial
    exact .inr ⟨_, rfl, .inr ((between.fail hidden).mono id rfl)⟩
  · unfold State.saveRulesToDisk
    cases saved : answers.saved with
    | ok _ => exact .inl rfl
    | error error =>
      have unsaved : answers.saved ≠ .ok () := by simp [saved]
      obtain ⟨message, ends, restored | faulted⟩ := rollBack_spec between
        (unresolved _ fun unreverted => .inr ⟨unsaved, unreverted⟩)
      · exact .inr ⟨message, ends, .inl ⟨by simp, restored⟩⟩
      · exact .inr ⟨message, ends, .inr faulted⟩

def ManagedHelper.adopt (helper : ManagedHelper) (newRules : List AppProxyRule)
    (update : StagedUpdate) (version : Nat) : ManagedHelper :=
  { helper with
    process := ⟨update.compiled, update.groups, version⟩
    effectiveRulesVersion := version
    rules := update.compiled
    extraListeners := update.listeners.filter fun entry =>
      entry.1 ≠ helper.strategyGroup ∧ entry.1 ∈ requiredGroups newRules helper.strategyGroup }

theorem get_adopt (helper : ManagedHelper) (newRules : List AppProxyRule) (update : StagedUpdate)
    (version : Nat) (group : String) :
    get (helper.adopt newRules update version).extraListeners group =
      if group ≠ helper.strategyGroup ∧ group ∈ requiredGroups newRules helper.strategyGroup then
        get update.listeners group else none := by
  rw [ManagedHelper.adopt]
  refine (get_filter update.listeners (fun key => decide (key ≠ helper.strategyGroup ∧
    key ∈ requiredGroups newRules helper.strategyGroup)) group).trans ?_
  simp only [decide_eq_true_eq]

variable {desired : List ManagedListenerSpec}

section

variable (managed : Managed helper desired)
include managed

theorem Managed.mem_adopt
    (prepared : Prepared helper newRules update) (version : Nat) (group : String) :
    group ∈ keys (helper.adopt newRules update version).extraListeners ↔
      group ≠ "regular" ∧ Required newRules "regular" group := by
  have found := get_adopt helper newRules update version group
  rw [managed.shaped.regular] at found
  rw [mem_keys_iff, found, ← mem_requiredGroups]
  by_cases needed : group ≠ "regular" ∧ group ∈ requiredGroups newRules "regular"
  · rw [if_pos needed, ← mem_keys_iff]
    exact ⟨fun _ => needed, fun _ => prepared.staged.covers group needed.2⟩
  · rw [if_neg needed]
    exact ⟨fun some => absurd rfl some, fun both => absurd both needed⟩

theorem Managed.shaped_adopt (prepared : Prepared helper newRules update) (version : Nat) :
    Shaped (helper.adopt newRules update version) := by
  refine ⟨managed.shaped.regular, ?_, fun inside => ?_⟩
  · exact prepared.staged.sorted.sublist (List.filter_sublist.map Prod.fst)
  · exact ((managed.mem_adopt prepared version "regular").mp inside).1 rfl

theorem Managed.adopt_agrees
    (prepared : Prepared helper newRules update) (version : Nat) (name : String)
    (required : Required newRules "regular" name) :
    get ((helper.adopt newRules update version).oldListeners none) name =
      get update.listeners name := by
  have found := get_adopt helper newRules update version name
  rw [managed.shaped.regular] at found
  rw [(managed.shaped_adopt prepared version).get_old, found]
  by_cases same : "regular" = name
  · subst same
    have known : "regular" ∈ keys (helper.oldListeners none) :=
      (managed.shaped.mem_old "regular").mpr (.inl rfl)
    rw [if_pos rfl, prepared.staged.kept _ known, managed.shaped.get_old, if_pos rfl]
    rfl
  · rw [if_neg same, if_pos ⟨Ne.symm same, mem_requiredGroups.mpr required⟩]

theorem Managed.adopt (prepared : Prepared helper newRules update) (version : Nat) :
    Managed (helper.adopt newRules update version)
      (helper.primary :: (helper.adopt newRules update version).extraListeners.map (·.2)) := by
  refine ⟨managed.shaped_adopt prepared version, managed.healthy, fun group => ?_, ?_, rfl, rfl,
    List.Perm.refl _⟩
  · rw [managed.mem_adopt prepared version, and_congr_right_iff]
    exact fun _ => (required_alike (compileRules_alike prepared.compiled)).symm
  · exact compileRules_again prepared.compiled (managed.adopt_agrees prepared version)

theorem kept_or_obsolete (prepared : Prepared helper newRules update) (version : Nat) :
    ∀ name ∈ helper.listenerNames ++ update.names,
      name ∈ (helper.adopt newRules update version).listenerNames ∨
      name ∈ ((helper.oldListeners none).filter fun entry => entry.1 ≠ "regular" ∧
        contains (helper.adopt newRules update version).extraListeners entry.1 = false).map
          (·.2.name) := by
  have found := get_adopt helper newRules update version
  rw [managed.shaped.regular] at found
  have joins : ∀ group spec, group ≠ "regular" → group ∈ requiredGroups newRules "regular" →
      get update.listeners group = some spec →
      spec.name ∈ (helper.adopt newRules update version).listenerNames := by
    intro group spec other needed is_
    have kept : get (helper.adopt newRules update version).extraListeners group = some spec := by
      rw [found, if_pos ⟨other, needed⟩, is_]
    exact List.mem_cons_of_mem _ (List.mem_map.mpr ⟨(group, spec), mem_of_get kept, rfl⟩)
  intro name is_
  rcases List.mem_append.mp is_ with had | staged
  · rcases List.mem_cons.mp had with rfl | extra
    · exact .inl (List.mem_cons_self ..)
    · obtain ⟨⟨group, spec⟩, inside, rfl⟩ := List.mem_map.mp extra
      have old : (group, spec) ∈ helper.oldListeners none :=
        managed.shaped.old_perm.mem_iff.mpr (List.mem_cons_of_mem _ inside)
      have at_ : get (helper.oldListeners none) group = some spec :=
        (get_eq_some_iff (old_sorted helper none).distinct group spec).mpr old
      have known : group ∈ keys (helper.oldListeners none) := List.mem_map_of_mem old
      have other : group ≠ "regular" := by
        rintro rfl
        exact managed.shaped.apart (List.mem_map_of_mem inside)
      by_cases needed : group ∈ requiredGroups newRules "regular"
      · exact .inl (joins group spec other needed ((prepared.staged.kept group known).trans at_))
      · refine .inr (List.mem_map.mpr ⟨(group, spec), List.mem_filter.mpr ⟨old, ?_⟩, rfl⟩)
        refine decide_eq_true ⟨other, ?_⟩
        simp only [contains, found, if_neg (fun both => needed both.2 : ¬ (group ≠ "regular" ∧
          group ∈ requiredGroups newRules "regular")), Option.isSome_none]
  · obtain ⟨spec, new, rfl⟩ := List.mem_map.mp staged
    obtain ⟨group, needed, unknown, at_⟩ := prepared.staged.grouped spec new
    have other : group ≠ "regular" := by
      rintro rfl
      exact unknown ((managed.shaped.mem_old "regular").mpr (.inl rfl))
    exact .inl (joins group spec other needed at_)

end

/-- The rules are the new ones, and the helper is as well managed as before. -/
structure Adopted (helper : ManagedHelper) (newRules : List AppProxyRule) (update : StagedUpdate)
    (version : Nat) (state next : State) : Prop where
  inner : next.inner = some (helper.adopt newRules update version)
  desired : next.desiredListener =
    helper.primary :: (helper.adopt newRules update version).extraListeners.map (·.2)
  rules : next.rules = newRules
  rulesFile : next.rulesFile = newRules
  gone : ∀ name ∈ helper.listenerNames ++ update.names,
    name ∈ (helper.adopt newRules update version).listenerNames ∨ name ∉ listenerNames next.config
  extends_ : Extends update.names state next

/-- The rules are the new ones, and a listener they do not need is still there. -/
structure Unretired (newRules : List AppProxyRule) (answers : UpdateAnswers) (next : State) :
    Prop where
  inner : ∃ failing, next.inner = some failing ∧ failing.failed = true
  refused : ∃ answer ∈ answers.removed, RuntimeAnswer.taken answer = false
  rules : next.rules = newRules
  rulesFile : next.rulesFile = newRules
  unremoved : next.unremoved ≠ []

theorem adoptRules_spec (answers : UpdateAnswers) (managed : Managed helper desired)
    (prepared : Prepared helper newRules update) {version : Nat}
    (between : Between { helper with process := ⟨update.compiled, update.groups, version⟩ } update
      state middle) :
    let result := { middle with rulesFile := newRules }.adoptRules helper newRules answers update
      version
    (result.2 = .ok () ∧ Adopted helper newRules update version state result.1) ∨
      ∃ message, result.2 = .error message ∧ Unretired newRules answers result.1 := by
  have primary : get update.oldListeners helper.strategyGroup = some helper.primary := by
    rw [prepared.oldListeners, managed.shaped.get_old, managed.shaped.regular, if_pos rfl]
  let adopted := helper.adopt newRules update version
  let begun : State := { middle with
    rulesFile := newRules
    rules := newRules
    inner := some adopted
    desiredListener := helper.primary :: adopted.extraListeners.map (·.2) }
  let obsolete := (update.oldListeners.filter fun entry => entry.1 ≠ helper.strategyGroup ∧
    contains adopted.extraListeners entry.1 = false).map (·.2.name)
  have frame := State.removeListeners_frame answers.removed obsolete begun
  have shrinks := removeListeners_extends begun update.names answers.removed obsolete
  obtain ⟨gone, recorded⟩ := removeListeners_gone begun answers.removed obsolete
  have refused := removeListeners_refused begun answers.removed obsolete
  dsimp only
  unfold State.adoptRules
  simp only [primary, State.withHelper, between.inner, Option.map_some]
  split <;> rename_i last _ ends <;>
    (change State.removeListeners answers.removed obsolete begun = _ at ends
     rw [ends] at frame shrinks gone recorded refused)
  · refine .inr ⟨_, rfl, ⟨{ adopted with failed := true }, ?_, rfl⟩, refused _ rfl, frame.rules,
      frame.rulesFile, recorded _ rfl⟩
    have inner : last.inner = some adopted := frame.inner
    simp [State.fail, State.withHelper, inner]
  · refine .inl ⟨rfl, frame.inner, frame.desiredListener, frame.rules, frame.rulesFile, ?_,
      between.extends_.trans ⟨shrinks.configured, shrinks.listed, shrinks.unremoved⟩⟩
    intro name known
    rcases kept_or_obsolete managed prepared version name known with kept | old
    · exact .inl kept
    · refine .inr (gone rfl name ?_)
      rw [← managed.shaped.regular, ← prepared.oldListeners] at old
      exact old

inductive Updated (helper : ManagedHelper) (newRules : List AppProxyRule) (answers : UpdateAnswers)
    (state : State) : State → Except String Unit → Prop
  | refused (message : String) : Updated helper newRules answers state state (.error message)
  | restored (update : StagedUpdate) (next : State) (message : String)
      (prepares : state.prepareUpdate helper newRules answers = .ok update)
      (prepared : Prepared helper newRules update) (restored : Restored helper update state next) :
      Updated helper newRules answers state next (.error message)
  | reverted (update : StagedUpdate) (next : State) (message : String) (oldVersion : Nat)
      (prepares : state.prepareUpdate helper newRules answers = .ok update)
      (prepared : Prepared helper newRules update) (unsaved : answers.saved ≠ .ok ())
      (restored : Restored (helper.revert update oldVersion) update state next) :
      Updated helper newRules answers state next (.error message)
  | faulted (update : StagedUpdate) (next : State) (message : String)
      (prepares : state.prepareUpdate helper newRules answers = .ok update)
      (faulted : Faulted helper update (Reaches state answers update ∧
        Unresolved helper answers update) state next) :
      Updated helper newRules answers state next (.error message)
  | unretired (next : State) (message : String) (unretired : Unretired newRules answers next) :
      Updated helper newRules answers state next (.error message)
  | adopted (update : StagedUpdate) (next : State) (version : Nat)
      (prepares : state.prepareUpdate helper newRules answers = .ok update)
      (prepared : Prepared helper newRules update)
      (adopted : Adopted helper newRules update version state next) :
      Updated helper newRules answers state next (.ok ())

theorem updateRules_updated (managed : Managed helper state.desiredListener)
    (inner : state.inner = some helper) :
    Updated helper newRules answers state (state.updateRules helper newRules answers).1
      (state.updateRules helper newRules answers).2 := by
  unfold State.updateRules
  cases prepares : state.prepareUpdate helper newRules answers with
  | error message => exact .refused message
  | ok update =>
    have prepared := prepareUpdate_ok managed prepares
    have publishing := publishRules_spec answers update inner
    dsimp only at publishing ⊢
    cases publishes : state.publishRules helper answers update with
    | mk middle result =>
      rw [publishes] at publishing
      obtain ⟨version, rfl, published, reaches, between⟩ |
        ⟨message, rfl, restored | faulted⟩ := publishing
      · have persisting := persistRules_spec newRules published between
        obtain ⟨accepted, -⟩ := applyRulesToHelper_cases answers.publication helper.process
          update.compiled update.groups helper.effectiveRulesVersion
        dsimp only at persisting ⊢
        cases persists : middle.persistRules helper newRules answers update version with
        | mk later result =>
          rw [persists] at persisting
          obtain saved | ⟨message, rfl, ⟨unsaved, oldVersion, restored⟩ | faulted⟩ := persisting
          · cases saved
            rw [accepted version published] at between
            have adopting := adoptRules_spec answers managed prepared between
            dsimp only at adopting ⊢
            obtain ⟨succeeds, adopted⟩ | ⟨message, fails, unretired⟩ := adopting
            · rw [succeeds]
              exact .adopted update _ version prepares prepared adopted
            · rw [fails]
              exact .unretired _ message unretired
          · exact .reverted update later message oldVersion prepares prepared unsaved restored
          · exact .faulted update later message prepares
              (faulted.mono (fun unresolved => ⟨reaches, unresolved⟩) rfl)
      · exact .restored update middle message prepares prepared restored
      · exact .faulted update middle message prepares faulted

end

end ClashVerge.AppProxy
