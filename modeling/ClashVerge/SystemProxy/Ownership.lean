import ClashVerge.SystemProxy.Sysopt

/-!
# Who owns the system proxy

A disabling write is issued only while the settings are the ones recorded as owned, and only what
was read back after a confirmed write is recorded. A call that fails after its writes, or whose
settings turn out to be different ones, leaves settings of this process that are not recorded, and
then nothing turns them off.
-/

namespace ClashVerge.SystemProxy

/-- All setters of an update went through. -/
def UpdateAnswers.applies (answers : UpdateAnswers) (target : ProxyState) : Bool :=
  answers.unfinished.isNone && (applySteps target answers).2.isOk

namespace Instance

variable (process : Instance)

/-- The state that a failed write leaves, after the compensation if there is one. -/
def compensated (answers : UpdateAnswers) (error : Option SetError) (earlierStepCompleted : Bool)
    (left : ProxyState) : ProxyState :=
  match authoritativeState process.platform error earlierStepCompleted with
  | .unchanged => left
  | .unknown => answers.compensation.2.left

def updateLeaves (answers : UpdateAnswers) (target : ProxyState) : ProxyState :=
  match answers.unfinished with
  | some (_, left) => process.compensated answers none false left
  | none =>
    match (applySteps target answers).2 with
    | .error (earlierStepCompleted, error) =>
      process.compensated answers (some error) earlierStepCompleted (applySteps target answers).1
    | .ok () => (applySteps target answers).1

def updateTarget (request : Request) (answers : UpdateAnswers) (state : State) :
    Option ProxyState :=
  if process.writesDisabled then none
  else
    match request.embeddedServerPort with
    | .error _ => none
    | .ok pacPort =>
      let target := request.target pacPort
      if target.off ∧ state.owned ≠ some state.os then none
      else if answers.before.isSome then none
      else if process.platform = .macos ∧ answers.drained ∧ answers.alreadyApplied then none
      else some target

end Instance

variable {process : Instance}

/-- What an update does to the settings and to what is known of them. -/
inductive Updated (process : Instance) (request : Request) (answers : UpdateAnswers)
    (state next : State) : Prop where
  | skipped (unwritten : process.updateTarget request answers state = none)
      (os : next.os = state.os)
      (owned : next.owned = state.owned ∨ state.owned ≠ some state.os ∧ next.owned = none)
      (writes : next.writes = state.writes) (confirmed : next.confirmed = state.confirmed)
  | failed (target : ProxyState) (more : List Write)
      (written : process.updateTarget request answers state = some target)
      (fails : answers.applies target = false)
      (os : next.os = process.updateLeaves answers target) (owned : next.owned = state.owned)
      (writes : next.writes = state.writes ++ ⟨.update, target, state.os, state.owned⟩ :: more)
      (compensates : ∀ write ∈ more, write.purpose = .compensation)
      (confirmed : next.confirmed = state.confirmed)
  | cleared (target : ProxyState)
      (written : process.updateTarget request answers state = some target)
      (applies : answers.applies target = true) (off : target.off = true)
      (os : next.os = process.updateLeaves answers target) (owned : next.owned = none)
      (writes : next.writes = state.writes ++ [⟨.update, target, state.os, state.owned⟩])
      (confirmed : next.confirmed = state.confirmed)
  | unconfirmed (target : ProxyState)
      (written : process.updateTarget request answers state = some target)
      (applies : answers.applies target = true) (on : target.off = false)
      (unread : answers.after.isSome ∨
        enabledProxyTargetMatches (process.updateLeaves answers target) target = false)
      (os : next.os = process.updateLeaves answers target) (owned : next.owned = state.owned)
      (writes : next.writes = state.writes ++ [⟨.update, target, state.os, state.owned⟩])
      (confirmed : next.confirmed = state.confirmed)
  | confirmed (target : ProxyState)
      (written : process.updateTarget request answers state = some target)
      (applies : answers.applies target = true) (on : target.off = false)
      (found : enabledProxyTargetMatches (process.updateLeaves answers target) target = true)
      (os : next.os = process.updateLeaves answers target)
      (owned : next.owned = if state.owned.isSome ∨ state.os ≠ target then
        some (process.updateLeaves answers target) else state.owned)
      (writes : next.writes = state.writes ++ [⟨.update, target, state.os, state.owned⟩])
      (confirmed : next.confirmed =
        state.confirmed ++ [⟨target, process.updateLeaves answers target⟩])

variable (process) in
theorem recoverFromFailedWrite_leaves (target observed : ProxyState) (answers : UpdateAnswers)
    (error : Option SetError) (message : String) (earlier running : Bool) (state : State) :
    let recovered :=
      (process.recoverFromFailedWrite target observed answers error message earlier running state).1
    recovered.os = process.compensated answers error earlier state.os ∧
      recovered.owned = state.owned ∧ recovered.confirmed = state.confirmed ∧
      ∃ more, recovered.writes = state.writes ++ more ∧
        ∀ write ∈ more, write.purpose = .compensation := by
  unfold Instance.recoverFromFailedWrite Instance.compensated
  cases authoritativeState process.platform error earlier with
  | unchanged => exact ⟨rfl, rfl, rfl, [], by simp, by simp⟩
  | unknown => exact ⟨rfl, rfl, rfl, _, rfl, by simp⟩

variable {answers : UpdateAnswers} {request : Request}

theorem apply_updated {state entered : State}
    {target : ProxyState} (guardType : GuardType) (running : Bool)
    (written : process.updateTarget request answers state = some target)
    (owned : entered.owned = state.owned) (writes : entered.writes = state.writes)
    (confirmed : entered.confirmed = state.confirmed) :
    Updated process request answers state
      (process.apply target state.os guardType answers running entered).1 := by
  unfold Instance.apply
  split
  · rename_i message left unfinished
    obtain ⟨os, kept, known, more, more', compensates⟩ := recoverFromFailedWrite_leaves
      process target state.os answers none (unfinishedText message) false running
      (entered.write .update target state.os left)
    refine .failed target more written (by simp [UpdateAnswers.applies, unfinished]) ?_
      (kept.trans owned) ?_ compensates (known.trans confirmed)
    · rw [os]
      simp [Instance.updateLeaves, unfinished, State.write]
    · rw [more']
      simp [State.write, writes, owned]
  · rename_i finished
    dsimp only
    split
    · rename_i earlier error failed
      obtain ⟨os, kept, known, more, more', compensates⟩ := recoverFromFailedWrite_leaves
        process target state.os answers (some error) error.message earlier running
        (entered.write .update target state.os (applySteps target answers).1)
      refine .failed target more written ?_ ?_ (kept.trans owned) ?_ compensates
        (known.trans confirmed)
      · simp [UpdateAnswers.applies, failed, Except.isOk, Except.toBool]
      · rw [os]
        simp [Instance.updateLeaves, finished, failed, State.write]
      · rw [more']
        simp [State.write, writes, owned]
    · rename_i went
      have applies : answers.applies target = true := by
        simp [UpdateAnswers.applies, finished, went, Except.isOk, Except.toBool]
      have leaves : (applySteps target answers).1 = process.updateLeaves answers target := by
        simp [Instance.updateLeaves, finished, went]
      unfold Instance.confirm
      split
      · rename_i off
        refine .cleared target written applies off leaves rfl ?_ confirmed
        simp [State.write, State.setGuardType, writes, owned]
      · rename_i on
        rw [Bool.not_eq_true] at on
        split
        · rename_i message unread
          refine .unconfirmed target written applies on (.inl (by simp [unread])) leaves owned ?_
            confirmed
          simp [State.write, writes, owned]
        · split
          · rename_i found
            refine .confirmed target written applies on (leaves ▸ found) ?_ ?_ ?_ ?_
            all_goals
              dsimp only
              split <;> simp_all [State.write, State.setGuardType]
          · rename_i other
            refine .unconfirmed target written applies on (.inr ?_) leaves owned ?_ confirmed
            · rw [← leaves]
              simpa [State.write] using other
            · simp [State.write, writes, owned]

variable (process) in
theorem updateSysproxy_updated (request : Request) (answers : UpdateAnswers) (state : State) :
    Updated process request answers state (process.updateSysproxy request answers state).1 := by
  unfold Instance.updateSysproxy
  split
  · rename_i disabled
    exact .skipped (by simp [Instance.updateTarget, disabled]) rfl (.inl rfl) rfl rfl
  · rename_i enabled
    split
    · rename_i message port
      exact .skipped (by simp [Instance.updateTarget, port]) rfl (.inl rfl) rfl rfl
    · rename_i pacPort port
      dsimp only
      split
      · rename_i unowned
        rw [Bool.and_eq_true, Option.isNone_iff_eq_none] at unowned
        refine .skipped ?_ rfl (.inl rfl) rfl rfl
        simp [Instance.updateTarget, port, unowned]
      · split
        · rename_i message unread
          exact .skipped (by simp [Instance.updateTarget, port, unread]) rfl (.inl rfl) rfl rfl
        · rename_i read
          split
          · rename_i foreign
            rw [Bool.and_eq_true, decide_eq_true_eq] at foreign
            refine .skipped ?_ rfl (.inr ⟨foreign.2, rfl⟩) rfl rfl
            simp [Instance.updateTarget, port, foreign]
          · rename_i ownedOrOn
            rw [Bool.and_eq_true, decide_eq_true_eq] at ownedOrOn
            split
            · rename_i applied
              refine .skipped ?_ rfl (.inl rfl) rfl rfl
              simp [Instance.updateTarget, port, applied]
            · rename_i unapplied
              refine apply_updated _ _ ?_ rfl rfl rfl
              simp only [Instance.updateTarget, port, enabled, read, Bool.false_eq_true, if_false,
                Option.isSome_none, if_neg unapplied]
              rw [if_neg ownedOrOn]

/-- The writes of a reset went through. -/
def ResetAnswers.succeeds (answers : ResetAnswers) : Bool :=
  (disableAllProxies answers.first).2.isOk &&
    (answers.drained || (disableAllProxies answers.second).2.isOk)

def ResetAnswers.leaves (answers : ResetAnswers) : ProxyState :=
  if (disableAllProxies answers.first).2.isOk && !answers.drained then
    (disableAllProxies answers.second).1
  else (disableAllProxies answers.first).1

def Instance.resetWrites (process : Instance) (answers : ResetAnswers) (state : State) : Bool :=
  !process.writesDisabled && !answers.underWay && decide (state.owned = some state.os) &&
    answers.before.isNone &&
    !decide (process.platform = .macos ∧ answers.drained ∧ answers.alreadyApplied)

/-- What a reset does to the settings and to what is known of them. -/
inductive WasReset (process : Instance) (answers : ResetAnswers) (state next : State) : Prop where
  | skipped (unwritten : process.resetWrites answers state = false) (os : next.os = state.os)
      (owned : next.owned = state.owned ∨ state.owned ≠ some state.os ∧ next.owned = none)
      (writes : next.writes = state.writes) (confirmed : next.confirmed = state.confirmed)
  | written (more : List Write) (written : process.resetWrites answers state = true)
      (os : next.os = answers.leaves)
      (owned : next.owned = if answers.succeeds then none else state.owned)
      (writes : next.writes = state.writes ++ more)
      (own : ∀ write ∈ more, write.observed = state.os ∧ write.owned = some state.os)
      (confirmed : next.confirmed = state.confirmed)

theorem disable_leaves (target observed : ProxyState) (answers : ResetAnswers) (state : State) :
    let disabled := Instance.disable target observed answers state
    disabled.1.os = answers.leaves ∧ disabled.2.isOk = answers.succeeds ∧
      disabled.1.owned = state.owned ∧ disabled.1.confirmed = state.confirmed ∧
      ∃ more, disabled.1.writes = state.writes ++ more ∧
        ∀ write ∈ more, write.observed = observed ∧ write.owned = state.owned := by
  unfold Instance.disable ResetAnswers.leaves ResetAnswers.succeeds
  have once : ∀ write ∈ [Write.mk .reset target observed state.owned],
      write.observed = observed ∧ write.owned = state.owned := by simp
  dsimp only
  cases first : (disableAllProxies answers.first).2 with
  | error failure => exact ⟨rfl, rfl, rfl, rfl, _, rfl, once⟩
  | ok =>
    cases answers.drained with
    | true => exact ⟨rfl, rfl, rfl, rfl, _, rfl, once⟩
    | false =>
      refine ⟨rfl, rfl, rfl, rfl, _, List.append_assoc _ _ _, fun write member => ?_⟩
      exact (List.mem_append.mp member).elim (once write) (once write)

variable (process) in
theorem resetSysproxy_wasReset (answers : ResetAnswers) (state : State) :
    WasReset process answers state (process.resetSysproxy answers state).1 := by
  unfold Instance.resetSysproxy
  split
  · rename_i disabled
    exact .skipped (by simp [Instance.resetWrites, disabled]) rfl (.inl rfl) rfl rfl
  · rename_i enabled
    split
    · rename_i underWay
      exact .skipped (by simp [Instance.resetWrites, underWay]) rfl (.inl rfl) rfl rfl
    · rename_i alone
      split
      · rename_i unowned
        exact .skipped (by simp [Instance.resetWrites, unowned]) rfl (.inl rfl) rfl rfl
      · split
        · rename_i message unread
          exact .skipped (by simp [Instance.resetWrites, unread]) rfl (.inl rfl) rfl rfl
        · rename_i read
          dsimp only
          split
          · rename_i foreign
            exact .skipped (by simp [Instance.resetWrites, foreign]) rfl (.inr ⟨foreign, rfl⟩) rfl
              rfl
          · rename_i own
            rw [ne_eq, not_not] at own
            split
            · rename_i applied
              exact .skipped (by simp [Instance.resetWrites, applied]) rfl (.inl rfl) rfl rfl
            · rename_i unapplied
              have written : process.resetWrites answers state = true := by
                rw [Bool.not_eq_true] at enabled alone
                simp only [Instance.resetWrites, enabled, alone, own, read, Option.isNone_none,
                  unapplied, decide_true, decide_false, Bool.not_false, Bool.and_self]
              obtain ⟨os, succeeds, owned, confirmed, more, writes, each⟩ := disable_leaves
                state.inner.turnedOff state.os answers
                { state.stopGuard with inner := state.inner.turnedOff }
              refine .written more written ?_ ?_ ?_ (fun write member => ?_) ?_
              · split <;> exact os
              · split
                · rename_i went
                  rw [went] at succeeds
                  rw [← succeeds]
                  rfl
                · rename_i failure failed
                  rw [failed] at succeeds
                  rw [← succeeds]
                  exact owned
              · split <;> exact writes
              · obtain ⟨observed, recorded⟩ := each write member
                exact ⟨observed, recorded.trans own⟩
              · split <;> exact confirmed

/-- Disabling writes were issued for owned settings, and those were read back and confirmed. -/
structure Careful (state : State) : Prop where
  disabling : ∀ write ∈ state.writes, write.purpose ≠ .compensation → write.target.off = true →
    write.owned = some write.observed
  recorded : ∀ owned, state.owned = some owned → ∃ confirmation ∈ state.confirmed,
    confirmation.readback = owned ∧ confirmation.target.off = false ∧
      enabledProxyTargetMatches owned confirmation.target = true
  issued : ∀ confirmation ∈ state.confirmed, ∃ write ∈ state.writes,
    write.purpose = .update ∧ write.target = confirmation.target

theorem careful_new (os : ProxyState) : Careful (State.new os) :=
  ⟨by simp [State.new], by simp [State.new], by simp [State.new]⟩

theorem updateTarget_owned {state : State}
    {target : ProxyState} (written : process.updateTarget request answers state = some target)
    (off : target.off = true) : state.owned = some state.os := by
  unfold Instance.updateTarget at written
  split at written
  · contradiction
  · split at written
    · contradiction
    · dsimp only at written
      split at written
      · contradiction
      · rename_i ownedOrOn
        split at written
        · contradiction
        · split at written
          · contradiction
          · cases written
            by_contra other
            exact ownedOrOn ⟨off, other⟩

variable {state next : State}

/-- More writes and confirmations keep the state careful, if the writes are and what is recorded has
been confirmed. -/
theorem Careful.extend (careful : Careful state) {more : List Write}
    (writes : next.writes = state.writes ++ more)
    (disabling : ∀ write ∈ more, write.purpose ≠ .compensation → write.target.off = true →
      write.owned = some write.observed)
    (confirmed : next.confirmed = state.confirmed)
    (owned : next.owned = none ∨ next.owned = state.owned) : Careful next where
  disabling write member := by
    rw [writes, List.mem_append] at member
    obtain before | after := member
    · exact careful.disabling write before
    · exact disabling write after
  recorded settings is_ := by
    obtain none | same := owned
    · rw [none] at is_
      contradiction
    · rw [confirmed]
      exact careful.recorded settings (same ▸ is_)
  issued confirmation member := by
    rw [confirmed] at member
    obtain ⟨write, issued, is_⟩ := careful.issued confirmation member
    exact ⟨write, by rw [writes]; exact List.mem_append_left _ issued, is_⟩

theorem Careful.updated (careful : Careful state)
    (updated : Updated process request answers state next) :
    Careful next := by
  have own : ∀ target, process.updateTarget request answers state = some target →
      target.off = true → state.owned = some state.os :=
    fun _ written off => updateTarget_owned written off
  cases updated with
  | skipped _ _ owned writes confirmed =>
    have unwritten : next.writes = state.writes ++ [] := by rw [writes, List.append_nil]
    refine careful.extend unwritten (by simp) confirmed ?_
    exact owned.elim .inr fun other => .inl other.2
  | failed target more written _ _ owned writes compensates confirmed =>
    refine careful.extend writes (fun write member => ?_) confirmed (.inr owned)
    obtain rfl | later := List.mem_cons.mp member
    · exact fun _ off => own target written off
    · exact fun other => absurd (compensates write later) other
  | cleared target written _ _ _ owned writes confirmed =>
    refine careful.extend writes (fun write member => ?_) confirmed (.inl owned)
    obtain rfl := List.mem_singleton.mp member
    exact fun _ off => own target written off
  | unconfirmed target written _ _ _ _ owned writes confirmed =>
    refine careful.extend writes (fun write member => ?_) confirmed (.inr owned)
    obtain rfl := List.mem_singleton.mp member
    exact fun _ off => own target written off
  | confirmed target written _ on found _ owned writes confirmed =>
    refine ⟨fun write member => ?_, fun settings is_ => ?_, fun confirmation member => ?_⟩
    · rw [writes, List.mem_append, List.mem_singleton] at member
      obtain before | rfl := member
      · exact careful.disabling write before
      · exact fun _ off => own target written off
    · rw [owned] at is_
      rw [confirmed]
      split at is_
      · cases is_
        exact ⟨_, List.mem_append_right _ (List.mem_singleton_self _), rfl, on, found⟩
      · obtain ⟨confirmation, member, is_⟩ := careful.recorded settings is_
        exact ⟨confirmation, List.mem_append_left _ member, is_⟩
    · rw [writes]
      rw [confirmed, List.mem_append, List.mem_singleton] at member
      obtain before | rfl := member
      · obtain ⟨write, issued, is_⟩ := careful.issued confirmation before
        exact ⟨write, List.mem_append_left _ issued, is_⟩
      · exact ⟨_, List.mem_append_right _ (List.mem_singleton_self _), rfl, rfl⟩

theorem Careful.wasReset (careful : Careful state) {answers : ResetAnswers}
    (reset : WasReset process answers state next) : Careful next := by
  cases reset with
  | skipped _ _ owned writes confirmed =>
    have unwritten : next.writes = state.writes ++ [] := by rw [writes, List.append_nil]
    refine careful.extend unwritten (by simp) confirmed ?_
    exact owned.elim .inr fun other => .inl other.2
  | written more _ _ owned writes own confirmed =>
    refine careful.extend writes (fun write member _ _ => ?_) confirmed ?_
    · rw [(own write member).1]
      exact (own write member).2
    · rw [owned]
      split
      · exact .inl rfl
      · exact .inr rfl

theorem Careful.after {state : State} (careful : Careful state) (action : Action) :
    Careful (process.after state action) := by
  cases action with
  | update request answers =>
    have next := careful.updated (updateSysproxy_updated process request answers state)
    exact ⟨next.disabling, next.recorded, next.issued⟩
  | reset answers =>
    have next := careful.wasReset (resetSysproxy_wasReset process answers state)
    exact ⟨next.disabling, next.recorded, next.issued⟩
  | foreign os => exact ⟨careful.disabling, careful.recorded, careful.issued⟩

/-- A write that turns both kinds off, other than to compensate a partial one, is issued while the
settings just read are those recorded as owned. What is recorded was read back after an enabling
write of this process, and it was the target of that write. -/
theorem disabling_writes_owned {os : ProxyState} {actions : List Action} {final : State}
    (ran : Transition.run process.step (State.new os) actions = some final) :
    (∀ write ∈ final.writes, write.purpose ≠ .compensation → write.target.off = true →
      write.owned = some write.observed) ∧
    ∀ owned, final.owned = some owned → ∃ confirmation ∈ final.confirmed,
      confirmation.readback = owned ∧ enabledProxyTargetMatches owned confirmation.target = true ∧
      confirmation.target.off = false ∧ ∃ write ∈ final.writes,
        write.purpose = .update ∧ write.target = confirmation.target := by
  have careful : Careful final := by
    refine Transition.run_invariant (fun state action next careful taken => ?_) (careful_new os) ran
    cases taken
    exact careful.after action
  refine ⟨careful.disabling, fun owned is_ => ?_⟩
  obtain ⟨confirmation, member, readback, on, found⟩ := careful.recorded owned is_
  exact ⟨confirmation, member, readback, found, on, careful.issued confirmation member⟩

/-- An update that finds the system proxy enabled or disabled in the configuration. -/
def exampleRequest (enable : Bool) : Request where
  enableSystemProxy := some enable
  proxyAutoConfig := none
  proxyHost := none
  enableProxyGuard := none
  port := 7897
  bypass := "localhost"
  embeddedServerPort := .ok 33333

def exampleTarget (enable : Bool) : ProxyState := (exampleRequest enable).target 33333

/-- The setters succeed and leave a state, and the readback is given. -/
def exampleAnswers (left : ProxyState) (after : Option String) : UpdateAnswers where
  before := none
  drained := true
  alreadyApplied := false
  unfinished := none
  first := ⟨none, left⟩
  second := ⟨none, left⟩
  compensation := (⟨none, left⟩, ⟨none, left⟩)
  guardRestarts := true
  after := after

def exampleUpdate (enable : Bool) (after : Option String) : Action :=
  .update (exampleRequest enable) (exampleAnswers (exampleTarget enable) after)

def exampleInstance : Instance := ⟨.windows, false⟩

theorem disabling_writes_owned_twice : ∃ final,
    Transition.run exampleInstance.step (State.new .default)
      [exampleUpdate true none, exampleUpdate false none] = some final ∧
    final.writes.length = 2 ∧ final.os = exampleTarget false ∧
    ∀ write ∈ final.writes, write.purpose ≠ .compensation → write.target.off = true →
      write.owned = some write.observed := by
  have ran : ∃ final, Transition.run exampleInstance.step (State.new .default)
      [exampleUpdate true none, exampleUpdate false none] = some final ∧
      final.writes.length = 2 ∧ final.os = exampleTarget false := ⟨_, rfl, by decide, by decide⟩
  obtain ⟨final, ran, writes, os⟩ := ran
  exact ⟨final, ran, writes, os, (disabling_writes_owned ran).1⟩

/-- No other process changes the settings; if the call writes, it leaves both kinds off, or, if not
all of it went through, the settings it found, or, if it enables a kind, the settings it found or
those that it then reads back, finds to be its target, and has a reason to record. -/
def Instance.settles (process : Instance) (state : State) : Action → Bool
  | .update request answers =>
    match process.updateTarget request answers state with
    | none => true
    | some target =>
      let left := process.updateLeaves answers target
      left.off || (!(answers.applies target && target.off) && decide (left = state.os)) ||
        (!target.off && answers.applies target && answers.after.isNone &&
          enabledProxyTargetMatches left target &&
          (state.owned.isSome || decide (state.os ≠ target)))
  | .reset answers =>
    !process.resetWrites answers state || answers.leaves.off ||
      (!answers.succeeds && decide (answers.leaves = state.os))
  | .foreign _ => false

/-- A call that is to turn both kinds off, and whose readings and writes succeed. -/
def State.cleared (state : State) : Action → Prop
  | .update request answers =>
    request.enableSystemProxy.getD false = false ∧ request.embeddedServerPort.isOk = true ∧
      answers.before = none ∧ (answers.alreadyApplied = true → state.os.off = true) ∧
      answers.unfinished = none ∧ answers.first.error = none ∧ answers.second.error = none ∧
      answers.second.left.off = true
  | .reset answers =>
    answers.underWay = false ∧ answers.before = none ∧
      (answers.alreadyApplied = true → state.os.off = true) ∧
      (∀ pair ∈ [answers.first, answers.second],
        pair.1.error = none ∧ pair.2.error = none ∧ pair.2.left.off = true)
  | .foreign _ => False

/-- Settings of this process are turned off by the next call that is to do so. -/
def Instance.NeverOrphaned (process : Instance) (state : State) : Prop :=
  state.ours = true → state.os.off = false →
    ∀ action, state.cleared action → (process.after state action).os.off = true

/-- Enabled settings of this process are recorded as owned. -/
structure Recorded (process : Instance) (state : State) : Prop where
  writing : state.ours = true → process.writesDisabled = false
  owned : state.ours = true → state.os.off = false → state.owned = some state.os

theorem updateTarget_writing {state : State}
    {target : ProxyState} (written : process.updateTarget request answers state = some target) :
    process.writesDisabled = false := by
  unfold Instance.updateTarget at written
  split at written
  · contradiction
  · rename_i enabled
    simpa using enabled

theorem Recorded.kept (recorded : Recorded process state) (os : next.os = state.os)
    (owned : next.owned = state.owned ∨ state.owned ≠ some state.os ∧ next.owned = none ∨
      next.owned = some next.os) :
    Recorded process { next with ours := state.ours || next.os ≠ state.os } := by
  have same : (state.ours || decide (next.os ≠ state.os)) = state.ours := by simp [os]
  refine ⟨fun ours => recorded.writing (same ▸ ours), fun ours on => ?_⟩
  have before := recorded.owned (same ▸ ours) (os ▸ on)
  obtain kept | ⟨other, -⟩ | now := owned
  · exact (kept.trans before).trans (congrArg some os.symm)
  · exact absurd before other
  · exact now

theorem Recorded.written (writing : process.writesDisabled = false)
    (owned : next.os.off = true ∨ next.owned = some next.os) :
    Recorded process { next with ours := state.ours || next.os ≠ state.os } := by
  refine ⟨fun _ => writing, fun _ on => ?_⟩
  obtain off | owned := owned
  · change next.os.off = false at on
    rw [off] at on
    contradiction
  · exact owned

theorem Recorded.after {state : State} (recorded : Recorded process state) {action : Action}
    (settles : process.settles state action = true) :
    Recorded process (process.after state action) := by
  cases action with
  | foreign os => contradiction
  | update request answers =>
    have updated := updateSysproxy_updated process request answers state
    simp only [Instance.settles] at settles
    cases updated with
    | skipped _ os owned => exact recorded.kept os (owned.imp_right .inl)
    | failed target more written fails os owned =>
      simp only [written, fails, Bool.false_and, Bool.and_false, Bool.not_false, Bool.true_and,
        Bool.or_false, Bool.or_eq_true, decide_eq_true_eq] at settles
      obtain off | found := settles
      · exact .written (updateTarget_writing written) (.inl (os ▸ off))
      · exact recorded.kept (os.trans found) (.inl owned)
    | cleared target written applies off os =>
      simp only [written, applies, off, Bool.and_self, Bool.not_true, Bool.false_and,
        Bool.or_false] at settles
      exact .written (updateTarget_writing written) (.inl (os ▸ settles))
    | unconfirmed target written applies on unread os owned =>
      simp only [written, applies, on, Bool.and_false, Bool.not_false, Bool.true_and,
        Bool.or_eq_true, Bool.and_eq_true, decide_eq_true_eq] at settles
      obtain (off | found) | ⟨⟨read, matches_⟩, -⟩ := settles
      · exact .written (updateTarget_writing written) (.inl (os ▸ off))
      · exact recorded.kept (os.trans found) (.inl owned)
      · -- The settings were read back, and were the target.
        rw [Option.isNone_iff_eq_none] at read
        simp [read, matches_] at unread
    | confirmed target written applies on found os owned =>
      simp only [written, applies, on, Bool.and_false, Bool.not_false, Bool.true_and,
        Bool.or_eq_true, Bool.and_eq_true, decide_eq_true_eq] at settles
      obtain (off | same) | ⟨-, reason⟩ := settles
      · exact .written (updateTarget_writing written) (.inl (os ▸ off))
      · refine recorded.kept (os.trans same) ?_
        split at owned
        · exact .inr (.inr (owned.trans (congrArg some os.symm)))
        · exact .inl owned
      · rw [if_pos reason] at owned
        exact .written (updateTarget_writing written) (.inr (owned.trans (congrArg some os.symm)))
  | reset answers =>
    have reset := resetSysproxy_wasReset process answers state
    simp only [Instance.settles, Bool.or_eq_true, Bool.not_eq_true', Bool.and_eq_true,
      decide_eq_true_eq] at settles
    cases reset with
    | skipped _ os owned => exact recorded.kept os (owned.imp_right .inl)
    | written more written os owned =>
      have writing : process.writesDisabled = false := by
        simp only [Instance.resetWrites, Bool.and_eq_true, Bool.not_eq_true'] at written
        exact written.1.1.1.1
      obtain (unwritten | off) | ⟨fails, found⟩ := settles
      · rw [written] at unwritten
        contradiction
      · exact .written writing (.inl (os ▸ off))
      · rw [fails] at owned
        exact recorded.kept (os.trans found) (.inl owned)

theorem update_clears {state : State}
    (writing : process.writesDisabled = false) (owned : state.owned = some state.os)
    (clears : state.cleared (.update request answers)) :
    (process.updateSysproxy request answers state).1.os.off = true := by
  obtain ⟨disables, port, read, applied, finished, first, second, off⟩ := clears
  have target_off : ∀ pacPort, (request.target pacPort).off = true := by
    intro pacPort
    simp [ProxyState.off, Request.target, disables]
  have leaves : ∀ target, process.updateLeaves answers target = answers.second.left := by
    intro target
    simp [Instance.updateLeaves, finished, applySteps, skipWithoutNetworkService, first, second]
  cases updateSysproxy_updated process request answers state with
  | skipped unwritten os =>
    cases given : request.embeddedServerPort with
    | error message => simp [given, Except.isOk, Except.toBool] at port
    | ok pacPort =>
      -- It skips its writes only when nothing is enabled.
      by_cases shortcut : process.platform = .macos ∧ answers.drained ∧ answers.alreadyApplied
      · rw [os]
        exact applied shortcut.2.2
      · simp [Instance.updateTarget, writing, given, owned, read, shortcut] at unwritten
  | failed target _ _ _ os | cleared target _ _ _ os | unconfirmed target _ _ _ _ os
  | confirmed target _ _ _ _ os =>
    rw [os, leaves]
    exact off

theorem reset_clears {state : State} {answers : ResetAnswers}
    (writing : process.writesDisabled = false) (owned : state.owned = some state.os)
    (clears : state.cleared (.reset answers)) :
    (process.resetSysproxy answers state).1.os.off = true := by
  obtain ⟨alone, read, applied, pairs⟩ := clears
  have disables : ∀ pair ∈ [answers.first, answers.second],
      (disableAllProxies pair).1.off = true := by
    intro pair member
    obtain ⟨global, pac, off⟩ := pairs pair member
    simpa [disableAllProxies, skipWithoutNetworkService, global, pac] using off
  cases resetSysproxy_wasReset process answers state with
  | skipped unwritten os =>
    by_cases shortcut : process.platform = .macos ∧ answers.drained ∧ answers.alreadyApplied
    · rw [os]
      exact applied shortcut.2.2
    · simp [Instance.resetWrites, writing, alone, owned, read, shortcut] at unwritten
  | written _ _ os =>
    rw [os, ResetAnswers.leaves]
    split
    · exact disables answers.second (by simp)
    · exact disables answers.first (by simp)

/-- In a run whose calls settle what they leave, settings that this process wrote are never
orphaned. -/
theorem settled_never_orphaned {os : ProxyState} {actions : List Action} {final : State}
    (settle : Transition.Meets process.step (fun state action => process.settles state action = true)
      (State.new os) actions)
    (ran : Transition.run process.step (State.new os) actions = some final) :
    process.NeverOrphaned final := by
  have recorded : Recorded process final := by
    refine Transition.run_invariant_of_meets (Recorded process)
      (fun state action next recorded settles taken => ?_) ?_ settle ran
    · cases taken
      exact recorded.after settles
    · exact ⟨by simp [State.new], by simp [State.new]⟩
  intro ours on action clears
  have owned := recorded.owned ours on
  have writing := recorded.writing ours
  cases action with
  | update request answers => exact update_clears writing owned clears
  | reset answers => exact reset_clears writing owned clears
  | foreign os => exact clears.elim

theorem settled_never_orphaned_enabled : ∃ final,
    Transition.run exampleInstance.step (State.new .default) [exampleUpdate true none] =
      some final ∧
    final.ours = true ∧ final.os.off = false ∧ exampleInstance.NeverOrphaned final := by
  have settle : Transition.Meets exampleInstance.step
      (fun state action => exampleInstance.settles state action = true) (State.new .default)
      [exampleUpdate true none] := by decide
  have ran : ∃ final, Transition.run exampleInstance.step (State.new .default)
      [exampleUpdate true none] = some final ∧ final.ours = true ∧ final.os.off = false :=
    ⟨_, rfl, by decide, by decide⟩
  obtain ⟨final, ran, ours, on⟩ := ran
  exact ⟨final, ran, ours, on, settled_never_orphaned settle ran⟩

/-- An enabling update whose writes succeed and whose readback fails leaves the proxy enabled and
nothing recorded: the update that is to turn it off does nothing. -/
theorem unread_update_orphans :
    ¬ ∀ (process : Instance) (os : ProxyState) (actions : List Action) (final : State),
      (∀ foreign, Action.foreign foreign ∉ actions) →
      Transition.run process.step (State.new os) actions = some final →
      process.NeverOrphaned final := by
  intro never
  have ran : ∃ final, Transition.run exampleInstance.step (State.new .default)
      [exampleUpdate true (some "unreadable")] = some final ∧ final.ours = true ∧
      final.os.off = false ∧ final.owned = none := ⟨_, rfl, by decide, by decide, by decide⟩
  obtain ⟨final, ran, ours, on, unowned⟩ := ran
  have cleared := never exampleInstance .default _ final (by simp [exampleUpdate]) ran ours on
    (exampleUpdate false none) ⟨rfl, rfl, rfl, by simp [exampleAnswers], rfl, rfl, rfl, rfl⟩
  have kept : (exampleInstance.after final (exampleUpdate false none)).os = final.os := by
    have off : ((exampleRequest false).target 33333).off = true := by decide
    simp [exampleUpdate, Instance.after, Instance.updateSysproxy, exampleInstance, unowned, off,
      show (exampleRequest false).embeddedServerPort = .ok 33333 from rfl, State.stopGuard]
  rw [kept, on] at cleared
  contradiction

end ClashVerge.SystemProxy
