import ClashVerge.AppProxy.Durable

/-!
# Listeners that stay behind

A listener that the manager has put into the runtime configuration is one that its helper knows, as
long as every removal succeeds, and is removed when the helper is stopped. An update whose
publication stays unresolved breaks this: the helper fails before it knows the listeners staged for
it.
-/

namespace ClashVerge.AppProxy

open OrderedMap Profiles Transition

/-- The listeners that are to be removed with the helper. -/
def State.held (state : State) : List String := state.inner.elim [] (·.listenerNames)

/-- Where every removal has succeeded, the listeners put in that are still there are held. -/
def Holds (held : List String) (state : State) : Prop :=
  state.unremoved = [] → ∀ name ∈ state.configured, name ∈ listenerNames state.config → name ∈ held

section

variable {state next : State} {held names : List String} {helper : ManagedHelper}
  {newRules : List AppProxyRule} {answers : UpdateAnswers}

theorem Holds.extend (holds : Holds held state) (grows : Extends names state next) :
    Holds (held ++ names) next := by
  intro clean name configured listed
  rcases grows.configured name configured with before | new
  · rcases grows.listed name listed with known | new
    · exact List.mem_append_left _ (holds (grows.unremoved clean) name before known)
    · exact List.mem_append_right _ new
  · exact List.mem_append_right _ new

theorem Holds.drop {kept : List String} (holds : Holds held state)
    (gone : state.unremoved = [] → ∀ name ∈ held, name ∈ kept ∨
      name ∉ listenerNames state.config) : Holds kept state := by
  intro clean name configured listed
  exact (gone clean name (holds clean name configured listed)).resolve_right (· listed)

theorem Holds.of_unremoved (failed : state.unremoved ≠ []) : Holds held state :=
  fun clean => absurd clean failed

theorem Holds.removeEach (holds : Holds held state) (removed : List RuntimeAnswer) :
    Holds [] (State.removeEach removed held state).1 := by
  have shrinks := removeEach_extends state [] removed held
  refine (holds.extend shrinks).drop fun clean name is_ => .inr ?_
  exact removeEach_gone state removed held clean name (by simpa using is_)

theorem Holds.stopInner (holds : Holds state.held state) (stop : State.StopAnswers) :
    Holds (state.stopInner stop).1.held (state.stopInner stop).1 := by
  rw [State.held, stopInner_inner]
  unfold State.stopInner
  split
  · rename_i none
    rw [State.held, none] at holds
    exact holds
  · rename_i helper some
    rw [State.held, some] at holds
    let begun : State := { state with inner := none, desiredListener := [] }
    have begins : Holds helper.listenerNames begun := holds
    have ends := begins.removeEach stop.removed
    dsimp only
    split <;> exact ends

theorem Holds.status (holds : Holds state.held state) (status : State.StatusAnswers) :
    Holds (state.status status).held (state.status status) := by
  unfold State.status
  split
  · exact holds
  · rename_i helper some
    split
    · exact holds
    · rw [State.held, some] at holds
      let begun : State := { state with desiredListener := [] }
      have begins : Holds helper.listenerNames begun := holds
      exact begins.removeEach status.removed

/-- The publication is settled, or nothing has been staged for it. -/
def Settled (state : State) : Call → Prop
  | .setRules newRules answers => ∀ helper update, state.inner = some helper →
      state.prepareUpdate helper newRules answers = .ok update → Reaches state answers update →
      Unresolved helper answers update → update.staged = []
  | _ => True

theorem Updated.holds {result : Except String Unit}
    (inner : state.inner = some helper) (settled : Settled state (.setRules newRules answers))
    (holds : Holds helper.listenerNames state)
    (updated : Updated helper newRules answers state next result) : Holds next.held next := by
  have restores : ∀ {update : StagedUpdate} {current : ManagedHelper} {next : State},
      Restored current update state next → current.listenerNames = helper.listenerNames →
      Holds next.held next := by
    intro update current next restored same
    have keeps : next.held = helper.listenerNames := by rw [State.held, restored.inner, ← same]; rfl
    rw [keeps]
    refine (holds.extend restored.extends_).drop fun _ name is_ => ?_
    refine (List.mem_append.mp is_).imp_right fun staged listed => ?_
    obtain ⟨item, inside, named⟩ := mem_listenerNames.mp listed
    rw [restored.items] at inside
    exact of_decide_eq_true (List.mem_filter.mp inside).2 name staged named
  cases updated with
  | refused message =>
    rw [State.held, inner]
    exact holds
  | restored update next message prepares prepared restored => exact restores restored rfl
  | reverted update next message oldVersion prepares prepared unsaved restored =>
    exact restores restored rfl
  | faulted update next message prepares faulted =>
    obtain ⟨failing, is_, -, same⟩ := faulted.inner
    rcases faulted.cause with failed | ⟨reaches, unresolved⟩
    · exact Holds.of_unremoved failed
    · have none : update.names = [] := by
        rw [StagedUpdate.names, settled helper update inner prepares reaches unresolved]
        rfl
      have grows := faulted.extends_
      rw [none] at grows
      have kept := holds.extend grows
      rw [State.held, is_]
      simpa [same] using kept
  | unretired next message unretired => exact Holds.of_unremoved unretired.unremoved
  | adopted update next version prepares prepared adopted =>
    rw [State.held, adopted.inner]
    exact (holds.extend adopted.extends_).drop fun _ => adopted.gone

theorem Holds.start (holds : Holds state.held state) (request : AppProxyStartRequest)
    (answers : StartAnswers) :
    Holds (state.startInner request answers).1.held (state.startInner request answers).1 := by
  have started := startInner_started state request answers
  generalize (state.startInner request answers).1 = next at started
  cases started with
  | refused => exact holds
  | dropped launch middle opened =>
    have begins : Holds [] state := by rwa [State.held, opened.stopped] at holds
    have shrinks := dropListeners_extends middle [] answers.removed launch.specs
    refine ((begins.extend opened.extends_).extend shrinks).drop fun clean name is_ => .inr ?_
    obtain ⟨spec, inside, rfl⟩ : ∃ spec ∈ launch.specs, spec.name = name := by simpa using is_
    exact dropListeners_gone middle answers.removed launch.specs clean spec inside
  | running launch middle version ready opened =>
    let running : State := { middle with
      rulesFile := launch.rules
      rules := launch.rules
      inner := some (launch.helper version) }
    have begins : Holds [] state := by rwa [State.held, opened.stopped] at holds
    have lists : Holds (launch.specs.map (·.name)) running := begins.extend
      ⟨opened.extends_.configured, opened.extends_.listed, opened.extends_.unremoved⟩
    have placed : Holds running.held running := by
      refine lists.drop fun _ name is_ => .inl ?_
      obtain ⟨spec, inside, rfl⟩ : ∃ spec ∈ launch.specs, spec.name = name := by simpa using is_
      exact ready.named version spec inside
    have looked := placed.status answers.status
    rcases finishStart_cases running answers with same | stopped
    · rw [same]
      exact looked
    · rw [stopped]
      exact looked.stopInner answers.stop

theorem Holds.setRules (consistent : Consistent state) (holds : Holds state.held state)
    (settled : Settled state (.setRules newRules answers)) :
    Holds (state.setRules newRules answers).1.held (state.setRules newRules answers).1 := by
  cases inner : state.inner with
  | none =>
    rcases setRules_none inner newRules answers with same | stored
    · rw [same]
      exact holds
    · rw [stored]
      exact holds
  | some helper =>
    have updated : Updated helper newRules answers state _ _ :=
      updateRules_updated (consistent.managed helper inner) inner
    have begins : Holds helper.listenerNames state := by rwa [State.held, inner] at holds
    have ends := updated.holds inner settled begins
    rw [setRules_some inner]
    cases updates : state.updateRules helper newRules answers with
    | mk next result =>
      rw [updates] at ends
      cases result with
      | ok _ => exact ends.status answers.status
      | error message =>
        obtain ⟨error, -, ⟨-, same⟩ | ⟨-, stopped⟩⟩ :=
          settleRuleUpdate_cases next answers.stop message
        · dsimp only
          rw [same]
          exact ends
        · dsimp only
          rw [stopped]
          exact ends.stopInner answers.stop

/-- What holds between two calls whose updates settle. -/
structure Accounted (state : State) : Prop where
  consistent : Consistent state
  holds : Holds state.held state

theorem accounted_new (processId : String) (rules : List AppProxyRule)
    (config : Option Yaml.Mapping) : Accounted (State.new processId rules config) :=
  ⟨consistent_new processId rules config,
    fun _ _ configured => absurd configured (by simp [State.new])⟩

theorem Accounted.step {call : Call} (accounted : Accounted state) (settled : Settled state call)
    (taken : step state call = some next) : Accounted next := by
  refine ⟨accounted.consistent.step taken, ?_⟩
  cases call with
  | start request answers =>
    cases taken
    exact accounted.holds.start request answers
  | setRules newRules answers =>
    cases taken
    exact accounted.holds.setRules accounted.consistent settled
  | stop answers =>
    cases taken
    exact accounted.holds.stopInner answers
  | status answers =>
    cases taken
    exact accounted.holds.status answers

/-- Once the helper is gone, no listener that was put into the runtime configuration is left there,
if every removal has succeeded and no unresolved publication had listeners staged for it. -/
theorem no_listener_left {processId : String} {rules : List AppProxyRule}
    {config : Option Yaml.Mapping} {calls : List Call} {final : State}
    (settled : Meets AppProxy.step Settled (State.new processId rules config) calls)
    (ran : run AppProxy.step (State.new processId rules config) calls = some final)
    (stopped : final.inner = none) (clean : final.unremoved = []) :
    (∀ name ∈ final.configured, name ∉ listenerNames final.config) ∧
      final.desiredListener = [] := by
  have accounted : Accounted final := run_invariant_of_meets Accounted
    (fun _ _ _ accounted settled taken => accounted.step settled taken)
    (accounted_new processId rules config) settled ran
  refine ⟨fun name configured listed => ?_, accounted.consistent.desired stopped⟩
  have held := accounted.holds clean name configured listed
  simp [State.held, stopped] at held

end

/-- It is not known whether the helper gets the rules. -/
def lost : UpdateAnswers := { UpdateAnswers.smooth with publication := ⟨.lost, true⟩ }

/-- A publication that is lost, with rules that need no further listener. -/
theorem no_listener_left_lost :
    let final := (launched.setRules [outlet "regular"] lost).1
    (∀ name ∈ final.configured, name ∉ listenerNames final.config) ∧
      final.desiredListener = [] := by
  have settled : Settled launched (.setRules [outlet "regular"] lost) := by
    intro helper update inner prepares _ _
    obtain rfl : launchedHelper = helper := by
      have is_ : launched.inner = some launchedHelper := by decide
      exact Option.some.inj (is_.symm.trans inner)
    have staged : (launched.prepareUpdate launchedHelper [outlet "regular"] lost).map
        StagedUpdate.staged = .ok [] := by decide
    rw [prepares] at staged
    exact Except.ok.inj staged
  have meets : Meets step Settled (State.new "4711" [outlet "A"] (some []))
      [launch, .setRules [outlet "regular"] lost] := by
    refine ⟨trivial, fun next taken => ⟨?_, fun _ _ => trivial⟩⟩
    obtain rfl : launched = next := Option.some.inj taken
    exact settled
  exact no_listener_left meets rfl (by decide) (by decide)

/-- The same with rules that need one: it stays in the runtime configuration. -/
theorem staged_listener_left :
    let final := (launched.setRules [outlet "B"] lost).1
    Reachable step (State.new "4711" [outlet "A"] (some [])) final ∧
      (launched.setRules [outlet "B"] lost).2 = .error "uncertain rules update" ∧
      final.inner = none ∧ final.unremoved = [] ∧
      "clash-verge-app-proxy-4711-Zq3xK8vT" ∈ final.configured ∧
      "clash-verge-app-proxy-4711-Zq3xK8vT" ∈ listenerNames final.config := by
  refine ⟨⟨[launch, .setRules [outlet "B"] lost], rfl⟩, ?_⟩
  decide

end ClashVerge.AppProxy
