import ClashVerge.AppProxy.Update

/-!
# Starts

Where a start ends. It is refused before it changes anything, or it gives up its listeners, or its
helper is in place, with one listener for each group that its rules need.
-/

namespace ClashVerge.AppProxy

open OrderedMap

section

variable {state : State} {request : AppProxyStartRequest} {answers : StartAnswers} {launch : Launch}

structure Ready (launch : Launch) : Prop where
  unbound : launch.primary.group = none
  staged : ∃ added, Staged (requiredGroups launch.rules "regular") [("regular", launch.primary)]
    launch.listeners added
  compiled : compileRules launch.rules "regular" launch.listeners =
    .ok (launch.compiled, launch.groups)

theorem prepareStart_ok (prepares : state.prepareStart request answers = .ok launch) :
    state.inner = none ∧ Ready launch := by
  unfold State.prepareStart at prepares
  dsimp only at prepares
  split_ifs at prepares with running
  obtain ⟨_, -, prepares⟩ := bind_ok prepares
  obtain ⟨port, -, prepares⟩ := bind_ok prepares
  obtain ⟨listeners, stages, prepares⟩ := bind_ok prepares
  obtain ⟨compiled, compiles, rfl⟩ := map_ok prepares
  refine ⟨by simpa using running, rfl, startListeners_staged ?_ stages, compiles⟩
  exact List.pairwise_singleton ..

theorem Launch.get_extra (launch : Launch) (version : Nat) (group : String) :
    get (launch.helper version).extraListeners group =
      if group ≠ "regular" then get launch.listeners group else none := by
  refine (get_filter launch.listeners (fun key => decide (key ≠ "regular")) group).trans ?_
  simp only [decide_eq_true_eq]

variable (ready : Ready launch)
include ready

theorem Ready.get_regular : get launch.listeners "regular" = some launch.primary := by
  obtain ⟨added, staged⟩ := ready.staged
  exact staged.kept "regular" (List.mem_singleton.mpr rfl)

theorem Ready.mem_keys (group : String) :
    group ∈ keys launch.listeners ↔ Required launch.rules "regular" group := by
  obtain ⟨added, staged⟩ := ready.staged
  rw [← mem_requiredGroups]
  refine ⟨fun inside => ?_, staged.covers group⟩
  rcases staged.within group inside with primary | required
  · exact mem_requiredGroups.mpr (.inl (List.mem_singleton.mp primary))
  · exact required

theorem Ready.perm : launch.listeners.Perm
    (("regular", launch.primary) :: launch.listeners.filter (·.1 ≠ "regular")) := by
  obtain ⟨added, staged⟩ := ready.staged
  have nodup : launch.listeners.Nodup := List.Nodup.of_map Prod.fst staged.sorted.distinct
  have away : ("regular", launch.primary) ∉ launch.listeners.filter (·.1 ≠ "regular") := by simp
  refine (List.perm_ext_iff_of_nodup nodup (List.nodup_cons.mpr ⟨away, nodup.filter _⟩)).mpr ?_
  rintro ⟨group, spec⟩
  have found := get_eq_some_iff staged.sorted.distinct group spec
  rw [List.mem_cons, List.mem_filter, ← found]
  by_cases primary : group = "regular"
  · subst primary
    simp [ready.get_regular, eq_comm]
  · simp [primary]

variable (version : Nat)

theorem Ready.helper_primary : (launch.helper version).primary = launch.primary := by
  have unbound := ready.unbound
  cases is_ : launch.primary with
  | mk name port group =>
    rw [is_] at unbound
    simp [ManagedHelper.primary, Launch.helper, is_, ← unbound]

theorem Ready.shaped : Shaped (launch.helper version) := by
  obtain ⟨added, staged⟩ := ready.staged
  refine ⟨rfl, staged.sorted.sublist (List.filter_sublist.map Prod.fst), fun inside => ?_⟩
  obtain ⟨entry, kept, named⟩ := List.mem_map.mp inside
  have other := (List.mem_filter.mp kept).2
  simp [named] at other

theorem Ready.agrees (group : String) :
    get ((launch.helper version).oldListeners none) group = get launch.listeners group := by
  rw [(ready.shaped version).get_old, launch.get_extra version, ready.helper_primary version]
  by_cases primary : "regular" = group
  · rw [if_pos primary, ← primary, ready.get_regular]
  · rw [if_neg primary, if_pos (Ne.symm primary)]

theorem Ready.managed : Managed (launch.helper version) (launch.listeners.map (·.2)) where
  shaped := ready.shaped version
  healthy := rfl
  extra group := by
    have alike : Required launch.compiled "regular" group ↔ Required launch.rules "regular" group :=
      required_alike (compileRules_alike ready.compiled)
    rw [mem_keys_iff, launch.get_extra version]
    by_cases primary : group = "regular"
    · simp [primary]
    · rw [if_pos primary, ← mem_keys_iff, ready.mem_keys]
      exact ⟨fun required => ⟨primary, alike.mpr required⟩, fun both => alike.mp both.2⟩
  compiled := compileRules_again ready.compiled fun group _ => ready.agrees version group
  published := rfl
  version := rfl
  desired := by
    have same := ready.perm.map Prod.snd
    rw [← ready.helper_primary version] at same
    exact same

theorem Ready.named (spec : ManagedListenerSpec) (is_ : spec ∈ launch.listeners.map (·.2)) :
    spec.name ∈ (launch.helper version).listenerNames := by
  rcases List.mem_cons.mp ((ready.managed version).desired.mem_iff.mp is_) with rfl | extra
  · exact List.mem_cons_self ..
  · obtain ⟨entry, inside, rfl⟩ := List.mem_map.mp extra
    exact List.mem_cons_of_mem _ (List.mem_map_of_mem inside)

end

def Launch.specs (launch : Launch) : List ManagedListenerSpec := launch.listeners.map (·.2)

/-- The state once the listeners have been tried. -/
structure Opened (launch : Launch) (state middle : State) : Prop where
  stopped : state.inner = none
  inner : middle.inner = none
  desired : middle.desiredListener = launch.specs
  extends_ : Extends (launch.specs.map (·.name)) state middle

inductive Started (answers : StartAnswers) (state : State) : State → Prop
  | refused : Started answers state state
  | dropped (launch : Launch) (middle : State) (opened : Opened launch state middle) :
      Started answers state (State.dropListeners answers.removed launch.specs middle)
  | running (launch : Launch) (middle : State) (version : Nat) (ready : Ready launch)
      (opened : Opened launch state middle) :
      Started answers state ({ middle with
        rulesFile := launch.rules
        rules := launch.rules
        inner := some (launch.helper version) }.finishStart answers).1

theorem startInner_started (state : State) (request : AppProxyStartRequest)
    (answers : StartAnswers) : Started answers state (state.startInner request answers).1 := by
  unfold State.startInner
  cases prepares : state.prepareStart request answers with
  | error error => exact .refused
  | ok launch =>
    obtain ⟨stopped, ready⟩ := prepareStart_ok prepares
    let begun : State := { state with desiredListener := launch.specs }
    have named : ∀ spec ∈ launch.specs, spec.name ∈ launch.specs.map (·.name) :=
      fun spec is_ => List.mem_map_of_mem is_
    have frame := State.configureListeners_frame answers.configured answers.listening
      launch.specs begun
    have grows : Extends (launch.specs.map (·.name)) begun (State.configureListeners
      answers.configured answers.listening launch.specs begun).1 :=
        configureListeners_extends begun named
    have opened : Opened launch state (State.configureListeners answers.configured
        answers.listening launch.specs begun).1 :=
      ⟨stopped, frame.inner.trans stopped, frame.desiredListener,
        ⟨grows.configured, grows.listed, grows.unremoved⟩⟩
    dsimp only
    split <;> rename_i middle _ configures <;>
      (change State.configureListeners answers.configured answers.listening launch.specs begun = _
        at configures
       rw [configures] at opened)
    · exact .dropped launch middle opened
    · split
      · exact .dropped launch middle opened
      · rename_i version _
        unfold State.saveRulesToDisk
        cases answers.saved with
        | error error => exact .dropped launch middle opened
        | ok _ => exact .running launch middle version ready opened

theorem finishStart_cases (state : State) (answers : StartAnswers) :
    (state.finishStart answers).1 = state.status answers.status ∨
      (state.finishStart answers).1 = ((state.status answers.status).stopInner answers.stop).1 := by
  unfold State.finishStart
  dsimp only
  split
  · exact .inr rfl
  · split
    · exact .inr rfl
    · exact .inl rfl

theorem Opened.dropped {launch : Launch} {state middle : State} (opened : Opened launch state middle)
    (removed : List RuntimeAnswer) :
    (State.dropListeners removed launch.specs middle).inner = none ∧
      (State.dropListeners removed launch.specs middle).desiredListener = [] := by
  obtain ⟨inner, desired⟩ := dropListeners_state middle removed launch.specs
  refine ⟨inner.trans opened.inner, List.eq_nil_iff_forall_not_mem.mpr fun spec is_ => ?_⟩
  obtain ⟨before, away⟩ := desired spec is_
  rw [opened.desired] at before
  exact away before

end ClashVerge.AppProxy
