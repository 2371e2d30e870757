import ClashVerge.AppProxy.Commands

/-!
# Staged listeners

What an update stages, and what putting listeners into the runtime configuration and taking them out
leaves there. The items of other listeners stay, and a restored configuration has the items it had,
if the names of the staged listeners were new to it.
-/

namespace ClashVerge.AppProxy

open OrderedMap Profiles

section

variable {processId : String} {answers : ListenerAnswers} {groups : List String}
  {listeners all : Listeners} {done news : List ManagedListenerSpec}

/-- What `stageListeners` adds to the listeners. -/
structure Staged (groups : List String) (listeners all : Listeners)
    (added : List ManagedListenerSpec) : Prop where
  sorted : SortedMap.Sorted all
  kept : ∀ group ∈ keys listeners, get all group = get listeners group
  covers : ∀ group ∈ groups, group ∈ keys all
  within : ∀ group ∈ keys all, group ∈ keys listeners ∨ group ∈ groups
  grouped : ∀ spec ∈ added, ∃ group ∈ groups, group ∉ keys listeners ∧ get all group = some spec
  entries : ∀ entry ∈ all, entry ∈ listeners ∨ entry.2 ∈ added ∧ entry.1 ∉ keys listeners

theorem mem_keys_iff (entries : Listeners) (group : String) :
    group ∈ keys entries ↔ get entries group ≠ none := by
  rw [ne_eq, get_eq_none_iff, not_not]

theorem Staged.cons {group : String} {spec : ManagedListenerSpec}
    {added : List ManagedListenerSpec} (fresh : group ∉ keys listeners)
    (staged : Staged groups (SortedMap.insert listeners group spec) all added) :
    Staged (group :: groups) listeners all (spec :: added) where
  sorted := staged.sorted
  kept other known := by
    have different : group ≠ other := fun same => fresh (same ▸ known)
    rw [staged.kept other ((SortedMap.mem_keys_insert ..).mpr (.inr known)),
      SortedMap.get_insert, if_neg different]
  covers := by
    have own : group ∈ keys all := by
      rw [mem_keys_iff, staged.kept group ((SortedMap.mem_keys_insert ..).mpr (.inl rfl)),
        SortedMap.get_insert, if_pos rfl]
      simp
    exact List.forall_mem_cons.mpr ⟨own, staged.covers⟩
  within other inside := by
    rcases staged.within other inside with known | later
    · rcases (SortedMap.mem_keys_insert ..).mp known with rfl | known
      · exact .inr (List.mem_cons_self ..)
      · exact .inl known
    · exact .inr (List.mem_cons_of_mem _ later)
  grouped := by
    refine List.forall_mem_cons.mpr ⟨⟨group, List.mem_cons_self .., fresh, ?_⟩, ?_⟩
    · rw [staged.kept group ((SortedMap.mem_keys_insert ..).mpr (.inl rfl)),
        SortedMap.get_insert, if_pos rfl]
    · intro later is_
      obtain ⟨other, required, unknown, found⟩ := staged.grouped later is_
      exact ⟨other, List.mem_cons_of_mem _ required,
        fun known => unknown ((SortedMap.mem_keys_insert ..).mpr (.inr known)), found⟩
  entries entry inside := by
    rcases staged.entries entry inside with known | ⟨later, unknown⟩
    · rcases SortedMap.mem_insert known with rfl | known
      · exact .inr ⟨List.mem_cons_self .., fresh⟩
      · exact .inl known
    · exact .inr ⟨List.mem_cons_of_mem _ later,
        fun known => unknown ((SortedMap.mem_keys_insert ..).mpr (.inr known))⟩

theorem Staged.skip {group : String} {added : List ManagedListenerSpec}
    (known : group ∈ keys listeners) (staged : Staged groups listeners all added) :
    Staged (group :: groups) listeners all added where
  sorted := staged.sorted
  kept := staged.kept
  covers := by
    refine List.forall_mem_cons.mpr ⟨?_, staged.covers⟩
    rw [mem_keys_iff, staged.kept group known, ← mem_keys_iff]
    exact known
  within other inside := (staged.within other inside).imp_right (List.mem_cons_of_mem _)
  grouped spec is_ := by
    obtain ⟨other, required, rest⟩ := staged.grouped spec is_
    exact ⟨other, List.mem_cons_of_mem _ required, rest⟩
  entries := staged.entries

theorem stageListeners_staged (sorted : SortedMap.Sorted listeners)
    (stages : stageListeners processId answers groups listeners done = .ok (all, news)) :
    ∃ added, news = done ++ added ∧ Staged groups listeners all added := by
  induction groups generalizing answers listeners done with
  | nil =>
    cases stages
    exact ⟨[], (List.append_nil _).symm, sorted, fun _ _ => rfl, by simp, fun _ => .inl, by simp,
      fun _ => .inl⟩
  | cons group rest ih =>
    unfold stageListeners at stages
    split at stages
    · rename_i known
      obtain ⟨added, rfl, staged⟩ := ih sorted stages
      exact ⟨added, rfl, staged.skip (by rwa [contains_iff] at known)⟩
    · rename_i unknown
      obtain ⟨spec, -, stages⟩ := bind_ok stages
      obtain ⟨added, rfl, staged⟩ := ih (sorted.insert group spec) stages
      refine ⟨spec :: added, by simp, staged.cons ?_⟩
      rwa [contains_iff] at unknown

theorem startListeners_staged (sorted : SortedMap.Sorted listeners)
    (stages : startListeners processId answers groups listeners = .ok all) :
    ∃ added, Staged groups listeners all added := by
  induction groups generalizing answers listeners with
  | nil =>
    cases stages
    exact ⟨[], sorted, fun _ _ => rfl, by simp, fun _ => .inl, by simp, fun _ => .inl⟩
  | cons group rest ih =>
    unfold startListeners at stages
    split at stages
    · rename_i known
      obtain ⟨added, staged⟩ := ih sorted stages
      exact ⟨added, staged.skip (by rwa [contains_iff] at known)⟩
    · rename_i unknown
      obtain ⟨spec, -, stages⟩ := bind_ok stages
      obtain ⟨added, staged⟩ := ih (sorted.insert group spec) stages
      refine ⟨spec :: added, staged.cons ?_⟩
      rwa [contains_iff] at unknown

end

def others (names : List String) (config : Option Yaml.Mapping) : List Yaml.Value :=
  (listenerItems config).filter fun item => ∀ name ∈ names, itemName item ≠ some name

section

variable {names : List String} (state : State)

theorem others_of_without {before after : Option Yaml.Mapping} {name : String} (is_ : name ∈ names)
    (same : without name (listenerItems after) = without name (listenerItems before)) :
    others names after = others names before := by
  have through : ∀ items : List Yaml.Value,
      (items.filter fun item => ∀ name ∈ names, itemName item ≠ some name) =
        (without name items).filter fun item => ∀ name ∈ names, itemName item ≠ some name := by
    intro items
    rw [without, List.filter_filter]
    refine List.filter_congr fun item _ => ?_
    by_cases clear : ∀ name ∈ names, itemName item ≠ some name
    · simp [clear name is_]
    · simp [clear]
  rw [others, others, through, same, ← through]

theorem configureListener_others (answer : RuntimeAnswer) {spec : ManagedListenerSpec}
    (is_ : spec.name ∈ names) :
    others names (state.configureListener answer spec).1.config = others names state.config := by
  unfold State.configureListener
  split
  · exact others_of_without is_ without_putListener
  · rfl

theorem removeListener_others (answer : RuntimeAnswer) {name : String} (is_ : name ∈ names) :
    others names (state.removeListener answer name).1.config = others names state.config := by
  unfold State.removeListener
  split
  · refine others_of_without is_ ?_
    dsimp only
    rw [listenerItems_takeListener, without, without, List.filter_filter]
    simp
  · rfl

theorem configureListeners_others {answers : List RuntimeAnswer} {listening : List Bool}
    {specs : List ManagedListenerSpec} (named : ∀ spec ∈ specs, spec.name ∈ names) :
    others names (State.configureListeners answers listening specs state).1.config =
      others names state.config := by
  induction specs generalizing answers listening state with
  | nil => rfl
  | cons spec rest ih =>
    obtain ⟨own, later⟩ := List.forall_mem_cons.mp named
    have first := configureListener_others state (answers.headD (.ok .valid)) own
    unfold State.configureListeners
    split <;> rename_i between _ configured <;> rw [configured] at first
    · exact first
    · split
      · exact (ih _ later).trans first
      · exact first

theorem removeListeners_others {answers : List RuntimeAnswer} {gone : List String}
    (named : ∀ name ∈ gone, name ∈ names) :
    others names (State.removeListeners answers gone state).1.config = others names state.config := by
  induction gone generalizing answers state with
  | nil => rfl
  | cons name rest ih =>
    obtain ⟨own, later⟩ := List.forall_mem_cons.mp named
    have first := removeListener_others state (answers.headD (.ok .valid)) own
    unfold State.removeListeners
    split <;> rename_i between _ removed <;> rw [removed] at first
    · exact (ih _ later).trans first
    · exact first

/-- Only the given listeners are put into the runtime configuration, and a removal that fails is on
record. -/
structure Extends (names : List String) (before after : State) : Prop where
  configured : ∀ name ∈ after.configured, name ∈ before.configured ∨ name ∈ names
  listed : ∀ name ∈ listenerNames after.config, name ∈ listenerNames before.config ∨ name ∈ names
  unremoved : after.unremoved = [] → before.unremoved = []

theorem Extends.refl (names : List String) (state : State) : Extends names state state :=
  ⟨fun _ => .inl, fun _ => .inl, id⟩

theorem Extends.trans {first second third : State} (before : Extends names first second)
    (after : Extends names second third) : Extends names first third where
  configured name is_ := (after.configured name is_).elim (before.configured name) .inr
  listed name is_ := (after.listed name is_).elim (before.listed name) .inr
  unremoved none := before.unremoved (after.unremoved none)

theorem configureListener_extends (answer : RuntimeAnswer) {spec : ManagedListenerSpec}
    (is_ : spec.name ∈ names) : Extends names state (state.configureListener answer spec).1 := by
  unfold State.configureListener
  split
  · refine ⟨fun name inside => ?_, fun name inside => ?_, id⟩
    · rcases List.mem_append.mp inside with before | own
      · exact .inl before
      · exact .inr (List.mem_singleton.mp own ▸ is_)
    · rcases mem_putListener inside with rfl | before
      · exact .inr is_
      · exact .inl before
  · exact Extends.refl names state

theorem removeListener_extends (names : List String) (answer : RuntimeAnswer) (name : String) :
    Extends names state (state.removeListener answer name).1 := by
  unfold State.removeListener
  split
  · exact ⟨fun _ => .inl, fun _ inside => .inl (mem_takeListener inside), id⟩
  · exact ⟨fun _ => .inl, fun _ => .inl, by simp⟩

theorem removeListeners_extends (names : List String) (answers : List RuntimeAnswer)
    (gone : List String) : Extends names state (State.removeListeners answers gone state).1 := by
  induction gone generalizing answers state with
  | nil => exact Extends.refl names state
  | cons name rest ih =>
    have first := removeListener_extends state names (answers.headD (.ok .valid)) name
    unfold State.removeListeners
    split <;> rename_i between _ removed <;> rw [removed] at first
    · exact first.trans (ih _ answers.tail)
    · exact first

theorem removeEach_extends (names : List String) (answers : List RuntimeAnswer)
    (gone : List String) : Extends names state (State.removeEach answers gone state).1 := by
  induction gone generalizing answers state with
  | nil => exact Extends.refl names state
  | cons name rest ih =>
    have first := removeListener_extends state names (answers.headD (.ok .valid)) name
    unfold State.removeEach
    dsimp only
    split <;> exact first.trans (ih _ answers.tail)

theorem dropListeners_extends (names : List String) (answers : List RuntimeAnswer)
    (specs : List ManagedListenerSpec) :
    Extends names state (State.dropListeners answers specs state) := by
  induction specs generalizing answers state with
  | nil => exact Extends.refl names state
  | cons spec rest ih =>
    have cleared : Extends names state (state.clearDesiredListener spec.name) :=
      ⟨fun _ => .inl, fun _ => .inl, id⟩
    have first := removeListener_extends (state.clearDesiredListener spec.name) names
      (answers.headD (.ok .valid)) spec.name
    exact (cleared.trans first).trans (ih _ answers.tail)

theorem configureListeners_extends {answers : List RuntimeAnswer} {listening : List Bool}
    {specs : List ManagedListenerSpec} (named : ∀ spec ∈ specs, spec.name ∈ names) :
    Extends names state (State.configureListeners answers listening specs state).1 := by
  induction specs generalizing answers listening state with
  | nil => exact Extends.refl names state
  | cons spec rest ih =>
    obtain ⟨own, later⟩ := List.forall_mem_cons.mp named
    have first := configureListener_extends state (answers.headD (.ok .valid)) own
    unfold State.configureListeners
    split <;> rename_i between _ configured <;> rw [configured] at first
    · exact first
    · split
      · exact first.trans (ih _ later)
      · exact first

theorem removeListener_gone (answer : RuntimeAnswer) (name : String) :
    ((state.removeListener answer name).2 = .ok () →
        name ∉ listenerNames (state.removeListener answer name).1.config) ∧
      ∀ error, (state.removeListener answer name).2 = .error error →
        (state.removeListener answer name).1.unremoved ≠ [] := by
  unfold State.removeListener
  split
  · exact ⟨fun _ => not_mem_takeListener, by simp⟩
  · exact ⟨by simp, by simp⟩

section

variable (answers : List RuntimeAnswer)
include answers

theorem removeListeners_gone (gone : List String) :
    ((State.removeListeners answers gone state).2 = .ok () → ∀ name ∈ gone,
        name ∉ listenerNames (State.removeListeners answers gone state).1.config) ∧
      ∀ error, (State.removeListeners answers gone state).2 = .error error →
        (State.removeListeners answers gone state).1.unremoved ≠ [] := by
  induction gone generalizing answers state with
  | nil => simp [State.removeListeners]
  | cons name rest ih =>
    have first := removeListener_gone state (answers.headD (.ok .valid)) name
    unfold State.removeListeners
    split <;> rename_i between _ removed <;> rw [removed] at first
    · obtain ⟨out, recorded⟩ := ih between answers.tail
      refine ⟨fun succeeds => List.forall_mem_cons.mpr ⟨fun inside => ?_, out succeeds⟩, recorded⟩
      have shrinks := removeListeners_extends between [] answers.tail rest
      exact first.1 rfl ((shrinks.listed name inside).resolve_right (by simp))
    · exact ⟨by simp, fun _ _ => first.2 _ rfl⟩

theorem removeListeners_refused (gone : List String) (error : String)
    (fails : (State.removeListeners answers gone state).2 = .error error) :
    ∃ answer ∈ answers, RuntimeAnswer.taken answer = false := by
  induction gone generalizing answers state with
  | nil => simp [State.removeListeners] at fails
  | cons name rest ih =>
    unfold State.removeListeners at fails
    split at fails
    · obtain ⟨answer, is_, refused⟩ := ih _ answers.tail fails
      exact ⟨answer, List.mem_of_mem_tail is_, refused⟩
    · rename_i removed
      cases answers with
      | nil =>
        simp [State.removeListener, RuntimeAnswer.taken, Config.ValidationOutcome.isValid] at removed
      | cons answer later =>
        refine ⟨answer, List.mem_cons_self .., ?_⟩
        by_contra taken
        have takes : RuntimeAnswer.taken answer = true := by simpa using taken
        simp [State.removeListener, takes] at removed

theorem removeEach_gone (gone : List String)
    (clean : (State.removeEach answers gone state).1.unremoved = []) :
    ∀ name ∈ gone, name ∉ listenerNames (State.removeEach answers gone state).1.config := by
  induction gone generalizing answers state with
  | nil => simp
  | cons name rest ih =>
    have same : (State.removeEach answers (name :: rest) state).1 = (State.removeEach answers.tail
        rest (state.removeListener (answers.headD (.ok .valid)) name).1).1 := by
      simp only [State.removeEach]
      split <;> rfl
    have shrinks := removeEach_extends
      (state.removeListener (answers.headD (.ok .valid)) name).1 [] answers.tail rest
    rw [same] at clean ⊢
    refine List.forall_mem_cons.mpr ⟨fun inside => ?_, ih _ _ clean⟩
    have first := removeListener_gone state (answers.headD (.ok .valid)) name
    cases removed : (state.removeListener (answers.headD (.ok .valid)) name).2 with
    | ok _ => exact first.1 removed ((shrinks.listed name inside).resolve_right (by simp))
    | error error => exact first.2 error removed (shrinks.unremoved clean)

theorem dropListeners_gone (specs : List ManagedListenerSpec)
    (clean : (State.dropListeners answers specs state).unremoved = []) :
    ∀ spec ∈ specs, spec.name ∉ listenerNames (State.dropListeners answers specs state).config := by
  induction specs generalizing answers state with
  | nil => simp
  | cons spec rest ih =>
    refine List.forall_mem_cons.mpr ⟨fun inside => ?_, ih _ _ clean⟩
    have shrinks := dropListeners_extends ((state.clearDesiredListener
      spec.name).removeListener (answers.headD (.ok .valid)) spec.name).1 [] answers.tail rest
    have first := removeListener_gone (state.clearDesiredListener spec.name)
      (answers.headD (.ok .valid)) spec.name
    cases removed : ((state.clearDesiredListener spec.name).removeListener
        (answers.headD (.ok .valid)) spec.name).2 with
    | ok _ => exact first.1 removed ((shrinks.listed _ inside).resolve_right (by simp))
    | error error => exact first.2 error removed (shrinks.unremoved clean)

theorem dropListeners_state (specs : List ManagedListenerSpec) :
    (State.dropListeners answers specs state).inner = state.inner ∧
      ∀ spec ∈ (State.dropListeners answers specs state).desiredListener,
        spec ∈ state.desiredListener ∧ spec ∉ specs := by
  induction specs generalizing answers state with
  | nil => exact ⟨rfl, fun spec is_ => ⟨is_, by simp⟩⟩
  | cons spec rest ih =>
    have frame := (state.clearDesiredListener spec.name).removeListener_frame
      (answers.headD (.ok .valid)) spec.name
    obtain ⟨inner, desired⟩ := ih ((state.clearDesiredListener
      spec.name).removeListener (answers.headD (.ok .valid)) spec.name).1 answers.tail
    refine ⟨inner.trans frame.inner, fun other is_ => ?_⟩
    obtain ⟨kept, away⟩ := desired other is_
    rw [frame.desiredListener] at kept
    obtain ⟨before, different⟩ := List.mem_filter.mp kept
    refine ⟨before, fun inside => ?_⟩
    rcases List.mem_cons.mp inside with rfl | later
    · simp at different
    · exact away later

end

end

end ClashVerge.AppProxy
