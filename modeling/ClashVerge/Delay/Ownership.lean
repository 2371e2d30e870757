import ClashVerge.Delay.Manager

/-!
# Whose delay it is

What the store is for can be said of one node of one group alone: its last delay, its listener, and
the updates that wait for the next frame. The manager keeps such a slot for every text of a pair, so
for every pair exactly where the pairs in use have different texts.

Two pairs have the same text where the group of one continues the group of the other with colons
that are part of a name.
-/

namespace ClashVerge.Delay

open OrderedMap Delimited
open UriParser (Text unit text)

/-! ## One pair alone -/

def withinLifetime (now : Int) (update : DelayUpdate) : Bool := now - update.updatedAt ≤ CACHE_TTL

/-- What is known of one pair. -/
structure Slot where
  /-- The last value that was set, until a read finds it too old. -/
  latest : Option DelayUpdate := none
  listener : Option Listener := none
  /-- The values set since the last frame. -/
  waiting : List DelayUpdate := []
  /-- What its listeners were called with. -/
  received : List (Listener × DelayUpdate) := []
deriving DecidableEq, Repr

namespace Slot

def step (own : Pair → Bool) (slot : Slot) : Call → Slot
  | .setDelay name group delay elapsed now =>
    if own ⟨name, group⟩ then
      { slot with
        latest := some ⟨delay, elapsed, now⟩
        waiting := slot.waiting ++ [⟨delay, elapsed, now⟩] }
    else slot
  | .getDelayUpdate name group now =>
    if own ⟨name, group⟩ then { slot with latest := slot.latest.filter (withinLifetime now) }
    else slot
  | .setListener name group callback =>
    if own ⟨name, group⟩ then { slot with listener := some ⟨⟨name, group⟩, callback⟩ } else slot
  | .removeListener name group =>
    if own ⟨name, group⟩ then { slot with listener := none } else slot
  | .flushItems =>
    { slot with
      waiting := []
      received := slot.received ++ slot.listener.toList.flatMap fun listener =>
        slot.waiting.map fun update => (listener, update) }
  | _ => slot

def after (own : Pair → Bool) (calls : List Call) : Slot := calls.foldl (step own) {}

def ofPair (pair : Pair) (calls : List Call) : Slot := after (fun other => other = pair) calls

end Slot

/-! ## A slot for every text -/

namespace Manager

def slot (manager : Manager) (key : Text) : Slot where
  latest := get manager.cache key
  listener := get manager.listenerMap key
  waiting := (get manager.pendingItemUpdates key).getD []
  received := manager.delivered.filter fun delivery => delivery.1.pair.key = key

/-- A listener is kept under the text of its pair, and updates wait only for a scheduled frame. -/
structure Wired (manager : Manager) : Prop where
  listeners : ∀ key listener, get manager.listenerMap key = some listener →
    listener.pair.key = key
  distinct : Distinct manager.pendingItemUpdates
  scheduled : manager.itemFlushScheduled = false → manager.pendingItemUpdates = []

/-- The two managers keep the same about pairs. -/
structure SameItems (one other : Manager) : Prop where
  cache : one.cache = other.cache
  listenerMap : one.listenerMap = other.listenerMap
  pendingItemUpdates : one.pendingItemUpdates = other.pendingItemUpdates
  itemFlushScheduled : one.itemFlushScheduled = other.itemFlushScheduled
  delivered : one.delivered = other.delivered

namespace SameItems

theorem refl (manager : Manager) : SameItems manager manager := ⟨rfl, rfl, rfl, rfl, rfl⟩

theorem trans {one two three : Manager} (first : SameItems one two) (second : SameItems two three) :
    SameItems one three :=
  ⟨first.cache.trans second.cache, first.listenerMap.trans second.listenerMap,
    first.pendingItemUpdates.trans second.pendingItemUpdates,
    first.itemFlushScheduled.trans second.itemFlushScheduled,
    first.delivered.trans second.delivered⟩

theorem slot {one other : Manager} (same : SameItems one other) (key : Text) :
    one.slot key = other.slot key := by
  simp only [Manager.slot, same.cache, same.listenerMap, same.pendingItemUpdates, same.delivered]

theorem wired {one other : Manager} (same : SameItems one other) (wired : other.Wired) :
    one.Wired where
  listeners := same.listenerMap ▸ wired.listeners
  distinct := same.pendingItemUpdates ▸ wired.distinct
  scheduled := by
    rw [same.itemFlushScheduled, same.pendingItemUpdates]
    exact wired.scheduled

end SameItems

/-! What is about groups leaves the slots alone. -/

theorem sameItems_setUrl (manager : Manager) (group url : Text) (isValidUrl : Bool) :
    SameItems (manager.setUrl group url isValidUrl) manager := by
  unfold setUrl
  split <;> exact ⟨rfl, rfl, rfl, rfl, rfl⟩

theorem sameItems_removeGroupListener (manager : Manager) (group : Text) (listener : Nat) :
    SameItems (manager.removeGroupListener group listener) manager := by
  unfold removeGroupListener
  split <;> exact ⟨rfl, rfl, rfl, rfl, rfl⟩

theorem sameItems_groupDelays (manager : Manager) (group : Text) :
    SameItems (manager.groupDelays group).2 manager := by
  unfold groupDelays
  split <;> exact ⟨rfl, rfl, rfl, rfl, rfl⟩

theorem sameItems_collectSnapshots (names : List Text) (manager : Manager)
    (snapshots : List (Text × DelaySnapshot)) :
    SameItems (manager.collectSnapshots snapshots names).2 manager := by
  induction names generalizing manager snapshots with
  | nil => exact .refl manager
  | cons name names ih =>
    exact (ih _ _).trans (sameItems_groupDelays manager name)

theorem sameItems_groupsDelays (manager : Manager) (groupKey : Text) :
    SameItems (manager.groupsDelays groupKey).2 manager := by
  unfold groupsDelays
  split
  · exact .refl manager
  · have collected := sameItems_collectSnapshots (namesOf groupKey) manager []
    exact ⟨collected.cache, collected.listenerMap, collected.pendingItemUpdates,
      collected.itemFlushScheduled, collected.delivered⟩

theorem sameItems_queueGroupNotification (manager : Manager) (group : Text) :
    SameItems (manager.queueGroupNotification group) manager := by
  unfold queueGroupNotification
  split <;> exact ⟨rfl, rfl, rfl, rfl, rfl⟩

theorem sameItems_closeBatch (manager : Manager) (group : Text) :
    SameItems (manager.closeBatch group) manager := by
  unfold closeBatch
  dsimp only
  split
  · exact ⟨rfl, rfl, rfl, rfl, rfl⟩
  · have queued := sameItems_queueGroupNotification
      { manager with activeBatches := erase manager.activeBatches group } group
    exact ⟨queued.cache, queued.listenerMap, queued.pendingItemUpdates,
      queued.itemFlushScheduled, queued.delivered⟩

theorem sameItems_flushGroups (manager : Manager) : SameItems manager.flushGroups manager := by
  unfold flushGroups
  split <;> exact ⟨rfl, rfl, rfl, rfl, rfl⟩

/-! Each of the other calls does to a slot what it says. -/

variable {manager : Manager}

theorem wired_setDelay (wired : manager.Wired) (name group : Text)
    (delay : Int) (elapsed : Option Int) (now : Int) :
    (manager.setDelay name group delay elapsed now).Wired where
  listeners := wired.listeners
  distinct := distinct_insert wired.distinct _ _
  scheduled unscheduled := by contradiction

theorem slot_setDelay (manager : Manager) (key name group : Text) (delay : Int)
    (elapsed : Option Int) (now : Int) :
    (manager.setDelay name group delay elapsed now).slot key =
      (manager.slot key).step (fun pair => pair.key = key)
        (.setDelay name group delay elapsed now) := by
  by_cases same : hashKey name group = key
  · subst same
    simp [slot, setDelay, Slot.step, Pair.key]
  · have different : key ≠ hashKey name group := fun equal => same equal.symm
    simp [slot, setDelay, Slot.step, Pair.key, same, get_insert_other _ _ different]

theorem wired_setListener (wired : manager.Wired) (name group : Text)
    (callback : Nat) : (manager.setListener name group callback).Wired where
  listeners key listener found := by
    by_cases same : key = hashKey name group
    · subst same
      simp only [setListener, get_insert_same, Option.some.injEq] at found
      subst found
      rfl
    · exact wired.listeners key listener (by rwa [setListener, get_insert_other _ _ same] at found)
  distinct := wired.distinct
  scheduled := wired.scheduled

theorem slot_setListener (manager : Manager) (key name group : Text) (callback : Nat) :
    (manager.setListener name group callback).slot key =
      (manager.slot key).step (fun pair => pair.key = key) (.setListener name group callback) := by
  by_cases same : hashKey name group = key
  · subst same
    simp [slot, setListener, Slot.step, Pair.key]
  · have different : key ≠ hashKey name group := fun equal => same equal.symm
    simp [slot, setListener, Slot.step, Pair.key, same, get_insert_other _ _ different]

theorem wired_removeListener (wired : manager.Wired) (name group : Text) :
    (manager.removeListener name group).Wired where
  listeners key listener found := by
    rw [removeListener, get_erase] at found
    split at found
    · contradiction
    · exact wired.listeners key listener found
  distinct := wired.distinct
  scheduled := wired.scheduled

theorem slot_removeListener (manager : Manager) (key name group : Text) :
    (manager.removeListener name group).slot key =
      (manager.slot key).step (fun pair => pair.key = key) (.removeListener name group) := by
  by_cases same : hashKey name group = key
  · subst same
    simp [slot, removeListener, Slot.step, Pair.key, get_erase]
  · have different : key ≠ hashKey name group := fun equal => same equal.symm
    simp [slot, removeListener, Slot.step, Pair.key, same, get_erase, different]

theorem getDelayUpdate_of_old {name group : Text} {now : Int}
    {entry : DelayUpdate} (found : get manager.cache (hashKey name group) = some entry)
    (old : withinLifetime now entry = false) : manager.getDelayUpdate name group now =
      (none, { manager with cache := erase manager.cache (hashKey name group) }) := by
  have expired : CACHE_TTL < now - entry.updatedAt := Int.not_le.mp (of_decide_eq_false old)
  rw [getDelayUpdate, found]
  exact if_pos expired

theorem getDelayUpdate_of_young {name group : Text} {now : Int}
    {entry : DelayUpdate} (found : get manager.cache (hashKey name group) = some entry)
    (young : withinLifetime now entry = true) :
    manager.getDelayUpdate name group now = (some entry, manager) := by
  have current : ¬ CACHE_TTL < now - entry.updatedAt := Int.not_lt.mpr (of_decide_eq_true young)
  rw [getDelayUpdate, found]
  exact if_neg current

theorem getDelayUpdate_of_none {name group : Text}
    (found : get manager.cache (hashKey name group) = none) (now : Int) :
    manager.getDelayUpdate name group now = (none, manager) := by
  rw [getDelayUpdate, found]

theorem getDelayUpdate_fst (manager : Manager) (name group : Text) (now : Int) :
    (manager.getDelayUpdate name group now).1 =
      (manager.slot (hashKey name group)).latest.filter (withinLifetime now) := by
  cases found : get manager.cache (hashKey name group) with
  | none => rw [getDelayUpdate_of_none found, slot, found, Option.filter_none]
  | some entry =>
    cases age : withinLifetime now entry with
    | false => simp [getDelayUpdate_of_old found age, slot, found, Option.filter_some, age]
    | true => simp [getDelayUpdate_of_young found age, slot, found, Option.filter_some, age]

theorem wired_getDelayUpdate (wired : manager.Wired) (name group : Text)
    (now : Int) : (manager.getDelayUpdate name group now).2.Wired := by
  cases found : get manager.cache (hashKey name group) with
  | none => rwa [getDelayUpdate_of_none found]
  | some entry =>
    cases age : withinLifetime now entry with
    | false =>
      rw [getDelayUpdate_of_old found age]
      exact ⟨wired.listeners, wired.distinct, wired.scheduled⟩
    | true => rwa [getDelayUpdate_of_young found age]

theorem slot_getDelayUpdate (manager : Manager) (key name group : Text) (now : Int) :
    (manager.getDelayUpdate name group now).2.slot key =
      (manager.slot key).step (fun pair => pair.key = key) (.getDelayUpdate name group now) := by
  by_cases same : hashKey name group = key
  · subst same
    cases found : get manager.cache (hashKey name group) with
    | none => simp [getDelayUpdate_of_none found, slot, Slot.step, Pair.key, found]
    | some entry =>
      cases age : withinLifetime now entry with
      | false =>
        simp [getDelayUpdate_of_old found age, slot, Slot.step, Pair.key, found, Option.filter_some,
          age, get_erase]
      | true =>
        simp [getDelayUpdate_of_young found age, slot, Slot.step, Pair.key, found,
          Option.filter_some, age]
  · have different : key ≠ hashKey name group := fun equal => same equal.symm
    cases found : get manager.cache (hashKey name group) with
    | none => simp [getDelayUpdate_of_none found, Slot.step, Pair.key, same]
    | some entry =>
      cases age : withinLifetime now entry with
      | false =>
        simp [getDelayUpdate_of_old found age, slot, Slot.step, Pair.key, same, get_erase, different]
      | true => simp [getDelayUpdate_of_young found age, Slot.step, Pair.key, same]

theorem wired_flushItems (wired : manager.Wired) :
    manager.flushItems.Wired := by
  unfold flushItems
  split
  · exact ⟨wired.listeners, distinct_nil, fun _ => rfl⟩
  · exact wired

theorem filter_delivered {listenerMap : List (Text × Listener)}
    (listeners : ∀ key listener, get listenerMap key = some listener → listener.pair.key = key)
    (key : Text) {pending : List (Text × List DelayUpdate)} (distinct : Distinct pending) :
    (pending.flatMap (deliveries listenerMap)).filter
        (fun delivery => delivery.1.pair.key = key) =
      (get listenerMap key).toList.flatMap fun listener =>
        ((get pending key).getD []).map fun update => (listener, update) := by
  induction pending with
  | nil => cases get listenerMap key <;> rfl
  | cons entry rest ih =>
    obtain ⟨own, queue⟩ := entry
    obtain ⟨fresh, remaining⟩ := distinct_cons.mp distinct
    have others := ih remaining
    rw [List.flatMap_cons, List.filter_append, others, get_cons, deliveries]
    by_cases same : own = key
    · subst same
      rw [if_pos rfl, (get_eq_none_iff rest own).mpr fresh]
      cases found : get listenerMap own with
      | none => rfl
      | some listener =>
        have mine := listeners own listener found
        simp [List.filter_map, Function.comp_def, mine]
    · rw [if_neg same]
      cases found : get listenerMap own with
      | none => rfl
      | some listener =>
        have mine := listeners own listener found
        simp [List.filter_map, Function.comp_def, mine, same]

theorem slot_flushItems (wired : manager.Wired) (key : Text) : manager.flushItems.slot key =
      (manager.slot key).step (fun pair => pair.key = key) .flushItems := by
  unfold flushItems
  split
  · have delivered := filter_delivered wired.listeners key wired.distinct
    simp only [slot, Slot.step, List.filter_append, get_nil, Option.getD_none]
    rw [delivered]
  · rename_i unscheduled
    have empty := wired.scheduled (by simpa using unscheduled)
    cases found : get manager.listenerMap key <;> simp [slot, Slot.step, empty, found]

theorem perform_spec (wired : manager.Wired) (call : Call) :
    (manager.perform call).Wired ∧ ∀ key, (manager.perform call).slot key =
      (manager.slot key).step (fun pair => pair.key = key) call := by
  have aside : ∀ {other : Manager}, SameItems other manager →
      other.Wired ∧ ∀ key, other.slot key = manager.slot key :=
    fun same => ⟨same.wired wired, same.slot⟩
  cases call with
  | setUrl group url isValidUrl => exact aside (manager.sameItems_setUrl group url isValidUrl)
  | setListener name group callback =>
    exact ⟨wired_setListener wired name group callback,
      fun key => manager.slot_setListener key name group callback⟩
  | removeListener name group =>
    exact ⟨wired_removeListener wired name group,
      fun key => manager.slot_removeListener key name group⟩
  | addGroupListener group listener | openBatch group => exact aside ⟨rfl, rfl, rfl, rfl, rfl⟩
  | removeGroupListener group listener =>
    exact aside (manager.sameItems_removeGroupListener group listener)
  | setDelay name group delay elapsed now =>
    exact ⟨wired_setDelay wired name group delay elapsed now,
      fun key => manager.slot_setDelay key name group delay elapsed now⟩
  | getDelayUpdate name group now =>
    exact ⟨wired_getDelayUpdate wired name group now,
      fun key => manager.slot_getDelayUpdate key name group now⟩
  | groupDelays group => exact aside (manager.sameItems_groupDelays group)
  | groupsDelays groupKey => exact aside (manager.sameItems_groupsDelays groupKey)
  | queueGroupNotification group => exact aside (manager.sameItems_queueGroupNotification group)
  | closeBatch group => exact aside (manager.sameItems_closeBatch group)
  | flushItems => exact ⟨wired_flushItems wired, slot_flushItems wired⟩
  | flushGroups => exact aside manager.sameItems_flushGroups

theorem wired_new : Wired {} := ⟨fun _ _ found => by contradiction, distinct_nil, fun _ => rfl⟩

theorem slot_performAll (calls : List Call) (key : Text) :
    (performAll calls).slot key = Slot.after (fun pair => pair.key = key) calls := by
  suffices all : ∀ (manager : Manager) (slot : Slot), manager.Wired → manager.slot key = slot →
      (calls.foldl perform manager).slot key =
        calls.foldl (Slot.step fun pair => pair.key = key) slot by
    exact all {} {} wired_new rfl
  induction calls with
  | nil => exact fun _ _ _ same => same
  | cons call rest ih =>
    intro manager slot wired same
    obtain ⟨still, step⟩ := perform_spec wired call
    exact ih _ _ still (by rw [step, same])

end Manager

/-! ## Texts of pairs -/

/-- The group of the second pair continues the group of the first with colons that belong to the
name of the first. -/
def Confusable (one other : Pair) : Prop :=
  (∃ between, other.group = one.group ++ colons ++ between ∧
    one.name = between ++ colons ++ other.name) ∨
  (other.group = one.group ++ text ":" ∧ one.name = text ":" ++ other.name)

theorem Confusable.ne {one other : Pair} (confusable : Confusable one other) : one ≠ other := by
  rintro rfl
  obtain ⟨between, longer, -⟩ | ⟨longer, -⟩ := confusable
  · have lengths := congrArg List.length longer
    simp [colons, text] at lengths
  · have lengths := congrArg List.length longer
    simp [text] at lengths

theorem Confusable.key_eq {one other : Pair} (confusable : Confusable one other) :
    one.key = other.key := by
  obtain ⟨between, group, name⟩ | ⟨group, name⟩ := confusable
  · simp [Pair.key, hashKey, group, name]
  · simp [Pair.key, hashKey, group, name, colons, text]

theorem confusable_of_key_eq {one other : Pair} (same : one.key = other.key)
    (different : one ≠ other) : Confusable one other ∨ Confusable other one := by
  wlog shorter : one.group.length ≤ other.group.length generalizing one other
  · exact (this same.symm different.symm (by omega)).symm
  left
  simp only [Pair.key, hashKey, List.append_assoc] at same
  obtain ⟨more, longer, rest⟩ : ∃ more, other.group = one.group ++ more ∧
      colons ++ one.name = more ++ (colons ++ other.name) := by
    rcases List.append_eq_append_iff.mp same with ⟨more, longer, rest⟩ | ⟨more, longer, rest⟩
    · exact ⟨more, longer, rest⟩
    · have none_ : more = [] := by
        have lengths := congrArg List.length longer
        rw [List.length_append] at lengths
        exact List.eq_nil_of_length_eq_zero (by omega)
      subst none_
      exact ⟨[], by simpa using longer.symm, by simpa using rest.symm⟩
  match more with
  | [] =>
    refine absurd ?_ different
    obtain ⟨name, group⟩ := one
    obtain ⟨name', group'⟩ := other
    simp_all
  | [first] =>
    refine .inr ⟨?_, ?_⟩ <;> simp_all [colons, text]
  | first :: second :: between =>
    refine .inl ⟨between, ?_, ?_⟩ <;> simp_all [colons, text]

/-- No two of the pairs have the same text. -/
def Apart (used : Set Pair) : Prop := ∀ one ∈ used, ∀ other ∈ used, ¬ Confusable one other

theorem Apart.key_inj {used : Set Pair} (apart : Apart used) {one other : Pair} (here : one ∈ used)
    (there : other ∈ used) (same : one.key = other.key) : one = other := by
  by_contra different
  rcases confusable_of_key_eq same different with confusable | confusable
  · exact apart one here other there confusable
  · exact apart other there one here confusable

/-! ## Names of groups -/

/-- The names come back from their text: none has a space, and the text of some is not empty. -/
def ComeBack (groups : List Text) : Prop := (∀ name ∈ groups, space ∉ name) ∧ groups ≠ [[]]

theorem mem_namesOf_join_iff {groups : List Text} (comeBack : ComeBack groups) (name : Text) :
    name ∈ Manager.namesOf (join space groups) ↔ name ∈ groups := by
  by_cases none_ : groups = []
  · subst none_
    rfl
  · have same : Manager.namesOf (join space groups) = groups := by
      have nonempty : join space groups ≠ [] := by
        intro empty
        match groups with
        | [] => exact none_ rfl
        | [only] => exact comeBack.2 (by simpa using empty)
        | first :: second :: more =>
          rw [join_cons space first (List.cons_ne_nil second more)] at empty
          simp at empty
      rw [Manager.namesOf, if_neg nonempty]
      exact List.splitOn_intercalate space comeBack.1 none_
    rw [same]

theorem comeBack_of_mem_iff {groups : List Text}
    (all : ∀ name, name ∈ Manager.namesOf (join space groups) ↔ name ∈ groups) :
    ComeBack groups := by
  refine ⟨fun name listed inside => ?_, ?_⟩
  · have member := (all name).mpr listed
    unfold Manager.namesOf at member
    split at member
    · contradiction
    · exact not_mem_of_mem_splitOn member inside
  · rintro rfl
    exact absurd ((all []).mpr List.mem_cons_self) (by simp [Manager.namesOf])

namespace Manager

theorem mem_keys_collectSnapshots (names : List Text) (manager : Manager)
    (snapshots : List (Text × DelaySnapshot)) (name : Text) :
    name ∈ keys (manager.collectSnapshots snapshots names).1 ↔
      name ∈ keys snapshots ∨ name ∈ names := by
  induction names generalizing manager snapshots with
  | nil => simp [collectSnapshots]
  | cons first names ih =>
    rw [collectSnapshots, ih, mem_keys_insert, List.mem_cons]
    tauto

/-- The maps kept for lists of groups have the names of their text as keys. -/
def SetsNamed (manager : Manager) : Prop :=
  ∀ groupKey set, get manager.groupSetSnapshots groupKey = some set →
    ∀ name, name ∈ keys set.snapshots ↔ name ∈ namesOf groupKey

theorem groupSetSnapshots_groupDelays (manager : Manager) (group : Text) :
    (manager.groupDelays group).2.groupSetSnapshots = manager.groupSetSnapshots := by
  unfold groupDelays
  split <;> rfl

theorem groupSetSnapshots_collectSnapshots (names : List Text) (manager : Manager)
    (snapshots : List (Text × DelaySnapshot)) :
    (manager.collectSnapshots snapshots names).2.groupSetSnapshots =
      manager.groupSetSnapshots := by
  induction names generalizing manager snapshots with
  | nil => rfl
  | cons name names ih =>
    exact (ih _ _).trans (groupSetSnapshots_groupDelays manager name)

theorem groupsDelays_spec {manager : Manager} (named : manager.SetsNamed) (groupKey : Text) :
    (∀ name, name ∈ keys (manager.groupsDelays groupKey).1.snapshots ↔ name ∈ namesOf groupKey) ∧
      (manager.groupsDelays groupKey).2.SetsNamed := by
  unfold groupsDelays
  cases found : get manager.groupSetSnapshots groupKey with
  | some cached => exact ⟨named groupKey cached found, named⟩
  | none =>
    have fresh : ∀ name, name ∈ keys (manager.collectSnapshots [] (namesOf groupKey)).1 ↔
        name ∈ namesOf groupKey := by
      intro name
      simp [mem_keys_collectSnapshots]
    refine ⟨fresh, fun other set read => ?_⟩
    dsimp only at read
    rw [groupSetSnapshots_collectSnapshots] at read
    by_cases same : other = groupKey
    · subst same
      rw [get_insert_same] at read
      cases read
      exact fresh
    · rw [get_insert_other _ _ same] at read
      exact named other set read

theorem setsNamed_of_eq {manager other : Manager} (named : manager.SetsNamed)
    (same : other.groupSetSnapshots = manager.groupSetSnapshots) : other.SetsNamed := by
  unfold SetsNamed
  rw [same]
  exact named

theorem setsNamed_queueGroupNotification {manager : Manager} (named : manager.SetsNamed)
    (group : Text) : (manager.queueGroupNotification group).SetsNamed := by
  unfold queueGroupNotification
  split
  · exact named
  · intro _ _ read
    contradiction

theorem setsNamed_perform {manager : Manager} (named : manager.SetsNamed) (call : Call) :
    (manager.perform call).SetsNamed := by
  cases call with
  | setUrl group url isValidUrl =>
    refine setsNamed_of_eq named ?_
    simp only [perform, setUrl]
    split <;> rfl
  | setListener name group callback | removeListener name group | addGroupListener group listener
  | setDelay name group delay elapsed now | openBatch group => exact named
  | removeGroupListener group listener =>
    refine setsNamed_of_eq named ?_
    simp only [perform, removeGroupListener]
    split <;> rfl
  | getDelayUpdate name group now =>
    refine setsNamed_of_eq named ?_
    simp only [perform, getDelayUpdate]
    split
    · rfl
    · split <;> rfl
  | groupDelays group =>
    exact setsNamed_of_eq named (groupSetSnapshots_groupDelays manager group)
  | groupsDelays groupKey => exact (groupsDelays_spec named groupKey).2
  | queueGroupNotification group => exact setsNamed_queueGroupNotification named group
  | closeBatch group =>
    simp only [perform, closeBatch]
    split
    · exact named
    · have without : SetsNamed { manager with
          activeBatches := erase manager.activeBatches group } := named
      exact setsNamed_queueGroupNotification without group
  | flushItems =>
    refine setsNamed_of_eq named ?_
    simp only [perform, flushItems]
    split <;> rfl
  | flushGroups =>
    refine setsNamed_of_eq named ?_
    simp only [perform, flushGroups]
    split <;> rfl

theorem setsNamed_performAll (calls : List Call) : (performAll calls).SetsNamed := by
  suffices all : ∀ manager : Manager, manager.SetsNamed → (calls.foldl perform manager).SetsNamed by
    refine all {} ?_
    intro _ _ read
    contradiction
  induction calls with
  | nil => exact fun _ named => named
  | cons call rest ih =>
    exact fun manager named => ih _ (setsNamed_perform named call)

theorem mem_keys_useGroupsDelays_iff (calls : List Call) (groups : List Text) (name : Text) :
    name ∈ keys (useGroupsDelays (performAll calls) groups).1.snapshots ↔
      name ∈ namesOf (join space groups) :=
  (groupsDelays_spec (setsNamed_performAll calls) (join space groups)).1 name

end Manager

/-! ## Results of one node -/

def Call.pair : Call → Option Pair
  | .setListener name group _ => some ⟨name, group⟩
  | .removeListener name group => some ⟨name, group⟩
  | .setDelay name group _ _ _ => some ⟨name, group⟩
  | .getDelayUpdate name group _ => some ⟨name, group⟩
  | _ => none

def About (used : Set Pair) (calls : List Call) : Prop :=
  ∀ call ∈ calls, ∀ pair ∈ call.pair, pair ∈ used

namespace Slot

theorem after_congr {own other : Pair → Bool} {calls : List Call}
    (agree : ∀ call ∈ calls, ∀ pair ∈ call.pair, own pair = other pair) :
    after own calls = after other calls := by
  suffices all : ∀ slot : Slot, calls.foldl (step own) slot = calls.foldl (step other) slot by
    exact all {}
  induction calls with
  | nil => exact fun _ => rfl
  | cons call rest ih =>
    intro slot
    have here : slot.step own call = slot.step other call := by
      have same := agree call List.mem_cons_self
      cases call with
      | setDelay | getDelayUpdate | setListener | removeListener =>
        simp only [step, same _ rfl]
      | _ => rfl
    rw [List.foldl_cons, List.foldl_cons, here]
    exact ih (fun later listed => agree later (List.mem_cons_of_mem _ listed)) _

theorem own_of_received (own : Pair → Bool) (calls : List Call) :
    ∀ delivery ∈ (after own calls).received, own delivery.1.pair = true := by
  suffices all : ∀ slot : Slot, (∀ listener ∈ slot.listener, own listener.pair = true) →
      (∀ delivery ∈ slot.received, own delivery.1.pair = true) →
      ∀ delivery ∈ (calls.foldl (step own) slot).received, own delivery.1.pair = true by
    exact all {} (fun _ member => by contradiction) (fun _ member => by contradiction)
  induction calls with
  | nil => exact fun _ _ received => received
  | cons call rest ih =>
    intro slot listener received
    apply ih
    · cases call with
      | setListener name group callback =>
        simp only [step]
        split
        · rename_i mine
          intro own_ member
          cases member
          exact mine
        · exact listener
      | removeListener name group =>
        simp only [step]
        split
        · intro _ member
          contradiction
        · exact listener
      | setDelay name group delay elapsed now | getDelayUpdate name group now =>
        simp only [step]
        split <;> exact listener
      | _ => exact listener
    · cases call with
      | flushItems =>
        intro delivery member
        rcases List.mem_append.mp member with old | new
        · exact received delivery old
        · obtain ⟨hearing, present, sent⟩ := List.mem_flatMap.mp new
          obtain ⟨_, _, rfl⟩ := List.mem_map.mp sent
          exact listener hearing (by simpa using present)
      | setListener name group callback | removeListener name group
      | setDelay name group delay elapsed now | getDelayUpdate name group now =>
        simp only [step]
        split <;> exact received
      | _ => exact received

end Slot

/-- Whatever is called for the pairs in use, what is read and heard of each is its own, and the
snapshots of the groups have the names of the groups. -/
structure Belongs (used : Set Pair) (groups : List Text) : Prop where
  read : ∀ calls, About used calls → ∀ pair ∈ used, ∀ now,
    ((Manager.performAll calls).getDelayUpdate pair.name pair.group now).1 =
      (Slot.ofPair pair calls).latest.filter (withinLifetime now)
  heard : ∀ calls, About used calls → ∀ pair ∈ used,
    ((Manager.performAll calls).delivered.filter fun delivery => delivery.1.pair = pair) =
      (Slot.ofPair pair calls).received
  named : ∀ calls, About used calls → ∀ name,
    name ∈ keys (useGroupsDelays (Manager.performAll calls) groups).1.snapshots ↔ name ∈ groups

theorem slot_eq_ofPair {used : Set Pair} (apart : Apart used) {calls : List Call}
    (about : About used calls) {pair : Pair} (here : pair ∈ used) :
    (Manager.performAll calls).slot pair.key = Slot.ofPair pair calls := by
  rw [Manager.slot_performAll]
  refine Slot.after_congr fun call listed other member => ?_
  have equal : other.key = pair.key ↔ other = pair :=
    ⟨apart.key_inj (about call listed other member) here, fun same => same ▸ rfl⟩
  simp [equal]

theorem belongs_of_apart {used : Set Pair} {groups : List Text} (apart : Apart used)
    (comeBack : ComeBack groups) : Belongs used groups where
  read calls about pair here now := by
    rw [Manager.getDelayUpdate_fst, ← slot_eq_ofPair apart about here]
    rfl
  heard calls about pair here := by
    have slot := congrArg Slot.received (slot_eq_ofPair apart about here)
    have own : ∀ delivery ∈ (Slot.ofPair pair calls).received, delivery.1.pair = pair :=
      fun delivery member => by simpa using Slot.own_of_received _ calls delivery member
    have all := List.filter_eq_self.mpr fun delivery member => decide_eq_true (own delivery member)
    rw [← all, ← slot, Manager.slot, List.filter_filter]
    refine List.filter_congr fun delivery _ => ?_
    by_cases same : delivery.1.pair = pair
    · simp [same]
    · simp [same]
  named calls _ name := by
    rw [Manager.mem_keys_useGroupsDelays_iff, mem_namesOf_join_iff comeBack]

theorem not_belongs_of_confusable {used : Set Pair} {groups : List Text} {one other : Pair}
    (here : one ∈ used) (there : other ∈ used) (confusable : Confusable one other) :
    ¬ Belongs used groups := by
  intro belongs
  have about : About used [.setDelay one.name one.group 1 none 0] := by
    intro call listed pair member
    obtain rfl := List.mem_singleton.mp listed
    cases member
    exact here
  have read := belongs.read _ about other there 0
  have equal : hashKey other.name other.group = hashKey one.name one.group :=
    confusable.key_eq.symm
  have different : ¬ (⟨one.name, one.group⟩ : Pair) = other := confusable.ne
  rw [Manager.getDelayUpdate_fst, Manager.slot_performAll] at read
  simp [Slot.after, Slot.ofPair, Slot.step, Pair.key, equal, different, withinLifetime,
    CACHE_TTL] at read

/-- Delays belong to one node of one group exactly where no two pairs in use have the same text,
and groups are listed by their names exactly where the names come back from theirs. -/
theorem belongs_iff (used : Set Pair) (groups : List Text) :
    Belongs used groups ↔ Apart used ∧ ComeBack groups := by
  constructor
  · intro belongs
    refine ⟨fun one here other there confusable => ?_, ?_⟩
    · exact not_belongs_of_confusable here there confusable belongs
    · refine comeBack_of_mem_iff fun name => ?_
      rw [← Manager.mem_keys_useGroupsDelays_iff []]
      exact belongs.named [] (fun _ listed => by contradiction) name
  · rintro ⟨apart, comeBack⟩
    exact belongs_of_apart apart comeBack

/-- The node `b::c` of the group `a`, and the node `c` of the group `a::b`. -/
theorem colons_not_belonging : ¬ ∀ (used : Set Pair) (groups : List Text), Belongs used groups := by
  intro all
  have confusable : Confusable ⟨text "b::c", text "a"⟩ ⟨text "c", text "a::b"⟩ :=
    .inl ⟨text "b", rfl, rfl⟩
  exact not_belongs_of_confusable (.inl rfl) (.inr rfl) confusable
    (all {⟨text "b::c", text "a"⟩, ⟨text "c", text "a::b"⟩} [])

end ClashVerge.Delay
