import ClashVerge.Profiles.RepairPlan

/-!
# When the recorded selections are settled

The settle loop looks at every record and goes on while the core is not on its node. What it asks of
the core has the last record of each group only. So once the core has that, a record that disagrees
with the last one of its group is still not settled, and the loop runs to its deadline.
-/

namespace ClashVerge.Profiles

open ClashVerge.Verge
open OrderedMap (get get_cons mem_of_get)

def unsettledSelections (selected : List PrfSelected) (proxies : Proxies) : List String :=
  selected.filterMap fun item =>
    match item.name, item.now with
    | some groupName, some node =>
      if ((get proxies groupName).bind (·.now)) = some node then none
      else some groupName
    | _, _ => none

/-- The core goes to the nodes that are activated, and changes nothing else. -/
def adopt (proxies : Proxies) (activations : List (String × String)) : Proxies :=
  proxies.map fun (groupName, group) =>
    (groupName, { group with now := (get activations groupName).or group.now })

/-- Every recorded group is loaded, lets a node be selected in it and lists its recorded nodes. -/
def RecordsLoaded (selected : List PrfSelected) (proxies : Proxies) : Prop :=
  ∀ item ∈ selected, ∀ groupName, item.name = some groupName →
    ∃ group nodes, get proxies groupName = some group ∧
      group.proxyType.isSelectable = true ∧ group.all = some nodes ∧
      ∀ node, item.now = some node → node ∈ nodes

/-- Every recorded node is that of its group's last record, or this one names no node and the core is
on the recorded one already. -/
def RecordsAgree (selected : List PrfSelected) (proxies : Proxies) : Prop :=
  ∀ groupName node, ⟨some groupName, some node⟩ ∈ selected →
    ∃ last, lastOf selected groupName = some last ∧
      (last.now = some node ∨ last.now = none ∧
        ((get proxies groupName).bind (·.now)) = some node)

section

variable {selected : List PrfSelected} {previous : Option Proxies} {proxies : Proxies}
  {groupName node : String}

theorem unsettledSelections_eq_nil : unsettledSelections selected proxies = [] ↔
    ∀ groupName node, ⟨some groupName, some node⟩ ∈ selected →
      ((get proxies groupName).bind (·.now)) = some node := by
  rw [unsettledSelections, List.filterMap_eq_nil_iff]
  constructor
  · intro none_ groupName node listed
    simpa using none_ _ listed
  · rintro settled ⟨name, now⟩ listed
    cases name with
    | none => rfl
    | some groupName =>
      cases now with
      | none => rfl
      | some node => exact if_pos (settled groupName node listed)

theorem now_adopt (proxies : Proxies) (activations : List (String × String)) (groupName : String) :
    (get (adopt proxies activations) groupName).bind (·.now) =
      (get proxies groupName).bind fun group =>
        (get activations groupName).or group.now := by
  induction proxies with
  | nil => rfl
  | cons entry rest ih =>
    obtain ⟨name, group⟩ := entry
    rw [adopt, List.map_cons, ← adopt, get_cons, get_cons]
    by_cases own : name = groupName
    · rw [if_pos own, if_pos own, own]
      rfl
    · rw [if_neg own, if_neg own, ih]

theorem get_activations : get
      (reconcileSelectedNodes selected previous proxies).activations groupName = some node ↔
    (groupName, node) ∈ (reconcileSelectedNodes selected previous proxies).activations := by
  refine ⟨mem_of_get, fun active => ?_⟩
  cases found : get
      (reconcileSelectedNodes selected previous proxies).activations groupName with
  | none =>
    rw [OrderedMap.get_eq_none_iff] at found
    exact absurd (List.mem_map.mpr ⟨_, active, rfl⟩) found
  | some other =>
    have first := ((mem_plan_activations _ _).mp (mem_of_get found)).1
    have second := ((mem_plan_activations _ _).mp active).1
    have same := List.inj_on_of_nodup_map (nodup_plan_names selected) first second rfl
    simpa using same

theorem mem_activations_iff {last : PrfSelected} (is_ : lastOf selected groupName = some last) :
    (groupName, node) ∈ (reconcileSelectedNodes selected previous proxies).activations ↔
      ⟨some groupName, some node⟩ ∈ (outcomeOf previous proxies last).selected ∧
        Activates proxies groupName node := by
  have filtered := filter_plan_selected previous proxies selected groupName
  rw [is_, Option.toList_some, List.flatMap_singleton] at filtered
  rw [mem_plan_activations, ← filtered, List.mem_filter]
  simp

theorem now_of_last (loaded : RecordsLoaded selected proxies)
    (is_ : lastOf selected groupName = some ⟨some groupName, some node⟩) :
    (get (adopt proxies
      (reconcileSelectedNodes selected previous proxies).activations) groupName).bind (·.now) =
        some node := by
  obtain ⟨listed, _⟩ := name_of_lastOf is_
  obtain ⟨group, nodes, found, selectable, all, inside⟩ := loaded _ listed groupName rfl
  have available := availableNodes_eq_some.mpr ⟨all, List.ne_nil_of_mem (inside node rfl)⟩
  rw [now_adopt, found, Option.bind_some]
  by_cases now : group.now = some node
  · have idle : get (reconcileSelectedNodes selected previous proxies).activations
        groupName = none := by
      by_contra active
      obtain ⟨other, active⟩ := Option.ne_none_iff_exists'.mp active
      have activated := (mem_activations_iff is_).mp (get_activations.mp active)
      rw [outcomeOf_eq (.settled _ _ _ _ found available selectable (inside node rfl) now)]
        at activated
      obtain ⟨same, other_, _, again, _, _, _, off⟩ := activated
      simp only [List.mem_singleton, PrfSelected.mk.injEq, Option.some.injEq, true_and] at same
      obtain rfl := same
      obtain rfl := Option.some.inj (found.symm.trans again)
      exact off now
    rw [idle, Option.none_or, now]
  · have active : (groupName, node) ∈
        (reconcileSelectedNodes selected previous proxies).activations := by
      refine (mem_activations_iff is_).mpr
        ⟨?_, group, nodes, found, selectable, all, inside node rfl, now⟩
      rw [outcomeOf_eq (.activated _ _ _ _ found available selectable (inside node rfl) now)]
      exact List.mem_singleton_self _
    rw [get_activations.mpr active, Option.some_or]

theorem now_of_unset {last : PrfSelected} (is_ : lastOf selected groupName = some last)
    (unset : last.now = none) :
    (get (adopt proxies
      (reconcileSelectedNodes selected previous proxies).activations) groupName).bind (·.now) =
        (get proxies groupName).bind (·.now) := by
  have idle : get (reconcileSelectedNodes selected previous proxies).activations
      groupName = none := by
    by_contra active
    obtain ⟨other, active⟩ := Option.ne_none_iff_exists'.mp active
    have activated := (mem_activations_iff is_).mp (get_activations.mp active)
    rw [outcomeOf_eq (.incomplete _ (.inr unset))] at activated
    exact List.not_mem_nil activated.1
  rw [now_adopt, idle]
  simp only [Option.none_or]

/-- Where every recorded group is loaded, the records are settled by what a plan activates exactly if
they agree with the last ones of their groups. -/
theorem unsettledSelections_adopt_iff (loaded : RecordsLoaded selected proxies)
    (previous : Option Proxies) : unsettledSelections selected (adopt proxies
      (reconcileSelectedNodes selected previous proxies).activations) = [] ↔
    RecordsAgree selected proxies := by
  rw [unsettledSelections_eq_nil]
  refine forall₃_congr fun groupName node listed => ?_
  cases is_ : lastOf selected groupName with
  | none => exact absurd rfl (lastOf_eq_none.mp is_ _ listed)
  | some last =>
    obtain ⟨present, own⟩ := name_of_lastOf is_
    obtain ⟨name, now⟩ := last
    obtain rfl : name = some groupName := own
    cases now with
    | none =>
      rw [now_of_unset is_ rfl]
      simp
    | some other =>
      rw [now_of_last loaded is_]
      simp

end

def twoNodes : Proxies := [("group", ⟨.selector, some ["old", "new"], some "old"⟩)]

theorem twoNodes_loaded {selected : List PrfSelected}
    (inside : ∀ item ∈ selected, item.name = some "group" ∧
      (item.now = some "old" ∨ item.now = some "new")) : RecordsLoaded selected twoNodes := by
  intro item listed groupName named
  obtain ⟨own, node⟩ := inside item listed
  obtain rfl : "group" = groupName := Option.some.inj (own.symm.trans named)
  refine ⟨_, _, rfl, rfl, rfl, fun other now => ?_⟩
  rcases node with old | new
  · obtain rfl : "old" = other := Option.some.inj (old.symm.trans now)
    decide
  · obtain rfl : "new" = other := Option.some.inj (new.symm.trans now)
    decide

theorem twoNodes_settled : unsettledSelections [⟨some "group", some "new"⟩] (adopt twoNodes
    (reconcileSelectedNodes [⟨some "group", some "new"⟩] none twoNodes).activations) = [] := by
  refine (unsettledSelections_adopt_iff (twoNodes_loaded (by decide)) none).mpr ?_
  rintro groupName node listed
  obtain ⟨rfl, rfl⟩ : groupName = "group" ∧ node = "new" := by simpa using listed
  exact ⟨⟨some "group", some "new"⟩, by decide, .inl rfl⟩

/-- A record that a later one of its group supersedes is never settled. -/
theorem supersededRecord_unsettled :
    ¬ ∀ (selected : List PrfSelected) (previous : Option Proxies) (proxies : Proxies),
      RecordsLoaded selected proxies → unsettledSelections selected (adopt proxies
        (reconcileSelectedNodes selected previous proxies).activations) = [] := by
  intro all
  have settled := all [⟨some "group", some "old"⟩, ⟨some "group", some "new"⟩] none twoNodes
    (twoNodes_loaded (by decide))
  have waits : unsettledSelections [⟨some "group", some "old"⟩, ⟨some "group", some "new"⟩]
      (adopt twoNodes (reconcileSelectedNodes [⟨some "group", some "old"⟩,
        ⟨some "group", some "new"⟩] none twoNodes).activations) = ["group"] := by decide
  rw [settled] at waits
  contradiction

end ClashVerge.Profiles
