import ClashVerge.Profiles.Selection
import Mathlib.Algebra.Ring.Nat

/-!
# What a plan makes of the saved selections

Each group's last record has its own fate: it is kept, kept and activated, replaced by the node the
group has, or dropped. The plan is these fates in the order of the records. It counts no repair
exactly if it is the saved list, and what is left of a plan is kept as it is by the next one.

Without a previous snapshot, a record with a node is dropped in one case only: its group cannot be
selected in, and lists neither the recorded node nor the one it has.
-/

namespace ClashVerge.Profiles

open ClashVerge.Verge
open OrderedMap (contains get)

namespace SelectedNodesPlan

def empty : SelectedNodesPlan := ⟨[], [], 0⟩

def append (first second : SelectedNodesPlan) : SelectedNodesPlan where
  selected := first.selected ++ second.selected
  activations := first.activations ++ second.activations
  repairedCount := first.repairedCount + second.repairedCount

end SelectedNodesPlan

def loadedNodes (proxies : Proxies) (groupName : String) : Option (List String) :=
  (get proxies groupName).bind Proxy.availableNodes

def missingWasConfirmed (previous : Option Proxies) (groupName node : String) : Bool :=
  ((previous.bind (get · groupName)).bind (·.availableNodes)).any fun nodes =>
    !nodes.contains node

def Proxy.listedNow (group : Proxy) (availableNodes : List String) : Option String :=
  group.now.filter (availableNodes.contains ·)

inductive Fate (previous : Option Proxies) (proxies : Proxies) :
    PrfSelected → SelectedNodesPlan → Prop
  | incomplete (item : PrfSelected) (lacks : item.name = none ∨ item.now = none) :
      Fate previous proxies item ⟨[], [], 1⟩
  | gone (groupName node : String) (absent : get proxies groupName = none)
      (before : (previous.any fun snapshot => !contains snapshot groupName) = true) :
      Fate previous proxies ⟨some groupName, some node⟩ ⟨[], [], 1⟩
  | absent (groupName node : String) (absent : get proxies groupName = none)
      (before : (previous.any fun snapshot => !contains snapshot groupName) = false) :
      Fate previous proxies ⟨some groupName, some node⟩ ⟨[⟨some groupName, some node⟩], [], 0⟩
  | unloaded (groupName node : String) (group : Proxy)
      (found : get proxies groupName = some group)
      (unloaded : group.availableNodes = none) :
      Fate previous proxies ⟨some groupName, some node⟩ ⟨[⟨some groupName, some node⟩], [], 0⟩
  | settled (groupName node : String) (group : Proxy) (nodes : List String)
      (found : get proxies groupName = some group)
      (loaded : group.availableNodes = some nodes)
      (selectable : group.proxyType.isSelectable = true) (listed : node ∈ nodes)
      (now : group.now = some node) :
      Fate previous proxies ⟨some groupName, some node⟩ ⟨[⟨some groupName, some node⟩], [], 0⟩
  | activated (groupName node : String) (group : Proxy) (nodes : List String)
      (found : get proxies groupName = some group)
      (loaded : group.availableNodes = some nodes)
      (selectable : group.proxyType.isSelectable = true) (listed : node ∈ nodes)
      (now : group.now ≠ some node) :
      Fate previous proxies ⟨some groupName, some node⟩
        ⟨[⟨some groupName, some node⟩], [(groupName, node)], 0⟩
  | unconfirmed (groupName node : String) (group : Proxy) (nodes : List String)
      (found : get proxies groupName = some group)
      (loaded : group.availableNodes = some nodes)
      (selectable : group.proxyType.isSelectable = true) (missing : node ∉ nodes)
      (before : missingWasConfirmed previous groupName node = false) :
      Fate previous proxies ⟨some groupName, some node⟩ ⟨[⟨some groupName, some node⟩], [], 0⟩
  | replaced (groupName node current : String) (group : Proxy) (nodes : List String)
      (found : get proxies groupName = some group)
      (loaded : group.availableNodes = some nodes)
      (selectable : group.proxyType.isSelectable = true) (missing : node ∉ nodes)
      (before : missingWasConfirmed previous groupName node = true)
      (now : group.listedNow nodes = some current) :
      Fate previous proxies ⟨some groupName, some node⟩ ⟨[⟨some groupName, some current⟩], [], 1⟩
  | invalid (groupName node : String) (group : Proxy) (nodes : List String)
      (found : get proxies groupName = some group)
      (loaded : group.availableNodes = some nodes)
      (selectable : group.proxyType.isSelectable = true) (missing : node ∉ nodes)
      (before : missingWasConfirmed previous groupName node = true)
      (now : group.listedNow nodes = none) :
      Fate previous proxies ⟨some groupName, some node⟩ ⟨[], [], 1⟩
  | followed (groupName node current : String) (group : Proxy) (nodes : List String)
      (found : get proxies groupName = some group)
      (loaded : group.availableNodes = some nodes)
      (fixed : group.proxyType.isSelectable = false) (now : group.listedNow nodes = some current) :
      Fate previous proxies ⟨some groupName, some node⟩
        ⟨[⟨some groupName, some current⟩], [], if current = node then 0 else 1⟩
  | listed (groupName node : String) (group : Proxy) (nodes : List String)
      (found : get proxies groupName = some group)
      (loaded : group.availableNodes = some nodes)
      (fixed : group.proxyType.isSelectable = false) (now : group.listedNow nodes = none)
      (listed : node ∈ nodes) :
      Fate previous proxies ⟨some groupName, some node⟩ ⟨[⟨some groupName, some node⟩], [], 0⟩
  | unlisted (groupName node : String) (group : Proxy) (nodes : List String)
      (found : get proxies groupName = some group)
      (loaded : group.availableNodes = some nodes)
      (fixed : group.proxyType.isSelectable = false) (now : group.listedNow nodes = none)
      (missing : node ∉ nodes) :
      Fate previous proxies ⟨some groupName, some node⟩ ⟨[], [], 1⟩

section

variable {previous : Option Proxies} {proxies : Proxies} {item : PrfSelected}
  {plan outcome : SelectedNodesPlan}

theorem reconcile_of_fate (fate : Fate previous proxies item outcome) (plan : SelectedNodesPlan) :
    reconcileSelectedNode previous proxies plan item = plan.append outcome := by
  cases fate with
  | incomplete item lacks =>
    obtain ⟨name, now⟩ := item
    cases name <;> cases now <;>
      simp_all [reconcileSelectedNode, SelectedNodesPlan.repair, SelectedNodesPlan.append]
  | gone groupName node absent before =>
    simp [reconcileSelectedNode, absent, before, SelectedNodesPlan.repair, SelectedNodesPlan.append]
  | absent groupName node absent before =>
    simp [reconcileSelectedNode, absent, before, SelectedNodesPlan.keep, SelectedNodesPlan.append]
  | unloaded groupName node group found unloaded =>
    simp [reconcileSelectedNode, found, unloaded, SelectedNodesPlan.keep, SelectedNodesPlan.append]
  | settled groupName node group nodes found loaded selectable listed now
  | activated groupName node group nodes found loaded selectable listed now =>
    simp [reconcileSelectedNode, found, loaded, reconcileInGroup, selectable, listed, now,
      SelectedNodesPlan.keep, SelectedNodesPlan.append]
  | unconfirmed groupName node group nodes found loaded selectable missing before =>
    simp only [missingWasConfirmed, List.contains_eq_mem] at before
    simp [reconcileSelectedNode, found, loaded, reconcileInGroup, selectable, missing, before,
      SelectedNodesPlan.keep, SelectedNodesPlan.append]
  | replaced groupName node current group nodes found loaded selectable missing before now =>
    simp only [missingWasConfirmed, List.contains_eq_mem] at before
    simp only [Proxy.listedNow, List.contains_eq_mem] at now
    simp [reconcileSelectedNode, found, loaded, reconcileInGroup, selectable, missing, before, now,
      SelectedNodesPlan.keep, SelectedNodesPlan.repair, SelectedNodesPlan.append]
  | invalid groupName node group nodes found loaded selectable missing before now =>
    simp only [missingWasConfirmed, List.contains_eq_mem] at before
    simp only [Proxy.listedNow, List.contains_eq_mem] at now
    simp [reconcileSelectedNode, found, loaded, reconcileInGroup, selectable, missing, before, now,
      SelectedNodesPlan.repair, SelectedNodesPlan.append]
  | followed groupName node current group nodes found loaded fixed now =>
    simp only [Proxy.listedNow, List.contains_eq_mem] at now
    by_cases same : current = node <;>
      simp [reconcileSelectedNode, found, loaded, reconcileInGroup, fixed, now, same,
        SelectedNodesPlan.keep, SelectedNodesPlan.repair, SelectedNodesPlan.append]
  | listed groupName node group nodes found loaded fixed now listed =>
    simp only [Proxy.listedNow, List.contains_eq_mem] at now
    simp [reconcileSelectedNode, found, loaded, reconcileInGroup, fixed, now, listed,
      SelectedNodesPlan.keep, SelectedNodesPlan.append]
  | unlisted groupName node group nodes found loaded fixed now missing =>
    simp only [Proxy.listedNow, List.contains_eq_mem] at now
    simp [reconcileSelectedNode, found, loaded, reconcileInGroup, fixed, now, missing,
      SelectedNodesPlan.repair, SelectedNodesPlan.append]

theorem exists_fate (previous : Option Proxies) (proxies : Proxies) (item : PrfSelected) :
    ∃ outcome, Fate previous proxies item outcome := by
  obtain ⟨name, now⟩ := item
  cases name with
  | none => exact ⟨_, .incomplete _ (.inl rfl)⟩
  | some groupName =>
  cases now with
  | none => exact ⟨_, .incomplete _ (.inr rfl)⟩
  | some node =>
  cases found : get proxies groupName with
  | none =>
    cases before : previous.any fun snapshot => !contains snapshot groupName with
    | true => exact ⟨_, .gone _ _ found before⟩
    | false => exact ⟨_, .absent _ _ found before⟩
  | some group =>
  cases loaded : group.availableNodes with
  | none => exact ⟨_, .unloaded _ _ _ found loaded⟩
  | some nodes =>
  cases selectable : group.proxyType.isSelectable with
  | true =>
    by_cases listed : node ∈ nodes
    · by_cases now : group.now = some node
      · exact ⟨_, .settled _ _ _ _ found loaded selectable listed now⟩
      · exact ⟨_, .activated _ _ _ _ found loaded selectable listed now⟩
    · cases before : missingWasConfirmed previous groupName node with
      | false => exact ⟨_, .unconfirmed _ _ _ _ found loaded selectable listed before⟩
      | true =>
        cases now : group.listedNow nodes with
        | none => exact ⟨_, .invalid _ _ _ _ found loaded selectable listed before now⟩
        | some current =>
          exact ⟨_, .replaced _ _ _ _ _ found loaded selectable listed before now⟩
  | false =>
    cases now : group.listedNow nodes with
    | some current => exact ⟨_, .followed _ _ _ _ _ found loaded selectable now⟩
    | none =>
      by_cases listed : node ∈ nodes
      · exact ⟨_, .listed _ _ _ _ found loaded selectable now listed⟩
      · exact ⟨_, .unlisted _ _ _ _ found loaded selectable now listed⟩

/-- What a record becomes on its own. -/
def outcomeOf (previous : Option Proxies) (proxies : Proxies) (item : PrfSelected) :
    SelectedNodesPlan :=
  reconcileSelectedNode previous proxies .empty item

theorem outcomeOf_eq (fate : Fate previous proxies item outcome) :
    outcomeOf previous proxies item = outcome := by
  rw [outcomeOf, reconcile_of_fate fate]
  simp [SelectedNodesPlan.append, SelectedNodesPlan.empty]

theorem fate_outcomeOf (previous : Option Proxies) (proxies : Proxies) (item : PrfSelected) :
    Fate previous proxies item (outcomeOf previous proxies item) := by
  obtain ⟨outcome, fate⟩ := exists_fate previous proxies item
  rwa [outcomeOf_eq fate]

theorem listedNow_eq_some {group : Proxy} {nodes : List String} {current : String} :
    group.listedNow nodes = some current ↔ group.now = some current ∧ current ∈ nodes := by
  rw [Proxy.listedNow, Option.filter_eq_some_iff, List.contains_iff_mem]

theorem Fate.selected_le (fate : Fate previous proxies item outcome) : outcome.selected.length ≤ 1 ∧
      ∀ entry ∈ outcome.selected, entry.name = item.name ∧ entry.name.isSome = true := by
  cases fate <;> simp

theorem Fate.repairedCount_eq_zero (fate : Fate previous proxies item outcome) :
    outcome.repairedCount = 0 ↔ outcome.selected = [item] := by
  cases fate with
  | replaced groupName node current group nodes found loaded selectable missing before now =>
    have different : current ≠ node := by
      rintro rfl
      exact missing (listedNow_eq_some.mp now).2
    simp [different]
  | followed groupName node current group nodes found loaded fixed now =>
    by_cases same : current = node <;> simp [same]
  | _ => simp

/-- The core has loaded the group, lets a node be selected in it, lists the node and is not on it. -/
def Activates (proxies : Proxies) (groupName node : String) : Prop :=
  ∃ group nodes, get proxies groupName = some group ∧
    group.proxyType.isSelectable = true ∧ group.all = some nodes ∧ node ∈ nodes ∧
    group.now ≠ some node

theorem availableNodes_eq_some {group : Proxy} {nodes : List String} :
    group.availableNodes = some nodes ↔ group.all = some nodes ∧ nodes ≠ [] := by
  rw [Proxy.availableNodes, Option.filter_eq_some_iff]
  simp

theorem Fate.mem_activations (fate : Fate previous proxies item outcome) (groupName node : String) :
    (groupName, node) ∈ outcome.activations ↔
      ⟨some groupName, some node⟩ ∈ outcome.selected ∧ Activates proxies groupName node := by
  have activates {group : Proxy} {nodes : List String} {groupName : String}
      (found : get proxies groupName = some group)
      (loaded : group.availableNodes = some nodes) (node : String) :
      Activates proxies groupName node ↔ group.proxyType.isSelectable = true ∧ node ∈ nodes ∧
        group.now ≠ some node := by
    obtain ⟨all, _⟩ := availableNodes_eq_some.mp loaded
    simp [Activates, found, all]
  have unloaded_ {group : Proxy} {groupName : String}
      (found : get proxies groupName = some group)
      (unloaded : group.availableNodes = none) (node : String) :
      ¬ Activates proxies groupName node := by
    rintro ⟨other, nodes, same, _, all, listed, _⟩
    obtain rfl := Option.some.inj (found.symm.trans same)
    rw [availableNodes_eq_some.mpr ⟨all, List.ne_nil_of_mem listed⟩] at unloaded
    contradiction
  have idle {name kept : String} (stays : ¬ Activates proxies name kept) :
      (groupName, node) ∈ ([] : List (String × String)) ↔
        (⟨some groupName, some node⟩ : PrfSelected) ∈ [⟨some name, some kept⟩] ∧
          Activates proxies groupName node := by
    simp only [List.not_mem_nil, List.mem_singleton, PrfSelected.mk.injEq, Option.some.injEq,
      false_iff, not_and, and_imp]
    rintro rfl rfl
    exact stays
  cases fate with
  | incomplete | gone | invalid | unlisted => simp
  | absent name recorded absent before =>
    refine idle ?_
    rintro ⟨group, nodes, found, _⟩
    rw [absent] at found
    contradiction
  | unloaded name recorded group found unloaded =>
    exact idle (unloaded_ found unloaded _)
  | settled name recorded group nodes found loaded selectable listed now =>
    exact idle (by simp [activates found loaded, now])
  | activated name recorded group nodes found loaded selectable listed now =>
    simp only [List.mem_singleton, PrfSelected.mk.injEq, Option.some.injEq, Prod.mk.injEq]
    constructor
    · rintro ⟨rfl, rfl⟩
      exact ⟨⟨rfl, rfl⟩, (activates found loaded _).mpr ⟨selectable, listed, now⟩⟩
    · exact fun both => both.1
  | unconfirmed name recorded group nodes found loaded selectable missing before =>
    exact idle (by simp [activates found loaded, missing])
  | replaced name recorded current group nodes found loaded selectable missing before now =>
    exact idle (by simp [activates found loaded, (listedNow_eq_some.mp now).1])
  | followed name recorded current group nodes found loaded fixed now
  | listed name recorded group nodes found loaded fixed now listed =>
    exact idle (by simp [activates found loaded, fixed])

theorem Fate.again (fate : Fate previous proxies item outcome) {entry : PrfSelected}
    (left : entry ∈ outcome.selected) :
    ∃ activations, Fate previous proxies entry ⟨[entry], activations, 0⟩ := by
  cases fate with
  | incomplete | gone | invalid | unlisted => contradiction
  | absent groupName node absent before =>
    obtain rfl := List.mem_singleton.mp left
    exact ⟨_, .absent _ _ absent before⟩
  | unloaded groupName node group found unloaded =>
    obtain rfl := List.mem_singleton.mp left
    exact ⟨_, .unloaded _ _ _ found unloaded⟩
  | settled groupName node group nodes found loaded selectable listed now =>
    obtain rfl := List.mem_singleton.mp left
    exact ⟨_, .settled _ _ _ _ found loaded selectable listed now⟩
  | activated groupName node group nodes found loaded selectable listed now =>
    obtain rfl := List.mem_singleton.mp left
    exact ⟨_, .activated _ _ _ _ found loaded selectable listed now⟩
  | unconfirmed groupName node group nodes found loaded selectable missing before =>
    obtain rfl := List.mem_singleton.mp left
    exact ⟨_, .unconfirmed _ _ _ _ found loaded selectable missing before⟩
  | replaced groupName node current group nodes found loaded selectable missing before now =>
    obtain rfl := List.mem_singleton.mp left
    obtain ⟨now, listed⟩ := listedNow_eq_some.mp now
    exact ⟨_, .settled _ _ _ _ found loaded selectable listed now⟩
  | followed groupName node current group nodes found loaded fixed now =>
    obtain rfl := List.mem_singleton.mp left
    have fate : Fate previous proxies ⟨some groupName, some current⟩
        ⟨[⟨some groupName, some current⟩], [], if current = current then 0 else 1⟩ :=
      .followed _ _ _ _ _ found loaded fixed now
    rw [if_pos rfl] at fate
    exact ⟨_, fate⟩
  | listed groupName node group nodes found loaded fixed now listed =>
    obtain rfl := List.mem_singleton.mp left
    exact ⟨_, .listed _ _ _ _ found loaded fixed now listed⟩

/-- No node can be selected in the group, and it lists neither the recorded node nor its own. -/
def Unlisted (proxies : Proxies) (groupName node : String) : Prop :=
  ∃ group nodes, get proxies groupName = some group ∧
    group.proxyType.isSelectable = false ∧ group.availableNodes = some nodes ∧
    group.listedNow nodes = none ∧ node ∉ nodes

theorem Fate.dropped_iff (fate : Fate none proxies item outcome) :
    outcome.selected = [] ↔ item.name = none ∨ item.now = none ∨
      ∃ groupName node, item = ⟨some groupName, some node⟩ ∧ Unlisted proxies groupName node := by
  have loaded_ {group : Proxy} {groupName node : String} {nodes : List String}
      (found : get proxies groupName = some group)
      (loaded : group.availableNodes = some nodes) : Unlisted proxies groupName node ↔
        group.proxyType.isSelectable = false ∧ group.listedNow nodes = none ∧ node ∉ nodes := by
    simp [Unlisted, found, loaded]
  have kept {groupName node : String} (not : ¬ Unlisted proxies groupName node) :
      ¬ ∃ name own, (⟨some groupName, some node⟩ : PrfSelected) = ⟨some name, some own⟩ ∧
        Unlisted proxies name own := by
    rintro ⟨name, own, same, unlisted⟩
    simp only [PrfSelected.mk.injEq, Option.some.injEq] at same
    obtain ⟨rfl, rfl⟩ := same
    exact not unlisted
  cases fate with
  | incomplete item lacks =>
    rcases lacks with unnamed | unset
    · simp [unnamed]
    · simp [unset]
  | gone groupName node absent before => simp at before
  | absent groupName node absent before => simpa using kept (by simp [Unlisted, absent])
  | unloaded groupName node group found unloaded =>
    simpa using kept (by simp [Unlisted, found, unloaded])
  | settled groupName node group nodes found loaded selectable listed now
  | activated groupName node group nodes found loaded selectable listed now
  | unconfirmed groupName node group nodes found loaded selectable missing before =>
    simpa using kept (by simp [loaded_ found loaded, selectable])
  | replaced groupName node current group nodes found loaded selectable missing before now
  | invalid groupName node group nodes found loaded selectable missing before now =>
    simp [missingWasConfirmed] at before
  | followed groupName node current group nodes found loaded fixed now =>
    simpa using kept (by simp [loaded_ found loaded, now])
  | listed groupName node group nodes found loaded fixed now listed =>
    simpa using kept (by simp [loaded_ found loaded, listed])
  | unlisted groupName node group nodes found loaded fixed now missing =>
    have unlisted := (loaded_ found loaded).mpr ⟨fixed, now, missing⟩
    exact ⟨fun _ => .inr (.inr ⟨groupName, node, rfl, unlisted⟩), fun _ => rfl⟩

theorem foldl_reconcile (items : List PrfSelected) (plan : SelectedNodesPlan) :
    items.foldl (reconcileSelectedNode previous proxies) plan =
      ⟨plan.selected ++ items.flatMap fun item => (outcomeOf previous proxies item).selected,
        plan.activations ++ items.flatMap fun item => (outcomeOf previous proxies item).activations,
        plan.repairedCount +
          (items.map fun item => (outcomeOf previous proxies item).repairedCount).sum⟩ := by
  induction items generalizing plan with
  | nil => simp
  | cons item rest ih =>
    rw [List.foldl_cons, ih,
      reconcile_of_fate (fate_outcomeOf previous proxies item)]
    simp [SelectedNodesPlan.append, Nat.add_assoc]

def lastOf (selected : List PrfSelected) (groupName : String) : Option PrfSelected :=
  selected.reverse.find? fun item => item.name = some groupName

theorem lastOf_cons (selected : List PrfSelected) (groupName : String) :
    lastOf (item :: selected) groupName =
      (lastOf selected groupName).or (if item.name = some groupName then some item else none) := by
  rw [lastOf, List.reverse_cons, List.find?_append, ← lastOf]
  by_cases own : item.name = some groupName <;> simp [own]

theorem lastOf_eq_none {selected : List PrfSelected} {groupName : String} :
    lastOf selected groupName = none ↔ ∀ item ∈ selected, item.name ≠ some groupName := by
  simp [lastOf]

theorem name_of_lastOf {selected : List PrfSelected} {groupName : String}
    (last : lastOf selected groupName = some item) :
    item ∈ selected ∧ item.name = some groupName := by
  exact ⟨List.mem_reverse.mp (List.mem_of_find?_eq_some last), by
    simpa using List.find?_some last⟩

theorem uniqueSelected_sublist (selected : List PrfSelected) :
    (uniqueSelected selected).Sublist selected := by
  induction selected with
  | nil => exact List.Sublist.slnil
  | cons item rest ih =>
    unfold uniqueSelected
    split
    · exact ih.cons_cons item
    · exact ih.cons item

theorem filter_uniqueSelected (selected : List PrfSelected) (groupName : String) :
    (uniqueSelected selected).filter (fun item => item.name = some groupName) =
      (lastOf selected groupName).toList := by
  induction selected with
  | nil => rfl
  | cons item rest ih =>
    rw [lastOf_cons]
    by_cases own : item.name = some groupName
    · by_cases last : ∀ later ∈ rest, later.name ≠ item.name
      · have none_ : lastOf rest groupName = none := lastOf_eq_none.mpr (own ▸ last)
        rw [none_] at ih
        rw [uniqueSelected, if_pos ⟨by simp [own], last⟩,
          List.filter_cons_of_pos (by simp [own]), ih, none_, if_pos own]
        rfl
      · have some_ : lastOf rest groupName ≠ none := fun none_ =>
          last (own ▸ lastOf_eq_none.mp none_)
        obtain ⟨later, found⟩ := Option.ne_none_iff_exists'.mp some_
        rw [uniqueSelected, if_neg (fun both => last both.2), ih, found]
        rfl
    · have skipped : (uniqueSelected (item :: rest)).filter
          (fun item => item.name = some groupName) =
          (uniqueSelected rest).filter fun item => item.name = some groupName := by
        rw [uniqueSelected]
        split
        · rw [List.filter_cons_of_neg (by simpa using own)]
        · rfl
      rw [skipped, ih, if_neg own, Option.or_none]

theorem nodup_uniqueSelected (selected : List PrfSelected) :
    ((uniqueSelected selected).map (·.name)).Nodup := by
  induction selected with
  | nil => exact List.nodup_nil
  | cons item rest ih =>
    rw [uniqueSelected]
    split
    · rename_i last
      refine List.nodup_cons.mpr ⟨fun again => ?_, ih⟩
      obtain ⟨later, listed, same⟩ := List.mem_map.mp again
      exact last.2 later ((uniqueSelected_sublist rest).subset listed) same
    · exact ih

theorem uniqueSelected_eq_self {selected : List PrfSelected}
    (distinct : (selected.map (·.name)).Nodup)
    (named : ∀ item ∈ selected, item.name.isSome = true) : uniqueSelected selected = selected := by
  induction selected with
  | nil => rfl
  | cons item rest ih =>
    obtain ⟨fresh, distinct⟩ := List.nodup_cons.mp distinct
    obtain ⟨first, named⟩ := List.forall_mem_cons.mp named
    have last : ∀ later ∈ rest, later.name ≠ item.name := fun later listed same =>
      fresh (List.mem_map.mpr ⟨later, listed, same⟩)
    rw [uniqueSelected, if_pos ⟨first, last⟩, ih distinct named]

theorem length_flatMap_le {Item : Type} {image : Item → List Item} {items : List Item}
    (small : ∀ item ∈ items, (image item).length ≤ 1) :
    (items.flatMap image).length ≤ items.length := by
  induction items with
  | nil => exact Nat.le_refl 0
  | cons item rest ih =>
    obtain ⟨first, small⟩ := List.forall_mem_cons.mp small
    rw [List.flatMap_cons, List.length_append, List.length_cons]
    have later := ih small
    omega

theorem flatMap_eq_self_iff {Item : Type} {image : Item → List Item} {items : List Item}
    (small : ∀ item ∈ items, (image item).length ≤ 1) :
    items.flatMap image = items ↔ ∀ item ∈ items, image item = [item] := by
  induction items with
  | nil => simp
  | cons item rest ih =>
    obtain ⟨first, small⟩ := List.forall_mem_cons.mp small
    rw [List.flatMap_cons, List.forall_mem_cons, ← ih small]
    have shorter := length_flatMap_le small
    match is_ : image item with
    | [] =>
      simp only [List.nil_append, reduceCtorEq, false_and, iff_false]
      intro same
      have lengths := congrArg List.length same
      rw [List.length_cons] at lengths
      omega
    | [only] => simp
    | _ :: _ :: _ =>
      rw [is_, List.length_cons, List.length_cons] at first
      omega

theorem reconcileSelectedNodes_eq (selected : List PrfSelected) (previous : Option Proxies)
    (proxies : Proxies) : reconcileSelectedNodes selected previous proxies =
      ⟨(uniqueSelected selected).flatMap fun item => (outcomeOf previous proxies item).selected,
        (uniqueSelected selected).flatMap fun item =>
          (outcomeOf previous proxies item).activations,
        selected.length - (uniqueSelected selected).length + ((uniqueSelected selected).map
          fun item => (outcomeOf previous proxies item).repairedCount).sum⟩ := by
  rw [reconcileSelectedNodes, foldl_reconcile]
  rfl

theorem reconcileSelectedNodes_singleton (named : item.name.isSome = true) :
    reconcileSelectedNodes [item] previous proxies = outcomeOf previous proxies item := by
  have alone : uniqueSelected [item] = [item] :=
    uniqueSelected_eq_self (List.nodup_singleton _) (by simpa using named)
  rw [reconcileSelectedNodes_eq, alone]
  simp

end

/-- What is asked of a plan. The records of each group are those its last record alone becomes, and
the activations are the entries that the core can take and is not on. -/
structure ExactPlan (selected : List PrfSelected) (previous : Option Proxies) (proxies : Proxies)
    (plan : SelectedNodesPlan) : Prop where
  exact : plan.repairedCount = 0 ↔ plan.selected = selected
  named : ∀ entry ∈ plan.selected, entry.name.isSome = true
  distinct : (plan.selected.map (·.name)).Nodup
  lastWins : ∀ groupName, plan.selected.filter (fun entry => entry.name = some groupName) =
    (lastOf selected groupName).toList.flatMap fun item =>
      (reconcileSelectedNodes [item] previous proxies).selected
  activations : ∀ groupName node, (groupName, node) ∈ plan.activations ↔
    ⟨some groupName, some node⟩ ∈ plan.selected ∧ Activates proxies groupName node
  dropped : previous = none → ∀ groupName item, lastOf selected groupName = some item →
    ((∀ entry ∈ plan.selected, entry.name ≠ some groupName) ↔
      item.now = none ∨ ∃ node, item.now = some node ∧ Unlisted proxies groupName node)
  again : (reconcileSelectedNodes plan.selected previous proxies).repairedCount = 0

section

variable {previous : Option Proxies} {proxies : Proxies}

theorem flatMap_filter_eq {Item : Type} {image : Item → List Item} {passes : Item → Bool}
    (alike : ∀ item, ∀ other ∈ image item, passes other = passes item) (items : List Item) :
    (items.flatMap image).filter passes = (items.filter passes).flatMap image := by
  induction items with
  | nil => rfl
  | cons item rest ih =>
    rw [List.flatMap_cons, List.filter_append, ih]
    cases passed : passes item with
    | true =>
      rw [List.filter_cons_of_pos passed, List.flatMap_cons, List.filter_eq_self.mpr]
      exact fun other member => (alike item other member).trans passed
    | false =>
      rw [List.filter_cons_of_neg (by simp [passed]), List.filter_eq_nil_iff.mpr, List.nil_append]
      exact fun other member => by simp [alike item other member, passed]

theorem plan_selected (selected : List PrfSelected) :
    (reconcileSelectedNodes selected previous proxies).selected =
      (uniqueSelected selected).flatMap fun item => (outcomeOf previous proxies item).selected :=
  congrArg (·.selected) (reconcileSelectedNodes_eq selected previous proxies)

theorem names_sublist (items : List PrfSelected) :
    ((items.flatMap fun item => (outcomeOf previous proxies item).selected).map (·.name)).Sublist
      (items.map (·.name)) := by
  induction items with
  | nil => exact List.Sublist.slnil
  | cons item rest ih =>
    obtain ⟨few, named⟩ := (fate_outcomeOf previous proxies item).selected_le
    rw [List.flatMap_cons, List.map_append, List.map_cons]
    match is_ : (outcomeOf previous proxies item).selected with
    | [] => exact ih.cons _
    | [entry] =>
      rw [is_] at named
      rw [List.map_singleton, (named entry (List.mem_singleton_self _)).1, List.singleton_append]
      exact ih.cons_cons _
    | _ :: _ :: _ =>
      rw [is_, List.length_cons, List.length_cons] at few
      omega

theorem repairedCount_eq_zero_iff (selected : List PrfSelected) :
    (reconcileSelectedNodes selected previous proxies).repairedCount = 0 ↔
      (reconcileSelectedNodes selected previous proxies).selected = selected := by
  have small : ∀ item ∈ uniqueSelected selected,
      (outcomeOf previous proxies item).selected.length ≤ 1 := fun item _ =>
    (fate_outcomeOf previous proxies item).selected_le.1
  have part := uniqueSelected_sublist selected
  have fewer := part.length_le
  have count : (reconcileSelectedNodes selected previous proxies).repairedCount = 0 ↔
      uniqueSelected selected = selected ∧ ∀ item ∈ uniqueSelected selected,
        (outcomeOf previous proxies item).selected = [item] := by
    rw [reconcileSelectedNodes_eq, Nat.add_eq_zero_iff, List.sum_eq_zero_iff_forall_eq_nat,
      List.forall_mem_map]
    refine and_congr ⟨fun none_ => ?_, fun same => ?_⟩ (forall₂_congr fun item _ => ?_)
    · exact part.eq_of_length (by omega)
    · rw [same, Nat.sub_self]
    · exact (fate_outcomeOf previous proxies item).repairedCount_eq_zero
  rw [count, ← flatMap_eq_self_iff small, plan_selected]
  constructor
  · rintro ⟨all, kept⟩
    exact kept.trans all
  · intro kept
    have most := length_flatMap_le small
    rw [kept] at most
    have all := part.eq_of_length (Nat.le_antisymm fewer most)
    exact ⟨all, kept.trans all.symm⟩

theorem mem_plan_selected {selected : List PrfSelected} {entry : PrfSelected} :
    entry ∈ (reconcileSelectedNodes selected previous proxies).selected ↔
      ∃ item ∈ uniqueSelected selected, entry ∈ (outcomeOf previous proxies item).selected := by
  rw [plan_selected, List.mem_flatMap]

theorem mem_plan_activations {selected : List PrfSelected} (groupName node : String) :
    (groupName, node) ∈ (reconcileSelectedNodes selected previous proxies).activations ↔
      ⟨some groupName, some node⟩ ∈ (reconcileSelectedNodes selected previous proxies).selected ∧
        Activates proxies groupName node := by
  rw [mem_plan_selected, reconcileSelectedNodes_eq, List.mem_flatMap]
  constructor
  · rintro ⟨item, listed, active⟩
    obtain ⟨left, activates⟩ := ((fate_outcomeOf _ _ item).mem_activations _ _).mp active
    exact ⟨⟨item, listed, left⟩, activates⟩
  · rintro ⟨⟨item, listed, left⟩, activates⟩
    exact ⟨item, listed, ((fate_outcomeOf _ _ item).mem_activations _ _).mpr ⟨left, activates⟩⟩

theorem filter_plan_selected (previous : Option Proxies) (proxies : Proxies)
    (selected : List PrfSelected) (groupName : String) :
    (reconcileSelectedNodes selected previous proxies).selected.filter
        (fun entry => entry.name = some groupName) =
      (lastOf selected groupName).toList.flatMap fun item =>
        (outcomeOf previous proxies item).selected := by
  rw [plan_selected, ← filter_uniqueSelected]
  refine flatMap_filter_eq (fun item entry left => ?_) _
  rw [((fate_outcomeOf previous proxies item).selected_le.2 entry left).1]

theorem no_entry_iff {selected : List PrfSelected} {groupName : String} {item : PrfSelected}
    (last : lastOf selected groupName = some item) :
    (∀ entry ∈ (reconcileSelectedNodes selected previous proxies).selected,
        entry.name ≠ some groupName) ↔ (outcomeOf previous proxies item).selected = [] := by
  have filtered := filter_plan_selected previous proxies selected groupName
  rw [last, Option.toList_some, List.flatMap_singleton] at filtered
  rw [← filtered, List.filter_eq_nil_iff]
  simp

theorem nodup_plan_names (selected : List PrfSelected) :
    ((reconcileSelectedNodes selected previous proxies).selected.map (·.name)).Nodup := by
  rw [plan_selected]
  exact (names_sublist _).nodup (nodup_uniqueSelected selected)

/-- The plan is exact for all records, and there is nothing left to repair in it. -/
theorem reconcileSelectedNodes_exact (selected : List PrfSelected) (previous : Option Proxies)
    (proxies : Proxies) :
    ExactPlan selected previous proxies (reconcileSelectedNodes selected previous proxies) := by
  have named : ∀ entry ∈ (reconcileSelectedNodes selected previous proxies).selected,
      entry.name.isSome = true := by
    intro entry listed
    obtain ⟨item, _, left⟩ := mem_plan_selected.mp listed
    exact ((fate_outcomeOf previous proxies item).selected_le.2 entry left).2
  refine ⟨repairedCount_eq_zero_iff selected, named, nodup_plan_names selected, fun groupName => ?_,
    mem_plan_activations, ?_, ?_⟩
  · rw [filter_plan_selected]
    cases last : lastOf selected groupName with
    | none => rfl
    | some item =>
      have own : item.name.isSome = true := by rw [(name_of_lastOf last).2]; rfl
      simp only [Option.toList_some, List.flatMap_singleton,
        reconcileSelectedNodes_singleton own]
  · rintro rfl groupName item last
    obtain ⟨_, own⟩ := name_of_lastOf last
    obtain ⟨name, now⟩ := item
    obtain rfl : name = some groupName := own
    rw [no_entry_iff last, (fate_outcomeOf none proxies _).dropped_iff]
    simp only [reduceCtorEq, false_or, PrfSelected.mk.injEq, Option.some.injEq]
    refine or_congr_right ⟨?_, ?_⟩
    · rintro ⟨_, node, ⟨rfl, rfl⟩, unlisted⟩
      exact ⟨node, rfl, unlisted⟩
    · rintro ⟨node, rfl, unlisted⟩
      exact ⟨groupName, node, ⟨rfl, rfl⟩, unlisted⟩
  · rw [repairedCount_eq_zero_iff, plan_selected,
      uniqueSelected_eq_self (nodup_plan_names selected) named]
    refine (flatMap_eq_self_iff fun entry _ =>
      (fate_outcomeOf previous proxies entry).selected_le.1).mpr fun entry listed => ?_
    obtain ⟨item, _, left⟩ := mem_plan_selected.mp listed
    obtain ⟨activations, fate⟩ := (fate_outcomeOf previous proxies item).again left
    rw [outcomeOf_eq fate]

/-- The record of a group that nothing can be selected in goes, though no snapshot came before: the
group lists neither the recorded node nor one it is on. -/
theorem fixedGroup_dropped :
    ¬ ∀ (selected : List PrfSelected) (proxies : Proxies) (item : PrfSelected) (groupName : String),
      item ∈ selected → item.name = some groupName →
      (loadedNodes proxies groupName = none ∨
        ∃ group, get proxies groupName = some group ∧
          group.proxyType.isSelectable = false) →
      ∃ entry ∈ (reconcileSelectedNodes selected none proxies).selected,
        entry.name = some groupName := by
  intro all
  obtain ⟨entry, listed, _⟩ := all [⟨some "group", some "saved"⟩]
    [("group", ⟨.other "Relay", some ["current"], none⟩)] ⟨some "group", some "saved"⟩ "group"
    (List.mem_singleton_self _) rfl (.inr ⟨_, rfl, rfl⟩)
  have none_ : (reconcileSelectedNodes [⟨some "group", some "saved"⟩] none
      [("group", ⟨.other "Relay", some ["current"], none⟩)]).selected = [] := by decide
  rw [none_] at listed
  contradiction

end

end ClashVerge.Profiles
