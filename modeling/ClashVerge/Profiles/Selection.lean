import ClashVerge.Library.OrderedMap
import ClashVerge.Profiles.Store

/-!
# Saved node selections

Each profile keeps the node that was selected in each of its groups. The user's operations write the
selection of one group, or forget it, or patch the whole list. A worker that puts the selections
back after an activation compares them with what the core has, and may repair the list.
-/

namespace ClashVerge.Profiles

open ClashVerge.Verge

/-- The type of a group, of which four can be selected in. -/
inductive ProxyType where
  | selector
  | urlTest
  | fallback
  | loadBalance
  | other (name : String)
deriving DecidableEq

structure Proxy where
  proxyType : ProxyType
  all : Option (List String)
  now : Option String
deriving DecidableEq

/-- The groups of the core by name. -/
abbrev Proxies := List (String × Proxy)

structure SelectedNodesPlan where
  selected : List PrfSelected
  activations : List (String × String)
  repairedCount : Nat
deriving DecidableEq

def ProxyType.isSelectable : ProxyType → Bool
  | .selector | .urlTest | .fallback | .loadBalance => true
  | .other _ => false

def Proxy.availableNodes (group : Proxy) : Option (List String) :=
  group.all.filter fun nodes => !nodes.isEmpty

def uniqueSelected : List PrfSelected → List PrfSelected
  | [] => []
  | item :: rest =>
    if item.name.isSome ∧ ∀ later ∈ rest, later.name ≠ item.name then item :: uniqueSelected rest
    else uniqueSelected rest

namespace SelectedNodesPlan

variable (plan : SelectedNodesPlan)

def keep (item : PrfSelected) : SelectedNodesPlan := { plan with selected := plan.selected ++ [item] }

def repair : SelectedNodesPlan := { plan with repairedCount := plan.repairedCount + 1 }

end SelectedNodesPlan

/-- What becomes of a selection in a group that the core has with some nodes. -/
def reconcileInGroup (previous : Option Proxies) (plan : SelectedNodesPlan) (item : PrfSelected)
    (groupName node : String) (group : Proxy) (availableNodes : List String) :
    SelectedNodesPlan :=
  let current := group.now.filter (availableNodes.contains ·)
  if group.proxyType.isSelectable then
    if availableNodes.contains node then
      if group.now = some node then plan.keep item
      else { plan.keep item with activations := plan.activations ++ [(groupName, node)] }
    else
      let missingWasConfirmed := ((previous.bind (OrderedMap.get · groupName)).bind
        (·.availableNodes)).any fun nodes => !nodes.contains node
      if missingWasConfirmed then
        match current with
        | some current => plan.repair.keep ⟨some groupName, some current⟩
        | none => plan.repair
      else plan.keep item
  else
    match current <|> (if availableNodes.contains node then some node else none) with
    | some preferred =>
      if preferred = node then plan.keep ⟨some groupName, some preferred⟩
      else plan.repair.keep ⟨some groupName, some preferred⟩
    | none => plan.repair

/-- One turn of the loop of `reconcile_selected_nodes`. -/
def reconcileSelectedNode (previous : Option Proxies) (proxies : Proxies)
    (plan : SelectedNodesPlan) (item : PrfSelected) : SelectedNodesPlan :=
  match item.name, item.now with
  | some groupName, some node =>
    match OrderedMap.get proxies groupName with
    | none =>
      if previous.any fun snapshot => !OrderedMap.contains snapshot groupName then plan.repair
      else plan.keep item
    | some group =>
      match group.availableNodes with
      | none => plan.keep item
      | some availableNodes =>
        reconcileInGroup previous plan item groupName node group availableNodes
  | _, _ => plan.repair

def reconcileSelectedNodes (selected : List PrfSelected) (previous : Option Proxies)
    (proxies : Proxies) : SelectedNodesPlan :=
  let unique := uniqueSelected selected
  unique.foldl (reconcileSelectedNode previous proxies) ⟨[], [], selected.length - unique.length⟩

def IProfiles.currentItem (profiles : IProfiles) : Option (String × PrfItem) :=
  profiles.current.bind fun uid => (findItem profiles.list uid).map fun item => (uid, item)

/-- The selections of a profile, which may have none. -/
def PrfItem.selections (item : PrfItem) : List PrfSelected := item.selected.getD []

def IProfiles.select (profiles : IProfiles) (uid : String) (selected : Option (List PrfSelected)) :
    IProfiles :=
  { profiles with items := some (modifyItem profiles.list uid fun item => { item with selected }) }

def storedSelection (selected : List PrfSelected) : Option (List PrfSelected) :=
  if selected.isEmpty then none else some selected

def recordNode (selected : List PrfSelected) (groupName node : String) :
    Option (List PrfSelected) :=
  match selected with
  | [] => some [⟨some groupName, some node⟩]
  | entry :: rest =>
    if entry.name = some groupName then
      if entry.now = some node then none else some ({ entry with now := some node } :: rest)
    else (recordNode rest groupName node).map (entry :: ·)

def removeSelectedNode (selected : List PrfSelected) (groupName : String) :
    Option (List PrfSelected) :=
  let left := selected.filter fun entry => entry.name ≠ some groupName
  if left.length = selected.length then none else some left

inductive SelectionOperation where
  | recordSelectedNode (groupName node : String)
  | forgetSelectedNode (groupName : String)
  | patchProfile (index : String) (profile : PrfItem)
deriving DecidableEq

def SelectionOperation.target (profiles : IProfiles) : SelectionOperation → Option String
  | .recordSelectedNode .. | .forgetSelectedNode _ => profiles.current
  | .patchProfile index _ => some index

/-- The body of the operation, for what saving the file returns: the store, and whether a selection
is recorded. -/
def SelectionOperation.run (os : Os) (profiles : IProfiles) (saved : Except String Unit) :
    SelectionOperation → Except String (IProfiles × Bool)
  | .recordSelectedNode groupName node =>
    match profiles.currentItem with
    | none => .ok (profiles, false)
    | some (uid, item) =>
      match recordNode item.selections groupName node with
      | none => .ok (profiles, false)
      | some selected => saved.map fun _ => (profiles.select uid (some selected), true)
  | .forgetSelectedNode groupName =>
    match profiles.currentItem with
    | none => .ok (profiles, false)
    | some (uid, item) =>
      match removeSelectedNode item.selections groupName with
      | none => .ok (profiles, false)
      | some selected =>
        saved.map fun _ => (profiles.select uid (storedSelection selected), true)
  | .patchProfile index profile =>
    (profiles.patchItem os index profile).bind fun patched =>
      saved.map fun _ => (patched, profile.selected.isSome)

/-- The body of `persist_reconciled_selected`: the store, and whether it is written. -/
def persistReconciled (uid : String) (original selected : List PrfSelected) (current : Bool)
    (saved : Except String Unit) (profiles : IProfiles) : Except String (IProfiles × Bool) :=
  if current = false ∨ profiles.current ≠ some uid then .ok (profiles, false)
  else
    match findItem profiles.list uid with
    | none => .error ("failed to find the profile item \"uid:" ++ uid ++ "\"")
    | some item =>
      if item.selections ≠ original then .ok (profiles, false)
      else saved.map fun _ => (profiles.select uid (storedSelection selected), true)

section

variable {uid : String} {original selected : List PrfSelected} {current : Bool}
  {saved : Except String Unit} {profiles written : IProfiles} {updated : Bool}

theorem persistReconciled_ok
    (wrote : persistReconciled uid original selected current saved profiles =
      .ok (written, updated)) :
    written = profiles ∨ current = true ∧ profiles.current = some uid ∧
      (∃ item, findItem profiles.list uid = some item ∧ item.selections = original) ∧
      written = profiles.select uid (storedSelection selected) := by
  unfold persistReconciled at wrote
  split_ifs at wrote with skipped
  · exact .inl (Prod.mk.inj (Except.ok.inj wrote)).1.symm
  · obtain ⟨checked, is_⟩ := not_or.mp skipped
    split at wrote
    · contradiction
    · rename_i item found
      split_ifs at wrote with changed
      · exact .inl (Prod.mk.inj (Except.ok.inj wrote)).1.symm
      · cases saved with
        | error error => contradiction
        | ok _ =>
          refine .inr ⟨by simpa using checked, not_not.mp is_, ⟨item, found, not_not.mp changed⟩, ?_⟩
          exact (Prod.mk.inj (Except.ok.inj wrote)).1.symm

end

end ClashVerge.Profiles
