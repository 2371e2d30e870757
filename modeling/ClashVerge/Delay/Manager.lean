import ClashVerge.Library.OrderedMap
import ClashVerge.UriParser.Text

/-!
# The delay store

`DelayManager` keeps the last delay measured for each node of each group, and whom to tell of a new
one, under one text made of the group's name, two colons and the node's name; a list of groups is
one text with a space between the names.

Snapshots are numbered as they are created; sets of snapshots have numbers of their own. The two
callbacks that wait for the next frame are calls as well, which do nothing unless scheduled. What
listeners were told is recorded.
-/

namespace ClashVerge.Delay

open OrderedMap
open UriParser (Text unit text)

def colons : Text := text "::"

def space : UInt16 := unit ' '

def hashKey (name group : Text) : Text := group ++ colons ++ name

structure DelayUpdate where
  delay : Int
  elapsed : Option Int
  updatedAt : Int
deriving DecidableEq, Repr

/-- Half an hour in milliseconds. -/
def CACHE_TTL : Int := 30 * 60 * 1000

/-- A node's place in a group. -/
structure Pair where
  name : Text
  group : Text
deriving DecidableEq, Repr

def Pair.key (pair : Pair) : Text := hashKey pair.name pair.group

structure Listener where
  pair : Pair
  callback : Nat
deriving DecidableEq, Repr

inductive Source where
  | core (proxyName : Text)
  | provider (providerName proxyName : Text)
deriving DecidableEq, Repr

inductive InteractableProxyMember where
  | group (name : Text) (history : List Int)
  | node (name : Text) (history : List Int) (source : Source)
deriving DecidableEq, Repr

namespace InteractableProxyMember

def name : InteractableProxyMember → Text
  | group name _ => name
  | node name _ _ => name

/-- The history of `memberDetails`. -/
def history : InteractableProxyMember → List Int
  | group _ history => history
  | node _ history _ => history

/-- `providerNameOf`, for a node. -/
def providerName : InteractableProxyMember → Option Text
  | node _ _ (.provider providerName _) => some providerName
  | _ => none

def apiName : InteractableProxyMember → Text
  | node _ _ (.provider _ proxyName) => proxyName
  | member => member.name

end InteractableProxyMember

inductive ResolvedProxyMember where
  | interactable (member : InteractableProxyMember)
  | unresolved (name : Text)
deriving DecidableEq, Repr

/-- A snapshot reads the store through its group whenever it is asked. -/
structure DelaySnapshot where
  identity : Nat
  group : Text
deriving DecidableEq, Repr

structure GroupSetSnapshot where
  identity : Nat
  snapshots : List (Text × DelaySnapshot)
deriving DecidableEq, Repr

structure Manager where
  cache : List (Text × DelayUpdate) := []
  urlMap : List (Text × Text) := []
  listenerMap : List (Text × Listener) := []
  groupListenerMap : List (Text × List Nat) := []
  groupSnapshots : List (Text × DelaySnapshot) := []
  groupSetSnapshots : List (Text × GroupSetSnapshot) := []
  activeBatches : List (Text × Nat) := []
  pendingItemUpdates : List (Text × List DelayUpdate) := []
  pendingGroupUpdates : List Text := []
  itemFlushScheduled : Bool := false
  groupFlushScheduled : Bool := false
  created : List DelaySnapshot := []
  /-- The number of sets of snapshots created so far. -/
  createdSets : Nat := 0
  /-- The groups whose notification was queued. -/
  queued : List Text := []
  /-- What the listeners of pairs were called with. -/
  delivered : List (Listener × DelayUpdate) := []
  /-- Which listeners of which groups were called. -/
  notified : List (Text × Nat) := []
deriving DecidableEq, Repr

/-- What the updates that wait under a key are delivered as. A listener that throws is told the
rest all the same. -/
def deliveries (listenerMap : List (Text × Listener)) (entry : Text × List DelayUpdate) :
    List (Listener × DelayUpdate) :=
  match get listenerMap entry.1 with
  | none => []
  | some listener => entry.2.map fun update => (listener, update)

namespace Manager

/-- The callback of `scheduleItemFlush`. -/
def flushItems (manager : Manager) : Manager :=
  if manager.itemFlushScheduled then
    { manager with
      itemFlushScheduled := false
      pendingItemUpdates := []
      delivered :=
        manager.delivered ++ manager.pendingItemUpdates.flatMap (deliveries manager.listenerMap) }
  else manager

/-- The callback of `scheduleGroupFlush`. What the listeners call in turn are calls of their own. -/
def flushGroups (manager : Manager) : Manager :=
  if manager.groupFlushScheduled then
    { manager with
      groupFlushScheduled := false
      pendingGroupUpdates := []
      notified := manager.notified ++ manager.pendingGroupUpdates.flatMap fun group =>
        ((get manager.groupListenerMap group).getD []).map fun listener => (group, listener) }
  else manager

def active (manager : Manager) (group : Text) : Nat := (get manager.activeBatches group).getD 0

def queueGroupNotification (manager : Manager) (group : Text) : Manager :=
  if 0 < manager.active group then manager
  else
    { manager with
      groupSnapshots := erase manager.groupSnapshots group
      groupSetSnapshots := []
      pendingGroupUpdates :=
        if group ∈ manager.pendingGroupUpdates then manager.pendingGroupUpdates
        else manager.pendingGroupUpdates ++ [group]
      groupFlushScheduled := true
      queued := manager.queued ++ [group] }

def groupDelays (manager : Manager) (group : Text) : DelaySnapshot × Manager :=
  match get manager.groupSnapshots group with
  | some existing => (existing, manager)
  | none =>
    let snapshot : DelaySnapshot := ⟨manager.created.length, group⟩
    (snapshot, { manager with
      created := manager.created ++ [snapshot]
      groupSnapshots := insert manager.groupSnapshots group snapshot })

/-- The entries of the map that `groupsDelays` builds, each name's snapshot in turn. -/
def collectSnapshots (manager : Manager) (snapshots : List (Text × DelaySnapshot)) :
    List Text → List (Text × DelaySnapshot) × Manager
  | [] => (snapshots, manager)
  | name :: names =>
    let (snapshot, manager) := manager.groupDelays name
    collectSnapshots manager (insert snapshots name snapshot) names

def namesOf (groupKey : Text) : List Text := if groupKey = [] then [] else groupKey.splitOn space

def groupsDelays (manager : Manager) (groupKey : Text) : GroupSetSnapshot × Manager :=
  match get manager.groupSetSnapshots groupKey with
  | some cached => (cached, manager)
  | none =>
    let (snapshots, manager) := manager.collectSnapshots [] (namesOf groupKey)
    let set : GroupSetSnapshot := ⟨manager.createdSets, snapshots⟩
    (set, { manager with
      createdSets := manager.createdSets + 1
      groupSetSnapshots := insert manager.groupSetSnapshots groupKey set })

/-- `setUrl`, whose last argument is the verdict of `isValidUrl`. -/
def setUrl (manager : Manager) (group url : Text) (isValidUrl : Bool) : Manager :=
  if isValidUrl then { manager with urlMap := insert manager.urlMap group url }
  else { manager with urlMap := erase manager.urlMap group }

def getUrl (manager : Manager) (group : Text) : Text :=
  match get manager.urlMap group with
  | some url => if url = [] then text "http://cp.cloudflare.com/generate_204" else url
  | none => text "http://cp.cloudflare.com/generate_204"

def setListener (manager : Manager) (name group : Text) (callback : Nat) : Manager :=
  { manager with
    listenerMap := insert manager.listenerMap (hashKey name group) ⟨⟨name, group⟩, callback⟩ }

def removeListener (manager : Manager) (name group : Text) : Manager :=
  { manager with listenerMap := erase manager.listenerMap (hashKey name group) }

def addGroupListener (manager : Manager) (group : Text) (listener : Nat) : Manager :=
  let listeners := (get manager.groupListenerMap group).getD []
  { manager with
    groupListenerMap := insert manager.groupListenerMap group
      (if listener ∈ listeners then listeners else listeners ++ [listener]) }

/-- The function that `addGroupListener` returns. -/
def removeGroupListener (manager : Manager) (group : Text) (listener : Nat) : Manager :=
  match get manager.groupListenerMap group with
  | none => manager
  | some current =>
    let left := current.filter (· ≠ listener)
    { manager with
      groupListenerMap :=
        if left = [] then erase manager.groupListenerMap group
        else insert manager.groupListenerMap group left }

def setDelay (manager : Manager) (name group : Text) (delay : Int) (elapsed : Option Int)
    (now : Int) : Manager :=
  let key := hashKey name group
  let update : DelayUpdate := ⟨delay, elapsed, now⟩
  { manager with
    cache := insert manager.cache key update
    pendingItemUpdates := insert manager.pendingItemUpdates key
      ((get manager.pendingItemUpdates key).getD [] ++ [update])
    itemFlushScheduled := true }

def getDelayUpdate (manager : Manager) (name group : Text) (now : Int) :
    Option DelayUpdate × Manager :=
  match get manager.cache (hashKey name group) with
  | none => (none, manager)
  | some entry =>
    if now - entry.updatedAt > CACHE_TTL then
      (none, { manager with cache := erase manager.cache (hashKey name group) })
    else (some entry, manager)

def getDelayFix (manager : Manager) (member : ResolvedProxyMember) (group : Text) (now : Int) :
    Int × Manager :=
  match member with
  | .unresolved _ => (-1, manager)
  | .interactable member =>
    let (update, manager) := manager.getDelayUpdate member.name group now
    let past : Int :=
      match member.history.getLast? with
      | none => -1
      | some delay => if delay = 0 then 1000000 else delay
    match update with
    | some update =>
      (if 0 ≤ update.delay ∨ update.delay = -2 then update.delay else past, manager)
    | none => (past, manager)

/-- What `checkListDelay` does to the count of active batches before it starts. -/
def openBatch (manager : Manager) (group : Text) : Manager :=
  { manager with
    activeBatches := insert manager.activeBatches group (manager.active group + 1) }

/-- The `finally` of `checkListDelay`. -/
def closeBatch (manager : Manager) (group : Text) : Manager :=
  let remaining := (get manager.activeBatches group).getD 1 - 1
  if 0 < remaining then
    { manager with activeBatches := insert manager.activeBatches group remaining }
  else
    { manager with activeBatches := erase manager.activeBatches group }.queueGroupNotification group

end Manager

/-- What runs without interruption. -/
inductive Call where
  | setUrl (group url : Text) (isValidUrl : Bool)
  | setListener (name group : Text) (callback : Nat)
  | removeListener (name group : Text)
  | addGroupListener (group : Text) (listener : Nat)
  | removeGroupListener (group : Text) (listener : Nat)
  | setDelay (name group : Text) (delay : Int) (elapsed : Option Int) (now : Int)
  | getDelayUpdate (name group : Text) (now : Int)
  | groupDelays (group : Text)
  | groupsDelays (groupKey : Text)
  | queueGroupNotification (group : Text)
  | openBatch (group : Text)
  | closeBatch (group : Text)
  | flushItems
  | flushGroups
deriving DecidableEq, Repr

namespace Manager

def perform (manager : Manager) : Call → Manager
  | .setUrl group url isValidUrl => manager.setUrl group url isValidUrl
  | .setListener name group callback => manager.setListener name group callback
  | .removeListener name group => manager.removeListener name group
  | .addGroupListener group listener => manager.addGroupListener group listener
  | .removeGroupListener group listener => manager.removeGroupListener group listener
  | .setDelay name group delay elapsed now => manager.setDelay name group delay elapsed now
  | .getDelayUpdate name group now => (manager.getDelayUpdate name group now).2
  | .groupDelays group => (manager.groupDelays group).2
  | .groupsDelays groupKey => (manager.groupsDelays groupKey).2
  | .queueGroupNotification group => manager.queueGroupNotification group
  | .openBatch group => manager.openBatch group
  | .closeBatch group => manager.closeBatch group
  | .flushItems => manager.flushItems
  | .flushGroups => manager.flushGroups

/-- The manager after the calls, from the one the module creates. -/
def performAll (calls : List Call) : Manager := calls.foldl perform {}

end Manager

def useGroupsDelays (manager : Manager) (groups : List Text) : GroupSetSnapshot × Manager :=
  manager.groupsDelays (Delimited.join space groups)

end ClashVerge.Delay
