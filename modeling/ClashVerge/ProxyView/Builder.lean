import ClashVerge.Library.SortedMap
import ClashVerge.Yaml.Value

/-!
# The view of the proxies

`ProxyViewBuilder` turns what the core and its proxy providers report into one view. Every node gets
a record under an id of its own; a member of a group names another group, refers to the record of a
node, or is left unresolved. The maps are sorted first.
-/

namespace ClashVerge.ProxyView

open ClashVerge.Yaml

variable {ProxyType DelayHistory : Type}

structure HashMap (Val : Type) where
  entries : List (String × Val)
  distinct : OrderedMap.Distinct entries

/-- A proxy as the core reports it. A group is a proxy with members. -/
structure Proxy (ProxyType DelayHistory : Type) where
  name : String
  id : Option String
  proxyType : ProxyType
  all : Option (List String)
  alive : Bool
  now : Option String
  fixed : Option String
  hidden : Option Bool
  icon : Option String
  testUrl : Option String
  history : List DelayHistory
  udp : Bool
  xudp : Bool
  tfo : Bool
  mptcp : Bool
  smux : Bool

/-- The kinds of providers; the core has more than the view shows. -/
inductive VehicleType where
  | http
  | file
  | inline_
  | other
deriving DecidableEq

structure SubscriptionInfo where
  upload : Int
  download : Int
  total : Int
  expire : Int

structure ProxyProvider (ProxyType DelayHistory : Type) where
  vehicleType : VehicleType
  proxies : List (Proxy ProxyType DelayHistory)
  updatedAt : Option String
  subscriptionInfo : Option SubscriptionInfo

structure ProxyViewInput (ProxyType DelayHistory : Type) where
  runtimeGroupOrder : List String
  proxies : HashMap (Proxy ProxyType DelayHistory)
  providers : Option (HashMap (ProxyProvider ProxyType DelayHistory))

inductive ProxyViewOrderSource where
  | runtime
  | fallback
deriving DecidableEq

inductive ProxyViewProviderState where
  | ready
  | unavailable
deriving DecidableEq

structure ProxyCapabilities where
  udp : Bool
  xudp : Bool
  tfo : Bool
  mptcp : Bool
  smux : Bool

inductive ProxyMemberUnresolvedReason where
  | missing
  | ambiguous
  | providerUnavailable
deriving DecidableEq

inductive ProxyMemberRef where
  | group (name : String)
  | node (name : String) (recordId : String)
  | unresolved (name : String) (reason : ProxyMemberUnresolvedReason)
deriving DecidableEq

inductive ProxyNodeSource where
  | core (proxyName : String)
  | provider (providerName : String) (proxyName : String)
deriving DecidableEq

structure ProxyGroupView (ProxyType DelayHistory : Type) where
  name : String
  proxyType : ProxyType
  alive : Bool
  now : Option String
  fixed : Option String
  hidden : Option Bool
  icon : Option String
  testUrl : Option String
  history : List DelayHistory
  capabilities : ProxyCapabilities
  members : List ProxyMemberRef

structure ProxyNodeView (ProxyType DelayHistory : Type) where
  recordId : String
  name : String
  proxyType : ProxyType
  alive : Bool
  history : List DelayHistory
  id : Option String
  hidden : Option Bool
  icon : Option String
  testUrl : Option String
  capabilities : ProxyCapabilities
  source : ProxyNodeSource

inductive ProxyProviderVehicleType where
  | http
  | file
  | inline_
deriving DecidableEq

structure ProxyProviderView where
  name : String
  vehicleType : ProxyProviderVehicleType
  updatedAt : Option String
  subscriptionInfo : Option SubscriptionInfo
  proxyRecordIds : List String

abbrev Records (ProxyType DelayHistory : Type) : Type :=
  List (String × ProxyNodeView ProxyType DelayHistory)

structure ProxyViewV1 (ProxyType DelayHistory : Type) where
  schemaVersion : Nat
  orderSource : ProxyViewOrderSource
  providerState : ProxyViewProviderState
  global : Option (ProxyGroupView ProxyType DelayHistory)
  direct : Option String
  groups : List (ProxyGroupView ProxyType DelayHistory)
  records : Records ProxyType DelayHistory
  standalone : List String
  providers : List ProxyProviderView

structure MemberResolver where
  groupNames : List String
  coreNodeIds : List (String × String)
  providerCandidates : List (String × List String)
  providerAvailable : Bool

/-- A group comes before a node of the core, and that before the nodes of the providers. -/
def MemberResolver.resolve (resolver : MemberResolver) (name : String) : ProxyMemberRef :=
  if name ∈ resolver.groupNames then .group name
  else
    match OrderedMap.get resolver.coreNodeIds name with
    | some recordId => .node name recordId
    | none =>
      if !resolver.providerAvailable then .unresolved name .providerUnavailable
      else
        match OrderedMap.get resolver.providerCandidates name with
        | some [recordId] => .node name recordId
        | none => .unresolved name .missing
        | some _ => .unresolved name .ambiguous

namespace Proxy

variable (proxy : Proxy ProxyType DelayHistory)

def capabilities : ProxyCapabilities where
  udp := proxy.udp
  xudp := proxy.xudp
  tfo := proxy.tfo
  mptcp := proxy.mptcp
  smux := proxy.smux

def buildGroup (name : String) (resolver : MemberResolver) :
    ProxyGroupView ProxyType DelayHistory where
  name := name
  proxyType := proxy.proxyType
  alive := proxy.alive
  now := proxy.now
  fixed := proxy.fixed
  hidden := proxy.hidden
  icon := proxy.icon
  testUrl := proxy.testUrl
  history := proxy.history
  capabilities := proxy.capabilities
  members := (proxy.all.getD []).map resolver.resolve

def buildNode (recordId name : String) (source : ProxyNodeSource) :
    ProxyNodeView ProxyType DelayHistory where
  recordId := recordId
  name := name
  proxyType := proxy.proxyType
  alive := proxy.alive
  history := proxy.history
  id := proxy.id
  hidden := proxy.hidden
  icon := proxy.icon
  testUrl := proxy.testUrl
  capabilities := proxy.capabilities
  source := source

end Proxy

def partitionCore (proxies : HashMap (Proxy ProxyType DelayHistory)) :
    List (String × Proxy ProxyType DelayHistory) × List (String × Proxy ProxyType DelayHistory) :=
  proxies.entries.foldl
    (fun (groups, nodes) (name, proxy) =>
      if proxy.all.isSome then (SortedMap.insert groups name proxy, nodes)
      else (groups, SortedMap.insert nodes name proxy))
    ([], [])

def coreRecordId (index : Nat) : String := "c:" ++ toString index

def providerRecordId (providerIndex memberIndex : Nat) : String :=
  "p:" ++ toString providerIndex ++ ":" ++ toString memberIndex

def buildCoreRecords (coreNodes : List (String × Proxy ProxyType DelayHistory)) :
    Records ProxyType DelayHistory × List (String × String) :=
  coreNodes.zipIdx.foldl
    (fun (records, ids) ((name, proxy), index) =>
      let recordId := coreRecordId index
      (SortedMap.insert records recordId (proxy.buildNode recordId name (.core name)),
        SortedMap.insert ids name recordId))
    ([], [])

def shownVehicle : VehicleType → Option ProxyProviderVehicleType
  | .http => some .http
  | .file => some .file
  | .inline_ => some .inline_
  | .other => none

/-- What the loop over the providers changes. -/
structure ProviderRecords (ProxyType DelayHistory : Type) where
  views : List ProxyProviderView
  candidates : List (String × List String)
  records : Records ProxyType DelayHistory

namespace ProviderRecords

/-- `entry(name).or_insert_with(Vec::new).push(id)`. -/
def nominate (candidates : List (String × List String)) (name recordId : String) :
    List (String × List String) :=
  SortedMap.insert candidates name ((OrderedMap.get candidates name).getD [] ++ [recordId])

/-- One pass of the inner loop; the list holds the ids of the provider so far. -/
def addMember (providerName : String) (providerIndex : Nat)
    (progress : ProviderRecords ProxyType DelayHistory × List String)
    (member : Proxy ProxyType DelayHistory × Nat) :
    ProviderRecords ProxyType DelayHistory × List String :=
  let (proxy, memberIndex) := member
  let (state, proxyRecordIds) := progress
  let recordId := providerRecordId providerIndex memberIndex
  ({ state with
      candidates := nominate state.candidates proxy.name recordId
      records := SortedMap.insert state.records recordId
        (proxy.buildNode recordId proxy.name (.provider providerName proxy.name)) },
    proxyRecordIds ++ [recordId])

/-- One pass of the outer loop. A provider of another kind is left out. -/
def addProvider (state : ProviderRecords ProxyType DelayHistory)
    (entry : String × ProxyProvider ProxyType DelayHistory) :
    ProviderRecords ProxyType DelayHistory :=
  let (providerName, provider) := entry
  match shownVehicle provider.vehicleType with
  | none => state
  | some vehicleType =>
    let providerIndex := state.views.length
    let (state, proxyRecordIds) :=
      provider.proxies.zipIdx.foldl (addMember providerName providerIndex) (state, [])
    { state with
      views := state.views ++ [{
        name := providerName
        vehicleType
        updatedAt := provider.updatedAt
        subscriptionInfo := provider.subscriptionInfo
        proxyRecordIds }] }

end ProviderRecords

def buildProviderRecords (providers : Option (HashMap (ProxyProvider ProxyType DelayHistory)))
    (records : Records ProxyType DelayHistory) : ProviderRecords ProxyType DelayHistory :=
  (SortedMap.ofList ((providers.map HashMap.entries).getD [])).foldl ProviderRecords.addProvider
    { views := [], candidates := [], records }

/-- One pass of the loop over the declared names. -/
def takeGroup (resolver : MemberResolver) (progress : List (String × Proxy ProxyType DelayHistory) ×
      List (ProxyGroupView ProxyType DelayHistory)) (name : String) :
    List (String × Proxy ProxyType DelayHistory) ×
      List (ProxyGroupView ProxyType DelayHistory) :=
  let (coreGroups, groups) := progress
  match OrderedMap.get coreGroups name with
  | some proxy => (OrderedMap.erase coreGroups name, groups ++ [proxy.buildGroup name resolver])
  | none => (coreGroups, groups)

def buildOrderedGroups (coreGroups : List (String × Proxy ProxyType DelayHistory))
    (runtimeGroupOrder : List String) (resolver : MemberResolver) :
    List (ProxyGroupView ProxyType DelayHistory) × ProxyViewOrderSource :=
  let (coreGroups, groups) := runtimeGroupOrder.foldl (takeGroup resolver) (coreGroups, [])
  let orderSource := if groups.isEmpty then .fallback else .runtime
  (groups ++ coreGroups.map fun (name, proxy) => proxy.buildGroup name resolver, orderSource)

def buildStandalone (coreNodeIds : List (String × String)) : List String :=
  (["DIRECT", "REJECT"].filterMap (OrderedMap.get coreNodeIds)) ++
    (coreNodeIds.filter fun entry => entry.1 ≠ "DIRECT" && entry.1 ≠ "REJECT").map Prod.snd

def build (input : ProxyViewInput ProxyType DelayHistory) : ProxyViewV1 ProxyType DelayHistory :=
  let providerState := if input.providers.isSome then .ready else .unavailable
  let (coreGroups, coreNodes) := partitionCore input.proxies
  let (records, coreNodeIds) := buildCoreRecords coreNodes
  let provided := buildProviderRecords input.providers records
  let resolver : MemberResolver := {
    groupNames := OrderedMap.keys coreGroups
    coreNodeIds
    providerCandidates := provided.candidates
    providerAvailable := providerState == .ready }
  let (groups, orderSource) :=
    buildOrderedGroups (OrderedMap.erase coreGroups "GLOBAL") input.runtimeGroupOrder resolver
  { schemaVersion := 1
    orderSource
    providerState
    global := (OrderedMap.get coreGroups "GLOBAL").map fun proxy => proxy.buildGroup "GLOBAL" resolver
    direct := OrderedMap.get coreNodeIds "DIRECT"
    groups
    records := provided.records
    standalone := buildStandalone coreNodeIds
    providers := provided.views }

def runtimeGroupOrder (config : Option Mapping) : List String :=
  let groups := ((config.bind (·.get "proxy-groups")).bind Value.asSequence).getD []
  let names := groups.filterMap fun group =>
    (group.asMapping.bind (·.get "name")).bind Value.asStr
  (names.filter fun name => name ≠ "" && name ≠ "GLOBAL").eraseDups

def getProxyView (config : Option Mapping) (proxies : HashMap (Proxy ProxyType DelayHistory))
    (providers : Option (HashMap (ProxyProvider ProxyType DelayHistory))) :
    ProxyViewV1 ProxyType DelayHistory :=
  build { runtimeGroupOrder := runtimeGroupOrder config, proxies, providers }

end ClashVerge.ProxyView
