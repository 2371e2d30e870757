import ClashVerge.Library.Objects
import ClashVerge.Library.OrderedMap

/-!
# Merging a snapshot of the connections

`mergeConnectionSnapshot` turns a payload, which lists all connections, into the data that the pages
show. It gives back the objects of the data before wherever nothing has changed: a connection, its
metadata, its chains and the two lists are objects. Arrays are objects in a memory, and `push`
changes one. The counters are integers.
-/

namespace ClashVerge.ConnectionData

open Objects

/-! ## Connections -/

/-- The metadata of a connection, whose entries may be missing. -/
structure Metadata where
  network : Option String
  type : Option String
  host : Option String
  sourceIP : Option String
  sourcePort : Option String
  destinationPort : Option String
  destinationIP : Option String
  remoteDestination : Option String
  process : Option String
  processPath : Option String
deriving DecidableEq, Repr

structure Connection where
  id : String
  metadata : Metadata
  upload : Option Int
  download : Option Int
  start : Option String
  chains : Option (List String)
  rule : Option String
  rulePayload : Option String
deriving DecidableEq, Repr

/-- `IConnections`. -/
structure Payload where
  uploadTotal : Option Int
  downloadTotal : Option Int
  connections : Option (List Connection)
deriving DecidableEq, Repr

/-- A connection as the pages get it. -/
structure Item where
  id : String
  metadata : Ref Metadata
  upload : Int
  download : Int
  start : String
  chains : Ref (List String)
  rule : String
  rulePayload : String
  curUpload : Int
  curDownload : Int
deriving DecidableEq, Repr

/-- `ConnectionMonitorData`. -/
structure MonitorData where
  uploadTotal : Int
  downloadTotal : Int
  activeConnections : Ref (List (Ref Item))
  closedConnections : Ref (List (Ref Item))
deriving DecidableEq, Repr

structure Heap where
  metadata : Store Metadata
  chains : Store (List String)
  items : Store Item
  lists : Store (List (Ref Item))
deriving DecidableEq, Repr

namespace Heap

def allocMetadata (heap : Heap) (value : Metadata) : Ref Metadata × Heap :=
  let (ref, metadata) := heap.metadata.alloc value
  (ref, { heap with metadata := metadata })

def allocChains (heap : Heap) (value : List String) : Ref (List String) × Heap :=
  let (ref, chains) := heap.chains.alloc value
  (ref, { heap with chains := chains })

def allocItem (heap : Heap) (value : Item) : Ref Item × Heap :=
  let (ref, items) := heap.items.alloc value
  (ref, { heap with items := items })

def allocList (heap : Heap) (value : List (Ref Item)) : Ref (List (Ref Item)) × Heap :=
  let (ref, lists) := heap.lists.alloc value
  (ref, { heap with lists := lists })

def push (heap : Heap) (list : Ref (List (Ref Item))) (item : Ref Item) : Option Heap := do
  let items ← heap.lists.read list
  return { heap with lists := heap.lists.write list (items ++ [item]) }

end Heap

/-! ## One connection -/

def metadataValue (value : Option String) : String := value.getD ""

def sameMetadata (left right : Metadata) : Bool :=
  metadataValue left.network == metadataValue right.network &&
  metadataValue left.type == metadataValue right.type &&
  metadataValue left.host == metadataValue right.host &&
  metadataValue left.sourceIP == metadataValue right.sourceIP &&
  metadataValue left.sourcePort == metadataValue right.sourcePort &&
  metadataValue left.destinationPort == metadataValue right.destinationPort &&
  metadataValue left.destinationIP == metadataValue right.destinationIP &&
  metadataValue left.remoteDestination == metadataValue right.remoteDestination &&
  metadataValue left.process == metadataValue right.process &&
  metadataValue left.processPath == metadataValue right.processPath

/-- The metadata with an empty text for each entry that is missing. -/
def Metadata.normalized (metadata : Metadata) : Metadata where
  network := some (metadataValue metadata.network)
  type := some (metadataValue metadata.type)
  host := some (metadataValue metadata.host)
  sourceIP := some (metadataValue metadata.sourceIP)
  sourcePort := some (metadataValue metadata.sourcePort)
  destinationPort := some (metadataValue metadata.destinationPort)
  destinationIP := some (metadataValue metadata.destinationIP)
  remoteDestination := some (metadataValue metadata.remoteDestination)
  process := some (metadataValue metadata.process)
  processPath := some (metadataValue metadata.processPath)

def normalizeMetadata (heap : Heap) (metadata : Metadata) (previous : Option (Ref Metadata)) :
    Option (Ref Metadata × Heap) :=
  match previous with
  | none => some (heap.allocMetadata metadata.normalized)
  | some previous => do
    let earlier ← heap.metadata.read previous
    if sameMetadata earlier metadata then return (previous, heap)
    else return heap.allocMetadata metadata.normalized

/-- `sameChains` compares the chains one by one. -/
def normalizeChains (heap : Heap) (chains : List String) (previous : Option (Ref (List String))) :
    Option (Ref (List String) × Heap) :=
  match previous with
  | none => some (heap.allocChains chains)
  | some previous => do
    let earlier ← heap.chains.read previous
    if earlier = chains then return (previous, heap) else return heap.allocChains chains

def normalizeConnection (heap : Heap) (connection : Connection) (previous : Option (Ref Item)) :
    Option (Ref Item × Heap) := do
  let earlier ← match previous with
    | none => some none
    | some previous => (heap.items.read previous).map some
  let (metadata, heap) ← normalizeMetadata heap connection.metadata (earlier.map (·.metadata))
  let (chains, heap) ← normalizeChains heap (connection.chains.getD []) (earlier.map (·.chains))
  let upload := connection.upload.getD 0
  let download := connection.download.getD 0
  let item : Item := {
    id := connection.id
    metadata := metadata
    upload := upload
    download := download
    start := connection.start.getD ""
    chains := chains
    rule := connection.rule.getD ""
    rulePayload := connection.rulePayload.getD ""
    curUpload := (earlier.map fun earlier => upload - earlier.upload).getD 0
    curDownload := (earlier.map fun earlier => download - earlier.download).getD 0 }
  match previous, earlier with
  | some previous, some earlier =>
    -- the identifiers are not compared
    if earlier = { item with id := earlier.id } then return (previous, heap)
    else return heap.allocItem item
  | _, _ => return heap.allocItem item

/-! ## All connections -/

def maxClosedConnsNum : Nat := 500

/-- `previousActiveById`. -/
abbrev ById : Type := List (String × Ref Item)

/-- The first loop: a map of the connections before. -/
def indexActive (heap : Heap) : List (Ref Item) → ById → Option ById
  | [], byId => some byId
  | ref :: rest, byId => do
    let item ← heap.items.read ref
    indexActive heap rest (OrderedMap.insert byId item.id ref)

def ById.delete (byId : ById) (id : String) : ById := byId.filter fun entry => entry.1 ≠ id

/-- The second loop: the connections of the payload, which leave the map. -/
def mergeActive (active : Ref (List (Ref Item))) :
    Heap → ById → List Connection → Option (ById × Heap)
  | heap, byId, [] => some (byId, heap)
  | heap, byId, connection :: rest => do
    let previous := OrderedMap.get byId connection.id
    let left := if previous.isSome then byId.delete connection.id else byId
    let (ref, heap) ← normalizeConnection heap connection previous
    let heap ← heap.push active ref
    mergeActive active heap left rest

/-- The third loop: the connections that are left in the map, but for the first ones. -/
def pushClosed (closed : Ref (List (Ref Item))) (byId : ById) :
    Heap → Nat → List (Ref Item) → Option Heap
  | heap, _, [] => some heap
  | heap, skipRemoved, ref :: rest => do
    let item ← heap.items.read ref
    if OrderedMap.contains byId item.id = false then pushClosed closed byId heap skipRemoved rest
    else if 0 < skipRemoved then pushClosed closed byId heap (skipRemoved - 1) rest
    else do
      let heap ← heap.push closed ref
      pushClosed closed byId heap skipRemoved rest

def mergeConnectionSnapshot (heap : Heap) (payload : Payload) (previous : MonitorData) :
    Option (MonitorData × Heap) := do
  let nextConnections := payload.connections.getD []
  let previousActive ← heap.lists.read previous.activeConnections
  let previousClosed ← heap.lists.read previous.closedConnections
  let previousActiveById ← indexActive heap previousActive []
  let (activeConnections, heap) := heap.allocList []
  let (left, heap) ← mergeActive activeConnections heap previousActiveById nextConnections
  let uploadTotal := payload.uploadTotal.getD 0
  let downloadTotal := payload.downloadTotal.getD 0
  if left.length = 0 then
    return (⟨uploadTotal, downloadTotal, activeConnections, previous.closedConnections⟩, heap)
  else
    let removedConnectionCount := left.length
    let dropFromClosed := previousClosed.length + removedConnectionCount - maxClosedConnsNum
    let kept := if previousClosed.length ≤ dropFromClosed then []
      else previousClosed.drop dropFromClosed
    let (closedConnections, heap) := heap.allocList kept
    let keepFromRemoved := maxClosedConnsNum - kept.length
    let heap ← pushClosed closedConnections left heap (removedConnectionCount - keepFromRemoved)
      previousActive
    return (⟨uploadTotal, downloadTotal, activeConnections, closedConnections⟩, heap)

def initConnData : MonitorData := ⟨0, 0, ⟨0⟩, ⟨1⟩⟩

def initHeap : Heap := ⟨[], [], [], [[], []]⟩

def mergePayloads (payloads : List Payload) : Option (MonitorData × Heap) :=
  payloads.foldlM (fun state payload => mergeConnectionSnapshot state.2 payload state.1)
    (initConnData, initHeap)

end ClashVerge.ConnectionData
