import ClashVerge.ConnectionData.Merge

/-!
# Merging without sharing

Without objects the pages are to see every connection of a payload with the difference to its totals
in the payload before, and of the connections that have disappeared the last ones.
`mergeConnectionSnapshot` shows just that, and changes no object it has handed out.
-/

namespace ClashVerge.ConnectionData

open Objects

/-! ## The plain computation -/

/-- A connection with all that its objects have. -/
structure ItemValue where
  id : String
  metadata : Metadata
  upload : Int
  download : Int
  start : String
  chains : List String
  rule : String
  rulePayload : String
  curUpload : Int
  curDownload : Int
deriving DecidableEq, Repr

/-- A connection of a payload after the connections of another one. -/
def plainItem (before : List Connection) (connection : Connection) : ItemValue :=
  let upload := connection.upload.getD 0
  let download := connection.download.getD 0
  let earlier := before.find? fun earlier => earlier.id = connection.id
  { id := connection.id
    metadata := connection.metadata.normalized
    upload := upload
    download := download
    start := connection.start.getD ""
    chains := connection.chains.getD []
    rule := connection.rule.getD ""
    rulePayload := connection.rulePayload.getD ""
    curUpload := (earlier.map fun earlier => upload - earlier.upload.getD 0).getD 0
    curDownload := (earlier.map fun earlier => download - earlier.download.getD 0).getD 0 }

structure Plain where
  uploadTotal : Int
  downloadTotal : Int
  connections : List Connection
  active : List ItemValue
  /-- All connections that have disappeared, in that order. -/
  gone : List ItemValue
deriving DecidableEq, Repr

def Payload.list (payload : Payload) : List Connection := payload.connections.getD []

def Payload.ids (payload : Payload) : List String := payload.list.map (·.id)

namespace Plain

def init : Plain := ⟨0, 0, [], [], []⟩

def step (plain : Plain) (payload : Payload) : Plain where
  uploadTotal := payload.uploadTotal.getD 0
  downloadTotal := payload.downloadTotal.getD 0
  connections := payload.list
  active := payload.list.map (plainItem plain.connections)
  gone := plain.gone ++ plain.active.filter fun item => item.id ∉ payload.ids

def after (payloads : List Payload) : Plain := payloads.foldl step init

end Plain

def lastOf {Member : Type} (count : Nat) (members : List Member) : List Member :=
  members.drop (members.length - count)

/-! ## What the objects show -/

namespace Heap

/-- A connection with what its references lead to. -/
def item? (heap : Heap) (ref : Ref Item) : Option ItemValue := do
  let item ← heap.items.read ref
  let metadata ← heap.metadata.read item.metadata
  let chains ← heap.chains.read item.chains
  return ⟨item.id, metadata, item.upload, item.download, item.start, chains, item.rule,
    item.rulePayload, item.curUpload, item.curDownload⟩

/-- The references lead to the connections. -/
def Shows (heap : Heap) (refs : List (Ref Item)) (values : List ItemValue) : Prop :=
  List.Forall₂ (fun ref value => heap.item? ref = some value) refs values

def ListShows (heap : Heap) (list : Ref (List (Ref Item))) (values : List ItemValue) : Prop :=
  ∃ refs, heap.lists.read list = some refs ∧ heap.Shows refs values

/-- No connection is lost or changed. -/
structure ItemsExtend (old new : Heap) : Prop where
  metadata : old.metadata.Extends new.metadata
  chains : old.chains.Extends new.chains
  items : old.items.Extends new.items

/-- No object is lost or changed. -/
structure Extends (old new : Heap) : Prop where
  items : old.ItemsExtend new
  lists : old.lists.Extends new.lists

theorem ItemsExtend.refl (heap : Heap) : heap.ItemsExtend heap := ⟨.refl _, .refl _, .refl _⟩

theorem ItemsExtend.trans {first middle last : Heap} (one : first.ItemsExtend middle)
    (two : middle.ItemsExtend last) : first.ItemsExtend last :=
  ⟨one.metadata.trans two.metadata, one.chains.trans two.chains, one.items.trans two.items⟩

theorem Extends.refl (heap : Heap) : heap.Extends heap := ⟨.refl _, .refl _⟩

theorem Extends.trans {first middle last : Heap} (one : first.Extends middle)
    (two : middle.Extends last) : first.Extends last :=
  ⟨one.items.trans two.items, one.lists.trans two.lists⟩

theorem item?_eq_some_iff {heap : Heap} {ref : Ref Item} {value : ItemValue} :
    heap.item? ref = some value ↔
      ∃ item metadata chains, heap.items.read ref = some item ∧
        heap.metadata.read item.metadata = some metadata ∧
        heap.chains.read item.chains = some chains ∧
        value = ⟨item.id, metadata, item.upload, item.download, item.start, chains, item.rule,
          item.rulePayload, item.curUpload, item.curDownload⟩ := by
  constructor
  · intro found
    simp only [item?, bind, Option.bind_eq_some_iff, pure, Option.some.injEq] at found
    obtain ⟨item, read, metadata, some_, chains, inside, rfl⟩ := found
    exact ⟨item, metadata, chains, read, some_, inside, rfl⟩
  · rintro ⟨item, metadata, chains, read, some_, inside, rfl⟩
    simp [item?, read, some_, inside]

theorem ItemsExtend.item? {old new : Heap} (extends_ : old.ItemsExtend new) {ref : Ref Item}
    {value : ItemValue} (found : old.item? ref = some value) : new.item? ref = some value := by
  obtain ⟨item, metadata, chains, read, some_, inside, rfl⟩ := item?_eq_some_iff.mp found
  exact item?_eq_some_iff.mpr ⟨item, metadata, chains, extends_.items _ _ read,
    extends_.metadata _ _ some_, extends_.chains _ _ inside, rfl⟩

theorem ItemsExtend.shows {old new : Heap} (extends_ : old.ItemsExtend new)
    {refs : List (Ref Item)} {values : List ItemValue} (shows : old.Shows refs values) :
    new.Shows refs values := shows.imp fun _ _ found => extends_.item? found

theorem Extends.listShows {old new : Heap} (extends_ : old.Extends new)
    {list : Ref (List (Ref Item))} {values : List ItemValue} (shows : old.ListShows list values) :
    new.ListShows list values := by
  obtain ⟨refs, read, shows⟩ := shows
  exact ⟨refs, extends_.lists _ _ read, extends_.items.shows shows⟩

theorem Shows.unique {heap : Heap} {refs : List (Ref Item)} {first second : List ItemValue}
    (one : heap.Shows refs first) (two : heap.Shows refs second) : first = second := by
  induction one generalizing second with
  | nil => cases two with | nil => rfl
  | cons found rest ih =>
    cases two with
    | cons other others =>
      rw [ih others, Option.some.inj (found.symm.trans other)]

theorem ListShows.unique {heap : Heap} {list : Ref (List (Ref Item))}
    {first second : List ItemValue} (one : heap.ListShows list first)
    (two : heap.ListShows list second) : first = second := by
  obtain ⟨refs, read, shows⟩ := one
  obtain ⟨others, found, shown⟩ := two
  obtain rfl : refs = others := Option.some.inj (read.symm.trans found)
  exact shows.unique shown

theorem push_spec {heap : Heap} {list : Ref (List (Ref Item))} {refs : List (Ref Item)}
    (read : heap.lists.read list = some refs) (item : Ref Item) :
    ∃ new, heap.push list item = some new ∧ new.lists.read list = some (refs ++ [item]) ∧
      heap.ItemsExtend new ∧
      ∀ old : Heap, old.lists.read list = none → old.lists.Extends heap.lists →
        old.lists.Extends new.lists := by
  refine ⟨{ heap with lists := heap.lists.write list (refs ++ [item]) }, ?_, ?_, ?_, ?_⟩
  · simp [push, read]
  · exact Store.read_write_same read _
  · exact ⟨.refl _, .refl _, .refl _⟩
  · exact fun old fresh extends_ => extends_.write fresh _

end Heap

/-! ## One connection -/

theorem sameMetadata_iff (left right : Metadata) :
    sameMetadata left right = true ↔ left.normalized = right.normalized := by
  simp [sameMetadata, Metadata.normalized, and_assoc]

/-- What the map has for an identifier, and the connection it leads to. -/
inductive Found (heap : Heap) (id : String) : Option (Ref Item) → Option ItemValue → Prop where
  | missing : Found heap id none none
  | there {ref : Ref Item} {value : ItemValue} (read : heap.item? ref = some value)
      (own : value.id = id) (normal : value.metadata.normalized = value.metadata) :
      Found heap id (some ref) (some value)

theorem Found.mono {old new : Heap} (extends_ : old.ItemsExtend new) {id : String}
    {ref : Option (Ref Item)} {value : Option ItemValue} (found : Found old id ref value) :
    Found new id ref value := by
  cases found with
  | missing => exact .missing
  | there read own normal => exact .there (extends_.item? read) own normal

/-- A connection of a payload after the one that was shown. -/
def freshItem (connection : Connection) (before : Option ItemValue) : ItemValue :=
  let upload := connection.upload.getD 0
  let download := connection.download.getD 0
  { id := connection.id
    metadata := connection.metadata.normalized
    upload := upload
    download := download
    start := connection.start.getD ""
    chains := connection.chains.getD []
    rule := connection.rule.getD ""
    rulePayload := connection.rulePayload.getD ""
    curUpload := (before.map fun before => upload - before.upload).getD 0
    curDownload := (before.map fun before => download - before.download).getD 0 }

theorem normalizeMetadata_spec (heap : Heap) (metadata : Metadata)
    {previous : Option (Ref Metadata)}
    (known : ∀ ref ∈ previous, ∃ earlier, heap.metadata.read ref = some earlier ∧
      earlier.normalized = earlier) :
    ∃ ref new, normalizeMetadata heap metadata previous = some (ref, new) ∧ heap.ItemsExtend new ∧
      new.lists = heap.lists ∧ new.metadata.read ref = some metadata.normalized := by
  have made : heap.ItemsExtend (heap.allocMetadata metadata.normalized).2 :=
    ⟨Store.extends_alloc _ _, .refl _, .refl _⟩
  have read := Store.read_alloc heap.metadata metadata.normalized
  cases previous with
  | none => exact ⟨_, _, rfl, made, rfl, read⟩
  | some previous =>
    obtain ⟨earlier, found, normal⟩ := known previous rfl
    by_cases same : sameMetadata earlier metadata = true
    · refine ⟨previous, heap, by simp [normalizeMetadata, found, same], .refl _, rfl, ?_⟩
      rw [found, ← normal, (sameMetadata_iff _ _).mp same]
    · exact ⟨_, _, by simp [normalizeMetadata, found, same]; rfl, made, rfl, read⟩

theorem normalizeChains_spec (heap : Heap) (chains : List String)
    {previous : Option (Ref (List String))}
    (known : ∀ ref ∈ previous, ∃ earlier, heap.chains.read ref = some earlier) :
    ∃ ref new, normalizeChains heap chains previous = some (ref, new) ∧ heap.ItemsExtend new ∧
      new.lists = heap.lists ∧ new.chains.read ref = some chains := by
  have made : heap.ItemsExtend (heap.allocChains chains).2 :=
    ⟨.refl _, Store.extends_alloc _ _, .refl _⟩
  have read := Store.read_alloc heap.chains chains
  cases previous with
  | none => exact ⟨_, _, rfl, made, rfl, read⟩
  | some previous =>
    obtain ⟨earlier, found⟩ := known previous rfl
    by_cases same : earlier = chains
    · exact ⟨previous, heap, by simp [normalizeChains, found, same], .refl _, rfl, same ▸ found⟩
    · exact ⟨_, _, by simp [normalizeChains, found, same]; rfl, made, rfl, read⟩

variable {heap : Heap}

theorem allocItem_spec {item : Item} {metadata : Metadata} {chains : List String}
    (held : heap.metadata.read item.metadata = some metadata)
    (inside : heap.chains.read item.chains = some chains) :
    heap.ItemsExtend (heap.allocItem item).2 ∧ (heap.allocItem item).2.lists = heap.lists ∧
      (heap.allocItem item).2.item? (heap.allocItem item).1 =
        some ⟨item.id, metadata, item.upload, item.download, item.start, chains, item.rule,
          item.rulePayload, item.curUpload, item.curDownload⟩ :=
  ⟨⟨.refl _, .refl _, Store.extends_alloc _ _⟩, rfl,
    Heap.item?_eq_some_iff.mpr ⟨item, metadata, chains, Store.read_alloc _ _, held, inside, rfl⟩⟩

def newItem (connection : Connection) (metadata : Ref Metadata) (chains : Ref (List String))
    (before : Option ItemValue) : Item :=
  let fresh := freshItem connection before
  ⟨fresh.id, metadata, fresh.upload, fresh.download, fresh.start, chains, fresh.rule,
    fresh.rulePayload, fresh.curUpload, fresh.curDownload⟩

theorem normalizeConnection_spec (heap : Heap) (connection : Connection)
    {previous : Option (Ref Item)} {before : Option ItemValue}
    (found : Found heap connection.id previous before) :
    ∃ ref new, normalizeConnection heap connection previous = some (ref, new) ∧
      heap.ItemsExtend new ∧ new.lists = heap.lists ∧
      new.item? ref = some (freshItem connection before) := by
  cases found with
  | missing =>
    obtain ⟨metadata, first, made, one, lists, held⟩ :=
      normalizeMetadata_spec heap connection.metadata (show ∀ ref ∈ none, _ from by simp)
    obtain ⟨chains, second, named, two, same, inside⟩ :=
      normalizeChains_spec first (connection.chains.getD []) (show ∀ ref ∈ none, _ from by simp)
    have run : normalizeConnection heap connection none =
        some (second.allocItem (newItem connection metadata chains none)) := by
      simp only [normalizeConnection, Option.map_none, made, named, bind, Option.bind_some]
      rfl
    obtain ⟨three, kept, shown⟩ := allocItem_spec
      (show second.metadata.read (newItem connection metadata chains none).metadata = _ from
        two.metadata _ _ held) inside
    exact ⟨_, _, run, (one.trans two).trans three, kept.trans (same.trans lists), shown⟩
  | @there ref value read own normal =>
    obtain ⟨item, earlier, listed, stored, some_, chained, rfl⟩ := Heap.item?_eq_some_iff.mp read
    obtain ⟨metadata, first, made, one, lists, held⟩ :=
      normalizeMetadata_spec heap connection.metadata
        (show ∀ ref ∈ some item.metadata, _ from by simp [some_, normal])
    obtain ⟨chains, second, named, two, same, inside⟩ :=
      normalizeChains_spec first (connection.chains.getD [])
        (show ∀ ref ∈ some item.chains, _ from by simp [one.chains _ _ chained])
    generalize shown : ItemValue.mk item.id earlier item.upload item.download item.start listed
      item.rule item.rulePayload item.curUpload item.curDownload = before at *
    have upload : before.upload = item.upload := by rw [← shown]
    have download : before.download = item.download := by rw [← shown]
    have run : normalizeConnection heap connection (some ref) =
        if item = { newItem connection metadata chains (some before) with id := item.id } then
          some (ref, second)
        else some (second.allocItem (newItem connection metadata chains (some before))) := by
      simp only [normalizeConnection, stored, Option.map_some, made, named, bind, Option.bind_some,
        newItem, freshItem, upload, download]
      rfl
    have held := two.metadata _ _ held
    by_cases unchanged :
        item = { newItem connection metadata chains (some before) with id := item.id }
    · rw [if_pos unchanged] at run
      refine ⟨ref, second, run, one.trans two, same.trans lists, ?_⟩
      have stored := (one.trans two).items _ _ stored
      refine Heap.item?_eq_some_iff.mpr
        ⟨item, connection.metadata.normalized, connection.chains.getD [], stored, ?_, ?_, ?_⟩
      · rw [unchanged]
        exact held
      · rw [unchanged]
        exact inside
      · have id : item.id = connection.id := by
          rw [← own, ← shown]
        rw [unchanged, id]
        rfl
    · rw [if_neg unchanged] at run
      obtain ⟨three, kept, fresh⟩ := allocItem_spec
        (show second.metadata.read (newItem connection metadata chains (some before)).metadata = _
          from held) inside
      exact ⟨_, _, run, (one.trans two).trans three, kept.trans (same.trans lists), fresh⟩

/-! ## The loops -/

theorem Heap.Shows.read_id {ref : Ref Item} {value : ItemValue}
    (found : heap.item? ref = some value) :
    ∃ item, heap.items.read ref = some item ∧ item.id = value.id := by
  obtain ⟨item, _, _, read, -, -, rfl⟩ := Heap.item?_eq_some_iff.mp found
  exact ⟨item, read, rfl⟩

variable {refs : List (Ref Item)} {values : List ItemValue}

theorem indexActive_spec (shows : heap.Shows refs values) (byId : ById)
    (distinct : (OrderedMap.keys byId ++ values.map (·.id)).Nodup) :
    indexActive heap refs byId = some (byId ++ (values.map (·.id)).zip refs) := by
  induction shows generalizing byId with
  | nil => simp [indexActive]
  | @cons ref value refs values found rest ih =>
    obtain ⟨item, read, id⟩ := Heap.Shows.read_id found
    have fresh : value.id ∉ OrderedMap.keys byId := by
      intro inside
      exact (List.nodup_append.mp distinct).2.2 _ inside _ (by simp) rfl
    have inserted : OrderedMap.insert byId value.id ref = byId ++ [(value.id, ref)] := by
      have whole := OrderedMap.insert_append byId [] value.id ref
      rw [List.append_nil, if_neg fresh] at whole
      exact whole
    have later := ih (byId ++ [(value.id, ref)]) (by simpa using distinct)
    simp [indexActive, read, id, inserted, later]

theorem ById.delete_of_get (byId : ById) (id : String) :
    (if (OrderedMap.get byId id).isSome then byId.delete id else byId) = byId.delete id := by
  split
  · rfl
  · rename_i absent
    have missing : id ∉ OrderedMap.keys byId := by
      rw [← OrderedMap.get_eq_none_iff]
      simpa using absent
    refine (List.filter_eq_self.mpr fun entry listed => ?_).symm
    have different : entry.1 ≠ id := fun same => missing (same ▸ List.mem_map_of_mem listed)
    simpa using different

theorem mergeActive_spec {active : Ref (List (Ref Item))} {old : Heap}
    (unseen : old.lists.read active = none) (before : String → Option ItemValue)
    (connections : List Connection) (distinct : (connections.map (·.id)).Nodup)
    {byId : ById} {done : List (Ref Item)} {shown : List ItemValue}
    (found : ∀ connection ∈ connections,
      Found heap connection.id (OrderedMap.get byId connection.id) (before connection.id))
    (read : heap.lists.read active = some done) (shows : heap.Shows done shown)
    (kept : old.Extends heap) :
    ∃ new, mergeActive active heap byId connections =
        some (byId.filter fun entry => entry.1 ∉ connections.map (·.id), new) ∧
      old.Extends new ∧ new.ListShows active (shown ++
        connections.map fun connection => freshItem connection (before connection.id)) := by
  induction connections generalizing heap byId done shown with
  | nil =>
    refine ⟨heap, by simp [mergeActive], kept, done, read, ?_⟩
    simpa using shows
  | cons connection rest ih =>
    obtain ⟨other, distinct⟩ : connection.id ∉ rest.map (·.id) ∧ (rest.map (·.id)).Nodup :=
      List.nodup_cons.mp distinct
    obtain ⟨ref, made, run, extends_, lists, item⟩ :=
      normalizeConnection_spec heap connection (found connection List.mem_cons_self)
    obtain ⟨pushed, push, list, items, frame⟩ := Heap.push_spec (lists.symm ▸ read) ref
    have left := byId.delete_of_get connection.id
    have later : ∀ next ∈ rest, Found pushed next.id
        (OrderedMap.get (byId.delete connection.id) next.id) (before next.id) := by
      intro next listed
      have different : next.id ≠ connection.id := fun same =>
        other (same ▸ List.mem_map_of_mem listed)
      rw [ById.delete, OrderedMap.get_filter byId (fun id => id ≠ connection.id), if_pos (by simpa)]
      exact (found next (List.mem_cons_of_mem _ listed)).mono (extends_.trans items)
    have shown' : pushed.Shows (done ++ [ref])
        (shown ++ [freshItem connection (before connection.id)]) :=
      List.rel_append ((extends_.trans items).shows shows) (.cons (items.item? item) .nil)
    have kept' : old.Extends pushed :=
      ⟨kept.items.trans (extends_.trans items), frame old unseen (lists.symm ▸ kept.lists)⟩
    obtain ⟨new, merged, whole, final⟩ := ih distinct later list shown' kept'
    refine ⟨new, ?_, whole, by simpa using final⟩
    rw [mergeActive]
    simp only [run, push, bind, Option.bind_some, left, merged]
    simp only [ById.delete, List.filter_filter, List.map_cons, List.mem_cons, not_or]
    congr 3
    funext entry
    simp [Bool.and_comm]

theorem pushClosed_spec {closed : Ref (List (Ref Item))} {old : Heap}
    (unseen : old.lists.read closed = none) (byId : ById)
    (shows : old.Shows refs values)
    {done : List (Ref Item)} {shown : List ItemValue} (read : heap.lists.read closed = some done)
    (before : heap.Shows done shown) (kept : old.Extends heap) (skipRemoved : Nat) :
    ∃ new, pushClosed closed byId heap skipRemoved refs = some new ∧ old.Extends new ∧
      new.ListShows closed (shown ++
        (values.filter fun value => OrderedMap.contains byId value.id).drop skipRemoved) := by
  induction shows generalizing heap done shown skipRemoved with
  | nil =>
    refine ⟨heap, rfl, kept, done, read, ?_⟩
    simpa using before
  | @cons ref value refs values found rest ih =>
    obtain ⟨item, stored, id⟩ := Heap.Shows.read_id (kept.items.item? found)
    cases left : OrderedMap.contains byId value.id with
    | false =>
      obtain ⟨new, run, whole, final⟩ := ih read before kept skipRemoved
      refine ⟨new, ?_, whole, by simpa [left] using final⟩
      simp [pushClosed, stored, id, left, run]
    | true =>
      cases skipRemoved with
      | succ fewer =>
        obtain ⟨new, run, whole, final⟩ := ih read before kept fewer
        refine ⟨new, ?_, whole, by simpa [left] using final⟩
        simp [pushClosed, stored, id, left, run]
      | zero =>
        obtain ⟨pushed, push, list, items, frame⟩ := Heap.push_spec read ref
        have shown' : pushed.Shows (done ++ [ref]) (shown ++ [value]) :=
          List.rel_append (items.shows before) (.cons (items.item? (kept.items.item? found)) .nil)
        obtain ⟨new, run, whole, final⟩ := ih list shown'
          ⟨kept.items.trans items, frame old unseen kept.lists⟩ 0
        refine ⟨new, ?_, whole, by simpa [left] using final⟩
        simp [pushClosed, stored, id, left, push, run]

/-! ## The last members -/

theorem lastOf_of_short {Member : Type} {count : Nat} {members : List Member}
    (short : members.length ≤ count) : lastOf count members = members := by
  rw [lastOf, Nat.sub_eq_zero_of_le short, List.drop_zero]

theorem lastOf_lastOf_append {Member : Type} (count : Nat) (first second : List Member) :
    lastOf count (lastOf count first ++ second) = lastOf count (first ++ second) := by
  by_cases short : first.length ≤ count
  · rw [lastOf_of_short short]
  · have dropped : first.drop (first.length - count) ++ second =
        (first ++ second).drop (first.length - count) :=
      (List.drop_append_of_le_length (Nat.sub_le _ _)).symm
    rw [lastOf, lastOf, lastOf, dropped, List.drop_drop, List.length_drop, List.length_append]
    congr 1
    omega

theorem lastOf_append {Member : Type} (count : Nat) (first second : List Member)
    (short : first.length ≤ count) :
    lastOf count (first ++ second) =
      first.drop (first.length + second.length - count) ++ second.drop
        (second.length - (count - (first.drop (first.length + second.length - count)).length)) := by
  rw [lastOf, List.drop_append, List.length_append, List.length_drop]
  congr 2
  omega

/-! ## One payload -/

/-- The connections have been made by `plainItem`, so their metadata is normalized. -/
def Normal (values : List ItemValue) : Prop :=
  ∀ value ∈ values, value.metadata.normalized = value.metadata

/-- The data shows what the plain computation has. -/
structure Agrees (heap : Heap) (data : MonitorData) (plain : Plain) : Prop where
  uploadTotal : data.uploadTotal = plain.uploadTotal
  downloadTotal : data.downloadTotal = plain.downloadTotal
  active : heap.ListShows data.activeConnections plain.active
  closed : heap.ListShows data.closedConnections (lastOf maxClosedConnsNum plain.gone)

/-- What is known of the plain computation where no payload repeats an identifier. -/
structure Plain.Sound (plain : Plain) : Prop where
  made : ∃ before, plain.active = plain.connections.map (plainItem before)
  distinct : (plain.active.map (·.id)).Nodup

def Payload.Unique (payload : Payload) : Prop := payload.ids.Nodup

instance (payload : Payload) : Decidable payload.Unique :=
  inferInstanceAs (Decidable payload.ids.Nodup)

theorem Plain.sound_step (plain : Plain) {payload : Payload} (unique : payload.Unique) :
    (plain.step payload).Sound where
  made := ⟨plain.connections, rfl⟩
  distinct := by
    have ids : ((plain.step payload).active).map (·.id) = payload.ids := by
      simp [Plain.step, Payload.ids, plainItem, Function.comp_def]
    rw [ids]
    exact unique

theorem Plain.Sound.normal {plain : Plain} (sound : plain.Sound) : Normal plain.active := by
  obtain ⟨before, made⟩ := sound.made
  rw [made]
  intro value listed
  obtain ⟨connection, -, rfl⟩ := List.mem_map.mp listed
  rfl

theorem Plain.Sound.freshItem {plain : Plain} (sound : plain.Sound) (connection : Connection) :
    freshItem connection (plain.active.find? fun value => value.id = connection.id) =
      plainItem plain.connections connection := by
  obtain ⟨before, made⟩ := sound.made
  rw [made, List.find?_map]
  simp only [ConnectionData.freshItem, Option.map_map]
  rfl

theorem found_of_shows (shows : heap.Shows refs values) (normal : Normal values) (id : String) :
    Found heap id (OrderedMap.get ((values.map (·.id)).zip refs) id)
      (values.find? fun value => value.id = id) := by
  induction shows with
  | nil => exact .missing
  | @cons ref value refs values found rest ih =>
    rw [List.map_cons, List.zip_cons_cons, OrderedMap.get_cons, List.find?_cons]
    by_cases same : value.id = id
    · simp only [same, if_true, decide_true]
      exact .there found same (normal value List.mem_cons_self)
    · simp only [same, if_false, decide_false]
      exact ih fun each listed => normal each (List.mem_cons_of_mem _ listed)

theorem keys_zip {ids : List String} (same : ids.length = refs.length) :
    OrderedMap.keys (ids.zip refs) = ids := List.map_fst_zip (Nat.le_of_eq same)

theorem left_spec (same : (values.map (·.id)).length = refs.length) (ids : List String) :
    let left : ById := ((values.map (·.id)).zip refs).filter fun entry => entry.1 ∉ ids
    left.length = (values.filter fun value => value.id ∉ ids).length ∧
      (values.filter fun value => OrderedMap.contains left value.id) =
        values.filter fun value => value.id ∉ ids := by
  intro left
  have keys : OrderedMap.keys left = (values.map (·.id)).filter (· ∉ ids) := by
    rw [← keys_zip same, OrderedMap.keys, OrderedMap.keys, List.filter_map]
    rfl
  constructor
  · have lengths := congrArg List.length keys
    rw [OrderedMap.keys, List.length_map, List.filter_map, List.length_map] at lengths
    exact lengths
  · refine List.filter_congr fun value listed => ?_
    rw [Bool.eq_iff_iff, OrderedMap.contains_iff, keys, List.mem_filter]
    simp [List.mem_map_of_mem listed]

theorem merge_spec {previous : MonitorData} {plain : Plain} (sound : plain.Sound)
    (agrees : Agrees heap previous plain) {payload : Payload} (unique : payload.Unique) :
    ∃ data new, mergeConnectionSnapshot heap payload previous = some (data, new) ∧
      heap.Extends new ∧ Agrees new data (plain.step payload) := by
  obtain ⟨refs, activeRead, shows⟩ := agrees.active
  obtain ⟨closedRefs, closedRead, closedShows⟩ := agrees.closed
  have lengths : (plain.active.map (·.id)).length = refs.length := by
    rw [List.length_map, shows.length_eq]
  have indexed := indexActive_spec shows [] (by simpa using sound.distinct)
  rw [List.nil_append] at indexed
  have opened : heap.Extends (heap.allocList []).2 :=
    ⟨⟨.refl _, .refl _, .refl _⟩, Store.extends_alloc _ _⟩
  obtain ⟨merged, run, whole, activeShows⟩ := mergeActive_spec (Store.read_fresh heap.lists [])
    (fun id => plain.active.find? fun value => value.id = id) payload.list unique
    (fun connection _ => (found_of_shows shows sound.normal connection.id).mono opened.items)
    (Store.read_alloc heap.lists []) (.nil : Heap.Shows _ [] []) opened
  have activeNow : merged.ListShows (heap.allocList []).1 (plain.step payload).active := by
    have same : payload.list.map (fun connection => freshItem connection
        (plain.active.find? fun value => value.id = connection.id)) =
          payload.list.map (plainItem plain.connections) :=
      List.map_congr_left fun connection _ => sound.freshItem connection
    rw [List.nil_append, same] at activeShows
    exact activeShows
  obtain ⟨removed, gone⟩ : ∃ removed, removed = plain.active.filter fun item =>
    item.id ∉ payload.ids := ⟨_, rfl⟩
  obtain ⟨count, contains⟩ := left_spec lengths payload.ids
  obtain ⟨left, is_⟩ : ∃ left : ById, left =
    ((plain.active.map (·.id)).zip refs).filter fun entry => entry.1 ∉ payload.ids := ⟨_, rfl⟩
  rw [← is_, ← gone] at count contains
  change mergeActive (heap.allocList []).1 _ _ _ = some
    (((plain.active.map (·.id)).zip refs).filter fun entry => entry.1 ∉ payload.ids, merged) at run
  rw [← is_] at run
  by_cases none_ : left.length = 0
  · have empty : removed = [] := List.eq_nil_of_length_eq_zero (count ▸ none_)
    refine ⟨⟨payload.uploadTotal.getD 0, payload.downloadTotal.getD 0, (heap.allocList []).1,
      previous.closedConnections⟩, merged, ?_, whole, ⟨rfl, rfl, activeNow, ?_⟩⟩
    · simp only [mergeConnectionSnapshot, activeRead, closedRead, indexed, bind, Option.bind_some]
      change (mergeActive (heap.allocList []).1 (heap.allocList []).2 _ payload.list).bind _ = _
      rw [run, Option.bind_some, if_pos none_]
      rfl
    · have same : (plain.step payload).gone = plain.gone := by
        rw [Plain.step, ← gone, empty, List.append_nil]
      rw [same]
      exact whole.listShows agrees.closed
  · have kept : (if closedRefs.length ≤ closedRefs.length + left.length - maxClosedConnsNum then []
        else closedRefs.drop (closedRefs.length + left.length - maxClosedConnsNum)) =
          closedRefs.drop (closedRefs.length + left.length - maxClosedConnsNum) := by
      split
      · rename_i all
        rw [List.drop_eq_nil_of_le all]
      · rfl
    obtain ⟨drop, dropped⟩ : ∃ drop, drop = closedRefs.length + left.length - maxClosedConnsNum :=
      ⟨_, rfl⟩
    rw [← dropped] at kept
    have opened' : merged.Extends (merged.allocList (closedRefs.drop drop)).2 :=
      ⟨⟨.refl _, .refl _, .refl _⟩, Store.extends_alloc _ _⟩
    obtain ⟨new, pushed, final, closedNow⟩ := pushClosed_spec
      (Store.read_fresh merged.lists (closedRefs.drop drop)) left (whole.items.shows shows)
      (Store.read_alloc merged.lists (closedRefs.drop drop))
      (List.forall₂_drop drop (opened'.items.shows (whole.items.shows closedShows))) opened'
      (left.length - (maxClosedConnsNum - (closedRefs.drop drop).length))
    refine ⟨⟨payload.uploadTotal.getD 0, payload.downloadTotal.getD 0, (heap.allocList []).1,
      (merged.allocList (closedRefs.drop drop)).1⟩, new, ?_, whole.trans final,
      ⟨rfl, rfl, final.listShows activeNow, ?_⟩⟩
    · simp only [mergeConnectionSnapshot, activeRead, closedRead, indexed, bind, Option.bind_some]
      change (mergeActive (heap.allocList []).1 (heap.allocList []).2 _ payload.list).bind _ = _
      rw [run, Option.bind_some, if_neg none_]
      change pushClosed (merged.allocList (closedRefs.drop drop)).1 _ _ _ _ = _ at pushed
      rw [← dropped, kept, pushed]
      rfl
    · have sizes : (closedRefs.drop drop).length =
          ((lastOf maxClosedConnsNum plain.gone).drop drop).length := by
        rw [List.length_drop, List.length_drop, closedShows.length_eq]
      have short : (lastOf maxClosedConnsNum plain.gone).length ≤ maxClosedConnsNum := by
        rw [lastOf, List.length_drop]
        omega
      have now := lastOf_append maxClosedConnsNum (lastOf maxClosedConnsNum plain.gone) removed
        short
      rw [lastOf_lastOf_append, ← count, ← closedShows.length_eq, ← dropped, ← sizes] at now
      rw [contains] at closedNow
      rw [Plain.step, ← gone, now]
      exact closedNow

/-! ## All payloads -/

theorem Plain.sound_init : Plain.init.Sound := ⟨⟨[], rfl⟩, List.nodup_nil⟩

theorem agrees_init : Agrees initHeap initConnData Plain.init :=
  ⟨rfl, rfl, ⟨[], rfl, .nil⟩, ⟨[], rfl, .nil⟩⟩

theorem fold_spec (payloads : List Payload) (unique : ∀ payload ∈ payloads, payload.Unique)
    {data : MonitorData} {plain : Plain} (sound : plain.Sound)
    (agrees : Agrees heap data plain) :
    ∃ last new, payloads.foldlM
        (fun state payload => mergeConnectionSnapshot state.2 payload state.1) (data, heap) =
          some (last, new) ∧
      heap.Extends new ∧ Agrees new last (payloads.foldl Plain.step plain) ∧
      (payloads.foldl Plain.step plain).Sound := by
  induction payloads generalizing data heap plain with
  | nil => exact ⟨data, heap, rfl, .refl heap, agrees, sound⟩
  | cons payload rest ih =>
    have here := unique payload List.mem_cons_self
    obtain ⟨next, middle, run, one, shown⟩ := merge_spec sound agrees here
    have others : ∀ later ∈ rest, later.Unique := fun later listed =>
      unique later (List.mem_cons_of_mem _ listed)
    obtain ⟨last, new, runs, two, final, still⟩ :=
      ih others (plain.sound_step here) shown
    refine ⟨last, new, ?_, one.trans two, final, still⟩
    rw [List.foldlM_cons, run]
    exact runs

/-- What the data hands out again had at that time the value that is computed now. -/
structure ReusesEqual (old new : Heap) (data : MonitorData) (plain : Plain) : Prop where
  active : ∀ values, old.ListShows data.activeConnections values → values = plain.active
  closed : ∀ values, old.ListShows data.closedConnections values →
    values = lastOf maxClosedConnsNum plain.gone
  items : ∀ refs, new.lists.read data.activeConnections = some refs →
    ∀ (index : Nat) (ref : Ref Item) (value : ItemValue), refs[index]? = some ref →
      old.item? ref = some value → plain.active[index]? = some value

theorem reusesEqual_of_extends {old new : Heap} {data : MonitorData} {plain : Plain}
    (extends_ : old.Extends new) (agrees : Agrees new data plain) :
    ReusesEqual old new data plain where
  active _ shows := (extends_.listShows shows).unique agrees.active
  closed _ shows := (extends_.listShows shows).unique agrees.closed
  items refs read index ref value listed found := by
    obtain ⟨others, same, shows⟩ := agrees.active
    obtain rfl : others = refs := Option.some.inj (same.symm.trans read)
    obtain ⟨inside, rfl⟩ := List.getElem?_eq_some_iff.mp listed
    have bound : index < plain.active.length := shows.length_eq ▸ inside
    have here := shows.get inside bound
    simp only [List.get_eq_getElem] at here
    rw [extends_.items.item? found] at here
    rw [List.getElem?_eq_getElem bound, ← Option.some.inj here]

/-- Payloads without repeated identifiers are merged as the plain computation says. No object that
was handed out on the way has been changed, and what is handed out again is what it should be. -/
theorem merges_plainly (payloads : List Payload) (unique : ∀ payload ∈ payloads, payload.Unique) :
    ∃ data heap, mergePayloads payloads = some (data, heap) ∧
      Agrees heap data (Plain.after payloads) ∧
      ∀ earlier later, payloads = earlier ++ later →
        ∃ before old, mergePayloads earlier = some (before, old) ∧ old.Extends heap ∧
          ReusesEqual old heap data (Plain.after payloads) := by
  obtain ⟨data, heap, runs, -, agrees, -⟩ := fold_spec payloads unique Plain.sound_init agrees_init
  refine ⟨data, heap, runs, agrees, ?_⟩
  rintro earlier later rfl
  obtain ⟨before, old, first, -, shown, sound⟩ := fold_spec earlier
    (fun payload listed => unique payload (List.mem_append_left _ listed))
    Plain.sound_init agrees_init
  obtain ⟨last, new, rest, extends_, -, -⟩ := fold_spec later
    (fun payload listed => unique payload (List.mem_append_right _ listed)) sound shown
  have whole : (last, new) = (data, heap) := by
    rw [List.foldlM_append, first] at runs
    exact Option.some.inj (rest.symm.trans runs)
  cases whole
  exact ⟨before, old, first, extends_, reusesEqual_of_extends extends_ agrees⟩

def twoPayloads : List Payload :=
  let metadata : Metadata := ⟨some "tcp", none, none, none, none, none, none, none, none, none⟩
  let first : Connection := ⟨"a", metadata, some 5, some 7, none, none, none, none⟩
  [⟨some 5, some 7, some [first]⟩,
    ⟨some 9, some 7, some [⟨"b", metadata, none, none, none, none, none, none⟩,
      { first with upload := some 9 }]⟩]

theorem twoPayloads_merged : ∃ data heap, mergePayloads twoPayloads = some (data, heap) ∧
    Agrees heap data (Plain.after twoPayloads) ∧
      ∀ earlier later, twoPayloads = earlier ++ later →
        ∃ before old, mergePayloads earlier = some (before, old) ∧ old.Extends heap ∧
          ReusesEqual old heap data (Plain.after twoPayloads) :=
  merges_plainly twoPayloads (by decide)

end ClashVerge.ConnectionData
