import Mathlib.Data.List.Induction
import ClashVerge.ProxyList.View

/-!
# Bindings of members and nodes

What the pages keep of a member is a binding: its kind, its name, the source of a node, and how many
members before it are like it. In another list of members the binding leads to the member again. The
items of a proxy chain keep a node's name, and its source once it is known.
-/

namespace ClashVerge.ProxyList

open UriParser (Text text)

def sameSource : Delay.Source → Delay.Source → Bool
  | .core left, .core right => left = right
  | .provider leftProvider left, .provider rightProvider right =>
    left = right ∧ leftProvider = rightProvider
  | _, _ => false

inductive ProxyMemberOccurrenceBinding where
  | group (name : Text) (occurrence : Nat)
  | node (name : Text) (source : Delay.Source) (occurrence : Nat)
deriving DecidableEq

namespace ProxyMemberOccurrenceBinding

def occurrence : ProxyMemberOccurrenceBinding → Nat
  | group _ occurrence => occurrence
  | node _ _ occurrence => occurrence

/-- `binding.occurrence += 1`. -/
def next : ProxyMemberOccurrenceBinding → ProxyMemberOccurrenceBinding
  | group name occurrence => group name (occurrence + 1)
  | node name source occurrence => node name source (occurrence + 1)

end ProxyMemberOccurrenceBinding

def isInteractableMember : ResolvedProxyMember → Bool
  | .unresolved _ _ => false
  | _ => true

def matchesMemberBinding : ResolvedProxyMember → ProxyMemberOccurrenceBinding → Bool
  | .group name _, .group wanted _ => name = wanted
  | .node name _ node, .node wanted source _ => name = wanted ∧ sameSource node.source source
  | _, _ => false

/-- The binding of a member, before the members in front of it are counted. -/
def firstBinding : ResolvedProxyMember → Option ProxyMemberOccurrenceBinding
  | .node name _ node => some (.node name node.source 0)
  | .group name _ => some (.group name 0)
  | .unresolved _ _ => none

def toMemberOccurrenceBinding (members : List ResolvedProxyMember) (memberIndex : Nat) :
    Option ProxyMemberOccurrenceBinding :=
  (members[memberIndex]?.bind firstBinding).map fun binding =>
    (members.take memberIndex).foldl
      (fun binding member => if matchesMemberBinding member binding then binding.next else binding)
      binding

/-- The loop over the members, from the one at `memberIndex`. -/
def rebindFrom (binding : ProxyMemberOccurrenceBinding) :
    List ResolvedProxyMember → Nat → Nat → Option ResolvedMemberOccurrence
  | [], _, _ => none
  | member :: rest, memberIndex, occurrence =>
    if !isInteractableMember member || !matchesMemberBinding member binding then
      rebindFrom binding rest (memberIndex + 1) occurrence
    else if occurrence = binding.occurrence then some ⟨memberIndex, member⟩
    else rebindFrom binding rest (memberIndex + 1) (occurrence + 1)

def rebindMemberOccurrence (members : List ResolvedProxyMember)
    (binding : ProxyMemberOccurrenceBinding) : Option ResolvedMemberOccurrence :=
  rebindFrom binding members 0 0

structure ProxyNodeBinding where
  name : Text
  source : Option Delay.Source

def byRecord (nodes : List ProxyNodeView) : List (Text × ProxyNodeView) :=
  nodes.foldl (fun unique node => OrderedMap.insert unique node.recordId node) []

/-- The test of `rebindNode`. -/
def ProxyNodeBinding.fits (binding : ProxyNodeBinding) (node : ProxyNodeView) : Bool :=
  decide (node.name = binding.name) && binding.source.all (sameSource node.source)

def rebindNode (candidates : List ProxyNodeView) (binding : ProxyNodeBinding) :
    Option ProxyNodeView :=
  match byRecord (candidates.filter binding.fits) with
  | [(_, node)] => some node
  | _ => none

structure ProxyChainItem where
  id : Text
  name : Text
  recordId : Option Text
  source : Option Delay.Source
  type : Option Text
  delay : Option Int
deriving DecidableEq

/-- What `rebindProxyChainItems` makes of one item. -/
def rebindItem (candidates : List ProxyNodeView) (proxyView : ProxyViewV1) (item : ProxyChainItem) :
    ProxyChainItem :=
  let rebound := rebindNode candidates ⟨item.name, item.source⟩
  let record := rebound.bind fun node => OrderedMap.get proxyView.records node.recordId
  { item with
    recordId := rebound.map (·.recordId)
    source := (rebound.map (·.source)).or item.source
    type := (rebound.map (·.type)).or item.type
    delay := (record.bind (·.history.getLast?)).map (·.delay) }

def rebindProxyChainItems (items : List ProxyChainItem) (candidates : List ProxyNodeView)
    (proxyView : ProxyViewV1) : List ProxyChainItem :=
  items.map (rebindItem candidates proxyView)

/-! ## Occurrences -/

section

variable {members : List ResolvedProxyMember} {member : ResolvedProxyMember}
  {binding first : ProxyMemberOccurrenceBinding} {place : Nat}

@[simp] theorem sameSource_iff {left right : Delay.Source} :
    sameSource left right = true ↔ left = right := by
  cases left <;> cases right <;> simp [sameSource, and_comm]

@[simp] theorem matches_next :
    matchesMemberBinding member binding.next = matchesMemberBinding member binding := by
  cases member <;> cases binding <;> rfl

theorem interactable_of_matches (alike : matchesMemberBinding member binding) :
    isInteractableMember member := by
  cases member with
  | unresolved name reason => cases binding <;> cases alike
  | group | node => rfl

theorem matches_first (bound : firstBinding member = some first) :
    first.occurrence = 0 ∧ matchesMemberBinding member first := by
  cases member <;> cases bound <;> simp [ProxyMemberOccurrenceBinding.occurrence, matchesMemberBinding]

/-- How many of the members are like the one that is bound. -/
def alike (binding : ProxyMemberOccurrenceBinding) (members : List ResolvedProxyMember) : Nat :=
  members.countP (matchesMemberBinding · binding)

/-- The member at the place is one that the binding matches, and as many before it match as the
binding says. -/
structure Bound (binding : ProxyMemberOccurrenceBinding) (members : List ResolvedProxyMember)
    (place : Nat) (member : ResolvedProxyMember) : Prop where
  here : members[place]? = some member
  matched : matchesMemberBinding member binding
  counted : alike binding (members.take place) = binding.occurrence

theorem foldl_next (members : List ResolvedProxyMember) : ∀ binding : ProxyMemberOccurrenceBinding,
    let counted := members.foldl
      (fun binding member => if matchesMemberBinding member binding then binding.next else binding)
      binding
    counted.occurrence = binding.occurrence + alike binding members ∧
      ∀ member, matchesMemberBinding member counted = matchesMemberBinding member binding := by
  induction members with
  | nil => simp [alike]
  | cons member rest ih =>
    intro binding
    simp only [List.foldl_cons, alike, List.countP_cons]
    split
    · obtain ⟨occurrence, same⟩ := ih binding.next
      have next : binding.next.occurrence = binding.occurrence + 1 := by cases binding <;> rfl
      simp only [alike, matches_next] at occurrence same
      exact ⟨by omega, same⟩
    · exact ih binding

theorem bound_of_toMemberOccurrenceBinding (here : members[place]? = some member)
    (interactable : isInteractableMember member) :
    ∃ binding, toMemberOccurrenceBinding members place = some binding ∧
      Bound binding members place member := by
  obtain ⟨first, bound⟩ : ∃ first, firstBinding member = some first := by
    cases member with
    | unresolved name reason => cases interactable
    | group | node => exact ⟨_, rfl⟩
  obtain ⟨zero, matched⟩ := matches_first bound
  obtain ⟨occurrence, same⟩ := foldl_next (members.take place) first
  refine ⟨_, by rw [toMemberOccurrenceBinding, here, Option.bind_some, bound, Option.map_some],
    here, ?_, ?_⟩
  · rw [same]
    exact matched
  · rw [occurrence, zero, Nat.zero_add]
    exact List.countP_congr fun other _ => by rw [same]

theorem rebindFrom_bound (here : members[place]? = some member)
    (matched : matchesMemberBinding member binding) (index occurrence : Nat)
    (counted : occurrence + alike binding (members.take place) = binding.occurrence) :
    rebindFrom binding members index occurrence = some ⟨index + place, member⟩ := by
  induction members generalizing place index occurrence with
  | nil => cases here
  | cons other rest ih =>
    cases place with
    | zero =>
      obtain rfl : other = member := by simpa using here
      have reached : occurrence = binding.occurrence := counted
      simp [rebindFrom, interactable_of_matches matched, matched, reached]
    | succ place =>
      have later : rest[place]? = some member := by simpa using here
      simp only [List.take_succ_cons, alike, List.countP_cons] at counted
      by_cases like : matchesMemberBinding other binding
      · rw [if_pos like] at counted
        have before : occurrence ≠ binding.occurrence := by omega
        simp only [rebindFrom, interactable_of_matches like, like, before, Bool.not_true,
          Bool.or_self, Bool.false_eq_true, if_false]
        rw [ih later _ _ (by simp only [alike]; omega), Nat.add_right_comm, Nat.add_assoc]
      · rw [if_neg like] at counted
        simp only [rebindFrom, like, Bool.not_false, Bool.or_true, if_true]
        rw [ih later _ _ (by simpa [alike] using counted), Nat.add_right_comm, Nat.add_assoc]

theorem Bound.rebind (bound : Bound binding members place member) :
    rebindMemberOccurrence members binding = some ⟨place, member⟩ := by
  have found := rebindFrom_bound bound.here bound.matched 0 0 (by simpa using bound.counted)
  simpa [rebindMemberOccurrence] using found

theorem matches_of_rebindFrom {index occurrence : Nat} {found : ResolvedMemberOccurrence}
    (rebound : rebindFrom binding members index occurrence = some found) :
    matchesMemberBinding found.member binding := by
  induction members generalizing index occurrence with
  | nil => cases rebound
  | cons other rest ih =>
    unfold rebindFrom at rebound
    split_ifs at rebound with different
    · exact ih rebound
    · cases rebound
      simp only [Bool.or_eq_true, Bool.not_eq_true', not_or, Bool.not_eq_false] at different
      exact different.2
    · exact ih rebound

/-- Members that the binding does not match come into the list or leave it, one after another; the
place of the member moves with it. -/
inductive Edited (binding : ProxyMemberOccurrenceBinding) (members : List ResolvedProxyMember)
    (index : Nat) : List ResolvedProxyMember → Nat → Prop where
  | same : Edited binding members index members index
  | insert {before after : List ResolvedProxyMember} {place : Nat} (member : ResolvedProxyMember)
      (edited : Edited binding members index (before ++ after) place)
      (unmatched : matchesMemberBinding member binding = false) :
      Edited binding members index (before ++ member :: after)
        (if place < before.length then place else place + 1)
  | remove {before after : List ResolvedProxyMember} {place : Nat} {member : ResolvedProxyMember}
      (edited : Edited binding members index (before ++ member :: after) place)
      (unmatched : matchesMemberBinding member binding = false) :
      Edited binding members index (before ++ after)
        (if place < before.length then place else place - 1)

theorem bound_insert {before after : List ResolvedProxyMember} {new : ResolvedProxyMember}
    (unmatched : matchesMemberBinding new binding = false) :
    Bound binding (before ++ new :: after) (if place < before.length then place else place + 1)
        member ↔ Bound binding (before ++ after) place member := by
  by_cases early : place < before.length
  · have here (rest : List ResolvedProxyMember) : (before ++ rest)[place]? = before[place]? :=
      List.getElem?_append_left early
    have taken (rest : List ResolvedProxyMember) : (before ++ rest).take place = before.take place :=
      List.take_append_of_le_length early.le
    rw [if_pos early]
    constructor <;> rintro ⟨found, matched, counted⟩ <;>
      exact ⟨by rwa [here] at found ⊢, matched, by rwa [taken] at counted ⊢⟩
  · obtain ⟨behind, rfl⟩ := Nat.exists_eq_add_of_le (Nat.le_of_not_lt early)
    have here : (before ++ new :: after)[before.length + behind + 1]? =
        (before ++ after)[before.length + behind]? := by
      rw [Nat.add_assoc, List.getElem?_append_right (by omega),
        List.getElem?_append_right (by omega)]
      simp
    have counts : alike binding ((before ++ new :: after).take (before.length + behind + 1)) =
        alike binding ((before ++ after).take (before.length + behind)) := by
      rw [Nat.add_assoc, List.take_length_add_append, List.take_length_add_append,
        List.take_succ_cons]
      simp [alike, unmatched]
    rw [if_neg early]
    constructor <;> rintro ⟨found, matched, counted⟩
    · exact ⟨here ▸ found, matched, counts ▸ counted⟩
    · exact ⟨here ▸ found, matched, counts ▸ counted⟩

theorem Bound.edited {index : Nat} (bound : Bound binding members index member)
    {others : List ResolvedProxyMember} (edited : Edited binding members index others place) :
    Bound binding others place member := by
  induction edited with
  | same => exact bound
  | insert _ _ unmatched ih => exact (bound_insert unmatched).mpr ih
  | @remove before after place old _ unmatched ih =>
    have elsewhere : place ≠ before.length := by
      rintro rfl
      obtain rfl : old = member := by simpa using ih.here
      rw [ih.matched] at unmatched
      cases unmatched
    refine (bound_insert unmatched).mp ?_
    have moved : (if (if place < before.length then place else place - 1) < before.length then
        (if place < before.length then place else place - 1)
        else (if place < before.length then place else place - 1) + 1) = place := by
      split_ifs <;> omega
    rwa [moved]

end

/-! ## Nodes -/

section

variable {candidates : List ProxyNodeView} {node : ProxyNodeView} {name : Text}
  {source : Option Delay.Source}

theorem insert_ne_nil {Key Val : Type} [DecidableEq Key] (map : List (Key × Val)) (key : Key)
    (value : Val) : OrderedMap.insert map key value ≠ [] := by
  cases map with
  | nil => simp [OrderedMap.insert]
  | cons entry rest =>
    obtain ⟨own, current⟩ := entry
    simp only [OrderedMap.insert]
    split <;> simp

theorem insert_eq_singleton {Key Val : Type} [DecidableEq Key] {map : List (Key × Val)}
    {key own : Key} {value only : Val} :
    OrderedMap.insert map key value = [(own, only)] ↔
      key = own ∧ value = only ∧ (map = [] ∨ ∃ old, map = [(own, old)]) := by
  cases map with
  | nil => simp [OrderedMap.insert]
  | cons entry rest =>
    obtain ⟨first, old⟩ := entry
    by_cases same : first = key
    · subst same
      simp only [OrderedMap.insert, if_true]
      grind
    · have longer := insert_ne_nil rest key value
      simp only [OrderedMap.insert, if_neg same]
      grind

theorem byRecord_concat (nodes : List ProxyNodeView) (last : ProxyNodeView) :
    byRecord (nodes ++ [last]) = OrderedMap.insert (byRecord nodes) last.recordId last := by
  simp [byRecord]

theorem byRecord_alone {recordId : Text} (nodes : List ProxyNodeView) :
    (byRecord nodes = [] ∨ ∃ old, byRecord nodes = [(recordId, old)]) ↔
      ∀ other ∈ nodes, other.recordId = recordId := by
  induction nodes using List.reverseRecOn with
  | nil => simp [byRecord]
  | append_singleton nodes last ih =>
    simp only [byRecord_concat, insert_ne_nil, false_or, insert_eq_singleton, exists_and_left, ih]
    simp only [List.mem_append, List.mem_singleton]
    grind

theorem rebindNode_eq_some : rebindNode candidates ⟨name, source⟩ = some node ↔
    ∃ nodes, candidates.filter (ProxyNodeBinding.fits ⟨name, source⟩) = nodes ++ [node] ∧
      ∀ other ∈ nodes, other.recordId = node.recordId := by
  have single : rebindNode candidates ⟨name, source⟩ = some node ↔ ∃ recordId,
      byRecord (candidates.filter (ProxyNodeBinding.fits ⟨name, source⟩)) =
        [(recordId, node)] := by
    unfold rebindNode
    split
    · rename_i one
      rw [one]
      simp
    · rename_i several
      exact iff_of_false (by simp) fun ⟨recordId, one⟩ => several recordId node one
  rw [single]
  generalize candidates.filter (ProxyNodeBinding.fits ⟨name, source⟩) = found
  induction found using List.reverseRecOn with
  | nil => simp [byRecord]
  | append_singleton nodes last =>
    simp only [byRecord_concat, insert_eq_singleton, byRecord_alone, List.append_singleton_inj]
    grind

theorem rebindNode_own (rebound : rebindNode candidates ⟨name, source⟩ = some node) :
    node.name = name ∧ ∀ own, source = some own → node.source = own := by
  obtain ⟨nodes, found, -⟩ := rebindNode_eq_some.mp rebound
  have listed := List.mem_append_right nodes (List.mem_singleton_self node)
  rw [← found, List.mem_filter] at listed
  obtain ⟨own, same⟩ : node.name = name ∧ source.all (sameSource node.source) := by
    simpa [ProxyNodeBinding.fits] using listed.2
  exact ⟨own, by rintro own rfl; simpa using same⟩

theorem rebindNode_again (rebound : rebindNode candidates ⟨name, source⟩ = some node) :
    rebindNode candidates ⟨name, some node.source⟩ = some node := by
  obtain ⟨nodes, found, alike⟩ := rebindNode_eq_some.mp rebound
  obtain ⟨-, own⟩ := rebindNode_own rebound
  refine rebindNode_eq_some.mpr ⟨nodes.filter (sameSource ·.source node.source), ?_,
    fun other listed => alike other (List.mem_of_mem_filter listed)⟩
  have narrower (other : ProxyNodeView) : ProxyNodeBinding.fits ⟨name, some node.source⟩ other =
      (sameSource other.source node.source && ProxyNodeBinding.fits ⟨name, source⟩ other) := by
    rw [Bool.eq_iff_iff]
    cases source with
    | none => simp [ProxyNodeBinding.fits, and_comm]
    | some given =>
      obtain rfl := own given rfl
      simp [ProxyNodeBinding.fits]
  calc candidates.filter (ProxyNodeBinding.fits ⟨name, some node.source⟩)
      = (candidates.filter (ProxyNodeBinding.fits ⟨name, source⟩)).filter
          (sameSource ·.source node.source) := by
        rw [List.filter_filter]
        exact List.filter_congr fun other _ => narrower other
    _ = nodes.filter (sameSource ·.source node.source) ++ [node] := by
        rw [found, List.filter_append]
        simp

theorem rebindItem_again (proxyView : ProxyViewV1) (item : ProxyChainItem) :
    rebindItem candidates proxyView (rebindItem candidates proxyView item) =
      rebindItem candidates proxyView item := by
  cases rebound : rebindNode candidates ⟨item.name, item.source⟩ with
  | none => simp [rebindItem, rebound]
  | some node => simp [rebindItem, rebound, rebindNode_again rebound]

end

/-- A binding leads back to its member, also where members that it does not match have come or gone,
and never to a node of another source. Binding the items of a chain again keeps them, their names
and the sources that are known, and does nothing a second time. -/
theorem bindings_survive :
    (∀ (members : List ResolvedProxyMember) (index : Nat) (member : ResolvedProxyMember),
      members[index]? = some member → isInteractableMember member →
        ∃ binding, toMemberOccurrenceBinding members index = some binding ∧
          rebindMemberOccurrence members binding = some ⟨index, member⟩ ∧
          ∀ others place, Edited binding members index others place →
            rebindMemberOccurrence others binding = some ⟨place, member⟩) ∧
    (∀ members name source occurrence found,
      rebindMemberOccurrence members (.node name source occurrence) = some found →
        ∃ recordId node, found.member = .node name recordId node ∧ node.source = source) ∧
    (∀ candidates name source node, rebindNode candidates ⟨name, some source⟩ = some node →
      node.source = source) ∧
    ∀ items candidates proxyView,
      let rebound := rebindProxyChainItems items candidates proxyView
      List.Forall₂ (fun item new => new.id = item.id ∧ new.name = item.name ∧
        ∀ source, item.source = some source → new.source = some source) items rebound ∧
      rebindProxyChainItems rebound candidates proxyView = rebound := by
  refine ⟨fun members index member here interactable => ?_,
    fun members name source occurrence found rebound => ?_,
    fun candidates name source node rebound => (rebindNode_own rebound).2 source rfl,
    fun items candidates proxyView => ⟨?_, ?_⟩⟩
  · obtain ⟨binding, made, bound⟩ := bound_of_toMemberOccurrenceBinding here interactable
    exact ⟨binding, made, bound.rebind, fun others place edited => (bound.edited edited).rebind⟩
  · have matched := matches_of_rebindFrom rebound
    obtain ⟨place, member⟩ := found
    cases member with
    | node own recordId node =>
      obtain ⟨rfl, same⟩ : own = name ∧ node.source = source := by
        simpa [matchesMemberBinding] using matched
      exact ⟨recordId, node, rfl, same⟩
    | group | unresolved => cases matched
  · rw [rebindProxyChainItems, List.forall₂_map_right_iff, List.forall₂_same]
    refine fun item _ => ⟨rfl, rfl, fun source known => ?_⟩
    cases rebound : rebindNode candidates ⟨item.name, item.source⟩ with
    | none => simpa [rebindItem, rebound] using known
    | some node => simp [rebindItem, rebound, (rebindNode_own rebound).2 source known]
  · simp only [rebindProxyChainItems, List.map_map]
    exact List.map_congr_left fun item _ => rebindItem_again proxyView item

theorem bindings_survive_group (details : ProxyGroupView) :
    rebindMemberOccurrence [.unresolved [] .missing, .group [] details]
      (.group [] 0) = some ⟨1, .group [] details⟩ := by
  obtain ⟨binding, made, -, survives⟩ :=
    bindings_survive.1 [.group [] details] 0 (.group [] details) rfl rfl
  cases made
  exact survives _ _ (@Edited.insert _ _ _ [] _ _ _ .same rfl)

end ClashVerge.ProxyList
