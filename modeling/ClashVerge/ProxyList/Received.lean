import ClashVerge.ProxyList.Memo
import ClashVerge.ProxyView.Complete
import ClashVerge.UriParser.Encodings

/-!
# The view that the pages receive

What `get_proxy_view` returns is serialized, and the pages have its texts as UTF-16. No reference in
it is lost on them: a page that renders views it has received never throws for a member.
-/

namespace ClashVerge.ProxyList

open ProxyView (ProxyViewInput build)
open UriParser (Text utf16 utf16_injective)
open Transition (run run_cons_iff)

/-- A text of the backend, as the pages have it. -/
def received (value : String) : Text := utf16 value.toList

def receivedCapabilities (capabilities : ProxyView.ProxyCapabilities) : ProxyCapabilities where
  udp := capabilities.udp
  xudp := capabilities.xudp
  tfo := capabilities.tfo
  mptcp := capabilities.mptcp
  smux := capabilities.smux

def receivedSource : ProxyView.ProxyNodeSource → Delay.Source
  | .core proxyName => .core (received proxyName)
  | .provider providerName proxyName => .provider (received providerName) (received proxyName)

def receivedReason : ProxyView.ProxyMemberUnresolvedReason → ProxyMemberUnresolvedReason
  | .missing => .missing
  | .ambiguous => .ambiguous
  | .providerUnavailable => .providerUnavailable

def receivedMember : ProxyView.ProxyMemberRef → ProxyMemberRef
  | .group name => .group (received name)
  | .node name recordId => .node (received name) (received recordId)
  | .unresolved name reason => .unresolved (received name) (receivedReason reason)

/-- How the client of the core serializes its own types. -/
structure Client (ProxyType History : Type) where
  proxyType : ProxyType → Text
  delayHistory : History → DelayHistory

namespace Client

variable {ProxyType History : Type} (client : Client ProxyType History)

def group (view : ProxyView.ProxyGroupView ProxyType History) : ProxyGroupView where
  name := received view.name
  type := client.proxyType view.proxyType
  alive := view.alive
  now := view.now.map received
  fixed := view.fixed.map received
  hidden := view.hidden
  icon := view.icon.map received
  testUrl := view.testUrl.map received
  history := view.history.map client.delayHistory
  members := view.members.map receivedMember
  capabilities := receivedCapabilities view.capabilities

def node (view : ProxyView.ProxyNodeView ProxyType History) : ProxyNodeView where
  recordId := received view.recordId
  name := received view.name
  type := client.proxyType view.proxyType
  alive := view.alive
  history := view.history.map client.delayHistory
  id := view.id.map received
  hidden := view.hidden
  icon := view.icon.map received
  testUrl := view.testUrl.map received
  source := receivedSource view.source
  capabilities := receivedCapabilities view.capabilities

/-- The view that is built, as the pages receive it. -/
def view (input : ProxyViewInput ProxyType History) : ProxyViewV1 where
  global := (build input).global.map client.group
  groups := (build input).groups.map client.group
  records := (build input).records.map fun entry => (received entry.1, client.node entry.2)

end Client

inductive Leads : ProxyMemberRef → ResolvedProxyMember → Prop
  | group {name : Text} {group : ProxyGroupView} (own : group.name = name) :
      Leads (.group name) (.group name group)
  | node {name recordId : Text} {node : ProxyNodeView} (own : node.name = name)
      (ownId : node.recordId = recordId) : Leads (.node name recordId) (.node name recordId node)
  | unresolved (name : Text) (reason : ProxyMemberUnresolvedReason) :
      Leads (.unresolved name reason) (.unresolved name reason)

theorem received_injective : Function.Injective received :=
  fun _ _ same => String.toList_injective (utf16_injective same)

theorem get_received {Val Other : Type} (change : Val → Other) (key : String) :
    ∀ entries : List (String × Val),
      OrderedMap.get (entries.map fun entry => (received entry.1, change entry.2)) (received key) =
        (OrderedMap.get entries key).map change
  | [] => rfl
  | (own, value) :: rest => by
    rw [List.map_cons, OrderedMap.get_cons, OrderedMap.get_cons, get_received change key rest]
    by_cases same : own = key
    · rw [if_pos same, if_pos (congrArg received same), Option.map_some]
    · rw [if_neg same, if_neg (received_injective.ne same)]

theorem findGroup_of_mem {view : ProxyViewV1} {name : Text}
    (listed : name ∈ (view.global.toList ++ view.groups).map (·.name)) :
    ∃ group, view.findGroup name = some group ∧ group.name = name := by
  have among (inside : name ∈ view.groups.map (·.name)) :
      ∃ group, view.groups.find? (·.name = name) = some group ∧ group.name = name := by
    obtain ⟨group, member, own⟩ := List.mem_map.mp inside
    cases found : view.groups.find? (·.name = name) with
    | none => exact absurd own (by simpa using List.find?_eq_none.mp found group member)
    | some other => exact ⟨other, rfl, by simpa using List.find?_some found⟩
  unfold ProxyViewV1.findGroup
  cases global : view.global with
  | none => exact among (by simpa [global] using listed)
  | some group =>
    by_cases own : group.name = name
    · exact ⟨group, if_pos own, own⟩
    · have inside : name ∈ view.groups.map (·.name) := by
        simpa [global, Ne.symm own] using listed
      simpa only [if_neg own] using among inside

theorem resolveOccurrences_of_leads {view : ProxyViewV1} {group : ProxyGroupView}
    (resolves : ∀ ref ∈ group.members,
      ∃ member, view.resolveMember ref = some member ∧ Leads ref member) :
    ∃ occurrences, resolveOccurrences view group = some occurrences ∧
      List.Forall₂ Leads group.members (occurrences.map (·.member)) := by
  unfold resolveOccurrences
  generalize group.members = members at resolves ⊢
  suffices each : ∀ start, ∃ occurrences, ((members.zipIdx start).mapM fun entry =>
      (view.resolveMember entry.1).map fun member => ResolvedMemberOccurrence.mk entry.2 member) =
        some occurrences ∧ List.Forall₂ Leads members (occurrences.map (·.member)) from each 0
  induction members with
  | nil => exact fun _ => ⟨[], rfl, .nil⟩
  | cons ref rest ih =>
    intro start
    obtain ⟨member, found, leads⟩ := resolves ref List.mem_cons_self
    obtain ⟨occurrences, others, later⟩ :=
      ih (fun other inside => resolves other (List.mem_cons_of_mem _ inside)) (start + 1)
    refine ⟨⟨start, member⟩ :: occurrences, ?_, .cons leads later⟩
    rw [List.zipIdx_cons, List.mapM_cons, others, found]
    rfl

section

variable {ProxyType History : Type} (client : Client ProxyType History)
  (input : ProxyViewInput ProxyType History)

theorem names_view :
    ((client.view input).global.toList ++ (client.view input).groups).map (·.name) =
      ((build input).global.toList ++ (build input).groups).map fun group => received group.name := by
  cases global : (build input).global <;> simp [Client.view, Client.group, global]

variable {input}

theorem name_listed {name : String} (is_ : ProxyView.isGroup input name = true) : received name ∈
    ((client.view input).global.toList ++ (client.view input).groups).map (·.name) := by
  have complete := ProxyView.build_referentiallyComplete input
  rw [names_view]
  by_cases global : name = "GLOBAL"
  · have built := complete.global
    rw [if_pos (global ▸ is_)] at built
    obtain ⟨group, is_, own⟩ := Option.map_eq_some_iff.mp built
    refine List.mem_map.mpr ⟨group, List.mem_append_left _ (by simp [is_]), ?_⟩
    rw [own, global]
  · have listed : ProxyView.isListed input name = true := by simp [ProxyView.isListed, is_, global]
    obtain ⟨group, member, rfl⟩ := List.mem_map.mp ((complete.once.2 name).mpr listed)
    exact List.mem_map.mpr ⟨group, List.mem_append_right _ member, rfl⟩

theorem resolveMember_view {group : ProxyView.ProxyGroupView ProxyType History}
    (listed : group ∈ (build input).global.toList ++ (build input).groups)
    {ref : ProxyView.ProxyMemberRef} (refers : ref ∈ group.members) :
    ∃ member, (client.view input).resolveMember (receivedMember ref) = some member ∧
      Leads (receivedMember ref) member := by
  have complete := ProxyView.build_referentiallyComplete input
  cases ref with
  | unresolved name reason => exact ⟨_, rfl, .unresolved ..⟩
  | node name recordId =>
    obtain ⟨record, found, own⟩ := complete.references group listed name recordId refers
    have leads : Leads (receivedMember (.node name recordId)) (.node _ _ (client.node record)) :=
      .node (congrArg received own) (congrArg received (complete.ownId _ (OrderedMap.mem_of_get found)))
    refine ⟨_, ?_, leads⟩
    simp only [receivedMember, ProxyViewV1.resolveMember, Client.view]
    rw [get_received, found]
    rfl
  | group name =>
    obtain ⟨_, members, _, _, resolved⟩ := ProxyView.mem_groups input listed
    rw [resolved] at refers
    obtain ⟨own, _, same⟩ := List.mem_map.mp refers
    have resolves := ProxyView.resolve_resolves input own
    rw [same] at resolves
    cases resolves with
    | group is_ =>
      obtain ⟨found, is_, own⟩ := findGroup_of_mem (name_listed client is_)
      refine ⟨.group _ found, ?_, .group own⟩
      rw [receivedMember, ProxyViewV1.resolveMember, is_]
      rfl

/-- Every reference of a view leads the pages to what it names. -/
theorem resolveOccurrences_view {group : ProxyGroupView}
    (listed : group ∈ (client.view input).global.toList ++ (client.view input).groups) :
    ∃ occurrences, resolveOccurrences (client.view input) group = some occurrences ∧
      List.Forall₂ Leads group.members (occurrences.map (·.member)) := by
  obtain ⟨built, member, rfl⟩ : ∃ built ∈ (build input).global.toList ++ (build input).groups,
      client.group built = group := by
    cases global : (build input).global <;> simpa [Client.view, global, eq_comm] using listed
  refine resolveOccurrences_of_leads fun ref refers => ?_
  obtain ⟨own, inside, rfl⟩ := List.mem_map.mp refers
  exact resolveMember_view client member inside

variable (platform : Platform) (heads : Nat → HeadState)

theorem renderList_isSome (refs : Refs) (render : Render)
    (received : ∀ view ∈ render.proxyView, ∃ input, view = client.view input) :
    (step platform heads refs render).isSome := by
  rw [step, Option.isSome_map]
  cases viewed : render.proxyView with
  | none => simp [renderList, viewed]
  | some view =>
    obtain ⟨input, rfl⟩ := received view viewed
    obtain ⟨-, group, member, -, -, unresolved⟩ | ⟨_, -, -, ⟨-, -, -, drawn⟩ | ⟨-, drawn⟩⟩ :=
      renderList_spec platform heads refs viewed
    · have listed : group ∈ (client.view input).global.toList ++ (client.view input).groups := by
        unfold Render.renderGroups at member
        split at member <;> simp [member]
      obtain ⟨_, resolved, -⟩ := resolveOccurrences_view client listed
      cases resolved.symm.trans unresolved
    · rw [drawn, Option.isSome_some]
    · rw [drawn, Option.isSome_some]

end

end ClashVerge.ProxyList
