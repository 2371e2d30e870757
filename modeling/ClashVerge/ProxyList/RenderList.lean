import ClashVerge.ProxyList.FilterSort

/-!
# The list that the proxy page draws

Outside its chain mode the page draws the groups of the view, or the global group alone: a header
for each, and below it the members its filter leaves. The rows of a group are drawn again only when
what they are compared by has changed. When no group was drawn again, and the list is as long as the
last one, the last one is returned.

Head states, arrays of members and snapshots of delays are compared as objects, which are numbers
here; what a head state says does not change.
-/

namespace ClashVerge.ProxyList

open UriParser (Text text unit decimal)

inductive TextState where
  | url
  | filter
deriving DecidableEq

structure HeadState where
  open_ : Option Bool
  showType : Bool
  sortType : ProxySortType
  filterText : Text
  filterMatchCase : Option Bool
  filterMatchWholeWord : Option Bool
  filterUseRegularExpression : Option Bool
  textState : Option TextState
  testUrl : Text
deriving DecidableEq

def DEFAULT_STATE : HeadState where
  open_ := some false
  showType := true
  sortType := .default
  filterText := []
  filterMatchCase := some false
  filterMatchWholeWord := some false
  filterUseRegularExpression := some false
  textState := none
  testUrl := []

/-- A head state that is stored, or `DEFAULT_STATE`. -/
abbrev HeadRef : Type := Option Nat

def headStateOf (heads : Nat → HeadState) : HeadRef → HeadState
  | none => DEFAULT_STATE
  | some stored => heads stored

/-- The types of a row, in their order: a group, its head, one member, no member, and members side
by side. -/
inductive RowType where
  | group
  | head
  | member
  | empty
  | columns
deriving DecidableEq

structure IRenderItem where
  type : RowType
  key : Text
  group : ProxyGroupView
  member : Option ResolvedMemberOccurrence := none
  memberCol : Option (List ResolvedMemberOccurrence) := none
  col : Option Nat := none
  headState : Option HeadRef := none
  icon : Option Text := none
  testUrl : Option Text := none
deriving DecidableEq

structure GroupCache where
  now : Option Text
  members : Nat
  headState : HeadRef
  col : Nat
  latencyTimeout : Option Int
  delays : Option Nat
  items : List IRenderItem

/-- What a render of the list reads. The names of the groups are distinct. -/
structure Render where
  mode : Text
  proxyView : Option ProxyViewV1
  distinct : ∀ view ∈ proxyView, (view.groups.map (·.name)).Nodup
  membersOf : ProxyGroupView → Nat
  headStates : Text → HeadRef
  col : Nat
  latencyTimeout : Option Int
  groupDelays : Text → Option Nat
  /-- What the delay store says of a member of a group. -/
  getDelayFix : Text → ResolvedProxyMember → Int

/-- The two references that survive from one render to the next. -/
structure Refs where
  groupCache : List (Text × GroupCache)
  prevList : List IRenderItem

def Refs.new : Refs := ⟨[], []⟩

def resolveOccurrences (view : ProxyViewV1) (group : ProxyGroupView) :
    Option (List ResolvedMemberOccurrence) :=
  group.members.zipIdx.mapM fun entry => (view.resolveMember entry.1).map fun member => ⟨entry.2, member⟩

def memberKey (group : ProxyGroupView) (occurrence : ResolvedMemberOccurrence) : Text :=
  let identity := match occurrence.member with
    | .node _ _ node => node.recordId
    | member => member.name
  group.name ++ text ":" ++ decimal occurrence.memberIndex ++ text ":" ++ identity

/-- The reduction of `groupOccurrences`. -/
def addOccurrence {Occurrence : Type} (size : Nat) (acc : List (List Occurrence))
    (item : Occurrence) : List (List Occurrence) :=
  match acc.getLast? with
  | some lastGroup =>
    if lastGroup.length ≥ size then acc ++ [[item]] else acc.dropLast ++ [lastGroup ++ [item]]
  | none => acc ++ [[item]]

def groupOccurrences {Occurrence : Type} (list : List Occurrence) (size : Nat) :
    List (List Occurrence) :=
  list.foldl (addOccurrence size) []

def memberRows (group : ProxyGroupView) (headState : HeadRef) (col : Nat)
    (occurrences : List ResolvedMemberOccurrence) : List IRenderItem :=
  if occurrences.length = 0 then
    [{ type := .empty, key := text "empty-" ++ group.name, group, headState := some headState }]
  else if col > 1 then
    (groupOccurrences occurrences col).map fun memberCol =>
      { type := .columns
        key := text "col:" ++ (memberCol.head?.map (memberKey group)).getD []
        group, headState := some headState, col := some col, memberCol := some memberCol }
  else
    occurrences.map fun member =>
      { type := .member, key := memberKey group member, group, member := some member
        headState := some headState }

/-- Whether the members of a group are drawn. -/
def opens (heads : Nat → HeadState) (useRule : Bool) (headState : HeadRef) : Bool :=
  (headStateOf heads headState).open_.getD false || !useRule

/-- The rows of a group, of whose members these are left. -/
def groupRows (heads : Nat → HeadState) (useRule : Bool) (group : ProxyGroupView)
    (headState : HeadRef) (col : Nat) (occurrences : List ResolvedMemberOccurrence) :
    List IRenderItem :=
  { type := .group, key := group.name, group, headState := some headState, icon := group.icon
    testUrl := group.testUrl } ::
  (if opens heads useRule headState then
    (if !useRule then
      [{ type := .head, key := text "head-" ++ group.name, group, headState := some headState }]
    else []) ++ memberRows group headState col occurrences
  else [])

namespace Render

variable (platform : Platform) (heads : Nat → HeadState) (render : Render)

def useRule : Bool := render.mode = text "rule" || render.mode = text "script"

def renderGroups (view : ProxyViewV1) : List ProxyGroupView :=
  if render.useRule then view.groups else view.global.toList

def reuses (cached : GroupCache) (group : ProxyGroupView) : Bool :=
  cached.now = group.now && cached.members = render.membersOf group &&
    cached.headState = render.headStates group.name && cached.col = render.col &&
    cached.latencyTimeout = render.latencyTimeout && cached.delays = render.groupDelays group.name

/-- The members that the filter of a group leaves, in their order. -/
def occurrences (view : ProxyViewV1) (group : ProxyGroupView) :
    Option (List ResolvedMemberOccurrence) :=
  let headState := headStateOf heads (render.headStates group.name)
  (resolveOccurrences view group).map fun resolved =>
    filterSort platform (render.getDelayFix group.name) resolved headState.filterText
      headState.sortType render.latencyTimeout
      (some ⟨headState.filterMatchCase, headState.filterMatchWholeWord,
        headState.filterUseRegularExpression⟩)

/-- The rows of a group, drawn anew. A member that cannot be resolved is thrown for. -/
def draw (view : ProxyViewV1) (group : ProxyGroupView) : Option (List IRenderItem) :=
  let headState := render.headStates group.name
  if opens heads render.useRule headState then
    (render.occurrences platform heads view group).map
      (groupRows heads render.useRule group headState render.col)
  else some (groupRows heads render.useRule group headState render.col [])

def remember (group : ProxyGroupView) (items : List IRenderItem) : GroupCache where
  now := group.now
  members := render.membersOf group
  headState := render.headStates group.name
  col := render.col
  latencyTimeout := render.latencyTimeout
  delays := render.groupDelays group.name
  items := items

/-- The rows of a group, the cache after it, and whether it was drawn anew. -/
def renderGroup (view : ProxyViewV1) (cache : List (Text × GroupCache)) (group : ProxyGroupView) :
    Option (List IRenderItem × List (Text × GroupCache) × Bool) :=
  let anew := (render.draw platform heads view group).map fun items =>
    (items, OrderedMap.insert cache group.name (render.remember group items), true)
  match OrderedMap.get cache group.name with
  | some cached => if render.reuses cached group then some (cached.items, cache, false) else anew
  | none => anew

/-- The rows of the groups, one after another. -/
def renderAll (view : ProxyViewV1) (cache : List (Text × GroupCache)) :
    List ProxyGroupView → Option (List IRenderItem × List (Text × GroupCache) × Bool)
  | [] => some ([], cache, false)
  | group :: rest => do
    let (items, cache, changed) ← render.renderGroup platform heads view cache group
    let (others, cache, changedLater) ← renderAll view cache rest
    some (items ++ others, cache, changed || changedLater)

end Render

def shown (useRule : Bool) (rows : List IRenderItem) : List IRenderItem :=
  if useRule then rows.filter fun item => !item.group.hidden.getD false else rows.drop 1

section

variable (platform : Platform) (heads : Nat → HeadState)

/-- `renderList` outside the chain mode. -/
def renderList (refs : Refs) (render : Render) : Option (List IRenderItem × Refs) :=
  match render.proxyView with
  | none => some ([], refs)
  | some view =>
    (render.renderAll platform heads view refs.groupCache (render.renderGroups view)).map
      fun (retList, groupCache, anyChanged) =>
        let filtered := shown render.useRule retList
        if !anyChanged && refs.prevList.length = filtered.length then
          (refs.prevList, ⟨groupCache, refs.prevList⟩)
        else (filtered, ⟨groupCache, filtered⟩)

/-- A render; one that throws unmounts the page. -/
def step (refs : Refs) (render : Render) : Option Refs :=
  (renderList platform heads refs render).map Prod.snd

/-- The list of a render that finds its references empty. -/
def scratch (render : Render) : Option (List IRenderItem) :=
  (renderList platform heads .new render).map Prod.fst

end

end ClashVerge.ProxyList
