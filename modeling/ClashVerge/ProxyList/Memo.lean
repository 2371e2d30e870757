import ClashVerge.Library.Segments
import ClashVerge.Library.Transition
import ClashVerge.ProxyList.Rows

/-!
# The memo of the proxy list

What the memo compares is less than what the rows of a group, or the last list, were drawn from. A
run of renders has the lists that are drawn from scratch exactly as long as no render reuses rows
that would be drawn in another way, or the list of other groups.
-/

namespace ClashVerge.ProxyList

open UriParser (Text text)
open OrderedMap (get insert)
open Transition (Meets)

def cachedRows (cache : List (Text × GroupCache)) (name : Text) : List IRenderItem :=
  ((get cache name).map (·.items)).getD []

namespace Render

variable (platform : Platform) (heads : Nat → HeadState) (render : Render) (view : ProxyViewV1)

/-- The memo takes the rows of the group from the cache. -/
def Reused (cache : List (Text × GroupCache)) (group : ProxyGroupView) : Prop :=
  ∃ cached, get cache group.name = some cached ∧ render.reuses cached group = true

/-- A member that is to be drawn cannot be resolved. -/
def Unresolved (group : ProxyGroupView) : Prop :=
  opens heads render.useRule (render.headStates group.name) = true ∧
    resolveOccurrences view group = none

/-- The rows show this group in this kind of mode, and the members that its filter leaves now. -/
structure DrawnFrom (group : ProxyGroupView) (rows : List IRenderItem) : Prop where
  own : rows.head?.map (·.group) = some group
  kind : hasHead rows = !render.useRule
  members : opens heads render.useRule (render.headStates group.name) = true →
    render.occurrences platform heads view group = some (shownMembers rows)

/-- The group is not shown, and its rows are those of a group that was not shown. -/
def Hidden (group : ProxyGroupView) (rows : List IRenderItem) : Prop :=
  render.useRule = true ∧ group.hidden.getD false = true ∧
    ∃ row, rows.head? = some row ∧ row.group.hidden.getD false = true

def shownHeadings : List (RowType × Text) :=
  if render.useRule then
    (view.groups.filter fun group => !group.hidden.getD false).map fun group => (.group, group.name)
  else view.global.toList.map fun group => (.head, group.name)

end Render

/-- A group that is drawn anew fails; or the rows of each reused group are up to date, and if no
group is drawn anew and the list is as long as the last one, that is a list of the groups shown now.
-/
def Fits (platform : Platform) (heads : Nat → HeadState) (refs : Refs) (render : Render) : Prop :=
  ∀ view ∈ render.proxyView,
    (∃ group ∈ render.renderGroups view,
      ¬ render.Reused refs.groupCache group ∧ render.Unresolved heads view group) ∨
    (∀ group ∈ render.renderGroups view, ∀ cached,
      get refs.groupCache group.name = some cached → render.reuses cached group = true →
        ¬ render.Unresolved heads view group ∧
          (render.DrawnFrom platform heads view group cached.items ∨
            render.Hidden group cached.items)) ∧
    ((∀ group ∈ render.renderGroups view, render.Reused refs.groupCache group) →
      (shown render.useRule ((render.renderGroups view).flatMap fun group =>
        cachedRows refs.groupCache group.name)).length = refs.prevList.length →
      headings refs.prevList = render.shownHeadings view)

section

variable {platform : Platform} {heads : Nat → HeadState} {render : Render} {view : ProxyViewV1}
  {group : ProxyGroupView} {cache : List (Text × GroupCache)}

/-! ## One group -/

variable (platform) in
theorem draw_eq_none_iff :
    render.draw platform heads view group = none ↔ render.Unresolved heads view group := by
  unfold Render.draw Render.Unresolved Render.occurrences
  dsimp only
  split
  · rename_i opened
    rw [Option.map_eq_none_iff, Option.map_eq_none_iff, and_iff_right opened]
  · rename_i closed
    simp [closed]

theorem draw_eq_some {rows : List IRenderItem}
    (drawn : render.draw platform heads view group = some rows) :
    ∃ occurrences, rows = groupRows heads render.useRule group (render.headStates group.name)
        render.col occurrences ∧
      (opens heads render.useRule (render.headStates group.name) = true →
        render.occurrences platform heads view group = some occurrences) := by
  unfold Render.draw at drawn
  dsimp only at drawn
  split at drawn
  · obtain ⟨occurrences, left, rfl⟩ := Option.map_eq_some_iff.mp drawn
    exact ⟨occurrences, rfl, fun _ => left⟩
  · rename_i closed
    exact ⟨[], (Option.some.inj drawn).symm, fun opened => absurd opened closed⟩

theorem drawnFrom_iff {useRule' : Bool} {group' : ProxyGroupView}
    {occurrences' : List ResolvedMemberOccurrence} {rows : List IRenderItem}
    (drawn : render.draw platform heads view group = some rows) :
    render.DrawnFrom platform heads view group
        (groupRows heads useRule' group' (render.headStates group.name) render.col occurrences') ↔
      groupRows heads useRule' group' (render.headStates group.name) render.col occurrences' =
        rows := by
  obtain ⟨occurrences, rfl, left⟩ := draw_eq_some drawn
  rw [groupRows_eq_iff]
  constructor
  · rintro ⟨own, kind, members⟩
    have groups : group' = group := Option.some.inj own
    have kinds : useRule' = render.useRule := by
      rw [hasHead_groupRows] at kind
      exact Bool.not_inj kind
    refine ⟨groups, kinds, fun opened => ?_⟩
    rw [kinds] at opened
    have same := (left opened).symm.trans (members opened)
    rw [shownMembers_groupRows, kinds, if_pos opened] at same
    exact (Option.some.inj same).symm
  · rintro ⟨rfl, rfl, members⟩
    refine ⟨rfl, hasHead_groupRows, fun opened => ?_⟩
    rw [left opened, shownMembers_groupRows, if_pos opened, members opened]

/-! ## All groups -/

/-- What a render does with one group: its rows come from the cache, or are drawn and kept. -/
structure Rendered (platform : Platform) (heads : Nat → HeadState) (render : Render)
    (view : ProxyViewV1) (cache : List (Text × GroupCache)) (group : ProxyGroupView)
    (cached : GroupCache) : Prop where
  reused : render.Reused cache group → get cache group.name = some cached ∧
    render.reuses cached group = true
  drawn : ¬ render.Reused cache group →
    render.draw platform heads view group = some cached.items ∧
      cached = render.remember group cached.items

theorem reused_congr {other : List (Text × GroupCache)}
    (same : get other group.name = get cache group.name) :
    render.Reused other group ↔ render.Reused cache group := by
  unfold Render.Reused
  rw [same]

theorem Rendered.congr {other : List (Text × GroupCache)} {cached : GroupCache}
    (same : get other group.name = get cache group.name)
    (rendered : Rendered platform heads render view other group cached) :
    Rendered platform heads render view cache group cached where
  reused hit := by
    rw [← same]
    exact rendered.reused ((reused_congr same).mpr hit)
  drawn miss := rendered.drawn (mt (reused_congr same).mp miss)

theorem renderGroup_spec (platform : Platform) (heads : Nat → HeadState) (render : Render)
    (view : ProxyViewV1) (cache : List (Text × GroupCache)) (group : ProxyGroupView) :
    (render.renderGroup platform heads view cache group = none ∧
      ¬ render.Reused cache group ∧ render.Unresolved heads view group) ∨
    ∃ cached cache' changed, render.renderGroup platform heads view cache group =
        some (cached.items, cache', changed) ∧
      get cache' group.name = some cached ∧
      Rendered platform heads render view cache group cached ∧
      (∀ name, name ≠ group.name → get cache' name = get cache name) ∧
      (changed = false ↔ render.Reused cache group) ∧ (changed = false → cache' = cache) := by
  by_cases hit : render.Reused cache group
  · obtain ⟨cached, found, reuses⟩ := id hit
    refine .inr ⟨cached, cache, false, ?_, found, ⟨fun _ => ⟨found, reuses⟩, absurd hit⟩,
      fun _ _ => rfl, iff_of_true rfl hit, fun _ => rfl⟩
    unfold Render.renderGroup
    rw [found]
    exact if_pos reuses
  · have anew : render.renderGroup platform heads view cache group =
        (render.draw platform heads view group).map fun items =>
          (items, insert cache group.name (render.remember group items), true) := by
      unfold Render.renderGroup
      split
      · rename_i cached found
        exact if_neg fun reuses => hit ⟨cached, found, reuses⟩
      · rfl
    cases drawn : render.draw platform heads view group with rw [drawn] at anew
    | none =>
      exact .inl ⟨anew, hit, (draw_eq_none_iff platform).mp drawn⟩
    | some items =>
      refine .inr ⟨render.remember group items, _, true, anew, OrderedMap.get_insert_same _ _ _,
        ⟨fun again => absurd again hit, fun _ => ⟨drawn, rfl⟩⟩, fun name different => ?_,
        iff_of_false nofun hit, nofun⟩
      exact OrderedMap.get_insert_other _ _ different

theorem renderAll_spec (platform : Platform) (heads : Nat → HeadState) (render : Render)
    (view : ProxyViewV1) (cache : List (Text × GroupCache)) {groups : List ProxyGroupView}
    (distinct : (groups.map (·.name)).Nodup) :
    (render.renderAll platform heads view cache groups = none ∧
      ∃ group ∈ groups, ¬ render.Reused cache group ∧ render.Unresolved heads view group) ∨
    ∃ cache' changed, render.renderAll platform heads view cache groups =
        some (groups.flatMap fun group => cachedRows cache' group.name, cache', changed) ∧
      (∀ group ∈ groups, ∃ cached, get cache' group.name = some cached ∧
        Rendered platform heads render view cache group cached) ∧
      (∀ name, name ∉ groups.map (·.name) →
        get cache' name = get cache name) ∧
      (changed = false ↔ ∀ group ∈ groups, render.Reused cache group) ∧
      (changed = false → cache' = cache) := by
  induction groups generalizing cache with
  | nil => exact .inr ⟨cache, false, rfl, by simp, fun _ _ => rfl, by simp, fun _ => rfl⟩
  | cons group rest ih =>
    obtain ⟨fresh, restDistinct⟩ := List.nodup_cons.mp distinct
    have others : ∀ other ∈ rest, other.name ≠ group.name := fun other later same =>
      fresh (List.mem_map.mpr ⟨other, later, same⟩)
    obtain ⟨failed, miss, unresolved⟩ |
        ⟨cached, cache₁, changed₁, first, found, rendered, frame, exactly, kept⟩ :=
      renderGroup_spec platform heads render view cache group
    · refine .inl ⟨?_, group, List.mem_cons_self, miss, unresolved⟩
      rw [Render.renderAll, failed]
      rfl
    · have same : ∀ other ∈ rest, render.Reused cache₁ other ↔ render.Reused cache other :=
        fun other later => reused_congr (frame other.name (others other later))
      obtain ⟨failed, other, later, miss, unresolved⟩ |
          ⟨cache₂, changed₂, remaining, each, frame', exactly', kept'⟩ :=
        ih cache₁ restDistinct
      · refine .inl ⟨?_, other, List.mem_cons_of_mem _ later, mt (same other later).mpr miss,
          unresolved⟩
        rw [Render.renderAll, first]
        simp only [Option.bind_eq_bind, Option.bind_some, failed, Option.bind_none]
      · have stays : get cache₂ group.name = some cached :=
          (frame' group.name fresh).trans found
        refine .inr ⟨cache₂, changed₁ || changed₂, ?_, ?_, ?_, ?_, ?_⟩
        · rw [Render.renderAll, first]
          simp only [Option.bind_eq_bind, Option.bind_some, remaining, List.flatMap_cons]
          rw [cachedRows, stays]
          rfl
        · intro other member
          obtain rfl | later := List.mem_cons.mp member
          · exact ⟨cached, stays, rendered⟩
          · obtain ⟨cached', found', rendered'⟩ := each other later
            exact ⟨cached', found', rendered'.congr (frame other.name (others other later))⟩
        · intro name absent
          rw [List.map_cons, List.mem_cons, not_or] at absent
          rw [frame' name absent.2, frame name absent.1]
        · rw [Bool.or_eq_false_iff, exactly, exactly', List.forall_mem_cons]
          exact and_congr_right fun _ => forall₂_congr fun other later => same other later
        · intro none
          obtain ⟨one, two⟩ := Bool.or_eq_false_iff.mp none
          rw [kept' two, kept one]

/-! ## What the references keep -/

/-- Rows that were drawn at some time, of a group of this name. -/
def RowsOf (heads : Nat → HeadState) (name : Text) (rows : List IRenderItem) : Prop :=
  ∃ useRule group headState col occurrences, group.name = name ∧
    rows = groupRows heads useRule group headState col occurrences

/-- The cache keeps drawn rows with what they are compared by, and the last list was put together
from them. -/
structure Kept (heads : Nat → HeadState) (refs : Refs) : Prop where
  entries : ∀ name cached, get refs.groupCache name = some cached →
    ∃ useRule group occurrences, group.name = name ∧
      cached.items = groupRows heads useRule group cached.headState cached.col occurrences
  last : ∃ useRule names, (names : List Text).Nodup ∧ (useRule = false → names.length ≤ 1) ∧
    (∀ name ∈ names, (get refs.groupCache name).isSome) ∧
    refs.prevList = names.flatMap fun name => shown useRule (cachedRows refs.groupCache name)

theorem shown_flatMap {Item : Type} {useRule : Bool} {items : List Item}
    (single : useRule = false → items.length ≤ 1) (segment : Item → List IRenderItem) :
    shown useRule (items.flatMap segment) = items.flatMap fun item => shown useRule (segment item) := by
  cases useRule with
  | true => exact List.filter_flatMap
  | false =>
    match items, single rfl with
    | [], _ => rfl
    | [item], _ => simp only [List.flatMap_cons, List.flatMap_nil, List.append_nil]

theorem renderGroups_distinct (viewed : render.proxyView = some view) :
    ((render.renderGroups view).map (·.name)).Nodup := by
  unfold Render.renderGroups
  split
  · exact render.distinct view viewed
  · cases view.global with
    | none => exact List.nodup_nil
    | some group => exact List.nodup_singleton _

theorem renderGroups_single (alone : render.useRule = false) :
    (render.renderGroups view).length ≤ 1 := by
  unfold Render.renderGroups
  rw [alone, if_neg Bool.false_ne_true]
  cases view.global <;> simp

theorem renderList_spec (platform : Platform) (heads : Nat → HeadState) (refs : Refs)
    (viewed : render.proxyView = some view) :
    (renderList platform heads refs render = none ∧ ∃ group ∈ render.renderGroups view,
      ¬ render.Reused refs.groupCache group ∧ render.Unresolved heads view group) ∨
    ∃ cache',
      (∀ group ∈ render.renderGroups view, ∃ cached,
        get cache' group.name = some cached ∧
          Rendered platform heads render view refs.groupCache group cached) ∧
      (∀ name, name ∉ (render.renderGroups view).map (·.name) →
        get cache' name = get refs.groupCache name) ∧
      let filtered := fun cache => (render.renderGroups view).flatMap fun group =>
        shown render.useRule (cachedRows cache group.name)
      ((∀ group ∈ render.renderGroups view, render.Reused refs.groupCache group) ∧
        cache' = refs.groupCache ∧ refs.prevList.length = (filtered refs.groupCache).length ∧
        renderList platform heads refs render = some (refs.prevList, refs)) ∨
      (¬ ((∀ group ∈ render.renderGroups view, render.Reused refs.groupCache group) ∧
          refs.prevList.length = (filtered refs.groupCache).length) ∧
        renderList platform heads refs render = some (filtered cache', ⟨cache', filtered cache'⟩)) := by
  obtain ⟨failed, missed⟩ | ⟨cache', changed, rendered, each, frame, exactly, kept⟩ :=
    renderAll_spec platform heads render view refs.groupCache (renderGroups_distinct viewed)
  · refine .inl ⟨?_, missed⟩
    unfold renderList
    rw [viewed]
    dsimp only
    rw [failed]
    rfl
  · refine .inr ⟨cache', each, frame, ?_⟩
    have result : renderList platform heads refs render = some
        (let filtered := (render.renderGroups view).flatMap fun group =>
          shown render.useRule (cachedRows cache' group.name)
        if !changed && refs.prevList.length = filtered.length then
          (refs.prevList, ⟨cache', refs.prevList⟩)
        else (filtered, ⟨cache', filtered⟩)) := by
      unfold renderList
      rw [viewed]
      dsimp only
      rw [rendered, ← shown_flatMap renderGroups_single]
      rfl
    dsimp only at result ⊢
    cases changed with
    | true =>
      refine .inr ⟨fun both => ?_, result⟩
      cases exactly.mpr both.1
    | false =>
      obtain rfl : cache' = refs.groupCache := kept rfl
      by_cases long : refs.prevList.length = ((render.renderGroups view).flatMap fun group =>
          shown render.useRule (cachedRows refs.groupCache group.name)).length
      · refine .inl ⟨exactly.mp rfl, rfl, long, ?_⟩
        rw [result, if_pos (by simpa using long)]
      · exact .inr ⟨fun both => long both.2, by rw [result, if_neg (by simpa using long)]⟩

variable {refs refs' : Refs}

theorem Kept.new (heads : Nat → HeadState) : Kept heads .new where
  entries := nofun
  last := ⟨true, [], List.nodup_nil, nofun, nofun, rfl⟩

theorem Kept.rowsOf (kept : Kept heads refs) {name : Text}
    (known : (get refs.groupCache name).isSome) :
    RowsOf heads name (cachedRows refs.groupCache name) := by
  obtain ⟨cached, found⟩ := Option.isSome_iff_exists.mp known
  obtain ⟨useRule, group, occurrences, own, drawn⟩ := kept.entries name cached found
  refine ⟨useRule, group, cached.headState, cached.col, occurrences, own, ?_⟩
  rw [cachedRows, found, ← drawn]
  rfl

theorem Kept.entry (kept : Kept heads refs) {cached : GroupCache}
    (rendered : Rendered platform heads render view refs.groupCache group cached) :
    ∃ useRule group' occurrences, group'.name = group.name ∧
      cached.items = groupRows heads useRule group' cached.headState cached.col occurrences := by
  by_cases hit : render.Reused refs.groupCache group
  · exact kept.entries group.name cached (rendered.reused hit).1
  · obtain ⟨drawn, remembered⟩ := rendered.drawn hit
    obtain ⟨occurrences, rows, -⟩ := draw_eq_some drawn
    refine ⟨render.useRule, group, occurrences, rfl, ?_⟩
    rw [rows, remembered]
    rfl

theorem Kept.next (kept : Kept heads refs) {list : List IRenderItem}
    (rendered : renderList platform heads refs render = some (list, refs')) : Kept heads refs' := by
  cases viewed : render.proxyView with
  | none =>
    unfold renderList at rendered
    rw [viewed] at rendered
    cases rendered
    exact kept
  | some view =>
    obtain ⟨failed, -⟩ | ⟨cache', each, frame, same | anew⟩ :=
      renderList_spec platform heads refs viewed
    · rw [failed] at rendered
      cases rendered
    · obtain ⟨-, -, -, result⟩ := same
      rw [result] at rendered
      cases rendered
      exact kept
    · rw [anew.2] at rendered
      cases rendered
      constructor
      · intro name cached found
        by_cases listed : name ∈ (render.renderGroups view).map (·.name)
        · obtain ⟨group, member, rfl⟩ := List.mem_map.mp listed
          obtain ⟨cached', found', rendered'⟩ := each group member
          obtain rfl : cached' = cached := Option.some.inj (found'.symm.trans found)
          exact kept.entry rendered'
        · exact kept.entries name cached ((frame name listed).symm.trans found)
      · refine ⟨render.useRule, (render.renderGroups view).map (·.name),
          renderGroups_distinct viewed, fun alone => ?_, fun name listed => ?_, ?_⟩
        · rw [List.length_map]
          exact renderGroups_single alone
        · obtain ⟨group, member, rfl⟩ := List.mem_map.mp listed
          obtain ⟨cached, found, -⟩ := each group member
          rw [found]
          rfl
        · rw [List.flatMap_map]

/-! ## What a render shows -/

/-- The rows that a group is drawn with now, if it can be. -/
def freshRows (platform : Platform) (heads : Nat → HeadState) (render : Render)
    (view : ProxyViewV1) (group : ProxyGroupView) : List IRenderItem :=
  (render.draw platform heads view group).getD []

variable (platform) in
theorem draw_eq_freshRows (resolved : ¬ render.Unresolved heads view group) :
    render.draw platform heads view group =
      some (freshRows platform heads render view group) := by
  cases drawn : render.draw platform heads view group with
  | none => exact absurd ((draw_eq_none_iff platform).mp drawn) resolved
  | some rows => rw [freshRows, drawn]; rfl

theorem reused_nil : ¬ render.Reused [] group := fun hit => nomatch hit

theorem scratch_spec (platform : Platform) (heads : Nat → HeadState)
    (viewed : render.proxyView = some view) :
    ((∃ group ∈ render.renderGroups view, render.Unresolved heads view group) →
      scratch platform heads render = none) ∧
    ((∀ group ∈ render.renderGroups view, ¬ render.Unresolved heads view group) →
      scratch platform heads render = some ((render.renderGroups view).flatMap fun group =>
        shown render.useRule (freshRows platform heads render view group))) := by
  unfold scratch
  obtain ⟨failed, group, member, -, unresolved⟩ | ⟨cache', each, -, result⟩ :=
    renderList_spec platform heads .new viewed
  · rw [failed]
    exact ⟨fun _ => rfl, fun resolved => absurd unresolved (resolved group member)⟩
  · have drawn : ∀ group ∈ render.renderGroups view,
        render.draw platform heads view group = some (cachedRows cache' group.name) := by
      intro group member
      obtain ⟨cached, found, rendered⟩ := each group member
      rw [cachedRows, found]
      exact (rendered.drawn reused_nil).1
    constructor
    · rintro ⟨group, member, unresolved⟩
      have none := (draw_eq_none_iff platform).mpr unresolved
      rw [drawn group member] at none
      cases none
    · intro _
      have whole : ((render.renderGroups view).flatMap fun group =>
            shown render.useRule (cachedRows cache' group.name)) =
          (render.renderGroups view).flatMap fun group =>
            shown render.useRule (freshRows platform heads render view group) := by
        apply List.flatMap_congr
        intro group member
        rw [freshRows, drawn group member]
        rfl
      dsimp only at result
      obtain ⟨-, rfl, long, same⟩ | anew := result
      · rw [same, ← whole, List.eq_nil_of_length_eq_zero long.symm]
        rfl
      · rw [anew.2, Option.map_some, whole]

/-! ## Where the lists agree -/

section

variable {name : Text} {rows : List IRenderItem} {useRule : Bool}

section

variable (are : RowsOf heads name rows)
include are

theorem RowsOf.own {row : IRenderItem}
    (inside : row ∈ shown useRule rows) : row.group.name = name := by
  obtain ⟨useRule', group, headState, col, occurrences, rfl, rfl⟩ := are
  rw [group_of_mem_shown inside]

theorem RowsOf.heading_own {heading : RowType × Text}
    (inside : heading ∈ headings (shown useRule rows)) : heading.2 = name := by
  obtain ⟨row, shown_, read⟩ := List.mem_filterMap.mp inside
  split at read
  · cases read
    exact are.own shown_
  · cases read

theorem RowsOf.header_mem (nonempty : shown true rows ≠ []) :
    (.group, name) ∈ headings (shown true rows) := by
  obtain ⟨useRule', group, headState, col, occurrences, rfl, rfl⟩ := are
  rw [shown_groupRows_rule] at nonempty ⊢
  split at nonempty
  · exact absurd rfl nonempty
  · rename_i visible
    rw [if_neg visible, headings_groupRows]
    exact List.mem_cons_self

theorem RowsOf.headings_alone {heading : RowType × Text}
    (inside : heading ∈ headings (shown false rows)) : heading = (.head, name) := by
  obtain ⟨useRule', group, headState, col, occurrences, rfl, rfl⟩ := are
  rw [shown_groupRows_alone, headings_tail] at inside
  split at inside
  · cases inside
  · exact List.mem_singleton.mp inside

end

end

theorem headings_flatMap {Item : Type} (items : List Item) (segment : Item → List IRenderItem) :
    headings (items.flatMap segment) = items.flatMap fun item => headings (segment item) :=
  List.filterMap_flatMap

variable (platform) in
theorem freshRows_spec (resolved : ¬ render.Unresolved heads view group) :
    ∃ occurrences, freshRows platform heads render view group =
      groupRows heads render.useRule group (render.headStates group.name) render.col
        occurrences := by
  obtain ⟨occurrences, rows, -⟩ := draw_eq_some (draw_eq_freshRows platform resolved)
  exact ⟨occurrences, rows⟩

variable (platform) in
theorem headings_scratch
    (resolved : ∀ group ∈ render.renderGroups view, ¬ render.Unresolved heads view group) :
    headings ((render.renderGroups view).flatMap fun group =>
      shown render.useRule (freshRows platform heads render view group)) =
        render.shownHeadings view := by
  rw [headings_flatMap]
  unfold Render.shownHeadings Render.renderGroups at *
  by_cases rule : render.useRule = true
  · rw [if_pos rule] at resolved ⊢
    rw [if_pos rule, ← Segments.flatMap_unless]
    apply List.flatMap_congr
    intro group member
    obtain ⟨occurrences, rows⟩ := freshRows_spec platform (resolved group member)
    rw [rows, rule, shown_groupRows_rule]
    split
    · rfl
    · rw [headings_groupRows]
      rfl
  · rw [if_neg rule] at resolved ⊢
    rw [if_neg rule]
    cases global : view.global with
    | none => rfl
    | some group =>
      obtain ⟨occurrences, rows⟩ := freshRows_spec platform
        (resolved group (by simp [global]))
      have alone : render.useRule = false := by simpa using rule
      simp only [Option.toList_some, List.flatMap_cons, List.flatMap_nil, List.append_nil,
        List.map_cons, List.map_nil]
      rw [rows, alone, shown_groupRows_alone, headings_tail]
      rfl

theorem rowsOf_freshRows (resolved : ¬ render.Unresolved heads view group) :
    RowsOf heads group.name (freshRows platform heads render view group) := by
  obtain ⟨occurrences, rows⟩ := freshRows_spec platform resolved
  exact ⟨_, _, _, _, _, rfl, rows⟩

theorem nil_of_other_kind {Item Other : Type} {items : List Item} {others : List Other}
    {nameOf : Item → Text} {otherName : Other → Text} {one : Item → List IRenderItem}
    {other : Other → List IRenderItem}
    (rows : ∀ item ∈ items, RowsOf heads (nameOf item) (one item))
    (rowsToo : ∀ item ∈ others, RowsOf heads (otherName item) (other item))
    (headings_ : ∀ heading ∈ headings (items.flatMap fun item => shown true (one item)),
      heading ∈ headings (others.flatMap fun item => shown false (other item))) :
    (items.flatMap fun item => shown true (one item)) = [] := by
  rw [List.flatMap_eq_nil_iff]
  intro item member
  by_contra nonempty
  have header := (rows item member).header_mem nonempty
  have inside := headings_ (.group, nameOf item) (by
    rw [headings_flatMap]
    exact List.mem_flatMap.mpr ⟨item, member, header⟩)
  rw [headings_flatMap] at inside
  obtain ⟨other, listed, alone⟩ := List.mem_flatMap.mp inside
  cases (rowsToo other listed).headings_alone alone

section

variable (kept : Kept heads refs)
include kept

/-- Where the last list is the one that is drawn from scratch, and as long as that of the cached
rows, each group is shown as it is drawn. -/
theorem shown_of_last (viewed : render.proxyView = some view)
    (resolved : ∀ group ∈ render.renderGroups view, ¬ render.Unresolved heads view group)
    (last : refs.prevList = (render.renderGroups view).flatMap fun group =>
      shown render.useRule (freshRows platform heads render view group))
    (long : refs.prevList.length = ((render.renderGroups view).flatMap fun group =>
      shown render.useRule (cachedRows refs.groupCache group.name)).length) :
    ∀ group ∈ render.renderGroups view,
      shown render.useRule (cachedRows refs.groupCache group.name) =
        shown render.useRule (freshRows platform heads render view group) := by
  have distinct := renderGroups_distinct viewed
  have fresh : ∀ group ∈ render.renderGroups view,
      RowsOf heads group.name (freshRows platform heads render view group) :=
    fun group member => rowsOf_freshRows (resolved group member)
  obtain ⟨useRule, names, namesDistinct, single, namesKnown, put⟩ := kept.last
  have rows : ∀ name ∈ names, RowsOf heads name (cachedRows refs.groupCache name) :=
    fun name listed => kept.rowsOf (namesKnown name listed)
  -- A group of the last list is shown as it is drawn, and no other group is drawn.
  have either : ∀ group ∈ render.renderGroups view,
      shown render.useRule (freshRows platform heads render view group) = [] ∨
        shown render.useRule (freshRows platform heads render view group) =
          shown render.useRule (cachedRows refs.groupCache group.name) := by
    intro group member
    have whole := put.symm.trans last
    by_cases kinds : useRule = render.useRule
    · subst kinds
      have freshOwn : ∀ group ∈ render.renderGroups view,
          ∀ row ∈ shown render.useRule (freshRows platform heads render view group),
            row.group.name = group.name :=
        fun group member row inside => (fresh group member).own inside
      have namesOwn : ∀ name ∈ names, ∀ row ∈ shown render.useRule
          (cachedRows refs.groupCache name), row.group.name = id name :=
        fun name listed row inside => (rows name listed).own inside
      rw [← Segments.filter_flatMap distinct freshOwn member, ← whole]
      by_cases listed : group.name ∈ names
      · right
        exact Segments.filter_flatMap (by rwa [List.map_id]) namesOwn listed
      · left
        exact Segments.filter_flatMap_absent namesOwn (by rwa [List.map_id])
    · left
      have none : ((render.renderGroups view).flatMap fun group =>
          shown render.useRule (freshRows platform heads render view group)) = [] := by
        cases alone : render.useRule with
        | true =>
          have other : useRule = false := by simpa [alone] using kinds
          rw [alone, other] at whole
          refine nil_of_other_kind fresh rows fun heading inside => ?_
          rwa [whole]
        | false =>
          have other : useRule = true := by simpa [alone] using kinds
          rw [alone, other] at whole
          rw [← whole]
          refine nil_of_other_kind rows fresh fun heading inside => ?_
          rwa [← whole]
      exact List.flatMap_eq_nil_iff.mp none group member
  have total : ((render.renderGroups view).flatMap fun group =>
        shown render.useRule (cachedRows refs.groupCache group.name)).length ≤
      ((render.renderGroups view).flatMap fun group =>
        shown render.useRule (freshRows platform heads render view group)).length := by
    rw [← long, last]
  have lengths := Segments.length_eq_of_le (fun group member => by
    obtain none | same := either group member
    · rw [none]
      exact Nat.zero_le _
    · rw [same]) total
  intro group member
  obtain none | same := either group member
  · have length := lengths group member
    rw [none] at length ⊢
    exact List.eq_nil_of_length_eq_zero length.symm
  · exact same.symm

/-- Where the last list has the headings of the one that is drawn from scratch, and the cached rows
are up to date, it is that list. -/
theorem last_of_headings
    (resolved : ∀ group ∈ render.renderGroups view, ¬ render.Unresolved heads view group)
    (known : ∀ group ∈ render.renderGroups view,
      (get refs.groupCache group.name).isSome)
    (same : ∀ group ∈ render.renderGroups view,
      shown render.useRule (cachedRows refs.groupCache group.name) =
        shown render.useRule (freshRows platform heads render view group))
    (long : refs.prevList.length = ((render.renderGroups view).flatMap fun group =>
      shown render.useRule (cachedRows refs.groupCache group.name)).length)
    (named : headings refs.prevList = render.shownHeadings view) :
    refs.prevList = (render.renderGroups view).flatMap fun group =>
      shown render.useRule (cachedRows refs.groupCache group.name) := by
  obtain ⟨useRule, names, namesDistinct, single, namesKnown, put⟩ := kept.last
  have rows : ∀ name ∈ names, RowsOf heads name (cachedRows refs.groupCache name) :=
    fun name listed => kept.rowsOf (namesKnown name listed)
  have rowsToo : ∀ group ∈ render.renderGroups view,
      RowsOf heads group.name (cachedRows refs.groupCache group.name) :=
    fun group member => kept.rowsOf (known group member)
  have marks : headings (names.flatMap fun name => shown useRule (cachedRows refs.groupCache name)) =
      headings ((render.renderGroups view).flatMap fun group =>
        shown render.useRule (cachedRows refs.groupCache group.name)) := by
    rw [← put, named, ← headings_scratch platform resolved, List.flatMap_congr same]
  rw [put] at long ⊢
  cases alone : render.useRule with
  | true =>
    cases kind : useRule with
    | true =>
      rw [alone] at same
      rw [alone, kind] at marks
      rw [headings_flatMap, headings_flatMap] at marks
      have marked : ∀ group ∈ render.renderGroups view,
          shown true (cachedRows refs.groupCache group.name) ≠ [] →
            headings (shown true (cachedRows refs.groupCache group.name)) =
              [(.group, group.name)] := by
        intro group member nonempty
        obtain ⟨occurrences, fresh⟩ := freshRows_spec platform (resolved group member)
        rw [same group member, fresh, alone, shown_groupRows_rule] at nonempty ⊢
        split at nonempty
        · exact absurd rfl nonempty
        · rename_i visible
          rw [if_neg visible, headings_groupRows]
          rfl
      have whole : (names.flatMap fun name => shown true (cachedRows refs.groupCache name)) =
          ((render.renderGroups view).map (·.name)).flatMap fun name =>
            shown true (cachedRows refs.groupCache name) := by
        apply Segments.flatMap_eq_of_marks (Prod.mk_right_injective RowType.group)
          (show headings [] = [] from rfl)
        · intro name listed nonempty
          have header := (rows name listed).header_mem nonempty
          have inside : (.group, name) ∈ names.flatMap fun name =>
              headings (shown true (cachedRows refs.groupCache name)) :=
            List.mem_flatMap.mpr ⟨name, listed, header⟩
          rw [marks] at inside
          obtain ⟨group, member, within⟩ := List.mem_flatMap.mp inside
          obtain rfl : name = group.name := (rowsToo group member).heading_own within
          exact marked group member nonempty
        · intro name listed nonempty
          obtain ⟨group, member, rfl⟩ := List.mem_map.mp listed
          exact marked group member nonempty
        · rw [List.flatMap_map]
          exact marks
      rw [whole, List.flatMap_map]
    | false =>
      rw [alone, kind] at marks long
      have none := nil_of_other_kind rowsToo rows fun heading inside => marks ▸ inside
      rw [none] at long ⊢
      exact List.eq_nil_of_length_eq_zero long
  | false =>
    cases kind : useRule with
    | true =>
      rw [alone, kind] at marks long
      have none := nil_of_other_kind rows rowsToo fun heading inside => marks ▸ inside
      rw [none] at long ⊢
      exact (List.eq_nil_of_length_eq_zero long.symm).symm
    | false =>
      rw [alone] at same
      rw [alone, kind] at marks long
      cases groups : render.renderGroups view with
      | nil =>
        rw [groups] at long
        exact List.eq_nil_of_length_eq_zero long
      | cons group rest =>
        have member : group ∈ render.renderGroups view := by
          rw [groups]
          exact List.mem_cons_self
        have only : rest = [] := by
          have most : (render.renderGroups view).length ≤ 1 := renderGroups_single alone
          rw [groups, List.length_cons] at most
          exact List.eq_nil_of_length_eq_zero (by omega)
        have head : (.head, group.name) ∈ headings ((render.renderGroups view).flatMap fun group =>
            shown false (cachedRows refs.groupCache group.name)) := by
          obtain ⟨occurrences, fresh⟩ :=
            freshRows_spec platform (resolved group member)
          rw [headings_flatMap]
          refine List.mem_flatMap.mpr ⟨group, member, ?_⟩
          rw [same group member, fresh, alone, shown_groupRows_alone, headings_tail]
          exact List.mem_cons_self
        rw [← marks, headings_flatMap] at head
        obtain ⟨name, listed, within⟩ := List.mem_flatMap.mp head
        obtain rfl : group.name = name := (rows name listed).heading_own within
        have single : names = [group.name] := by
          obtain ⟨before, after, parts⟩ := List.append_of_mem listed
          have most := single kind
          rw [parts, List.length_append, List.length_cons] at most
          rw [parts, List.eq_nil_of_length_eq_zero (show before.length = 0 by omega),
            List.eq_nil_of_length_eq_zero (show after.length = 0 by omega), List.nil_append]
        rw [only, single]
        rfl

theorem shown_cached_iff {cached : GroupCache}
    (found : get refs.groupCache group.name = some cached)
    (reuses : render.reuses cached group = true)
    (resolved : ¬ render.Unresolved heads view group) :
    shown render.useRule cached.items =
        shown render.useRule (freshRows platform heads render view group) ↔
      render.DrawnFrom platform heads view group cached.items ∨
        render.Hidden group cached.items := by
  obtain ⟨useRule, group', occurrences', own, rows⟩ := kept.entries group.name cached found
  obtain ⟨occurrences, fresh⟩ := freshRows_spec platform resolved
  have compared : cached.headState = render.headStates group.name ∧ cached.col = render.col := by
    simp only [Render.reuses, Bool.and_eq_true, decide_eq_true_eq] at reuses
    exact ⟨reuses.1.1.1.2, reuses.1.1.2⟩
  rw [compared.1, compared.2] at rows
  have drawn := draw_eq_freshRows platform resolved
  rw [rows, drawnFrom_iff drawn, fresh, shown_eq_iff]
  apply or_congr_right
  unfold Render.Hidden
  constructor
  · rintro ⟨rule, hidden', hidden⟩
    exact ⟨rule, hidden, _, rfl, hidden'⟩
  · rintro ⟨rule, hidden, row, first, hidden'⟩
    cases first
    exact ⟨rule, hidden', hidden⟩

/-- What is cached after a render that draws every other group is shown as from scratch just if what
it reuses is up to date. -/
theorem segments_eq_iff {cache' : List (Text × GroupCache)}
    (each : ∀ group ∈ render.renderGroups view, ∃ cached,
      get cache' group.name = some cached ∧
        Rendered platform heads render view refs.groupCache group cached)
    (resolved : ∀ group ∈ render.renderGroups view, ¬ render.Unresolved heads view group) :
    (∀ group ∈ render.renderGroups view,
      shown render.useRule (cachedRows cache' group.name) =
        shown render.useRule (freshRows platform heads render view group)) ↔
      ∀ group ∈ render.renderGroups view, ∀ cached,
        get refs.groupCache group.name = some cached →
          render.reuses cached group = true →
            render.DrawnFrom platform heads view group cached.items ∨
              render.Hidden group cached.items := by
  refine forall₂_congr fun group member => ?_
  obtain ⟨cached, found', rendered⟩ := each group member
  have rows : cachedRows cache' group.name = cached.items := by
    rw [cachedRows, found']
    rfl
  rw [rows]
  by_cases hit : render.Reused refs.groupCache group
  · obtain ⟨found, reuses⟩ := rendered.reused hit
    rw [shown_cached_iff kept found reuses (resolved group member)]
    constructor
    · intro current other foundOther _
      obtain rfl := Option.some.inj (found.symm.trans foundOther)
      exact current
    · intro current
      exact current cached found reuses
  · obtain ⟨drawn, -⟩ := rendered.drawn hit
    have same : cached.items = freshRows platform heads render view group := by
      rw [freshRows, drawn]
      rfl
    apply iff_of_true
    · rw [same]
    · intro other found reuses
      exact absurd ⟨other, found, reuses⟩ hit

theorem filtered_eq_iff (viewed : render.proxyView = some view) {cache' : List (Text × GroupCache)}
    (each : ∀ group ∈ render.renderGroups view, ∃ cached,
      get cache' group.name = some cached ∧
        Rendered platform heads render view refs.groupCache group cached)
    (resolved : ∀ group ∈ render.renderGroups view, ¬ render.Unresolved heads view group) :
    ((render.renderGroups view).flatMap fun group =>
        shown render.useRule (cachedRows cache' group.name)) =
      ((render.renderGroups view).flatMap fun group =>
        shown render.useRule (freshRows platform heads render view group)) ↔
    ∀ group ∈ render.renderGroups view,
      shown render.useRule (cachedRows cache' group.name) =
        shown render.useRule (freshRows platform heads render view group) := by
  apply Segments.flatMap_eq_iff (renderGroups_distinct viewed)
  · intro group member row inside
    obtain ⟨cached, found, rendered⟩ := each group member
    obtain ⟨useRule, group', occurrences, own, rows⟩ := kept.entry rendered
    have are : RowsOf heads group.name (cachedRows cache' group.name) := by
      rw [cachedRows, found]
      exact ⟨useRule, group', _, _, occurrences, own, rows⟩
    exact are.own inside
  · intro group member row inside
    exact (rowsOf_freshRows (resolved group member)).own inside

theorem list_eq_scratch_iff :
    (renderList platform heads refs render).map Prod.fst = scratch platform heads render ↔
      Fits platform heads refs render := by
  unfold Fits
  cases viewed : render.proxyView with
  | none =>
    unfold scratch renderList
    rw [viewed]
    simp
  | some view =>
    simp only [Option.mem_some_iff, forall_eq']
    obtain ⟨failsFrom, drawsFrom⟩ := scratch_spec platform heads viewed
    obtain ⟨failed, missed⟩ | ⟨cache', each, -, result⟩ := renderList_spec platform heads refs viewed
    · obtain ⟨group, member, -, unresolved⟩ := id missed
      rw [failed, failsFrom ⟨group, member, unresolved⟩]
      exact iff_of_true rfl (.inl missed)
    · have drawn : ¬ ∃ group ∈ render.renderGroups view,
          ¬ render.Reused refs.groupCache group ∧ render.Unresolved heads view group := by
        rintro ⟨group, member, miss, unresolved⟩
        obtain ⟨cached, -, rendered⟩ := each group member
        have none := (draw_eq_none_iff platform).mpr unresolved
        rw [(rendered.drawn miss).1] at none
        cases none
      rw [or_iff_right drawn]
      by_cases resolved : ∀ group ∈ render.renderGroups view, ¬ render.Unresolved heads view group
      · have segments := segments_eq_iff kept each resolved
        have current : (∀ group ∈ render.renderGroups view, ∀ cached,
            get refs.groupCache group.name = some cached →
              render.reuses cached group = true → ¬ render.Unresolved heads view group ∧
                (render.DrawnFrom platform heads view group cached.items ∨
                  render.Hidden group cached.items)) ↔ _ :=
          (forall₂_congr fun group member => forall₃_congr fun _ _ _ =>
            and_iff_right (resolved group member)).trans segments.symm
        rw [drawsFrom resolved, current, shown_flatMap renderGroups_single]
        obtain ⟨all, rfl, long, same⟩ | ⟨some, anew⟩ := result
        · rw [same, Option.map_some, Option.some_inj]
          constructor
          · intro last
            refine ⟨shown_of_last kept viewed resolved last long, fun _ _ => ?_⟩
            rw [show refs.prevList = _ from last, headings_scratch platform resolved]
          · rintro ⟨current, named⟩
            have known : ∀ group ∈ render.renderGroups view,
                (get refs.groupCache group.name).isSome := by
              intro group member
              obtain ⟨cached, found, -⟩ := all group member
              rw [found]
              rfl
            rw [last_of_headings kept resolved known current long (named all long.symm)]
            exact List.flatMap_congr current
        · rw [anew, Option.map_some, Option.some_inj, filtered_eq_iff kept viewed each resolved]
          exact (and_iff_left fun all long => absurd ⟨all, long.symm⟩ some).symm
      · push Not at resolved
        obtain ⟨group, member, unresolved⟩ := resolved
        rw [failsFrom ⟨group, member, unresolved⟩]
        apply iff_of_false
        · obtain ⟨-, -, -, same⟩ | ⟨-, anew⟩ := result
          · simp [same]
          · simp [anew]
        · rintro ⟨current, -⟩
          by_cases hit : render.Reused refs.groupCache group
          · obtain ⟨cached, found, reuses⟩ := hit
            exact (current group member cached found reuses).1 unresolved
          · exact drawn ⟨group, member, hit, unresolved⟩

end

end

/-- In every run the lists are those drawn from scratch as long as its renders fit. -/
theorem fresh_iff_fits (platform : Platform) (heads : Nat → HeadState) (renders : List Render) :
    Meets (step platform heads)
        (fun refs render =>
          (renderList platform heads refs render).map Prod.fst = scratch platform heads render)
        .new renders ↔
      Meets (step platform heads) (Fits platform heads) .new renders := by
  refine Meets.congr_of_invariant (Kept heads) (fun refs render next kept taken => ?_)
    (fun refs render kept => list_eq_scratch_iff kept) (Kept.new heads) renders
  obtain ⟨result, rendered, rfl⟩ := Option.map_eq_some_iff.mp taken
  exact kept.next rendered

/-- A closed group without members. -/
def plainGroup (name : Text) : ProxyGroupView where
  name := name
  type := text "Selector"
  alive := true
  now := none
  fixed := none
  hidden := none
  icon := none
  testUrl := none
  history := []
  members := []
  capabilities := ⟨false, false, false, true, false⟩

def twoGroups (swapped : Bool) : Render where
  mode := text "rule"
  proxyView :=
    let groups := [plainGroup (text "a"), plainGroup (text "b")]
    some ⟨none, if swapped then groups.reverse else groups, []⟩
  distinct := by
    rintro view ⟨rfl⟩
    cases swapped <;> decide
  membersOf _ := 0
  headStates _ := none
  col := 1
  latencyTimeout := some 10000
  groupDelays _ := none
  getDelayFix _ _ := -1

/-- After two groups have changed places, the list still has them in their old places. -/
theorem swapped_stale : ¬ Meets (step asciiPlatform fun _ => DEFAULT_STATE)
    (fun refs render => (renderList asciiPlatform (fun _ => DEFAULT_STATE) refs render).map Prod.fst =
      scratch asciiPlatform (fun _ => DEFAULT_STATE) render)
    .new [twoGroups false, twoGroups true] := by
  decide

end ClashVerge.ProxyList
