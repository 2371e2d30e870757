import ClashVerge.ProxyList.RenderList

/-!
# The rows of a group

The rows of a group say what they were drawn from: the group, the kind of mode, and the members that
its filter left. What is shown of them says as much, unless the group is hidden.
-/

namespace ClashVerge.ProxyList

open UriParser (Text text)

/-! ## What the rows were drawn from -/

def shownMembers (rows : List IRenderItem) : List ResolvedMemberOccurrence :=
  rows.flatMap fun row => row.member.toList ++ row.memberCol.getD []

/-- The rows have the head of a group that is shown alone. -/
def hasHead (rows : List IRenderItem) : Bool := rows.any fun row => row.type = .head

def headings (rows : List IRenderItem) : List (RowType × Text) :=
  rows.filterMap fun row =>
    if row.type = .group ∨ row.type = .head then some (row.type, row.group.name) else none

section

variable {heads : Nat → HeadState} {useRule useRule' : Bool} {group group' : ProxyGroupView}
  {headState : HeadRef} {col : Nat} {occurrences occurrences' : List ResolvedMemberOccurrence}

theorem flatten_groupOccurrences {Occurrence : Type} (list : List Occurrence) (size : Nat) :
    (groupOccurrences list size).flatten = list := by
  have step (acc : List (List Occurrence)) (item : Occurrence) :
      (addOccurrence size acc item).flatten = acc.flatten ++ [item] := by
    unfold addOccurrence
    cases last : acc.getLast? with
    | none => simp
    | some lastGroup =>
      dsimp only
      split
      · simp
      · have parts : acc.dropLast ++ [lastGroup] = acc := List.dropLast_append_getLast? lastGroup last
        calc (acc.dropLast ++ [lastGroup ++ [item]]).flatten
            = (acc.dropLast ++ [lastGroup]).flatten ++ [item] := by simp
          _ = acc.flatten ++ [item] := by rw [parts]
  have whole (acc : List (List Occurrence)) :
      (list.foldl (addOccurrence size) acc).flatten = acc.flatten ++ list := by
    induction list generalizing acc with
    | nil => simp
    | cons item rest ih => rw [List.foldl_cons, ih, step]; simp
  exact whole []

theorem shownMembers_memberRows :
    shownMembers (memberRows group headState col occurrences) = occurrences := by
  unfold shownMembers memberRows
  split
  · rename_i none
    simp [List.eq_nil_of_length_eq_zero none]
  · split
    · simp [List.flatMap_map, flatten_groupOccurrences]
    · simp [List.flatMap_map]

theorem mem_memberRows {row : IRenderItem}
    (inside : row ∈ memberRows group headState col occurrences) :
    row.group = group ∧ row.type ≠ .group ∧ row.type ≠ .head := by
  unfold memberRows at inside
  split at inside
  · obtain rfl := List.mem_singleton.mp inside
    exact ⟨rfl, nofun, nofun⟩
  · split at inside
    · obtain ⟨memberCol, -, rfl⟩ := List.mem_map.mp inside
      exact ⟨rfl, nofun, nofun⟩
    · obtain ⟨member, -, rfl⟩ := List.mem_map.mp inside
      exact ⟨rfl, nofun, nofun⟩

def header (group : ProxyGroupView) (headState : HeadRef) : IRenderItem where
  type := .group
  key := group.name
  group := group
  headState := some headState
  icon := group.icon
  testUrl := group.testUrl

def head (group : ProxyGroupView) (headState : HeadRef) : IRenderItem where
  type := .head
  key := text "head-" ++ group.name
  group := group
  headState := some headState

theorem groupRows_cases (heads : Nat → HeadState) (useRule : Bool) (group : ProxyGroupView)
    (headState : HeadRef) (col : Nat) (occurrences : List ResolvedMemberOccurrence) :
    groupRows heads useRule group headState col occurrences =
      header group headState ::
        if opens heads useRule headState then
          (if !useRule then [head group headState] else []) ++
            memberRows group headState col occurrences
        else [] := rfl

theorem group_of_mem {row : IRenderItem}
    (inside : row ∈ groupRows heads useRule group headState col occurrences) :
    row.group = group := by
  rw [groupRows_cases, List.mem_cons] at inside
  obtain rfl | below := inside
  · rfl
  · split at below
    · obtain above | members := List.mem_append.mp below
      · split at above
        · obtain rfl := List.mem_singleton.mp above
          rfl
        · cases above
      · exact (mem_memberRows members).1
    · cases below

theorem opens_alone (heads : Nat → HeadState) (headState : HeadRef) :
    opens heads false headState = true := by simp [opens]

theorem hasHead_groupRows :
    hasHead (groupRows heads useRule group headState col occurrences) = !useRule := by
  have members : hasHead (memberRows group headState col occurrences) = false := by
    rw [hasHead, List.any_eq_false]
    intro row inside
    rw [decide_eq_true_iff]
    exact (mem_memberRows inside).2.2
  unfold hasHead at members ⊢
  rw [groupRows_cases]
  cases useRule with
  | true => cases opens heads true headState <;> simp [header, members]
  | false => simp [opens_alone, head]

theorem shownMembers_groupRows :
    shownMembers (groupRows heads useRule group headState col occurrences) =
      if opens heads useRule headState then occurrences else [] := by
  have members : shownMembers (memberRows group headState col occurrences) = occurrences :=
    shownMembers_memberRows
  rw [groupRows_cases]
  unfold shownMembers at members ⊢
  cases useRule with
  | true => cases opens heads true headState <;> simp [header, members]
  | false => simp [opens_alone, head, header, members]

theorem groupRows_eq_iff : groupRows heads useRule group headState col occurrences =
        groupRows heads useRule' group' headState col occurrences' ↔
      group = group' ∧ useRule = useRule' ∧
        (opens heads useRule headState = true → occurrences = occurrences') := by
  constructor
  · intro same
    have groups : group = group' := by
      have first := congrArg (fun rows => rows.head?.map (·.group)) same
      exact Option.some.inj first
    have kinds : useRule = useRule' := by
      have kind := congrArg hasHead same
      rw [hasHead_groupRows, hasHead_groupRows] at kind
      exact Bool.not_inj kind
    refine ⟨groups, kinds, fun opened => ?_⟩
    have members := congrArg shownMembers same
    rwa [shownMembers_groupRows, shownMembers_groupRows, ← kinds, if_pos opened, if_pos opened]
      at members
  · rintro ⟨rfl, rfl, members⟩
    rw [groupRows_cases, groupRows_cases]
    split
    · rename_i opened
      rw [members opened]
    · rfl

/-! ## What is shown of them -/

theorem shown_groupRows_rule :
    shown true (groupRows heads useRule group headState col occurrences) =
      if group.hidden.getD false then []
      else groupRows heads useRule group headState col occurrences := by
  unfold shown
  rw [if_pos rfl]
  split
  · rename_i hidden
    rw [List.filter_eq_nil_iff]
    intro row inside
    simp [group_of_mem inside, hidden]
  · rename_i visible
    rw [List.filter_eq_self]
    intro row inside
    simpa [group_of_mem inside] using visible

theorem shown_groupRows_alone :
    shown false (groupRows heads useRule group headState col occurrences) =
      (groupRows heads useRule group headState col occurrences).tail := by
  unfold shown
  rw [if_neg Bool.false_ne_true, List.drop_one]

theorem group_of_mem_shown {row : IRenderItem} (inside : row ∈
    shown useRule' (groupRows heads useRule group headState col occurrences)) :
    row.group = group := by
  unfold shown at inside
  split at inside
  · exact group_of_mem (List.mem_filter.mp inside).1
  · exact group_of_mem (List.mem_of_mem_drop inside)

theorem shown_eq_iff : shown useRule (groupRows heads useRule' group' headState col occurrences') =
        shown useRule (groupRows heads useRule group headState col occurrences) ↔
      groupRows heads useRule' group' headState col occurrences' =
          groupRows heads useRule group headState col occurrences ∨
        useRule = true ∧ group'.hidden.getD false = true ∧ group.hidden.getD false = true := by
  cases useRule with
  | true =>
    rw [shown_groupRows_rule, shown_groupRows_rule]
    by_cases hidden : group.hidden.getD false = true
    · rw [if_pos hidden]
      constructor
      · intro none
        split at none
        · rename_i hidden'
          exact .inr ⟨rfl, hidden', hidden⟩
        · cases none
      · rintro (same | ⟨-, hidden', -⟩)
        · rw [if_pos]
          rwa [(groupRows_eq_iff.mp same).1]
        · rw [if_pos hidden']
    · rw [if_neg hidden]
      constructor
      · intro same
        split at same
        · cases same
        · exact .inl same
      · rintro (same | ⟨-, -, hidden'⟩)
        · rw [if_neg, same]
          rwa [(groupRows_eq_iff.mp same).1]
        · exact absurd hidden' hidden
  | false =>
    rw [shown_groupRows_alone, shown_groupRows_alone, or_iff_left (by simp)]
    constructor
    · intro same
      have own : group' = group := by
        have inside : head group headState ∈
            (groupRows heads false group headState col occurrences).tail := by
          simp [groupRows_cases, opens_alone]
        rw [← same] at inside
        exact (group_of_mem (List.mem_of_mem_tail inside)).symm
      subst own
      rw [groupRows_cases, groupRows_cases] at same ⊢
      rw [List.tail_cons, List.tail_cons] at same
      rw [same]
    · intro same
      rw [same]

theorem headings_memberRows : headings (memberRows group headState col occurrences) = [] := by
  unfold headings
  rw [List.filterMap_eq_nil_iff]
  intro row inside
  rw [if_neg]
  exact not_or.mpr (mem_memberRows inside).2

theorem headings_groupRows : headings (groupRows heads useRule group headState col occurrences) =
      (.group, group.name) :: if useRule then [] else [(.head, group.name)] := by
  have members : headings (memberRows group headState col occurrences) = [] :=
    headings_memberRows
  unfold headings at members ⊢
  rw [groupRows_cases]
  cases useRule with
  | true => cases opens heads true headState <;> simp [header, members]
  | false => simp [opens_alone, head, header, members]

theorem headings_tail : headings (groupRows heads useRule group headState col occurrences).tail =
      if useRule then [] else [(.head, group.name)] := by
  have whole := @headings_groupRows heads useRule group headState col occurrences
  unfold headings at whole ⊢
  rw [groupRows_cases] at whole ⊢
  simpa [header] using whole

end

end ClashVerge.ProxyList
