import Mathlib.Data.List.Basic

/-!
# Text cut at a separator

Two parts joined by a separator are taken apart again at its first occurrence. The cut is the
inverse of the join exactly when the first part is free of the separator. A separating text is
looked for in the same way, and parts can be joined by a mark.
-/

namespace Delimited

universe u
variable {α : Type u}

section
variable [DecidableEq α]

/-- The parts before and after the first occurrence of the separator. -/
def splitOnce (separator : α) : List α → Option (List α × List α)
  | [] => none
  | head :: rest =>
    if head = separator then some ([], rest)
    else (splitOnce separator rest).map fun parts => (head :: parts.1, parts.2)

theorem splitOnce_eq_none_iff (separator : α) (text : List α) :
    splitOnce separator text = none ↔ separator ∉ text := by
  induction text with
  | nil => simp [splitOnce]
  | cons head rest ih =>
    by_cases same : head = separator
    · simp [splitOnce, same]
    · simp [splitOnce, same, ih, Ne.symm same]

/-- What is cut off in front holds no separator, and the two parts joined are the text. -/
theorem splitOnce_eq_some_iff (separator : α) (text before after : List α) :
    splitOnce separator text = some (before, after) ↔
      text = before ++ separator :: after ∧ separator ∉ before := by
  induction text generalizing before with
  | nil => simp [splitOnce]
  | cons head rest ih =>
    by_cases same : head = separator
    · subst same
      cases before with
      | nil => simp [splitOnce]
      | cons first others =>
        simp only [splitOnce, if_true, Option.some.injEq, Prod.mk.injEq, List.cons_append,
          List.cons.injEq, List.mem_cons, not_or]
        constructor
        · rintro ⟨impossible, _⟩
          cases impossible
        · rintro ⟨⟨equal, _⟩, different, _⟩
          exact absurd equal different
    · cases before with
      | nil =>
        simp only [splitOnce, if_neg same, Option.map_eq_some_iff, Prod.mk.injEq, List.nil_append,
          List.cons.injEq]
        constructor
        · rintro ⟨parts, _, impossible, _⟩
          cases impossible
        · rintro ⟨⟨equal, _⟩, _⟩
          exact absurd equal same
      | cons first others =>
        have tail := ih others
        simp only [splitOnce, if_neg same, Option.map_eq_some_iff, Prod.exists, Prod.mk.injEq,
          List.cons_append, List.cons.injEq, List.mem_cons, not_or]
        constructor
        · rintro ⟨front, back, cut, ⟨rfl, rfl⟩, rfl⟩
          obtain ⟨joined, free⟩ := tail.mp cut
          exact ⟨⟨rfl, joined⟩, Ne.symm same, free⟩
        · rintro ⟨⟨rfl, joined⟩, _, free⟩
          exact ⟨others, after, tail.mpr ⟨joined, free⟩, ⟨rfl, rfl⟩, rfl⟩

theorem splitOnce_join_iff (separator : α) (before after : List α) :
    splitOnce separator (before ++ separator :: after) = some (before, after) ↔
      separator ∉ before := by
  simp [splitOnce_eq_some_iff]

theorem splitOnce_append (separator : α) {front : List α} (free : separator ∉ front)
    (text : List α) : splitOnce separator (front ++ text) =
      (splitOnce separator text).map fun parts => (front ++ parts.1, parts.2) := by
  induction front with
  | nil => simp
  | cons head rest ih =>
    obtain ⟨different, others⟩ := not_or.mp (List.mem_cons.not.mp free)
    rw [List.cons_append, splitOnce, if_neg (Ne.symm different), ih others]
    simp [Function.comp_def]

theorem join_injective (separator : α) {before after before' after' : List α}
    (free : separator ∉ before) (free' : separator ∉ before')
    (joined : before ++ separator :: after = before' ++ separator :: after') :
    before = before' ∧ after = after' := by
  have left := (splitOnce_join_iff separator before after).mpr free
  have right := (splitOnce_join_iff separator before' after').mpr free'
  rw [joined, right] at left
  simpa [eq_comm] using left

/-- The parts before and after the first occurrence of a separating text. -/
def splitOnceAt (separator : List α) : List α → Option (List α × List α)
  | [] => if separator = [] then some ([], []) else none
  | head :: rest =>
    if separator <+: head :: rest then some ([], (head :: rest).drop separator.length)
    else (splitOnceAt separator rest).map fun parts => (head :: parts.1, parts.2)

theorem splitOnceAt_of_prefix (separator after : List α) :
    splitOnceAt separator (separator ++ after) = some ([], after) := by
  cases whole : separator ++ after with
  | nil =>
    obtain ⟨rfl, rfl⟩ := List.append_eq_nil_iff.mp whole
    rfl
  | cons head rest =>
    have leading : separator <+: head :: rest := whole ▸ List.prefix_append separator after
    rw [splitOnceAt, if_pos leading, ← whole, List.drop_left]

/-- The cut joins back to the text, and no occurrence of the separator begins earlier. -/
theorem splitOnceAt_eq_some_iff (separator text before after : List α) :
    splitOnceAt separator text = some (before, after) ↔
      text = before ++ (separator ++ after) ∧
        ∀ front back, text = front ++ (separator ++ back) → before.length ≤ front.length := by
  induction text generalizing before with
  | nil =>
    by_cases empty : separator = []
    · simp +contextual [splitOnceAt, empty, eq_comm]
    · simp [splitOnceAt, empty]
  | cons head rest ih =>
    by_cases leading : separator <+: head :: rest
    · obtain ⟨back, joined⟩ := leading
      have cut := splitOnceAt_of_prefix separator back
      rw [joined] at cut
      rw [cut]
      constructor
      · intro same
        cases same
        exact ⟨joined.symm, fun _ _ _ => Nat.zero_le _⟩
      · rintro ⟨whole, first⟩
        have short := first [] back joined.symm
        obtain rfl : before = [] := List.eq_nil_of_length_eq_zero (Nat.le_zero.mp short)
        rw [List.nil_append, ← joined, List.append_cancel_left_eq] at whole
        rw [whole]
    · have begins : ∀ front back, head :: rest = front ++ (separator ++ back) →
          ∃ others, front = head :: others ∧ rest = others ++ (separator ++ back) := by
        intro front back whole
        cases front with
        | nil => exact absurd ⟨back, whole.symm⟩ leading
        | cons first others =>
          obtain ⟨rfl, tail⟩ := List.cons.inj whole
          exact ⟨others, rfl, tail⟩
      simp only [splitOnceAt, if_neg leading, Option.map_eq_some_iff, Prod.exists, Prod.mk.injEq]
      constructor
      · rintro ⟨front, back, cut, rfl, rfl⟩
        obtain ⟨joined, first⟩ := (ih front).mp cut
        refine ⟨by rw [joined]; rfl, fun other back' whole => ?_⟩
        obtain ⟨others, rfl, tail⟩ := begins other back' whole
        exact Nat.succ_le_succ (first others back' tail)
      · rintro ⟨whole, first⟩
        obtain ⟨others, rfl, tail⟩ := begins before after whole
        refine ⟨others, after, (ih others).mpr ⟨tail, ?_⟩, rfl, rfl⟩
        intro front back parted
        exact Nat.le_of_succ_le_succ (first (head :: front) back (by rw [parted]; rfl))

theorem splitOnceAt_eq_none_iff (separator text : List α) :
    splitOnceAt separator text = none ↔ ¬ separator <:+: text := by
  induction text with
  | nil =>
    by_cases empty : separator = []
    · simp [splitOnceAt, empty]
    · simp [splitOnceAt, empty]
  | cons head rest ih =>
    by_cases leading : separator <+: head :: rest
    · simp [splitOnceAt, leading, List.infix_cons_iff]
    · simp [splitOnceAt, leading, List.infix_cons_iff, ih]

theorem mem_of_mem_splitOn (separator : α) (text : List α) (element : α) (member : element ∈ text) :
    element = separator ∨ ∃ part ∈ text.splitOn separator, element ∈ part := by
  induction text with
  | nil => cases member
  | cons head rest ih =>
    rw [List.splitOn_cons_eq_if_modifyHead]
    by_cases same : head = separator
    · rcases List.mem_cons.mp member with rfl | later
      · exact .inl same
      · rcases ih later with equal | ⟨part, listed, inside⟩
        · exact .inl equal
        · exact .inr ⟨part, by simp [same, listed], inside⟩
    · obtain ⟨first, others, parts⟩ :=
        List.exists_cons_of_ne_nil (List.splitOn_ne_nil separator rest)
      simp only [beq_iff_eq, if_neg same, parts, List.modifyHead_cons]
      rcases List.mem_cons.mp member with rfl | later
      · exact .inr ⟨_, List.mem_cons_self, List.mem_cons_self⟩
      · rcases ih later with equal | ⟨part, listed, inside⟩
        · exact .inl equal
        · rcases List.mem_cons.mp (parts ▸ listed) with rfl | other
          · exact .inr ⟨_, List.mem_cons_self, List.mem_cons_of_mem _ inside⟩
          · exact .inr ⟨part, List.mem_cons_of_mem _ other, inside⟩

theorem not_mem_of_mem_splitOn {separator : α} {text part : List α}
    (member : part ∈ text.splitOn separator) : separator ∉ part := by
  induction text generalizing part with
  | nil =>
    obtain rfl := List.mem_singleton.mp member
    exact List.not_mem_nil
  | cons head rest ih =>
    rw [List.splitOn_cons_eq_if_modifyHead] at member
    by_cases same : head = separator
    · rw [if_pos (beq_iff_eq.mpr same)] at member
      rcases List.mem_cons.mp member with rfl | later
      · exact List.not_mem_nil
      · exact ih later
    · obtain ⟨first, others, parts⟩ :=
        List.exists_cons_of_ne_nil (List.splitOn_ne_nil separator rest)
      have still := fun {part} (listed : part ∈ first :: others) =>
        ih (parts ▸ listed)
      simp only [beq_iff_eq, if_neg same, parts, List.modifyHead_cons] at member
      rcases List.mem_cons.mp member with rfl | later
      · exact List.mem_cons.not.mpr (not_or.mpr ⟨Ne.symm same, still List.mem_cons_self⟩)
      · exact still (List.mem_cons_of_mem _ later)

theorem splitOnceAt_append_cons (separator : List α) (mark : α) (outside : mark ∉ separator)
    (nonempty : separator ≠ []) (front rest : List α) :
    splitOnceAt separator (front ++ mark :: rest) =
      match splitOnceAt separator front with
      | some (before, after) => some (before, after ++ mark :: rest)
      | none => (splitOnceAt separator rest).map fun parts => (front ++ mark :: parts.1, parts.2) := by
  have begins : ∀ text : List α,
      separator <+: text ++ mark :: rest ↔ separator <+: text := by
    intro text
    constructor
    · rintro ⟨tail, joined⟩
      rcases List.append_eq_append_iff.mp joined with ⟨others, whole, _⟩ | ⟨others, whole, tail'⟩
      · exact ⟨others, whole.symm⟩
      · cases others with
        | nil => exact ⟨[], by simpa using whole⟩
        | cons first others =>
          obtain ⟨rfl, _⟩ := List.cons.inj tail'
          exact absurd (whole ▸ List.mem_append_right text List.mem_cons_self) outside
    · exact fun leading => leading.trans (List.prefix_append _ _)
  induction front with
  | nil =>
    have missing : ¬ separator <+: mark :: rest := fun leading =>
      nonempty (List.prefix_nil.mp ((begins []).mp leading))
    simp only [List.nil_append, splitOnceAt, if_neg missing, if_neg nonempty]
  | cons head others ih =>
    have here := begins (head :: others)
    rw [List.cons_append] at here
    by_cases leading : separator <+: head :: others
    · obtain ⟨tail, joined⟩ := leading
      rw [← joined, List.append_assoc, splitOnceAt_of_prefix, splitOnceAt_of_prefix]
    · simp only [List.cons_append, splitOnceAt, if_neg (mt here.mp leading), if_neg leading,
        ih]
      cases splitOnceAt separator others with
      | some parts => rfl
      | none => cases splitOnceAt separator rest <;> rfl

end

def join (mark : α) (parts : List (List α)) : List α := [mark].intercalate parts

@[simp] theorem join_nil (mark : α) : join mark [] = [] := rfl

@[simp] theorem join_singleton (mark : α) (part : List α) : join mark [part] = part :=
  List.intercalate_singleton

theorem join_cons (mark : α) (part : List α) {others : List (List α)} (more : others ≠ []) :
    join mark (part :: others) = part ++ mark :: join mark others := by
  rw [join, List.intercalate_cons_of_ne_nil more, List.append_assoc]
  rfl

theorem mem_of_mem_join (mark : α) (parts : List (List α)) {element : α}
    (member : element ∈ join mark parts) :
    element = mark ∨ ∃ part ∈ parts, element ∈ part := by
  induction parts with
  | nil => cases member
  | cons part others ih =>
    by_cases last : others = []
    · subst last
      exact .inr ⟨part, List.mem_cons_self, by simpa using member⟩
    · rw [join_cons mark part last, List.mem_append, List.mem_cons] at member
      rcases member with inside | same | later
      · exact .inr ⟨part, List.mem_cons_self, inside⟩
      · exact .inl same
      · rcases ih later with same | ⟨other, listed, inside⟩
        · exact .inl same
        · exact .inr ⟨other, List.mem_cons_of_mem _ listed, inside⟩

/-- A function that works on the parts at both sides of a mark by themselves. -/
def WorksApart (mark : α) (function : List α → List α) : Prop :=
  ∀ before after, function (before ++ mark :: after) = function before ++ mark :: function after

namespace WorksApart
variable {mark : α} {function other : List α → List α}

theorem comp (outer : WorksApart mark other) (inner : WorksApart mark function) :
    WorksApart mark (other ∘ function) := fun before after => by
  rw [Function.comp_apply, inner before after, outer]
  rfl

theorem join (apart : WorksApart mark function) (part : List α) (others : List (List α)) :
    function (Delimited.join mark (part :: others)) =
      Delimited.join mark ((part :: others).map function) := by
  induction others generalizing part with
  | nil => simp
  | cons next others ih =>
    rw [join_cons mark part (List.cons_ne_nil next others), apart, ih next]
    exact (join_cons mark (function part) (List.cons_ne_nil _ _)).symm

theorem count_le [DecidableEq α] (apart : WorksApart mark function) (text : List α) :
    text.count mark ≤ (function text).count mark := by
  induction size : text.length using Nat.strongRecOn generalizing text with
  | ind length ih =>
    by_cases member : mark ∈ text
    · obtain ⟨before, after, rfl, free⟩ := List.eq_append_cons_of_mem member
      have later := ih after.length (by simp [← size]; omega) after rfl
      rw [apart, List.count_append, List.count_append, List.count_cons_self, List.count_cons_self,
        List.count_eq_zero.mpr free]
      omega
    · rw [List.count_eq_zero.mpr member]
      exact Nat.zero_le _

end WorksApart

theorem count_join [DecidableEq α] (mark : α) (part : List α) (others : List (List α)) {chosen : List α}
    (member : chosen ∈ part :: others) :
    chosen.count mark + others.length ≤ (join mark (part :: others)).count mark := by
  induction others generalizing part chosen with
  | nil =>
    obtain rfl := List.mem_singleton.mp member
    simp
  | cons next others ih =>
    rw [join_cons mark part (List.cons_ne_nil next others), List.count_append,
      List.count_cons_self, List.length_cons]
    rcases List.mem_cons.mp member with rfl | later
    · have rest := ih next List.mem_cons_self
      omega
    · have rest := ih next later
      omega

theorem length_lt_join (mark : α) (part : List α) {others : List (List α)} (more : others ≠ [])
    {chosen : List α} (member : chosen ∈ part :: others) :
    chosen.length < (join mark (part :: others)).length := by
  induction others generalizing part with
  | nil => exact absurd rfl more
  | cons next others ih =>
    rw [join_cons mark part more, List.length_append, List.length_cons]
    rcases List.mem_cons.mp member with rfl | later
    · omega
    · by_cases last : others = []
      · subst last
        obtain rfl := List.mem_singleton.mp later
        rw [join_singleton]
        omega
      · have rest := ih next last later
        omega

end Delimited
