import ClashVerge.Library.BlockMeaning

/-!
# Quoting wildcards for the core

The YAML the core is started with is the emitter's, with the wildcards in the lists under
`fake-ip-filter` in single quotes. These are found row by row: a row that is the key opens a list,
which ends at the first row that is no item and not indented deeper than the key.

The last section says which rows are rewritten without running the scan.
-/

namespace ClashVerge.Utils

open BlockYaml

/-- A row of a text behind which a line break follows. -/
def stripCarriageReturn (line : Line) : Line :=
  if line.getLast? = some '\r' then line.dropLast else line

/-- The rows of a text that goes on after part of a row. -/
def linesFrom (line : Line) : List Char → List Line
  | [] => if line = [] then [] else [line]
  | char :: rest =>
    if char = '\n' then stripCarriageReturn line :: linesFrom [] rest
    else linesFrom (line ++ [char]) rest

def lines (text : List Char) : List Line := linesFrom [] text

/-- `leading_spaces`. A space is one byte. -/
def leadingSpaces (line : Line) : Nat := line.length - (line.dropWhile (· = ' ')).length

def containsWildcard (value : Line) : Bool :=
  value.contains '*' || value.head? == some '+' || value.head? == some '.'

def quoteString (text : Line) : Line :=
  '\'' :: text.flatMap (fun char => if char = '\'' then ['\'', '\''] else [char]) ++ ['\'']

/-- The condition of `quote_wildcard_item`. -/
def needsQuotes (item : Line) : Bool :=
  item.head? != some '"' && item.head? != some '\'' && containsWildcard item

def quoteWildcardItem (item : Line) : Line := if needsQuotes item then quoteString item else item

/-- `in_fake_ip_filter` and `fake_ip_filter_indent`. -/
structure Scan where
  inFakeIpFilter : Bool
  fakeIpFilterIndent : Nat
deriving DecidableEq

def startsItem (trimmed : Line) : Bool := ['-', ' '].isPrefixOf trimmed

def fakeIpFilter : Line := "fake-ip-filter:".toList

namespace Scan

variable (state : Scan)

/-- The list has not ended at the row. -/
def stays (line : Line) : Bool :=
  let indent := leadingSpaces line
  let trimmed := line.drop indent
  state.inFakeIpFilter &&
    !(decide (indent ≤ state.fakeIpFilterIndent) && !startsItem trimmed)

/-- The body of the loop: the state behind the row, and the row that is written for it. -/
def step (line : Line) : Scan × Line :=
  let indent := leadingSpaces line
  let trimmed := line.drop indent
  let inFakeIpFilter := state.stays line
  if !inFakeIpFilter && trimmed == fakeIpFilter then (⟨true, indent⟩, line)
  else if inFakeIpFilter && decide (state.fakeIpFilterIndent ≤ indent) && startsItem trimmed then
    (⟨inFakeIpFilter, state.fakeIpFilterIndent⟩,
      line.take indent ++ '-' :: ' ' :: quoteWildcardItem (trimmed.drop 2))
  else (⟨inFakeIpFilter, state.fakeIpFilterIndent⟩, line)

def run : Scan → List Line → List Line
  | _, [] => []
  | state, line :: rest => (state.step line).2 :: run (state.step line).1 rest

end Scan

def quoteFakeIpFilterWildcards (yaml : List Char) : List Char :=
  (Scan.run ⟨false, 0⟩ (lines yaml)).flatMap (· ++ ['\n'])

def toMihomoConfigString {Value : Type} (toString : Value → Except String (List Char))
    (data : Value) : Except String (List Char) :=
  (toString data).map quoteFakeIpFilterWildcards

/-! ## Rows -/

theorem linesFrom_append {line : Line} (rest : List Char) (broken : '\n' ∉ line) (start : Line) :
    linesFrom start (line ++ rest) = linesFrom (start ++ line) rest := by
  induction line generalizing start with
  | nil => simp
  | cons char line ih =>
    rw [List.mem_cons, not_or] at broken
    rw [List.cons_append, linesFrom, if_neg (Ne.symm broken.1), ih broken.2]
    simp

/-- Rows have no line break inside and no carriage return at the end. -/
def Lined (rows : List Line) : Prop := ∀ line ∈ rows, '\n' ∉ line ∧ line.getLast? ≠ some '\r'

theorem lines_flatMap {rows : List Line} (lined : Lined rows) :
    lines (rows.flatMap (· ++ ['\n'])) = rows := by
  induction rows with
  | nil => rfl
  | cons line rest ih =>
    obtain ⟨⟨broken, returned⟩, others⟩ := List.forall_mem_cons.mp lined
    unfold lines at ih ⊢
    rw [List.flatMap_cons, List.append_assoc, linesFrom_append _ broken, List.nil_append,
      List.singleton_append, linesFrom, if_pos rfl, stripCarriageReturn, if_neg returned,
      ih others]

/-! ## Quoting as an operation on rows -/

theorem quoteString_eq (text : Line) : quoteString text = quoted text := rfl

theorem leadingSpaces_eq (line : Line) : leadingSpaces line = (line.takeWhile (· = ' ')).length := by
  have parts := congrArg List.length (List.takeWhile_append_dropWhile (p := (· = ' ')) (l := line))
  rw [List.length_append] at parts
  rw [leadingSpaces]
  omega

theorem drop_leadingSpaces (line : Line) :
    line.drop (leadingSpaces line) = line.dropWhile (· = ' ') := by
  have parts := (List.takeWhile_append_dropWhile (p := (· = ' ')) (l := line)).symm
  calc line.drop (leadingSpaces line)
      = (line.takeWhile (· = ' ') ++ line.dropWhile (· = ' ')).drop (leadingSpaces line) :=
        congrArg (List.drop (leadingSpaces line)) parts
    _ = line.dropWhile (· = ' ') := List.drop_left' (leadingSpaces_eq line).symm

theorem take_leadingSpaces (line : Line) :
    line.take (leadingSpaces line) = line.takeWhile (· = ' ') := by
  have parts := (List.takeWhile_append_dropWhile (p := (· = ' ')) (l := line)).symm
  calc line.take (leadingSpaces line)
      = (line.takeWhile (· = ' ') ++ line.dropWhile (· = ' ')).take (leadingSpaces line) :=
        congrArg (List.take (leadingSpaces line)) parts
    _ = line.takeWhile (· = ' ') := List.take_left' (leadingSpaces_eq line).symm

theorem itemOf_eq (line : Line) : itemOf line = if startsItem (line.dropWhile (· = ' ')) then
      some ((line.dropWhile (· = ' ')).drop 2) else none := by
  unfold itemOf
  generalize line.dropWhile (· = ' ') = trimmed
  split
  · rfl
  · next other =>
    have starts : startsItem trimmed ≠ true := by
      intro starts
      obtain ⟨item, rfl⟩ := List.isPrefixOf_iff_prefix.mp starts
      exact other item rfl
    rw [if_neg starts]

theorem startsItem_iff (line : Line) :
    startsItem (line.dropWhile (· = ' ')) = true ↔ itemOf line ≠ none := by
  rw [itemOf_eq]
  split <;> simp_all

def isWild (line : Line) : Bool := (itemOf line).any needsQuotes

namespace Scan

variable (state : Scan)

/-- The row is written with quotes. -/
def rewrites (line : Line) : Bool :=
  state.stays line && decide (state.fakeIpFilterIndent ≤ leadingSpaces line) && isWild line

/-- The rows that are written with quotes. -/
def marks : Scan → List Line → Marks
  | _, [], _ => false
  | state, line :: _, 0 => state.rewrites line
  | state, line :: rest, row + 1 => marks (state.step line).1 rest row

theorem step_row (line : Line) :
    (state.step line).2 = if state.rewrites line then quoteItem line else line := by
  unfold step rewrites isWild quoteItem
  simp only [drop_leadingSpaces, take_leadingSpaces, itemOf_eq]
  cases state.stays line with
  | false =>
    simp only [Bool.false_and, Bool.false_eq_true, if_false, Bool.not_false, Bool.true_and]
    split <;> rfl
  | true =>
    by_cases deep : state.fakeIpFilterIndent ≤ leadingSpaces line
    · by_cases starts : startsItem (line.dropWhile (· = ' ')) = true
      · simp only [Bool.not_true, Bool.false_and, Bool.false_eq_true, if_false, deep, decide_true,
          Bool.true_and, starts, if_true, Option.any_some, quoteWildcardItem, quoteString_eq]
        split
        · rfl
        · exact (eq_of_itemOf ((itemOf_eq line).trans (if_pos starts))).symm
      · simp [deep, starts]
    · simp [deep]

theorem step_state (line : Line) : (state.step line).1 = if state.stays line then state
      else if line.dropWhile (· = ' ') = fakeIpFilter then ⟨true, leadingSpaces line⟩
      else ⟨false, state.fakeIpFilterIndent⟩ := by
  unfold step
  simp only [drop_leadingSpaces]
  cases stays : state.stays line with
  | false =>
    simp only [Bool.not_false, Bool.true_and, beq_iff_eq, Bool.false_and, Bool.false_eq_true, if_false]
    split <;> rfl
  | true =>
    have inside : state.inFakeIpFilter = true := by
      rw [Scan.stays, Bool.and_eq_true] at stays
      exact stays.1
    have same : (⟨true, state.fakeIpFilterIndent⟩ : Scan) = state := by rw [← inside]
    simp only [Bool.not_true, Bool.false_and, Bool.false_eq_true, if_false, if_true, same]
    split <;> rfl

theorem run_eq (rows : List Line) : state.run rows = quoteMarked (state.marks rows) rows := by
  induction rows generalizing state with
  | nil => rfl
  | cons line rest ih =>
    rw [run, quoteMarked_cons, step_row, ih]
    rfl

end Scan

/-! ## The rows in reach of a key -/

def IsKey (line : Line) : Prop := line.dropWhile (· = ' ') = fakeIpFilter

/-- A row that does not end a list whose key has some indentation. -/
def Continues (indent : Nat) (line : Line) : Prop := itemOf line ≠ none ∨ indent < leadingSpaces line

/-- A row is in reach of a key above it that is not indented deeper, if no row between them ends the
    list. -/
def Reached (rows : List Line) (index : Nat) : Prop :=
  ∃ key < index, IsKey (rows.getD key []) ∧
    leadingSpaces (rows.getD key []) ≤ leadingSpaces (rows.getD index []) ∧
    ∀ between, key < between → between < index →
      Continues (leadingSpaces (rows.getD key [])) (rows.getD between [])

theorem IsKey.no_item {line : Line} (key : IsKey line) : itemOf line = none := by
  rw [itemOf_eq, key]
  rfl

theorem Scan.stays_iff (state : Scan) (line : Line) : state.stays line = true ↔
      state.inFakeIpFilter = true ∧ Continues state.fakeIpFilterIndent line := by
  unfold Scan.stays Continues
  simp only [drop_leadingSpaces, ← startsItem_iff, Bool.and_eq_true, Bool.not_eq_true',
    Bool.and_eq_false_iff, decide_eq_false_iff_not, not_le, Bool.not_eq_false']
  exact and_congr_right fun _ => or_comm

/-- The list that is open before the rows reaches a row. -/
def Scan.Reaches (state : Scan) (rows : List Line) (index : Nat) : Prop :=
  state.inFakeIpFilter = true ∧ state.fakeIpFilterIndent ≤ leadingSpaces (rows.getD index []) ∧
    ∀ between < index, Continues state.fakeIpFilterIndent (rows.getD between [])

theorem Scan.reaches_cons (state : Scan) (line : Line) (rest : List Line) (index : Nat) :
    state.Reaches (line :: rest) (index + 1) ↔
      state.stays line = true ∧ state.Reaches rest index := by
  rw [Scan.stays_iff]
  constructor
  · rintro ⟨inside, deep, continues⟩
    exact ⟨⟨inside, continues 0 (Nat.succ_pos _)⟩, inside, deep, fun between before =>
      continues (between + 1) (Nat.succ_lt_succ before)⟩
  · rintro ⟨⟨inside, first⟩, -, deep, continues⟩
    refine ⟨inside, deep, fun between before => ?_⟩
    cases between with
    | zero => exact first
    | succ between => exact continues between (Nat.lt_of_succ_lt_succ before)

theorem reached_cons (line : Line) (rest : List Line) (index : Nat) :
    Reached (line :: rest) (index + 1) ↔
      IsKey line ∧ (⟨true, leadingSpaces line⟩ : Scan).Reaches rest index ∨ Reached rest index := by
  constructor
  · rintro ⟨key, before, isKey, deep, continues⟩
    cases key with
    | zero =>
      exact .inl ⟨isKey, rfl, deep, fun between inside =>
        continues (between + 1) (Nat.succ_pos _) (Nat.succ_lt_succ inside)⟩
    | succ key =>
      exact .inr ⟨key, Nat.lt_of_succ_lt_succ before, isKey, deep, fun between behind inside =>
        continues (between + 1) (Nat.succ_lt_succ behind) (Nat.succ_lt_succ inside)⟩
  · rintro (⟨isKey, -, deep, continues⟩ | ⟨key, before, isKey, deep, continues⟩)
    · refine ⟨0, Nat.succ_pos _, isKey, deep, fun between behind inside => ?_⟩
      cases between with
      | zero => exact absurd behind (Nat.lt_irrefl 0)
      | succ between => exact continues between (Nat.lt_of_succ_lt_succ inside)
    · refine ⟨key + 1, Nat.succ_lt_succ before, isKey, deep, fun between behind inside => ?_⟩
      cases between with
      | zero => exact absurd behind (Nat.not_lt_zero _)
      | succ between =>
        exact continues between (Nat.lt_of_succ_lt_succ behind) (Nat.lt_of_succ_lt_succ inside)

theorem Scan.Reaches.of_deeper {state : Scan} {indent : Nat} {rows : List Line} {index : Nat}
    (reaches : (⟨true, indent⟩ : Scan).Reaches rows index) (inside : state.inFakeIpFilter = true)
    (deeper : state.fakeIpFilterIndent < indent) : state.Reaches rows index := by
  obtain ⟨-, deep, continues⟩ := reaches
  exact ⟨inside, deeper.le.trans deep, fun between before =>
    (continues between before).imp_right deeper.trans⟩

/-- The marked rows are the items that get quotes and are in reach of a key, or of the list that is
    open before them. -/
theorem Scan.marks_iff (state : Scan) (rows : List Line) (index : Nat) :
    state.marks rows index = true ↔ isWild (rows.getD index []) = true ∧
      (state.Reaches rows index ∨ Reached rows index) := by
  induction rows generalizing state index with
  | nil =>
    have wild : isWild [] = false := rfl
    simp [Scan.marks, wild]
  | cons line rest ih =>
    cases index with
    | zero =>
      have unreached : ¬ Reached (line :: rest) 0 := fun ⟨_, before, _⟩ => Nat.not_lt_zero _ before
      have item (wild : isWild line = true) : itemOf line ≠ none := by
        intro none_
        rw [isWild, none_] at wild
        cases wild
      simp only [Scan.marks, Scan.rewrites, Bool.and_eq_true, decide_eq_true_eq, Scan.stays_iff,
        unreached, or_false, Scan.Reaches, List.getD_cons_zero]
      constructor
      · rintro ⟨⟨⟨inside, -⟩, deep⟩, wild⟩
        exact ⟨wild, inside, deep, fun _ before => absurd before (Nat.not_lt_zero _)⟩
      · rintro ⟨wild, inside, deep, -⟩
        exact ⟨⟨⟨inside, .inl (item wild)⟩, deep⟩, wild⟩
    | succ index =>
      rw [Scan.marks, ih, Scan.reaches_cons, reached_cons, List.getD_cons_succ,
        Scan.step_state]
      refine and_congr_right fun _ => ?_
      cases stays : state.stays line with
      | true =>
        obtain ⟨inside, continues⟩ := (state.stays_iff line).mp stays
        rw [if_pos rfl]
        constructor
        · rintro (reaches | reached)
          · exact .inl ⟨rfl, reaches⟩
          · exact .inr (.inr reached)
        · rintro (⟨-, reaches⟩ | ⟨isKey, reaches⟩ | reached)
          · exact .inl reaches
          · -- A key inside a list opens no list of its own; what it would reach is reached anyway.
            exact .inl (reaches.of_deeper inside (continues.resolve_left (not_not_intro isKey.no_item)))
          · exact .inr reached
      | false =>
        rw [if_neg (by simp)]
        by_cases isKey : line.dropWhile (· = ' ') = fakeIpFilter
        · rw [if_pos isKey]
          simp [IsKey, isKey]
        · rw [if_neg isKey]
          simp [IsKey, isKey, Scan.Reaches]

theorem Scan.marks_start_iff (rows : List Line) (index : Nat) :
    (⟨false, 0⟩ : Scan).marks rows index = true ↔
      isWild (rows.getD index []) = true ∧ Reached rows index := by
  rw [Scan.marks_iff]
  simp [Scan.Reaches]

end ClashVerge.Utils
