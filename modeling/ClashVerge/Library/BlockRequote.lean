import ClashVerge.Library.BlockYaml

/-!
# Quoting rows of a document

Putting the item of a row in single quotes, whatever the row is, turns a document in block style
into another one. A row that is a plain item becomes a quoted item; any other row that starts with a
dash is misread.
-/

namespace BlockYaml

/-- Which rows are quoted, from some row on. -/
abbrev Marks : Type := Nat → Bool

def Marks.after (marks : Marks) (count : Nat) : Marks := fun row => marks (row + count)

def quoteMarked (marks : Marks) (lines : List Line) : List Line :=
  lines.mapIdx fun row line => if marks row then quoteItem line else line

def EachMarked (marks : Marks) (rows : List Row) (holds : Row → Prop) : Prop :=
  ∀ index row, rows[index]? = some row → marks index = true → holds row

def texts (rows : List Row) : List Line := rows.map Row.text

@[simp] theorem texts_nil : texts [] = [] := rfl

@[simp] theorem texts_cons (row : Row) (rest : List Row) :
    texts (row :: rest) = row.text :: texts rest := rfl

@[simp] theorem texts_append (first second : List Row) :
    texts (first ++ second) = texts first ++ texts second := List.map_append

@[simp] theorem length_texts (rows : List Row) : (texts rows).length = rows.length :=
  List.length_map ..

@[simp] theorem texts_map_of (lines : List Line) : texts (lines.map .of) = lines := by
  rw [texts, List.map_map]
  exact List.map_id lines

@[simp] theorem Row.text_of (text : Line) : (Row.of text).text = text := rfl

/-! ## The document that quoting gives -/

def asString (marks : Marks) (rows : List Row) : Node :=
  .single (Node.firstText rows) (quoteMarked (marks.after 1) (texts rows.tail))

/-- The marks of a node whose rows stand below the first, or start on it. -/
def Marks.below (marks : Marks) (node : Node) : Marks :=
  if node.isBlock then marks.after 1 else marks

mutual

/-- The node whose rows are those of another with the marked ones quoted. -/
def Node.requote (marks : Marks) : Node → Node
  | .plain text => .plain text
  | .single text below => .single text below
  | .double raw => .double raw
  | .literal header content => .literal header (quoteMarked (marks.after 1) content)
  | .seq items => .seq (items.requote marks)
  | .map entries => .map (entries.requote marks)
  | .tagged tag node => .tagged tag (node.requote (marks.below node))

def Items.requote (marks : Marks) : Items → Items
  | .nil => .nil
  | .cons item rest => .cons (if marks 0 then asString marks item.rows else item.requote marks)
      (rest.requote (marks.after (itemRows item item.rows).length))

def Entries.requote (marks : Marks) : Entries → Entries
  | .nil => .nil
  | .cons true key value rest => .cons true (key.requote marks)
      (value.requote (marks.after (hang ['?', ' '] key.rows).length))
      (rest.requote (marks.after
        (hang ['?', ' '] key.rows ++ hang [':', ' '] value.rows).length))
  | .cons false key value rest => .cons false key
      (value.requote (marks.below value))
      (rest.requote (marks.after (rowsBehind (Node.firstText key.rows ++ [':']) value.underKey value value.rows).length))

end

/-! ## Marks and rows -/

section

variable (marks : Marks)
include marks

@[simp] theorem Marks.after_zero : marks.after 0 = marks := rfl

@[simp] theorem Marks.after_after (first second : Nat) :
    (marks.after first).after second = marks.after (first + second) := by
  funext row
  simp only [Marks.after, Nat.add_assoc, Nat.add_comm second]

theorem quoteMarked_cons (line : Line) (rest : List Line) : quoteMarked marks (line :: rest) =
      (if marks 0 then quoteItem line else line) :: quoteMarked (marks.after 1) rest := by
  rw [quoteMarked, List.mapIdx_cons]
  rfl

theorem quoteMarked_append (first second : List Line) : quoteMarked marks (first ++ second) =
      quoteMarked marks first ++ quoteMarked (marks.after first.length) second := by
  rw [quoteMarked, List.mapIdx_append]
  rfl

theorem quoteMarked_map (lines : List Line) {change : Line → Line}
    (commutes : ∀ line, quoteItem (change line) = change (quoteItem line)) :
    quoteMarked marks (lines.map change) = (quoteMarked marks lines).map change := by
  induction lines generalizing marks with
  | nil => rfl
  | cons line rest ih =>
    rw [List.map_cons, quoteMarked_cons, quoteMarked_cons, List.map_cons, ih]
    congr 1
    split
    · exact commutes line
    · rfl

@[simp] theorem length_quoteMarked (lines : List Line) :
    (quoteMarked marks lines).length = lines.length := by
  simp [quoteMarked]

theorem eachMarked_nil (holds : Row → Prop) : EachMarked marks [] holds := by
  simp [EachMarked]

theorem eachMarked_cons (row : Row) (rest : List Row) (holds : Row → Prop) :
    EachMarked marks (row :: rest) holds ↔
      (marks 0 = true → holds row) ∧ EachMarked (marks.after 1) rest holds := by
  constructor
  · exact fun each => ⟨each 0 row rfl, fun index other here => each (index + 1) other (by simpa using here)⟩
  · rintro ⟨first, others⟩ index other here marked
    cases index with
    | zero =>
      rw [List.getElem?_cons_zero, Option.some_inj] at here
      exact here ▸ first marked
    | succ index => exact others index other (by simpa using here) marked

theorem eachMarked_append (first second : List Row) (holds : Row → Prop) :
    EachMarked marks (first ++ second) holds ↔
      EachMarked marks first holds ∧ EachMarked (marks.after first.length) second holds := by
  induction first generalizing marks with
  | nil => simp [eachMarked_nil]
  | cons row rest ih =>
    simp [eachMarked_cons, ih, and_assoc, Nat.add_comm 1]

theorem eachMarked_map (rows : List Row) (change : Row → Row) (holds : Row → Prop) :
    EachMarked marks (rows.map change) holds ↔ EachMarked marks rows fun row => holds (change row) := by
  induction rows generalizing marks with
  | nil => simp [eachMarked_nil]
  | cons row rest ih =>
    rw [List.map_cons, eachMarked_cons, eachMarked_cons, ih]

end

/-! ## Items -/

theorem itemOf_indentLine (line : Line) : itemOf (indentLine line) = itemOf line := by
  unfold indentLine
  split
  · next empty => rw [empty]
  · simp [itemOf]

theorem quoteItem_indentLine (line : Line) : quoteItem (indentLine line) = indentLine (quoteItem line) := by
  unfold quoteItem
  rw [itemOf_indentLine]
  cases item : itemOf line with
  | none => rfl
  | some text =>
    have filled : line ≠ [] := by
      rintro rfl
      cases item
    simp [indentLine, filled]

theorem itemOf_dash (text : Line) : itemOf ('-' :: ' ' :: text) = some text := by
  simp [itemOf]

theorem quoteItem_dash (text : Line) : quoteItem ('-' :: ' ' :: text) = '-' :: ' ' :: quoted text := by
  simp [quoteItem, itemOf_dash]

theorem itemOf_of_head {char : Char} (rest : Line) (space : char ≠ ' ') (dash : char ≠ '-') :
    itemOf (char :: rest) = none := by
  simp only [itemOf, List.dropWhile_cons, space, decide_false]
  split
  · next item same =>
    cases same
    exact absurd rfl dash
  · rfl

/-- A row that starts with a dash and a space. -/
def IsItem (row : Row) : Prop := itemOf row.text ≠ none

def Shifts (holds : Row → Prop) : Prop := ∀ row, holds (row.onText indentLine) ↔ holds row

theorem shifts_isItem : Shifts IsItem := by
  intro row
  rw [IsItem, IsItem, Row.onText, itemOf_indentLine]

theorem unmarked_of_first {marks : Marks} {row : Row} {rest : List Row}
    (each : EachMarked marks (row :: rest) IsItem) (other : itemOf row.text = none) :
    marks 0 = false := by
  by_contra marked
  exact ((eachMarked_cons ..).mp each).1 (by simpa using marked) other

/-! ## Rows behind something else -/

section

variable {marks : Marks} {holds : Row → Prop} {rows changed : List Row}

variable {change : Line → Line}

theorem eachMarked_onText (shifts : Shifts holds) (known : change = id ∨ change = indentLine) :
    EachMarked marks (rows.map (Row.onText change)) holds ↔ EachMarked marks rows holds := by
  rw [eachMarked_map]
  obtain rfl | rfl := known
  · rfl
  · simp only [shifts _]

theorem texts_onText (change : Line → Line) :
    texts (rows.map (Row.onText change)) = (texts rows).map change := by
  simp [texts, Row.onText]

theorem quoteMarked_onText (known : change = id ∨ change = indentLine)
    (same : texts changed = quoteMarked marks (texts rows)) :
    texts (changed.map (Row.onText change)) =
      quoteMarked marks (texts (rows.map (Row.onText change))) := by
  rw [texts_onText, texts_onText, same, quoteMarked_map]
  obtain rfl | rfl := known
  · exact fun _ => rfl
  · exact quoteItem_indentLine

theorem eachMarked_hang (shifts : Shifts holds) (indicator : Line) (unmarked : marks 0 = false) :
    EachMarked marks (hang indicator rows) holds ↔ EachMarked marks rows holds := by
  cases rows with
  | nil => rfl
  | cons first rest =>
    rw [hang, eachMarked_cons, eachMarked_cons, eachMarked_onText shifts (.inr rfl)]
    simp [unmarked]

theorem eachMarked_joined (shifts : Shifts holds) (text : Line)
    (known : change = id ∨ change = indentLine) (unmarked : marks 0 = false) :
    EachMarked marks (joined text change rows) holds ↔ EachMarked marks rows holds := by
  cases rows with
  | nil => simp [joined, eachMarked_cons, eachMarked_nil, unmarked]
  | cons first rest =>
    rw [joined, eachMarked_cons, eachMarked_cons, eachMarked_onText shifts known]
    simp [unmarked]

theorem quoteMarked_split {first : Row} {rest : List Row} (unmarked : marks 0 = false)
    (same : texts changed = quoteMarked marks (texts (first :: rest))) :
    ∃ other others, changed = other :: others ∧ other.text = first.text ∧
      texts others = quoteMarked (marks.after 1) (texts rest) := by
  cases changed with
  | nil => simp [quoteMarked_cons] at same
  | cons other others =>
    simp only [texts_cons, quoteMarked_cons, unmarked, Bool.false_eq_true, if_false,
      List.cons.injEq] at same
    exact ⟨other, others, rfl, same.1, same.2⟩

theorem quoteMarked_hang (indicator : Line) (unmarked : marks 0 = false)
    (same : texts changed = quoteMarked marks (texts rows)) :
    texts (hang indicator changed) = quoteMarked marks (texts (hang indicator rows)) := by
  cases rows with
  | nil =>
    have empty : changed = [] := by simpa [quoteMarked, texts] using same
    rw [empty]
    rfl
  | cons first rest =>
    obtain ⟨other, others, rfl, text, below⟩ := quoteMarked_split unmarked same
    have deeper := quoteMarked_onText (.inr rfl) below
    simp only [hang, texts_cons, quoteMarked_cons, unmarked, Bool.false_eq_true, if_false, deeper,
      Row.text_of, text]

theorem quoteMarked_joined (text : Line)
    (known : change = id ∨ change = indentLine) (unmarked : marks 0 = false)
    (same : texts changed = quoteMarked marks (texts rows)) :
    texts (joined text change changed) = quoteMarked marks (texts (joined text change rows)) := by
  cases rows with
  | nil =>
    have empty : changed = [] := by simpa [quoteMarked, texts] using same
    rw [empty, joined, texts_cons, quoteMarked_cons, unmarked]
    rfl
  | cons first rest =>
    obtain ⟨other, others, rfl, text, below⟩ := quoteMarked_split unmarked same
    have deeper := quoteMarked_onText known below
    simp only [joined, texts_cons, quoteMarked_cons, unmarked, Bool.false_eq_true, if_false, deeper,
      Row.text_of, text]

end

theorem Node.underKey_cases : ∀ node : Node, node.underKey = id ∨ node.underKey = indentLine
  | .seq _ => .inl rfl
  | .tagged _ node => Node.underKey_cases node
  | .plain _ | .single _ _ | .double _ | .literal _ _ | .map _ => .inr rfl

theorem itemRows_of_other {node : Node} (rows : List Row) (other : ∀ text, node ≠ .plain text) :
    itemRows node rows = hang ['-', ' '] rows := by
  cases node with
  | plain text => exact absurd rfl (other text)
  | _ => rfl

theorem texts_itemRows (node : Node) : texts (itemRows node node.rows) = texts (hang ['-', ' '] node.rows) := by
  cases node <;> rfl

theorem eachMarked_itemRows {marks : Marks} {holds : Row → Prop} (shifts : Shifts holds) (node : Node)
    (unmarked : marks 0 = false) :
    EachMarked marks (itemRows node node.rows) holds ↔ EachMarked marks node.rows holds := by
  cases node with
  | plain text => simp [itemRows, Node.rows, eachMarked_cons, eachMarked_nil, unmarked]
  | _ =>
    rw [itemRows_of_other _ (by simp)]
    exact eachMarked_hang shifts _ unmarked

/-! ## Quoting keeps the shape -/

@[simp] theorem Node.isBlock_requote (marks : Marks) (node : Node) :
    (node.requote marks).isBlock = node.isBlock := by
  cases node <;> rfl

@[simp] theorem Node.underKey_requote : ∀ (marks : Marks) (node : Node),
    (node.requote marks).underKey = node.underKey
  | _, .plain _ | _, .single _ _ | _, .double _ | _, .literal _ _ | _, .seq _ | _, .map _ => rfl
  | _, .tagged _ node => Node.underKey_requote _ node

@[simp] theorem Node.isLiteral_requote : ∀ (marks : Marks) (node : Node),
    (node.requote marks).isLiteral = node.isLiteral
  | _, .plain _ | _, .single _ _ | _, .double _ | _, .literal _ _ | _, .seq _ | _, .map _ => rfl
  | _, .tagged _ node => Node.isLiteral_requote _ node

theorem unmarked_of_joined {marks : Marks} {text : Line} {change : Line → Line} {rows : List Row}
    (each : EachMarked marks (joined text change rows) IsItem)
    (other : ∀ rest, itemOf (text ++ rest) = none) : marks 0 = false := by
  cases rows with
  | nil => exact unmarked_of_first each (by simpa using other [])
  | cons first rest => exact unmarked_of_first each (other _)

theorem quoteMarked_one {marks : Marks} {row : Row} (other : itemOf row.text = none)
    (each : EachMarked marks [row] IsItem) : texts [row] = quoteMarked marks (texts [row]) := by
  rw [texts_cons, quoteMarked_cons, unmarked_of_first each other]
  rfl

theorem itemOf_quoted (text : Line) : itemOf (quoted text) = none :=
  itemOf_of_head _ (by decide) (by decide)

theorem Header.itemOf_line (header : Header) : itemOf header.line = none :=
  itemOf_of_head _ (by decide) (by decide)

theorem itemOf_key {key : Line} (other : itemOf key = none) (rest : Line) :
    itemOf (key ++ [':'] ++ rest) = none := by
  rw [List.append_assoc]
  induction key with
  | nil => exact itemOf_of_head rest (by decide) (by decide)
  | cons char key ih =>
    by_cases space : char = ' '
    · subst space
      exact ih other
    · by_cases dash : char = '-'
      · subst dash
        cases key with
        | nil => rfl
        | cons second key =>
          have second_ne : second ≠ ' ' := by
            rintro rfl
            rw [itemOf_dash] at other
            cases other
          simp [itemOf, second_ne]
      · exact itemOf_of_head _ space dash

theorem eachMarked_explicit {marks : Marks} {holds : Row → Prop} {rows : List Row} {char : Char}
    (shifts : Shifts holds) (indicator : char = '?' ∨ char = ':')
    (each : EachMarked marks (hang [char, ' '] rows) IsItem) :
    EachMarked marks (hang [char, ' '] rows) holds ↔ EachMarked marks rows holds := by
  cases rows with
  | nil => rfl
  | cons first rest =>
    refine eachMarked_hang shifts _ (unmarked_of_first each (itemOf_of_head _ ?_ ?_))
    · rcases indicator with rfl | rfl <;> decide
    · rcases indicator with rfl | rfl <;> decide

theorem quoteMarked_explicit {marks : Marks} {rows changed : List Row} {char : Char}
    (indicator : char = '?' ∨ char = ':') (each : EachMarked marks (hang [char, ' '] rows) IsItem)
    (same : EachMarked marks rows IsItem → texts changed = quoteMarked marks (texts rows)) :
    texts (hang [char, ' '] changed) = quoteMarked marks (texts (hang [char, ' '] rows)) := by
  have rows_eq := same ((eachMarked_explicit shifts_isItem indicator each).mp each)
  cases rows with
  | nil =>
    have empty : changed = [] := by simpa [quoteMarked, texts] using rows_eq
    rw [empty]
    rfl
  | cons first rest =>
    refine quoteMarked_hang _ (unmarked_of_first each (itemOf_of_head _ ?_ ?_)) rows_eq
    · rcases indicator with rfl | rfl <;> decide
    · rcases indicator with rfl | rfl <;> decide

section

variable {marks : Marks} {text : Line} {change : Line → Line} {node : Node}

theorem unmarked_of_rowsBehind {rows : List Row} (other : ∀ rest, itemOf (text ++ rest) = none)
    (each : EachMarked marks (rowsBehind text change node rows) IsItem) : marks 0 = false := by
  unfold rowsBehind at each
  split at each
  · exact unmarked_of_first each (by simpa using other [])
  · exact unmarked_of_joined each other

theorem eachMarked_rowsBehind {holds : Row → Prop} {rows : List Row} (shifts : Shifts holds)
    (known : change = id ∨ change = indentLine) (unmarked : marks 0 = false) :
    EachMarked marks (rowsBehind text change node rows) holds ↔
      EachMarked (marks.below node) rows holds := by
  unfold rowsBehind Marks.below
  split
  · rw [eachMarked_cons, eachMarked_onText shifts known]
    simp [unmarked]
  · exact eachMarked_joined shifts text known unmarked

variable (text) in
theorem quoteMarked_rowsBehind {other : Node} {rows changed : List Row}
    (known : change = id ∨ change = indentLine) (unmarked : marks 0 = false)
    (block : other.isBlock = node.isBlock)
    (same : texts changed = quoteMarked (marks.below node) (texts rows)) :
    texts (rowsBehind text change other changed) =
      quoteMarked marks (texts (rowsBehind text change node rows)) := by
  unfold Marks.below at same
  unfold rowsBehind
  rw [block]
  split at same
  · next block =>
    simp only [block, if_true, texts_cons, quoteMarked_cons, unmarked, Bool.false_eq_true, if_false,
      quoteMarked_onText known same]
  · next inline =>
    simp only [inline, Bool.false_eq_true, if_false]
    exact quoteMarked_joined text known unmarked same

end

theorem itemOf_tag {tag : Line} (mark : tag.head? = some '!') (rest : Line) :
    itemOf (tag ++ rest) = none := by
  cases tag with
  | nil => cases mark
  | cons char tag =>
    cases mark
    exact itemOf_of_head _ (by decide) (by decide)

mutual

theorem Node.rows_requote : ∀ (node : Node) (marks : Marks), node.WellFormed →
    EachMarked marks node.rows IsItem →
    texts (node.requote marks).rows = quoteMarked marks (texts node.rows)
  | .plain text, marks, wellFormed, each => quoteMarked_one wellFormed each
  | .single text below, marks, wellFormed, each => by
      rw [Node.WellFormed] at wellFormed
      subst wellFormed
      exact quoteMarked_one (itemOf_quoted text) each
  | .double raw, marks, _, each =>
      quoteMarked_one (itemOf_of_head _ (by decide) (by decide)) each
  | .literal header content, marks, _, each => by
      have unmarked := unmarked_of_first each header.itemOf_line
      simp only [Node.requote, Node.rows, texts_cons, texts_map_of, quoteMarked_cons, unmarked,
        Bool.false_eq_true, if_false]
  | .seq items, marks, wellFormed, each => Items.rows_requote items marks wellFormed each
  | .map entries, marks, wellFormed, each => Entries.rows_requote entries marks wellFormed each
  | .tagged tag node, marks, wellFormed, each => by
      obtain ⟨mark, nodeFormed⟩ := wellFormed
      have unmarked := unmarked_of_rowsBehind (itemOf_tag mark) each
      have node_eq := Node.rows_requote node _ nodeFormed
        ((eachMarked_rowsBehind shifts_isItem (.inl rfl) unmarked).mp each)
      exact quoteMarked_rowsBehind tag (.inl rfl) unmarked (Node.isBlock_requote _ _) node_eq

theorem Items.rows_requote : ∀ (items : Items) (marks : Marks), items.WellFormed →
    EachMarked marks items.rows IsItem →
    texts (items.requote marks).rows = quoteMarked marks (texts items.rows)
  | .nil, _, _, _ => rfl
  | .cons item rest, marks, wellFormed, each => by
      obtain ⟨itemFormed, filled, restFormed⟩ := wellFormed
      obtain ⟨first, others⟩ := (eachMarked_append ..).mp each
      have rest_eq := Items.rows_requote rest _ restFormed others
      rw [Items.requote, Items.rows, Items.rows, texts_append, texts_append, quoteMarked_append,
        rest_eq, length_texts]
      congr 1
      rw [texts_itemRows, texts_itemRows]
      cases marked : marks 0 with
      | false =>
        rw [if_neg (by simp)]
        exact quoteMarked_hang _ marked
          (Node.rows_requote item marks itemFormed ((eachMarked_itemRows shifts_isItem item marked).mp first))
      | true =>
        rw [if_pos rfl]
        cases rows : item.rows with
        | nil => exact absurd rows filled
        | cons row below =>
          have deeper : texts ((quoteMarked (marks.after 1) (texts below)).map Row.of |>.map
              (Row.onText indentLine)) =
              quoteMarked (marks.after 1) (texts (below.map (Row.onText indentLine))) :=
            quoteMarked_onText (.inr rfl) (texts_map_of _)
          simp only [asString, Node.rows, hang, texts_cons, quoteMarked_cons, marked, if_true,
            List.tail_cons, Node.firstText, List.head?_cons, Option.map_some, Option.getD_some,
            Row.text_of, deeper, List.cons_append, List.nil_append, quoteItem_dash]

theorem Entries.rows_requote : ∀ (entries : Entries) (marks : Marks), entries.WellFormed →
    EachMarked marks entries.rows IsItem →
    texts (entries.requote marks).rows = quoteMarked marks (texts entries.rows)
  | .nil, _, _, _ => rfl
  | .cons true key value rest, marks, wellFormed, each => by
      obtain ⟨keyFormed, valueFormed, -, restFormed⟩ := wellFormed
      simp only [Entries.rows, if_true] at each
      obtain ⟨entry, others⟩ := (eachMarked_append ..).mp each
      obtain ⟨keyRows, valueRows⟩ := (eachMarked_append ..).mp entry
      have key_eq := quoteMarked_explicit (.inl rfl) keyRows (Node.rows_requote key marks keyFormed)
      have value_eq := quoteMarked_explicit (.inr rfl) valueRows (Node.rows_requote value _ valueFormed)
      have rest_eq := Entries.rows_requote rest _ restFormed others
      rw [List.length_append] at rest_eq
      simp only [Entries.requote, Entries.rows, if_true, texts_append, quoteMarked_append, key_eq,
        value_eq, rest_eq, length_texts, List.length_append]
  | .cons false key value rest, marks, wellFormed, each => by
      obtain ⟨-, valueFormed, keyFormed, restFormed⟩ := wellFormed
      simp only [Entries.rows, Bool.false_eq_true, if_false] at each
      obtain ⟨entry, others⟩ := (eachMarked_append ..).mp each
      have unmarked := unmarked_of_rowsBehind (itemOf_key (keyFormed rfl).1) entry
      have node_eq := Node.rows_requote value _ valueFormed
        ((eachMarked_rowsBehind shifts_isItem value.underKey_cases unmarked).mp entry)
      have value_eq := quoteMarked_rowsBehind (Node.firstText key.rows ++ [':'])
        value.underKey_cases unmarked (Node.isBlock_requote (marks.below value) value) node_eq
      have rest_eq := Entries.rows_requote rest _ restFormed others
      simp only [Entries.requote, Entries.rows, Bool.false_eq_true, if_false, texts_append,
        quoteMarked_append, rest_eq, length_texts, Node.underKey_requote, value_eq]

end

namespace Node

theorem eachMarked_document {marks : Marks} {holds : Row → Prop} (shifts : Shifts holds) (node : Node) :
    EachMarked marks node.document holds ↔ EachMarked marks node.rows holds := by
  unfold document
  cases node.rows with
  | nil => rfl
  | cons first rest =>
    simp only [eachMarked_cons]
    split
    · rw [eachMarked_onText shifts (.inr rfl)]
    · rfl

theorem lines_requote {node : Node} {marks : Marks} (wellFormed : node.WellFormed)
    (each : EachMarked marks node.document IsItem) :
    (node.requote marks).lines = quoteMarked marks node.lines := by
  have same := rows_requote node marks wellFormed ((eachMarked_document shifts_isItem node).mp each)
  change texts (node.requote marks).document = quoteMarked marks (texts node.document)
  unfold document
  rw [isLiteral_requote]
  cases rows : node.rows with
  | nil =>
    have empty : (node.requote marks).rows = [] := by simpa [rows, quoteMarked, texts] using same
    rw [empty]
    rfl
  | cons first rest =>
    cases changed : (node.requote marks).rows with
    | nil => simp [rows, changed, quoteMarked_cons] at same
    | cons other others =>
      rw [rows, changed, texts_cons, texts_cons, quoteMarked_cons, List.cons.injEq] at same
      simp only [texts_cons, quoteMarked_cons, same.1]
      congr 1
      split
      · exact quoteMarked_onText (.inr rfl) same.2
      · exact same.2

end Node

end BlockYaml
