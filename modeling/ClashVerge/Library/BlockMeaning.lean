import ClashVerge.Library.BlockRequote

/-!
# What quoted rows denote

A document whose rows are quoted keeps its value exactly when each of these rows is an item that is
a plain scalar denoting its own text. Any other item becomes a text it was not, or leaves rows below
a scalar, and a literal scalar gets longer.
-/

namespace BlockYaml

/-- A row whose item is not quoted and starts no literal scalar. -/
def Quotable (row : Row) : Prop :=
  ∃ item, itemOf row.text = some item ∧ item.head? ≠ some '\'' ∧ item.head? ≠ some '"' ∧
    ∀ header : Header, item ≠ header.line

theorem shifts_quotable : Shifts Quotable := by
  intro row
  simp only [Quotable, Row.onText, itemOf_indentLine]

theorem Quotable.isItem {row : Row} (quotable : Quotable row) : IsItem row := by
  obtain ⟨item, is_, -⟩ := quotable
  simp [IsItem, is_]

section

variable {Value : Type} (reading : Reading Value)

/-- A row that is a plain item denoting its own text. -/
def PlainText (row : Row) : Prop :=
  ∃ text, row.item = some text ∧ reading.plain text = reading.string text

theorem shifts_plainText : Shifts (PlainText reading) := fun _ => Iff.rfl

/-- The characters of a text other than line breaks. -/
def weight (text : List Char) : Nat := text.countP (· ≠ '\n')

@[simp] theorem weight_append (first second : List Char) :
    weight (first ++ second) = weight first + weight second := List.countP_append

theorem weight_rdropWhile (text : List Char) :
    weight (text.rdropWhile (· = '\n')) = weight text := by
  induction text using List.reverseRecOn with
  | nil => rfl
  | append_singleton text char ih =>
    by_cases break_ : char = '\n'
    · rw [List.rdropWhile_concat_pos _ _ _ (by simpa using break_), ih, break_,
        weight_append]
      rfl
    · rw [List.rdropWhile_concat_neg _ _ _ (by simpa using break_)]

/-- The rows of a literal scalar with their line breaks. -/
def body (content : List Line) : List Char := content.flatMap (· ++ ['\n'])

/-- What a literal scalar does with its last line breaks leaves its other characters. -/
theorem weight_literalText (header : Header) (content : List Line) :
    weight (literalText header content) = weight (body content) := by
  unfold literalText
  cases header.chomp with
  | strip => exact weight_rdropWhile _
  | clip =>
    refine Eq.trans ?_ (weight_rdropWhile _)
    simp only
    split
    · next empty =>
      rw [body, empty]
    · rw [weight_append]
      rfl
  | keep => rfl

theorem weight_le_doubled (text : Line) : weight text ≤ weight (text.flatMap doubled) := by
  induction text with
  | nil => exact le_rfl
  | cons char rest ih =>
    have first : weight [char] ≤ weight (doubled char) := by
      unfold doubled
      split
      · next quote =>
        rw [quote]
        decide
      · exact le_rfl
    calc weight (char :: rest) = weight [char] + weight rest := weight_append [char] rest
      _ ≤ weight (doubled char) + weight (rest.flatMap doubled) :=
        Nat.add_le_add first ih
      _ = _ := by rw [List.flatMap_cons, weight_append]

theorem weight_lt_quoted (text : Line) : weight text < weight (quoted text) := by
  calc weight text ≤ weight (text.flatMap doubled) := weight_le_doubled text
    _ < weight ['\''] + weight (text.flatMap doubled) + weight ['\''] := by
      have quote : weight ['\''] = 1 := rfl
      omega
    _ = weight (quoted text) := by
      rw [← weight_append, ← weight_append]
      rfl

theorem eq_of_itemOf {line text : Line} (item : itemOf line = some text) :
    line = line.takeWhile (· = ' ') ++ '-' :: ' ' :: text := by
  have behind : line.dropWhile (· = ' ') = '-' :: ' ' :: text := by
    unfold itemOf at item
    split at item
    · next found =>
      cases item
      exact found
    · cases item
  rw [← behind]
  exact (List.takeWhile_append_dropWhile ..).symm

theorem weight_quoteItem {line : Line} (item : itemOf line ≠ none) :
    weight line < weight (quoteItem line) := by
  obtain ⟨text, is_⟩ := Option.ne_none_iff_exists'.mp item
  have quoted_eq : quoteItem line = line.takeWhile (· = ' ') ++ ['-', ' '] ++ quoted text := by
    simp [quoteItem, is_]
  calc weight line = weight (line.takeWhile (· = ' ') ++ ['-', ' '] ++ text) := by
        rw [List.append_assoc]
        exact congrArg weight (eq_of_itemOf is_)
    _ < weight (quoteItem line) := by
        rw [quoted_eq, weight_append, weight_append _ (quoted text)]
        exact Nat.add_lt_add_left (weight_lt_quoted text) _

variable {marks : Marks}

theorem weight_quoteMarked {content : List Line}
    (each : EachMarked marks (content.map .of) IsItem) :
    weight (body content) ≤ weight (body (quoteMarked marks content)) ∧
      (weight (body (quoteMarked marks content)) = weight (body content) →
        EachMarked marks (content.map .of) fun _ => False) := by
  induction content generalizing marks with
  | nil => exact ⟨le_rfl, fun _ => eachMarked_nil _ _⟩
  | cons line rest ih =>
    rw [List.map_cons, eachMarked_cons] at each
    obtain ⟨heavier, equal⟩ := ih each.2
    have rows (first : Line) (others : List Line) :
        weight (body (first :: others)) = weight first + 0 + weight (body others) := by
      rw [body, List.flatMap_cons, weight_append, weight_append]
      rfl
    rw [quoteMarked_cons, rows, rows, List.map_cons, eachMarked_cons]
    cases marked : marks 0 with
    | false =>
      simp only [Bool.false_eq_true, if_false, false_implies, true_and]
      exact ⟨by omega, fun same => equal (by omega)⟩
    | true =>
      have more := weight_quoteItem (each.1 marked)
      rw [Row.text_of] at more
      simp only [if_true]
      exact ⟨by omega, fun same => by omega⟩

theorem quoteMarked_of_unmarked {content : List Line}
    (unmarked : EachMarked marks (content.map .of) fun _ => False) :
    quoteMarked marks content = content := by
  induction content generalizing marks with
  | nil => rfl
  | cons line rest ih =>
    rw [List.map_cons, eachMarked_cons] at unmarked
    rw [quoteMarked_cons, ih unmarked.2, if_neg unmarked.1]

theorem literalText_quoteMarked {content : List Line} (header : Header)
    (each : EachMarked marks (content.map .of) IsItem) :
    literalText header (quoteMarked marks content) = literalText header content ↔
      EachMarked marks (content.map .of) fun _ => False := by
  constructor
  · intro same
    refine (weight_quoteMarked each).2 ?_
    rw [← weight_literalText header, ← weight_literalText header, same]
  · intro unmarked
    rw [quoteMarked_of_unmarked unmarked]

theorem denote_asString_ne {rows : List Row} {value : Value}
    (other : ∀ text, reading.string text ≠ value) :
    (asString marks rows).denote reading ≠ some value := by
  unfold asString Node.denote
  split
  · exact fun same => other _ (Option.some.inj same)
  · nofun

theorem EachMarked.imp {rows : List Row} {first second : Row → Prop}
    (each : EachMarked marks rows first) (implies : ∀ row, first row → second row) :
    EachMarked marks rows second :=
  fun index row here marked => implies row (each index row here marked)

theorem EachMarked.isItem {rows : List Row} (each : EachMarked marks rows Quotable) :
    EachMarked marks rows IsItem :=
  each.imp fun _ => Quotable.isItem

theorem eachMarked_congr {rows : List Row} {first second : Row → Prop}
    (same : ∀ row ∈ rows, first row ↔ second row) :
    EachMarked marks rows first ↔ EachMarked marks rows second :=
  ⟨fun each index row here marked => (same row (List.mem_of_getElem? here)).mp (each index row here marked),
    fun each index row here marked => (same row (List.mem_of_getElem? here)).mpr (each index row here marked)⟩

theorem eachMarked_one {holds : Row → Prop} (row : Row) (unmarked : marks 0 = false) :
    EachMarked marks [row] holds := by
  simp [eachMarked_cons, eachMarked_nil, unmarked]

theorem denote_marked_other {node : Node} {value : Value} (marked : marks 0 = true)
    (filled : node.rows ≠ []) (plain : ∀ text, node ≠ .plain text)
    (other : ∀ text, reading.string text ≠ value) :
    (asString marks node.rows).denote reading = some value ↔
      EachMarked marks (itemRows node node.rows) (PlainText reading) := by
  refine iff_of_false (denote_asString_ne reading other) fun each => ?_
  rw [itemRows_of_other _ plain] at each
  cases rows : node.rows with
  | nil => exact filled rows
  | cons first rest =>
    rw [rows, hang, eachMarked_cons] at each
    obtain ⟨text, item, -⟩ := each.1 marked
    cases item

theorem denote_marked {node : Node} {value : Value} (marked : marks 0 = true)
    (filled : node.rows ≠ []) (each : EachMarked marks (itemRows node node.rows) Quotable)
    (denotes : node.denote reading = some value) :
    (asString marks node.rows).denote reading = some value ↔
      EachMarked marks (itemRows node node.rows) (PlainText reading) := by
  have not_quotable (text : Line) (rest : List Row)
      (rows : EachMarked marks (.of ('-' :: ' ' :: text) :: rest) Quotable) :
      text.head? ≠ some '\'' ∧ text.head? ≠ some '"' ∧ ∀ header : Header, text ≠ header.line := by
    obtain ⟨item, is_, quotable⟩ := ((eachMarked_cons ..).mp rows).1 marked
    rw [Row.text_of, itemOf_dash, Option.some_inj] at is_
    exact is_ ▸ quotable
  cases node with
  | plain text =>
    have value_eq : reading.plain text = value := Option.some.inj denotes
    have text_eq : (asString marks (Node.plain text).rows).denote reading =
        some (reading.string text) := rfl
    rw [text_eq, ← value_eq, Option.some_inj]
    constructor
    · intro same
      exact (eachMarked_cons ..).mpr ⟨fun _ => ⟨text, rfl, same.symm⟩, eachMarked_nil _ _⟩
    · intro plain
      obtain ⟨other, item, same⟩ := ((eachMarked_cons ..).mp plain).1 marked
      cases item
      exact same.symm
  | single text below => exact absurd rfl (not_quotable _ _ each).1
  | double raw => exact absurd rfl (not_quotable _ _ each).2.1
  | literal header content => exact absurd rfl ((not_quotable _ _ each).2.2 header)
  | seq items =>
    obtain ⟨values, -, rfl⟩ := Option.map_eq_some_iff.mp denotes
    exact denote_marked_other reading marked filled (by simp) fun text =>
      reading.string_ne_sequence text values
  | map entries =>
    obtain ⟨values, -, made⟩ := Option.bind_eq_some_iff.mp denotes
    exact denote_marked_other reading marked filled (by simp) fun text same =>
      reading.string_ne_mapping text values (same ▸ made)
  | tagged tag node =>
    obtain ⟨inner, -, rfl⟩ := Option.map_eq_some_iff.mp denotes
    exact denote_marked_other reading marked filled (by simp) fun text =>
      reading.string_ne_tagged text tag inner

theorem cons_denotes {first : Option Value} {rest : Option (List Value)} {value : Value}
    {values : List Value} :
    (first.bind fun first => rest.map fun others => first :: others) = some (value :: values) ↔
      first = some value ∧ rest = some values := by
  cases first <;> cases rest <;> simp

theorem entry_denotes {key value : Option Value} {rest : Option (List (Value × Value))}
    {entry : Value × Value} {entries : List (Value × Value)} :
    (key.bind fun key => value.bind fun value => rest.map fun others => (key, value) :: others) =
        some (entry :: entries) ↔
      key = some entry.1 ∧ value = some entry.2 ∧ rest = some entries := by
  cases key <;> cases value <;> cases rest <;> simp [Prod.ext_iff, and_assoc]

mutual

/-- A node keeps its value exactly when its marked rows are plain items denoting their own text. -/
theorem Node.denote_requote : ∀ (node : Node) (marks : Marks) (value : Value), node.WellFormed →
    EachMarked marks node.rows Quotable → node.denote reading = some value →
    ((node.requote marks).denote reading = some value ↔ EachMarked marks node.rows (PlainText reading))
  | .plain text, marks, value, wellFormed, each, denotes =>
      iff_of_true denotes (eachMarked_one _ (unmarked_of_first each.isItem wellFormed))
  | .single text below, marks, value, wellFormed, each, denotes => by
      rw [Node.WellFormed] at wellFormed
      subst wellFormed
      exact iff_of_true denotes (eachMarked_one _ (unmarked_of_first each.isItem (itemOf_quoted text)))
  | .double raw, marks, value, wellFormed, each, denotes =>
      iff_of_true denotes (eachMarked_one _
        (unmarked_of_first each.isItem (itemOf_of_head _ (by decide) (by decide))))
  | .literal header content, marks, value, _, each, denotes => by
      cases denotes
      have unmarked := unmarked_of_first each.isItem header.itemOf_line
      have inside := ((eachMarked_cons ..).mp each).2.isItem
      have no_item : ∀ row ∈ content.map Row.of, PlainText reading row ↔ False := by
        intro row member
        obtain ⟨line, -, rfl⟩ := List.mem_map.mp member
        exact iff_of_false (fun plain => by obtain ⟨_, item, _⟩ := plain; cases item) id
      rw [Node.requote, Node.denote, Option.some_inj, reading.string_injective.eq_iff, Node.rows,
        eachMarked_cons, eachMarked_congr no_item, literalText_quoteMarked header inside]
      simp [unmarked]
  | .seq items, marks, value, wellFormed, each, denotes => by
      obtain ⟨values, itemsDenote, rfl⟩ := Option.map_eq_some_iff.mp denotes
      rw [Node.requote, Node.denote, Option.map_eq_some_iff, Node.rows,
        ← Items.denote_requote items marks values wellFormed each itemsDenote]
      constructor
      · rintro ⟨others, othersDenote, same⟩
        rw [othersDenote, reading.sequence_injective same]
      · exact fun kept => ⟨values, kept, rfl⟩
  | .map entries, marks, value, wellFormed, each, denotes => by
      obtain ⟨values, entriesDenote, made⟩ := Option.bind_eq_some_iff.mp denotes
      rw [Node.requote, Node.denote, Option.bind_eq_some_iff, Node.rows,
        ← Entries.denote_requote entries marks values wellFormed each entriesDenote]
      constructor
      · rintro ⟨others, othersDenote, same⟩
        rw [othersDenote, reading.mapping_injective _ _ _ same made]
      · exact fun kept => ⟨values, kept, made⟩
  | .tagged tag node, marks, value, wellFormed, each, denotes => by
      obtain ⟨mark, nodeFormed⟩ := wellFormed
      obtain ⟨inner, nodeDenotes, rfl⟩ := Option.map_eq_some_iff.mp denotes
      have unmarked := unmarked_of_rowsBehind (itemOf_tag mark) each.isItem
      have inside := (eachMarked_rowsBehind shifts_quotable (.inl rfl) unmarked).mp each
      rw [Node.requote, Node.denote, Option.map_eq_some_iff, Node.rows,
        eachMarked_rowsBehind (shifts_plainText reading) (.inl rfl) unmarked,
        ← Node.denote_requote node _ inner nodeFormed inside nodeDenotes]
      constructor
      · rintro ⟨other, otherDenotes, same⟩
        rw [otherDenotes, reading.tagged_injective tag same]
      · exact fun kept => ⟨inner, kept, rfl⟩

theorem Items.denote_requote : ∀ (items : Items) (marks : Marks) (values : List Value),
    items.WellFormed → EachMarked marks items.rows Quotable → items.denote reading = some values →
    ((items.requote marks).denote reading = some values ↔
      EachMarked marks items.rows (PlainText reading))
  | .nil, marks, values, _, _, denotes => iff_of_true denotes (eachMarked_nil _ _)
  | .cons item rest, marks, values, wellFormed, each, denotes => by
      obtain ⟨itemFormed, filled, restFormed⟩ := wellFormed
      obtain ⟨value, itemDenotes, denotes⟩ := Option.bind_eq_some_iff.mp denotes
      obtain ⟨others, restDenotes, rfl⟩ := Option.map_eq_some_iff.mp denotes
      obtain ⟨first, below⟩ := (eachMarked_append ..).mp each
      rw [Items.requote, Items.denote, cons_denotes, Items.rows, eachMarked_append,
        Items.denote_requote rest _ others restFormed below restDenotes]
      refine and_congr_left fun _ => ?_
      cases marked : marks 0 with
      | true => exact denote_marked reading marked filled first itemDenotes
      | false =>
        rw [eachMarked_itemRows (shifts_plainText reading) item marked]
        exact Node.denote_requote item marks value itemFormed
          ((eachMarked_itemRows shifts_quotable item marked).mp first) itemDenotes

theorem Entries.denote_requote : ∀ (entries : Entries) (marks : Marks) (values : List (Value × Value)),
    entries.WellFormed → EachMarked marks entries.rows Quotable →
    entries.denote reading = some values →
    ((entries.requote marks).denote reading = some values ↔
      EachMarked marks entries.rows (PlainText reading))
  | .nil, marks, values, _, _, denotes => iff_of_true denotes (eachMarked_nil _ _)
  | .cons true key value rest, marks, values, wellFormed, each, denotes => by
      obtain ⟨keyFormed, valueFormed, -, restFormed⟩ := wellFormed
      obtain ⟨key_, keyDenotes, denotes⟩ := Option.bind_eq_some_iff.mp denotes
      obtain ⟨value_, valueDenotes, denotes⟩ := Option.bind_eq_some_iff.mp denotes
      obtain ⟨others, restDenotes, rfl⟩ := Option.map_eq_some_iff.mp denotes
      simp only [Entries.rows, if_true] at each ⊢
      obtain ⟨entry, below⟩ := (eachMarked_append ..).mp each
      obtain ⟨keyRows, valueRows⟩ := (eachMarked_append ..).mp entry
      have plain := shifts_plainText reading
      rw [Entries.requote, Entries.denote, entry_denotes, eachMarked_append, eachMarked_append,
        Entries.denote_requote rest _ others restFormed below restDenotes,
        eachMarked_explicit plain (.inl rfl) keyRows.isItem,
        eachMarked_explicit plain (.inr rfl) valueRows.isItem,
        Node.denote_requote key _ key_ keyFormed
          ((eachMarked_explicit shifts_quotable (.inl rfl) keyRows.isItem).mp keyRows) keyDenotes,
        Node.denote_requote value _ value_ valueFormed
          ((eachMarked_explicit shifts_quotable (.inr rfl) valueRows.isItem).mp valueRows) valueDenotes,
        and_assoc]
  | .cons false key value rest, marks, values, wellFormed, each, denotes => by
      obtain ⟨-, valueFormed, keyFormed, restFormed⟩ := wellFormed
      obtain ⟨key_, keyDenotes, denotes⟩ := Option.bind_eq_some_iff.mp denotes
      obtain ⟨value_, valueDenotes, denotes⟩ := Option.bind_eq_some_iff.mp denotes
      obtain ⟨others, restDenotes, rfl⟩ := Option.map_eq_some_iff.mp denotes
      simp only [Entries.rows, Bool.false_eq_true, if_false] at each ⊢
      obtain ⟨entry, below⟩ := (eachMarked_append ..).mp each
      have unmarked := unmarked_of_rowsBehind (itemOf_key (keyFormed rfl).1) entry.isItem
      have inside := (eachMarked_rowsBehind shifts_quotable value.underKey_cases unmarked).mp entry
      rw [Entries.requote, Entries.denote, entry_denotes, eachMarked_append,
        Entries.denote_requote rest _ others restFormed below restDenotes,
        eachMarked_rowsBehind (shifts_plainText reading) value.underKey_cases unmarked,
        Node.denote_requote value _ value_ valueFormed inside valueDenotes]
      simp [keyDenotes]

end

end

end BlockYaml
