import Mathlib.Data.List.DropRight
import Mathlib.Data.List.Count

/-!
# Block YAML

A document in block style, as an emitter lays it out: each item and each entry starts a row, what
belongs to it follows on the same row or deeper, and a sequence below a key starts in the key's
column.

Two nodes are there for documents edited as text. Rows below a single-quoted scalar are a syntax
error unless a reader skips them, and a row of a literal scalar is content whatever it looks like.
-/

namespace BlockYaml

/-- A row without its line break. -/
abbrev Line : Type := List Char

/-- What a literal scalar does with the line breaks at its end. -/
inductive Chomp where
  | strip
  | clip
  | keep
deriving DecidableEq, Repr

/-- The first row of a literal scalar. -/
structure Header where
  indent : Option (Fin 10)
  chomp : Chomp
deriving DecidableEq, Repr

mutual

/-- A node in block style. A plain scalar is one row; the empty collections are written like one. -/
inductive Node where
  | plain (text : Line)
  | single (text : Line) (below : List Line)
  | double (raw : Line)
  | literal (header : Header) (content : List Line)
  | seq (items : Items)
  | map (entries : Entries)
  | tagged (tag : Line) (node : Node)

inductive Items where
  | nil
  | cons (item : Node) (rest : Items)

/-- Entries. A key that is no short single row is written with a question mark. -/
inductive Entries where
  | nil
  | cons (explicit : Bool) (key value : Node) (rest : Entries)

end

/-! ## Rows -/

/-- A row, with the plain scalar it is an item of if it holds nothing else. -/
structure Row where
  text : Line
  item : Option Line
deriving DecidableEq, Repr

def Row.of (text : Line) : Row := ⟨text, none⟩

/-- Two columns to the right; empty rows stay empty. -/
def indentLine (line : Line) : Line := if line = [] then [] else ' ' :: ' ' :: line

def Row.onText (change : Line → Line) (row : Row) : Row := ⟨change row.text, row.item⟩

/-- A quote inside single quotes is written twice. -/
def doubled (char : Char) : Line := if char = '\'' then ['\'', '\''] else [char]

def quoted (text : Line) : Line := '\'' :: text.flatMap doubled ++ ['\'']

def Header.line (header : Header) : Line :=
  '|' :: (match header.indent with
    | some digit => [Nat.digitChar digit]
    | none => []) ++
  match header.chomp with
  | .strip => ['-']
  | .clip => []
  | .keep => ['+']

/-- Rows behind an indicator of two columns. -/
def hang (indicator : Line) : List Row → List Row
  | [] => []
  | first :: rest => .of (indicator ++ first.text) :: rest.map (Row.onText indentLine)

def joined (text : Line) (below : Line → Line) : List Row → List Row
  | [] => [.of text]
  | first :: rest => .of (text ++ ' ' :: first.text) :: rest.map (Row.onText below)

namespace Node

/-- A collection that starts on a row of its own. -/
def isBlock : Node → Bool
  | seq _ | map _ => true
  | _ => false

/-- Where the rows below a key stand: those of a sequence in the column of the key. -/
def underKey : Node → Line → Line
  | seq _ => id
  | tagged _ node => underKey node
  | _ => indentLine

def firstText (rows : List Row) : Line := (rows.head?.map Row.text).getD []

end Node

def itemRows : Node → List Row → List Row
  | .plain text, _ => [⟨'-' :: ' ' :: text, some text⟩]
  | _, rows => hang ['-', ' '] rows

def rowsBehind (text : Line) (change : Line → Line) (node : Node) (rows : List Row) : List Row :=
  if node.isBlock then .of text :: rows.map (Row.onText change) else joined text change rows

mutual

def Node.rows : Node → List Row
  | .plain text => [.of text]
  | .single text below => .of (quoted text) :: below.map .of
  | .double raw => [.of ('"' :: raw ++ ['"'])]
  | .literal header content => .of header.line :: content.map .of
  | .seq items => items.rows
  | .map entries => entries.rows
  | .tagged tag node => rowsBehind tag id node node.rows

def Items.rows : Items → List Row
  | .nil => []
  | .cons item rest => itemRows item item.rows ++ rest.rows

def Entries.rows : Entries → List Row
  | .nil => []
  | .cons explicit key value rest =>
    (if explicit then hang ['?', ' '] key.rows ++ hang [':', ' '] value.rows
      else rowsBehind (Node.firstText key.rows ++ [':']) value.underKey value value.rows) ++ rest.rows

end

namespace Node

/-- A literal scalar, perhaps with a tag. -/
def isLiteral : Node → Bool
  | literal _ _ => true
  | tagged _ node => isLiteral node
  | _ => false

def document (node : Node) : List Row :=
  match node.rows with
  | [] => []
  | first :: rest => first :: if node.isLiteral then rest.map (Row.onText indentLine) else rest

def lines (node : Node) : List Line := node.document.map Row.text

/-- The document with a line break behind each row. -/
def text (node : Node) : List Char := node.lines.flatMap (· ++ ['\n'])

end Node

/-! ## Values -/

/-- How the values of scalars and collections are made: the texts of plain and of double-quoted
    scalars have a value, and mappings with equal keys have none. -/
structure Reading (Value : Type) where
  plain : Line → Value
  double : Line → Value
  string : List Char → Value
  sequence : List Value → Value
  mapping : List (Value × Value) → Option Value
  tagged : Line → Value → Value
  string_injective : Function.Injective string
  sequence_injective : Function.Injective sequence
  mapping_injective : ∀ first second value,
    mapping first = some value → mapping second = some value → first = second
  tagged_injective : ∀ tag, Function.Injective (tagged tag)
  string_ne_sequence : ∀ text items, string text ≠ sequence items
  string_ne_mapping : ∀ text entries, mapping entries ≠ some (string text)
  string_ne_tagged : ∀ text tag value, string text ≠ tagged tag value

def literalText (header : Header) (content : List Line) : List Char :=
  let body := content.flatMap (· ++ ['\n'])
  match header.chomp with
  | .strip => body.rdropWhile (· = '\n')
  | .clip =>
    let stripped := body.rdropWhile (· = '\n')
    if stripped = [] then [] else stripped ++ ['\n']
  | .keep => body

/-- A reader skips empty rows and comments. -/
def skipped (line : Line) : Bool :=
  match line.dropWhile (· = ' ') with
  | [] => true
  | char :: _ => char = '#'

section

variable {Value : Type} (reading : Reading Value)

mutual

def Node.denote : Node → Option Value
  | .plain text => some (reading.plain text)
  | .single text below => if below.all skipped then some (reading.string text) else none
  | .double raw => some (reading.double raw)
  | .literal header content => some (reading.string (literalText header content))
  | .seq items => items.denote.map reading.sequence
  | .map entries => entries.denote.bind reading.mapping
  | .tagged tag node => node.denote.map (reading.tagged tag)

def Items.denote : Items → Option (List Value)
  | .nil => some []
  | .cons item rest =>
    item.denote.bind fun first => rest.denote.map fun others => first :: others

def Entries.denote : Entries → Option (List (Value × Value))
  | .nil => some []
  | .cons _ key value rest =>
    key.denote.bind fun key => value.denote.bind fun value =>
      rest.denote.map fun others => (key, value) :: others

end

end

/-! ## Items as rows -/

/-- What follows the dash of a row that starts with one. -/
def itemOf (line : Line) : Option Line :=
  match line.dropWhile (· = ' ') with
  | '-' :: ' ' :: item => some item
  | _ => none

def quoteItem (line : Line) : Line :=
  match itemOf line with
  | some item => line.takeWhile (· = ' ') ++ '-' :: ' ' :: quoted item
  | none => line

mutual

/-- Only rows of items and of literal scalars look like an item, and nothing stands below a
single-quoted scalar. -/
def Node.WellFormed : Node → Prop
  | .plain text => itemOf text = none
  | .single _ below => below = []
  | .double _ | .literal _ _ => True
  | .seq items => items.WellFormed
  | .map entries => entries.WellFormed
  | .tagged tag node => tag.head? = some '!' ∧ node.WellFormed

def Items.WellFormed : Items → Prop
  | .nil => True
  | .cons item rest => item.WellFormed ∧ item.rows ≠ [] ∧ rest.WellFormed

def Entries.WellFormed : Entries → Prop
  | .nil => True
  | .cons explicit key value rest =>
    key.WellFormed ∧ value.WellFormed ∧
      (explicit = false → itemOf (Node.firstText key.rows) = none ∧ key.isBlock = false) ∧
      rest.WellFormed

end

end BlockYaml
