import Mathlib.Data.List.Basic

/-!
# Quoted texts

A string literal of AppleScript ends at the first quotation mark that no backslash stands before. Of
the POSIX shell only lists of simple commands with literal words are read: where an unquoted
character could begin an expansion, a pattern, an assignment, a redirection, a comment or a compound
command, there is no reading.
-/

namespace Quoting

abbrev Text : Type := List Char

/-! ## String literals -/

/-- What a backslash makes of the character behind it. -/
def unescape (char : Char) : Option Char :=
  if char = '"' ∨ char = '\\' then some char
  else if char = 'n' then some '\n'
  else if char = 'r' then some '\r'
  else if char = 't' then some '\t'
  else none

/-- The text of a literal behind its opening mark, and what stands behind its closing one. -/
def readLiteral : Text → Option (Text × Text)
  | [] => none
  | char :: rest =>
    if char = '"' then some ([], rest)
    else if char = '\\' then
      match rest with
      | [] => none
      | escaped :: rest =>
        (unescape escaped).bind fun char =>
          (readLiteral rest).map fun (literal, behind) => (char :: literal, behind)
    else (readLiteral rest).map fun (literal, behind) => (char :: literal, behind)

theorem readLiteral_mark (behind : Text) : readLiteral ('"' :: behind) = some ([], behind) := by
  cases behind <;> rfl

theorem readLiteral_cons {char : Char} (mark : char ≠ '"') (backslash : char ≠ '\\') (rest : Text) :
    readLiteral (char :: rest) =
      (readLiteral rest).map fun (literal, behind) => (char :: literal, behind) := by
  cases rest <;> simp [readLiteral, mark, backslash]

/-! ## Words of the shell -/

/-- How the next character is read. -/
inductive Mode where
  | plain
  | escaped
  | single
  | double
  | doubleEscaped
deriving DecidableEq, Repr

structure Reading where
  mode : Mode
  commands : List (List Text)
  words : List Text
  /-- The word that is being read, and whether any of it is quoted. -/
  word : Option (Text × Bool)
deriving DecidableEq, Repr

namespace Reading

def start : Reading := ⟨.plain, [], [], none⟩

def push (reading : Reading) (char : Char) (quoted : Bool) : Reading :=
  let (word, before) := reading.word.getD ([], false)
  { reading with word := some (word ++ [char], before || quoted) }

/-- A quotation makes a word, even if nothing is in it. -/
def openQuote (reading : Reading) (mode : Mode) : Reading :=
  { reading with mode := mode, word := some ((reading.word.getD ([], true)).1, true) }

def reserved : List Text :=
  ["if", "then", "else", "elif", "fi", "do", "done", "case", "esac", "while", "until", "for",
    "in"].map String.toList

/-- A reserved word is no literal word where a command begins. -/
def endWord (reading : Reading) : Option Reading :=
  match reading.word with
  | none => some reading
  | some (word, quoted) =>
    if reading.words = [] ∧ quoted = false ∧ word ∈ reserved then none
    else some { reading with words := reading.words ++ [word], word := none }

/-- A line may be empty, but there is no empty command before a semicolon. -/
def endCommand (reading : Reading) (separator : Char) : Option Reading :=
  reading.endWord.bind fun reading =>
    if reading.words = [] then if separator = ';' then none else some reading
    else some { reading with commands := reading.commands ++ [reading.words], words := [] }

/-- Unquoted characters that can be more than themselves. -/
def special : Text := "|&<>()$`*?[]#~=%{}!^".toList

def step (reading : Reading) (char : Char) : Option Reading :=
  match reading.mode with
  | .plain =>
    if char = '\\' then some { reading with mode := .escaped }
    else if char = '\'' then some (reading.openQuote .single)
    else if char = '"' then some (reading.openQuote .double)
    else if char = ' ' ∨ char = '\t' then reading.endWord
    else if char = ';' ∨ char = '\n' then reading.endCommand char
    else if char ∈ special then none
    else some (reading.push char false)
  | .escaped =>
    let reading := { reading with mode := .plain }
    -- a backslash before the end of a line joins the lines
    if char = '\n' then some reading else some (reading.push char true)
  | .single =>
    if char = '\'' then some { reading with mode := .plain } else some (reading.push char true)
  | .double =>
    if char = '"' then some { reading with mode := .plain }
    else if char = '\\' then some { reading with mode := .doubleEscaped }
    else if char = '$' ∨ char = '`' then none
    else some (reading.push char true)
  | .doubleEscaped =>
    let reading := { reading with mode := .double }
    if char = '\n' then some reading
    else if char ∈ ['$', '`', '"', '\\'] then some (reading.push char true)
    else some ((reading.push '\\' true).push char true)

end Reading

def parse (text : Text) : Option (List (List Text)) :=
  (text.foldlM Reading.step .start).bind fun reading =>
    if reading.mode = .plain then (reading.endCommand '\n').map Reading.commands else none

section

variable (commands : List (List Text)) (words : List Text) (word : Text)

theorem step_single {char : Char} (other : char ≠ '\'') :
    Reading.step ⟨.single, commands, words, some (word, true)⟩ char =
      some ⟨.single, commands, words, some (word ++ [char], true)⟩ := by
  simp [Reading.step, Reading.push, other]

theorem foldlM_quote :
    ['\'', '\\', '\'', '\''].foldlM Reading.step ⟨.single, commands, words, some (word, true)⟩ =
      some ⟨.single, commands, words, some (word ++ ['\''], true)⟩ := by
  simp [Reading.step, Reading.push, Reading.openQuote]

end

end Quoting
