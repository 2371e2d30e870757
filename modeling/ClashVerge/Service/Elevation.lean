import ClashVerge.Library.Quoting

/-!
# The command that runs the uninstaller as administrator

On macOS the path of the uninstaller is quoted for the shell, and the shell command for AppleScript.
The two readers undo this: what runs is `cd /` and then the path alone.
-/

namespace ClashVerge.Service.Elevation

open Quoting

/-- `str::replace` with one character to look for. -/
def replace (pattern : Char) (new value : Text) : Text :=
  value.flatMap fun char => if char = pattern then new else [char]

def escapeOsascriptDoubleQuotedString (value : Text) : Text :=
  replace '"' ['\\', '"'] (replace '\\' ['\\', '\\'] value)

def shellSingleQuote (value : Text) : Text :=
  ['\''] ++ replace '\'' ['\'', '\\', '\'', '\''] value ++ ['\'']

/-- What `uninstall_service` hands to `osascript`. The prompt is a text of the application. -/
def uninstallCommand (uninstallShell prompt : Text) : Text :=
  let uninstallQuoted := shellSingleQuote uninstallShell
  let shell := escapeOsascriptDoubleQuotedString ("cd /; ".toList ++ uninstallQuoted)
  "do shell script \"".toList ++ (shell ++ '"' ::
    (" with administrator privileges".toList ++ (" with prompt \"".toList ++ prompt ++ ['"'])))

/-- What stands behind an expected beginning. -/
def behind (opening command : Text) : Option Text :=
  if opening.isPrefixOf command then some (command.drop opening.length) else none

def administratorScript (command : Text) : Option Text :=
  (behind "do shell script \"".toList command).bind fun literal =>
    (readLiteral literal).bind fun (script, rest) =>
      (behind " with administrator privileges".toList rest).map fun _ => script

@[simp] theorem behind_append (opening rest : Text) : behind opening (opening ++ rest) = some rest := by
  simp [behind]

theorem replace_nil (pattern : Char) (new : Text) : replace pattern new [] = [] := rfl

theorem replace_cons (pattern : Char) (new : Text) (char : Char) (rest : Text) :
    replace pattern new (char :: rest) =
      (if char = pattern then new else [char]) ++ replace pattern new rest := rfl

theorem replace_append (pattern : Char) (new front back : Text) :
    replace pattern new (front ++ back) = replace pattern new front ++ replace pattern new back :=
  List.flatMap_append

theorem readLiteral_escape (value rest : Text) :
    readLiteral (escapeOsascriptDoubleQuotedString value ++ '"' :: rest) =
      some (value, rest) := by
  unfold escapeOsascriptDoubleQuotedString
  induction value with
  | nil => exact readLiteral_mark rest
  | cons char others ih =>
    rw [replace_cons, replace_append, List.append_assoc]
    by_cases backslash : char = '\\'
    · simp [backslash, replace_cons, readLiteral, unescape, ih, replace_nil]
    · by_cases mark : char = '"'
      · simp [mark, replace_cons, readLiteral, unescape, ih, replace_nil]
      · simp [backslash, mark, replace_cons, replace_nil, readLiteral_cons, ih]

theorem foldlM_replace (commands : List (List Text)) (words : List Text) (word value : Text) :
    (replace '\'' ['\'', '\\', '\'', '\''] value).foldlM Reading.step
      ⟨.single, commands, words, some (word, true)⟩ =
        some ⟨.single, commands, words, some (word ++ value, true)⟩ := by
  induction value generalizing word with
  | nil => simp [replace]
  | cons char rest ih =>
    have first : (if char = '\'' then ['\'', '\\', '\'', '\''] else [char]).foldlM Reading.step
        ⟨.single, commands, words, some (word, true)⟩ =
          some ⟨.single, commands, words, some (word ++ [char], true)⟩ := by
      split
      · rename_i quote
        rw [quote, foldlM_quote]
      · rename_i other
        simp [step_single commands words word other]
    rw [replace_cons, List.foldlM_append, first]
    simp only [Option.bind_eq_bind, Option.bind_some, ih]
    simp

theorem parse_quoted (value : Text) : parse ("cd /; ".toList ++ shellSingleQuote value) =
      some [["cd".toList, "/".toList], [value]] := by
  have opened : ("cd /; ".toList ++ ['\'']).foldlM Reading.step .start =
      some ⟨.single, [["cd".toList, "/".toList]], [], some ([], true)⟩ := by decide
  rw [parse, shellSingleQuote, List.append_assoc, ← List.append_assoc, List.foldlM_append, opened]
  simp only [Option.bind_eq_bind, Option.bind_some, List.foldlM_append, foldlM_replace]
  simp [Reading.step, Reading.endCommand, Reading.endWord]

theorem administratorScript_uninstall (uninstallShell prompt : Text) :
    administratorScript (uninstallCommand uninstallShell prompt) =
      some ("cd /; ".toList ++ shellSingleQuote uninstallShell) := by
  unfold administratorScript uninstallCommand
  simp only [behind_append, Option.bind_some, readLiteral_escape, Option.map_some]

/-- Whatever the path and the prompt, two commands run with administrator privileges: `cd /`, and
the path as a single word. -/
theorem uninstall_runs_path (uninstallShell prompt : Text) :
    (administratorScript (uninstallCommand uninstallShell prompt)).bind parse =
      some [["cd".toList, "/".toList], [uninstallShell]] := by
  rw [administratorScript_uninstall, Option.bind_some, parse_quoted]

end ClashVerge.Service.Elevation
