import ClashVerge.Library.JsLiteral
import ClashVerge.Utils.MaskUrl

/-!
# The profile's name in a script

`eval_script` writes the name of the profile into the program it runs, as a literal in single
quotes. A name that is too long does not get there. All others are read back as they are.
-/

namespace ClashVerge.Enhance

open JsLiteral
open Utils (byteLen)

def replace (text : List Char) (of : Char) (with_ : List Char) : List Char :=
  text.flatMap fun char => if char = of then with_ else [char]

/-- The first bytes of a text, which have to end with a character. -/
def sliceTo : Nat → List Char → Option (List Char)
  | 0, _ => some []
  | _ + 1, [] => none
  | bytes + 1, char :: rest =>
    if char.utf8Size ≤ bytes + 1 then (sliceTo (bytes + 1 - char.utf8Size) rest).map (char :: ·)
    else none

/-- Nothing if the slice panics. -/
def escapeJsStringForSingleQuote (s : List Char) : Option (List Char) :=
  if 10240 < byteLen s then
    (sliceTo 10240 s).map fun s => replace (replace s '\\' ['\\', '\\']) '\'' ['\\', '\'']
  else
    let s := replace s '\\' ['\\', '\\']
    let s := replace s '\'' ['\\', '\'']
    let s := replace s '\n' ['\\', 'n']
    some (replace s '\r' ['\\', 'r'])

/-- The program in front of the name. -/
def codeBefore (script : List Char) : List Char :=
  "try\x7b\n        ".toList ++ script ++
    ";\n        JSON.stringify(main(JSON.parse(globalThis.__verge_config__),".toList

def codeBehind : List Char :=
  (")||'')\n      \x7d catch(err) \x7b\n        `__error_flag__ $\x7berr.toString()\x7d`\n" ++
    "      \x7d").toList

/-- The program of `eval_script`, or why there is none; nothing if the escaping panics. -/
def scriptCode (script name : List Char) : Option (Except String (List Char)) :=
  (escapeJsStringForSingleQuote name).map fun safeName =>
    if 1024 < byteLen safeName then .error "Name parameter too long"
    else .ok (codeBefore script ++ '\'' :: safeName ++ '\'' :: codeBehind)

/-- What becomes of a character of a name that is not too long. -/
def escapedName (char : Char) : List Char :=
  if char = '\\' then ['\\', '\\']
  else if char = '\'' then ['\\', '\'']
  else if char = '\n' then ['\\', 'n']
  else if char = '\r' then ['\\', 'r']
  else [char]

theorem escape_short {name : List Char} (short : byteLen name ≤ 10240) :
    escapeJsStringForSingleQuote name = some (name.flatMap escapedName) := by
  rw [escapeJsStringForSingleQuote, if_neg (Nat.not_lt.mpr short)]
  simp only [replace, List.flatMap_assoc]
  refine congrArg some (List.flatMap_congr fun char _ => ?_)
  unfold escapedName
  split_ifs <;> simp_all

theorem byteLen_append (first second : List Char) :
    byteLen (first ++ second) = byteLen first + byteLen second := by
  simp [byteLen]

theorem byteLen_replace {of : Char} {with_ : List Char} (longer : of.utf8Size ≤ byteLen with_)
    (text : List Char) : byteLen text ≤ byteLen (replace text of with_) := by
  induction text with
  | nil => exact Nat.le_refl _
  | cons char rest ih =>
    have first : char.utf8Size ≤ byteLen (if char = of then with_ else [char]) := by
      split
      · rename_i same
        exact same ▸ longer
      · simp [byteLen]
    have whole : byteLen (char :: rest) = char.utf8Size + byteLen rest := by simp [byteLen]
    rw [whole, replace, List.flatMap_cons, byteLen_append]
    exact Nat.add_le_add first ih

theorem byteLen_sliceTo {bytes : Nat} {text slice : List Char}
    (sliced : sliceTo bytes text = some slice) : byteLen slice = bytes := by
  induction text generalizing bytes slice with
  | nil =>
    cases bytes with
    | zero => exact Option.some.inj sliced ▸ rfl
    | succ bytes => cases sliced
  | cons char rest ih =>
    cases bytes with
    | zero => exact Option.some.inj sliced ▸ rfl
    | succ bytes =>
      rw [sliceTo] at sliced
      split at sliced
      · obtain ⟨tail, slicedTail, rfl⟩ := Option.map_eq_some_iff.mp sliced
        have later := ih slicedTail
        have whole : byteLen (char :: tail) = char.utf8Size + byteLen tail := by simp [byteLen]
        omega
      · cases sliced

theorem escape_long {name safeName : List Char} (long : 10240 < byteLen name)
    (escaped : escapeJsStringForSingleQuote name = some safeName) : 10240 ≤ byteLen safeName := by
  rw [escapeJsStringForSingleQuote, if_pos long] at escaped
  obtain ⟨slice, sliced, rfl⟩ := Option.map_eq_some_iff.mp escaped
  calc 10240 = byteLen slice := (byteLen_sliceTo sliced).symm
    _ ≤ byteLen (replace slice '\\' ['\\', '\\']) := byteLen_replace (by decide) _
    _ ≤ _ := byteLen_replace (by decide) _

theorem scriptCode_ok {script name code : List Char}
    (proceeds : scriptCode script name = some (.ok code)) :
    escapeJsStringForSingleQuote name = some (name.flatMap escapedName) ∧
      code = codeBefore script ++ '\'' :: name.flatMap escapedName ++ '\'' :: codeBehind := by
  obtain ⟨safeName, escaped, gated⟩ := Option.map_eq_some_iff.mp proceeds
  split at gated
  · cases gated
  · rename_i fits
    have short : byteLen name ≤ 10240 := by
      by_contra long
      have size := escape_long (Nat.lt_of_not_le long) escaped
      omega
    have whole := escape_short short
    obtain rfl := Option.some.inj (escaped.symm.trans whole)
    exact ⟨whole, (Except.ok.inj gated).symm⟩

theorem scan_escapedName (char : Char) (rest : List Char) :
    scan '\'' (escapedName char ++ rest) = (scan '\'' rest).map (before (encodeChar char)) := by
  unfold escapedName
  split_ifs with backslash quote lineFeed carriageReturn
  · subst backslash
    exact scan_single (by decide) rest (by decide)
  · subst quote
    exact scan_single (by decide) rest (by decide)
  · subst lineFeed
    exact scan_single (by decide) rest (by decide)
  · subst carriageReturn
    exact scan_single (by decide) rest (by decide)
  · exact scan_plain rest quote backslash ⟨lineFeed, carriageReturn⟩

/-- The characters that a name is not written with unescaped. -/
def inexpressible : List Char := ['\\', '\'', '\n', '\r']

theorem unescaped_escapedName (name : List Char) :
    unescaped (name.flatMap escapedName) = name.filter (· ∉ inexpressible) := by
  induction name with
  | nil => rfl
  | cons char rest ih =>
    rw [List.flatMap_cons, List.filter_cons, escapedName]
    split_ifs with backslash quote lineFeed carriageReturn outside outside
    all_goals simp_all [unescaped, inexpressible, unescaped_plain]

/-- The literal that the program has for the name. -/
structure Faithful (name code safeName front behind : List Char) : Prop where
  code : code = front ++ '\'' :: safeName ++ '\'' :: behind
  literal : stringLiteral ('\'' :: safeName ++ '\'' :: behind) = some (utf16 name, behind)
  unescaped : ∀ char ∈ unescaped safeName, char ∉ inexpressible

/-- A name that gets into the program is read back there as it is. Its literal has no unescaped
quote, backslash or end of line in it, and ends where the program goes on. -/
theorem profileName_faithful {script name code : List Char}
    (proceeds : scriptCode script name = some (.ok code)) :
    ∃ safeName, escapeJsStringForSingleQuote name = some safeName ∧
      Faithful name code safeName (codeBefore script) codeBehind := by
  obtain ⟨escaped, written⟩ := scriptCode_ok proceeds
  refine ⟨_, escaped, written, ?_, ?_⟩
  · have reads := scan_flatMap (fun char (_ : char ∈ name) => scan_escapedName char)
      ('\'' :: codeBehind)
    rw [scan_quote, Option.map_some, before, List.append_nil] at reads
    rw [List.cons_append, stringLiteral, if_pos (.inl rfl), reads]
  · intro char listed
    rw [unescaped_escapedName] at listed
    exact of_decide_eq_true (List.mem_filter.mp listed).2

theorem profileName_faithful_quoted :
    ∃ safeName, escapeJsStringForSingleQuote "it's\n\\'".toList = some safeName ∧
      Faithful "it's\n\\'".toList
        (codeBefore "s".toList ++ '\'' :: "it\\'s\\n\\\\\\'".toList ++ '\'' :: codeBehind) safeName
        (codeBefore "s".toList) codeBehind :=
  profileName_faithful (by decide +kernel)

/-- The two separators that end lines for a program, but not its literals, are not escaped. -/
theorem separator_unescaped :
    ¬ ∀ script name code safeName : List Char, scriptCode script name = some (.ok code) →
      escapeJsStringForSingleQuote name = some safeName →
        ∀ char ∈ unescaped safeName, char ≠ '\'' ∧ char ≠ '\\' ∧ char ∉ lineTerminators := by
  intro each
  have clean := each [] ['\u2028'] (codeBefore [] ++ '\'' :: ['\u2028'] ++ '\'' :: codeBehind)
    ['\u2028'] (by decide +kernel) (by decide +kernel) '\u2028' (by decide)
  exact absurd clean.2.2 (by decide)

end ClashVerge.Enhance
