import ClashVerge.UriParser.Links
import ClashVerge.UriParser.UrlLike

/-!
# The scheme of a link

A link is written with its scheme, `://` and the rest, which is what a parser gets to read.
-/

namespace ClashVerge.UriParser

open Backtracking Delimited Pattern

/-- A symbol of a scheme behind its first letter. -/
def isSchemeChar (char : CodeUnit) : Bool :=
  isLetter char || isDigit char || char == unit '+' || char == unit '.' || char == unit '-'

/-- A letter, and letters, digits, `+`, `.` and `-`. -/
def isScheme : Text → Bool
  | [] => false
  | first :: rest => isLetter first && rest.all isSchemeChar

def linkOf (scheme body : Text) : Text := scheme ++ (text "://" ++ body)

theorem colon_ends_scheme (char : CodeUnit) (inside : isSchemeChar char = true) :
    (char == unit ':') = false := by
  rw [beq_eq_false_iff_ne]
  rintro rfl
  exact absurd inside (by decide)

theorem uriSchemeRe_exec {scheme : Text} (valid : isScheme scheme = true) (body : Text) :
    uriSchemeRe.exec (linkOf scheme body) =
      some [("0", scheme ++ text "://"), ("scheme", scheme)] := by
  cases scheme with
  | nil => contradiction
  | cons first rest =>
    obtain ⟨letter, inside⟩ : isLetter first = true ∧ rest.all isSchemeChar = true := by
      simpa [isScheme] using valid
    have pattern : uriSchemeRe = seq (group "scheme" (seq (one isLetter)
        (star true (one isSchemeChar)))) (seq (literal (text "://")) empty) := rfl
    have left : (rest ++ (text "://" ++ body)).dropWhile isSchemeChar = text "://" ++ body := by
      rw [List.dropWhile_append_of_pos (by simpa using inside)]
      rfl
    rw [exec, run_group, pattern, run_seq, run_group, run_seq, linkOf, List.cons_append, run_one_cons,
      if_pos letter, run_greedy_all]
    · rw [left, run_seq, run_literal, run_empty]
      have whole := take_length_sub (first :: rest ++ text "://") body
      have name := take_length_sub (first :: rest) (text "://" ++ body)
      simp only [List.append_assoc, List.cons_append] at whole name
      rw [whole, name, List.cons_append]
    · intro char others captures symbol
      have other := colon_ends_scheme char symbol
      rw [run_seq, text]
      simp [literal, other]

theorem lookup_captures (whole scheme : Text) :
    ([("0", whole), ("scheme", scheme)] : Captures CodeUnit).lookup "scheme" = some scheme ∧
      ([("0", whole), ("scheme", scheme)] : Captures CodeUnit).lookup "0" = some whole :=
  ⟨rfl, rfl⟩

theorem normalizeUriAndGetScheme_linkOf (platform : Platform) {scheme body : Text}
    (valid : isScheme scheme = true) (lower : platform.toLowerCase scheme = scheme)
    (trimmed : trim (linkOf scheme body) = linkOf scheme body) :
    normalizeUriAndGetScheme platform (linkOf scheme body) = (linkOf scheme body, scheme) := by
  simp only [normalizeUriAndGetScheme, trimmed, uriSchemeRe_exec valid]
  simp [(lookup_captures _ scheme).1, lower, linkOf]

theorem linkBody_linkOf (platform : Platform) {scheme : Text} (valid : isScheme scheme = true)
    (lower : platform.toLowerCase scheme = scheme) {schemes : List String}
    (taken : scheme ∈ schemes.map text) {body : Text} (nonempty : body ≠ []) (message : String) :
    linkBody platform (linkOf scheme body) schemes message = .ok body := by
  have behind : (linkOf scheme body).drop (scheme ++ text "://").length = body := by
    rw [linkOf, ← List.append_assoc, List.drop_left]
  have stripped : stripUriScheme platform (linkOf scheme body) schemes message = .ok body := by
    simp only [stripUriScheme, uriSchemeRe_exec valid]
    rw [List.length_append] at behind
    simp [(lookup_captures _ scheme).1, (lookup_captures _ scheme).2, lower, taken, behind]
  simp [linkBody, stripped, nonempty, bind, Except.bind]

end ClashVerge.UriParser
