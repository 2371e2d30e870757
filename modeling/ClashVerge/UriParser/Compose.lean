import ClashVerge.UriParser.UrlLike

/-!
# Links put together from their parts

`parseUrlLike` takes apart what is put together as `[auth@]host[:port][/][?query][#fragment]`.
Whether a part is found again depends on the marks that occur in the others.
-/

namespace ClashVerge.UriParser

open Backtracking Delimited

def Bracketed (host : Text) : Prop := host.head? = some (unit '[') ∧ host.getLast? = some (unit ']')

/-- The parts of a link, each without the marks that end it. -/
structure Components where
  auth : Option Text
  host : Text
  port : Option Text
  slash : Bool
  query : Option Text
  fragment : Option Text
  auth_free : ∀ value, auth = some value → trim value ≠ [] ∧ unit '@' ∉ value
  host_nonempty : host ≠ []
  host_free : ∀ char ∈ host, char ≠ unit '@' ∧ char ≠ unit '/' ∧ char ≠ unit '?' ∧ char ≠ unit '#'
  host_colon : unit ':' ∈ host → Bracketed host
  port_digits : ∀ digits, port = some digits → onlyDigits digits = true
  query_free : ∀ value, query = some value → unit '#' ∉ value
  fragment_line : ∀ value, fragment = some value → OneLine value

theorem slashTail_other {char : CodeUnit} (rest : Text) (slash : char ≠ unit '/')
    (question : char ≠ unit '?') (number : char ≠ unit '#') : slashTail (char :: rest) = none := by
  simp [slashTail, queryTail, fragmentTail, slash, question, number]

def marked (char : Char) (value : Option Text) : Text :=
  (value.map fun value => unit char :: value).getD []

namespace Components

variable (components : Components)

def queryText : Text := marked '?' components.query ++ marked '#' components.fragment

def slashText : Text := (if components.slash then [unit '/'] else []) ++ components.queryText

def tailText : Text := marked ':' components.port ++ components.slashText

def restText : Text := components.host ++ components.tailText

def compose : Text :=
  ((components.auth.map fun value => value ++ [unit '@']).getD []) ++ components.restText

/-- The parts as `parseUrlLike` returns them. -/
def parts : UrlLikeParts :=
  ⟨components.auth, normalizeHost components.host, components.port, components.query,
    components.fragment⟩

/-- The parts are found again, also where credentials are wanted and there are some. -/
def FoundAgain : Prop :=
  ∀ requireAuth message, (requireAuth = true → components.auth.isSome = true) →
    parseUrlLike components.compose requireAuth message = .ok components.parts

/-! ## The end of a link -/

theorem fragmentTail_marked : fragmentTail (marked '#' components.fragment) =
    some components.fragment := by
  cases fragment : components.fragment <;> simp [marked, fragmentTail]

theorem queryTail_queryText : queryTail components.queryText =
    some (components.query, components.fragment) := by
  have fragment := components.fragmentTail_marked
  unfold queryText
  cases query : components.query with
  | none =>
    cases named : components.fragment with
    | none => rfl
    | some value =>
      rw [named] at fragment
      simp only [marked, Option.map_none, Option.getD_none, List.nil_append, Option.map_some,
        Option.getD_some] at fragment ⊢
      rw [queryTail, if_neg (by decide), fragment]
      rfl
  | some value =>
    have free := components.query_free value query
    have cut : splitOnceText '#' (value ++ marked '#' components.fragment) =
        (value, components.fragment) := by
      cases components.fragment with
      | none =>
        simp [splitOnceText, marked, (splitOnce_eq_none_iff (unit '#') value).mpr free]
      | some behind =>
        simp [splitOnceText, marked, (splitOnce_join_iff (unit '#') value behind).mpr free]
    rw [show marked '?' (some value) = unit '?' :: value from rfl, List.cons_append, queryTail,
      if_pos rfl]
    simp only [cut]

theorem slashTail_slashText : slashTail components.slashText =
    some (components.query, components.fragment) := by
  have query := components.queryTail_queryText
  unfold slashText
  cases components.slash with
  | true =>
    rw [if_pos rfl, List.singleton_append, slashTail, if_pos rfl]
    exact query
  | false =>
    simp only [Bool.false_eq_true, if_false, List.nil_append]
    cases named : components.queryText with
    | nil =>
      rw [named] at query
      exact query
    | cons first rest =>
      have other : first ≠ unit '/' := by
        rintro rfl
        rw [named, queryTail_slash] at query
        contradiction
      rw [slashTail, if_neg other, ← named]
      exact query

theorem slashText_head {first : CodeUnit} {rest : Text}
    (text_ : components.slashText = first :: rest) :
    isDigit first = false ∧ first ≠ unit ':' := by
  have ends := components.slashTail_slashText
  rw [text_] at ends
  by_cases mark : first = unit '/' ∨ first = unit '?' ∨ first = unit '#'
  · obtain rfl | rfl | rfl := mark <;> decide
  · simp only [not_or] at mark
    rw [slashTail_other rest mark.1 mark.2.1 mark.2.2] at ends
    contradiction

/-- The tail that the parts of a link make up. -/
def tail : Tail := ⟨components.port, components.query, components.fragment⟩

theorem tailOf_tailText : tailOf components.tailText = some components.tail := by
  have ends := components.slashTail_slashText
  unfold tailText
  cases port : components.port with
  | none =>
    rw [show marked ':' none = [] from rfl, List.nil_append]
    cases text_ : components.slashText with
    | nil =>
      rw [text_] at ends
      obtain ⟨query, fragment⟩ := Prod.mk.inj (Option.some.inj ends)
      rw [tailOf, tail, port, ← query, ← fragment]
    | cons first rest =>
      have other := (components.slashText_head text_).2
      rw [tailOf, if_neg other, ← text_, ends, tail, port]
      rfl
  | some digits =>
    have only := components.port_digits digits port
    simp only [onlyDigits, Bool.and_eq_true, Bool.not_eq_true'] at only
    have stops : components.slashText.takeWhile isDigit = [] ∧
        components.slashText.dropWhile isDigit = components.slashText := by
      cases text_ : components.slashText with
      | nil => exact ⟨rfl, rfl⟩
      | cons first rest => simp [(components.slashText_head text_).1]
    have taken : (digits ++ components.slashText).takeWhile isDigit = digits := by
      rw [List.takeWhile_append_of_pos (by simpa using only.2), stops.1, List.append_nil]
    have left : (digits ++ components.slashText).dropWhile isDigit = components.slashText := by
      rw [List.dropWhile_append_of_pos (by simpa using only.2), stops.2]
    rw [show marked ':' (some digits) = unit ':' :: digits from rfl, List.cons_append, tailOf,
      if_pos rfl, taken, left, ends, tail, port]
    simp [only.1]

/-! ## The host -/

theorem tailOf_host {front back : Text} {char : CodeUnit}
    (host : components.host = front ++ char :: back) (more : Text) :
    tailOf (char :: (back ++ more)) = none := by
  have free := components.host_free char (by simp [host])
  by_cases colon : char = unit ':'
  · subst colon
    obtain ⟨-, closes⟩ := components.host_colon (by simp [host])
    have closing : unit ']' ∈ back := by
      rw [host, List.getLast?_append, List.getLast?_cons] at closes
      have last : back.getLast?.getD (unit ':') = unit ']' := by simpa using closes
      cases ends : back.getLast? with rw [ends] at last
      | none =>
        exact absurd last (by decide)
      | some final =>
        obtain rfl : final = unit ']' := last
        exact List.mem_of_getLast? ends
    -- the digits behind the colon end before the closing bracket
    obtain ⟨stop, rest, left⟩ : ∃ stop rest, back.dropWhile isDigit = stop :: rest := by
      refine List.exists_cons_of_ne_nil fun none_ => ?_
      have digit := List.dropWhile_eq_nil_iff.mp none_ (unit ']') closing
      exact absurd digit (by decide)
    have inside : stop ∈ components.host := by
      have listed : stop ∈ back := (List.dropWhile_sublist isDigit).mem (by rw [left]; simp)
      simp [host, listed]
    have other := components.host_free stop inside
    have behind : (back ++ more).dropWhile isDigit = stop :: (rest ++ more) := by
      rw [List.dropWhile_append, left]
      rfl
    rw [tailOf, if_pos rfl, behind, slashTail_other _ other.2.1 other.2.2.1 other.2.2.2]
    split <;> rfl
  · rw [tailOf, if_neg colon, slashTail_other _ free.2.1 free.2.2.1 free.2.2.2]
    rfl

theorem hostAndTail_restText : hostAndTail components.restText =
    (components.host, components.tail) := by
  suffices general : ∀ front back, components.host = front ++ back →
      hostAndTail (back ++ components.tailText) = (back, components.tail) from
    general [] components.host rfl
  intro front back
  induction back generalizing front with
  | nil =>
    intro _
    have ends := components.tailOf_tailText
    rw [List.nil_append]
    cases text_ : components.tailText with
    | nil =>
      rw [text_] at ends
      rw [hostAndTail, ← Option.some.inj ends]
    | cons first rest => rw [hostAndTail, ← text_, ends]
  | cons char back ih =>
    intro host
    have later := ih (front ++ [char]) (by simp [host])
    rw [List.cons_append, hostAndTail, components.tailOf_host host components.tailText]
    simp only [later]

/-! ## The whole link -/

theorem oneLine_append {first second : Text} :
    OneLine (first ++ second) ↔ OneLine first ∧ OneLine second := by
  simp only [OneLine, List.mem_append, or_imp, forall_and]

/-- Nothing that is put together has a line terminator. -/
def OneLined : Prop :=
  (∀ value, components.auth = some value → OneLine value) ∧ OneLine components.host ∧
    ∀ value, components.query = some value → OneLine value

/-- Without credentials, no other part has an `@`. -/
def Unmarked : Prop :=
  components.auth = none → (∀ value, components.query = some value → unit '@' ∉ value) ∧
    ∀ value, components.fragment = some value → unit '@' ∉ value

theorem oneLine_marked {char : Char} (clear : isLineTerminator (unit char) = false)
    (value : Option Text) :
    OneLine (marked char value) ↔ ∀ each, value = some each → OneLine each := by
  cases value with
  | none => simp [marked, OneLine]
  | some each => simp [marked, OneLine, clear]

theorem oneLine_digits {digits : Text} (only : onlyDigits digits = true) : OneLine digits := by
  intro char inside
  simp only [onlyDigits, Bool.and_eq_true, List.all_eq_true] at only
  have digit := only.2 char inside
  by_contra terminator
  simp only [isLineTerminator, Bool.not_eq_false, Bool.or_eq_true, beq_iff_eq] at terminator
  obtain ((rfl | rfl) | rfl) | rfl := terminator <;> exact absurd digit (by decide)

theorem oneLine_compose : OneLine components.compose ↔ components.OneLined := by
  have port : OneLine (marked ':' components.port) :=
    (oneLine_marked (by decide) _).mpr fun digits named =>
      oneLine_digits (components.port_digits digits named)
  have fragment : OneLine (marked '#' components.fragment) :=
    (oneLine_marked (by decide) _).mpr components.fragment_line
  have slash : OneLine (if components.slash then [unit '/'] else []) := by
    cases components.slash <;> decide
  have auth : OneLine ((components.auth.map fun value => value ++ [unit '@']).getD []) ↔
      ∀ value, components.auth = some value → OneLine value := by
    cases components.auth with
    | none => simp [OneLine]
    | some value =>
      have mark : OneLine [unit '@'] := by decide
      simp [oneLine_append, mark]
  unfold compose restText tailText slashText queryText OneLined
  simp only [oneLine_append, oneLine_marked (show isLineTerminator (unit '?') = false by decide),
    port, fragment, slash, auth, true_and, and_true]

theorem authAndRest_some {value : Text} (auth : components.auth = some value) :
    authAndRest components.compose = (some value, components.restText) := by
  have free := (components.auth_free value auth).2
  have cut := (splitOnce_join_iff (unit '@') value components.restText).mpr free
  simp [authAndRest, compose, auth, cut]

theorem not_mem_marked {char : Char} (other : unit char ≠ unit '@') (value : Option Text) :
    unit '@' ∉ marked char value ↔ ∀ each, value = some each → unit '@' ∉ each := by
  cases value with
  | none => simp [marked]
  | some each => simp [marked, other.symm]

/-- What is between the credentials and the query. -/
def frontText : Text :=
  components.host ++ (marked ':' components.port ++ if components.slash then [unit '/'] else [])

theorem restText_eq : components.restText = components.frontText ++ components.queryText := by
  simp [restText, tailText, slashText, frontText]

theorem at_outside : unit '@' ∉ components.frontText := by
  have host : unit '@' ∉ components.host := fun inside => (components.host_free _ inside).1 rfl
  have port : unit '@' ∉ marked ':' components.port := by
    refine (not_mem_marked (by decide) _).mpr fun digits named inside => ?_
    have only := components.port_digits digits named
    simp only [onlyDigits, Bool.and_eq_true, List.all_eq_true] at only
    exact absurd (only.2 _ inside) (by decide)
  have slash : unit '@' ∉ if components.slash then [unit '/'] else [] := by
    cases components.slash <;> decide
  simp [frontText, host, port, slash]

theorem authAndRest_none (auth : components.auth = none) (unmarked : components.Unmarked) :
    authAndRest components.compose = (none, components.restText) := by
  obtain ⟨query, fragment⟩ := unmarked auth
  have query := (not_mem_marked (show unit '?' ≠ unit '@' by decide) components.query).mpr query
  have fragment := (not_mem_marked (show unit '#' ≠ unit '@' by decide) components.fragment).mpr
    fragment
  have absent : unit '@' ∉ components.restText := by
    rw [restText_eq, queryText]
    simp [components.at_outside, query, fragment]
  have cut := (splitOnce_eq_none_iff (unit '@') components.restText).mpr absent
  simp [authAndRest, compose, auth, cut]

theorem queryText_of_marked (auth : components.auth = none) (marked_ : ¬ components.Unmarked) :
    ∃ mark rest, components.queryText = mark :: rest ∧ mark ≠ unit '@' ∧
      isWhiteSpace mark = false ∧ unit '@' ∈ rest := by
  have found : (∃ value, components.query = some value ∧ unit '@' ∈ value) ∨
      ∃ value, components.fragment = some value ∧ unit '@' ∈ value := by
    by_contra absent
    simp only [not_or, not_exists, not_and] at absent
    exact marked_ fun _ => absent
  unfold queryText
  cases query : components.query with
  | some value =>
    refine ⟨unit '?', value ++ marked '#' components.fragment, rfl, by decide, by decide, ?_⟩
    obtain ⟨_, named, inside⟩ | ⟨behind, fragment, inside⟩ := found
    · obtain rfl : value = _ := Option.some.inj (query.symm.trans named)
      exact List.mem_append_left _ inside
    · simp [fragment, marked, inside]
  | none =>
    obtain ⟨_, named, -⟩ | ⟨behind, fragment, inside⟩ := found
    · rw [query] at named
      contradiction
    · exact ⟨unit '#', behind, by rw [fragment]; rfl, by decide, by decide, inside⟩

theorem auth_of_marked (auth : components.auth = none) (marked_ : ¬ components.Unmarked) :
    (getIfNotBlank (authAndRest components.compose).1).isSome = true := by
  obtain ⟨mark, rest, query, other, visible, inside⟩ := components.queryText_of_marked auth marked_
  have outside : unit '@' ∉ components.frontText ++ [mark] := by
    simp [components.at_outside, other.symm]
  have whole : components.compose = (components.frontText ++ [mark]) ++ rest := by
    simp [compose, auth, restText_eq, query]
  obtain ⟨parts, cut⟩ := Option.ne_none_iff_exists'.mp fun absent =>
    (splitOnce_eq_none_iff (unit '@') rest).mp absent inside
  have found := splitOnce_append (unit '@') outside rest
  have seen : trim ((components.frontText ++ [mark]) ++ parts.1) ≠ [] :=
    trim_ne_nil (show mark ∈ _ by simp) visible
  rw [authAndRest, whole, found, cut]
  simpa [getIfNotBlank, Option.filter_some] using seen

/-- The parts are found again exactly when nothing has a line terminator and, without credentials,
neither the query nor the fragment has an `@`. -/
theorem foundAgain_iff : components.FoundAgain ↔ components.OneLined ∧ components.Unmarked := by
  have line := components.oneLine_compose
  have rest := components.hostAndTail_restText
  -- the credentials that are found when the marks are where they belong
  have auth (unmarked : components.Unmarked) :
      authAndRest components.compose = (components.auth, components.restText) := by
    cases auth : components.auth with
    | none => exact components.authAndRest_none auth unmarked
    | some value => exact components.authAndRest_some auth
  have filtered : getIfNotBlank components.auth = components.auth := by
    cases auth : components.auth with
    | none => rfl
    | some value =>
      simpa [getIfNotBlank, Option.filter_some] using (components.auth_free value auth).1
  constructor
  · intro found
    have wanted : (components.auth.isSome = true → components.auth.isSome = true) := id
    have parsed := found components.auth.isSome "" wanted
    rw [parseUrlLike_eq] at parsed
    split at parsed
    · rename_i read
      refine ⟨line.mp read.1, ?_⟩
      by_contra marked_
      cases auth : components.auth with
      | some value => exact marked_ fun none_ => by simp [none_] at auth
      | none =>
        have given := components.auth_of_marked auth marked_
        have same : getIfNotBlank (authAndRest components.compose).1 = components.auth :=
          congrArg UrlLikeParts.auth (Except.ok.inj parsed)
        simp [same, auth] at given
    · contradiction
  · rintro ⟨oneLined, unmarked⟩ requireAuth message wanted
    rw [parseUrlLike_eq, auth unmarked, if_pos ⟨line.mpr oneLined, by simpa [filtered] using wanted⟩]
    simp only [filtered, rest]
    rfl

end Components

def openProxy : Components where
  auth := none
  host := text "example.com"
  port := some (text "1080")
  slash := false
  query := none
  fragment := some (text "me@home")
  auth_free value auth := by contradiction
  host_nonempty := by decide
  host_free char inside := by
    have other (mark : CodeUnit) (outside : mark ∉ text "example.com") : char ≠ mark :=
      fun same => outside (same ▸ inside)
    exact ⟨other _ (by decide), other _ (by decide), other _ (by decide), other _ (by decide)⟩
  host_colon inside := absurd inside (by decide)
  port_digits digits named := by
    cases named
    decide
  query_free value query := by contradiction
  fragment_line value fragment := by
    cases fragment
    decide

/-- The name of that proxy gives it credentials and another host. -/
theorem openProxy_not_found : ¬ openProxy.FoundAgain := by
  intro found
  have parsed := found false "" (by decide)
  have auth : authAndRest openProxy.compose = (some (text "example.com:1080#me"), text "home") := by
    decide
  rw [parseUrlLike_eq, auth] at parsed
  split at parsed
  · have parts := congrArg UrlLikeParts.auth (Except.ok.inj parsed)
    exact absurd parts (by decide)
  · contradiction

end ClashVerge.UriParser
