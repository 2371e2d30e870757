import ClashVerge.UriParser.Helpers

/-!
# Where the pattern of a link cuts it

The pattern of `parseUrlLike` is lazy: it takes the shortest credentials, and after them the
shortest host that leaves something that can end a link. So the credentials end at the first `@`,
and the host ends where the rest is a port, a slash, a query and a fragment, each of which may be
missing.
-/

namespace ClashVerge.UriParser

open Backtracking Delimited
open Backtracking.Pattern

structure Tail where
  port : Option Text
  query : Option Text
  fragment : Option Text
deriving DecidableEq, Repr

def fragmentTail : Text → Option (Option Text)
  | [] => some none
  | char :: rest => if char = unit '#' then some (some rest) else none

/-- A query up to the first number sign, and a fragment. -/
def queryTail : Text → Option (Option Text × Option Text)
  | [] => some (none, none)
  | char :: rest =>
    if char = unit '?' then
      let parts := splitOnceText '#' rest
      some (some parts.1, parts.2)
    else (fragmentTail (char :: rest)).map fun fragment => (none, fragment)

def slashTail : Text → Option (Option Text × Option Text)
  | [] => queryTail []
  | char :: rest => if char = unit '/' then queryTail rest else queryTail (char :: rest)

def tailOf : Text → Option Tail
  | [] => some ⟨none, none, none⟩
  | char :: rest =>
    if char = unit ':' then
      if (rest.takeWhile isDigit).isEmpty then none
      else (slashTail (rest.dropWhile isDigit)).map fun parts =>
        ⟨some (rest.takeWhile isDigit), parts.1, parts.2⟩
    else (slashTail (char :: rest)).map fun parts => ⟨none, parts.1, parts.2⟩

/-- The shortest host before the end of a link. -/
def hostAndTail : Text → Text × Tail
  | [] => ([], ⟨none, none, none⟩)
  | char :: rest =>
    match tailOf (char :: rest) with
    | some tail => ([], tail)
    | none => (char :: (hostAndTail rest).1, (hostAndTail rest).2)

/-- The credentials before the first `@`, and what is behind it. -/
def authAndRest (value : Text) : Option Text × Text :=
  match splitOnce (unit '@') value with
  | some (auth, rest) => (some auth, rest)
  | none => (none, value)

def OneLine (value : Text) : Prop := ∀ char ∈ value, isLineTerminator char = false

instance (value : Text) : Decidable (OneLine value) := List.decidableBAll _ value

/-- What a group has captured, if it took part. -/
def captured (name : String) (value : Option Text) : Captures CodeUnit :=
  (value.map fun value => (name, value)).toList

def Tail.captures (tail : Tail) : Captures CodeUnit :=
  captured "fragment" tail.fragment ++ captured "query" tail.query ++ captured "port" tail.port

theorem OneLine.tail {char : CodeUnit} {rest : Text} (oneLine : OneLine (char :: rest)) :
    OneLine rest := fun each listed => oneLine each (List.mem_cons_of_mem _ listed)

theorem OneLine.dot {char : CodeUnit} {rest : Text} (oneLine : OneLine (char :: rest)) :
    isLineTerminator char = false := oneLine char List.mem_cons_self

section

variable {next : Continuation CodeUnit}

/-- A continuation that always accepts the end of the input. -/
def AcceptsEnd (next : Continuation CodeUnit) : Prop := ∀ captures, (next [] captures).isSome = true

theorem run_dots_finish (name : String) {before value : Text} (oneLine : OneLine value)
    (captures : Captures CodeUnit) :
    firstSplit (finish.run next) (fun char => !isLineTerminator char) name captures before value =
      next [] ((name, before ++ value) :: captures) := by
  induction value generalizing before with
  | nil => simp [firstSplit]
  | cons char rest ih =>
    simp [firstSplit, oneLine.dot, ih oneLine.tail]

def fragmentPattern : Pattern CodeUnit :=
  inOrder [.optional (.seq (mark '#') (.group "fragment" lazyDots)), .finish]

def queryPattern : Pattern CodeUnit :=
  .seq (.optional (.seq (mark '?') (.group "query" lazyDots))) fragmentPattern

variable {value : Text}

theorem run_fragment (oneLine : OneLine value) (captures : Captures CodeUnit) :
    fragmentPattern.run next value captures =
      (fragmentTail value).bind fun fragment => next [] (captured "fragment" fragment ++ captures) := by
  cases value with
  | nil => simp [fragmentPattern, inOrder, mark, fragmentTail, captured]
  | cons char rest =>
    rw [fragmentPattern, inOrder, run_seq, mark, run_optional_one]
    by_cases sign : char = unit '#'
    · simp [inOrder, lazyDots, dot, run_group_lazy, run_dots_finish _ oneLine.tail, fragmentTail,
        captured, sign]
    · simp [inOrder, fragmentTail, sign]

theorem firstSplit_query (accepts : AcceptsEnd next) {before value : Text} (oneLine : OneLine value)
    (captures : Captures CodeUnit) :
    firstSplit (fragmentPattern.run next) (fun char => !isLineTerminator char) "query" captures
        before value =
      next [] (captured "fragment" (splitOnceText '#' value).2 ++
        ("query", before ++ (splitOnceText '#' value).1) :: captures) := by
  induction value generalizing before with
  | nil => simp [firstSplit, run_fragment oneLine, fragmentTail, captured, splitOnceText, splitOnce]
  | cons char rest ih =>
    rw [firstSplit, run_fragment oneLine]
    by_cases sign : char = unit '#'
    · obtain ⟨result, is_⟩ := Option.isSome_iff_exists.mp
        (accepts (captured "fragment" (some rest) ++ ("query", before) :: captures))
      simp [fragmentTail, sign, splitOnceText, splitOnce, is_]
    · have split : splitOnceText '#' (char :: rest) =
          (char :: (splitOnceText '#' rest).1, (splitOnceText '#' rest).2) := by
        unfold splitOnceText
        rw [splitOnce, if_neg sign]
        cases splitOnce (unit '#') rest <;> rfl
      have miss : fragmentTail (char :: rest) = none := if_neg sign
      simp [miss, oneLine.dot, ih oneLine.tail, split]

theorem fragmentTail_question (rest : Text) : fragmentTail (unit '?' :: rest) = none := by
  simp [fragmentTail, unit]

theorem run_query (accepts : AcceptsEnd next) (oneLine : OneLine value)
    (captures : Captures CodeUnit) :
    queryPattern.run next value captures =
      (queryTail value).bind fun parts =>
        next [] (captured "fragment" parts.2 ++ captured "query" parts.1 ++ captures) := by
  cases value with
  | nil =>
    rw [queryPattern, run_seq, mark, run_optional_one_nil, run_fragment oneLine]
    simp [queryTail, fragmentTail, captured]
  | cons char rest =>
    rw [queryPattern, run_seq, mark, run_optional_one, run_fragment oneLine]
    by_cases question : char = unit '?'
    · subst question
      simp [fragmentTail_question, lazyDots, dot, run_group_lazy, firstSplit_query accepts oneLine.tail,
        queryTail, captured]
    · simp [queryTail, question, captured, Option.bind_map, Function.comp_def]

def slashPattern : Pattern CodeUnit := .seq (.optional (mark '/')) queryPattern

theorem queryTail_slash (rest : Text) : queryTail (unit '/' :: rest) = none := by
  simp [queryTail, fragmentTail, unit]

theorem run_slash (accepts : AcceptsEnd next) (oneLine : OneLine value)
    (captures : Captures CodeUnit) :
    slashPattern.run next value captures =
      (slashTail value).bind fun parts =>
        next [] (captured "fragment" parts.2 ++ captured "query" parts.1 ++ captures) := by
  cases value with
  | nil => simp [slashPattern, run_optional, mark, run_query accepts oneLine, slashTail]
  | cons char rest =>
    rw [slashPattern, run_seq, mark, run_optional_symbol, run_query accepts oneLine]
    by_cases slash : char = unit '/'
    · subst slash
      simp [queryTail_slash, run_query accepts oneLine.tail, slashTail]
    · simp [slash, slashTail]

theorem run_slash_digit {char : CodeUnit} (digit : isDigit char = true) (rest : Text)
    (captures : Captures CodeUnit) : slashPattern.run next (char :: rest) captures = none := by
  have other (mark : Char) (outside : isDigit (unit mark) = false) : char ≠ unit mark := by
    rintro rfl
    rw [outside] at digit
    contradiction
  simp [slashPattern, queryPattern, fragmentPattern, inOrder, mark, run_optional_symbol,
    run_optional_one, other '/' (by decide), other '?' (by decide), other '#' (by decide)]

theorem slashTail_colon (rest : Text) : slashTail (unit ':' :: rest) = none := by
  simp [slashTail, queryTail, fragmentTail, unit]

theorem take_length_sub (front back : Text) :
    (front ++ back).take ((front ++ back).length - back.length) = front := by
  simp

section

variable (accepts : AcceptsEnd next)
include accepts

theorem run_port (oneLine : OneLine value) (captures : Captures CodeUnit) :
    (group "port" digits).run (slashPattern.run next) value captures =
      if (value.takeWhile isDigit).isEmpty then none
      else (slashTail (value.dropWhile isDigit)).bind fun parts =>
        next [] (captured "fragment" parts.2 ++ captured "query" parts.1 ++
          ("port", value.takeWhile isDigit) :: captures) := by
  cases value with
  | nil => rfl
  | cons char rest =>
    rw [run_group, digits, plus, run_seq, run_one_cons]
    cases digit : isDigit char with
    | false => simp [digit]
    | true =>
      have left : OneLine (rest.dropWhile isDigit) := fun each listed =>
        oneLine.tail each ((List.dropWhile_sublist isDigit).mem listed)
      have taken : (char :: rest).take ((char :: rest).length - (rest.dropWhile isDigit).length) =
          char :: rest.takeWhile isDigit := by
        have front := take_length_sub (char :: rest.takeWhile isDigit) (rest.dropWhile isDigit)
        rwa [List.cons_append, List.takeWhile_append_dropWhile] at front
      rw [if_pos rfl, run_greedy_all]
      · rw [run_slash accepts left, taken]
        simp [digit]
      · exact fun symbol behind inner digit => run_slash_digit digit behind _

theorem run_tail (oneLine : OneLine value) (captures : Captures CodeUnit) :
    urlLikeTail.run next value captures =
      (tailOf value).bind fun tail => next [] (tail.captures ++ captures) := by
  have same : urlLikeTail.run next =
      (optional (seq (mark ':') (group "port" digits))).run (slashPattern.run next) := rfl
  rw [same]
  cases value with
  | nil =>
    rw [mark, run_optional_one_nil, run_slash accepts oneLine]
    simp [slashTail, queryTail, tailOf, Tail.captures, captured]
  | cons char rest =>
    rw [mark, run_optional_one, run_slash accepts oneLine, run_port accepts oneLine.tail]
    by_cases colon : char = unit ':'
    · subst colon
      by_cases none_ : (rest.takeWhile isDigit).isEmpty
      · simp [slashTail_colon, tailOf, none_]
      · simp [slashTail_colon, tailOf, none_, Option.bind_map, Function.comp_def, Tail.captures,
          captured]
    · simp [colon, tailOf, Option.bind_map, Function.comp_def, Tail.captures, captured]

theorem firstSplit_host {before value : Text} (oneLine : OneLine value)
    (captures : Captures CodeUnit) :
    firstSplit (urlLikeTail.run next) (fun char => !isLineTerminator char) "host" captures before
        value =
      next [] ((hostAndTail value).2.captures ++
        ("host", before ++ (hostAndTail value).1) :: captures) := by
  induction value generalizing before with
  | nil => simp [firstSplit, run_tail accepts oneLine, tailOf, hostAndTail, Tail.captures, captured]
  | cons char rest ih =>
    rw [firstSplit, run_tail accepts oneLine, hostAndTail]
    cases ends : tailOf (char :: rest) with
    | none => simp [oneLine.dot, ih oneLine.tail]
    | some tail =>
      obtain ⟨result, is_⟩ := Option.isSome_iff_exists.mp
        (accepts (tail.captures ++ ("host", before) :: captures))
      simp [is_]

theorem run_host (oneLine : OneLine value) (captures : Captures CodeUnit) :
    urlLikeHost.run next value captures =
      next [] ((hostAndTail value).2.captures ++ ("host", (hostAndTail value).1) :: captures) := by
  rw [urlLikeHost, run_seq, lazyDots, dot, run_group_lazy]
  exact firstSplit_host accepts oneLine captures

end

theorem firstSplit_mark (symbol : Char) (name : String)
    (goes : ∀ rest captures, OneLine rest → (next rest captures).isSome = true)
    (before : Text) (oneLine : OneLine value) (captures : Captures CodeUnit) :
    firstSplit ((mark symbol).run next) (fun char => !isLineTerminator char) name captures before
        value =
      (splitOnce (unit symbol) value).bind fun parts =>
        next parts.2 ((name, before ++ parts.1) :: captures) := by
  induction value generalizing before with
  | nil => simp [firstSplit, mark, splitOnce]
  | cons char rest ih =>
    rw [firstSplit, splitOnce, mark, run_one_cons]
    by_cases same : char = unit symbol
    · obtain ⟨result, is_⟩ := Option.isSome_iff_exists.mp
        (goes rest ((name, before) :: captures) oneLine.tail)
      simp [same, is_]
    · have later := ih (before ++ [char]) oneLine.tail
      rw [mark] at later
      simp [same, oneLine.dot, later, Option.bind_map, Function.comp_def]

theorem agree_mark (char : Char) (value : Text) (next : Continuation CodeUnit) :
    Agree value ((mark char).run (consumed value next)) ((mark char).run next) := by
  intro rest captures shorter
  cases rest with
  | nil => rfl
  | cons first behind =>
    rw [mark, run_one_cons, run_one_cons, consumed, if_pos (Nat.lt_of_succ_le shorter)]

theorem splitOnce_oneLine {delimiter : CodeUnit} {value before behind : Text}
    (oneLine : OneLine value) (cut : splitOnce delimiter value = some (before, behind)) :
    OneLine behind := by
  obtain ⟨rfl, -⟩ := (splitOnce_eq_some_iff ..).mp cut
  exact fun char listed => oneLine char (List.mem_append_right _ (List.mem_cons_of_mem _ listed))

theorem run_urlLike (accepts : AcceptsEnd next) (oneLine : OneLine value)
    (captures : Captures CodeUnit) :
    urlLikeRe.run next value captures =
      next [] ((hostAndTail (authAndRest value).2).2.captures ++
        ("host", (hostAndTail (authAndRest value).2).1) ::
          (captured "auth" (authAndRest value).1 ++ captures)) := by
  have goes (rest : Text) (inner : Captures CodeUnit) (clear : OneLine rest) :
      (urlLikeHost.run next rest inner).isSome = true := by
    rw [run_host accepts clear]
    exact accepts _
  rw [urlLikeRe, run_seq, run_optional, run_seq, run_congr _ (agree_mark '@' value _), lazyDots, dot,
    run_group_lazy, firstSplit_mark '@' "auth" goes [] oneLine]
  cases cut : splitOnce (unit '@') value with
  | none => simp [authAndRest, cut, run_host accepts oneLine, captured]
  | some parts =>
    have clear : OneLine parts.2 := splitOnce_oneLine oneLine cut
    obtain ⟨result, is_⟩ := Option.isSome_iff_exists.mp
      (goes parts.2 (("auth", parts.1) :: captures) clear)
    have found := run_host accepts clear (("auth", parts.1) :: captures)
    simp only [authAndRest, cut, Option.bind_some, List.nil_append, captured, Option.map_some,
      Option.toList_some, List.singleton_append]
    rw [← found, is_]
    rfl

end

/-! ## Links of more than one line -/

theorem avoids_mark {char : Char} (clear : isLineTerminator (unit char) = false) :
    (mark char).Avoids isLineTerminator := by
  intro symbol ends
  by_contra accepted
  have same : symbol = unit char := by simpa using accepted
  rw [same, clear] at ends
  contradiction

theorem avoids_lazyDots : lazyDots.Avoids isLineTerminator := by
  intro symbol ends
  simp [ends]

theorem avoids_digits : digits.Avoids isLineTerminator := by
  have digit (symbol : CodeUnit) (ends : isLineTerminator symbol = true) :
      isDigit symbol = false := by
    obtain ((rfl | rfl) | rfl) | rfl :
        ((symbol = 0x0A ∨ symbol = 0x0D) ∨ symbol = 0x2028) ∨ symbol = 0x2029 := by
      simpa [isLineTerminator] using ends
    all_goals decide
  exact ⟨digit, digit⟩

theorem blocks_urlLike (next : Continuation CodeUnit) :
    Blocks isLineTerminator (urlLikeRe.run next) := by
  have colon : (mark ':').Avoids isLineTerminator := avoids_mark (by decide)
  have question : (mark '?').Avoids isLineTerminator := avoids_mark (by decide)
  have sign : (mark '#').Avoids isLineTerminator := avoids_mark (by decide)
  have fragment := (show (Pattern.optional (.seq (mark '#') (.group "fragment" lazyDots))).Avoids
    isLineTerminator from ⟨sign, avoids_lazyDots⟩).blocks (blocks_finish next)
  have query := (show (Pattern.optional (.seq (mark '?') (.group "query" lazyDots))).Avoids
    isLineTerminator from ⟨question, avoids_lazyDots⟩).blocks fragment
  have slash := (show (Pattern.optional (mark '/')).Avoids isLineTerminator from
    avoids_mark (by decide)).blocks query
  have port := (show (Pattern.optional (.seq (mark ':') (.group "port" digits))).Avoids
    isLineTerminator from ⟨colon, avoids_digits⟩).blocks slash
  have host := (show (Pattern.group "host" lazyDots).Avoids isLineTerminator from
    avoids_lazyDots).blocks port
  exact (show (Pattern.optional (.seq (.group "auth" lazyDots) (mark '@'))).Avoids isLineTerminator
    from ⟨avoids_lazyDots, avoids_mark (by decide)⟩).blocks host

theorem urlLikeRe_exec (value : Text) : urlLikeRe.exec value =
      if OneLine value then some (("0", value) :: ((hostAndTail (authAndRest value).2).2.captures ++
        ("host", (hostAndTail (authAndRest value).2).1) :: captured "auth" (authAndRest value).1))
      else none := by
  rw [Pattern.exec, run_group]
  split
  · rename_i oneLine
    rw [run_urlLike (fun _ => rfl) oneLine]
    simp
  · rename_i lines
    refine blocks_urlLike _ value [] ?_
    simpa [OneLine] using lines

/-! ## The parts -/

def linkCaptures (value : Text) (auth : Option Text) (host : Text) (tail : Tail) :
    Captures CodeUnit :=
  ("0", value) :: (tail.captures ++ ("host", host) :: captured "auth" auth)

theorem lookup_linkCaptures (value : Text) (auth : Option Text) (host : Text) (tail : Tail) :
    (linkCaptures value auth host tail).lookup "host" = some host ∧
      (linkCaptures value auth host tail).lookup "auth" = auth ∧
      (linkCaptures value auth host tail).lookup "port" = tail.port ∧
      (linkCaptures value auth host tail).lookup "query" = tail.query ∧
      (linkCaptures value auth host tail).lookup "fragment" = tail.fragment := by
  obtain ⟨port, query, fragment⟩ := tail
  cases auth <;> cases port <;> cases query <;> cases fragment <;>
    exact ⟨rfl, rfl, rfl, rfl, rfl⟩

theorem parseUrlLike_eq (value : Text) (requireAuth : Bool) (errorMessage : String) :
    parseUrlLike value requireAuth errorMessage =
      if OneLine value ∧
          (requireAuth = true → (getIfNotBlank (authAndRest value).1).isSome = true) then
        .ok ⟨getIfNotBlank (authAndRest value).1,
          normalizeHost (hostAndTail (authAndRest value).2).1,
          (hostAndTail (authAndRest value).2).2.port, (hostAndTail (authAndRest value).2).2.query,
          (hostAndTail (authAndRest value).2).2.fragment⟩
      else fails errorMessage := by
  unfold parseUrlLike
  rw [urlLikeRe_exec]
  by_cases oneLine : OneLine value
  · obtain ⟨host, auth, port, query, fragment⟩ := lookup_linkCaptures value (authAndRest value).1
      (hostAndTail (authAndRest value).2).1 (hostAndTail (authAndRest value).2).2
    rw [linkCaptures] at host auth port query fragment
    simp only [oneLine, if_true, true_and, host, auth, port, query, fragment]
    cases requireAuth <;> cases getIfNotBlank (authAndRest value).1 <;> rfl
  · simp [oneLine]

/-! ## Hosts and ports -/

/-- What is behind the credentials has no host, or a host of brackets around nothing. -/
def Hostless (rest : Text) : Prop :=
  (tailOf rest).isSome = true ∨
    ∃ behind, rest = unit '[' :: unit ']' :: behind ∧ (tailOf behind).isSome = true

/-- What is behind the credentials has a port that is none. -/
def BadPort (rest : Text) : Prop :=
  ∃ digits, (hostAndTail rest).2.port = some digits ∧
    ¬ (1 ≤ digitsValue digits ∧ digitsValue digits ≤ 65535)

theorem hostAndTail_nil_iff (rest : Text) :
    (hostAndTail rest).1 = [] ↔ (tailOf rest).isSome = true := by
  cases rest with
  | nil => simp [hostAndTail, tailOf]
  | cons char behind =>
    rw [hostAndTail]
    cases tailOf (char :: behind) <;> simp

theorem hostAndTail_cons_iff (first : CodeUnit) (others rest : Text) :
    (hostAndTail rest).1 = first :: others ↔
      ∃ behind, rest = first :: behind ∧ (tailOf rest).isSome = false ∧
        (hostAndTail behind).1 = others := by
  cases rest with
  | nil => simp [hostAndTail]
  | cons char behind =>
    rw [hostAndTail]
    cases tailOf (char :: behind) with
    | none =>
      simp only [List.cons.injEq, Option.isSome_none, true_and]
      constructor
      · rintro ⟨rfl, rfl⟩
        exact ⟨behind, ⟨rfl, rfl⟩, rfl⟩
      · rintro ⟨_, ⟨rfl, rfl⟩, rfl⟩
        exact ⟨rfl, rfl⟩
    | some tail => simp

theorem normalizeHost_nil_iff (host : Text) :
    normalizeHost host = [] ↔ host = [] ∨ host = [unit '[', unit ']'] := by
  unfold normalizeHost
  split
  · rename_i bracketed
    obtain ⟨opens, closes⟩ := bracketed
    cases host with
    | nil => simp
    | cons first others =>
      obtain rfl : first = unit '[' := by simpa using opens
      cases others with
      | nil => exact absurd closes (by decide)
      | cons second rest =>
        cases rest with
        | nil =>
          obtain rfl : second = unit ']' := by simpa using closes
          simp
        | cons third more => simp
  · rename_i plain
    refine ⟨.inl, ?_⟩
    rintro (rfl | rfl)
    · rfl
    · exact absurd (by decide) plain

theorem tailOf_bracket (rest : Text) :
    tailOf (unit '[' :: rest) = none ∧ tailOf (unit ']' :: rest) = none := by
  constructor <;> simp [tailOf, slashTail, queryTail, fragmentTail, unit]

theorem normalizeHost_hostAndTail (rest : Text) :
    normalizeHost (hostAndTail rest).1 = [] ↔ Hostless rest := by
  rw [normalizeHost_nil_iff, hostAndTail_nil_iff, Hostless, hostAndTail_cons_iff]
  refine or_congr_right ?_
  constructor
  · rintro ⟨behind, rfl, -, closes⟩
    obtain ⟨last, rfl, -, ends⟩ := (hostAndTail_cons_iff ..).mp closes
    exact ⟨last, rfl, (hostAndTail_nil_iff last).mp ends⟩
  · rintro ⟨last, rfl, ends⟩
    refine ⟨unit ']' :: last, rfl, by rw [(tailOf_bracket _).1]; rfl, ?_⟩
    exact (hostAndTail_cons_iff ..).mpr
      ⟨last, rfl, by rw [(tailOf_bracket _).2]; rfl, (hostAndTail_nil_iff last).mpr ends⟩

theorem tailOf_port {rest : Text} {tail : Tail} (ends : tailOf rest = some tail) {port : Text}
    (named : tail.port = some port) : onlyDigits port = true := by
  cases rest with
  | nil =>
    cases ends
    contradiction
  | cons char behind =>
    rw [tailOf] at ends
    split at ends
    · split at ends
      · contradiction
      · rename_i nonempty
        obtain ⟨parts, -, rfl⟩ := Option.map_eq_some_iff.mp ends
        cases named
        simp [onlyDigits, List.all_takeWhile, nonempty]
    · obtain ⟨parts, -, rfl⟩ := Option.map_eq_some_iff.mp ends
      contradiction

theorem hostAndTail_port {rest port : Text} (named : (hostAndTail rest).2.port = some port) :
    onlyDigits port = true := by
  induction rest with
  | nil => simp [hostAndTail] at named
  | cons char behind ih =>
    rw [hostAndTail] at named
    cases ends : tailOf (char :: behind) with rw [ends] at named
    | none =>
      exact ih named
    | some tail =>
      exact tailOf_port ends named

theorem digit_other {char : CodeUnit} (digit : isDigit char = true) :
    isWhiteSpace char = false ∧ char ≠ unit '-' ∧ char ≠ unit '+' := by
  have bounds : 48 ≤ char.toNat ∧ char.toNat ≤ 57 := by
    simpa [isDigit, unit, UInt16.le_iff_toNat_le] using digit
  simp only [isWhiteSpace, isLineTerminator, unit, UInt16.le_iff_toNat_le, ← UInt16.toNat_inj,
    ne_eq, Bool.or_eq_false_iff, Bool.and_eq_false_iff, decide_eq_false_iff_not, beq_eq_false_iff_ne]
  simp
  omega

theorem parseInt_digits (platform : Platform) {digits : Text} (only : onlyDigits digits = true) :
    parseInt platform digits = some (platform.ofInt (digitsValue digits)) := by
  cases digits with
  | nil => contradiction
  | cons first rest =>
    have all : (first :: rest).all isDigit = true := by simpa [onlyDigits] using only
    obtain ⟨space, minus, plus⟩ := digit_other (List.all_eq_true.mp all first List.mem_cons_self)
    have whole : (first :: rest).takeWhile isDigit = first :: rest :=
      List.takeWhile_eq_self_iff.mpr (List.all_eq_true.mp all)
    simp [parseInt, space, minus, plus, whole]

theorem parsePortOrDefault_valid (platform : Platform) (rest : Text) :
    (∃ port : Int, parsePortOrDefault platform (hostAndTail rest).2.port 443 = .integer port ∧
      1 ≤ port ∧ port ≤ 65535) ↔ ¬ BadPort rest := by
  unfold BadPort parsePortOrDefault parseInteger
  cases named : (hostAndTail rest).2.port with
  | none => simp
  | some digits =>
    rw [Option.bind_some, parseInt_digits platform (hostAndTail_port named), Option.getD_some,
      Platform.ofInt]
    simp only [Option.some.injEq, exists_eq_left', not_not]
    split
    · constructor
      · rintro ⟨port, same, least, most⟩
        obtain rfl := Number.integer.inj same
        omega
      · rintro ⟨least, most⟩
        exact ⟨_, rfl, by omega, by omega⟩
    · rename_i large
      constructor
      · rintro ⟨port, same, -⟩
        contradiction
      · rintro ⟨-, most⟩
        omega

end ClashVerge.UriParser
