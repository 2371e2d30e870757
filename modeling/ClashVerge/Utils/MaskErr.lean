import Mathlib.Data.List.TakeWhile
import ClashVerge.Utils.MaskUrl

/-!
# Masking the URLs of a log string

`mask_err` copies a log string and masks what it takes for a URL: from a scheme up to a white space,
a closing bracket or a quote. These characters may also stand inside a URL; what comes behind is
then read as text, and a query value or a long segment there is copied.
-/

namespace ClashVerge.Utils

open ClashVerge.Enhance

/-- The characters that `mask_err` ends a URL at: a closing bracket, a quote or a white space. -/
def isTerminator (char : Char) : Bool :=
  isWhitespace char || [')', ']', '\u0022', '\u0027'].contains char

def earlier : Option Nat → Option Nat → Option Nat
  | none, none => none
  | some position, none | none, some position => some position
  | some first, some second => some (min first second)

/-- `start` in `mask_err`. -/
def start (remaining : List Char) : Option Nat :=
  earlier (find "http://".toList remaining) (find "https://".toList remaining)

/-- One of the two schemes stands at the front. -/
def startsUrl (text : List Char) : Bool :=
  "http://".toList.isPrefixOf text || "https://".toList.isPrefixOf text

theorem find_cons (pattern : List Char) (char : Char) (rest : List Char) :
    find pattern (char :: rest) =
      if pattern.isPrefixOf (char :: rest) then some 0 else (find pattern rest).map (· + 1) := rfl

theorem earlier_cons (first second : List Char) (char : Char) (rest : List Char) :
    earlier (find first (char :: rest)) (find second (char :: rest)) =
      if first.isPrefixOf (char :: rest) || second.isPrefixOf (char :: rest) then some 0
      else (earlier (find first rest) (find second rest)).map (· + 1) := by
  rw [find_cons, find_cons]
  cases first.isPrefixOf (char :: rest) <;> cases second.isPrefixOf (char :: rest) <;>
    cases find first rest <;> cases find second rest <;> simp [earlier]

theorem start_nil : start [] = none := rfl

theorem start_cons (char : Char) (rest : List Char) :
    start (char :: rest) = if startsUrl (char :: rest) then some 0 else (start rest).map (· + 1) :=
  earlier_cons ..

theorem startsUrl_of_start {text : List Char} {position : Nat} (found : start text = some position) :
    position < text.length ∧ startsUrl (text.drop position) = true := by
  induction text generalizing position with
  | nil => simp [start_nil] at found
  | cons char rest ih =>
    rw [start_cons] at found
    split at found
    · next here =>
      cases found
      exact ⟨by simp, here⟩
    · obtain ⟨later, foundLater, rfl⟩ := Option.map_eq_some_iff.mp found
      obtain ⟨inside, here⟩ := ih foundLater
      exact ⟨by simpa using inside, by simpa using here⟩

theorem head_of_startsUrl {text : List Char} (starts : startsUrl text = true) :
    ∃ rest, text = 'h' :: rest := by
  rw [startsUrl, Bool.or_eq_true, List.isPrefixOf_iff_prefix, List.isPrefixOf_iff_prefix] at starts
  obtain ⟨rest, rfl⟩ | ⟨rest, rfl⟩ := starts
  · exact ⟨_, rfl⟩
  · exact ⟨_, rfl⟩

theorem dropWhile_shorter {text : List Char} (starts : startsUrl text = true) :
    (text.dropWhile fun char => !isTerminator char).length < text.length := by
  obtain ⟨rest, rfl⟩ := head_of_startsUrl starts
  have letter : isTerminator 'h' = false := by decide
  rw [List.dropWhile_cons_of_pos (by simp [letter]), List.length_cons]
  exact Nat.lt_succ_of_le (List.dropWhile_sublist _).length_le

/-- `mask_err`. Every round takes at least the scheme off. -/
def maskErr (remaining : List Char) : List Char :=
  match _found : start remaining with
  | none => remaining
  | some position =>
    remaining.take position ++
      maskUrl ((remaining.drop position).takeWhile fun char => !isTerminator char) ++
      maskErr ((remaining.drop position).dropWhile fun char => !isTerminator char)
termination_by remaining.length
decreasing_by
  obtain ⟨-, starts⟩ := startsUrl_of_start _found
  refine Nat.lt_of_lt_of_le (dropWhile_shorter starts) ?_
  simp

theorem maskErr_of_none {text : List Char} (plain : start text = none) : maskErr text = text := by
  rw [maskErr]
  split
  · rfl
  · next found => rw [plain] at found; cases found

theorem maskErr_of_some {text : List Char} {position : Nat} (found : start text = some position) :
    maskErr text = text.take position ++
      maskUrl ((text.drop position).takeWhile fun char => !isTerminator char) ++
      maskErr ((text.drop position).dropWhile fun char => !isTerminator char) := by
  rw [maskErr]
  split
  · next plain => rw [plain] at found; cases found
  · next position_ found_ =>
    obtain rfl : position_ = position := Option.some.inj (found_.symm.trans found)
    rfl

/-! ## Text and terminators -/

/-- The text does not go on with a later character of a scheme. -/
def Apart (text : List Char) : Prop := ∀ char ∈ text.head?, char ∉ "tps:/".toList

def Terminated (text : List Char) : Prop := ∀ char ∈ text.head?, isTerminator char = true

theorem Terminated.apart {text : List Char} (terminated : Terminated text) : Apart text := by
  intro char head member
  have letters : ∀ letter ∈ "tps:/".toList, isTerminator letter = false :=
    List.forall_mem_cons.mpr ⟨rfl, List.forall_mem_cons.mpr ⟨rfl, List.forall_mem_cons.mpr ⟨rfl,
      List.forall_mem_cons.mpr ⟨rfl, List.forall_mem_cons.mpr ⟨rfl, by simp⟩⟩⟩⟩⟩
  exact absurd (terminated char head) (by simp [letters char member])

theorem isPrefixOf_append {pattern first rest : List Char} (nonempty : first ≠ [])
    (apart : ∀ char ∈ rest.head?, char ∉ pattern.tail) :
    pattern.isPrefixOf (first ++ rest) = pattern.isPrefixOf first := by
  rw [Bool.eq_iff_iff, List.isPrefixOf_iff_prefix, List.isPrefixOf_iff_prefix]
  constructor
  · intro crossing
    obtain inside | outside := Nat.le_total pattern.length first.length
    · exact List.prefix_of_prefix_length_le crossing (List.prefix_append ..) inside
    · obtain ⟨back, rfl⟩ := List.prefix_of_prefix_length_le (List.prefix_append ..) crossing outside
      rw [List.prefix_append_right_inj] at crossing
      cases back with
      | nil => simp
      | cons char others =>
        obtain ⟨last, rfl⟩ := crossing
        cases first with
        | nil => contradiction
        | cons front firsts => exact absurd (List.mem_append_right firsts List.mem_cons_self) (apart char rfl)
  · exact fun inside => inside.trans (List.prefix_append ..)

theorem startsUrl_append {first rest : List Char} (nonempty : first ≠ []) (apart : Apart rest) :
    startsUrl (first ++ rest) = startsUrl first := by
  unfold startsUrl
  rw [isPrefixOf_append nonempty, isPrefixOf_append nonempty]
  · intro char head member
    exact apart char head (by revert member; simp)
  · intro char head member
    exact apart char head (by revert member; simp; tauto)

theorem start_append (first : List Char) {rest : List Char} (apart : Apart rest) :
    start (first ++ rest) = (start first).or ((start rest).map (· + first.length)) := by
  induction first with
  | nil => cases found : start rest <;> simp [start_nil, found]
  | cons char others ih =>
    rw [List.cons_append, start_cons, start_cons, ← List.cons_append,
      startsUrl_append (by simp) apart, ih]
    split
    · rfl
    · cases start others <;> cases start rest <;> simp [Nat.add_assoc]

theorem maskErr_plain_append {first rest : List Char} (plain : start first = none)
    (apart : Apart rest) : maskErr (first ++ rest) = first ++ maskErr rest := by
  have found := start_append first apart
  rw [plain, Option.none_or] at found
  cases here : start rest with rw [here] at found
  | none =>
    rw [maskErr_of_none found, maskErr_of_none here]
  | some position =>
    have whole : first.take (position + first.length) = first := List.take_of_length_le (by omega)
    have gone : first.drop (position + first.length) = [] := List.drop_of_length_le (by omega)
    rw [maskErr_of_some found, maskErr_of_some here]
    simp [List.take_append, List.drop_append, whole, gone]

theorem splitEnd_append (back : List Char) {rest : List Char} (terminated : Terminated rest) :
    ((back ++ rest).takeWhile fun char => !isTerminator char) =
        (back.takeWhile fun char => !isTerminator char) ∧
      ((back ++ rest).dropWhile fun char => !isTerminator char) =
        (back.dropWhile fun char => !isTerminator char) ++ rest := by
  induction back with
  | nil =>
    cases rest with
    | nil => simp
    | cons char others =>
      have ends := terminated char rfl
      simp [ends]
  | cons char others ih =>
    cases ends : isTerminator char with
    | true => simp [ends]
    | false => simpa [ends] using ih

/-- What follows a terminator is masked on its own. The induction is on the length of what comes
    before it, which every URL in it shortens. -/
theorem maskErr_append (first : List Char) {rest : List Char} (terminated : Terminated rest) :
    maskErr (first ++ rest) = maskErr first ++ maskErr rest := by
  induction size : first.length using Nat.strongRecOn generalizing first with
  | ind length ih =>
    cases here : start first with
    | none => rw [maskErr_plain_append here terminated.apart, maskErr_of_none here]
    | some position =>
      obtain ⟨inside, starts⟩ := startsUrl_of_start here
      have found : start (first ++ rest) = some position := by
        rw [start_append first terminated.apart, here, Option.some_or]
      have shorter := dropWhile_shorter starts
      rw [List.length_drop] at shorter
      obtain ⟨url, behind⟩ := splitEnd_append (first.drop position) terminated
      rw [maskErr_of_some found, maskErr_of_some here, List.take_append_of_le_length (Nat.le_of_lt inside),
        List.drop_append_of_le_length (Nat.le_of_lt inside), url, behind,
        ih _ (by omega) _ rfl, List.append_assoc, List.append_assoc,
        List.append_assoc]

/-! ## Log strings -/

/-- A URL and the text behind it, which has no scheme and which the URL does not run into. -/
structure Entry where
  url : Url
  after : List Char
  plain : start after = none
  terminated : Terminated after

/-- A log string with its URLs. Only the last of them may end the string. -/
structure Log where
  opening : List Char
  entries : List Entry
  plain : start opening = none
  between : ∀ entry ∈ entries.dropLast, entry.after ≠ []

/-- The string that shows each URL in some way. -/
def Log.assemble (log : Log) (shown : Url → List Char) : List Char :=
  log.opening ++ log.entries.flatMap fun entry => shown entry.url ++ entry.after

def Log.text (log : Log) : List Char := log.assemble Url.text

def Log.urls (log : Log) : List Url := log.entries.map Entry.url

theorem text_head (url : Url) (rest : List Char) : (url.text ++ rest).head? = some 'h' := by
  unfold Url.text Url.scheme
  cases url.secure <;> rfl

theorem entries_apart (entries : List Entry) (shown : Url → List Char)
    (begins : ∀ url rest, (shown url ++ rest).head? = some 'h') :
    Apart (entries.flatMap fun entry => shown entry.url ++ entry.after) := by
  intro char head
  cases entries with
  | nil => simp at head
  | cons entry rest =>
    rw [List.flatMap_cons, List.append_assoc, begins] at head
    obtain rfl : 'h' = char := by simpa using head
    decide

theorem maskErr_text (log : Log) : maskErr log.text = log.assemble fun url => maskErr url.text := by
  have entries_ (entries : List Entry) (between : ∀ entry ∈ entries.dropLast, entry.after ≠ []) :
      maskErr (entries.flatMap fun entry => entry.url.text ++ entry.after) =
        entries.flatMap fun entry => maskErr entry.url.text ++ entry.after := by
    induction entries with
    | nil => exact maskErr_of_none start_nil
    | cons entry rest ih =>
      have apart := entries_apart rest Url.text text_head
      have terminated : Terminated
          (entry.after ++ rest.flatMap fun later => later.url.text ++ later.after) := by
        cases after : entry.after with
        | nil =>
          cases rest with
          | nil => simp [Terminated]
          | cons later others => exact absurd after (between entry (by simp))
        | cons char others =>
          have ends := entry.terminated
          rw [after] at ends
          exact ends
      rw [List.flatMap_cons, List.append_assoc, maskErr_append _ terminated,
        maskErr_plain_append entry.plain apart, ih, List.flatMap_cons,
        List.append_assoc]
      intro later member
      refine between later ?_
      cases rest with
      | nil => simp at member
      | cons next others => exact List.mem_cons_of_mem _ member
  rw [Log.text, Log.assemble, maskErr_plain_append log.plain (entries_apart _ _ text_head),
    entries_ log.entries log.between]
  rfl

/-! ## Parts that end a URL too early -/

inductive Part where
  | authority (segment : Segment)
  | segment (segment : Segment)
  | param (param : Param)

def Part.text : Part → List Char
  | .authority host => host.text
  | .segment piece => piece.text
  | .param pair => pair.text

def Part.Public : Part → Prop
  | .authority _ => True
  | .segment piece => piece.hide = piece
  | .param pair => pair.hide = pair

def Clear (text : List Char) : Prop := ∀ char ∈ text, isTerminator char = false

instance (text : List Char) : Decidable (Clear text) :=
  List.decidableBAll (fun char => isTerminator char = false) text

namespace Url

variable (url : Url)

def parts : List Part :=
  .authority url.authority :: url.segments.map .segment ++ url.query.map .param

/-- From the first part that contains a terminator on, no part has anything to hide. -/
def Contained : Prop :=
  ∀ part ∈ url.parts.dropWhile (fun part => decide (Clear part.text)), part.Public

/-- The URL has a further scheme behind a terminator. -/
def Nested : Prop := start (url.text.dropWhile fun char => !isTerminator char) ≠ none

end Url

theorem exists_terminator {text : List Char} (dirty : ¬Clear text) :
    ∃ before char after, text = before ++ char :: after ∧ Clear before ∧
      isTerminator char = true := by
  induction text with
  | nil => exact absurd (by simp [Clear]) dirty
  | cons first rest ih =>
    cases ends : isTerminator first with
    | true => exact ⟨[], first, rest, rfl, by simp [Clear], ends⟩
    | false =>
      have dirtyRest : ¬Clear rest := fun clear =>
        dirty (List.forall_mem_cons.mpr ⟨ends, clear⟩)
      obtain ⟨before, char, after, rfl, clear, terminator⟩ := ih dirtyRest
      exact ⟨first :: before, char, after, rfl, List.forall_mem_cons.mpr ⟨ends, clear⟩, terminator⟩

theorem append_cancel {stop : Char → Bool} {first second restFirst restSecond : List Char}
    (firstClean : ∀ char ∈ first, stop char = false) (secondClean : ∀ char ∈ second, stop char = false)
    (firstStops : ∀ char ∈ restFirst.head?, stop char = true)
    (secondStops : ∀ char ∈ restSecond.head?, stop char = true)
    (same : first ++ restFirst = second ++ restSecond) :
    first = second ∧ restFirst = restSecond := by
  induction first generalizing second with
  | nil =>
    cases second with
    | nil => exact ⟨rfl, same⟩
    | cons char others =>
      have stops := firstStops char (by rw [List.nil_append] at same; simp [same])
      rw [secondClean char (by simp)] at stops
      cases stops
  | cons char others ih =>
    cases second with
    | nil =>
      have stops := secondStops char (by rw [List.nil_append] at same; simp [← same])
      rw [firstClean char (by simp)] at stops
      cases stops
    | cons char_ others_ =>
      rw [List.cons_append, List.cons_append, List.cons.injEq] at same
      obtain ⟨rfl, same⟩ := same
      rw [List.forall_mem_cons] at firstClean secondClean
      obtain ⟨rfl, rest⟩ := ih firstClean.2 secondClean.2 same
      exact ⟨rfl, rest⟩

theorem segment_cancel {first second : Segment} {restFirst restSecond : List Char}
    (firstStops : ∀ char ∈ restFirst.head?, char = '/' ∨ char = '?')
    (secondStops : ∀ char ∈ restSecond.head?, char = '/' ∨ char = '?')
    (same : first.text ++ restFirst = second.text ++ restSecond) :
    first = second ∧ restFirst = restSecond := by
  have clean (segment : Segment) : ∀ char ∈ segment.text, (char == '/' || char == '?') = false := by
    intro char member
    have clean := segment.clean char member
    simp [clean.1, clean.2.1]
  obtain ⟨text, rest⟩ := append_cancel (clean first) (clean second)
    (fun char head => by simpa using firstStops char head)
    (fun char head => by simpa using secondStops char head) same
  exact ⟨Segment.ext text, rest⟩

theorem param_text_clean (param : Param) : ∀ char ∈ param.text, (char == '&') = false := by
  intro char member
  unfold Param.text at member
  cases value : param.value with rw [value] at member
  | none =>
    simpa using (param.nameClean char member).1
  | some text =>
    simp only [List.mem_append, List.mem_cons] at member
    obtain name | rfl | value_ := member
    · simpa using (param.nameClean char name).1
    · rfl
    · simpa using (param.valueClean text value char value_).1

theorem queryText_stops (query : List Param) : ∀ char ∈ (queryText query).head?, char = '?' := by
  cases query with
  | nil | cons param rest => simp [queryText]

theorem behindPath_stops (segments : List Segment) (query : List Param) :
    ∀ char ∈ (pathText segments ++ queryText query).head?, char = '/' ∨ char = '?' := by
  cases segments with
  | nil => exact fun char head => .inr (queryText_stops query char head)
  | cons segment rest => simp [pathText]

def furtherText (params : List Param) : List Char := params.flatMap fun param => '&' :: param.text

theorem furtherText_stops (params : List Param) :
    ∀ char ∈ (furtherText params).head?, (char == '&') = true := by
  cases params with
  | nil | cons param rest => simp [furtherText]

theorem param_hide_eq {param : Param} (same : param.hide.text = param.text) : param.hide = param := by
  unfold Param.text Param.hide at same
  cases value : param.value with
  | none => exact Param.ext rfl (by simp [Param.hide, value])
  | some text =>
    have stars_eq : stars = text := by simpa [value] using same
    exact Param.ext rfl (by simp [Param.hide, value, stars_eq])

theorem furtherText_hide_iff (params : List Param) :
    furtherText (params.map Param.hide) = furtherText params ↔ ∀ param ∈ params, param.hide = param := by
  induction params with
  | nil => simp [furtherText]
  | cons param rest ih =>
    constructor
    · intro same
      have unfolded : param.hide.text ++ furtherText (rest.map Param.hide) =
          param.text ++ furtherText rest := by simpa [furtherText] using same
      obtain ⟨text, others⟩ := append_cancel (param_text_clean param.hide) (param_text_clean param)
        (furtherText_stops _) (furtherText_stops _) unfolded
      exact List.forall_mem_cons.mpr ⟨param_hide_eq text, ih.mp others⟩
    · intro shown
      rw [List.forall_mem_cons] at shown
      have others := ih.mpr shown.2
      simp only [furtherText, List.map_cons, List.flatMap_cons, shown.1] at others ⊢
      rw [others]

theorem queryText_hide_iff (params : List Param) :
    queryText (params.map Param.hide) = queryText params ↔ ∀ param ∈ params, param.hide = param := by
  rw [← furtherText_hide_iff]
  cases params with
  | nil | cons param rest => simp [queryText, furtherText]

theorem behindAuthority_hide_iff (segments : List Segment) (query : List Param) :
    pathText (segments.map Segment.hide) ++ queryText (query.map Param.hide) =
        pathText segments ++ queryText query ↔
      (∀ segment ∈ segments, segment.hide = segment) ∧ ∀ param ∈ query, param.hide = param := by
  induction segments with
  | nil => simpa [pathText] using queryText_hide_iff query
  | cons segment rest ih =>
    constructor
    · intro same
      have unfolded : segment.hide.text ++
            (pathText (rest.map Segment.hide) ++ queryText (query.map Param.hide)) =
          segment.text ++ (pathText rest ++ queryText query) := by simpa [pathText] using same
      obtain ⟨here, others⟩ := segment_cancel (behindPath_stops _ _) (behindPath_stops _ _) unfolded
      obtain ⟨segments_, query_⟩ := ih.mp others
      exact ⟨List.forall_mem_cons.mpr ⟨here, segments_⟩, query_⟩
    · rintro ⟨segments_, query_⟩
      rw [List.forall_mem_cons] at segments_
      have others := ih.mpr ⟨segments_.2, query_⟩
      simp only [pathText, List.map_cons, List.flatMap_cons, segments_.1, List.append_assoc] at others ⊢
      rw [others]

/-! ## Where a URL is cut -/

theorem clear_append {first second : List Char} (firstClear : Clear first)
    (secondClear : Clear second) : Clear (first ++ second) :=
  List.forall_mem_append.mpr ⟨firstClear, secondClear⟩

theorem clear_cons {char : Char} {rest : List Char} (goes : isTerminator char = false)
    (restClear : Clear rest) : Clear (char :: rest) :=
  List.forall_mem_cons.mpr ⟨goes, restClear⟩

theorem clear_flatMap {Item : Type} {items : List Item} {show_ : Item → List Char}
    (clear : ∀ item ∈ items, Clear (show_ item)) : Clear (items.flatMap show_) := by
  intro char member
  obtain ⟨item, inside, member⟩ := List.mem_flatMap.mp member
  exact clear item inside char member

theorem clear_scheme (url : Url) : Clear url.scheme := by
  unfold Url.scheme Clear
  split <;> simp [isTerminator, isWhitespace]

theorem clear_pathText {segments : List Segment} (clear : ∀ segment ∈ segments, Clear segment.text) :
    Clear (pathText segments) :=
  clear_flatMap fun segment member => clear_cons rfl (clear segment member)

theorem clear_queryText {query : List Param} (clear : ∀ param ∈ query, Clear param.text) :
    Clear (queryText query) := by
  cases query with
  | nil => simp [queryText, Clear]
  | cons param rest =>
    rw [List.forall_mem_cons] at clear
    exact clear_append (clear_cons rfl clear.1)
      (clear_flatMap fun later member => clear_cons rfl (clear.2 later member))

theorem takeWhile_clear {text : List Char} (clear : Clear text) :
    (text.takeWhile fun char => !isTerminator char) = text :=
  List.takeWhile_eq_self_iff.mpr fun char member => by simp [clear char member]

theorem dropWhile_clear {text : List Char} (clear : Clear text) :
    (text.dropWhile fun char => !isTerminator char) = [] :=
  List.dropWhile_eq_nil_iff.mpr fun char member => by simp [clear char member]

theorem maskErr_clear {url : Url} (clear : Clear url.text) : maskErr url.text = url.hide.text := by
  have found : start url.text = some 0 := by
    have starts : startsUrl url.text = true := by
      unfold Url.text Url.scheme
      cases url.secure <;> simp [startsUrl]
    obtain ⟨rest, same⟩ := head_of_startsUrl starts
    rw [same] at starts ⊢
    rw [start_cons, starts, if_pos rfl]
  rw [maskErr_of_some found, List.drop_zero, List.take_zero, takeWhile_clear clear,
    dropWhile_clear clear, maskErr_of_none start_nil, maskUrl_text]
  simp

theorem maskErr_cut {url kept : Url} {char : Char} {after : List Char} (flat : ¬url.Nested)
    (split_ : url.text = kept.text ++ char :: after) (clear : Clear kept.text)
    (ends : isTerminator char = true) : maskErr url.text = kept.hide.text ++ char :: after := by
  have terminated : Terminated (char :: after) := by
    intro head is_
    obtain rfl : char = head := by simpa using is_
    exact ends
  have behind : (url.text.dropWhile fun char => !isTerminator char) = char :: after := by
    rw [split_, (splitEnd_append kept.text terminated).2, dropWhile_clear clear, List.nil_append]
  have plain : start (char :: after) = none := by
    rw [Url.Nested, behind] at flat
    exact Classical.not_not.mp flat
  rw [split_, maskErr_append _ terminated, maskErr_clear clear, maskErr_of_none plain]

theorem contained_iff {url : Url} {before after : List Part} {part : Part}
    (split_ : url.parts = before ++ part :: after) (clear : ∀ earlier ∈ before, Clear earlier.text)
    (dirty : ¬Clear part.text) : url.Contained ↔ ∀ later ∈ part :: after, later.Public := by
  rw [Url.Contained, split_, List.dropWhile_append_of_pos (by simpa using clear),
    List.dropWhile_cons_of_neg (by simpa using dirty)]

theorem exists_first {Item : Type} {Holds : Item → Prop} {items : List Item}
    (fails : ¬∀ item ∈ items, Holds item) :
    ∃ before item after, items = before ++ item :: after ∧ (∀ earlier ∈ before, Holds earlier) ∧
      ¬Holds item := by
  induction items with
  | nil => exact absurd (by simp) fails
  | cons first rest ih =>
    by_cases holds : Holds first
    · have failsRest : ¬∀ item ∈ rest, Holds item := fun all =>
        fails (List.forall_mem_cons.mpr ⟨holds, all⟩)
      obtain ⟨before, item, after, rfl, earlier, broken⟩ := ih failsRest
      exact ⟨first :: before, item, after, rfl, List.forall_mem_cons.mpr ⟨holds, earlier⟩, broken⟩
    · exact ⟨[], first, rest, rfl, by simp, holds⟩

def Url.withParts (url : Url) (authority : Segment) (segments : List Segment) (query : List Param) :
    Url := ⟨url.secure, authority, segments, query⟩

theorem withParts_text (url : Url) (authority : Segment) (segments : List Segment)
    (query : List Param) : (url.withParts authority segments query).text =
      url.scheme ++ authority.text ++ pathText segments ++ queryText query := rfl

theorem withParts_hide (url : Url) (authority : Segment) (segments : List Segment)
    (query : List Param) : (url.withParts authority segments query).hide.text =
      url.scheme ++ authority.text ++ pathText (segments.map Segment.hide) ++
        queryText (query.map Param.hide) := rfl

theorem hide_text (url : Url) : url.hide.text =
    url.scheme ++ url.authority.text ++ pathText (url.segments.map Segment.hide) ++
      queryText (url.query.map Param.hide) := rfl

theorem withParts_clear {url : Url} {authority : Segment} {segments : List Segment}
    {query : List Param} (authorityClear : Clear authority.text)
    (segmentsClear : ∀ segment ∈ segments, Clear segment.text)
    (queryClear : ∀ param ∈ query, Clear param.text) :
    Clear (url.withParts authority segments query).text :=
  clear_append (clear_append (clear_append (clear_scheme url) authorityClear)
    (clear_pathText segmentsClear)) (clear_queryText queryClear)

section

variable {url : Url}

theorem masked_iff_of_authority (flat : ¬url.Nested) (dirty : ¬Clear url.authority.text) :
    maskErr url.text = url.hide.text ↔ url.Contained := by
  obtain ⟨front, char, back, authority, clear, ends⟩ := exists_terminator dirty
  have frontClean : ∀ char ∈ front, char ≠ '/' ∧ char ≠ '?' ∧ isWhitespace char = false :=
    fun char member => url.authority.clean char (by rw [authority]; exact List.mem_append_left _ member)
  have split_ : url.text = (url.withParts ⟨front, frontClean⟩ [] []).text ++
      char :: (back ++ (pathText url.segments ++ queryText url.query)) := by
    rw [withParts_text, Url.text, authority]
    simp only [pathText, queryText, List.flatMap_nil, List.append_nil, List.append_assoc,
      List.cons_append]
  have hidden : url.hide.text = (url.withParts ⟨front, frontClean⟩ [] []).hide.text ++
      char :: (back ++ (pathText (url.segments.map Segment.hide) ++
        queryText (url.query.map Param.hide))) := by
    rw [withParts_hide, hide_text, authority]
    simp only [pathText, queryText, List.map_nil, List.flatMap_nil, List.append_nil,
      List.append_assoc, List.cons_append]
  have keptClear : Clear (url.withParts ⟨front, frontClean⟩ [] []).text :=
    withParts_clear clear (by simp) (by simp)
  have parts : url.parts = [] ++ .authority url.authority ::
      (url.segments.map .segment ++ url.query.map .param) := rfl
  rw [maskErr_cut flat split_ keptClear ends, hidden, List.append_cancel_left_eq,
    List.cons.injEq, List.append_cancel_left_eq, eq_comm (a := pathText url.segments ++ _),
    behindAuthority_hide_iff, contained_iff parts (by simp) dirty]
  simp [Part.Public, or_imp, forall_and]

theorem terminator_not_mem_stars {char : Char} (ends : isTerminator char = true) : char ∉ stars := by
  intro member
  rw [stars_clean char member] at ends
  exact absurd ends (by decide)

theorem maskSegment_front {segment : Segment} {front back : List Char} {char : Char}
    (split_ : segment.text = front ++ char :: back) (ends : isTerminator char = true)
    (shown : segment.hide = segment) : maskSegment front = front := by
  have text : maskSegment segment.text = segment.text := congrArg Segment.text shown
  unfold maskSegment at text ⊢
  split at text
  · rw [split_] at text
    exact absurd (by rw [text]; simp) (terminator_not_mem_stars ends)
  · next short =>
    rw [split_] at short
    refine if_neg fun long => short (Nat.lt_of_lt_of_le long ?_)
    simp [byteLen]

theorem segment_cut_iff {segment : Segment} {front back rest hidden : List Char} {char : Char}
    (split_ : segment.text = front ++ char :: back) (ends : isTerminator char = true)
    (restStops : ∀ char ∈ rest.head?, char = '/' ∨ char = '?')
    (hiddenStops : ∀ char ∈ hidden.head?, char = '/' ∨ char = '?') :
    maskSegment front ++ char :: (back ++ rest) = segment.hide.text ++ hidden ↔
      segment.hide = segment ∧ rest = hidden := by
  constructor
  · intro same
    have clean : ∀ other ∈ maskSegment front ++ char :: back,
        other ≠ '/' ∧ other ≠ '?' ∧ isWhitespace other = false := by
      have segmentClean := segment.clean
      rw [split_] at segmentClean
      rw [List.forall_mem_append] at segmentClean ⊢
      refine ⟨?_, segmentClean.2⟩
      unfold maskSegment
      split
      · intro other member
        rw [stars_clean other member]
        decide
      · exact segmentClean.1
    let cut : Segment := ⟨maskSegment front ++ char :: back, clean⟩
    have whole : cut.text ++ rest = segment.hide.text ++ hidden := by simpa [cut] using same
    obtain ⟨text, rest_⟩ := segment_cancel restStops hiddenStops whole
    refine ⟨Segment.ext ?_, rest_⟩
    have text_ : maskSegment front ++ char :: back = maskSegment segment.text :=
      congrArg Segment.text text
    by_cases long : byteLen segment.text > 16
    · rw [maskSegment, maskSegment, if_pos long] at text_
      exact absurd (by rw [← text_]; simp) (terminator_not_mem_stars ends)
    · exact if_neg long
  · rintro ⟨shown, rfl⟩
    rw [maskSegment_front split_ ends shown, shown, split_]
    simp

theorem masked_iff_of_segment (flat : ¬url.Nested) (authorityClear : Clear url.authority.text)
    {before after : List Segment} {segment : Segment}
    (segments : url.segments = before ++ segment :: after)
    (beforeClear : ∀ earlier ∈ before, Clear earlier.text) (dirty : ¬Clear segment.text) :
    maskErr url.text = url.hide.text ↔ url.Contained := by
  obtain ⟨front, char, back, text, clear, ends⟩ := exists_terminator dirty
  have frontClean : ∀ char ∈ front, char ≠ '/' ∧ char ≠ '?' ∧ isWhitespace char = false :=
    fun char member => segment.clean char (by rw [text]; exact List.mem_append_left _ member)
  have split_ : url.text = (url.withParts url.authority (before ++ [⟨front, frontClean⟩]) []).text ++
      char :: (back ++ (pathText after ++ queryText url.query)) := by
    rw [withParts_text, Url.text, segments]
    simp only [pathText, queryText, List.flatMap_append, List.flatMap_cons, List.flatMap_nil,
      List.append_nil, List.append_assoc, List.cons_append, text]
  have keptClear : Clear (url.withParts url.authority (before ++ [⟨front, frontClean⟩]) []).text :=
    withParts_clear authorityClear (by
      rw [List.forall_mem_append, List.forall_mem_cons]
      exact ⟨beforeClear, clear, by simp⟩) (by simp)
  have kept_hidden : (url.withParts url.authority (before ++ [⟨front, frontClean⟩]) []).hide.text =
      url.scheme ++ url.authority.text ++ pathText (before.map Segment.hide) ++
        '/' :: maskSegment front := by
    rw [withParts_hide]
    simp only [pathText, queryText, List.map_append, List.map_cons, List.map_nil,
      List.flatMap_append, List.flatMap_cons, List.flatMap_nil, List.append_nil, List.append_assoc]
    rfl
  have hidden : url.hide.text = url.scheme ++ url.authority.text ++
      pathText (before.map Segment.hide) ++ '/' :: (segment.hide.text ++
        (pathText (after.map Segment.hide) ++ queryText (url.query.map Param.hide))) := by
    rw [hide_text, segments]
    simp only [pathText, List.map_append, List.map_cons, List.flatMap_append, List.flatMap_cons,
      List.append_assoc, List.cons_append]
  have parts : url.parts = (.authority url.authority :: before.map .segment) ++
      .segment segment :: (after.map .segment ++ url.query.map .param) := by
    simp [Url.parts, segments]
  have earlierClear : ∀ earlier ∈ (Part.authority url.authority :: before.map .segment),
      Clear earlier.text := by
    rw [List.forall_mem_cons, List.forall_mem_map]
    exact ⟨authorityClear, beforeClear⟩
  rw [maskErr_cut flat split_ keptClear ends, kept_hidden, hidden, List.append_assoc,
    List.append_cancel_left_eq, List.cons_append, List.cons.injEq,
    segment_cut_iff text ends (behindPath_stops _ _) (behindPath_stops _ _),
    eq_comm (a := pathText after ++ _), behindAuthority_hide_iff,
    contained_iff parts earlierClear dirty]
  simp [Part.Public, or_imp, forall_and]

def queryLead : List Param → List Char
  | [] => ['?']
  | param :: rest => queryText (param :: rest) ++ ['&']

theorem queryText_append (before after : List Param) (param : Param) :
    queryText (before ++ param :: after) = queryLead before ++ (param.text ++ furtherText after) := by
  cases before with
  | nil | cons first rest => simp [queryText, queryLead, furtherText]

theorem masked_iff_of_param (flat : ¬url.Nested) (authorityClear : Clear url.authority.text)
    (segmentsClear : ∀ segment ∈ url.segments, Clear segment.text) {before after : List Param}
    {param : Param} (query : url.query = before ++ param :: after)
    (beforeClear : ∀ earlier ∈ before, Clear earlier.text) (dirty : ¬Clear param.text) :
    maskErr url.text = url.hide.text ↔ url.Contained := by
  have parts : url.parts = (.authority url.authority :: url.segments.map .segment ++
      before.map .param) ++ .param param :: after.map .param := by
    simp [Url.parts, query]
  have earlierClear : ∀ earlier ∈ (Part.authority url.authority :: url.segments.map .segment ++
      before.map .param), Clear earlier.text := by
    rw [List.forall_mem_append, List.forall_mem_cons, List.forall_mem_map, List.forall_mem_map]
    exact ⟨⟨authorityClear, segmentsClear⟩, beforeClear⟩
  have contained : url.Contained ↔ ∀ later ∈ param :: after, later.hide = later := by
    rw [contained_iff parts earlierClear dirty]
    simp [Part.Public]
  have hidden : url.hide.text = url.scheme ++ url.authority.text ++
      pathText (url.segments.map Segment.hide) ++ (queryLead (before.map Param.hide) ++
        (param.hide.text ++ furtherText (after.map Param.hide))) := by
    rw [hide_text, query, List.map_append, List.map_cons, queryText_append]
  -- The cut is told by the parameter that ends at it.
  have masked {cut : Param} {char : Char} {back : List Char} (ends : isTerminator char = true)
      (cutClear : Clear cut.text) (text : param.text = cut.text ++ char :: back) :
      maskErr url.text = url.hide.text ↔
        cut.hide.text ++ char :: (back ++ furtherText after) =
          param.hide.text ++ furtherText (after.map Param.hide) := by
    have split_ : url.text = (url.withParts url.authority url.segments (before ++ [cut])).text ++
        char :: (back ++ furtherText after) := by
      rw [withParts_text, Url.text, query, queryText_append, queryText_append, text]
      simp only [furtherText, List.flatMap_nil, List.append_nil, List.append_assoc, List.cons_append]
    have keptClear : Clear (url.withParts url.authority url.segments (before ++ [cut])).text :=
      withParts_clear authorityClear segmentsClear (by
        rw [List.forall_mem_append, List.forall_mem_cons]
        exact ⟨beforeClear, cutClear, by simp⟩)
    rw [maskErr_cut flat split_ keptClear ends, hidden, withParts_hide, List.map_append,
      List.map_cons, List.map_nil, queryText_append]
    simp only [furtherText, List.flatMap_nil, List.append_nil, List.append_assoc,
      List.append_cancel_left_eq]
  by_cases nameClear : Clear param.name
  · cases value : param.value with
    | none => exact absurd (by simpa [Param.text, value] using nameClear) dirty
    | some text =>
      have valueDirty : ¬Clear text := fun clear => dirty (by
        simp only [Param.text, value]
        exact clear_append nameClear (clear_cons rfl clear))
      obtain ⟨front, char, back, rfl, clear, ends⟩ := exists_terminator valueDirty
      let cut : Param := ⟨param.name, some front, param.nameClean, fun text is_ other member =>
        param.valueClean _ value other (by cases is_; exact List.mem_append_left _ member)⟩
      have cut_hide : cut.hide.text = param.hide.text := by
        simp [Param.text, Param.hide, cut, value]
      have text : param.text = cut.text ++ char :: back := by simp [Param.text, cut, value]
      have cutClear : Clear cut.text := clear_append nameClear (clear_cons rfl clear)
      rw [masked ends cutClear text, cut_hide, List.append_cancel_left_eq, contained]
      constructor
      · intro same
        have stops := furtherText_stops (after.map Param.hide) char (by rw [← same]; rfl)
        obtain rfl : char = '&' := by simpa using stops
        exact absurd ends (by decide)
      · intro shown
        have value_ : param.hide.value = param.value :=
          congrArg Param.value (shown param List.mem_cons_self)
        have stars_eq : stars = front ++ char :: back := by simpa [Param.hide, value] using value_
        exact absurd (by rw [stars_eq]; simp) (terminator_not_mem_stars ends)
  · obtain ⟨front, char, back, name, clear, ends⟩ := exists_terminator nameClear
    let cut : Param := ⟨front, none, fun other member =>
      param.nameClean other (by rw [name]; exact List.mem_append_left _ member), by simp⟩
    have cut_hide : cut.hide.text = cut.text := by simp [Param.text, Param.hide, cut]
    obtain ⟨further, text⟩ : ∃ further, param.text = cut.text ++ char :: further := by
      cases value : param.value with
      | none => exact ⟨back, by simp [Param.text, cut, value, name]⟩
      | some text => exact ⟨back ++ '=' :: text, by simp [Param.text, cut, value, name]⟩
    have joined : cut.hide.text ++ char :: (further ++ furtherText after) =
        param.text ++ furtherText after := by
      rw [cut_hide, text]
      simp
    have cutClear : Clear cut.text := clear
    rw [masked ends cutClear text, joined, contained, ← furtherText_hide_iff, eq_comm]
    simp [furtherText]

/-- On a URL that has no further scheme behind a terminator, nothing secret is shown exactly if the
    first part with a terminator and all behind it have nothing to hide. -/
theorem masked_iff (flat : ¬url.Nested) : maskErr url.text = url.hide.text ↔ url.Contained := by
  by_cases authorityClear : Clear url.authority.text
  · by_cases segmentsClear : ∀ segment ∈ url.segments, Clear segment.text
    · by_cases queryClear : ∀ param ∈ url.query, Clear param.text
      · have clear : Clear url.text := withParts_clear authorityClear segmentsClear queryClear
        have partsClear : ∀ part ∈ url.parts, decide (Clear part.text) = true := by
          simp only [Url.parts, List.cons_append, List.forall_mem_cons, List.forall_mem_append,
            List.forall_mem_map, decide_eq_true_eq]
          exact ⟨authorityClear, segmentsClear, queryClear⟩
        have none_ : url.parts.dropWhile (fun part => decide (Clear part.text)) = [] :=
          List.dropWhile_eq_nil_iff.mpr partsClear
        exact ⟨fun _ => by simp [Url.Contained, none_], fun _ => maskErr_clear clear⟩
      · obtain ⟨before, param, after, query, beforeClear, dirty⟩ := exists_first queryClear
        exact masked_iff_of_param flat authorityClear segmentsClear query beforeClear dirty
    · obtain ⟨before, segment, after, segments, beforeClear, dirty⟩ := exists_first segmentsClear
      exact masked_iff_of_segment flat authorityClear segments beforeClear dirty
  · exact masked_iff_of_authority flat authorityClear

end

/-! ## Two log strings -/

/-- The text between the URLs is copied, and in the place of each URL stands its hidden form. -/
def Log.Masked (log : Log) : Prop :=
  (maskErr log.text = log.assemble fun url => maskErr url.text) ∧
    ∀ url ∈ log.urls, maskErr url.text = url.hide.text

/-- Two log strings that differ in query values and long path segments only. -/
def Log.Alike (first second : Log) : Prop :=
  first.opening = second.opening ∧
    (first.entries.map fun entry => (entry.url.hide, entry.after)) =
      second.entries.map fun entry => (entry.url.hide, entry.after)

/-- Both strings are masked, and to the same output. -/
def Hides (first second : Log) : Prop :=
  first.Masked ∧ second.Masked ∧ maskErr first.text = maskErr second.text

theorem Log.Masked.output {log : Log} (masked : log.Masked) : maskErr log.text = log.opening ++
      (log.entries.map fun entry => (entry.url.hide, entry.after)).flatMap
        fun shown => shown.1.text ++ shown.2 := by
  obtain ⟨copied, urls⟩ := masked
  rw [copied, Log.assemble, List.flatMap_map]
  congr 1
  refine List.flatMap_congr fun entry member => ?_
  rw [urls entry.url (List.mem_map_of_mem member)]

theorem Log.masked_iff {log : Log} (flat : ∀ url ∈ log.urls, ¬url.Nested) :
    log.Masked ↔ ∀ url ∈ log.urls, url.Contained := by
  constructor
  · rintro ⟨-, masked⟩ url member
    exact (Utils.masked_iff (flat url member)).mp (masked url member)
  · intro contained
    exact ⟨maskErr_text log, fun url member =>
      (Utils.masked_iff (flat url member)).mpr (contained url member)⟩

def tokenUrl (authority : Segment) (token : Char)
    (clean : token ≠ '&' ∧ isWhitespace token = false) : Url where
  secure := false
  authority := authority
  segments := [⟨"p".toList, by simp [isWhitespace]⟩]
  query := [⟨"token".toList, some [token], by simp [isWhitespace], by
    intro text is_ char member
    cases is_
    rw [List.mem_singleton] at member
    rw [member]
    exact clean⟩]

def urlLog (url : Url) : Log where
  opening := []
  entries := [⟨url, [], rfl, by simp [Terminated]⟩]
  plain := rfl
  between := by simp

def plainHost : Segment := ⟨"h".toList, by simp [isWhitespace]⟩

def bracketHost : Segment := ⟨"[::1]:80".toList, by simp [isWhitespace]⟩

theorem tokens_alike (authority : Segment) {first second : Char}
    (firstClean : first ≠ '&' ∧ isWhitespace first = false)
    (secondClean : second ≠ '&' ∧ isWhitespace second = false) :
    (urlLog (tokenUrl authority first firstClean)).Alike
      (urlLog (tokenUrl authority second secondClean)) := ⟨rfl, rfl⟩

end ClashVerge.Utils
