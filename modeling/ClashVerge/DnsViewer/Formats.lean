import ClashVerge.Library.OrderedMap
import ClashVerge.UriParser.Helpers

/-!
# The nameserver policy and the hosts as texts

The DNS dialog shows both records as one line of entries and reads the line back. The policy is
read by a global pattern, so the end of one match decides where the next begins; the hosts are
split by hand.
-/

namespace ClashVerge.DnsViewer

open Backtracking Backtracking.Pattern Delimited UriParser

inductive Value where
  | single (value : Text)
  | list (values : List Text)
deriving DecidableEq, Repr

def Value.texts : Value → List Text
  | .single value => [value]
  | .list values => values

/-- An object of the configuration with its entries in order. -/
abbrev Entries : Type := List (Text × Value)

/-- `result[key] = value`, which makes no entry of the prototype. -/
def assignEntry (result : Entries) (entry : Text × Value) : Entries :=
  if entry.1 = text "__proto__" then result else OrderedMap.insert result entry.1 entry.2

/-- `/\s*([^=]+?)\s*=\s*([^,]+)(?:,|$)/g`. -/
def ruleRegex : Pattern CodeUnit :=
  inOrder [.star true (.one isWhiteSpace), .group "1" (.plus false (.one (· != unit '='))),
    .star true (.one isWhiteSpace), mark '=', .star true (.one isWhiteSpace),
    .group "2" (.plus true (.one (· != unit ','))), .either (mark ',') .finish]

/-- `matchAll` for a pattern without empty matches; `skip` code units of a match are still to be
passed. -/
def matchAll (pattern : Pattern CodeUnit) : Nat → Text → List (Captures CodeUnit)
  | _, [] => []
  | skip + 1, _ :: rest => matchAll pattern skip rest
  | 0, first :: rest =>
    match pattern.exec (first :: rest) with
    | some captures =>
      captures :: matchAll pattern (((captures.lookup "0").getD []).length - 1) rest
    | none => matchAll pattern 0 rest

/-- The entry that a match stands for. -/
def ruleOf (captures : Captures CodeUnit) : Text × Value :=
  let group (name : String) := (captures.lookup name).getD []
  (trim (group "1"), .list (((group "2").splitOn (unit ';')).map trim))

def parseNameserverPolicy (str : Text) : Entries :=
  ((matchAll ruleRegex 0 str).map ruleOf).foldl assignEntry []

def formatEntry (entry : Text × Value) : Text :=
  entry.1 ++ unit '=' :: join (unit ';') entry.2.texts

def formatNameserverPolicy (policy : Entries) : Text :=
  (text ", ").intercalate (policy.map formatEntry)

def formatHosts (hosts : Entries) : Text := (text ", ").intercalate (hosts.map formatEntry)

def hostOf (item : Text) : Option (Text × Value) :=
  match (trim item).splitOn (unit '=') with
  | first :: second :: rest =>
    let valueStr := trim (join (unit '=') (second :: rest))
    some (trim first,
      if valueStr.contains (unit ';') then
        .list (((valueStr.splitOn (unit ';')).map trim).filter (· ≠ []))
      else .single valueStr)
  | _ => none

def parseHosts (str : Text) : Entries :=
  if str = [] then [] else ((str.splitOn (unit ',')).filterMap hostOf).foldl assignEntry []

/-- Neither a comma nor a semicolon. -/
def Unmarked (value : Text) : Prop := unit ',' ∉ value ∧ unit ';' ∉ value

/-- A key and servers that are nonempty and trimmed. -/
def IsRule (entry : Text × Value) : Prop :=
  (entry.1 ≠ [] ∧ trim entry.1 = entry.1 ∧ unit '=' ∉ entry.1) ∧ entry.2.texts ≠ [] ∧
    ∀ server ∈ entry.2.texts, server ≠ [] ∧ trim server = server ∧ Unmarked server

/-- A nonempty text, or a list of at least two. -/
def Value.IsHost : Value → Prop
  | .single value => value ≠ []
  | .list values => 2 ≤ values.length

instance : (value : Value) → Decidable value.IsHost
  | .single value => inferInstanceAs (Decidable (value ≠ []))
  | .list values => inferInstanceAs (Decidable (2 ≤ values.length))

def IsHost (entry : Text × Value) : Prop :=
  (unit ',' ∉ entry.1 ∧ unit '=' ∉ entry.1) ∧ entry.2.IsHost ∧
    ∀ value ∈ entry.2.texts, Unmarked value

def IsMap (kind : Text × Value → Prop) (entries : Entries) : Prop :=
  OrderedMap.Distinct entries ∧ ∀ entry ∈ entries, kind entry

def Ordinary (entries : Entries) : Prop := ∀ entry ∈ entries, entry.1 ≠ text "__proto__"

/-- The keys and values are trimmed, and no value is empty. -/
def Trimmed (entries : Entries) : Prop :=
  ∀ entry ∈ entries, trim entry.1 = entry.1 ∧
    ∀ value ∈ entry.2.texts, value ≠ [] ∧ trim value = value

def listed (entry : Text × Value) : Text × Value := (entry.1, .list entry.2.texts)

/-! ## Trimmed texts -/

theorem dropWhile_of_trim {value : Text} (trimmed : trim value = value) :
    value.dropWhile isWhiteSpace = value ∧
      value.reverse.dropWhile isWhiteSpace = value.reverse := by
  have front : value.dropWhile isWhiteSpace = value := by
    refine (List.dropWhile_suffix _).eq_of_length (Nat.le_antisymm ?_ ?_)
    · exact (List.dropWhile_suffix _).length_le
    · have shorter := (List.dropWhile_suffix isWhiteSpace
        (l := (value.dropWhile isWhiteSpace).reverse)).length_le
      rw [← List.length_reverse, ← trim, trimmed, List.length_reverse] at shorter
      exact shorter
  rw [trim, front, List.reverse_eq_iff] at trimmed
  exact ⟨front, trimmed⟩

theorem dropWhile_marked {front : Text} {mark : CodeUnit} (back : Text)
    (trimmed : front.dropWhile isWhiteSpace = front) (visible : isWhiteSpace mark = false) :
    (front ++ mark :: back).dropWhile isWhiteSpace = front ++ mark :: back := by
  rw [List.dropWhile_append, trimmed]
  split
  · rename_i empty
    simp [List.isEmpty_iff.mp empty, visible]
  · rfl

theorem trim_marked {front back : Text} {mark : CodeUnit} (first : trim front = front)
    (second : trim back = back) (visible : isWhiteSpace mark = false) :
    trim (front ++ mark :: back) = front ++ mark :: back := by
  have reversed := dropWhile_marked front.reverse (dropWhile_of_trim second).2 visible
  rw [trim, dropWhile_marked back (dropWhile_of_trim first).1 visible]
  simp only [List.reverse_append, List.reverse_cons, List.append_assoc, List.singleton_append]
  rw [reversed]
  simp

theorem trim_join {parts : List Text} (trimmed : ∀ part ∈ parts, trim part = part) :
    trim (join (unit ';') parts) = join (unit ';') parts := by
  induction parts with
  | nil => rfl
  | cons part others ih =>
    obtain ⟨first, later⟩ := List.forall_mem_cons.mp trimmed
    by_cases last : others = []
    · simpa [last] using first
    · rw [join_cons _ _ last]
      exact trim_marked first (ih later) (by decide)

theorem trim_spaced {space value : Text} (blank : ∀ char ∈ space, isWhiteSpace char = true)
    (trimmed : trim value = value) : trim (space ++ value) = value := by
  rw [trim, List.dropWhile_append_of_pos blank]
  exact trimmed

theorem head_visible {value : Text} (trimmed : trim value = value) :
    ∀ first ∈ value.head?, isWhiteSpace first = false := by
  cases value with
  | nil => simp
  | cons first rest =>
    have kept := (dropWhile_of_trim trimmed).1
    simpa using List.dropWhile_eq_self_iff.mp kept

theorem dropWhile_suffix_ne_nil {value after : Text} (trimmed : trim value = value)
    (ends : after <:+ value) (nonempty : after ≠ []) : after.dropWhile isWhiteSpace ≠ [] := by
  obtain ⟨before, rfl⟩ := ends
  obtain ⟨front, last, rfl⟩ := (List.eq_nil_or_concat after).resolve_left nonempty
  have kept := (dropWhile_of_trim trimmed).2
  have visible : isWhiteSpace last = false := by
    simpa using List.dropWhile_eq_self_iff.mp kept
  intro blank
  have := List.dropWhile_eq_nil_iff.mp blank last (by simp)
  simp [visible] at this

/-! ## The pattern -/

section

variable {space key value tail rest : Text} {captures result : Captures CodeUnit}
  {next : Continuation CodeUnit}

theorem take_word (word rest : Text) :
    (word ++ rest).take ((word ++ rest).length - rest.length) = word := by simp

theorem run_value (nonempty : value ≠ []) (free : unit ',' ∉ value)
    (behind : tail = [unit ','] ∨ tail = [] ∧ rest = [])
    (found : next rest (("2", value) :: captures) = some result) :
    (group "2" (plus true (one (· != unit ',')))).run
      ((either (mark ',') finish).run next) (value ++ (tail ++ rest)) captures = some result := by
  obtain ⟨first, others, rfl⟩ := List.exists_cons_of_ne_nil nonempty
  have other (char : CodeUnit) (inside : char ∈ first :: others) :
      (char != unit ',') = true := by
    simp only [bne_iff_ne]
    rintro rfl
    exact free inside
  simp only [run_group, plus, run_seq]
  rw [List.cons_append, run_one_cons, if_pos (other first List.mem_cons_self)]
  refine run_greedy_first (fun char inside => other char (List.mem_cons_of_mem _ inside)) ?_ ?_
  · rcases behind with rfl | ⟨rfl, rfl⟩ <;> simp
  · rw [← List.cons_append, take_word]
    rcases behind with rfl | ⟨rfl, rfl⟩ <;> simp [run, mark, found]

theorem run_key (nonempty : key ≠ []) (free : unit '=' ∉ key) (trimmed : trim key = key)
    (found : next rest (("1", key) :: captures) = some result) :
    (group "1" (plus false (one (· != unit '=')))).run
      ((star true (one isWhiteSpace)).run ((mark '=').run next)) (key ++ unit '=' :: rest) captures =
        some result := by
  have blocked : ∀ symbol rest captures, isWhiteSpace symbol = true →
      (mark '=').run next (symbol :: rest) captures = none := by
    rintro symbol rest captures blank
    rw [mark, run_one_cons, if_neg]
    rintro same
    rw [beq_iff_eq.mp same] at blank
    contradiction
  obtain ⟨first, others, rfl⟩ := List.exists_cons_of_ne_nil nonempty
  have other (char : CodeUnit) (inside : char ∈ first :: others) :
      (char != unit '=') = true := by
    simp only [bne_iff_ne]
    rintro rfl
    exact free inside
  simp only [run_group, plus, run_seq, run_greedy_all _ blocked]
  rw [List.cons_append, run_one_cons, if_pos (other first List.mem_cons_self)]
  refine run_lazy_first (fun char inside => other char (List.mem_cons_of_mem _ inside)) ?_ ?_
  · intro after ends some_
    have within := ends.trans (List.suffix_cons first others)
    obtain ⟨char, left, here⟩ :=
      List.exists_cons_of_ne_nil (dropWhile_suffix_ne_nil trimmed within some_)
    have inside : char ∈ first :: others :=
      within.subset ((List.dropWhile_suffix isWhiteSpace).subset (here ▸ List.mem_cons_self))
    have apart := other char inside
    rw [List.dropWhile_append, here, List.isEmpty_cons, if_neg Bool.false_ne_true,
      List.cons_append, mark, run_one_cons, if_neg]
    simpa using apart
  · rw [← List.cons_append, take_word, List.dropWhile_cons_of_neg (by decide), mark, run_one_cons,
      if_pos (by decide)]
    exact found

theorem exec_entry (blank : ∀ char ∈ space, isWhiteSpace char = true) (someKey : key ≠ [])
    (keyFree : unit '=' ∉ key) (keyTrimmed : trim key = key) (someValue : value ≠ [])
    (valueFree : unit ',' ∉ value) (valueTrimmed : trim value = value)
    (behind : tail = [unit ','] ∨ tail = [] ∧ rest = []) :
    ruleRegex.exec ((space ++ (key ++ unit '=' :: value) ++ tail) ++ rest) =
      some [("0", space ++ (key ++ unit '=' :: value) ++ tail), ("2", value), ("1", key)] := by
  rw [exec, run_group, ruleRegex]
  simp only [inOrder, run_seq, run_empty, List.append_assoc, List.cons_append]
  refine run_greedy_first blank ?_ (run_key someKey keyFree keyTrimmed ?_)
  · rw [List.head?_append_of_ne_nil _ someKey]
    exact head_visible keyTrimmed
  · rw [← List.nil_append (value ++ _)]
    refine run_greedy_first (by simp) ?_ (run_value someValue valueFree behind ?_)
    · rw [List.head?_append_of_ne_nil _ someValue]
      exact head_visible valueTrimmed
    · have whole := take_word (space ++ (key ++ unit '=' :: value) ++ tail) rest
      simp only [List.append_assoc, List.cons_append, List.nil_append] at whole ⊢
      rw [whole]

end

/-! ## Lines of entries -/

theorem matchAll_skip (pattern : Pattern CodeUnit) (word rest : Text) :
    matchAll pattern word.length (word ++ rest) = matchAll pattern 0 rest := by
  induction word with
  | nil => rfl
  | cons first others ih => exact ih

theorem matchAll_match {pattern : Pattern CodeUnit} {word rest : Text}
    {captures : Captures CodeUnit} (nonempty : word ≠ [])
    (found : pattern.exec (word ++ rest) = some captures)
    (whole : captures.lookup "0" = some word) :
    matchAll pattern 0 (word ++ rest) = captures :: matchAll pattern 0 rest := by
  obtain ⟨first, others, rfl⟩ := List.exists_cons_of_ne_nil nonempty
  rw [List.cons_append] at found
  rw [List.cons_append, matchAll, found]
  simp only [whole, Option.getD_some, List.length_cons, Nat.add_sub_cancel]
  rw [matchAll_skip]

theorem intercalate_eq (first : Text) (others : List Text) :
    (text ", ").intercalate (first :: others) =
      join (unit ',') (first :: others.map (unit ' ' :: ·)) := by
  induction others generalizing first with
  | nil => simp
  | cons next others ih =>
    rw [List.intercalate_cons_of_ne_nil (List.cons_ne_nil _ _), ih, List.map_cons,
      join_cons _ first (List.cons_ne_nil _ _)]
    cases others with
    | nil => simp [text]
    | cons => simp [text, join_cons]

theorem splitOn_texts {mark : CodeUnit} {texts : List Text} (some_ : texts ≠ [])
    (free : ∀ each ∈ texts, mark ∉ each) : (join mark texts).splitOn mark = texts :=
  List.splitOn_intercalate mark free some_

theorem foldl_assignEntry {result entries : Entries}
    (distinct : OrderedMap.Distinct (result ++ entries)) (ordinary : Ordinary entries) :
    entries.foldl assignEntry result = result ++ entries := by
  induction entries generalizing result with
  | nil => simp
  | cons entry others ih =>
    obtain ⟨own, later⟩ := List.forall_mem_cons.mp ordinary
    have fresh : entry.1 ∉ OrderedMap.keys result := by
      rw [OrderedMap.Distinct, OrderedMap.keys_append, List.nodup_append] at distinct
      exact fun inside => distinct.2.2 _ inside _ List.mem_cons_self rfl
    have appended : assignEntry result entry = result ++ [entry] := by
      have placed := OrderedMap.insert_append result [] entry.1 entry.2
      rw [List.append_nil, if_neg fresh] at placed
      rw [assignEntry, if_neg own, placed]
      rfl
    rw [List.foldl_cons, appended, ih (by simpa using distinct) later]
    simp

theorem texts_shown {value : Value} (some_ : value.texts ≠ [])
    (plain : ∀ each ∈ value.texts, each ≠ [] ∧ trim each = each ∧ Unmarked each) :
    join (unit ';') value.texts ≠ [] ∧ unit ',' ∉ join (unit ';') value.texts ∧
      trim (join (unit ';') value.texts) = join (unit ';') value.texts ∧
      (join (unit ';') value.texts).splitOn (unit ';') = value.texts ∧
      value.texts.map trim = value.texts := by
  have parts := splitOn_texts some_ fun each inside => (plain each inside).2.2.2
  refine ⟨fun empty => ?_, fun inside => ?_, trim_join fun each inside => (plain each inside).2.1,
    parts, ?_⟩
  · rw [empty, List.splitOn_nil] at parts
    exact (plain [] (parts ▸ List.mem_singleton_self _)).1 rfl
  · rcases mem_of_mem_join _ _ inside with same | ⟨each, listed, comma⟩
    · revert same
      decide
    · exact (plain each listed).2.2.1 comma
  · exact (List.map_congr_left fun each inside => (plain each inside).2.1).trans (List.map_id _)

theorem rules_entry {space tail rest : Text} {entry : Text × Value}
    (blank : ∀ char ∈ space, isWhiteSpace char = true) (rule : IsRule entry)
    (behind : tail = [unit ','] ∨ tail = [] ∧ rest = []) :
    (matchAll ruleRegex 0 ((space ++ formatEntry entry ++ tail) ++ rest)).map ruleOf =
      listed entry :: (matchAll ruleRegex 0 rest).map ruleOf := by
  obtain ⟨⟨someKey, trimmed, free⟩, some_, plain⟩ := rule
  obtain ⟨shown, noComma, whole, parts, same⟩ := texts_shown some_ plain
  have found := exec_entry blank someKey free trimmed shown noComma whole behind
  rw [formatEntry, matchAll_match (by simp) found rfl, List.map_cons]
  congr 1
  change (trim entry.1, Value.list (((join (unit ';') entry.2.texts).splitOn _).map trim)) = _
  rw [trimmed, parts, same, listed]

theorem rules_of_line {space : Text} (blank : ∀ char ∈ space, isWhiteSpace char = true)
    (entry : Text × Value) (others : Entries) (rules : ∀ each ∈ entry :: others, IsRule each) :
    (matchAll ruleRegex 0 (join (unit ',') ((space ++ formatEntry entry) ::
      others.map fun each => unit ' ' :: formatEntry each))).map ruleOf =
        (entry :: others).map listed := by
  induction others generalizing space entry with
  | nil =>
    have read := @rules_entry space [] [] entry blank (rules entry List.mem_cons_self)
      (.inr ⟨rfl, rfl⟩)
    rw [List.append_nil, List.append_nil] at read
    rw [List.map_nil, join_singleton, read]
    rfl
  | cons next others ih =>
    obtain ⟨first, later⟩ := List.forall_mem_cons.mp rules
    have rest := @ih [unit ' '] (List.forall_mem_singleton.mpr rfl) next later
    rw [List.map_cons, join_cons _ _ (List.cons_ne_nil _ _), List.append_cons,
      rules_entry blank first (.inl rfl), List.map_cons, ← rest]
    rfl

theorem hostOf_entry {space : Text} (blank : ∀ char ∈ space, isWhiteSpace char = true)
    {entry : Text × Value} (host : IsHost entry) (trimmed : Trimmed [entry]) :
    hostOf (space ++ formatEntry entry) = some entry := by
  obtain ⟨key, value⟩ := entry
  obtain ⟨⟨-, free⟩, size, unmarked⟩ := host
  obtain ⟨keyTrimmed, values⟩ := trimmed _ (List.mem_singleton_self _)
  have some_ : value.texts ≠ [] := by
    cases value with
    | single value => simp [Value.texts]
    | list values => exact List.ne_nil_of_length_pos (Nat.lt_of_lt_of_le Nat.zero_lt_two size)
  obtain ⟨-, -, whole, parts, same⟩ := texts_shown some_ fun each inside =>
    ⟨(values each inside).1, (values each inside).2, unmarked each inside⟩
  have cut := List.splitOn_append_cons_self_of_not_mem free (join (unit ';') value.texts)
  obtain ⟨second, rest, shown⟩ := List.exists_cons_of_ne_nil
    (List.splitOn_ne_nil (unit '=') (join (unit ';') value.texts))
  have joined : join (unit '=') (second :: rest) = join (unit ';') value.texts := by
    rw [← shown]
    exact List.intercalate_splitOn _
  have filled : value.texts.filter (· ≠ []) = value.texts :=
    List.filter_eq_self.mpr fun each inside => by simpa using (values each inside).1
  rw [hostOf, trim_spaced blank, formatEntry, cut, shown]
  · simp only [joined, whole, keyTrimmed, parts, same, filled]
    cases value with
    | single value =>
      have plain := (unmarked value (List.mem_singleton_self _)).2
      simp [Value.texts, plain]
    | list members =>
      rcases members with _ | ⟨first, _ | ⟨second, others⟩⟩
      · contradiction
      · simp [Value.IsHost] at size
      · simp [Value.texts, join_cons]
  · exact trim_marked keyTrimmed whole (by decide)

theorem parseHosts_eq (str : Text) :
    parseHosts str = ((str.splitOn (unit ',')).filterMap hostOf).foldl assignEntry [] := by
  unfold parseHosts
  split
  · rename_i empty
    rw [empty]
    decide
  · rfl

theorem formatEntry_free {entry : Text × Value} (host : IsHost entry) :
    unit ',' ∉ formatEntry entry := by
  obtain ⟨⟨free, -⟩, -, unmarked⟩ := host
  simp only [formatEntry, List.mem_append, List.mem_cons, not_or]
  refine ⟨free, by decide, fun inside => ?_⟩
  rcases mem_of_mem_join _ _ inside with same | ⟨each, listed, comma⟩
  · revert same
    decide
  · exact (unmarked each listed).1 comma

theorem fields_round_trip : (∀ policy, IsMap IsRule policy → Ordinary policy →
      parseNameserverPolicy (formatNameserverPolicy policy) = policy.map listed) ∧
    (∀ hosts, IsMap IsHost hosts → Ordinary hosts → Trimmed hosts →
      parseHosts (formatHosts hosts) = hosts) := by
  constructor
  · rintro (_ | ⟨entry, others⟩) ⟨distinct, rules⟩ ordinary
    · rfl
    · have read := @rules_of_line [] (by simp) entry others rules
      rw [parseNameserverPolicy, formatNameserverPolicy, List.map_cons, intercalate_eq,
        List.map_map]
      rw [List.nil_append] at read
      refine (congrArg _ read).trans (foldl_assignEntry ?_ ?_)
      · simpa [OrderedMap.Distinct, OrderedMap.keys, listed, Function.comp_def] using distinct
      · intro each inside
        obtain ⟨own, member, rfl⟩ := List.mem_map.mp inside
        exact ordinary own member
  · rintro (_ | ⟨entry, others⟩) ⟨distinct, kinds⟩ ordinary trimmed
    · rfl
    · have items : ∀ item ∈ formatEntry entry :: others.map (unit ' ' :: formatEntry ·),
          unit ',' ∉ item := by
        refine List.forall_mem_cons.mpr
          ⟨formatEntry_free (kinds _ List.mem_cons_self), fun item inside => ?_⟩
        obtain ⟨each, member, rfl⟩ := List.mem_map.mp inside
        have free := formatEntry_free (kinds each (List.mem_cons_of_mem _ member))
        exact List.not_mem_cons_of_ne_of_not_mem (by decide) free
      have own {each : Text × Value} (member : each ∈ entry :: others) : Trimmed [each] :=
        fun _ inside => List.mem_singleton.mp inside ▸ trimmed each member
      have first : hostOf (formatEntry entry) = some entry :=
        @hostOf_entry [] (by simp) entry (kinds _ List.mem_cons_self) (own List.mem_cons_self)
      have later : others.filterMap (fun each => hostOf (unit ' ' :: formatEntry each)) = others := by
        refine (List.filterMap_congr fun each member => ?_).trans List.filterMap_some
        have listed := List.mem_cons_of_mem entry member
        exact @hostOf_entry [unit ' '] (List.forall_mem_singleton.mpr rfl) each (kinds each listed) (own listed)
      rw [parseHosts_eq, formatHosts, List.map_cons, intercalate_eq, List.map_map]
      have read : ((join (unit ',') (formatEntry entry :: others.map (unit ' ' :: formatEntry ·))
          ).splitOn (unit ',')).filterMap hostOf = entry :: others := by
        rw [splitOn_texts (List.cons_ne_nil _ _) items, List.filterMap_cons_some first,
          List.filterMap_map]
        exact congrArg _ later
      exact (congrArg _ read).trans (@foldl_assignEntry [] _ distinct ordinary)

/-- Hosts that are not read back: blanks are taken off, an empty value is left out, and the
prototype has no entry. -/
def lostHosts : List Entries :=
  [[(text " a", .single (text "1.1.1.1"))], [(text "a", .single (text " "))],
    [(text "a", .list [text " b", text "c"])], [(text "a", .list [text "b", []])],
    [(text "__proto__", .single (text "1.1.1.1"))]]

theorem fields_lose : (IsMap IsRule [(text "__proto__", .single (text "1.1.1.1"))] ∧
      parseNameserverPolicy (formatNameserverPolicy [(text "__proto__", .single (text "1.1.1.1"))]) =
        []) ∧
    ∀ hosts ∈ lostHosts, IsMap IsHost hosts ∧ parseHosts (formatHosts hosts) ≠ hosts := by
  unfold IsMap IsRule IsHost Unmarked OrderedMap.Distinct
  refine ⟨⟨?_, ?_⟩, List.forall_iff_forall_mem.mp ?_⟩
  · decide +kernel
  · decide +kernel
  · refine ⟨?_, ?_, ?_, ?_, ?_⟩ <;> decide +kernel

theorem fields_round_trip_sample : parseNameserverPolicy (formatNameserverPolicy
      [(text "rule-set:a,b", .list [text "https://1.1.1.1/dns-query#p&h3=true", text "8.8.8.8"]),
        (text "+.lan", .single (text "system"))]) =
      [(text "rule-set:a,b", .list [text "https://1.1.1.1/dns-query#p&h3=true", text "8.8.8.8"]),
        (text "+.lan", .list [text "system"])] ∧
    parseHosts (formatHosts
      [(text "*.a", .list [text "1.1.1.1", text "::1"]), (text "b", .single (text "c"))]) =
      [(text "*.a", .list [text "1.1.1.1", text "::1"]), (text "b", .single (text "c"))] := by
  refine ⟨fields_round_trip.1 _ ?_ ?_, fields_round_trip.2 _ ?_ ?_ ?_⟩
  · unfold IsMap IsRule Unmarked OrderedMap.Distinct
    decide +kernel
  · unfold Ordinary
    decide +kernel
  · unfold IsMap IsHost Unmarked OrderedMap.Distinct
    decide +kernel
  · unfold Ordinary
    decide +kernel
  · unfold Trimmed
    decide +kernel

end ClashVerge.DnsViewer
