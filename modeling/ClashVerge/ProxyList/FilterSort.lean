import ClashVerge.ProxyList.View

/-!
# Filtering and sorting the members of a group

The text of a group's filter asks for delays, for a type, or for names. A delay is looked up in the
store, which knows the values that measure nothing: zero or at least the timeout says that a test
ran into it, more than 100000 that it failed, -2 that it runs, and anything else below zero that
there is none.

Lower case, the order of a locale and the platform's regular expressions are parameters.
-/

namespace ClashVerge.ProxyList

open UriParser (Text CodeUnit unit text trim isDigit isLineTerminator lowerAscii digitsValue)

/-! ## Delays -/

def DEFAULT_DELAY_TIMEOUT : Int := 10000

def TESTING : Int := -2

def IMPLAUSIBLE_DELAY : Int := 100000

inductive DelayState where
  | testing
  | untested
  | error
  | timeout
  | measured
deriving DecidableEq, Repr

/-- A delay is an integer here, and so finite. -/
def classifyDelay (delay timeout : Int) : DelayState :=
  if delay = TESTING then .testing
  else if delay < 0 then .untested
  else if delay > IMPLAUSIBLE_DELAY then .error
  else if delay = 0 ∨ delay ≥ timeout then .timeout
  else .measured

def rankOf : DelayState → Int
  | .measured => 0
  | .timeout => 1
  | .error => 2
  | .testing => 3
  | .untested => 4

def compareByDelay (a b timeout : Int) : Int :=
  let aState := classifyDelay a timeout
  let bState := classifyDelay b timeout
  let rankDifference := rankOf aState - rankOf bState
  if rankDifference ≠ 0 then rankDifference
  else if aState ≠ .measured then 0
  else a - b

/-! ## Matching names -/

structure Platform where
  toLowerCase : Text → Text
  localeCompare : Text → Text → Int
  regExp : Text → Text → Option (Text → Bool)

/-- A platform for texts of ASCII, without patterns. -/
def asciiPlatform : Platform where
  toLowerCase := List.map lowerAscii
  localeCompare one other := if one = other then 0 else if one < other then -1 else 1
  regExp _ _ := none

structure ProxySearchState where
  matchCase : Option Bool
  matchWholeWord : Option Bool
  useRegularExpression : Option Bool
deriving DecidableEq

def includes (content target : Text) : Bool := content.tails.any target.isPrefixOf

/-- The characters that mean something in a pattern. -/
def special : Text := text ".*+?^$\x7b\x7d()|[]\\"

def escapeRegex (value : Text) : Text :=
  value.flatMap fun char => if char ∈ special then [unit '\\', char] else [char]

def compileStringMatcher (platform : Platform) (query : Text)
    (matchCase matchWholeWord useRegularExpression : Bool) : Option (Text → Bool) :=
  let flags := if matchCase then [] else text "i"
  if query = [] then some fun _ => true
  else if useRegularExpression then platform.regExp query flags
  else if matchWholeWord then
    platform.regExp (text "\\b" ++ escapeRegex query ++ text "\\b") flags
  else if matchCase then some fun content => includes content query
  else
    let target := platform.toLowerCase query
    some fun content => includes (platform.toLowerCase content) target

/-! ## The filter -/

/-- What is behind a word, in whatever case it is written. -/
def behindWord (word : Text) (chars : Text) : Option Text :=
  if (chars.take word.length).map lowerAscii = word then some (chars.drop word.length) else none

/-- The last part of `regex1`: digits, or one of two words. -/
def matchOperand (rest : Text) : Option Text :=
  let digits := rest.takeWhile isDigit
  if digits ≠ [] then some digits
  else if (behindWord (text "timeout") rest).isSome then some (rest.take 7)
  else if (behindWord (text "error") rest).isSome then some (rest.take 5)
  else none

/-- `regex1` at one place: its symbol, and what is compared with. -/
def matchDelay (chars : Text) : Option (CodeUnit × Text) :=
  match behindWord (text "delay") chars with
  | some (symbol :: rest) =>
    if symbol ∈ text "=<>" then (matchOperand rest).map fun operand => (symbol, operand) else none
  | _ => none

/-- `regex1.exec`. -/
def regex1 (query : Text) : Option (CodeUnit × Text) := query.tails.findSome? matchDelay

/-- `regex2.exec`: what is behind the word, up to the end of its line. -/
def regex2 (query : Text) : Option Text :=
  query.tails.findSome? fun chars =>
    (behindWord (text "type=") chars).map (·.takeWhile fun char => !isLineTerminator char)

def keepsDelay (symbol : CodeUnit) (symbol2 : Text) (delay : Int) : Bool :=
  let value : Int :=
    if symbol2 = text "error" then 100000
    else if symbol2 = text "timeout" then 3000
    else digitsValue symbol2
  if delay < 0 then false
  else if symbol = unit '=' ∧ symbol2 = text "error" then decide (delay ≥ 100000)
  else if symbol = unit '=' ∧ symbol2 = text "timeout" then
    decide (delay < 100000 ∧ delay ≥ 3000)
  else if symbol = unit '=' then decide (delay = value)
  else if symbol = unit '<' then decide (delay ≤ value)
  else if symbol = unit '>' then decide (delay ≥ value)
  else false

section

variable (platform : Platform) (getDelayFix : ResolvedProxyMember → Int)

def filterProxies (proxies : List ResolvedMemberOccurrence) (filterText : Text)
    (searchState : Option ProxySearchState) : List ResolvedMemberOccurrence :=
  let query := trim filterText
  if query = [] then proxies
  else
    match regex1 query with
    | some (symbol, operand) =>
      let symbol2 := operand.map lowerAscii
      proxies.filter fun occurrence => keepsDelay symbol symbol2 (getDelayFix occurrence.member)
    | none =>
      match regex2 query with
      | some name =>
        let type := platform.toLowerCase name
        proxies.filter fun occurrence =>
          includes (platform.toLowerCase (occurrence.member.type.getD [])) type
      | none =>
        let search := searchState.getD ⟨none, none, none⟩
        match compileStringMatcher platform query (search.matchCase.getD false)
            (search.matchWholeWord.getD false) (search.useRegularExpression.getD false) with
        | none => []
        | some matcher => proxies.filter fun occurrence => matcher occurrence.member.name

inductive ProxySortType where
  | default
  | delay
  | name
deriving DecidableEq

def sortProxies (proxies : List ResolvedMemberOccurrence) (sortType : ProxySortType)
    (latencyTimeout : Option Int) : List ResolvedMemberOccurrence :=
  let effectiveTimeout := (latencyTimeout.filter (0 < ·)).getD DEFAULT_DELAY_TIMEOUT
  match sortType with
  | .default => proxies
  | .delay =>
    if 1 < proxies.length then
      let delays := proxies.map fun proxy => (proxy, getDelayFix proxy.member)
      (delays.mergeSort fun a b => compareByDelay a.2 b.2 effectiveTimeout ≤ 0).map Prod.fst
    else proxies
  | .name => proxies.mergeSort fun a b => platform.localeCompare a.member.name b.member.name ≤ 0

def filterSort (proxies : List ResolvedMemberOccurrence) (filterText : Text)
    (sortType : ProxySortType) (latencyTimeout : Option Int)
    (searchState : Option ProxySearchState) : List ResolvedMemberOccurrence :=
  sortProxies platform getDelayFix (filterProxies platform getDelayFix proxies filterText searchState)
    sortType latencyTimeout

end

end ClashVerge.ProxyList
