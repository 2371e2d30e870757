import ClashVerge.Delay.Ownership
import ClashVerge.ProxyList.FilterSort
import Mathlib.Data.List.Infix
import Mathlib.Data.List.Sort
import Mathlib.Data.Prod.Lex

/-!
# Filter, classification and order of the delays

The order ranks what the classification says, and is a total preorder: sorted lists of the same
members differ only in ties. The filter compares with constants of its own. It agrees with the
classification exactly on lists in which every measured delay is below the least of them, and no
test has failed or run into its timeout.
-/

namespace ClashVerge.ProxyList

open Delay (Manager)
open UriParser (forall_of_all Text unit text trim isDigit isWhiteSpace lowerAscii digitsValue decimal
  digitsValue_decimal decimal_digits digit_visible trim_of_visible)

/-! ## The order -/

section

variable (timeout : Int)

def delayKey (delay : Int) : Lex (Int × Int) :=
  toLex (rankOf (classifyDelay delay timeout),
    if classifyDelay delay timeout = .measured then delay else 0)

theorem rankOf_injective : Function.Injective rankOf := by
  intro one other same
  cases one <;> cases other <;> first | rfl | cases same

theorem compareByDelay_le_iff (a b : Int) :
    compareByDelay a b timeout ≤ 0 ↔ delayKey timeout a ≤ delayKey timeout b := by
  unfold compareByDelay delayKey
  rw [Prod.Lex.toLex_le_toLex]
  by_cases same : classifyDelay a timeout = classifyDelay b timeout
  · simp only [same]
    by_cases measured : classifyDelay b timeout = .measured
    · simp only [measured, Int.sub_self, ne_eq, not_true_eq_false, if_false, if_true, lt_irrefl,
        false_or, true_and]
      omega
    · simp [measured]
  · have apart : rankOf (classifyDelay a timeout) ≠ rankOf (classifyDelay b timeout) :=
      fun equal => same (rankOf_injective equal)
    dsimp only
    rw [if_pos (by omega)]
    omega

theorem compareByDelay_eq_zero_iff (a b : Int) :
    compareByDelay a b timeout = 0 ↔ delayKey timeout a = delayKey timeout b := by
  have antisymmetric : compareByDelay b a timeout = - compareByDelay a b timeout := by
    unfold compareByDelay
    by_cases same : classifyDelay a timeout = classifyDelay b timeout
    · simp only [same, Int.sub_self, ne_eq, not_true_eq_false, if_false]
      split <;> omega
    · have apart : rankOf (classifyDelay a timeout) ≠ rankOf (classifyDelay b timeout) :=
        fun equal => same (rankOf_injective equal)
      dsimp only
      rw [if_pos (by omega), if_pos (by omega)]
      omega
  have one := compareByDelay_le_iff timeout a b
  have other := compareByDelay_le_iff timeout b a
  constructor
  · intro zero
    exact le_antisymm (one.mp (by omega)) (other.mp (by omega))
  · intro same
    have first := one.mpr same.le
    have second := other.mpr same.ge
    omega

variable (platform : Platform) (getDelayFix : ResolvedProxyMember → Int)

def sorted (members : List ResolvedMemberOccurrence) : List ResolvedMemberOccurrence :=
  sortProxies platform getDelayFix members .delay (some timeout)

theorem sorted_spec (positive : 0 < timeout) (members : List ResolvedMemberOccurrence) :
    (sorted timeout platform getDelayFix members).Perm members ∧
      (sorted timeout platform getDelayFix members).Pairwise fun one other =>
        delayKey timeout (getDelayFix one.member) ≤ delayKey timeout (getDelayFix other.member) := by
  have effective : ((some timeout).filter (0 < ·)).getD DEFAULT_DELAY_TIMEOUT = timeout := by
    rw [Option.filter_some, if_pos (decide_eq_true positive), Option.getD_some]
  unfold sorted sortProxies
  dsimp only
  rw [effective]
  split
  · let delays := members.map fun proxy => (proxy, getDelayFix proxy.member)
    let before (a b : ResolvedMemberOccurrence × Int) : Bool :=
      decide (compareByDelay a.2 b.2 timeout ≤ 0)
    have iff (a b : ResolvedMemberOccurrence × Int) :
        before a b = true ↔ delayKey timeout a.2 ≤ delayKey timeout b.2 := by
      rw [decide_eq_true_iff, compareByDelay_le_iff]
    constructor
    · refine ((List.mergeSort_perm delays before).map Prod.fst).trans (List.Perm.of_eq ?_)
      rw [List.map_map]
      exact List.map_id members
    · have ordered : (delays.mergeSort before).Pairwise fun a b => before a b = true := by
        apply List.pairwise_mergeSort
        · intro a b c first second
          rw [iff] at first second ⊢
          exact first.trans second
        · intro a b
          rw [Bool.or_eq_true, iff, iff]
          exact le_total _ _
      have looked : ∀ pair ∈ delays.mergeSort before, pair.2 = getDelayFix pair.1.member := by
        intro pair listed
        obtain ⟨proxy, -, rfl⟩ := List.mem_map.mp (List.mem_mergeSort.mp listed)
        rfl
      rw [List.pairwise_map]
      refine ordered.imp_of_mem fun {a b} first second le => ?_
      rw [← looked a first, ← looked b second]
      exact (iff a b).mp le
  · rename_i short
    refine ⟨List.Perm.refl _, ?_⟩
    cases members with
    | nil => exact List.Pairwise.nil
    | cons single rest =>
      have empty : rest = [] := List.eq_nil_of_length_eq_zero (by simpa using short)
      rw [empty]
      exact List.pairwise_singleton _ _

theorem sorted_perm (positive : 0 < timeout) {members others : List ResolvedMemberOccurrence}
    (permuted : members.Perm others) :
    List.Forall₂ (fun one other =>
        compareByDelay (getDelayFix one.member) (getDelayFix other.member) timeout = 0)
      (sorted timeout platform getDelayFix members)
      (sorted timeout platform getDelayFix others) := by
  obtain ⟨kept, ordered⟩ := sorted_spec timeout platform getDelayFix positive members
  obtain ⟨kept', ordered'⟩ := sorted_spec timeout platform getDelayFix positive others
  let key (occurrence : ResolvedMemberOccurrence) : Lex (Int × Int) :=
    delayKey timeout (getDelayFix occurrence.member)
  have same : (sorted timeout platform getDelayFix members).map key =
      (sorted timeout platform getDelayFix others).map key := by
    apply ((kept.trans (permuted.trans kept'.symm)).map key).eq_of_pairwise
    · intro one other _ _ first second
      exact le_antisymm first second
    · exact List.pairwise_map.mpr ordered
    · exact List.pairwise_map.mpr ordered'
  simp only [compareByDelay_eq_zero_iff]
  rw [← List.forall₂_eq_eq_eq, List.forall₂_map_left_iff, List.forall₂_map_right_iff] at same
  exact same

end

/-! ## The filter -/

structure Digits (digits : Text) : Prop where
  nonempty : digits ≠ []
  all : ∀ digit ∈ digits, isDigit digit = true

/-- A query for a delay that the filter takes as it is written. -/
structure Asks (operand : Text) : Prop where
  read : matchOperand operand = some operand
  visible : ∀ char ∈ operand, isWhiteSpace char = false
  lower : operand.map lowerAscii = operand

theorem asks_timeout : Asks (text "timeout") := ⟨by decide, forall_of_all (by decide), by decide⟩

theorem asks_error : Asks (text "error") := ⟨by decide, forall_of_all (by decide), by decide⟩

theorem lowerAscii_digit {char : UInt16} (digit : isDigit char = true) : lowerAscii char = char := by
  have least : (unit 'A').toNat = 65 := rfl
  have last : (unit '9').toNat = 57 := rfl
  unfold lowerAscii
  rw [if_neg]
  simp only [isDigit, Bool.and_eq_true, decide_eq_true_eq, UInt16.le_iff_toNat_le] at digit ⊢
  omega

theorem Digits.asks {digits : Text} (are : Digits digits) : Asks digits where
  read := by
    have whole : digits.takeWhile isDigit = digits := List.takeWhile_eq_self_iff.mpr are.all
    rw [matchOperand, whole]
    exact if_pos are.nonempty
  visible := fun char inside => digit_visible (are.all char inside)
  lower := by
    rw [List.map_congr_left fun char inside => lowerAscii_digit (are.all char inside)]
    exact List.map_id digits

theorem Digits.ne_word {digits : Text} (are : Digits digits) {first : UInt16} {rest : Text}
    (letter : isDigit first = false) : digits ≠ first :: rest := by
  rintro rfl
  rw [are.all first List.mem_cons_self] at letter
  cases letter

section

variable {platform : Platform} {getDelayFix : ResolvedProxyMember → Int}
  {members : List ResolvedMemberOccurrence} {searchState : Option ProxySearchState}

theorem regex1_of_matchDelay {query : Text} {found : UInt16 × Text}
    (matched : matchDelay query = some found) : regex1 query = some found := by
  unfold regex1
  cases query with
  | nil => rw [List.tails, List.findSome?_cons, matched]
  | cons first rest => rw [List.tails_cons, List.findSome?_cons, matched]

theorem filterProxies_delay {symbol : UInt16} (known : symbol ∈ text "=<>") {operand : Text}
    (asks : Asks operand) :
    filterProxies platform getDelayFix members (text "delay" ++ symbol :: operand) searchState =
      members.filter fun occurrence =>
        keepsDelay symbol operand (getDelayFix occurrence.member) := by
  have word : ∀ char ∈ text "delay", isWhiteSpace char = false := forall_of_all (by decide)
  have symbols : ∀ char ∈ text "=<>", isWhiteSpace char = false := forall_of_all (by decide)
  have clear : ∀ char ∈ text "delay" ++ symbol :: operand, isWhiteSpace char = false := by
    intro char inside
    obtain before | written := List.mem_append.mp inside
    · exact word char before
    · obtain rfl | behind := List.mem_cons.mp written
      · exact symbols char known
      · exact asks.visible char behind
  have found : regex1 (text "delay" ++ symbol :: operand) = some (symbol, operand) := by
    have behind : behindWord (text "delay") (text "delay" ++ symbol :: operand) =
        some (symbol :: operand) := by
      unfold behindWord
      rw [List.take_left, List.drop_left]
      exact if_pos (by decide)
    apply regex1_of_matchDelay
    rw [matchDelay, behind]
    dsimp only
    rw [if_pos known, asks.read]
    rfl
  unfold filterProxies
  rw [trim_of_visible clear]
  dsimp only
  rw [if_neg (by simp), found]
  dsimp only
  rw [asks.lower]

theorem keepsDelay_timeout (delay : Int) :
    keepsDelay (unit '=') (text "timeout") delay = true ↔ 3000 ≤ delay ∧ delay < 100000 := by
  have words : ¬ text "timeout" = text "error" := by decide
  simp only [keepsDelay, words, and_false, if_false, true_and, if_true]
  split
  · simp only [Bool.false_eq_true, false_iff]
    omega
  · rw [decide_eq_true_iff]
    omega

theorem keepsDelay_error (delay : Int) :
    keepsDelay (unit '=') (text "error") delay = true ↔ 100000 ≤ delay := by
  simp only [keepsDelay, true_and, if_true]
  split
  · simp only [Bool.false_eq_true, false_iff]
    omega
  · exact decide_eq_true_iff

theorem keepsDelay_digits {digits : Text} (are : Digits digits) (delay : Int) :
    (keepsDelay (unit '<') digits delay = true ↔ 0 ≤ delay ∧ delay ≤ digitsValue digits) ∧
      (keepsDelay (unit '>') digits delay = true ↔ 0 ≤ delay ∧ digitsValue digits ≤ delay) := by
  have error : ¬ digits = text "error" := are.ne_word (by decide)
  have timeout : ¬ digits = text "timeout" := are.ne_word (by decide)
  have below : ¬ unit '<' = unit '=' := by decide
  have above : ¬ unit '>' = unit '=' := by decide
  have apart : ¬ unit '>' = unit '<' := by decide
  simp only [keepsDelay, error, timeout, below, above, apart, and_false, if_false, if_true]
  constructor
  all_goals
    split
    · simp only [Bool.false_eq_true, false_iff]
      omega
    · rw [decide_eq_true_iff]
      omega

end

/-- What the lists of a group say together about the delays of its members. -/
structure Agrees (platform : Platform) (getDelayFix : ResolvedProxyMember → Int) (timeout : Int)
    (members : List ResolvedMemberOccurrence) : Prop where
  timeouts : ∀ searchState,
    filterProxies platform getDelayFix members (text "delay=timeout") searchState =
      members.filter fun occurrence =>
        classifyDelay (getDelayFix occurrence.member) timeout = .timeout
  errors : ∀ searchState,
    filterProxies platform getDelayFix members (text "delay=error") searchState =
      members.filter fun occurrence =>
        classifyDelay (getDelayFix occurrence.member) timeout = .error
  below : ∀ searchState digits, Digits digits →
    filterProxies platform getDelayFix members (text "delay<" ++ digits) searchState =
      members.filter fun occurrence =>
        classifyDelay (getDelayFix occurrence.member) timeout = .measured ∧
          getDelayFix occurrence.member ≤ digitsValue digits
  above : ∀ searchState digits, Digits digits → (digitsValue digits : Int) < timeout →
    ∀ occurrence ∈ filterProxies platform getDelayFix members (text "delay>" ++ digits) searchState,
      classifyDelay (getDelayFix occurrence.member) timeout ≠ .error ∧
        classifyDelay (getDelayFix occurrence.member) timeout ≠ .timeout
  total : ∀ a b, compareByDelay a b timeout ≤ 0 ∨ compareByDelay b a timeout ≤ 0
  transitive : ∀ a b c, compareByDelay a b timeout ≤ 0 → compareByDelay b c timeout ≤ 0 →
    compareByDelay a c timeout ≤ 0
  /-- Measured members come first, by their delays, then the others by their states. -/
  ranked : ∀ a b, compareByDelay a b timeout ≤ 0 ↔
    rankOf (classifyDelay a timeout) < rankOf (classifyDelay b timeout) ∨
      classifyDelay a timeout = classifyDelay b timeout ∧
        (classifyDelay a timeout = .measured → a ≤ b)
  ordered : (sorted timeout platform getDelayFix members).Perm members ∧
    (sorted timeout platform getDelayFix members).Pairwise fun one other =>
      compareByDelay (getDelayFix one.member) (getDelayFix other.member) timeout ≤ 0
  independent : ∀ others, members.Perm others →
    List.Forall₂ (fun one other =>
        compareByDelay (getDelayFix one.member) (getDelayFix other.member) timeout = 0)
      (sorted timeout platform getDelayFix members)
      (sorted timeout platform getDelayFix others)

/-- Nothing is known of the delay, or it was measured below every constant. -/
def Plain (timeout delay : Int) : Prop := delay < 0 ∨ 0 < delay ∧ delay < timeout ∧ delay < 3000

section

variable {timeout : Int}

theorem classifyDelay_measured_iff (delay : Int) :
    classifyDelay delay timeout = .measured ↔ 0 < delay ∧ delay < timeout ∧ delay ≤ 100000 := by
  unfold classifyDelay TESTING IMPLAUSIBLE_DELAY
  split_ifs <;> simp only [false_iff, true_iff] <;> omega

theorem classifyDelay_timeout_iff (delay : Int) : classifyDelay delay timeout = .timeout ↔
      0 ≤ delay ∧ delay ≤ 100000 ∧ (delay = 0 ∨ timeout ≤ delay) := by
  unfold classifyDelay TESTING IMPLAUSIBLE_DELAY
  split_ifs <;> simp only [false_iff, true_iff] <;> omega

theorem classifyDelay_error_iff (delay : Int) :
    classifyDelay delay timeout = .error ↔ 100000 < delay := by
  unfold classifyDelay TESTING IMPLAUSIBLE_DELAY
  split_ifs <;> simp only [false_iff, true_iff] <;> omega

variable {platform : Platform} {getDelayFix : ResolvedProxyMember → Int}
  {members : List ResolvedMemberOccurrence}

theorem filter_eq_filter_iff {one other : ResolvedMemberOccurrence → Bool} :
    members.filter one = members.filter other ↔
      ∀ occurrence ∈ members, (one occurrence = true ↔ other occurrence = true) := by
  constructor
  · intro same occurrence member
    have kept := congrArg (occurrence ∈ ·) same
    simpa [member] using kept
  · intro agree
    exact List.filter_congr fun occurrence member => Bool.eq_iff_iff.mpr (agree occurrence member)

theorem filterProxies_timeout (searchState : Option ProxySearchState) :
    filterProxies platform getDelayFix members (text "delay=timeout") searchState =
      members.filter fun occurrence =>
        keepsDelay (unit '=') (text "timeout") (getDelayFix occurrence.member) :=
  filterProxies_delay (by decide) asks_timeout

theorem filterProxies_error (searchState : Option ProxySearchState) :
    filterProxies platform getDelayFix members (text "delay=error") searchState =
      members.filter fun occurrence =>
        keepsDelay (unit '=') (text "error") (getDelayFix occurrence.member) :=
  filterProxies_delay (by decide) asks_error

theorem filterProxies_below {digits : Text} (are : Digits digits)
    (searchState : Option ProxySearchState) :
    filterProxies platform getDelayFix members (text "delay<" ++ digits) searchState =
      members.filter fun occurrence =>
        keepsDelay (unit '<') digits (getDelayFix occurrence.member) :=
  filterProxies_delay (by decide) are.asks

theorem filterProxies_above {digits : Text} (are : Digits digits)
    (searchState : Option ProxySearchState) :
    filterProxies platform getDelayFix members (text "delay>" ++ digits) searchState =
      members.filter fun occurrence =>
        keepsDelay (unit '>') digits (getDelayFix occurrence.member) :=
  filterProxies_delay (by decide) are.asks

/-- Lists that agree have plain delays only: the filters for the words and for the number itself
tell the others apart. -/
theorem Agrees.plain (agrees : Agrees platform getDelayFix timeout members)
    {occurrence : ResolvedMemberOccurrence} (member : occurrence ∈ members) :
    Plain timeout (getDelayFix occurrence.member) := by
  by_cases negative : getDelayFix occurrence.member < 0
  · exact .inl negative
  · let digits := decimal (getDelayFix occurrence.member).toNat
    have are : Digits digits :=
      ⟨fun none => Nat.toDigits_ne_nil (List.map_eq_nil_iff.mp none), decimal_digits _⟩
    have whole : (digitsValue digits : Int) = getDelayFix occurrence.member := by
      rw [digitsValue_decimal]
      omega
    have below := agrees.below none digits are
    rw [filterProxies_below are, filter_eq_filter_iff] at below
    have timeouts := agrees.timeouts none
    rw [filterProxies_timeout, filter_eq_filter_iff] at timeouts
    have errors := agrees.errors none
    rw [filterProxies_error, filter_eq_filter_iff] at errors
    have measured := below occurrence member
    have untimed := timeouts occurrence member
    have failed := errors occurrence member
    rw [(keepsDelay_digits are _).1, decide_eq_true_iff, classifyDelay_measured_iff, whole]
      at measured
    rw [keepsDelay_timeout, decide_eq_true_iff, classifyDelay_timeout_iff] at untimed
    rw [keepsDelay_error, decide_eq_true_iff, classifyDelay_error_iff] at failed
    unfold Plain
    omega

theorem agrees_of_plain (positive : 0 < timeout)
    (plain : ∀ occurrence ∈ members, Plain timeout (getDelayFix occurrence.member)) :
    Agrees platform getDelayFix timeout members := by
  constructor
  · intro searchState
    rw [filterProxies_timeout, filter_eq_filter_iff]
    intro occurrence member
    have side := plain occurrence member
    rw [keepsDelay_timeout, decide_eq_true_iff, classifyDelay_timeout_iff]
    unfold Plain at side
    omega
  · intro searchState
    rw [filterProxies_error, filter_eq_filter_iff]
    intro occurrence member
    have side := plain occurrence member
    rw [keepsDelay_error, decide_eq_true_iff, classifyDelay_error_iff]
    unfold Plain at side
    omega
  · intro searchState digits are
    rw [filterProxies_below are, filter_eq_filter_iff]
    intro occurrence member
    have side := plain occurrence member
    rw [(keepsDelay_digits are _).1, decide_eq_true_iff, classifyDelay_measured_iff]
    unfold Plain at side
    omega
  · intro searchState digits are small occurrence kept
    rw [filterProxies_above are, List.mem_filter, (keepsDelay_digits are _).2] at kept
    have side := plain occurrence kept.1
    rw [ne_eq, ne_eq, classifyDelay_error_iff, classifyDelay_timeout_iff]
    unfold Plain at side
    omega
  · intro a b
    rw [compareByDelay_le_iff, compareByDelay_le_iff]
    exact le_total _ _
  · intro a b c
    rw [compareByDelay_le_iff, compareByDelay_le_iff, compareByDelay_le_iff]
    exact le_trans
  · intro a b
    rw [compareByDelay_le_iff, delayKey, delayKey, Prod.Lex.toLex_le_toLex]
    apply or_congr_right
    rw [rankOf_injective.eq_iff]
    apply and_congr_right
    intro same
    rw [same]
    by_cases measured : classifyDelay b timeout = .measured
    · simp only [measured, if_true, true_imp_iff]
    · simp only [measured, if_false, le_refl, false_imp_iff]
  · obtain ⟨kept, ordered⟩ := sorted_spec timeout platform getDelayFix positive members
    exact ⟨kept, ordered.imp (compareByDelay_le_iff timeout _ _).mpr⟩
  · intro others permuted
    exact sorted_perm timeout platform getDelayFix positive permuted

end

/-- Filter, classification and order agree exactly on lists of plain delays. -/
theorem agrees_iff (platform : Platform) (manager : Manager) (group : Text) (now : Int)
    (timeout : Int) (positive : 0 < timeout) (members : List ResolvedMemberOccurrence) :
    Agrees platform (fun member => (manager.getDelayFix member.measured group now).1) timeout
        members ↔
      ∀ occurrence ∈ members,
        Plain timeout (manager.getDelayFix occurrence.member.measured group now).1 :=
  ⟨fun agrees _ member => agrees.plain member, fun plain => agrees_of_plain positive plain⟩

/-- A node whose last test took this long. -/
def testedNode (delay : Int) : ResolvedMemberOccurrence where
  memberIndex := 0
  member := .node (text "node") (text "c:0")
    { recordId := text "c:0", name := text "node", type := text "Trojan", alive := true
      history := [⟨text "2024-01-01T00:00:00Z", delay⟩], id := none, hidden := none, icon := none
      testUrl := none, source := .core (text "node")
      capabilities := ⟨true, false, false, false, false⟩ }

theorem agrees_fast_node : Agrees asciiPlatform
    (fun member => (Manager.getDelayFix {} member.measured (text "Proxy") 0).1) 10000
    [testedNode 50] := by
  refine (agrees_iff asciiPlatform {} (text "Proxy") 0 10000 (by decide) [testedNode 50]).mpr ?_
  intro occurrence member
  rw [List.mem_singleton.mp member]
  exact .inr (by decide)

/-- A delay of five seconds is measured, and a filter for timeouts finds it. -/
theorem slow_node_disagrees : ¬ Agrees asciiPlatform
    (fun member => (Manager.getDelayFix {} member.measured (text "Proxy") 0).1) 10000
    [testedNode 5000] := by
  intro agrees
  have timeouts := agrees.timeouts none
  rw [filterProxies_timeout] at timeouts
  exact absurd timeouts (by decide)

end ClashVerge.ProxyList
