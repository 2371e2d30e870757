import Mathlib.Data.List.Sort
import ClashVerge.Enhance.BindAddress
import ClashVerge.Library.SortedMap

/-!
# Application rules

A rule sends the connections of an application to a strategy group. Rules are compiled before they
are published: each enabled rule gets the number of its group, and each group the port of its
listener. The primary group has number 0, the others follow in order of their names.
-/

namespace ClashVerge.AppProxy

open ClashVerge.Enhance
open OrderedMap (get keys)

theorem bind_ok {Result Next : Type} {first : Except String Result}
    {later : Result → Except String Next} {last : Next} (succeeds : first.bind later = .ok last) :
    ∃ result, first = .ok result ∧ later result = .ok last := by
  cases first with
  | error error => contradiction
  | ok result => exact ⟨result, rfl, succeeds⟩

theorem map_ok {Result Next : Type} {first : Except String Result} {later : Result → Next}
    {last : Next} (succeeds : first.map later = .ok last) :
    ∃ result, first = .ok result ∧ later result = last := by
  cases first with
  | error error => contradiction
  | ok result => exact ⟨result, rfl, Except.ok.inj succeeds⟩

structure AppProxyRule where
  id : String
  name : String
  enabled : Bool
  processName : String
  cmdlinePattern : String
  hackTree : Bool
  proxyGroupId : Nat
  strategyGroup : String
  protocol : String
deriving DecidableEq

structure ManagedListenerSpec where
  name : String
  port : Nat
  group : Option String
deriving DecidableEq

/-- An entry of `proxy_groups`, as the helper is sent it. -/
structure ProxyGroup where
  id : Nat
  name : String
  host : String
  port : Nat
deriving DecidableEq

abbrev Listeners := List (String × ManagedListenerSpec)

def trimMatches (char : Char) (chars : List Char) : List Char :=
  ((chars.dropWhile (· == char)).reverse.dropWhile (· == char)).reverse

def trimEnd (chars : List Char) : List Char := (chars.reverse.dropWhile isWhitespace).reverse

/-- The patterns that match interpreters or the application itself. -/
def broadMatches : List String :=
  ["", "node.exe", "python.exe", "pythonw.exe", "clew.exe", "verge-mihomo.exe", "clash-verge.exe",
    "clash-verge-clew-internal.exe"]

def interpreters : List String := ["node.exe", "python.exe", "pythonw.exe"]

/-- What one turn of the loop of `compile_rules` makes sure of, with the ids it has seen. -/
def checkRule (names : List String) (rule : AppProxyRule) : Except String Unit :=
  let pattern := trim rule.cmdlinePattern.toList
  let broadMatch := (trimMatches '*' pattern).map Char.toLower
  let executableOnly := trimEnd (trimMatches '"' broadMatch)
  if trim rule.id.toList = [] ∨ rule.id ∈ names then
    .error "application rule ids must be unique and nonempty"
  else if pattern = [] then .error "application rule match must not be empty"
  else if broadMatches.any (·.toList == broadMatch) then
    .error ("rule match is too broad or targets proxy infrastructure: " ++ rule.cmdlinePattern)
  else if interpreters.any fun name => name.toList.isSuffixOf executableOnly then
    .error "script interpreter rules require a specific script command line"
  else if rule.protocol ≠ "tcp" then
    .error "application proxy currently supports TCP rules only"
  else .ok ()

def checkRules : List String → List AppProxyRule → Except String Unit
  | _, [] => .ok ()
  | names, rule :: rest => (checkRule names rule).bind fun _ => checkRules (rule.id :: names) rest

def addDestination (destinations : List String) (rule : AppProxyRule) : List String :=
  if rule.enabled ∧ rule.strategyGroup ∉ destinations then destinations ++ [rule.strategyGroup]
  else destinations

def destinations (rules : List AppProxyRule) (primaryGroup : String) : List String :=
  match rules.foldl addDestination [primaryGroup] with
  | [] => []
  | first :: rest => first :: rest.insertionSort (· ≤ ·)

def AppProxyRule.compile (destinations : List String) (rule : AppProxyRule) :
    Except String AppProxyRule :=
  if rule.enabled then
    match destinations.findIdx? (· == rule.strategyGroup) with
    | some position => .ok { rule with proxyGroupId := position % UInt32.size }
    | none => .error "missing application strategy binding"
  else .ok rule

def compileAll (destinations : List String) : List AppProxyRule → Except String (List AppProxyRule)
  | [] => .ok []
  | rule :: rest =>
    (rule.compile destinations).bind fun compiled =>
      (compileAll destinations rest).map (compiled :: ·)

/-- The destinations as groups, numbered from a given id. -/
def proxyGroups (listeners : Listeners) : Nat → List String → Except String (List ProxyGroup)
  | _, [] => .ok []
  | id, name :: rest =>
    match get listeners name with
    | none => .error ("missing managed listener for " ++ name)
    | some spec => (proxyGroups listeners (id + 1) rest).map (⟨id, name, "127.0.0.1", spec.port⟩ :: ·)

def compileRules (rules : List AppProxyRule) (primaryGroup : String) (listeners : Listeners) :
    Except String (List AppProxyRule × List ProxyGroup) :=
  (checkRules [] rules).bind fun _ =>
    (compileAll (destinations rules primaryGroup) rules).bind fun compiled =>
      (proxyGroups listeners 0 (destinations rules primaryGroup)).map fun groups =>
        (compiled, groups)

def requiredGroups (rules : List AppProxyRule) (primaryGroup : String) : List String :=
  keys ((rules.filter (·.enabled)).foldl
    (fun groups rule => SortedMap.insert groups rule.strategyGroup ()) [(primaryGroup, ())])

def Required (rules : List AppProxyRule) (primaryGroup group : String) : Prop :=
  group = primaryGroup ∨ ∃ rule ∈ rules, rule.enabled = true ∧ rule.strategyGroup = group

section

variable {rules : List AppProxyRule} {primaryGroup group : String}

theorem mem_requiredGroups : group ∈ requiredGroups rules primaryGroup ↔
    Required rules primaryGroup group := by
  have grows : ∀ (rules : List AppProxyRule) (groups : List (String × Unit)),
      group ∈ keys ((rules.filter (·.enabled)).foldl
        (fun groups rule => SortedMap.insert groups rule.strategyGroup ()) groups) ↔
      group ∈ keys groups ∨
        ∃ rule ∈ rules, rule.enabled = true ∧ rule.strategyGroup = group := by
    intro rules
    induction rules with
    | nil => simp
    | cons rule rest ih =>
      intro groups
      by_cases enabled : rule.enabled = true
      · rw [List.filter_cons_of_pos enabled, List.foldl_cons, ih,
          SortedMap.mem_keys_insert]
        simp only [List.mem_cons, exists_eq_or_imp, enabled, true_and]
        tauto
      · rw [List.filter_cons_of_neg enabled, ih]
        simp [enabled]
  rw [requiredGroups, grows]
  simp [Required]

theorem requiredGroups_sorted : (requiredGroups rules primaryGroup).Pairwise (· < ·) := by
  have keeps : ∀ (rules : List AppProxyRule) (groups : List (String × Unit)),
      SortedMap.Sorted groups → SortedMap.Sorted (rules.foldl
        (fun groups rule => SortedMap.insert groups rule.strategyGroup ()) groups) := by
    intro rules
    induction rules with
    | nil => exact fun groups sorted => sorted
    | cons rule rest ih =>
      exact fun groups sorted => ih _ (sorted.insert _ _)
  exact keeps _ _ (List.pairwise_singleton ..)

theorem mem_destinations : group ∈ destinations rules primaryGroup ↔
    Required rules primaryGroup group := by
  have grows : ∀ (rules : List AppProxyRule) (found : List String),
      group ∈ rules.foldl addDestination found ↔
        group ∈ found ∨ ∃ rule ∈ rules, rule.enabled = true ∧ rule.strategyGroup = group := by
    intro rules
    induction rules with
    | nil => simp
    | cons rule rest ih =>
      intro found
      rw [List.foldl_cons, ih, addDestination]
      by_cases joins : rule.enabled = true ∧ rule.strategyGroup ∉ found
      · rw [if_pos joins]
        have turned : group = rule.strategyGroup ↔ rule.strategyGroup = group := eq_comm
        simp only [List.mem_append, List.mem_cons, List.not_mem_nil, or_false, exists_eq_or_imp,
          joins.1, true_and, turned, or_assoc]
      · rw [if_neg joins]
        have known : rule.enabled = true → rule.strategyGroup = group → group ∈ found := by
          rintro enabled rfl
          by_contra away
          exact joins ⟨enabled, away⟩
        simp only [List.mem_cons, exists_eq_or_imp]
        constructor
        · exact Or.imp_right .inr
        · rintro (inside | ⟨enabled, same⟩ | later)
          · exact .inl inside
          · exact .inl (known enabled same)
          · exact .inr later
  have same : group ∈ destinations rules primaryGroup ↔
      group ∈ rules.foldl addDestination [primaryGroup] := by
    unfold destinations
    split
    · rename_i empty
      rw [empty]
    · rename_i first rest found
      rw [found, List.mem_cons, List.mem_cons, List.mem_insertionSort]
  rw [same, grows]
  simp [Required]

variable {listeners others : Listeners} {compiled : List AppProxyRule} {groups : List ProxyGroup}

/-- What the checks and the destinations look at. -/
structure Alike (rule other : AppProxyRule) : Prop where
  id : other.id = rule.id
  pattern : other.cmdlinePattern = rule.cmdlinePattern
  protocol : other.protocol = rule.protocol
  enabled : other.enabled = rule.enabled
  strategyGroup : other.strategyGroup = rule.strategyGroup

theorem compile_alike {rule bound : AppProxyRule} {found : List String}
    (compiles : rule.compile found = .ok bound) :
    Alike rule bound ∧ bound.compile found = .ok bound := by
  unfold AppProxyRule.compile at compiles
  split at compiles
  · rename_i enabled
    split at compiles
    · rename_i position is_
      cases compiles
      exact ⟨⟨rfl, rfl, rfl, rfl, rfl⟩, by simp [AppProxyRule.compile, enabled, is_]⟩
    · contradiction
  · rename_i disabled
    cases compiles
    exact ⟨⟨rfl, rfl, rfl, rfl, rfl⟩, by simp [AppProxyRule.compile, disabled]⟩

theorem compileAll_alike {found : List String} (compiles : compileAll found rules = .ok compiled) :
    List.Forall₂ Alike rules compiled ∧ compileAll found compiled = .ok compiled := by
  induction rules generalizing compiled with
  | nil =>
    cases compiles
    exact ⟨List.Forall₂.nil, rfl⟩
  | cons rule rest ih =>
    obtain ⟨bound, first, compiles⟩ := bind_ok compiles
    obtain ⟨remaining, later, rfl⟩ := map_ok compiles
    obtain ⟨alike, again⟩ := compile_alike first
    obtain ⟨rests, rest⟩ := ih later
    exact ⟨List.Forall₂.cons alike rests, by simp [compileAll, again, rest, Except.bind, Except.map]⟩

section

variable (alike : List.Forall₂ Alike rules compiled)
include alike

theorem checkRules_alike (names : List String) :
    checkRules names compiled = checkRules names rules := by
  induction alike generalizing names with
  | nil => rfl
  | cons first _ ih =>
    simp only [checkRules, checkRule, first.id, first.pattern, first.protocol, ih]

theorem destinations_alike (primaryGroup : String) :
    destinations compiled primaryGroup = destinations rules primaryGroup := by
  have folds : ∀ found, compiled.foldl addDestination found = rules.foldl addDestination found := by
    intro found
    induction alike generalizing found with
    | nil => rfl
    | cons first _ ih =>
      simp only [List.foldl_cons, addDestination, first.enabled, first.strategyGroup,
        ih]
  rw [destinations, destinations, folds]

theorem required_alike :
    Required compiled primaryGroup group ↔ Required rules primaryGroup group := by
  rw [← mem_destinations, destinations_alike alike, mem_destinations]

end

theorem proxyGroups_congr {found : List String}
    (agree : ∀ name ∈ found, get others name = get listeners name) (id : Nat) :
    proxyGroups others id found = proxyGroups listeners id found := by
  induction found generalizing id with
  | nil => rfl
  | cons name rest ih =>
    obtain ⟨first, later⟩ := List.forall_mem_cons.mp agree
    simp only [proxyGroups, first, ih later]

theorem compileRules_ok
    (compiles : compileRules rules primaryGroup listeners = .ok (compiled, groups)) :
    checkRules [] rules = .ok () ∧
      compileAll (destinations rules primaryGroup) rules = .ok compiled ∧
      proxyGroups listeners 0 (destinations rules primaryGroup) = .ok groups := by
  obtain ⟨_, checked, compiles⟩ := bind_ok compiles
  obtain ⟨found, all, compiles⟩ := bind_ok compiles
  obtain ⟨numbered, published, both⟩ := map_ok compiles
  cases both
  exact ⟨checked, all, published⟩

theorem compileRules_alike
    (compiles : compileRules rules primaryGroup listeners = .ok (compiled, groups)) :
    List.Forall₂ Alike rules compiled :=
  (compileAll_alike (compileRules_ok compiles).2.1).1

theorem compileRules_congr (agree : ∀ name, Required rules primaryGroup name →
      get others name = get listeners name) :
    compileRules rules primaryGroup others = compileRules rules primaryGroup listeners := by
  rw [compileRules, compileRules,
    proxyGroups_congr (fun name is_ => agree name (mem_destinations.mp is_)) 0]

theorem compileRules_again
    (compiles : compileRules rules primaryGroup listeners = .ok (compiled, groups))
    (agree : ∀ name, Required rules primaryGroup name →
      get others name = get listeners name) :
    compileRules compiled primaryGroup others = .ok (compiled, groups) := by
  obtain ⟨checked, all, published⟩ := compileRules_ok compiles
  obtain ⟨alike, again⟩ := compileAll_alike all
  have same := proxyGroups_congr (fun name is_ => agree name (mem_destinations.mp is_)) 0
  simp only [compileRules, checkRules_alike alike, destinations_alike alike, checked, again, same,
    published, Except.bind, Except.map]

end

end ClashVerge.AppProxy
