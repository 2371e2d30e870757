import ClashVerge.AppProxy.Manager
import ClashVerge.AppProxy.RuleSet
import ClashVerge.Library.Json
import Mathlib.Data.List.Perm.Subperm

/-!
# When published rules are accepted

`wait_rules_applied` compares the numbers of groups and rules that the helper reports, and looks for
each expected group by three of its fields and each rule by six. Compiled ones have different ids,
so with equal numbers exactly the expected ones are reported.
-/

namespace ClashVerge.AppProxy

/-- Two lists of equal lengths, where each member of the first has an equal in the second. -/
def matchesAll {Expected Reported Fields : Type} [DecidableEq Fields]
    (expectedFields : Expected → Fields) (fields : Reported → Fields) (expected : List Expected)
    (reported : List Reported) : Bool :=
  reported.length == expected.length &&
    expected.all fun one => reported.any fun other => fields other = expectedFields one

def groupFields (group : Json) : Option Json × Option Json × Option Json :=
  (group.get "id", group.get "port", group.get "host")

structure RuleFields where
  id : Option String
  cmdlinePattern : Option String
  proxyGroupId : Option Nat
  enabled : Option Bool
  protocol : Option String
  hackTree : Option Bool
deriving DecidableEq

def ruleFields (rule : Json) : RuleFields where
  id := (rule.get "id").bind Json.asStr
  cmdlinePattern := (rule.get "cmdline_pattern").bind Json.asStr
  proxyGroupId := (rule.get "proxy_group_id").bind Json.asU64
  enabled := (rule.get "enabled").bind Json.asBool
  protocol := (rule.get "protocol").bind Json.asStr
  hackTree := (rule.get "hack_tree").bind Json.asBool

def AppProxyRule.fields (rule : AppProxyRule) : RuleFields :=
  ⟨some rule.id, some rule.cmdlinePattern, some rule.proxyGroupId, some rule.enabled,
    some rule.protocol, some rule.hackTree⟩

def groupReady (config : Json) (expectedGroups : List Json) : Bool :=
  match (config.get "proxy_groups").bind Json.asArray with
  | some groups => matchesAll groupFields groupFields expectedGroups groups
  | none => false

def ruleReady (config : Json) (expectedRules : Option (List AppProxyRule)) : Bool :=
  match (config.get "auto_rules").bind Json.asArray with
  | some rules =>
    match expectedRules with
    | some expected => matchesAll AppProxyRule.fields ruleFields expected rules
    | none => true
  | none => false

def observedRulesRevision (status : Option Json) : Option Nat :=
  (status.bind (Json.get "rules_revision")).bind Json.asU64

def revisionReady (status : Option Json) (expectedVersion : Nat) : Bool :=
  observedRulesRevision status == some expectedVersion

/-- The comparison of `wait_rules_applied`, which ends its wait. -/
def accepts (config : Json) (status : Option Json) (expectedRules : Option (List AppProxyRule))
    (expectedGroups : List Json) (expectedVersion : Nat) : Bool :=
  groupReady config expectedGroups && ruleReady config expectedRules &&
    revisionReady status expectedVersion

/-- Nothing is missing, nothing is extra and nothing is there twice. -/
structure SameSet {Fields : Type} (reported expected : List Fields) : Prop where
  members : ∀ fields, fields ∈ reported ↔ fields ∈ expected
  distinct : reported.Nodup

section

variable {Expected Reported Fields : Type} [DecidableEq Fields] {expectedFields : Expected → Fields}
  {fields : Reported → Fields} {expected : List Expected} {reported : List Reported}

theorem matchesAll_iff (distinct : (expected.map expectedFields).Nodup) :
    matchesAll expectedFields fields expected reported = true ↔
      SameSet (reported.map fields) (expected.map expectedFields) := by
  have included : (expected.all fun one => reported.any fun other =>
      fields other = expectedFields one) = true ↔
      expected.map expectedFields ⊆ reported.map fields := by
    simp only [List.all_eq_true, List.any_eq_true, decide_eq_true_eq, List.subset_def,
      List.mem_map, forall_exists_index, and_imp, forall_apply_eq_imp_iff₂]
  rw [matchesAll, Bool.and_eq_true, beq_iff_eq, included]
  constructor
  · rintro ⟨lengths, subset⟩
    have permuted : (expected.map expectedFields).Perm (reported.map fields) := by
      refine (List.subperm_of_subset distinct subset).perm_of_length_le ?_
      rw [List.length_map, List.length_map, lengths]
    exact ⟨fun each => permuted.symm.mem_iff, permuted.nodup_iff.mp distinct⟩
  · rintro ⟨members, once⟩
    have permuted := (List.perm_ext_iff_of_nodup once distinct).mpr members
    have lengths := permuted.length_eq
    rw [List.length_map, List.length_map] at lengths
    exact ⟨lengths, fun each listed => (members each).mpr listed⟩

end

theorem nodup_groupFields {groups : List Json} (unique : (groups.map (Json.get "id")).Nodup) :
    (groups.map groupFields).Nodup := by
  refine List.Nodup.of_map Prod.fst ?_
  rwa [List.map_map]

theorem nodup_fields {rules : List AppProxyRule} (unique : (rules.map (·.id)).Nodup) :
    (rules.map AppProxyRule.fields).Nodup := by
  refine List.Nodup.of_map RuleFields.id ?_
  rw [List.map_map]
  have some_ := unique.map (Option.some_injective String)
  rwa [List.map_map] at some_

/-- Where the expected rules and groups have different ids, what the helper answers is accepted
exactly if it reports the expected version and, in any order, the expected groups and rules. -/
theorem accepts_iff {expectedRules : List AppProxyRule} {expectedGroups : List Json}
    (uniqueRules : (expectedRules.map (·.id)).Nodup)
    (uniqueGroups : (expectedGroups.map (Json.get "id")).Nodup) (config : Json)
    (status : Option Json) (expectedVersion : Nat) :
    accepts config status (some expectedRules) expectedGroups expectedVersion = true ↔
      (∃ groups, (config.get "proxy_groups").bind Json.asArray = some groups ∧
        SameSet (groups.map groupFields) (expectedGroups.map groupFields)) ∧
      (∃ rules, (config.get "auto_rules").bind Json.asArray = some rules ∧
        SameSet (rules.map ruleFields) (expectedRules.map AppProxyRule.fields)) ∧
      observedRulesRevision status = some expectedVersion := by
  have groups : groupReady config expectedGroups = true ↔
      ∃ groups, (config.get "proxy_groups").bind Json.asArray = some groups ∧
        SameSet (groups.map groupFields) (expectedGroups.map groupFields) := by
    unfold groupReady
    cases (config.get "proxy_groups").bind Json.asArray with
    | none => simp
    | some groups => simp [matchesAll_iff (nodup_groupFields uniqueGroups)]
  have rules : ruleReady config (some expectedRules) = true ↔
      ∃ rules, (config.get "auto_rules").bind Json.asArray = some rules ∧
        SameSet (rules.map ruleFields) (expectedRules.map AppProxyRule.fields) := by
    unfold ruleReady
    cases (config.get "auto_rules").bind Json.asArray with
    | none => simp
    | some rules => simp [matchesAll_iff (nodup_fields uniqueRules)]
  rw [accepts, Bool.and_eq_true, Bool.and_eq_true, groups, rules, revisionReady, beq_iff_eq,
    and_assoc]

/-- Two rules and two groups that a helper reports the other way round. -/
def matchRule (id : String) (proxyGroupId : Nat) : AppProxyRule :=
  ⟨id, id, true, "", id ++ ".exe", false, proxyGroupId, "regular", "tcp"⟩

def groupEntry (id port : Nat) : Json :=
  .object [("host", .string "127.0.0.1"), ("id", .natural id), ("port", .natural port)]

def ruleEntry (id : String) (proxyGroupId : Nat) : Json :=
  .object [("cmdline_pattern", .string (id ++ ".exe")), ("enabled", .bool true),
    ("hack_tree", .bool false), ("id", .string id), ("protocol", .string "tcp"),
    ("proxy_group_id", .natural proxyGroupId)]

theorem reordered_accepted :
    accepts (.object [("auto_rules", .array [ruleEntry "b" 1, ruleEntry "a" 0]),
        ("proxy_groups", .array [groupEntry 1 7002, groupEntry 0 7001])])
      (some (.object [("rules_revision", .natural 3)])) (some [matchRule "a" 0, matchRule "b" 1])
      [groupEntry 0 7001, groupEntry 1 7002] 3 = true := by
  refine (accepts_iff (by decide) (by decide) _ _ _).mpr ⟨⟨_, rfl, ?_, by decide⟩,
    ⟨_, rfl, ?_, by decide⟩, rfl⟩
  · exact fun fields => (List.Perm.swap _ _ []).mem_iff
  · exact fun fields => (List.Perm.swap _ _ []).mem_iff

/-- A group as `compile_rules` writes it. -/
def ProxyGroup.toJson (group : ProxyGroup) : Json :=
  .object [("host", .string group.host), ("id", .natural group.id), ("name", .string group.name),
    ("port", .natural group.port)]

def AppProxyRule.toJson (rule : AppProxyRule) : Json :=
  .object [("cmdline_pattern", .string rule.cmdlinePattern), ("enabled", .bool rule.enabled),
    ("hack_tree", .bool rule.hackTree), ("id", .string rule.id), ("name", .string rule.name),
    ("process_name", .string rule.processName), ("protocol", .string rule.protocol),
    ("proxy_group_id", .natural rule.proxyGroupId), ("strategy_group", .string rule.strategyGroup)]

/-- The configuration of a helper that reports the rules and groups it has. -/
def ManagedProcess.config (process : ManagedProcess) : Json :=
  .object [("auto_rules", .array (process.rules.map AppProxyRule.toJson)),
    ("proxy_groups", .array (process.groups.map ProxyGroup.toJson))]

def ManagedProcess.status (process : ManagedProcess) : Json :=
  .object [("rules_revision", .natural process.rulesRevision)]

end ClashVerge.AppProxy
