import ClashVerge.AppProxy.Rules

/-!
# The rule set that is published

An enabled rule refers to the group it is bound to, whose number fits into 32 bits as long as there
are no more groups than that. A disabled rule is passed on with the number it came with, and refers
to a published group exactly where that number is one.
-/

namespace ClashVerge.AppProxy

def AppProxyRule.unbound (rule : AppProxyRule) : AppProxyRule := { rule with proxyGroupId := 0 }

/-- A rule set that refers to its own groups only: they are numbered in order from the primary one,
have the ports of their listeners and are those that enabled rules need, and the rules differ only
in their group. Compiling again changes nothing. -/
structure ClosedRules (rules : List AppProxyRule) (primaryGroup : String) (listeners : Listeners)
    (compiled : List AppProxyRule) (groups : List ProxyGroup) : Prop where
  ids : groups.map (·.id) = List.range groups.length
  primary : groups.head?.map (·.name) = some primaryGroup
  distinct : (groups.map (·.name)).Nodup
  ports : ∀ group ∈ groups, ∃ spec, OrderedMap.get listeners group.name = some spec ∧
    group.port = spec.port
  required : ∀ name, name ∈ groups.map (·.name) ↔ Required rules primaryGroup name
  bound : ∀ rule ∈ compiled, rule.enabled = true →
    ∃ group ∈ groups, group.name = rule.strategyGroup ∧ group.id = rule.proxyGroupId
  published : ∀ rule ∈ compiled, ∃ group ∈ groups, group.id = rule.proxyGroupId
  unchanged : compiled.map AppProxyRule.unbound = rules.map AppProxyRule.unbound
  again : compileRules compiled primaryGroup listeners = .ok (compiled, groups)

theorem destinations_spec (rules : List AppProxyRule) (primaryGroup : String) :
    (destinations rules primaryGroup).Nodup ∧
    ∃ others, destinations rules primaryGroup = primaryGroup :: others := by
  have grows : ∀ (rules : List AppProxyRule) (found : List String),
      (primaryGroup :: found).Nodup → ∃ others, rules.foldl addDestination (primaryGroup :: found) =
        primaryGroup :: others ∧ (primaryGroup :: others).Nodup := by
    intro rules
    induction rules with
    | nil => exact fun found distinct => ⟨found, rfl, distinct⟩
    | cons rule rest ih =>
      intro found distinct
      rw [List.foldl_cons, addDestination]
      split
      · rename_i joins
        refine ih (found ++ [rule.strategyGroup]) ?_
        rw [← List.cons_append, ← List.concat_eq_append]
        exact distinct.concat joins.2
      · exact ih found distinct
  obtain ⟨others, found, distinct⟩ := grows rules [] (List.nodup_singleton primaryGroup)
  obtain ⟨fresh, rest⟩ := List.nodup_cons.mp distinct
  unfold destinations
  rw [found]
  refine ⟨List.nodup_cons.mpr ⟨?_, ?_⟩, _, rfl⟩
  · rwa [List.mem_insertionSort]
  · exact (List.perm_insertionSort _ others).nodup_iff.mpr rest

section

variable {rules : List AppProxyRule} {primaryGroup : String}

theorem length_destinations : (destinations rules primaryGroup).length =
    (requiredGroups rules primaryGroup).length := by
  have distinct : (requiredGroups rules primaryGroup).Nodup :=
    requiredGroups_sorted.imp fun less => ne_of_lt less
  refine List.Perm.length_eq ((List.perm_ext_iff_of_nodup (destinations_spec rules primaryGroup).1 distinct).mpr ?_)
  intro group
  rw [mem_destinations, mem_requiredGroups]

theorem proxyGroups_spec {listeners : Listeners} {found : List String} {id : Nat}
    {groups : List ProxyGroup} (publishes : proxyGroups listeners id found = .ok groups) :
    (groups.map fun group => (group.name, group.id)) = found.zipIdx id ∧
      ∀ group ∈ groups, ∃ spec, OrderedMap.get listeners group.name = some spec ∧
        group.port = spec.port := by
  induction found generalizing id groups with
  | nil =>
    cases publishes
    exact ⟨rfl, fun _ member => by contradiction⟩
  | cons name rest ih =>
    unfold proxyGroups at publishes
    split at publishes
    · contradiction
    · rename_i spec here
      obtain ⟨others, later, rfl⟩ := map_ok publishes
      obtain ⟨numbered, ports⟩ := ih later
      refine ⟨by rw [List.map_cons, numbered, List.zipIdx_cons], ?_⟩
      intro group member
      rcases List.mem_cons.mp member with rfl | other
      · exact ⟨spec, here, rfl⟩
      · exact ports group other

theorem compile_spec {rule bound : AppProxyRule} {found : List String}
    (compiles : rule.compile found = .ok bound) :
    (rule.enabled = true → ∃ position, found[position]? = some rule.strategyGroup ∧
        bound = { rule with proxyGroupId := position % UInt32.size }) ∧
      (rule.enabled = false → bound = rule) := by
  unfold AppProxyRule.compile at compiles
  split at compiles
  · rename_i enabled
    refine ⟨fun _ => ?_, fun disabled => by rw [disabled] at enabled; contradiction⟩
    split at compiles
    · rename_i position is_
      obtain ⟨inside, same, _⟩ := List.findIdx?_eq_some_iff_getElem.mp is_
      refine ⟨position, ?_, (Except.ok.inj compiles).symm⟩
      rw [List.getElem?_eq_getElem inside, eq_of_beq same]
    · contradiction
  · rename_i disabled
    exact ⟨fun enabled => absurd enabled disabled, fun _ => (Except.ok.inj compiles).symm⟩

theorem compileAll_spec {found : List String} {compiled : List AppProxyRule}
    (compiles : compileAll found rules = .ok compiled) :
    List.Forall₂ (fun rule bound => rule.compile found = .ok bound) rules compiled := by
  induction rules generalizing compiled with
  | nil =>
    cases compiles
    exact List.Forall₂.nil
  | cons rule rest ih =>
    obtain ⟨bound, first, compiles⟩ := bind_ok compiles
    obtain ⟨remaining, later, rfl⟩ := map_ok compiles
    exact List.Forall₂.cons first (ih later)

theorem exists_of_forall₂ {Left Right : Type} {related : Left → Right → Prop} {left : List Left}
    {right : List Right} (all : List.Forall₂ related left right) :
    (∀ one ∈ left, ∃ other ∈ right, related one other) ∧
      ∀ other ∈ right, ∃ one ∈ left, related one other := by
  induction all with
  | nil => exact ⟨fun _ member => by contradiction, fun _ member => by contradiction⟩
  | cons first _ ih =>
    obtain ⟨forward, backward⟩ := ih
    constructor
    · intro one member
      rcases List.mem_cons.mp member with rfl | later
      · exact ⟨_, List.mem_cons_self, first⟩
      · obtain ⟨other, listed, related⟩ := forward one later
        exact ⟨other, List.mem_cons_of_mem _ listed, related⟩
    · intro other member
      rcases List.mem_cons.mp member with rfl | later
      · exact ⟨_, List.mem_cons_self, first⟩
      · obtain ⟨one, listed, related⟩ := backward other later
        exact ⟨one, List.mem_cons_of_mem _ listed, related⟩

theorem unchanged_of_forall₂ {found : List String} {compiled : List AppProxyRule}
    (all : List.Forall₂ (fun rule bound => rule.compile found = .ok bound) rules compiled) :
    compiled.map AppProxyRule.unbound = rules.map AppProxyRule.unbound := by
  induction all with
  | nil => rfl
  | @cons rule bound _ _ first _ ih =>
    obtain ⟨enabled, disabled⟩ := compile_spec first
    rw [List.map_cons, List.map_cons, ih]
    cases switch : rule.enabled with
    | true =>
      obtain ⟨position, _, rfl⟩ := enabled switch
      rfl
    | false => rw [disabled switch]

variable {listeners : Listeners} {compiled : List AppProxyRule} {groups : List ProxyGroup}

theorem exists_group_iff (publishes : proxyGroups listeners 0 (destinations rules primaryGroup) =
      .ok groups) (name : String) (id : Nat) :
    (∃ group ∈ groups, group.name = name ∧ group.id = id) ↔
      (destinations rules primaryGroup)[id]? = some name := by
  have numbered := (proxyGroups_spec publishes).1
  rw [← List.mem_zipIdx_iff_getElem? (x := (name, id)), ← numbered, List.mem_map]
  simp only [Prod.mk.injEq]

theorem exists_id_iff (publishes : proxyGroups listeners 0 (destinations rules primaryGroup) =
      .ok groups) (id : Nat) :
    (∃ group ∈ groups, group.id = id) ↔ id < (requiredGroups rules primaryGroup).length := by
  rw [← length_destinations]
  constructor
  · rintro ⟨group, listed, same⟩
    have here := (exists_group_iff publishes group.name id).mp ⟨group, listed, rfl, same⟩
    exact (List.getElem?_eq_some_iff.mp here).1
  · intro inside
    obtain ⟨group, listed, _, same⟩ := (exists_group_iff publishes _ id).mpr
      (List.getElem?_eq_getElem inside)
    exact ⟨group, listed, same⟩

theorem length_le_of_bound (compiles : compileAll (destinations rules primaryGroup) rules =
      .ok compiled)
    (publishes : proxyGroups listeners 0 (destinations rules primaryGroup) = .ok groups)
    (bound : ∀ rule ∈ compiled, rule.enabled = true →
      ∃ group ∈ groups, group.name = rule.strategyGroup ∧ group.id = rule.proxyGroupId) :
    (requiredGroups rules primaryGroup).length ≤ UInt32.size := by
  rw [← length_destinations]
  by_contra many
  obtain ⟨distinct, others, first⟩ := destinations_spec rules primaryGroup
  have inside : UInt32.size < (destinations rules primaryGroup).length := Nat.lt_of_not_le many
  have far := List.getElem_mem inside
  rcases mem_destinations.mp far with primary | ⟨rule, listed, enabled, own⟩
  · have some_ : 0 < (destinations rules primaryGroup).length := by omega
    have zero : (destinations rules primaryGroup)[0] = primaryGroup := by simp [first]
    have same := distinct.getElem_inj_iff.mp (primary.trans zero.symm)
    exact absurd same (by decide)
  · obtain ⟨other, present, compiled_⟩ := (exists_of_forall₂ (compileAll_spec compiles)).1 rule listed
    obtain ⟨position, here, rfl⟩ := (compile_spec compiled_).1 enabled
    have found := (exists_group_iff publishes _ _).mp (bound _ present enabled)
    obtain ⟨_, there⟩ := List.getElem?_eq_some_iff.mp found
    have same := distinct.getElem_inj_iff.mp (there.trans own)
    have small : position % UInt32.size < UInt32.size := Nat.mod_lt _ (by decide)
    exact absurd same (Nat.ne_of_lt small)

/-- Compiled rules are a closed rule set exactly where the numbers of disabled rules are published
and the groups have numbers. -/
theorem closed_iff (compiles : compileRules rules primaryGroup listeners = .ok (compiled, groups)) :
    ClosedRules rules primaryGroup listeners compiled groups ↔
      (∀ rule ∈ rules, rule.enabled = false →
        rule.proxyGroupId < (requiredGroups rules primaryGroup).length) ∧
      (requiredGroups rules primaryGroup).length ≤ UInt32.size := by
  obtain ⟨_, all, publishes⟩ := compileRules_ok compiles
  obtain ⟨forward, backward⟩ := exists_of_forall₂ (compileAll_spec all)
  constructor
  · intro closed
    refine ⟨fun rule listed disabled => ?_, length_le_of_bound all publishes closed.bound⟩
    obtain ⟨other, present, compiled_⟩ := forward rule listed
    obtain rfl := (compile_spec compiled_).2 disabled
    exact (exists_id_iff publishes _).mp (closed.published _ present)
  · rintro ⟨disabled, few⟩
    obtain ⟨numbered, ports⟩ := proxyGroups_spec publishes
    obtain ⟨distinct, others, first⟩ := destinations_spec rules primaryGroup
    have names : groups.map (·.name) = destinations rules primaryGroup := by
      have firsts := congrArg (List.map Prod.fst) numbered
      rwa [List.map_map, List.zipIdx_map_fst] at firsts
    have ids : groups.map (·.id) = List.range groups.length := by
      have seconds := congrArg (List.map Prod.snd) numbered
      rw [List.map_map, List.zipIdx_map_snd, ← names, List.length_map] at seconds
      rw [List.range_eq_range']
      exact seconds
    have bound : ∀ rule ∈ compiled, rule.enabled = true →
        ∃ group ∈ groups, group.name = rule.strategyGroup ∧ group.id = rule.proxyGroupId := by
      intro rule present enabled
      obtain ⟨original, listed, compiled_⟩ := backward rule present
      obtain ⟨switchedOn, switchedOff⟩ := compile_spec compiled_
      cases switch : original.enabled with
      | true =>
        obtain ⟨position, here, rfl⟩ := switchedOn switch
        have inside := (List.getElem?_eq_some_iff.mp here).1
        rw [length_destinations] at inside
        rw [exists_group_iff publishes, Nat.mod_eq_of_lt (Nat.lt_of_lt_of_le inside few)]
        exact here
      | false =>
        obtain rfl := switchedOff switch
        rw [switch] at enabled
        contradiction
    refine ⟨ids, ?_, names ▸ distinct, ports, fun name => ?_, bound, fun rule present => ?_,
      unchanged_of_forall₂ (compileAll_spec all), compileRules_again compiles fun _ _ => rfl⟩
    · rw [← List.head?_map, names, first]
      rfl
    · rw [names, mem_destinations]
    · cases switch : rule.enabled with
      | true =>
        obtain ⟨group, listed, _, same⟩ := bound rule present switch
        exact ⟨group, listed, same⟩
      | false =>
        obtain ⟨original, listed, compiled_⟩ := backward rule present
        have alike := (compile_alike compiled_).1
        have off : original.enabled = false := alike.enabled ▸ switch
        obtain rfl := (compile_spec compiled_).2 off
        exact (exists_id_iff publishes _).mpr (disabled rule listed off)

end

def ruleFor (id : String) (enabled : Bool) (proxyGroupId : Nat) (strategyGroup : String) :
    AppProxyRule :=
  ⟨id, id, enabled, "*", "*" ++ id ++ ".exe*", false, proxyGroupId, strategyGroup, "tcp"⟩

def twoListeners : Listeners :=
  [("GROUP_B", ⟨"fixed-listener", 12002, some "GROUP_B"⟩), ("regular", ⟨"regular-listener", 12001, none⟩)]

theorem twoOutlets_closed : ClosedRules [ruleFor "one" true 0 "GROUP_B", ruleFor "two" false 0 "GROUP_C"]
    "regular" twoListeners [ruleFor "one" true 1 "GROUP_B", ruleFor "two" false 0 "GROUP_C"]
    [⟨0, "regular", "127.0.0.1", 12001⟩, ⟨1, "GROUP_B", "127.0.0.1", 12002⟩] :=
  (closed_iff (by decide)).mpr ⟨by decide, by decide⟩

/-- A disabled rule that comes with the number 7 is published with it, next to one group. -/
theorem disabledRule_refers_nowhere :
    ¬ ∀ (rules : List AppProxyRule) (primaryGroup : String) (listeners : Listeners)
      (compiled : List AppProxyRule) (groups : List ProxyGroup),
      compileRules rules primaryGroup listeners = .ok (compiled, groups) →
        ClosedRules rules primaryGroup listeners compiled groups := by
  intro all
  have compiles : compileRules [ruleFor "one" false 7 "regular"] "regular" twoListeners =
      .ok ([ruleFor "one" false 7 "regular"], [⟨0, "regular", "127.0.0.1", 12001⟩]) := by decide
  obtain ⟨group, listed, same⟩ := (all _ _ _ _ _ compiles).published _ List.mem_cons_self
  obtain rfl := List.mem_singleton.mp listed
  exact absurd same (by decide)

end ClashVerge.AppProxy
