import ClashVerge.Enhance.Stages

/-!
# What an edit of the proxies does

The proxies get the prepended items in front and the appended ones at the end, and lose those whose
name is deleted. Every group loses the deleted names, and the first selector gets each added name
once, in front. A tagged value is no group and no list of proxies here.
-/

namespace ClashVerge.Enhance

open ClashVerge.Verge ClashVerge.Yaml
open OrderedMap (Distinct get get_insert_other get_insert_same get_remove)

def SeqMap.added (seq : SeqMap) : List String :=
  (seq.prepend.filterMap proxyName ++ seq.append.filterMap proxyName).eraseDups

def listedName : Value → Option String
  | .string name => some name
  | .mapping map =>
    match Mapping.get map "name" with
    | some (.string name) => some name
    | _ => none
  | _ => none

def plainItems (map : Mapping) (key : String) : List Value :=
  match map.get key with
  | some (.sequence items) => items
  | _ => []

/-- A list of references without the deleted names; another value stays. -/
def prune (delete : List String) : Value → Value
  | .sequence proxies => .sequence (proxies.filter (referenceSurvives delete))
  | value => value

/-- A group that only lost the deleted names. -/
structure Loses (delete : List String) (old new : Mapping) : Prop where
  others : ∀ key, key ≠ Value.string "proxies" → get new key = get old key
  proxies : new.get "proxies" = (old.get "proxies").map (prune delete)

/-- A group that lost the deleted names, and has the added ones in front and nowhere else. -/
structure Gains (delete added : List String) (old new : Mapping) : Prop where
  others : ∀ key, key ≠ Value.string "proxies" → get new key = get old key
  proxies : ∃ rest, new.get "proxies" = some (.sequence (added.map Value.string ++ rest)) ∧
    rest.Sublist ((plainItems old "proxies").filter (referenceSurvives delete)) ∧
    (∀ name ∈ added, Value.string name ∉ rest) ∧
    ∀ member ∈ (plainItems old "proxies").filter (referenceSurvives delete),
      member ∈ rest ∨ ∃ name ∈ added, member = .string name

/-- Mappings are related, and other values are the same. -/
inductive Groupwise (related : Mapping → Mapping → Prop) : Value → Value → Prop
  | group {old new : Mapping} (are : related old new) :
      Groupwise related (.mapping old) (.mapping new)
  | other {value : Value} (none : ∀ map, value ≠ .mapping map) : Groupwise related value value

def isSelector : Value → Bool
  | .mapping group => isSelectorGroup group
  | _ => false

/-- What is asked of the groups after an edit. -/
structure GroupsInStep (delete added : List String) (groups after : List Value) : Prop where
  gains : added ≠ [] → ∀ before group rest, groups = before ++ .mapping group :: rest →
    isSelectorGroup group = true → (∀ value ∈ before, isSelector value = false) →
    ∃ beforeAfter groupAfter restAfter, after = beforeAfter ++ .mapping groupAfter :: restAfter ∧
      List.Forall₂ (Groupwise (Loses delete)) before beforeAfter ∧
      Gains delete added group groupAfter ∧
      List.Forall₂ (Groupwise (Loses delete)) rest restAfter
  loses : added = [] ∨ (∀ value ∈ groups, isSelector value = false) →
    List.Forall₂ (Groupwise (Loses delete)) groups after
  deleted : ∀ name ∈ delete, name ∉ added → ∀ group : Mapping, .mapping group ∈ after →
    Value.string name ∉ plainItems group "proxies"

/-- What is asked of the configuration after an edit of its proxies. -/
structure InStep (seq : SeqMap) (config after : Mapping) : Prop where
  once : seq.added.Nodup
  proxies : after.get "proxies" = some (.sequence (seq.prepend ++
    (plainItems config "proxies").filter (fun item =>
      ∀ name ∈ seq.delete, listedName item ≠ some name) ++ seq.append))
  groups : ∀ groups, config.get "proxy-groups" = some (.sequence groups) →
    ∃ groupsAfter, after.get "proxy-groups" = some (.sequence groupsAfter) ∧
      GroupsInStep seq.delete seq.added groups groupsAfter
  noGroups : (∀ groups, config.get "proxy-groups" ≠ some (.sequence groups)) →
    after.get "proxy-groups" = config.get "proxy-groups"
  others : ∀ key, key ≠ Value.string "proxies" → key ≠ Value.string "proxy-groups" →
    get after key = get config key

section

variable {seq : SeqMap} {config group : Mapping} {delete added : List String}

theorem nodup_eraseDups : ∀ names : List String, names.eraseDups.Nodup
  | [] => List.nodup_nil
  | name :: rest => by
    rw [List.eraseDups_cons, List.nodup_cons, List.mem_eraseDups]
    exact ⟨by simp, nodup_eraseDups _⟩
termination_by names => names.length
decreasing_by exact Nat.lt_succ_of_le (List.length_filter_le ..)

theorem skipSeen_sublist (seen : List String) (base : List Value) :
    (skipSeen seen base).Sublist base := by
  fun_induction skipSeen seen base with
  | case1 => exact List.Sublist.slnil
  | case2 seen name rest _ ih => exact ih.cons _
  | case3 seen name rest _ ih => exact ih.cons_cons _
  | case4 seen value rest _ ih => exact ih.cons_cons _

theorem not_mem_skipSeen (seen : List String) (base : List Value) :
    ∀ name ∈ seen, Value.string name ∉ skipSeen seen base := by
  fun_induction skipSeen seen base with
  | case1 => simp
  | case2 seen name rest _ ih => exact ih
  | case3 seen name rest fresh ih =>
    intro other known
    have different : other ≠ name := by
      rintro rfl
      exact fresh (List.contains_iff_mem.mpr known)
    rw [List.mem_cons, not_or]
    exact ⟨by simpa using different, ih other (List.mem_cons_of_mem _ known)⟩
  | case4 seen value rest noText ih =>
    intro other known
    rw [List.mem_cons, not_or]
    exact ⟨fun same => noText other same.symm, ih other known⟩

theorem mem_skipSeen (seen : List String) (base : List Value) :
    ∀ member ∈ base, member ∈ skipSeen seen base ∨ ∃ name ∈ seen, member = .string name := by
  fun_induction skipSeen seen base with
  | case1 => simp
  | case2 seen name rest known ih =>
    intro member listed
    rcases List.mem_cons.mp listed with rfl | later
    · exact .inr ⟨name, List.contains_iff_mem.mp known, rfl⟩
    · exact ih member later
  | case3 seen name rest _ ih =>
    intro member listed
    rcases List.mem_cons.mp listed with rfl | later
    · exact .inl List.mem_cons_self
    · rcases ih member later with kept | ⟨other, known, rfl⟩
      · exact .inl (List.mem_cons_of_mem _ kept)
      · rcases List.mem_cons.mp known with rfl | known
        · exact .inl List.mem_cons_self
        · exact .inr ⟨other, known, rfl⟩
  | case4 seen value rest _ ih =>
    intro member listed
    rcases List.mem_cons.mp listed with rfl | later
    · exact .inl List.mem_cons_self
    · exact (ih member later).imp_left (List.mem_cons_of_mem _)

theorem get_pruneGroup (distinct : Distinct group) {key : Value} (other : key ≠ .string "proxies") :
    get (pruneGroup delete group).2 key = get group key := by
  have removed : get (group.remove "proxies") key = get group key := by
    rw [Mapping.remove, get_remove distinct, if_neg other]
  unfold pruneGroup
  split
  · exact removed
  · exact (get_insert_other _ _ other).trans removed
  · rfl

theorem isSelectorGroup_pruneGroup (distinct : Distinct group) :
    isSelectorGroup (pruneGroup delete group).2 = isSelectorGroup group := by
  have same : (pruneGroup delete group).2.get "type" = group.get "type" :=
    get_pruneGroup distinct (by decide)
  rw [isSelectorGroup, isSelectorGroup, same]

theorem pruneGroup_fst : (pruneGroup delete group).1.getD [] =
    (plainItems group "proxies").filter (referenceSurvives delete) := by
  unfold pruneGroup plainItems
  cases group.get "proxies" with
  | none => rfl
  | some value => cases value <;> rfl

def putBack (proxies : Option (List Value)) (group : Mapping) : Mapping :=
  match proxies with
  | some proxies => group.insert (.string "proxies") (.sequence proxies)
  | none => group

theorem get_putBack {proxies : Option (List Value)} {key : Value}
    (other : key ≠ .string "proxies") :
    get (putBack proxies group) key = get group key := by
  cases proxies with
  | none => rfl
  | some proxies => exact get_insert_other _ _ other

theorem loses_pruneGroup (distinct : Distinct group) :
    Loses delete group (putBack (pruneGroup delete group).1 (pruneGroup delete group).2) := by
  refine ⟨fun key other => (get_putBack other).trans (get_pruneGroup distinct other), ?_⟩
  unfold pruneGroup
  split
  · rename_i proxies is_
    rw [is_]
    exact get_insert_same ..
  · rename_i value notList is_
    rw [is_]
    refine (get_insert_same ..).trans ?_
    cases value with
    | sequence items => exact absurd rfl (notList items)
    | _ => rfl
  · rename_i absent
    rw [absent]
    exact absent

theorem gains_mergeProxies (distinct : Distinct group) : Gains delete added group (putBack
      (some (mergeProxies added ((pruneGroup delete group).1.getD []))) (pruneGroup delete group).2) := by
  refine ⟨fun key other => (get_putBack other).trans (get_pruneGroup distinct other),
    skipSeen added ((pruneGroup delete group).1.getD []), get_insert_same .., ?_, ?_, ?_⟩
  · rw [← pruneGroup_fst]
    exact skipSeen_sublist ..
  · exact not_mem_skipSeen _ _
  · rw [← pruneGroup_fst]
    exact mem_skipSeen _ _

/-- The groups of a well-formed list have distinct keys. -/
def DistinctGroups (groups : List Value) : Prop :=
  ∀ group : Mapping, .mapping group ∈ groups → Distinct group

theorem updateGroups_mapping (appended : Bool) (group : Mapping) (rest : List Value) :
    updateGroups delete added appended (.mapping group :: rest) =
      let takes := !appended && !added.isEmpty && isSelectorGroup (pruneGroup delete group).2
      .mapping (putBack (if takes then
          some (mergeProxies added ((pruneGroup delete group).1.getD []))
        else (pruneGroup delete group).1) (pruneGroup delete group).2) ::
        updateGroups delete added (appended || takes) rest := by
  rw [updateGroups]
  rfl

theorem updateGroups_loses {appended : Bool} {groups : List Value} (distinct : DistinctGroups groups)
    (placed : appended = true ∨ added = [] ∨ ∀ value ∈ groups, isSelector value = false) :
    List.Forall₂ (Groupwise (Loses delete)) groups (updateGroups delete added appended groups) := by
  induction groups generalizing appended with
  | nil => exact List.Forall₂.nil
  | cons value rest ih =>
    have later : DistinctGroups rest := fun group listed =>
      distinct group (List.mem_cons_of_mem _ listed)
    have placedLater : appended = true ∨ added = [] ∨ ∀ value ∈ rest, isSelector value = false :=
      placed.imp_right (Or.imp_right fun none_ value listed =>
        none_ value (List.mem_cons_of_mem _ listed))
    cases value with
    | mapping group =>
      have own := distinct group List.mem_cons_self
      have stays : (!appended && !added.isEmpty && isSelectorGroup (pruneGroup delete group).2) =
          false := by
        rw [isSelectorGroup_pruneGroup own]
        rcases placed with done | nothing | none_
        · simp [done]
        · simp [nothing]
        · simp [show isSelectorGroup group = false from none_ _ List.mem_cons_self]
      rw [updateGroups_mapping]
      simp only [stays, Bool.or_false]
      exact List.Forall₂.cons (.group (loses_pruneGroup own)) (ih later placedLater)
    | _ =>
      exact List.Forall₂.cons (.other (by simp)) (ih later placedLater)

theorem updateGroups_gains (some_ : added ≠ []) {before : List Value} {group : Mapping}
    {rest : List Value} (distinct : DistinctGroups (before ++ .mapping group :: rest))
    (selector : isSelectorGroup group = true) (first : ∀ value ∈ before, isSelector value = false) :
    ∃ beforeAfter groupAfter restAfter, updateGroups delete added false
        (before ++ .mapping group :: rest) = beforeAfter ++ .mapping groupAfter :: restAfter ∧
      List.Forall₂ (Groupwise (Loses delete)) before beforeAfter ∧
      Gains delete added group groupAfter ∧
      List.Forall₂ (Groupwise (Loses delete)) rest restAfter := by
  induction before with
  | nil =>
    have own := distinct group List.mem_cons_self
    have takes : (!false && !added.isEmpty && isSelectorGroup (pruneGroup delete group).2) =
        true := by
      rw [isSelectorGroup_pruneGroup own, selector]
      simpa using some_
    refine ⟨[], _, updateGroups delete added true rest, ?_, List.Forall₂.nil,
      gains_mergeProxies own, updateGroups_loses
        (fun group listed => distinct group (List.mem_cons_of_mem _ listed)) (.inl rfl)⟩
    rw [List.nil_append, updateGroups_mapping]
    simp only [takes, if_true, Bool.or_true]
    rfl
  | cons value before ih =>
    obtain ⟨here, first⟩ := List.forall_mem_cons.mp first
    obtain ⟨beforeAfter, groupAfter, restAfter, is_, loses, gains, later⟩ := ih
      (fun group listed => distinct group (List.mem_cons_of_mem _ listed)) first
    cases value with
    | mapping other =>
      have own := distinct other List.mem_cons_self
      have stays : (!false && !added.isEmpty && isSelectorGroup (pruneGroup delete other).2) =
          false := by
        rw [isSelectorGroup_pruneGroup own, show isSelectorGroup other = false from here]
        simp
      refine ⟨_, groupAfter, restAfter, ?_, List.Forall₂.cons (.group (loses_pruneGroup own)) loses,
        gains, later⟩
      rw [List.cons_append, updateGroups_mapping]
      simp only [stays, Bool.or_false]
      rw [is_, List.cons_append]
      rfl
    | _ =>
      refine ⟨_, groupAfter, restAfter, ?_, List.Forall₂.cons (.other (by simp)) loses, gains,
        later⟩
      rw [List.cons_append, updateGroups, is_, List.cons_append]
      simp

theorem Loses.not_mem {old new : Mapping} (loses : Loses delete old new) {name : String}
    (gone : name ∈ delete) : Value.string name ∉ plainItems new "proxies" := by
  rw [plainItems, loses.proxies]
  cases old.get "proxies" with
  | none => simp
  | some value =>
    cases value with
    | sequence items => simp [prune, referenceSurvives, gone]
    | _ => simp [prune]

theorem Gains.not_mem {old new : Mapping} (gains : Gains delete added old new) {name : String}
    (gone : name ∈ delete) (other : name ∉ added) :
    Value.string name ∉ plainItems new "proxies" := by
  obtain ⟨rest, is_, part, _⟩ := gains.proxies
  rw [plainItems, is_]
  simp only [List.mem_append, List.mem_map, Value.string.injEq, exists_eq_right, not_or]
  refine ⟨other, fun member => ?_⟩
  have survives := (List.mem_filter.mp (part.subset member)).2
  simp [referenceSurvives, gone] at survives

theorem updateGroups_deleted {appended : Bool} {groups : List Value}
    (distinct : DistinctGroups groups) {name : String} (gone : name ∈ delete)
    (other : name ∉ added) : ∀ group : Mapping,
      .mapping group ∈ updateGroups delete added appended groups →
      Value.string name ∉ plainItems group "proxies" := by
  induction groups generalizing appended with
  | nil =>
    intro group listed
    contradiction
  | cons value rest ih =>
    have later : DistinctGroups rest := fun group listed =>
      distinct group (List.mem_cons_of_mem _ listed)
    intro group listed
    cases value with
    | mapping old =>
      have own := distinct old List.mem_cons_self
      rw [updateGroups_mapping] at listed
      rcases List.mem_cons.mp listed with same | listed
      · obtain rfl := Value.mapping.inj same
        split
        · exact (gains_mergeProxies own).not_mem gone other
        · exact (loses_pruneGroup own).not_mem gone
      · exact ih later group listed
    | _ =>
      rcases List.mem_cons.mp listed with same | listed
      · contradiction
      · exact ih later group listed

theorem survives_eq (delete : List String) (item : Value) :
    survives delete item = decide (∀ name ∈ delete, listedName item ≠ some name) := by
  have named (name : String) : (!delete.contains name) =
      decide (∀ other ∈ delete, some name ≠ some other) := by
    rw [Bool.eq_iff_iff]
    simp only [Bool.not_eq_true', List.contains_eq_mem, decide_eq_false_iff_not,
      decide_eq_true_eq, ne_eq, Option.some.injEq]
    exact ⟨fun out other member same => out (same ▸ member), fun apart member => apart name member rfl⟩
  have unnamed : true = decide (∀ other ∈ delete, (none : Option String) ≠ some other) := by simp
  cases item with
  | string name => exact named name
  | mapping map =>
    cases found : Mapping.get map "name" with
    | none => simpa only [survives, listedName, found] using unnamed
    | some value =>
      cases value with
      | string name => simpa only [survives, listedName, found] using named name
      | _ => simpa only [survives, listedName, found] using unnamed
  | _ => exact unnamed

theorem distinctGroups_of_wellFormed (wellFormed : config.WellFormed) {groups : List Value}
    (listed : config.get "proxy-groups" = some (.sequence groups)) : DistinctGroups groups := by
  intro group member
  have sequence : Value.WellFormedItems groups :=
    Value.wellFormed_of_mem wellFormed.2 (OrderedMap.mem_of_get listed)
  exact (Value.wellFormed_of_mem_items sequence member).1

def editedProxies (seq : SeqMap) (config : Mapping) : Mapping :=
  (config.remove "proxies").insert (.string "proxies") (.sequence (seq.prepend ++
    (plainItems config "proxies").filter (survives seq.delete) ++ seq.append))

theorem get_editedProxies (distinct : Distinct config) {key : Value}
    (other : key ≠ .string "proxies") :
    get (editedProxies seq config) key = get config key := by
  rw [editedProxies, Mapping.insert, get_insert_other _ _ other, Mapping.remove,
    get_remove distinct, if_neg other]

theorem distinct_editedProxies (distinct : Distinct config) : Distinct (editedProxies seq config) :=
  OrderedMap.distinct_insert (OrderedMap.distinct_remove distinct _) _ _

def editedGroups (seq : SeqMap) : Value → Value
  | .sequence groups => .sequence (updateGroups seq.delete seq.added false groups)
  | value => value

theorem useSeq_of_none (distinct : Distinct config) (absent : config.get "proxy-groups" = none) :
    useSeq seq config "proxies" = editedProxies seq config := by
  have existing : (editedProxies seq config).get "proxy-groups" = none :=
    (get_editedProxies distinct (by decide)).trans absent
  unfold editedProxies plainItems at existing ⊢
  unfold useSeq
  cases listed : config.get "proxies" with
  | none => simp_all
  | some value => cases value <;> simp_all

theorem useSeq_of_some (distinct : Distinct config) {value : Value}
    (is_ : config.get "proxy-groups" = some value) :
    useSeq seq config "proxies" = ((editedProxies seq config).remove "proxy-groups").insert
      (.string "proxy-groups") (editedGroups seq value) := by
  have existing : (editedProxies seq config).get "proxy-groups" = some value :=
    (get_editedProxies distinct (by decide)).trans is_
  unfold editedProxies plainItems at existing ⊢
  unfold useSeq
  cases listed : config.get "proxies" with
  | none => cases value <;> simp_all [editedGroups, SeqMap.added]
  | some proxies =>
    cases proxies <;> cases value <;> simp_all [editedGroups, SeqMap.added]

/-- Editing the proxies keeps the groups and the list in step. -/
theorem useSeq_inStep (seq : SeqMap) (wellFormed : config.WellFormed) :
    InStep seq config (useSeq seq config "proxies") := by
  obtain ⟨distinct, _⟩ := id wellFormed
  have kept : (plainItems config "proxies").filter (survives seq.delete) =
      (plainItems config "proxies").filter
        (fun item => ∀ name ∈ seq.delete, listedName item ≠ some name) :=
    List.filter_congr fun item _ => survives_eq seq.delete item
  have proxies : (editedProxies seq config).get "proxies" = some (.sequence (seq.prepend ++
      (plainItems config "proxies").filter
        (fun item => ∀ name ∈ seq.delete, listedName item ≠ some name) ++ seq.append)) := by
    rw [← kept]
    exact get_insert_same ..
  cases is_ : config.get "proxy-groups" with
  | none =>
    rw [useSeq_of_none distinct is_]
    refine ⟨nodup_eraseDups _, proxies, fun groups listed => ?_, fun _ => ?_,
      fun key apart _ => get_editedProxies distinct apart⟩
    · rw [is_] at listed
      contradiction
    · exact get_editedProxies distinct (by decide)
  | some value =>
    rw [useSeq_of_some distinct is_]
    have others {key : Value} (apart : key ≠ .string "proxy-groups") :
        get (((editedProxies seq config).remove "proxy-groups").insert
          (.string "proxy-groups") (editedGroups seq value)) key =
          get (editedProxies seq config) key := by
      rw [Mapping.insert, get_insert_other _ _ apart, Mapping.remove,
        get_remove (distinct_editedProxies distinct), if_neg apart]
    have own : (((editedProxies seq config).remove "proxy-groups").insert
        (.string "proxy-groups") (editedGroups seq value)).get "proxy-groups" =
        some (editedGroups seq value) := get_insert_same ..
    refine ⟨nodup_eraseDups _, (others (by decide)).trans proxies, fun groups listed => ?_,
      fun notList => ?_, fun key apart groups =>
        (others groups).trans (get_editedProxies distinct apart)⟩
    · have wellKeyed := distinctGroups_of_wellFormed wellFormed listed
      rw [is_] at listed
      cases listed
      refine ⟨_, own, fun some_ before group rest split selector first => ?_, fun placed => ?_,
        fun name gone other => updateGroups_deleted wellKeyed gone other⟩
      · subst split
        exact updateGroups_gains some_ wellKeyed selector first
      · exact updateGroups_loses wellKeyed (.inr placed)
    · rw [own, is_]
      cases value with
      | sequence groups => exact absurd is_ (notList groups)
      | _ => rfl

end

/-- A proxy is replaced by another one, which the group takes in its place. -/
def replacement : SeqMap where
  prepend := [.mapping [(.string "name", .string "new")]]
  append := []
  delete := ["old"]

def oneSelector : Mapping :=
  [(.string "proxies", .sequence [.mapping [(.string "name", .string "old")], .string "kept"]),
    (.string "proxy-groups", .sequence [.mapping [(.string "type", .string "Select"),
      (.string "proxies", .sequence [.string "old", .string "kept"])]])]

theorem oneSelector_inStep :
    InStep replacement oneSelector (useSeq replacement oneSelector "proxies") :=
  useSeq_inStep replacement (by
    simp [oneSelector, Mapping.WellFormed, Value.WellFormedEntries, Value.WellFormed,
      Value.WellFormedItems, Distinct])

example : (useSeq replacement oneSelector "proxies").get "proxy-groups" =
    some (.sequence [.mapping [(.string "type", .string "Select"),
      (.string "proxies", .sequence [.string "new", .string "kept"])]]) := by decide

end ClashVerge.Enhance
