import ClashVerge.Config.ProxyChain

/-!
# Writing a chain and reading it back

Writing a chain first takes all links away, so nothing is left of one that was written before. Then
each proxy of the chain but the first dials through the one before it. Where the proxies have
different names, reading from the last name of a chain gives its proxies in order.
-/

namespace ClashVerge.Config

open ClashVerge.Enhance ClashVerge.Yaml
open OrderedMap (Distinct erase get get_insert_same insert_insert)

def unlink (proxy : Mapping) : Mapping :=
  if (proxy.get "dialer-proxy").isSome then proxy.remove "dialer-proxy" else proxy

def linkFirst (name through : Value) : List Value → List Value
  | [] => []
  | proxy :: rest =>
    if valueGet proxy "name" = some name then
      match proxy with
      | .mapping map => .mapping (Mapping.insert map (.string "dialer-proxy") through) :: rest
      | _ => proxy :: rest
    else proxy :: linkFirst name through rest

def linkChain (before : Option Value) : List Value → List Value → List Value
  | [], proxies => proxies
  | name :: rest, proxies =>
    match before with
    | none => linkChain (some name) rest proxies
    | some through => linkChain (some name) rest (linkFirst name through proxies)

def modifyProxies (change : List Value → List Value) (config : Mapping) : Mapping :=
  match config.get "proxies" with
  | some (.sequence proxies) => config.insert (.string "proxies") (.sequence (change proxies))
  | _ => config

def updateProxyChainConfig (proxyChainConfig : Option Value) (config : Mapping) : Mapping :=
  let unlinked := modifyProxies (List.map (modifyMapping unlink)) config
  match proxyChainConfig with
  | some (.sequence dialerProxies) => modifyProxies (linkChain none dialerProxies) unlinked
  | _ => unlinked

structure Named (proxies : List Mapping) (names : List String) : Prop where
  named : proxies.map (fun proxy => proxy.get "name") =
    names.map fun name => some (Value.string name)
  distinct : names.Nodup

structure HasProxies (config : Mapping) (proxies : List Mapping) (names : List String) : Prop
    extends Named proxies names where
  listed : config.get "proxies" = some (.sequence (proxies.map Value.mapping))
  keys : ∀ proxy ∈ proxies, Distinct proxy

/-- A chain was written into a configuration, whose proxies became other ones. -/
structure ChainWritten (config updated : Mapping) (proxies after : List Mapping)
    (chain : List String) : Prop where
  listed : updated.get "proxies" = some (.sequence (after.map Value.mapping))
  fields : List.Forall₂ (fun old new => ∀ key, key ≠ Value.string "dialer-proxy" →
    get new key = get old key) proxies after
  links : ∀ proxy ∈ after, ∀ name, proxy.get "name" = some (.string name) →
    ∀ through, proxy.get "dialer-proxy" = some through ↔
      ∃ before, through = .string before ∧ [before, name] <:+: chain
  others : erase updated (.string "proxies") =
    erase config (.string "proxies")
  reads : ∀ exitNode, chain.getLast? = some exitNode → ∀ fuel, chain.length ≤ fuel →
    ∃ found : List Mapping, (∀ proxy ∈ found, proxy ∈ after) ∧
      found.map (fun proxy => proxy.get "name") = (chain.map fun name => some (Value.string name)) ∧
      getRuntimeProxyChainConfig fuel (some updated) exitNode =
        some (.ok (found.map Value.mapping))

section

variable {config proxy : Mapping} {proxies : List Mapping} {names chain : List String}

theorem get_unlink (distinct : Distinct proxy) (key : Value) : get (unlink proxy) key =
      if key = .string "dialer-proxy" then none else get proxy key := by
  unfold unlink
  split
  · exact OrderedMap.get_remove distinct _ _
  · rename_i absent
    by_cases same : key = .string "dialer-proxy"
    · rw [if_pos same, same]
      exact Option.not_isSome_iff_eq_none.mp absent
    · rw [if_neg same]

def dialsThrough (before : String) : List String → Option Value → Option String
  | [], _ => none
  | name :: rest, own =>
    if own = some (.string name) then some before else dialsThrough name rest own

def setLink (through : Option String) (proxy : Mapping) : Mapping :=
  match through with
  | some name => proxy.insert (.string "dialer-proxy") (.string name)
  | none => proxy

theorem get_setLink (through : Option String) (proxy : Mapping) {key : Value}
    (other : key ≠ .string "dialer-proxy") :
    get (setLink through proxy) key = get proxy key := by
  cases through with
  | none => rfl
  | some name => exact OrderedMap.get_insert_other _ _ other

theorem unlink_setLink (absent : proxy.get "dialer-proxy" = none) (through : Option String) :
    unlink (setLink through proxy) = proxy := by
  cases through with
  | none => exact if_neg (by simp [setLink, absent])
  | some name =>
    have linked : ((setLink (some name) proxy).get "dialer-proxy").isSome = true := by
      rw [setLink, Mapping.get, Mapping.insert, get_insert_same]
      rfl
    rw [unlink, if_pos linked]
    exact OrderedMap.remove_insert absent _

theorem linkFirst_eq (distinct : (proxies.map fun proxy => proxy.get "name").Nodup)
    (name through : String) :
    linkFirst (.string name) (.string through) (proxies.map Value.mapping) =
      (proxies.map fun proxy => setLink
        (if proxy.get "name" = some (.string name) then some through else none) proxy).map
          Value.mapping := by
  induction proxies with
  | nil => rfl
  | cons proxy rest ih =>
    obtain ⟨fresh, distinct⟩ := List.nodup_cons.mp distinct
    have own : valueGet (.mapping proxy) "name" = proxy.get "name" := rfl
    rw [List.map_cons, linkFirst, own, List.map_cons, List.map_cons]
    by_cases named : proxy.get "name" = some (.string name)
    · rw [if_pos named, if_pos named]
      have apart : ∀ other ∈ rest, other.get "name" ≠ some (.string name) := by
        rintro other listed same
        exact fresh (List.mem_map.mpr ⟨other, listed, same.trans named.symm⟩)
      refine congrArg (_ :: ·) (congrArg (List.map Value.mapping) ?_)
      refine (List.map_id rest).symm.trans (List.map_congr_left fun other listed => ?_)
      rw [if_neg (apart other listed)]
      rfl
    · rw [if_neg named, if_neg named, ih distinct]
      rfl

theorem name_setLink (through : Option String) (proxy : Mapping) :
    (setLink through proxy).get "name" = proxy.get "name" :=
  get_setLink through proxy (by decide)

theorem linkChain_eq (distinct : (proxies.map fun proxy => proxy.get "name").Nodup)
    {before : String} (once : chain.Nodup) :
    linkChain (some (.string before)) (chain.map Value.string) (proxies.map Value.mapping) =
      (proxies.map fun proxy => setLink (dialsThrough before chain (proxy.get "name")) proxy).map
        Value.mapping := by
  induction chain generalizing before proxies with
  | nil =>
    refine congrArg (List.map Value.mapping) ?_
    exact (List.map_id proxies).symm.trans (List.map_congr_left fun _ _ => rfl)
  | cons name rest ih =>
    obtain ⟨fresh, once⟩ := List.nodup_cons.mp once
    have named : ((proxies.map fun proxy => setLink
        (if proxy.get "name" = some (.string name) then some before else none) proxy).map
          fun proxy => proxy.get "name") = proxies.map fun proxy => proxy.get "name" := by
      rw [List.map_map]
      exact List.map_congr_left fun proxy _ => name_setLink _ proxy
    have absent : ∀ (before : String) (rest : List String), name ∉ rest →
        dialsThrough before rest (some (.string name)) = none := by
      intro before rest
      induction rest generalizing before with
      | nil => exact fun _ => rfl
      | cons other rest ih =>
        intro fresh
        rw [List.mem_cons, not_or] at fresh
        obtain ⟨different, fresh⟩ := fresh
        rw [dialsThrough, if_neg (by simpa using different)]
        exact ih other fresh
    rw [List.map_cons, linkChain, linkFirst_eq distinct,
      ih (named ▸ distinct) once]
    simp only [List.map_map]
    refine List.map_congr_left fun proxy _ => congrArg Value.mapping ?_
    simp only [Function.comp_apply, name_setLink, dialsThrough]
    by_cases own : proxy.get "name" = some (.string name)
    · rw [if_pos own, own, absent name rest fresh]
      simp [setLink]
    · rw [if_neg own, if_neg own]
      rfl

theorem dialsThrough_eq_some {before through own : String} (once : (before :: chain).Nodup) :
    dialsThrough before chain (some (.string own)) = some through ↔
      [through, own] <:+: before :: chain := by
  induction chain generalizing before with
  | nil => simp [dialsThrough, List.infix_cons_iff]
  | cons name rest ih =>
    obtain ⟨fresh, once⟩ := List.nodup_cons.mp once
    rw [dialsThrough, List.infix_cons_iff, List.cons_prefix_cons]
    by_cases same : own = name
    · subst same
      have later : ¬ [through, own] <:+: own :: rest := by
        intro inside
        rcases List.infix_cons_iff.mp inside with start | inside
        · have follows := (List.cons_prefix_cons.mp start).2
          exact (List.nodup_cons.mp once).1 (follows.subset (List.mem_singleton_self own))
        · exact (List.nodup_cons.mp once).1 (inside.subset (by simp))
      rw [if_pos rfl]
      simp [later, eq_comm]
    · rw [if_neg (by simpa using same), ih once]
      simp [same]

theorem find?_eq_some_of_unique {Item : Type} {items : List Item} {passes : Item → Bool}
    {one : Item} (listed : one ∈ items) (passed : passes one = true)
    (unique : ∀ other ∈ items, passes other = true → other = one) :
    items.find? passes = some one := by
  cases found : items.find? passes with
  | none => exact absurd passed (List.find?_eq_none.mp found one listed)
  | some other =>
    rw [unique other (List.mem_of_find?_eq_some found) (List.find?_some found)]

variable {after : List Mapping}

namespace Named

section

variable (named : Named after names)
include named

theorem nodup : (after.map fun proxy => proxy.get "name").Nodup := by
  rw [named.named]
  exact named.distinct.map fun _ _ same => Value.string.inj (Option.some.inj same)

theorem unique {one other : Mapping} (listed : one ∈ after)
    (present : other ∈ after) (same : one.get "name" = other.get "name") : one = other :=
  List.inj_on_of_nodup_map named.nodup listed present same

theorem exists_name (listed : proxy ∈ after) :
    ∃ name ∈ names, proxy.get "name" = some (.string name) := by
  have member : proxy.get "name" ∈ after.map fun proxy => proxy.get "name" :=
    List.mem_map_of_mem listed
  rw [named.named] at member
  obtain ⟨name, present, same⟩ := List.mem_map.mp member
  exact ⟨name, present, same.symm⟩

theorem exists_proxy {name : String} (present : name ∈ names) :
    ∃ proxy ∈ after, proxy.get "name" = some (.string name) := by
  have member : some (Value.string name) ∈ names.map fun name => some (Value.string name) :=
    List.mem_map_of_mem present
  rw [← named.named] at member
  obtain ⟨proxy, listed, same⟩ := List.mem_map.mp member
  exact ⟨proxy, listed, same⟩

section

variable (listed : proxy ∈ after)
include listed

theorem compared_iff (name : String) : (proxy.get "name").map Value.asStr = some (some name) ↔
      proxy.get "name" = some (.string name) := by
  obtain ⟨own, _, is_⟩ := named.exists_name listed
  simp [is_]

theorem find_entry {name : String} (own : proxy.get "name" = some (.string name)) :
    (after.map Value.mapping).find? (fun proxy => comparedName proxy = some (some name)) =
      some (.mapping proxy) := by
  refine find?_eq_some_of_unique (List.mem_map_of_mem listed) ?_ ?_
  · exact decide_eq_true ((named.compared_iff listed name).mpr own)
  · intro value member same
    obtain ⟨other, present, rfl⟩ := List.mem_map.mp member
    have alike := (named.compared_iff present name).mp (of_decide_eq_true same)
    rw [named.unique present listed (alike.trans own.symm)]

theorem follow_link {name before : String} (own : proxy.get "name" = some (.string name))
    (link : proxy.get "dialer-proxy" = some (.string before)) :
    followDialer (after.map Value.mapping) (some (some name)) =
      some (.mapping proxy, some (some before)) := by
  have found : (after.map Value.mapping).find? (isLink (some (some name))) =
      some (.mapping proxy) := by
    refine find?_eq_some_of_unique (List.mem_map_of_mem listed) ?_ ?_
    · refine decide_eq_true ⟨(named.compared_iff listed name).mpr own, ?_⟩
      rw [link]
      rfl
    · intro value member same
      obtain ⟨other, present, rfl⟩ := List.mem_map.mp member
      have alike := (named.compared_iff present name).mp (of_decide_eq_true same).1
      rw [named.unique present listed (alike.trans own.symm)]
  have through : valueGet (.mapping proxy) "dialer-proxy" = some (.string before) := link
  rw [followDialer, found, Option.map_some, through]
  rfl

theorem follow_entry {name : String}
    (own : proxy.get "name" = some (.string name)) (link : proxy.get "dialer-proxy" = none) :
    followDialer (after.map Value.mapping) (some (some name)) = none := by
  rw [followDialer, Option.map_eq_none_iff, List.find?_eq_none]
  intro value member
  obtain ⟨other, present, rfl⟩ := List.mem_map.mp member
  rw [isLink, decide_eq_true_eq, not_and]
  intro same
  have alike := (named.compared_iff present name).mp same
  rw [named.unique present listed (alike.trans own.symm), link]
  simp

end

theorem path_of_links {tail : List String} {exitNode first : String}
    (inside : ∀ name ∈ exitNode :: tail, name ∈ names)
    (links : ∀ name before, [name, before] <:+: exitNode :: tail → ∀ proxy ∈ after,
      proxy.get "name" = some (.string name) → proxy.get "dialer-proxy" = some (.string before))
    (starts : ∀ proxy ∈ after, proxy.get "name" = some (.string first) →
      proxy.get "dialer-proxy" = none)
    (ends : (exitNode :: tail).getLast? = some first) :
    ∃ (front : List Mapping) (entry : Mapping), (∀ proxy ∈ front ++ [entry], proxy ∈ after) ∧
      (front ++ [entry]).map (fun proxy => proxy.get "name") =
        (exitNode :: tail).map (fun name => some (Value.string name)) ∧
      entry.get "name" = some (.string first) ∧
      Pursuit.Path (followDialer (after.map Value.mapping)) (some (some exitNode))
        (front.map Value.mapping) (some (some first)) := by
  obtain ⟨proxy, listed, own⟩ := named.exists_proxy (inside exitNode List.mem_cons_self)
  induction tail generalizing exitNode proxy with
  | nil =>
    obtain rfl : exitNode = first := by simpa using ends
    exact ⟨[], proxy, by simpa using listed, by simp [own], own,
      .ends (named.follow_entry listed own (starts proxy listed own))⟩
  | cons before tail ih =>
    have later : ∀ name ∈ before :: tail, name ∈ names := fun name member =>
      inside name (List.mem_cons_of_mem _ member)
    obtain ⟨through, present, its⟩ := named.exists_proxy (later before List.mem_cons_self)
    obtain ⟨front, entry, all, are, name, path⟩ := ih later
      (fun name other follows => links name other (List.infix_cons_iff.mpr (.inr follows)))
      (by simpa using ends) through present its
    have link := links exitNode before (List.infix_cons_iff.mpr (.inl (by simp))) proxy listed own
    refine ⟨proxy :: front, entry, ?_, ?_, name, .turn (named.follow_link listed own link) path⟩
    · exact List.forall_mem_cons.mpr ⟨listed, all⟩
    · rw [List.cons_append, List.map_cons, are, own, List.map_cons, List.map_cons, List.map_cons]

end

end Named

theorem modifyProxies_eq {items : List Value}
    (listed : config.get "proxies" = some (.sequence items))
    (change : List Value → List Value) : modifyProxies change config =
      config.insert (.string "proxies") (.sequence (change items)) := by
  rw [modifyProxies, listed]

theorem updateProxyChainConfig_none (config : Mapping) :
    updateProxyChainConfig none config = modifyProxies (List.map (modifyMapping unlink)) config :=
  rfl

theorem get_proxies (config : Mapping) (value : Value) :
    (config.insert (.string "proxies") value).get "proxies" = some value :=
  get_insert_same ..

/-- The proxies after a chain is written: unlinked, and each one after the first dials through the
name before its own. -/
def chained (proxies : List Mapping) (first : String) (rest : List String) : List Mapping :=
  proxies.map fun proxy =>
    setLink (dialsThrough first rest (proxy.get "name")) (unlink proxy)

theorem name_unlink (distinct : Distinct proxy) : (unlink proxy).get "name" = proxy.get "name" := by
  rw [Mapping.get, get_unlink distinct, if_neg (by decide)]
  rfl

theorem named_chained (named : Named proxies names)
    (keys : ∀ proxy ∈ proxies, Distinct proxy) (first : String) (rest : List String) :
    Named (chained proxies first rest) names := by
  refine ⟨?_, named.distinct⟩
  rw [← named.named, chained, List.map_map]
  refine List.map_congr_left fun proxy listed => ?_
  exact (name_setLink _ _).trans (name_unlink (keys proxy listed))

theorem named_unlink (named : Named proxies names)
    (keys : ∀ proxy ∈ proxies, Distinct proxy) : Named (proxies.map unlink) names := by
  refine ⟨?_, named.distinct⟩
  rw [← named.named, List.map_map]
  exact List.map_congr_left fun proxy listed => name_unlink (keys proxy listed)

theorem updateProxyChainConfig_eq (has : HasProxies config proxies names)
    (first : String) {rest : List String} (once : rest.Nodup) :
    updateProxyChainConfig (some (.sequence ((first :: rest).map Value.string))) config =
      config.insert (.string "proxies")
        (.sequence ((chained proxies first rest).map Value.mapping)) := by
  have unlinked : (proxies.map Value.mapping).map (modifyMapping unlink) =
      (proxies.map unlink).map Value.mapping := by
    rw [List.map_map, List.map_map]
    rfl
  have same : (proxies.map unlink).map (fun proxy =>
      setLink (dialsThrough first rest (proxy.get "name")) proxy) = chained proxies first rest := by
    rw [List.map_map]
    refine List.map_congr_left fun proxy listed => ?_
    rw [Function.comp_apply, name_unlink (has.keys proxy listed)]
  rw [updateProxyChainConfig, modifyProxies_eq has.listed, unlinked]
  rw [modifyProxies_eq (get_proxies _ _), Mapping.insert, Mapping.insert,
    insert_insert, List.map_cons, linkChain,
    linkChain_eq (named_unlink has.toNamed has.keys).nodup once, same]
  rfl

theorem link_chained (distinct : Distinct proxy) (through : Option String) :
    (setLink through (unlink proxy)).get "dialer-proxy" = through.map Value.string := by
  cases through with
  | none => rw [setLink, Mapping.get, get_unlink distinct, if_pos rfl, Option.map_none]
  | some name => exact get_insert_same ..

section

variable (has : HasProxies config proxies names)
include has

theorem link_iff {first : String} {rest : List String}
    (once : (first :: rest).Nodup) (listed : proxy ∈ chained proxies first rest) {name : String}
    (own : proxy.get "name" = some (.string name)) (through : Value) :
    proxy.get "dialer-proxy" = some through ↔
      ∃ before, through = .string before ∧ [before, name] <:+: first :: rest := by
  obtain ⟨old, present, rfl⟩ := List.mem_map.mp listed
  have keys := has.keys old present
  rw [name_setLink, name_unlink keys] at own
  rw [link_chained keys, own, Option.map_eq_some_iff]
  refine exists_congr fun before => ?_
  rw [dialsThrough_eq_some once, and_comm, eq_comm]

theorem read_chained {first : String}
    {rest : List String} (once : (first :: rest).Nodup) (some_ : rest ≠ [])
    (present : ∀ name ∈ first :: rest, name ∈ names) {exitNode : String}
    (last : (first :: rest).getLast? = some exitNode) {updated : Mapping}
    (is_ : updated.get "proxies" =
      some (.sequence ((chained proxies first rest).map Value.mapping)))
    {fuel : Nat} (enough : (first :: rest).length ≤ fuel) :
    ∃ found : List Mapping, (∀ proxy ∈ found, proxy ∈ chained proxies first rest) ∧
      found.map (fun proxy => proxy.get "name") =
        ((first :: rest).map fun name => some (Value.string name)) ∧
      getRuntimeProxyChainConfig fuel (some updated) exitNode =
        some (.ok (found.map Value.mapping)) := by
  have named := named_chained has.toNamed has.keys first rest
  obtain ⟨tail, reversed⟩ : ∃ tail, (first :: rest).reverse = exitNode :: tail := by
    rw [List.getLast?_eq_head?_reverse] at last
    exact List.head?_eq_some_iff.mp last
  have starts : ∀ proxy ∈ chained proxies first rest, proxy.get "name" = some (.string first) →
      proxy.get "dialer-proxy" = none := by
    intro proxy listed own
    by_contra linked
    obtain ⟨through, linked⟩ := Option.ne_none_iff_exists'.mp linked
    obtain ⟨before, _, follows⟩ := (link_iff has once listed own through).mp linked
    obtain ⟨fresh, _⟩ := List.nodup_cons.mp once
    rcases List.infix_cons_iff.mp follows with start | later
    · exact fresh ((List.cons_prefix_cons.mp start).2.subset (by simp))
    · exact fresh (later.subset (by simp))
  obtain ⟨front, entry, all, are, own, path⟩ := named.path_of_links
    (fun name member => present name (List.mem_reverse.mp (reversed ▸ member)))
    (fun name before follows proxy listed own => (link_iff has once listed own _).mpr
      ⟨before, rfl, by
        have turned := List.reverse_infix.mpr follows
        rwa [← reversed, List.reverse_reverse] at turned⟩)
    starts (by rw [← reversed, List.getLast?_reverse]; rfl)
  have lengths := congrArg List.length are
  rw [← reversed] at lengths
  simp only [List.length_map, List.length_append, List.length_reverse, List.length_cons,
    List.length_nil] at lengths enough
  have more : front.map Value.mapping ≠ [] := by
    have long := List.length_pos_iff.mpr some_
    rw [Ne, ← List.length_eq_zero_iff, List.length_map]
    omega
  refine ⟨(front ++ [entry]).reverse, fun proxy member => all proxy (List.mem_reverse.mp member),
    ?_, ?_⟩
  · rw [List.map_reverse, are, ← reversed, List.map_reverse, List.reverse_reverse]
  · have ends : Pursuit.pursue (followDialer ((chained proxies first rest).map Value.mapping)) fuel
        (some (some exitNode)) = some (front.map Value.mapping, some (some first)) :=
      path.pursue_eq (by rw [List.length_map]; omega)
    have found := named.find_entry (all entry (by simp)) own
    rw [getRuntimeProxyChainConfig, is_]
    simp only [ends, Option.map_some, readChain, found, List.isEmpty_iff, more, if_false]
    rw [List.map_reverse, List.map_append, List.map_singleton]

theorem unlink_chained (first : String)
    (rest : List String) : (chained proxies first rest).map unlink = proxies.map unlink := by
  rw [chained, List.map_map]
  refine List.map_congr_left fun proxy listed => unlink_setLink ?_ _
  exact (get_unlink (has.keys proxy listed) _).trans (if_pos rfl)

end

theorem fields_chained (first : String) (rest : List String)
    (keys : ∀ proxy ∈ proxies, Distinct proxy) :
    List.Forall₂ (fun old new => ∀ key, key ≠ Value.string "dialer-proxy" →
      get new key = get old key) proxies (chained proxies first rest) := by
  induction proxies with
  | nil => exact List.Forall₂.nil
  | cons proxy others ih =>
    obtain ⟨own, keys⟩ := List.forall_mem_cons.mp keys
    refine List.Forall₂.cons (fun key different => ?_) (ih keys)
    rw [get_setLink _ _ different, get_unlink own, if_neg different]

/-- In a configuration whose proxies have different names, a chain of at least two of them is written
as the links between neighbours and read back as it is, with all else unchanged. Writing again starts
from the proxies as they were without links, and writing no chain leaves none. -/
theorem chain_round_trip (has : HasProxies config proxies names) (once : chain.Nodup)
    (present : ∀ name ∈ chain, name ∈ names) (two : 2 ≤ chain.length) :
    (∃ after, ChainWritten config (updateProxyChainConfig
      (some (.sequence (chain.map Value.string))) config) proxies after chain) ∧
    (∀ other : Option Value, updateProxyChainConfig other (updateProxyChainConfig
      (some (.sequence (chain.map Value.string))) config) = updateProxyChainConfig other config) ∧
    ∃ after : List Mapping, (updateProxyChainConfig none config).get "proxies" =
      some (.sequence (after.map Value.mapping)) ∧
      ∀ proxy ∈ after, proxy.get "dialer-proxy" = none := by
  obtain ⟨first, rest, rfl⟩ := List.exists_cons_of_length_pos (Nat.zero_lt_of_lt two)
  have some_ : rest ≠ [] := by
    rintro rfl
    contradiction
  have updated := updateProxyChainConfig_eq has first (List.nodup_cons.mp once).2
  have unlinked (items : List Mapping) : (items.map Value.mapping).map (modifyMapping unlink) =
      (items.map unlink).map Value.mapping := by
    rw [List.map_map, List.map_map]
    rfl
  refine ⟨⟨chained proxies first rest, ?_⟩, fun other => ?_, proxies.map unlink, ?_, ?_⟩
  · rw [updated]
    exact {
      listed := get_proxies _ _
      fields := fields_chained first rest has.keys
      links := fun proxy listed name own through => link_iff has once listed own through
      others := OrderedMap.erase_insert ..
      reads := fun exitNode last fuel enough =>
        read_chained has once some_ present last (get_proxies _ _) enough }
  · have same : modifyProxies (List.map (modifyMapping unlink)) (config.insert (.string "proxies")
        (.sequence ((chained proxies first rest).map Value.mapping))) =
        modifyProxies (List.map (modifyMapping unlink)) config := by
      rw [modifyProxies_eq (get_proxies _ _), modifyProxies_eq has.listed, unlinked,
        unlink_chained has, unlinked, Mapping.insert, Mapping.insert, insert_insert]
      rfl
    rw [updated]
    simp only [updateProxyChainConfig, same]
  · rw [updateProxyChainConfig_none, modifyProxies_eq has.listed, unlinked]
    exact get_proxies _ _
  · intro proxy listed
    obtain ⟨old, member, rfl⟩ := List.mem_map.mp listed
    exact (get_unlink (has.keys old member) _).trans (if_pos rfl)

end

def threeProxies : List Mapping :=
  [[(.string "name", .string "entry"), (.string "dialer-proxy", .string "exit"),
      (.string "port", .number (.integer 1))],
    [(.string "name", .string "spare")], [(.string "name", .string "exit")]]

theorem threeProxies_round_trip : ∃ after, ChainWritten
    [(.string "proxies", .sequence (threeProxies.map Value.mapping))]
    (updateProxyChainConfig (some (.sequence (["entry", "exit"].map Value.string)))
      [(.string "proxies", .sequence (threeProxies.map Value.mapping))])
    threeProxies after ["entry", "exit"] := by
  have has : HasProxies [(.string "proxies", .sequence (threeProxies.map Value.mapping))]
      threeProxies ["entry", "spare", "exit"] :=
    { named := by decide
      distinct := by decide
      listed := rfl
      keys := by
        unfold Distinct
        decide }
  exact (chain_round_trip has (by decide) (by decide) (by decide)).1

end ClashVerge.Config
