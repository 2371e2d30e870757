import ClashVerge.Library.OrderedMap

/-!
# Removing by swapping

An element is removed in constant time by moving the last element into its place. Removing several
elements one after another therefore fills the places of the removed ones from the end, and an
element that is carried forward may be the next one to be removed. The first removed element is
replaced by the last one, the second by the one before it, and so on, until an element is not
removed.
-/

namespace SwapRemoval

universe u
variable {α : Type u}

/-- Following the pairs from an element ends at one that has no pair. -/
inductive Resolves (pairs : List (α × α)) : α → α → Prop
  | ends {item : α} (unpaired : item ∉ pairs.map Prod.fst) : Resolves pairs item item
  | follows {item next result : α} (paired : (item, next) ∈ pairs)
      (rest : Resolves pairs next result) : Resolves pairs item result

theorem Resolves.unique {pairs : List (α × α)} (single : (pairs.map Prod.fst).Nodup)
    {item first second : α} (one : Resolves pairs item first)
    (other : Resolves pairs item second) : first = second := by
  induction one with
  | ends unpaired =>
    cases other with
    | ends => rfl
    | follows paired => exact absurd (List.mem_map.mpr ⟨_, paired, rfl⟩) unpaired
  | follows paired _ ih =>
    cases other with
    | ends unpaired => exact absurd (List.mem_map.mpr ⟨_, paired, rfl⟩) unpaired
    | follows pairedToo rest =>
      have same := List.inj_on_of_nodup_map single paired pairedToo rfl
      exact ih ((Prod.mk.inj same).2 ▸ rest)

theorem Resolves.origin {pairs : List (α × α)} {item result : α}
    (resolved : Resolves pairs item result) :
    result = item ∧ item ∉ pairs.map Prod.fst ∨ result ∈ pairs.map Prod.snd := by
  induction resolved with
  | ends unpaired => exact .inl ⟨rfl, unpaired⟩
  | follows paired _ ih =>
    obtain ⟨rfl, -⟩ | further := ih
    · exact .inr (List.mem_map.mpr ⟨_, paired, rfl⟩)
    · exact .inr further

theorem exists_of_forall₂ {stands : α → α → Prop} {items results : List α}
    (each : List.Forall₂ stands items results) {item : α} (member : item ∈ items) :
    ∃ result ∈ results, stands item result := by
  induction each with
  | nil => exact absurd member List.not_mem_nil
  | cons stand _ ih =>
    obtain rfl | later := List.mem_cons.mp member
    · exact ⟨_, List.mem_cons_self, stand⟩
    · obtain ⟨result, listed, standsFor⟩ := ih later
      exact ⟨result, List.mem_cons_of_mem _ listed, standsFor⟩

theorem pairwise_of_forall₂ {stands order : α → α → Prop} {items results : List α}
    (unique : ∀ item first second, stands item first → stands item second → first = second)
    (each : List.Forall₂ stands items results) :
    results.Pairwise order ↔ items.Pairwise fun item later =>
      ∀ first second, stands item first → stands later second → order first second := by
  induction each with
  | nil => simp
  | @cons item result rest others stand each ih =>
    rw [List.pairwise_cons, List.pairwise_cons, ih]
    refine and_congr_left fun _ => ⟨fun all later member first second is_ laterIs => ?_, ?_⟩
    · obtain ⟨other, listed, standsFor⟩ := exists_of_forall₂ each member
      rw [unique item first result is_ stand, unique later second other laterIs standsFor]
      exact all other listed
    · intro all other listed
      obtain ⟨later, member, standsFor⟩ := exists_of_forall₂ each.flip listed
      exact all later member result other stand standsFor

variable [DecidableEq α]

/-- Move the last element into the place of the removed one. -/
def swapRemove : List α → α → List α
  | [], _ => []
  | own :: rest, removed =>
      if own = removed then
        match rest.getLast? with
        | none => []
        | some last => last :: rest.dropLast
      else own :: swapRemove rest removed

/-- Remove the elements one after another. -/
def swapRemoveAll (items removed : List α) : List α := removed.foldl swapRemove items

def replaced (removed last item : α) : α := if item = removed then last else item

variable {items : List α}

theorem swapRemove_of_not_mem {removed : α} (absent : removed ∉ items) :
    swapRemove items removed = items := by
  induction items with
  | nil => rfl
  | cons own rest ih =>
    rw [List.mem_cons, not_or] at absent
    obtain ⟨different, later⟩ := absent
    rw [swapRemove, if_neg (Ne.symm different), ih later]

theorem swapRemove_eq_map {before : List α} {last removed : α}
    (distinct : (before ++ [last]).Nodup) (present : removed ∈ before ++ [last]) :
    swapRemove (before ++ [last]) removed = before.map (replaced removed last) := by
  induction before with
  | nil => simp [swapRemove, List.mem_singleton.mp present]
  | cons own rest ih =>
    obtain ⟨fresh, remaining⟩ := List.nodup_cons.mp distinct
    by_cases same : own = removed
    · subst same
      have others : rest.map (replaced own last) = rest := by
        refine (List.map_congr_left fun item member => ?_).trans (List.map_id rest)
        have away : item ≠ own := by
          rintro rfl
          exact fresh (List.mem_append_left _ member)
        exact if_neg away
      rw [List.map_cons, others]
      simp [swapRemove, replaced]
    · have later : removed ∈ rest ++ [last] := by
        simpa [Ne.symm same] using present
      rw [List.cons_append, swapRemove, if_neg same, ih remaining later]
      simp [replaced, same]

section

variable (distinct : items.Nodup)
include distinct

theorem swapRemove_perm (removed : α) : (swapRemove items removed).Perm (items.erase removed) := by
  induction items with
  | nil => exact List.Perm.refl _
  | cons own rest ih =>
    obtain ⟨_, remaining⟩ := List.nodup_cons.mp distinct
    by_cases same : own = removed
    · rw [swapRemove, if_pos same, same, List.erase_cons_head]
      cases last : rest.getLast? with
      | none => rw [List.getLast?_eq_none_iff.mp last]
      | some item =>
        have whole : rest.dropLast ++ [item] = rest := List.dropLast_append_getLast? item last
        have moved : (item :: rest.dropLast).Perm (rest.dropLast ++ [item]) :=
          (List.perm_append_singleton item rest.dropLast).symm
        rwa [whole] at moved
    · rw [swapRemove, if_neg same, List.erase_cons_tail (by simpa using same)]
      exact (ih remaining).cons own

theorem nodup_swapRemove (removed : α) : (swapRemove items removed).Nodup :=
  (swapRemove_perm distinct removed).nodup_iff.mpr (distinct.erase removed)

theorem mem_swapRemove (removed item : α) :
    item ∈ swapRemove items removed ↔ item ≠ removed ∧ item ∈ items := by
  rw [(swapRemove_perm distinct removed).mem_iff, distinct.mem_erase_iff]

theorem nodup_swapRemoveAll (removed : List α) : (swapRemoveAll items removed).Nodup := by
  induction removed generalizing items with
  | nil => exact distinct
  | cons first rest ih =>
    exact ih (nodup_swapRemove distinct first)

theorem mem_swapRemoveAll (removed : List α)
    (item : α) : item ∈ swapRemoveAll items removed ↔ item ∉ removed ∧ item ∈ items := by
  induction removed generalizing items with
  | nil => simp [swapRemoveAll]
  | cons first rest ih =>
    rw [swapRemoveAll, List.foldl_cons, ← swapRemoveAll,
      ih (nodup_swapRemove distinct first), mem_swapRemove distinct,
      List.mem_cons, not_or]
    tauto

end

theorem swapRemoveAll_filter {items removed : List α} (distinct : items.Nodup)
    (once : removed.Nodup) :
    swapRemoveAll items (removed.filter (· ∈ items)) = swapRemoveAll items removed := by
  induction removed generalizing items with
  | nil => rfl
  | cons first rest ih =>
    obtain ⟨fresh, remaining⟩ := List.nodup_cons.mp once
    by_cases present : first ∈ items
    · have same : rest.filter (· ∈ items) = rest.filter (· ∈ swapRemove items first) := by
        refine List.filter_congr fun item member => ?_
        have other : item ≠ first := fun equal => fresh (equal ▸ member)
        simp [mem_swapRemove distinct, other]
      rw [List.filter_cons_of_pos (by simpa using present), swapRemoveAll, List.foldl_cons,
        ← swapRemoveAll, same, ih (nodup_swapRemove distinct first) remaining]
      rfl
    · rw [List.filter_cons_of_neg (by simpa using present), ih distinct remaining,
        swapRemoveAll, swapRemoveAll, List.foldl_cons, swapRemove_of_not_mem present]

theorem Resolves.beforeRemoval {removed last : α} {rest ends : List α}
    (gone : ∀ item ∈ ends, replaced removed last item ≠ removed) {item result : α}
    (resolved : Resolves (rest.zip (ends.map (replaced removed last)))
      (replaced removed last item) result)
    (different : replaced removed last item ≠ removed) :
    Resolves ((removed, last) :: rest.zip ends) item result := by
  have firsts : (rest.zip (ends.map (replaced removed last))).map Prod.fst =
      (rest.zip ends).map Prod.fst := by
    simp [List.zip_map_right, Function.comp_def]
  -- A place that was filled by the removal leads to the last element first.
  have enter : ∀ {origin : α}, replaced removed last origin ≠ removed →
      Resolves ((removed, last) :: rest.zip ends) (replaced removed last origin) result →
      Resolves ((removed, last) :: rest.zip ends) origin result := by
    intro origin _ onward
    by_cases same : origin = removed
    · subst same
      rw [replaced, if_pos rfl] at onward
      exact .follows List.mem_cons_self onward
    · rwa [replaced, if_neg same] at onward
  refine enter different ?_
  generalize replaced removed last item = current at resolved different
  induction resolved with
  | ends unpaired =>
    refine .ends ?_
    rw [firsts] at unpaired
    simpa using ⟨different, by simpa using unpaired⟩
  | @follows current next result paired _ ih =>
    rw [List.zip_map_right] at paired
    obtain ⟨⟨own, target⟩, listed, same⟩ := List.mem_map.mp paired
    cases same
    have present : target ∈ ends := (List.of_mem_zip listed).2
    exact .follows (List.mem_cons_of_mem _ listed)
      (enter (gone target present) (ih enter (gone target present)))

theorem swapRemoveAll_resolves {items removed : List α} (distinct : items.Nodup)
    (once : removed.Nodup) (present : ∀ item ∈ removed, item ∈ items) :
    List.Forall₂ (Resolves (removed.zip items.reverse))
      (items.take (items.length - removed.length)) (swapRemoveAll items removed) := by
  induction removed generalizing items with
  | nil =>
    rw [List.length_nil, Nat.sub_zero, List.take_length]
    exact List.forall₂_same.mpr fun item _ => .ends (by simp)
  | cons first rest ih =>
    obtain ⟨fresh, remaining⟩ := List.nodup_cons.mp once
    obtain rfl | ⟨before, last, rfl⟩ := List.eq_nil_or_concat items
    · exact absurd (present first List.mem_cons_self) List.not_mem_nil
    rw [List.concat_eq_append] at *
    have step := swapRemove_eq_map distinct (present first List.mem_cons_self)
    have outside : last ∉ before := by
      have apart := (List.nodup_append.mp distinct).2.2
      exact fun member => apart last member last (List.mem_singleton.mpr rfl) rfl
    have gone : ∀ item ∈ before, replaced first last item ≠ first := by
      intro item member
      unfold replaced
      split
      · rename_i same
        rintro rfl
        exact outside (same ▸ member)
      · assumption
    have later : ∀ item ∈ rest, item ∈ swapRemove (before ++ [last]) first := by
      intro item member
      rw [mem_swapRemove distinct]
      exact ⟨fun equal => fresh (equal ▸ member), present item (List.mem_cons_of_mem _ member)⟩
    have landed := ih (nodup_swapRemove distinct first) remaining later
    have whole : swapRemoveAll (before ++ [last]) (first :: rest) =
        swapRemoveAll (swapRemove (before ++ [last]) first) rest := rfl
    rw [whole, step] at *
    rw [List.length_map, ← List.map_take, List.forall₂_map_left_iff, ← List.map_reverse] at landed
    have shorter :
        (before ++ [last]).take ((before ++ [last]).length - (first :: rest).length) =
          before.take (before.length - rest.length) := by
      rw [List.length_append, List.length_singleton, List.length_cons, Nat.add_sub_add_right,
        List.take_append_of_le_length (Nat.sub_le _ _)]
    rw [shorter, List.reverse_append, List.reverse_singleton, List.singleton_append,
      List.zip_cons_cons]
    have inside : ∀ item ∈ before.take (before.length - rest.length),
        replaced first last item ≠ first :=
      fun item member => gone item (List.mem_of_mem_take member)
    refine List.Forall₂.imp ?_ ((List.forall₂_and_left _ _).mpr ⟨inside, landed⟩)
    rintro item result ⟨different, resolved⟩
    exact resolved.beforeRemoval (fun other member => gone other (List.mem_reverse.mp member))
      different

theorem swapRemoveAll_head {removed tail : List α} (distinct : (removed ++ tail).Nodup) :
    swapRemoveAll (removed ++ tail) removed =
      tail.reverse.take removed.length ++ tail.take (tail.length - removed.length) := by
  have once : removed.Nodup := (List.nodup_append.mp distinct).1
  have apart : ∀ item ∈ tail, item ∉ removed := fun item there here =>
    (List.nodup_append.mp distinct).2.2 item here item there rfl
  have landed := swapRemoveAll_resolves distinct once fun item => List.mem_append_left tail
  have single : ((removed.zip (removed ++ tail).reverse).map Prod.fst).Nodup := by
    rw [List.map_fst_zip (by simp)]
    exact once
  refine List.right_unique_forall₂' (fun _ _ _ one other => one.unique single other) landed ?_
  have front : (removed ++ tail).take ((removed ++ tail).length - removed.length) =
      removed.take tail.length ++ tail.take (tail.length - removed.length) := by
    rw [List.length_append, Nat.add_sub_cancel_left, List.take_append]
  rw [front]
  have unpaired : ∀ item ∈ tail, item ∉ (removed.zip (removed ++ tail).reverse).map Prod.fst := by
    intro item member
    rw [List.map_fst_zip (by simp)]
    exact apart item member
  refine List.rel_append (List.forall₂_iff_zip.mpr
    ⟨by simp [Nat.min_comm], fun {item result} paired => ?_⟩)
    (List.forall₂_same.mpr fun item member => .ends (unpaired item (List.mem_of_mem_take member)))
  have member : result ∈ tail :=
    List.mem_reverse.mp (List.mem_of_mem_take (List.of_mem_zip paired).2)
  refine .follows ?_ (.ends (unpaired result member))
  have pieces : removed.zip (removed ++ tail).reverse =
      (removed.take tail.length ++ removed.drop tail.length).zip
        (tail.reverse.take removed.length ++
          (tail.reverse.drop removed.length ++ removed.reverse)) := by
    rw [List.take_append_drop, ← List.append_assoc, List.take_append_drop, List.reverse_append]
  rw [pieces, List.zip_append (by simp [Nat.min_comm])]
  exact List.mem_append_left _ paired

theorem swapRemove_map {β : Type*} [DecidableEq β] {change : α → β}
    (injective : Function.Injective change) (items : List α) (removed : α) :
    swapRemove (items.map change) (change removed) = (swapRemove items removed).map change := by
  induction items with
  | nil => rfl
  | cons own rest ih =>
    by_cases same : own = removed
    · subst same
      rw [List.map_cons, swapRemove, if_pos rfl, swapRemove, if_pos rfl, List.getLast?_map]
      cases rest.getLast? with
      | none => rfl
      | some last => rw [Option.map_some, List.map_cons, List.map_dropLast]
    · have different : change own ≠ change removed := fun equal => same (injective equal)
      rw [List.map_cons, swapRemove, if_neg different, swapRemove, if_neg same,
        ih, List.map_cons]

theorem swapRemoveAll_map {β : Type*} [DecidableEq β] {change : α → β}
    (injective : Function.Injective change) (items removed : List α) :
    swapRemoveAll (items.map change) (removed.map change) =
      (swapRemoveAll items removed).map change := by
  induction removed generalizing items with
  | nil => rfl
  | cons first rest ih =>
    rw [List.map_cons, swapRemoveAll, List.foldl_cons, swapRemove_map injective,
      ← swapRemoveAll, ih]
    rfl

theorem keys_remove {Val : Type*} (entries : List (α × Val)) (key : α) :
    OrderedMap.keys (OrderedMap.remove entries key) = swapRemove (OrderedMap.keys entries) key := by
  induction entries with
  | nil => rfl
  | cons entry rest ih =>
    obtain ⟨own, value⟩ := entry
    by_cases same : own = key
    · rw [OrderedMap.remove, if_pos same, OrderedMap.keys_cons, swapRemove, if_pos same,
        OrderedMap.keys, OrderedMap.keys, List.getLast?_map]
      cases rest.getLast? with
      | none => rfl
      | some last => rw [Option.map_some, List.map_cons, List.map_dropLast]
    · rw [OrderedMap.remove, if_neg same, OrderedMap.keys_cons, OrderedMap.keys_cons, swapRemove,
        if_neg same, ih]

end SwapRemoval
