import ClashVerge.Library.Transition
import ClashVerge.Profiles.Disk

/-!
# The invariant of the profile store

The operations one after another, each on the store its predecessor committed. An operation that
ends with an error commits nothing.

`crossOff` says what a deletion is for: it leaves out the first item of each of a list of names.
Taking the items out one after another does the same, and the current profile stays an item of the
store unless the deletion of another profile takes it along as a companion.
-/

namespace ClashVerge.Profiles

open ClashVerge.Verge
open Transition (Meets)

/-- Leave out the first item of each name. -/
def crossOff : List PrfItem → List (Option String) → List PrfItem
  | [], _ => []
  | item :: rest, names =>
    if item.uid ∈ names then crossOff rest (names.erase item.uid)
    else item :: crossOff rest names

@[simp] theorem crossOff_nil (items : List PrfItem) : crossOff items [] = items := by
  induction items with
  | nil => rfl
  | cons item rest ih => simp [crossOff, ih]

theorem crossOff_cons (items : List PrfItem) (name : Option String) (names : List (Option String)) :
    crossOff items (name :: names) = crossOff (takeItemFileByUid items name).2 names := by
  induction items generalizing names with
  | nil => rfl
  | cons item rest ih =>
    rw [takeItemFileByUid, crossOff]
    by_cases named : item.uid = name
    · simp [named]
    · have different : name ≠ item.uid := Ne.symm named
      rw [if_neg named, crossOff]
      by_cases other : item.uid ∈ names
      · rw [if_pos (List.mem_cons_of_mem _ other), if_pos other,
          List.erase_cons_tail (by simpa using different), ih]
      · rw [if_neg (by simp [named, other]), if_neg other, ih]

theorem takeItemFiles_eq_crossOff (items : List PrfItem) (names : List (Option String)) :
    (IProfiles.takeItemFiles items names).2 = crossOff items names := by
  induction names generalizing items with
  | nil => simp [IProfiles.takeItemFiles]
  | cons name rest ih =>
    rw [crossOff_cons, ← ih, IProfiles.takeItemFiles]

theorem crossOff_sublist (items : List PrfItem) (names : List (Option String)) :
    (crossOff items names).Sublist items := by
  induction items generalizing names with
  | nil => exact List.Sublist.slnil
  | cons item rest ih =>
    rw [crossOff]
    split
    · exact (ih _).cons item
    · exact (ih _).cons_cons item

variable {items : List PrfItem}

theorem mem_crossOff {names : List (Option String)} {item : PrfItem}
    (listed : item ∈ items) (unnamed : item.uid ∉ names) : item ∈ crossOff items names := by
  induction items generalizing names with
  | nil => simp at listed
  | cons first rest ih =>
    rw [crossOff]
    obtain rfl | later := List.mem_cons.mp listed
    · rw [if_neg unnamed]
      exact List.mem_cons_self
    · split
      · exact ih later (fun named => unnamed (List.mem_of_mem_erase named))
      · exact List.mem_cons_of_mem _ (ih later unnamed)

theorem crossOff_eq_filter {names : List (Option String)} (unique : (items.map PrfItem.uid).Nodup) :
    crossOff items names = items.filter (·.uid ∉ names) := by
  induction items generalizing names with
  | nil => rfl
  | cons item rest ih =>
    obtain ⟨alone, others⟩ := List.nodup_cons.mp unique
    rw [crossOff]
    split
    · rename_i named
      rw [ih others, List.filter_cons_of_neg (by simpa using named)]
      refine List.filter_congr fun other listed => ?_
      have different : other.uid ≠ item.uid := by
        intro same
        exact alone (same ▸ List.mem_map_of_mem listed)
      simp [List.mem_erase_of_ne different]
    · rename_i unnamed
      rw [ih others, List.filter_cons_of_pos (by simpa using unnamed)]

theorem crossOff_present (identified : ∀ item ∈ items, item.uid.isSome)
    (names : List (Option String)) :
    crossOff items names = crossOff items (names.filter Option.isSome) := by
  induction items generalizing names with
  | nil => rfl
  | cons item rest ih =>
    have own : item.uid.isSome := identified item List.mem_cons_self
    have others := fun names => ih
      (fun other listed => identified other (List.mem_cons_of_mem _ listed)) names
    rw [crossOff, crossOff]
    have same : item.uid ∈ names.filter Option.isSome ↔ item.uid ∈ names := by simp [own]
    simp only [same]
    split
    · rw [others, ← List.erase_filter]
    · rw [others]

theorem insertIdx_eq_take_drop {index : Nat} (item : PrfItem) (bound : index ≤ items.length) :
    items.insertIdx index item = items.take index ++ item :: items.drop index := by
  induction items generalizing index with
  | nil =>
    obtain rfl : index = 0 := by simpa using bound
    rfl
  | cons first rest ih =>
    cases index with
    | zero => rfl
    | succ index =>
      rw [List.insertIdx_succ_cons, ih (by simpa using bound)]
      rfl

theorem rposition_some {uid : String} {index : Nat} (found : rposition items uid = some index) :
    ∃ item, items[index]? = some item ∧ item.uid = some uid := by
  obtain ⟨back, backwards, rfl⟩ := Option.map_eq_some_iff.mp found
  obtain ⟨bound, named, -⟩ := List.findIdx?_eq_some_iff_getElem.mp backwards
  rw [List.length_reverse] at bound
  rw [List.getElem_reverse] at named
  exact ⟨_, List.getElem?_eq_getElem _, by simpa using named⟩

namespace IProfiles

variable (profiles : IProfiles)

def CurrentValid : Prop :=
  ∀ current, profiles.current = some current → some current ∈ profiles.list.map PrfItem.uid

/-- Each item has a uid, as those of a loaded store do. -/
def Identified : Prop := ∀ item ∈ profiles.list, item.uid.isSome

/-- One item with the uid has moved, and nothing else has. -/
def MovedItem (uid : String) (next : IProfiles) : Prop :=
  next.current = profiles.current ∧ ∃ item before after before' after',
    item.uid = some uid ∧ profiles.list = before ++ item :: after ∧
    next.list = before' ++ item :: after' ∧ before ++ after = before' ++ after'

variable {profiles}

theorem moveItem_moved {activeId overId : String} {next : IProfiles}
    (moved : profiles.moveItem activeId overId = some next) :
    profiles.MovedItem activeId next := by
  unfold moveItem at moved
  split at moved
  · contradiction
  · rename_i items listed
    split at moved
    · rename_i oldIndex newIndex oldFound newFound
      obtain ⟨item, item_at, named⟩ := rposition_some oldFound
      obtain ⟨target, target_at, -⟩ := rposition_some newFound
      obtain ⟨oldBound, rfl⟩ := List.getElem?_eq_some_iff.mp item_at
      obtain ⟨newBound, -⟩ := List.getElem?_eq_some_iff.mp target_at
      rw [item_at] at moved
      cases moved
      have shorter : newIndex ≤ (items.eraseIdx oldIndex).length := by
        rw [List.length_eraseIdx_of_lt oldBound]
        omega
      refine ⟨rfl, items[oldIndex], items.take oldIndex, items.drop (oldIndex + 1),
        (items.eraseIdx oldIndex).take newIndex, (items.eraseIdx oldIndex).drop newIndex,
        named, ?_, ?_, ?_⟩
      · rw [list, listed, Option.getD_some, List.getElem_cons_drop, List.take_append_drop]
      · exact insertIdx_eq_take_drop _ shorter
      · rw [List.take_append_drop, List.eraseIdx_eq_take_drop_succ]
    · contradiction

theorem patchItem_ok {os : Os} {uid : String} {item : PrfItem} {patched : IProfiles}
    (allowed : profiles.patchItem os uid item = .ok patched) :
    patched = { profiles with
      items := some (modifyItem profiles.list uid (patchedItem · item)) } := by
  have found : findItem profiles.list uid ≠ none → patched = { profiles with
      items := some (modifyItem profiles.list uid (patchedItem · item)) } := by
    intro present
    obtain ⟨each, named⟩ := Option.ne_none_iff_exists'.mp present
    simp only [patchItem, named, bind, Except.bind] at allowed
    split at allowed
    · split at allowed
      · contradiction
      · exact (Except.ok.inj allowed).symm
    · exact (Except.ok.inj allowed).symm
  refine found fun absent => ?_
  simp only [patchItem, absent, bind, Except.bind] at allowed
  split at allowed
  · split at allowed <;> contradiction
  · contradiction

/-- A plan deletes the first item with the uid and what its links name. The current profile is kept
unless it is the one that is deleted, and else is one of the items that are left. -/
theorem planDeleteItem_ok {uid : String} {plan : Bool × List String × IProfiles}
    (planned : profiles.planDeleteItem uid = .ok plan) :
    ∃ item, findItem profiles.list uid = some item ∧
      plan.2.2.list = crossOff profiles.list (some uid :: companions item) ∧
      plan.2.2.current =
        if profiles.current = none ∨ profiles.current = some uid then
          (plan.2.2.list.find? PrfItem.isProfile).bind PrfItem.uid
        else profiles.current := by
  unfold planDeleteItem getItem at planned
  split at planned
  · contradiction
  · rename_i item got
    split at got
    · rename_i found listed
      obtain rfl := Except.ok.inj got
      obtain rfl := Except.ok.inj planned
      refine ⟨found, listed, takeItemFiles_eq_crossOff _ _, ?_⟩
      cases current : profiles.current with
      | none => simp [list]
      | some other => by_cases same : other = uid <;> simp [list, same]
    · contradiction

theorem MovedItem.perm {uid : String} {next : IProfiles} (moved : profiles.MovedItem uid next) :
    next.list.Perm profiles.list := by
  obtain ⟨-, item, before, after, before', after', -, listed, listed', others⟩ := moved
  rw [listed, listed']
  calc before' ++ item :: after'
    _ |>.Perm (item :: (before' ++ after')) := List.perm_middle
    _ = item :: (before ++ after) := by rw [others]
    _ |>.Perm (before ++ item :: after) := List.perm_middle.symm

end IProfiles

theorem modifyItem_uid (items : List PrfItem) (uid : String) {change : PrfItem → PrfItem}
    (keeps : ∀ item, (change item).uid = item.uid) :
    (modifyItem items uid change).map PrfItem.uid = items.map PrfItem.uid := by
  induction items with
  | nil => rfl
  | cons item rest ih =>
    rw [modifyItem]
    split
    · simp [keeps]
    · simp [ih]

/-- A call that changes the store: an operation with its writes, or `patch_config` alone. -/
inductive StoreCall where
  | operation (operation : Operation)
  | patchConfig (patch : IProfiles)

/-- The committed store and the disk. -/
structure Kept where
  profiles : IProfiles
  disk : Disk

namespace StoreCall

def run (os : Os) (call : StoreCall) (kept : Kept) : Returned × Disk :=
  match call with
  | .operation body => body.run os kept.profiles kept.disk
  | .patchConfig patch => (.ok (kept.profiles.patchConfig patch, .ok ()), kept.disk)

/-- `with_data_modify` commits the store the body returns, and nothing when it ends with an
error. -/
def step (os : Os) (kept : Kept) (call : StoreCall) : Option Kept :=
  match call.run os kept with
  | (.ok (next, _), disk) => some ⟨next, disk⟩
  | (.error _, disk) => some ⟨kept.profiles, disk⟩

def Succeeds (os : Os) (kept : Kept) (call : StoreCall) : Prop :=
  ∃ next, (call.run os kept).1 = .ok (next, .ok ())

/-- A deletion of another profile does not take the current one along. -/
def SparesCurrent (kept : Kept) : StoreCall → Prop
  | .operation (.delete uid _ _ _) => ∀ item current, findItem kept.profiles.list uid = some item →
      kept.profiles.current = some current → current ≠ uid →
      some current ∉ IProfiles.companions item
  | _ => True

inductive Effect (profiles : IProfiles) (call : StoreCall) : IProfiles → Prop
  | kept (next : IProfiles) (current : next.current = profiles.current)
      (items : next.list = profiles.list) : Effect profiles call next
  | pushed (item : PrfItem) (identified : item.uid.isSome) :
      Effect profiles call (profiles.pushItem item)
  | edited (uid : String) (change : PrfItem → PrfItem)
      (keeps : ∀ item, (change item).uid = item.uid) :
      Effect profiles call { profiles with items := some (modifyItem profiles.list uid change) }
  | moved (uid : String) (next : IProfiles) (moved : profiles.MovedItem uid next) :
      Effect profiles call next
  | named (current : String) (listed : some current ∈ profiles.list.map PrfItem.uid) :
      Effect profiles call ⟨some current, some profiles.list⟩
  | deleted (uid : String) (forced : ForcedUpdate) (save : Except String Unit)
      (removable : String → Bool) (plan : Bool × List String × IProfiles)
      (deletes : call = .operation (.delete uid forced save removable))
      (planned : profiles.planDeleteItem uid = .ok plan) : Effect profiles call plan.2.2

theorem patchConfig_effect (profiles patch : IProfiles) (call : StoreCall) :
    Effect profiles call (profiles.patchConfig patch) := by
  unfold IProfiles.patchConfig
  split
  · exact .kept _ rfl rfl
  · rename_i current wanted
    split
    · rename_i listed
      refine .named current ?_
      obtain ⟨item, member, same⟩ := List.any_eq_true.mp listed
      exact List.mem_map.mpr ⟨item, member, by simpa using same⟩
    · exact .kept _ rfl rfl

variable {call : StoreCall}

theorem run_effect {os : Os} {kept : Kept} {next : IProfiles}
    {reported : Except String Unit} (returned : (call.run os kept).1 = .ok (next, reported)) :
    Effect kept.profiles call next := by
  cases call with
  | patchConfig patch =>
    obtain ⟨rfl, -⟩ : kept.profiles.patchConfig patch = next ∧ _ := by
      simpa only [run, Except.ok.injEq, Prod.mk.injEq] using returned
    exact patchConfig_effect _ _ _
  | operation body =>
    cases body with
    | append item write =>
      simp only [run, Operation.run, Operation.runAppend] at returned
      split at returned
      · simp at returned
      · rename_i uid named absent
        obtain ⟨rfl, -⟩ : kept.profiles.pushItem item = next ∧ _ := by
          simpa only [Except.ok.injEq, Prod.mk.injEq] using returned
        exact .pushed item (by simp [named])
      · simp at returned
      · rename_i uid text file named present filed
        split at returned
        · simp at returned
        · obtain ⟨rfl, -⟩ : kept.profiles.pushItem { item with fileData := none } = next ∧ _ := by
            simpa only [Except.ok.injEq, Prod.mk.injEq] using returned
          exact .pushed _ (by simp [named])
    | patch uid item save =>
      simp only [run, Operation.run, Operation.runPatch] at returned
      split at returned
      · simp at returned
      · rename_i patched allowed
        obtain rfl := Operation.runSave_returned returned
        rw [IProfiles.patchItem_ok allowed]
        exact .edited uid _ (fun _ => rfl)
    | reorder activeId overId save =>
      simp only [run, Operation.run, Operation.runReorder] at returned
      split at returned
      · obtain ⟨rfl, -⟩ : kept.profiles = next ∧ _ := by
          simpa only [Except.ok.injEq, Prod.mk.injEq] using returned
        exact .kept _ rfl rfl
      · rename_i moved found
        obtain rfl := Operation.runSave_returned returned
        exact .moved activeId _ (IProfiles.moveItem_moved found)
    | saveFile save =>
      obtain rfl := Operation.runSave_returned returned
      exact .kept _ rfl rfl
    | update uid item write save =>
      have edited : Effect kept.profiles (.operation (.update uid item write save))
          { kept.profiles with
            items := some (modifyItem kept.profiles.list uid (IProfiles.updatedItem · item uid)) } :=
        .edited uid _ (fun _ => rfl)
      simp only [run, Operation.run, Operation.runUpdate] at returned
      split at returned
      · simp at returned
      · split at returned
        · obtain rfl := Operation.runSave_returned returned
          exact edited
        · split at returned
          · simp at returned
          · obtain rfl := Operation.runSave_returned returned
            exact edited
    | delete uid forced save removable =>
      obtain rfl | ⟨plan, planned, rfl, -⟩ := Operation.runDelete_returned returned
      · exact .kept _ rfl rfl
      · exact .deleted uid forced save removable plan rfl planned
    | activate current =>
      obtain ⟨rfl, -⟩ : kept.profiles.patchConfig ⟨some current, none⟩ = next ∧ _ := by
        simpa only [run, Operation.run, Except.ok.injEq, Prod.mk.injEq] using returned
      exact patchConfig_effect _ _ _

theorem Effect.currentValid {kept : Kept} {next : IProfiles}
    (effect : Effect kept.profiles call next) (valid : kept.profiles.CurrentValid)
    (spares : call.SparesCurrent kept) : next.CurrentValid := by
  intro current isCurrent
  cases effect with
  | kept next same items =>
    rw [items]
    exact valid current (same ▸ isCurrent)
  | pushed item identified =>
    simp only [IProfiles.pushItem, IProfiles.list, Option.getD_some, List.map_append, List.map_cons,
      List.map_nil, List.mem_append, List.mem_singleton] at isCurrent ⊢
    split at isCurrent
    · exact .inr isCurrent.symm
    · exact .inl (valid current isCurrent)
  | edited uid change keeps =>
    have uids := modifyItem_uid kept.profiles.list uid keeps
    exact uids ▸ valid current isCurrent
  | moved uid next moved =>
    have uids := moved.perm.map PrfItem.uid
    exact uids.mem_iff.mpr (valid current (moved.1 ▸ isCurrent))
  | named named listed =>
    cases isCurrent
    exact listed
  | deleted uid forced save removable plan deletes planned =>
    subst deletes
    obtain ⟨item, found, left, chosen⟩ := IProfiles.planDeleteItem_ok planned
    rw [isCurrent] at chosen
    split at chosen
    · obtain ⟨first, isProfile, named⟩ := Option.bind_eq_some_iff.mp chosen.symm
      exact List.mem_map.mpr ⟨first, List.mem_of_find?_eq_some isProfile, named⟩
    · rename_i other
      have different : current ≠ uid := by
        rintro rfl
        exact other (.inr chosen.symm)
      obtain ⟨first, listed, named⟩ := List.mem_map.mp (valid current chosen.symm)
      have unnamed : first.uid ∉ some uid :: IProfiles.companions item := by
        rw [named, List.mem_cons, not_or]
        exact ⟨by simpa using different, spares item current found chosen.symm different⟩
      rw [left]
      exact List.mem_map.mpr ⟨first, mem_crossOff listed unnamed, named⟩

theorem Effect.identified {profiles next : IProfiles}
    (effect : Effect profiles call next) (identified : profiles.Identified) :
    next.Identified := by
  intro item listed
  cases effect with
  | kept next same items => exact identified item (items ▸ listed)
  | pushed pushed named =>
    obtain earlier | latest := List.mem_append.mp listed
    · exact identified item earlier
    · exact List.mem_singleton.mp latest ▸ named
  | edited uid change keeps =>
    have uids := modifyItem_uid profiles.list uid keeps
    have uid_in : item.uid ∈ profiles.list.map PrfItem.uid := uids ▸ List.mem_map_of_mem listed
    obtain ⟨former, formerly, same⟩ := List.mem_map.mp uid_in
    exact same ▸ identified former formerly
  | moved uid next moved => exact identified item (moved.perm.mem_iff.mp listed)
  | named current named => exact identified item listed
  | deleted uid forced save removable plan deletes planned =>
    obtain ⟨deleted, -, left, -⟩ := IProfiles.planDeleteItem_ok planned
    rw [left] at listed
    exact identified item ((crossOff_sublist _ _).subset listed)

variable {kept next : Kept}

theorem step_failed {os : Os}
    (taken : step os kept call = some next) (fails : ¬ call.Succeeds os kept) :
    next.profiles = kept.profiles := by
  unfold step at taken
  split at taken
  · rename_i store reported disk returned
    cases taken
    cases reported with
    | ok done => exact absurd ⟨store, by rw [returned]⟩ fails
    | error error =>
      cases call with
      | patchConfig patch => simp [run] at returned
      | operation body =>
        exact (Operation.run_refused (congrArg Prod.fst returned) rfl).1
  · cases taken
    rfl

theorem step_returned {os : Os} {store : IProfiles}
    {reported : Except String Unit} (taken : step os kept call = some next)
    (returned : (call.run os kept).1 = .ok (store, reported)) : next.profiles = store := by
  unfold step at taken
  split at taken
  · rename_i other _ _ result
    rw [result] at returned
    obtain rfl : other = store := congrArg Prod.fst (Except.ok.inj returned)
    cases taken
    rfl
  · rename_i result
    rw [result] at returned
    contradiction

theorem step_effect {os : Os}
    (taken : step os kept call = some next) : Effect kept.profiles call next.profiles := by
  cases returned : (call.run os kept).1 with
  | ok result =>
    rw [step_returned taken returned]
    exact run_effect returned
  | error error =>
    have fails : ¬ call.Succeeds os kept := by
      rintro ⟨store, succeeded⟩
      simp [returned] at succeeded
    rw [step_failed taken fails]
    exact .kept _ rfl rfl

structure Lawful (os : Os) (kept : Kept) (call : StoreCall) (next : Kept) : Prop where
  current : next.profiles.CurrentValid
  identified : kept.profiles.Identified → next.profiles.Identified
  failed : ¬ call.Succeeds os kept → next.profiles = kept.profiles
  reordered : ∀ activeId overId save, call = .operation (.reorder activeId overId save) →
    next.profiles = kept.profiles ∨
      kept.profiles.MovedItem activeId next.profiles ∧
        next.profiles.list.Perm kept.profiles.list
  deleted : ∀ uid forced save removable, call = .operation (.delete uid forced save removable) →
    call.Succeeds os kept → kept.profiles.Identified →
    ∃ item, findItem kept.profiles.list uid = some item ∧
      next.profiles.list = crossOff kept.profiles.list
        (some uid :: (IProfiles.companions item).filter Option.isSome) ∧
      next.profiles.list.Sublist kept.profiles.list ∧
      ((kept.profiles.list.map PrfItem.uid).Nodup →
        next.profiles.list = kept.profiles.list.filter
          (·.uid ∉ some uid :: (IProfiles.companions item).filter Option.isSome))

theorem step_reordered {os : Os} {activeId overId : String} {save : Except String Unit}
    (taken : step os kept (.operation (.reorder activeId overId save)) = some next) :
    next.profiles = kept.profiles ∨
      kept.profiles.MovedItem activeId next.profiles ∧
        next.profiles.list.Perm kept.profiles.list := by
  cases returned : (run os (.operation (.reorder activeId overId save)) kept).1 with
  | error error =>
    refine .inl (step_failed taken ?_)
    rintro ⟨store, succeeded⟩
    simp [returned] at succeeded
  | ok result =>
    rw [step_returned taken returned]
    simp only [run, Operation.run, Operation.runReorder] at returned
    split at returned
    · exact .inl (congrArg Prod.fst (Except.ok.inj returned)).symm
    · rename_i moved found
      rw [Operation.runSave_returned returned]
      have shifted := IProfiles.moveItem_moved found
      exact .inr ⟨shifted, shifted.perm⟩

theorem step_deleted {os : Os} {uid : String} {forced : ForcedUpdate}
    {save : Except String Unit} {removable : String → Bool}
    (taken : step os kept (.operation (.delete uid forced save removable)) = some next)
    (succeeds : Succeeds os kept (.operation (.delete uid forced save removable)))
    (identified : kept.profiles.Identified) :
    ∃ item, findItem kept.profiles.list uid = some item ∧
      next.profiles.list = crossOff kept.profiles.list
        (some uid :: (IProfiles.companions item).filter Option.isSome) := by
  obtain ⟨store, returned⟩ := succeeds
  obtain ⟨plan, planned, rfl⟩ := Operation.runDelete_succeeded returned
  obtain ⟨item, found, left, -⟩ := IProfiles.planDeleteItem_ok planned
  refine ⟨item, found, ?_⟩
  rw [step_returned taken returned, left, crossOff_present identified]
  rfl

theorem lawful_step {os : Os}
    (valid : kept.profiles.CurrentValid) (spares : call.SparesCurrent kept)
    (taken : step os kept call = some next) : Lawful os kept call next where
  current := (step_effect taken).currentValid valid spares
  identified := (step_effect taken).identified
  failed := step_failed taken
  reordered := by
    rintro activeId overId save rfl
    exact step_reordered taken
  deleted := by
    rintro uid forced save removable rfl succeeds identified
    obtain ⟨item, found, left⟩ := step_deleted taken succeeds identified
    refine ⟨item, found, left, left ▸ crossOff_sublist _ _, fun unique => ?_⟩
    rw [left, crossOff_eq_filter unique]

/-- From a store whose current profile is one of its items, every call of every run keeps to its
law, as long as no deletion of another profile takes the current one along. -/
theorem store_stays_lawful (os : Os) (start : Kept) (calls : List StoreCall)
    (valid : start.profiles.CurrentValid)
    (spares : Meets (step os) (fun kept call => call.SparesCurrent kept) start calls) :
    Meets (step os) (fun kept call => ∀ next, step os kept call = some next →
      Lawful os kept call next) start calls :=
  Meets.imp_of_invariant (fun kept => kept.profiles.CurrentValid)
    (fun _ _ _ valid spares taken => (lawful_step valid spares taken).current)
    (fun _ _ valid spares _ taken => lawful_step valid spares taken) valid spares

section

def linking (merge script : Option String) : PrfOption :=
  ⟨none, none, none, none, none, none, none, merge, script, none, none, none⟩

def localItem (uid : String) (option : Option PrfOption) : PrfItem :=
  { PrfItem.default with uid := some uid, itype := some "local", option := option }

/-- Profiles that share a companion, and one that names the current profile as its script. -/
def sharing : IProfiles where
  current := some "a"
  items := some [localItem "a" none, localItem "b" (some (linking (some "m") (some "a"))),
    localItem "c" (some (linking (some "m") none)),
    { PrfItem.default with uid := some "m", itype := some "merge" }]

/-- The deletion of a profile takes along a companion that another profile links, and even the
current profile. -/
theorem deletion_takes_shared : sharing.CurrentValid ∧ ∃ next,
      step .linux ⟨sharing, ⟨none, fun _ => none⟩⟩
        (.operation (.delete "b" .applied (.ok ()) fun _ => true)) = some next ∧
      ¬ next.profiles.CurrentValid ∧
      (∃ item ∈ next.profiles.list, some "m" ∈ IProfiles.companions item) ∧
      some "m" ∉ next.profiles.list.map PrfItem.uid := by
  refine ⟨?_, _, rfl, ?_, by decide, by decide⟩
  · rintro current named
    obtain rfl : "a" = current := Option.some.inj named
    decide
  · intro valid
    exact absurd (valid "a" rfl) (by decide)

/-- The deletion of the profile that shares its companion keeps to the law. -/
theorem deletion_lawful :
    Meets (step .linux) (fun kept call => ∀ next, step .linux kept call = some next →
      Lawful .linux kept call next) ⟨sharing, ⟨none, fun _ => none⟩⟩
      [.operation (.delete "c" .applied (.ok ()) fun _ => true)] := by
  refine store_stays_lawful .linux _ _ ?_ ⟨?_, fun _ _ => trivial⟩
  · rintro current named
    obtain rfl : "a" = current := Option.some.inj named
    decide
  · rintro item current found named different linked
    obtain rfl := Option.some.inj (show some (localItem "c" (some (linking (some "m") none))) =
      some item from found)
    obtain rfl : "a" = current := Option.some.inj named
    revert linked
    decide

end

end StoreCall

end ClashVerge.Profiles
