import ClashVerge.Enhance.BindAddress
import ClashVerge.Library.OrderedMap
import Mathlib.Data.List.Induction

/-!
# Registering hotkeys

The hotkey settings are a list of entries `function,key`. An update compares the list with the last
one that was registered to its end, unregisters what has gone and registers what is new, and stops
at the first key that cannot be registered. What has been done by then stays done, and the
remembered list stays the old one.

Which keys the shortcut manager refuses, and the order in which a hash map lists its entries, belong
to a call.
-/

namespace ClashVerge.Hotkeys

open OrderedMap
open Enhance (trim)

abbrev Key : Type := List Char

inductive HotkeyFunction where
  | openOrCloseDashboard
  | clashModeRule
  | clashModeGlobal
  | clashModeDirect
  | toggleSystemProxy
  | toggleTunMode
  | entryLightweightMode
  | reactivateProfiles
  | quit
  /-- On macOS only. -/
  | hide
deriving DecidableEq, Repr

def HotkeyFunction.names : List (String × HotkeyFunction) :=
  [("open_or_close_dashboard", openOrCloseDashboard), ("clash_mode_rule", clashModeRule),
    ("clash_mode_global", clashModeGlobal), ("clash_mode_direct", clashModeDirect),
    ("toggle_system_proxy", toggleSystemProxy), ("toggle_tun_mode", toggleTunMode),
    ("entry_lightweight_mode", entryLightweightMode), ("reactivate_profiles", reactivateProfiles),
    ("quit", quit), ("hide", hide)]

def HotkeyFunction.fromStr (macos : Bool) (text : List Char) : Option HotkeyFunction :=
  ((names.find? fun entry => entry.1.toList == trim text).map Prod.snd).filter fun function =>
    macos || function != hide

abbrev Manager : Type := Key → Option HotkeyFunction

structure Call where
  hotkeys : List (List Char)
  refused : Key → Bool
  order : List (Key × List Char) → List (Key × List Char)
  lists : ∀ entries, (order entries).Perm entries

structure Hotkey where
  current : List (List Char)
  registered : Manager

def Hotkey.new : Hotkey := ⟨[], fun _ => none⟩

def entryOf (hotkey : List Char) : Option (Key × List Char) :=
  match hotkey.splitOn ',' with
  | func :: key :: _ => some (trim key, trim func)
  | _ => none

def getMapFromVec (hotkeys : List (List Char)) : List (Key × List Char) :=
  extend [] (hotkeys.filterMap entryOf)

def getDiff (old new : List (Key × List Char)) : List Key × List (Key × List Char) :=
  let gone := old.filter fun entry => get new entry.1 != some entry.2
  let changed := gone.filterMap fun entry => (get new entry.1).map fun func => (entry.1, func)
  (gone.map Prod.fst, changed ++ new.filter fun entry => !contains old entry.1)

section

variable (macos : Bool)

def registerHotkeyWithFunction (call : Call) (manager : Manager) (key : Key)
    (function : HotkeyFunction) : Manager × Bool :=
  let free := if (manager key).isSome then Function.update manager key none else manager
  if call.refused key then (free, false) else (Function.update free key (some function), true)

def register (call : Call) (manager : Manager) (key : Key) (func : List Char) : Manager × Bool :=
  match HotkeyFunction.fromStr macos func with
  | none => (manager, false)
  | some function => registerHotkeyWithFunction call manager key function

/-- The loop over the new entries, up to the first that cannot be registered. -/
def registerAll (call : Call) : List (Key × List Char) → Manager → Manager × Bool
  | [], manager => (manager, true)
  | (key, func) :: rest, manager =>
    match register macos call manager key func with
    | (manager, true) => registerAll call rest manager
    | (manager, false) => (manager, false)

/-- Unregistering a key that is not registered is an error, which is ignored. -/
def unregisterAll (keys : List Key) (manager : Manager) : Manager :=
  keys.foldl (fun manager key => Function.update manager key none) manager

def update (hotkey : Hotkey) (call : Call) : Hotkey × Bool :=
  let (del, add) := getDiff (getMapFromVec hotkey.current) (getMapFromVec call.hotkeys)
  match registerAll macos call (call.order add) (unregisterAll del hotkey.registered) with
  | (registered, true) => (⟨call.hotkeys, registered⟩, true)
  | (registered, false) => (⟨hotkey.current, registered⟩, false)

/-- The state after a sequence of calls. -/
def run (calls : List Call) : Hotkey :=
  calls.foldl (fun hotkey call => (update macos hotkey call).1) .new

end

/-! ## The difference of two maps -/

theorem distinct_getMapFromVec (hotkeys : List (List Char)) : Distinct (getMapFromVec hotkeys) :=
  distinct_extend distinct_nil _

section

variable {old new : List (Key × List Char)}

theorem mem_add (distinctOld : Distinct old) (distinctNew : Distinct new) (key : Key)
    (func : List Char) :
    (key, func) ∈ (getDiff old new).2 ↔ get new key = some func ∧ get old key ≠ some func := by
  simp only [getDiff, List.mem_append, List.mem_filterMap, List.mem_filter, Option.map_eq_some_iff]
  constructor
  · rintro (⟨⟨own, current⟩, ⟨inside, gone⟩, value, found, same⟩ | ⟨inside, fresh⟩)
    · cases same
      have before := (get_eq_some_iff distinctOld own current).mpr inside
      refine ⟨found, fun still => ?_⟩
      rw [before] at still
      cases still
      simp [found] at gone
    · refine ⟨(get_eq_some_iff distinctNew key func).mpr inside, fun still => ?_⟩
      simp [contains, still] at fresh
  · rintro ⟨found, apart⟩
    cases before : get old key with
    | none =>
      exact .inr ⟨(get_eq_some_iff distinctNew key func).mp found, by simp [contains, before]⟩
    | some current =>
      refine .inl ⟨(key, current), ⟨(get_eq_some_iff distinctOld key current).mp before, ?_⟩, func,
        found, rfl⟩
      have different : func ≠ current := by
        rintro rfl
        exact apart before
      simp [found, different]

theorem mem_del (distinctOld : Distinct old) (key : Key) :
    key ∈ (getDiff old new).1 ↔ (get old key).isSome = true ∧ get new key ≠ get old key := by
  simp only [getDiff, List.mem_map, List.mem_filter]
  constructor
  · rintro ⟨⟨own, current⟩, ⟨inside, gone⟩, rfl⟩
    have before := (get_eq_some_iff distinctOld own current).mpr inside
    simpa [before] using gone
  · rintro ⟨some_, apart⟩
    obtain ⟨current, before⟩ := Option.isSome_iff_exists.mp some_
    refine ⟨(key, current), ⟨(get_eq_some_iff distinctOld key current).mp before, ?_⟩, rfl⟩
    rw [before] at apart
    simpa using apart

theorem keys_filterMap_sublist (entries other : List (Key × List Char)) :
    (keys (entries.filterMap fun entry => (get other entry.1).map fun func =>
      (entry.1, func))).Sublist (keys entries) := by
  induction entries with
  | nil => exact List.Sublist.slnil
  | cons entry rest ih =>
    cases found : get other entry.1 with
    | none => simpa [found] using ih.cons entry.1
    | some func => simpa [found] using ih.cons_cons entry.1

theorem nodup_add (distinctOld : Distinct old) (distinctNew : Distinct new) :
    (keys (getDiff old new).2).Nodup := by
  simp only [getDiff, keys_append]
  refine List.nodup_append'.mpr ⟨?_, ?_, ?_⟩
  · exact distinctOld.sublist ((keys_filterMap_sublist _ new).trans (List.filter_sublist.map Prod.fst))
  · exact distinctNew.sublist (List.filter_sublist.map Prod.fst)
  · intro key inside within
    obtain ⟨⟨own, current⟩, old_, rfl⟩ := List.mem_map.mp
      ((keys_filterMap_sublist _ new).mem inside)
    obtain ⟨⟨other, func⟩, new_, same⟩ := List.mem_map.mp within
    have before := (get_eq_some_iff distinctOld own current).mpr (List.mem_filter.mp old_).1
    obtain rfl : other = own := same
    simp [contains, before] at new_

end

/-! ## The loop -/

theorem unregisterAll_apply (keys : List Key) (manager : Manager) (key : Key) :
    unregisterAll keys manager key = if key ∈ keys then none else manager key := by
  induction keys generalizing manager with
  | nil => simp [unregisterAll]
  | cons first rest ih =>
    have shorter := ih (Function.update manager first none)
    simp only [unregisterAll] at shorter
    rw [unregisterAll, List.foldl_cons, shorter, Function.update_apply]
    by_cases later : key ∈ rest
    · simp [later]
    · by_cases same : key = first <;> simp [same, later]

def Call.Takes (macos : Bool) (call : Call) (entry : Key × List Char) : Prop :=
  (HotkeyFunction.fromStr macos entry.2).isSome = true ∧ call.refused entry.1 = false

variable {macos : Bool} {call : Call}

theorem register_of_takes {key : Key} {func : List Char} (takes : call.Takes macos (key, func))
    (manager : Manager) :
    register macos call manager key func =
      (Function.update manager key (HotkeyFunction.fromStr macos func), true) := by
  obtain ⟨known, accepted⟩ := takes
  obtain ⟨function, is_⟩ := Option.isSome_iff_exists.mp known
  simp only at is_ accepted
  rw [register, is_]
  simp only [registerHotkeyWithFunction, accepted, Bool.false_eq_true, if_false]
  split
  · rw [Function.update_idem]
  · rfl

theorem register_of_not_takes {key : Key} {func : List Char}
    (refuses : ¬ call.Takes macos (key, func)) (manager : Manager) :
    (register macos call manager key func).2 = false := by
  unfold register
  cases is_ : HotkeyFunction.fromStr macos func with
  | none => rfl
  | some function =>
    have refused : call.refused key = true := by simpa [Call.Takes, is_] using refuses
    simp [registerHotkeyWithFunction, refused]

theorem registerAll_ok_iff (entries : List (Key × List Char)) (manager : Manager) :
    (registerAll macos call entries manager).2 = true ↔ ∀ entry ∈ entries, call.Takes macos entry := by
  induction entries generalizing manager with
  | nil => simp [registerAll]
  | cons entry rest ih =>
    obtain ⟨key, func⟩ := entry
    rw [registerAll, List.forall_mem_cons]
    by_cases takes : call.Takes macos (key, func)
    · simp [register_of_takes takes, takes, ih]
    · have refuses := register_of_not_takes takes manager
      cases stopped : register macos call manager key func with
      | mk left ended =>
        obtain rfl : ended = false := by simpa [stopped] using refuses
        simp [takes]

theorem registerAll_apply {entries : List (Key × List Char)} (distinct : (keys entries).Nodup)
    (manager : Manager) (taken : ∀ entry ∈ entries, call.Takes macos entry) (key : Key) :
    (registerAll macos call entries manager).1 key =
      (get entries key).elim (manager key) (HotkeyFunction.fromStr macos) := by
  induction entries generalizing manager with
  | nil => rfl
  | cons entry rest ih =>
    obtain ⟨own, func⟩ := entry
    obtain ⟨fresh, others⟩ := List.nodup_cons.mp distinct
    obtain ⟨takes, later⟩ := List.forall_mem_cons.mp taken
    have shorter := ih others
      (Function.update manager own (HotkeyFunction.fromStr macos func)) later
    rw [registerAll, register_of_takes takes]
    dsimp only
    rw [shorter, get_cons]
    by_cases same : own = key
    · subst same
      have absent : get rest own = none := (get_eq_none_iff rest own).mpr fresh
      simp [absent]
    · rw [if_neg same, Function.update_of_ne (Ne.symm same)]

/-! ## Updates -/

/-- Each key of the list has the function that its last entry names, and no other key has one. -/
def Follows (macos : Bool) (registered : Manager) (hotkeys : List (List Char)) (key : Key) : Prop :=
  (registered key).map some = (get (getMapFromVec hotkeys) key).map (HotkeyFunction.fromStr macos)

def Hotkey.toRegister (hotkey : Hotkey) (hotkeys : List (List Char)) : List (Key × List Char) :=
  (getDiff (getMapFromVec hotkey.current) (getMapFromVec hotkeys)).2

def Hotkey.Accepts (macos : Bool) (hotkey : Hotkey) (call : Call) : Prop :=
  ∀ entry ∈ hotkey.toRegister call.hotkeys, call.Takes macos entry

theorem update_eq (hotkey : Hotkey) (call : Call) : update macos hotkey call =
      let left := registerAll macos call (call.order (hotkey.toRegister call.hotkeys))
        (unregisterAll (getDiff (getMapFromVec hotkey.current) (getMapFromVec call.hotkeys)).1
          hotkey.registered)
      (⟨if left.2 then call.hotkeys else hotkey.current, left.1⟩, left.2) := by
  simp only [update, Hotkey.toRegister]
  split
  · rename_i ended
    simp [ended]
  · rename_i stopped
    simp [stopped]

theorem update_ok_iff (hotkey : Hotkey) (call : Call) :
    (update macos hotkey call).2 = true ↔ hotkey.Accepts macos call := by
  rw [update_eq]
  dsimp only
  rw [registerAll_ok_iff]
  exact forall_congr' fun entry => imp_congr_left (call.lists _).mem_iff

theorem get_toRegister (hotkey : Hotkey) (call : Call) (key : Key) :
    get (call.order (hotkey.toRegister call.hotkeys)) key =
      if get (getMapFromVec call.hotkeys) key = get (getMapFromVec hotkey.current) key then none
      else get (getMapFromVec call.hotkeys) key := by
  have distinctOld := distinct_getMapFromVec hotkey.current
  have distinctNew := distinct_getMapFromVec call.hotkeys
  have distinct : Distinct (hotkey.toRegister call.hotkeys) := nodup_add distinctOld distinctNew
  rw [get_perm distinct (call.lists _)]
  refine Option.ext fun func => ?_
  rw [get_eq_some_iff distinct, Hotkey.toRegister, mem_add distinctOld distinctNew]
  split
  · rename_i same
    simp [same]
  · rename_i apart
    constructor
    · exact fun added => added.1
    · refine fun found => ⟨found, fun before => apart ?_⟩
      rw [found, before]

theorem update_apply {hotkey : Hotkey} (accepts : hotkey.Accepts macos call) (key : Key) :
    (update macos hotkey call).1.registered key =
      if get (getMapFromVec call.hotkeys) key = get (getMapFromVec hotkey.current) key then
        hotkey.registered key
      else (get (getMapFromVec call.hotkeys) key).bind (HotkeyFunction.fromStr macos) := by
  have distinct := nodup_add (distinct_getMapFromVec hotkey.current)
    (distinct_getMapFromVec call.hotkeys)
  have listed : (keys (call.order (hotkey.toRegister call.hotkeys))).Nodup :=
    ((call.lists _).map Prod.fst).nodup_iff.mpr distinct
  have taken : ∀ entry ∈ call.order (hotkey.toRegister call.hotkeys), call.Takes macos entry :=
    fun entry inside => accepts entry ((call.lists _).mem_iff.mp inside)
  rw [update_eq]
  dsimp only
  rw [registerAll_apply listed _ taken, get_toRegister, unregisterAll_apply]
  simp only [mem_del (distinct_getMapFromVec hotkey.current)]
  by_cases same : get (getMapFromVec call.hotkeys) key = get (getMapFromVec hotkey.current) key
  · simp [same]
  · cases found : get (getMapFromVec call.hotkeys) key with
    | some func => simp [found ▸ same]
    | none =>
      rw [found] at same
      have before : (get (getMapFromVec hotkey.current) key).isSome = true := by
        rw [Option.isSome_iff_ne_none]
        exact Ne.symm same
      simp [same, before]

theorem current_of_accepts {hotkey : Hotkey} (accepts : hotkey.Accepts macos call) :
    (update macos hotkey call).1.current = call.hotkeys := by
  have ended := (update_ok_iff hotkey call).mpr accepts
  rw [update_eq] at ended ⊢
  exact if_pos ended

/-- Where the remembered list and the new one agree, the registrations follow the remembered one. -/
def Hotkey.Undisturbed (macos : Bool) (hotkey : Hotkey) (hotkeys : List (List Char)) : Prop :=
  ∀ key, get (getMapFromVec hotkeys) key = get (getMapFromVec hotkey.current) key →
    Follows macos hotkey.registered hotkey.current key

/-- After a call that ends well the registrations follow its list exactly when none of what it left
alone had been disturbed. -/
theorem follows_update_iff {hotkey : Hotkey} (accepts : hotkey.Accepts macos call) :
    (∀ key, Follows macos (update macos hotkey call).1.registered call.hotkeys key) ↔
      hotkey.Undisturbed macos call.hotkeys := by
  refine forall_congr' fun key => ?_
  unfold Follows
  rw [update_apply accepts]
  by_cases same : get (getMapFromVec call.hotkeys) key = get (getMapFromVec hotkey.current) key
  · simp [same]
  · simp only [same, if_false, false_imp_iff, iff_true]
    cases found : get (getMapFromVec call.hotkeys) key with
    | none => rfl
    | some func =>
      have entry : (key, func) ∈ hotkey.toRegister call.hotkeys := by
        refine (mem_add (distinct_getMapFromVec _) (distinct_getMapFromVec _) key func).mpr
          ⟨found, fun before => same ?_⟩
        rw [found, before]
      obtain ⟨function, known⟩ := Option.isSome_iff_exists.mp (accepts _ entry).1
      simp only at known
      simp [known]

/-! ## Sequences of updates -/

/-- In a sequence of calls, the registrations follow the list of each call that ends well. -/
def AlwaysFollows (macos : Bool) (calls : List Call) : Prop :=
  ∀ before call after, calls = before ++ call :: after → (update macos (run macos before) call).2 = true →
    ∀ key, Follows macos (update macos (run macos before) call).1.registered call.hotkeys key

/-- Each call of a sequence that can register what it has to finds undisturbed what it leaves
alone. -/
def NeverDisturbed (macos : Bool) (calls : List Call) : Prop :=
  ∀ before call after, calls = before ++ call :: after → (run macos before).Accepts macos call →
    (run macos before).Undisturbed macos call.hotkeys

def callOf (hotkeys : List String) (refused : List String) : Call where
  hotkeys := hotkeys.map String.toList
  refused key := (refused.map String.toList).contains key
  order := id
  lists _ := .refl _

def oldKey : Call := callOf ["quit,Ctrl+A"] []

def newKey : Call := callOf ["quit,Ctrl+B"] ["Ctrl+B"]

theorem nothing_registered (registered : Manager) :
    (update false ⟨oldKey.hotkeys, registered⟩ newKey).1.current = oldKey.hotkeys ∧
      (update false ⟨oldKey.hotkeys, registered⟩ newKey).1.registered "Ctrl+A".toList = none := by
  have diff : getDiff (getMapFromVec oldKey.hotkeys) (getMapFromVec newKey.hotkeys) =
      (["Ctrl+A".toList], [("Ctrl+B".toList, "quit".toList)]) := by decide
  have known : HotkeyFunction.fromStr false "quit".toList = some .quit := by decide
  have refused : newKey.refused "Ctrl+B".toList = true := by decide
  have other : "Ctrl+A".toList ≠ "Ctrl+B".toList := by decide
  have loop : newKey.order (Hotkey.toRegister ⟨oldKey.hotkeys, registered⟩ newKey.hotkeys) =
      [("Ctrl+B".toList, "quit".toList)] := congrArg Prod.snd diff
  have stopped (manager : Manager) :
      (registerAll false newKey [("Ctrl+B".toList, "quit".toList)] manager).2 = false ∧
        (registerAll false newKey [("Ctrl+B".toList, "quit".toList)] manager).1 "Ctrl+A".toList =
          manager "Ctrl+A".toList := by
    simp only [registerAll, register, known, registerHotkeyWithFunction, refused, if_true, true_and]
    split
    · rw [Function.update_of_ne other]
    · rfl
  rw [update_eq, loop]
  dsimp only
  rw [diff, (stopped _).1, (stopped _).2, unregisterAll_apply]
  exact ⟨rfl, rfl⟩

end ClashVerge.Hotkeys
