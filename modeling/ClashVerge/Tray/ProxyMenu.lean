import Mathlib.Data.List.Sort
import ClashVerge.Library.Delimited

/-!
# Proxy nodes in the tray menu

`create_subcreate_proxy_menu_item` gives every node of a shown group an item whose id joins group
and node with an underscore, and `on_menu_event` cuts the id at the first underscore to switch the
node. A group's name may hold an underscore.

What the core answers for `get_proxies` is a hash map, so its entries stand here in the order in
which they are visited. Whether the toolkit makes an item or a submenu is its own decision.
-/

namespace ClashVerge.Tray

open Delimited

/-- What the menu reads of a proxy or a proxy group of the core. -/
structure Proxy where
  hidden : Option Bool
  all : Option (List String)
  now : Option String
  /-- The delays of `history`, the latest last. -/
  history : List Nat
deriving DecidableEq, Repr

abbrev Proxies := List (String × Proxy)

def Proxies.get (proxies : Proxies) (name : String) : Option Proxy :=
  (proxies.find? fun entry => entry.1 = name).map Prod.snd

/-- `CheckMenuItem::with_id`; every item of this menu is enabled. -/
structure CheckMenuItem where
  id : String
  text : String
  checked : Bool
deriving DecidableEq, Repr

structure Submenu where
  id : String
  text : String
  items : List CheckMenuItem
deriving DecidableEq, Repr

structure Toolkit where
  checkMenuItem : String → Bool
  submenu : String → Bool

/-- The global mode shows the one group `GLOBAL`, every other mode the others, and none
shows a hidden group. -/
def shouldShow (proxyMode groupName : String) (groupData : Proxy) : Bool :=
  (if proxyMode = "global" then groupName = "GLOBAL" else groupName ≠ "GLOBAL") &&
    !groupData.hidden.getD false

def itemId (groupName proxyStr : String) : String := "proxy_" ++ groupName ++ "_" ++ proxyStr

/-- The latest delay of a node; none and ten seconds or more read alike. -/
def delayText (proxies : Proxies) (proxyStr : String) : String :=
  match (proxies.get proxyStr).bind fun proxy => proxy.history.getLast? with
  | none => "-ms"
  | some delay => if delay = 0 ∨ 10000 ≤ delay then "-ms" else toString delay ++ "ms"

def groupItem (toolkit : Toolkit) (proxies : Proxies) (groupName : String) (groupData : Proxy)
    (proxyStr : String) : Option CheckMenuItem :=
  if toolkit.checkMenuItem (itemId groupName proxyStr) then
    some ⟨itemId groupName proxyStr, proxyStr ++ "   | " ++ delayText proxies proxyStr,
      proxyStr = groupData.now.getD ""⟩
  else none

def groupSubmenu (toolkit : Toolkit) (proxyMode : String) (proxies : Proxies)
    (group : String × Proxy) : Option (String × Submenu) :=
  if shouldShow proxyMode group.1 group.2 then
    match group.2.all with
    | none => none
    | some allProxies =>
      match allProxies.filterMap (groupItem toolkit proxies group.1 group.2) with
      | [] => none
      | first :: others =>
        if toolkit.submenu ("proxy_group_" ++ group.1) then
          some (group.1, ⟨"proxy_group_" ++ group.1, group.1, first :: others⟩)
        else none
  else none

/-- A group of the runtime configuration stands by its place there and before the groups the
configuration does not have. -/
def ordered (orderMap : String → Option Nat) (a b : String × Submenu) : Bool :=
  match orderMap a.1, orderMap b.1 with
  | some indexA, some indexB => indexA ≤ indexB
  | some _, none => true
  | none, some _ => false
  | none, none => true

/-- `create_subcreate_proxy_menu_item`. The sort is stable, so groups without a place need no
insertion index. -/
def createSubcreateProxyMenuItem (toolkit : Toolkit) (proxyMode : String)
    (proxyGroupOrderMap : Option (String → Option Nat)) (proxyNodesData : Option Proxies) :
    List Submenu :=
  let submenus := match proxyNodesData with
    | none => []
    | some proxies => proxies.filterMap (groupSubmenu toolkit proxyMode proxies)
  (match proxyGroupOrderMap with
    | none => submenus
    | some orderMap => submenus.mergeSort (ordered orderMap)).map Prod.snd

/-- The ids of `MenuIds` that `on_menu_event` handles on their own. -/
def menuIds : List String :=
  ["tray_dashboard", "tray_system_proxy", "tray_tun_mode", "tray_close_all_connections",
    "tray_copy_env", "tray_conf_dir", "tray_core_dir", "tray_logs_dir", "tray_app_log",
    "tray_core_log", "tray_restart_clash", "tray_restart_app", "tray_lightweight_mode",
    "tray_exit"]

/-- What a click is turned into. -/
inductive Command where
  | changeClashMode (mode : String)
  | menu (id : String)
  | toggleProxyProfile (profileIndex : String)
  | switchProxyNode (groupName proxyName : String)
deriving DecidableEq, Repr

def stripPrefix (lead text : String) : Option String :=
  (text.toList.dropPrefix? lead.toList).map String.ofList

/-- `rest.split_once('_')` and the call of `switch_proxy_node`. -/
def switchCommand (rest : String) : Option Command :=
  (splitOnce '_' rest.toList).map fun parts =>
    .switchProxyNode (String.ofList parts.1) (String.ofList parts.2)

/-- `on_menu_event`, for a click that `should_handle_tray_click` lets through. -/
def onMenuEvent (id : String) : Option Command :=
  if id = "" then none
  else if id = "tray_rule_mode" then some (.changeClashMode "rule")
  else if id = "tray_global_mode" then some (.changeClashMode "global")
  else if id = "tray_direct_mode" then some (.changeClashMode "direct")
  else if id ∈ menuIds then some (.menu id)
  else match stripPrefix "profiles_" id with
    | some profileIndex => some (.toggleProxyProfile profileIndex)
    | none => (stripPrefix "proxy_" id).bind switchCommand

/-- The calls of `switch_proxy_node`. -/
inductive Call where
  | selectNodeForGroup (groupName proxyName : String)
  | recordSwitchedNode (groupName proxyName : String)
  | refreshProxyConfig
  | updateMenu
deriving DecidableEq, Repr

def switchProxyNode (first second : Bool) (groupName proxyName : String) : List Call :=
  .selectNodeForGroup groupName proxyName ::
    if first then [.recordSwitchedNode groupName proxyName, .refreshProxyConfig, .updateMenu]
    else .selectNodeForGroup groupName proxyName ::
      if second then [.recordSwitchedNode groupName proxyName, .updateMenu] else []

def selections (calls : List Call) : List (String × String) :=
  calls.filterMap fun
    | .selectNodeForGroup groupName proxyName => some (groupName, proxyName)
    | _ => none

/-- A click on the item of the pair switches exactly that group to exactly that node. -/
def SwitchesTo (id groupName proxyName : String) : Prop :=
  ∃ group node, onMenuEvent id = some (.switchProxyNode group node) ∧
    ∀ first second,
      selections (switchProxyNode first second group node) ≠ [] ∧
        ∀ selected ∈ selections (switchProxyNode first second group node),
          selected = (groupName, proxyName)

def Shown (toolkit : Toolkit) (proxyMode : String) (proxies : Proxies)
    (groupName proxyStr : String) : Prop :=
  ∃ groupData allProxies, (groupName, groupData) ∈ proxies ∧
    shouldShow proxyMode groupName groupData ∧ groupData.all = some allProxies ∧
      proxyStr ∈ allProxies ∧ toolkit.checkMenuItem (itemId groupName proxyStr) ∧
        toolkit.submenu ("proxy_group_" ++ groupName)

@[simp] theorem itemId_toList (groupName proxyStr : String) : (itemId groupName proxyStr).toList =
      "proxy_".toList ++ (groupName.toList ++ '_' :: proxyStr.toList) := by
  simp [itemId]

theorem itemId_ne {text : String} (other : ¬ "proxy_".toList <+: text.toList)
    (groupName proxyStr : String) : itemId groupName proxyStr ≠ text := by
  rintro rfl
  exact other (itemId_toList groupName proxyStr ▸ List.prefix_append _ _)

theorem onMenuEvent_itemId (groupName proxyStr : String) : onMenuEvent (itemId groupName proxyStr) =
      switchCommand (String.ofList (groupName.toList ++ '_' :: proxyStr.toList)) := by
  have entry : itemId groupName proxyStr ∉ menuIds := by
    intro member
    have starts : ∀ id ∈ menuIds, ¬ "proxy_".toList <+: id.toList := by decide
    exact itemId_ne (starts _ member) groupName proxyStr rfl
  have profile : stripPrefix "profiles_" (itemId groupName proxyStr) = none := by
    simp [stripPrefix, List.dropPrefix?]
  have proxy : stripPrefix "proxy_" (itemId groupName proxyStr) =
      some (String.ofList (groupName.toList ++ '_' :: proxyStr.toList)) := by
    rw [stripPrefix, itemId_toList, List.dropPrefix?_append_of_beq _ (beq_self_eq_true _)]
    rfl
  rw [onMenuEvent, if_neg (itemId_ne (by decide) _ _), if_neg (itemId_ne (by decide) _ _),
    if_neg (itemId_ne (by decide) _ _), if_neg (itemId_ne (by decide) _ _), if_neg entry, profile,
    proxy]
  rfl

theorem selections_switchProxyNode (first second : Bool) (groupName proxyName : String) :
    selections (switchProxyNode first second groupName proxyName) ≠ [] ∧
      ∀ selected ∈ selections (switchProxyNode first second groupName proxyName),
        selected = (groupName, proxyName) := by
  cases first <;> cases second <;> simp [switchProxyNode, selections]

theorem itemId_switches_iff (groupName proxyStr : String) :
    SwitchesTo (itemId groupName proxyStr) groupName proxyStr ↔ '_' ∉ groupName.toList := by
  rw [← splitOnce_join_iff '_' groupName.toList proxyStr.toList]
  constructor
  · rintro ⟨group, node, command, exactly⟩
    obtain ⟨_, all⟩ := exactly true true
    have same : (group, node) = (groupName, proxyStr) := all _ (by
      simp [switchProxyNode, selections])
    rw [onMenuEvent_itemId, switchCommand, String.toList_ofList, Option.map_eq_some_iff] at command
    obtain ⟨⟨before, after⟩, cut, switched⟩ := command
    simp only [Command.switchProxyNode.injEq] at switched
    cases same
    rw [cut, ← switched.1, ← switched.2, String.toList_ofList, String.toList_ofList]
  · intro cut
    refine ⟨groupName, proxyStr, ?_, fun first second =>
      selections_switchProxyNode first second groupName proxyStr⟩
    rw [onMenuEvent_itemId, switchCommand, String.toList_ofList, cut]
    simp

theorem itemId_injective {groupName proxyStr groupName' proxyStr' : String}
    (free : '_' ∉ groupName.toList) (free' : '_' ∉ groupName'.toList)
    (same : itemId groupName proxyStr = itemId groupName' proxyStr') :
    groupName = groupName' ∧ proxyStr = proxyStr' := by
  have joined := congrArg String.toList same
  rw [itemId_toList, itemId_toList, List.append_cancel_left_eq] at joined
  obtain ⟨group, node⟩ := join_injective '_' free free' joined
  exact ⟨String.toList_inj.mp group, String.toList_inj.mp node⟩

/-- The menu tells its nodes apart and every click switches the node that was shown exactly
when no shown group has an underscore in its name. -/
theorem menu_ids_decode_iff (toolkit : Toolkit) (proxyMode : String) (proxies : Proxies) :
    ((∀ groupName proxyStr groupName' proxyStr',
        Shown toolkit proxyMode proxies groupName proxyStr →
          Shown toolkit proxyMode proxies groupName' proxyStr' →
            (groupName, proxyStr) ≠ (groupName', proxyStr') →
              itemId groupName proxyStr ≠ itemId groupName' proxyStr') ∧
      ∀ groupName proxyStr, Shown toolkit proxyMode proxies groupName proxyStr →
        SwitchesTo (itemId groupName proxyStr) groupName proxyStr) ↔
      ∀ groupName proxyStr, Shown toolkit proxyMode proxies groupName proxyStr →
        '_' ∉ groupName.toList := by
  constructor
  · rintro ⟨_, switches⟩ groupName proxyStr shown
    exact (itemId_switches_iff groupName proxyStr).mp (switches groupName proxyStr shown)
  · intro free
    refine ⟨fun groupName proxyStr groupName' proxyStr' shown shown' different same => ?_,
      fun groupName proxyStr shown =>
        (itemId_switches_iff groupName proxyStr).mpr (free groupName proxyStr shown)⟩
    obtain ⟨rfl, rfl⟩ := itemId_injective (free _ _ shown) (free _ _ shown') same
    exact different rfl

/-- A toolkit that makes every item and submenu. -/
def Toolkit.willing : Toolkit := ⟨fun _ => true, fun _ => true⟩

/-- Two groups whose items share an id: the click on `c` of `a_b` asks `a` for `b_c`. -/
def underscored : Proxies :=
  [("a_b", ⟨none, some ["c"], some "c", []⟩), ("a", ⟨none, some ["b_c"], some "b_c", []⟩)]

theorem underscored_not_decoded :
    Shown .willing "rule" underscored "a_b" "c" ∧ Shown .willing "rule" underscored "a" "b_c" ∧
      itemId "a_b" "c" = itemId "a" "b_c" ∧
        ¬ SwitchesTo (itemId "a_b" "c") "a_b" "c" := by
  refine ⟨⟨_, _, List.mem_cons_self, by decide, rfl, List.mem_cons_self, rfl, rfl⟩,
    ⟨_, _, List.mem_cons_of_mem _ List.mem_cons_self, by decide, rfl, List.mem_cons_self, rfl, rfl⟩,
    by decide, ?_⟩
  rw [itemId_switches_iff]
  decide

end ClashVerge.Tray
