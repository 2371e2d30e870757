import ClashVerge.Verge.Config
import Mathlib.Data.List.Basic

/-!
# The profile store

`IProfiles` is the content of `profiles.yaml`: the current profile and the items. The operations
here compute the changed store. Numbers of the items are only copied, so they have no bound.
-/

namespace ClashVerge.Profiles

open ClashVerge.Verge

structure PrfSelected where
  name : Option String
  now : Option String
deriving DecidableEq, Repr

structure PrfExtra where
  upload : Nat
  download : Nat
  total : Nat
  expire : Nat
deriving DecidableEq, Repr

structure PrfOption where
  userAgent : Option String
  withProxy : Option Bool
  selfProxy : Option Bool
  updateInterval : Option Nat
  timeoutSeconds : Option Nat
  dangerAcceptInvalidCerts : Option Bool
  allowAutoUpdate : Option Bool
  merge : Option String
  script : Option String
  rules : Option String
  proxies : Option String
  groups : Option String
deriving DecidableEq, Repr

def PrfOption.mergeOptions (one other : Option PrfOption) : Option PrfOption :=
  match one, other with
  | some one, some other => some {
      userAgent := other.userAgent <|> one.userAgent
      withProxy := other.withProxy <|> one.withProxy
      selfProxy := other.selfProxy <|> one.selfProxy
      updateInterval := other.updateInterval <|> one.updateInterval
      timeoutSeconds := other.timeoutSeconds <|> one.timeoutSeconds
      dangerAcceptInvalidCerts := other.dangerAcceptInvalidCerts <|> one.dangerAcceptInvalidCerts
      allowAutoUpdate := other.allowAutoUpdate <|> one.allowAutoUpdate
      merge := other.merge <|> one.merge
      script := other.script <|> one.script
      rules := other.rules <|> one.rules
      proxies := other.proxies <|> one.proxies
      groups := other.groups <|> one.groups }
  | some one, none => some one
  | none, some other => some other
  | none, none => none

structure PrfItem where
  uid : Option String
  itype : Option String
  name : Option String
  file : Option String
  desc : Option String
  url : Option String
  selected : Option (List PrfSelected)
  extra : Option PrfExtra
  updated : Option Nat
  option : Option PrfOption
  home : Option String
  /-- The text of the file, which is never part of `profiles.yaml`. -/
  fileData : Option String
deriving DecidableEq, Repr

def PrfItem.default : PrfItem :=
  ⟨none, none, none, none, none, none, none, none, none, none, none, none⟩

def PrfItem.isProfile (item : PrfItem) : Bool :=
  item.itype == some "remote" || item.itype == some "local"

structure IProfiles where
  current : Option String
  items : Option (List PrfItem)
deriving DecidableEq, Repr

def findItem (items : List PrfItem) (uid : String) : Option PrfItem :=
  items.find? fun item => item.uid == some uid

def modifyItem (items : List PrfItem) (uid : String) (change : PrfItem → PrfItem) : List PrfItem :=
  match items with
  | [] => []
  | item :: rest =>
    if item.uid = some uid then change item :: rest else item :: modifyItem rest uid change

def takeItemFileByUid (items : List PrfItem) (target : Option String) :
    Option String × List PrfItem :=
  match items with
  | [] => (none, [])
  | item :: rest =>
    if item.uid = target then (item.file, rest)
    else
      let taken := takeItemFileByUid rest target
      (taken.1, item :: taken.2)

def rposition (items : List PrfItem) (uid : String) : Option Nat :=
  (items.reverse.findIdx? fun item => item.uid == some uid).map fun index =>
    items.length - 1 - index

/-- The one component of the path is a file's name: no separator, no `.`, no `..`, and on Windows
no drive. -/
def validateProfileFile (os : Os) (file : String) : Except String Unit :=
  let drive := match file.toList with
    | letter :: ':' :: _ => os == .windows && letter.isAlpha
    | _ => false
  if file = "" || file.toList.contains '/' || file.toList.contains '\\' || file = "." || file = ".."
      || drive then
    .error "profile file must be a single filename"
  else .ok ()

namespace IProfiles

variable (profiles : IProfiles)

def list : List PrfItem := profiles.items.getD []

def getItem (uid : String) : Except String PrfItem :=
  match findItem profiles.list uid with
  | some item => .ok item
  | none => .error ("failed to get the profile item \"uid:" ++ uid ++ "\"")

/-- `patch_config`, which only moves `current`, and only to an item's uid. -/
def patchConfig (patch : IProfiles) : IProfiles :=
  match patch.current with
  | none => { profiles with items := some profiles.list }
  | some current =>
    if profiles.list.any fun item => item.uid == some current then
      { current := some current, items := some profiles.list }
    else { profiles with items := some profiles.list }

theorem patchConfig_current (target : Option String) :
    (profiles.patchConfig ⟨target, none⟩).current = profiles.current ∨
      target ≠ none ∧ (profiles.patchConfig ⟨target, none⟩).current = target := by
  cases target with
  | none => exact .inl rfl
  | some current =>
    simp only [patchConfig]
    split
    · exact .inr ⟨by simp, rfl⟩
    · exact .inl rfl

/-- The end of `append_item`: the first profile of its own becomes the current one. -/
def pushItem (item : PrfItem) : IProfiles where
  current := if profiles.current.isNone && item.isProfile then item.uid else profiles.current
  items := some (profiles.list ++ [item])

/-- The move of `reorder`, when there is something to move. -/
def moveItem (activeId overId : String) : Option IProfiles :=
  match profiles.items with
  | none => none
  | some items =>
    match rposition items activeId, rposition items overId with
    | some oldIndex, some newIndex =>
      items[oldIndex]?.map fun item =>
        { profiles with items := some ((items.eraseIdx oldIndex).insertIdx newIndex item) }
    | _, _ => none

/-- The entries `patch_item` copies when the patch has them. -/
def patchedItem (each item : PrfItem) : PrfItem :=
  { each with
    itype := item.itype <|> each.itype
    name := item.name <|> each.name
    desc := item.desc <|> each.desc
    file := item.file <|> each.file
    url := item.url <|> each.url
    selected := item.selected <|> each.selected
    extra := item.extra <|> each.extra
    updated := item.updated <|> each.updated
    option := item.option <|> each.option }

def patchItem (os : Os) (uid : String) (item : PrfItem) : Except String IProfiles := do
  match item.file with
  | some file => validateProfileFile os file
  | none => .ok ()
  match findItem profiles.list uid with
  | some _ => .ok { profiles with items := some (modifyItem profiles.list uid (patchedItem · item)) }
  | none => .error ("failed to find the profile item \"uid:" ++ uid ++ "\"")

/-- The item's own file, that of the download, or one named after the uid. -/
def refreshedFile (each item : PrfItem) (uid : String) : String :=
  each.file.getD (item.file.getD (uid ++ ".yaml"))

/-- The change of `update_item`, which sets the file only when it writes one. -/
def updatedItem (each item : PrfItem) (uid : String) : PrfItem :=
  { each with
    extra := item.extra
    updated := item.updated
    home := item.home
    option := PrfOption.mergeOptions each.option item.option
    file := if item.fileData.isSome then some (refreshedFile each item uid) else each.file }

/-- The uids `plan_delete_item` deletes beside the item's own: those of its companions. -/
def companions (item : PrfItem) : List (Option String) :=
  match item.option with
  | none => []
  | some option => [option.merge, option.script, option.rules, option.proxies, option.groups]

def takeItemFiles (items : List PrfItem) : List (Option String) → List String × List PrfItem
  | [] => ([], items)
  | target :: rest =>
    let taken := takeItemFileByUid items target
    let others := takeItemFiles taken.2 rest
    (taken.1.toList ++ others.1, others.2)

/-- `plan_delete_item`: whether the current profile goes, the files to remove, and the store. -/
def planDeleteItem (uid : String) : Except String (Bool × List String × IProfiles) :=
  match profiles.getItem uid with
  | .error error => .error error
  | .ok item =>
    let deletingCurrent := match profiles.current with
      | none => true
      | some current => current == uid
    let taken := takeItemFiles profiles.list (some uid :: companions item)
    let current :=
      if deletingCurrent then (taken.2.find? PrfItem.isProfile).bind PrfItem.uid
      else profiles.current
    .ok (deletingCurrent, taken.1, ⟨current, some taken.2⟩)

end IProfiles

end ClashVerge.Profiles
