import ClashVerge.Profiles.Store

/-!
# Loading the profile store

`IProfiles::new` reads `profiles.yaml`, gives the items without a uid one, lets remote items update
themselves where the file does not say, and drops the home links that are no web address. A file
that cannot be read gives an empty store.
-/

namespace ClashVerge.Profiles

/-- What loading depends on besides the file. -/
structure ProfilesSite where
  /-- The uids that `get_uid("d")` gives one after another. -/
  newUid : Nat → String
  normalizeProfileHomeUrl : String → Option String

def PrfOption.default : PrfOption :=
  ⟨none, none, none, none, none, none, none, none, none, none, none, none⟩

/-- `allow_auto_update.get_or_insert(true)`. -/
def PrfOption.allowUpdate (option : PrfOption) : PrfOption :=
  { option with allowAutoUpdate := some (option.allowAutoUpdate.getD true) }

/-- The home link is no web address. -/
def ProfilesSite.dropsHome (site : ProfilesSite) (item : PrfItem) : Bool :=
  item.home.any fun home => (site.normalizeProfileHomeUrl home).isNone

/-- The body of the loop in `IProfiles::new`, with the uid that is next. -/
def loadItem (site : ProfilesSite) (next : Nat) (item : PrfItem) : PrfItem :=
  { item with
    uid := some (item.uid.getD (site.newUid next))
    option :=
      if item.itype = some "remote" then some (item.option.getD PrfOption.default).allowUpdate
      else item.option
    home := if site.dropsHome item then none else item.home }

/-- The loop in `IProfiles::new`. -/
def loadItems (site : ProfilesSite) (next : Nat) : List PrfItem → List PrfItem
  | [] => []
  | item :: rest =>
    loadItem site next item :: loadItems site (if item.uid.isNone then next + 1 else next) rest

def homeChanged (site : ProfilesSite) (profiles : IProfiles) : Bool :=
  (profiles.items.getD []).any site.dropsHome

/-- `IProfiles::new`, but for the save of a store whose home links changed. -/
def loadProfiles (site : ProfilesSite) : Except String IProfiles → IProfiles
  | .ok profiles => { profiles with items := some (loadItems site 0 (profiles.items.getD [])) }
  | .error _ => ⟨none, none⟩

end ClashVerge.Profiles
