import ClashVerge.Config.ClashTemp
import ClashVerge.Config.Sync
import ClashVerge.Enhance.Stages
import ClashVerge.Library.SortedMap
import ClashVerge.Profiles.Load

/-!
# Restoring a backup

A restore extracts an archive over the files of the application, reads the configuration from the
result, puts the WebDAV credentials back into it, and then replaces the three layers in memory. The
archive is written entry by entry, and what has been written stays when a later step fails.
-/

namespace ClashVerge.Feat

open ClashVerge.Config ClashVerge.Draft ClashVerge.Enhance ClashVerge.Profiles ClashVerge.Verge
open ClashVerge.Yaml

/-- `IVerge` with the DNS settings of the profiles, which no patch copies. -/
structure VergeRecord where
  settings : IVerge
  profileDnsSettings : List (String × ProfileDnsSettings)

/-- An entry of an archive as its extraction ends. A broken one may have left part of a file. -/
inductive Entry (Content : Type) where
  | whole (name : String) (content : Content)
  | broken (name : String) (left : Option Content) (error : String)

/-- The archives, the serialisation of the files, and what loading them depends on. -/
structure Site (Content : Type) where
  backupDir : String
  readArchive : Content → Except String (List (Entry Content))
  readVerge : Content → Except String VergeRecord
  writeVerge : VergeRecord → Except String Content
  readMapping : Content → Except String Mapping
  readProfiles : Content → Except String IProfiles
  writeProfiles : IProfiles → Except String Content
  clash : ClashSite
  profiles : ProfilesSite

abbrev HomeFiles (Content : Type) : Type := String → Option Content

/-- The three layers in memory, of which the world has two, and the files. -/
structure App (Content : Type) where
  world : World
  profileDnsSettings : Slot (List (String × ProfileDnsSettings))
  profiles : Slot IProfiles
  disk : HomeFiles Content

structure DnsOverrideState where
  profileUid : String
  source : Option String
  enabled : Bool
  requested : Bool
  confirmation : Option String
deriving DecidableEq

structure RestoreCall where
  opened : Except String Unit
  savedVerge : Except String Unit
  savedProfiles : Except String Unit
  applyProxy : Except String Unit
  refreshGuard : Except String Unit
  /-- `SystemProxyStateUnknown::is_in`. -/
  stateUnknown : String → Bool
  writesDisabled : Bool
  effects : PatchEffects
  runState : RunState
  disable : PatchEffects
  disableSaved : Except String Unit
  /-- The state of the override in the runtime configuration once the patch has ended. -/
  dnsOverride : Option DnsOverrideState
  dnsSaved : Except String Unit
  removed : Except String Unit

inductive RestoreError where
  | failed (error : String)
  | proxyStateUnknown (error : String)

structure Credentials where
  url : Option String
  username : Option String
  password : Option String
deriving DecidableEq

/-- The WebDAV credentials of the application's configuration. -/
def credentialsOf (verge : IVerge) : Credentials :=
  ⟨verge .webdavUrl, verge .webdavUsername, verge .webdavPassword⟩

def withCredentials (verge : IVerge) (credentials : Credentials) : IVerge
  | .webdavUrl => credentials.url
  | .webdavUsername => credentials.username
  | .webdavPassword => credentials.password
  | field => verge field

def VergeRecord.dnsSettingsFor (record : VergeRecord) (profileUid : String) : ProfileDnsSettings :=
  let enableDnsSettings : Option Bool := record.settings .enableDnsSettings
  (OrderedMap.get record.profileDnsSettings profileUid).getD ⟨enableDnsSettings.getD false, none⟩

def DnsOverrideState.applyTo (state : DnsOverrideState) (record : VergeRecord) :
    Option (List (String × ProfileDnsSettings)) :=
  if state.profileUid = "" then none
  else
    let settings := record.dnsSettingsFor state.profileUid
    if settings.enabled ≠ state.requested ∨ settings.confirmation ≠ state.confirmation then none
    else
      let clearConfirmation := state.confirmation.isSome && state.source != state.confirmation
      if state.enabled = state.requested ∧ clearConfirmation = false ∧
          OrderedMap.contains record.profileDnsSettings state.profileUid = true then none
      else some (SortedMap.insert record.profileDnsSettings state.profileUid
        ⟨state.enabled, if clearConfirmation then none else state.confirmation⟩)

variable {Content : Type}

/-- `ZipArchive::extract`, which overwrites files one after another and undoes nothing. -/
def extract : List (Entry Content) → HomeFiles Content → Except String Unit × HomeFiles Content
  | [], disk => (.ok (), disk)
  | .whole name content :: rest, disk => extract rest (Function.update disk name (some content))
  | .broken name (some left) error :: _, disk => (.error error, Function.update disk name (some left))
  | .broken _ none error :: _, disk => (.error error, disk)

/-- `read_yaml`, and `read_mapping` with its own parser. -/
def readYaml {Value : Type} (disk : HomeFiles Content) (path : String)
    (parse : Content → Except String Value) : Except String Value :=
  match disk path with
  | none => .error ("file not found \"" ++ path ++ "\"")
  | some content => parse content

namespace App

variable (app : App Content)

/-- The committed configuration of the application. -/
def record : VergeRecord := ⟨app.world.verge.data, app.profileDnsSettings.data⟩

/-- `save_yaml`, which replaces the file at once. -/
def save (path : String) (text : Except String Content) (written : Except String Unit) :
    Except String Unit × App Content :=
  match text, written with
  | .error error, _ => (.error error, app)
  | .ok _, .error error => (.error error, app)
  | .ok content, .ok () => (.ok (), { app with disk := Function.update app.disk path (some content) })

def replaceClash (clash : Mapping) : App Content :=
  { app with world := { app.world with clash := (app.world.clash.editDraft fun _ => clash).apply } }

def replaceProfiles (profiles : IProfiles) : App Content :=
  { app with profiles := (app.profiles.editDraft fun _ => profiles).apply }

def replaceVerge (record : VergeRecord) : App Content :=
  { app with
    world := { app.world with
      verge := (app.world.verge.editDraft fun _ => record.settings).apply }
    profileDnsSettings :=
      (app.profileDnsSettings.editDraft fun _ => record.profileDnsSettings).apply }

/-- `IProfiles::new`, with the save of a store whose home links changed. -/
def loadProfiles (site : Site Content) (saved : Except String Unit) : IProfiles × App Content :=
  let stored := readYaml app.disk "profiles.yaml" site.readProfiles
  let profiles := Profiles.loadProfiles site.profiles stored
  match stored with
  | .ok stored =>
    if homeChanged site.profiles stored then
      (profiles, (app.save "profiles.yaml" (site.writeProfiles profiles) saved).2)
    else (profiles, app)
  | .error _ => (profiles, app)

def vergePatch (call : RestoreCall) (restored : VergeRecord) : VergeCall where
  patch := restored.settings
  notSaveFile := true
  effects := call.effects
  saved := .ok ()

/-- The application once a patch of its configuration has ended. -/
def applyPatch (patch : VergeCall) : App Content :=
  { app with world := (app.world.applyVergePatchLocked patch).2 }

/-- `reconcile_tun_availability`, whose patch is saved where it is committed. -/
def reconcileTun (site : Site Content) (call : RestoreCall) : App Content :=
  if app.world.reconciles call.runState then
    let patched := app.applyPatch (World.disableTun call.disable call.disableSaved)
    if !app.world.vergeClaimed &&
        (World.disableTun call.disable call.disableSaved).succeeds app.world then
      (patched.save "verge.yaml" (site.writeVerge patched.record) call.disableSaved).2
    else patched
  else app

def patchVerge (site : Site Content) (call : RestoreCall) (restored : VergeRecord) :
    Except String Unit × App Content :=
  if (restored.settings .enableSystemProxy).isSome && call.writesDisabled then
    (.error readOnlySystemProxy, app)
  else
    let patch := vergePatch call restored
    let patched := app.applyPatch patch
    match (app.world.applyVergePatchLocked patch).1 with
    | .error error => (.error error, patched)
    | .ok () =>
      if (restored.settings .enableTunMode).isSome then (.ok (), patched.reconcileTun site call)
      else (.ok (), patched)

/-- The commit in `sync_dns_override`. -/
def overrideDns (settings : List (String × ProfileDnsSettings)) : App Content :=
  { app with
    world := { app.world with verge := app.world.verge.apply }
    profileDnsSettings := (app.profileDnsSettings.editDraft fun _ => settings).apply }

def syncDnsOverride (site : Site Content) (call : RestoreCall) : App Content :=
  match call.dnsOverride with
  | none => app
  | some state =>
    if app.world.vergeClaimed then app
    else
      match state.applyTo ⟨app.world.verge.latest, app.profileDnsSettings.latest⟩ with
      | none => { app with
          world := { app.world with verge := app.world.verge.discard }
          profileDnsSettings := app.profileDnsSettings.discard }
      | some settings =>
        let overridden := app.overrideDns settings
        (overridden.save "verge.yaml" (site.writeVerge overridden.record) call.dnsSaved).2

end App

def RestoreCall.passOn (call : RestoreCall) : Except String Unit → Except RestoreError Unit
  | .ok () => .ok ()
  | .error error => if call.stateUnknown error then .error (.proxyStateUnknown error) else .ok ()

def RestoreCall.turnOffProxy (call : RestoreCall) (restored : VergeRecord) :
    Except RestoreError Unit :=
  let enableSystemProxy : Option Bool := restored.settings .enableSystemProxy
  if enableSystemProxy.getD false then .ok ()
  else call.passOn (call.applyProxy.bind fun _ => call.refreshGuard)

/-- The three layers replaced one after another. -/
def App.replaceAll (site : Site Content) (call : RestoreCall) (restored : VergeRecord)
    (app : App Content) : App Content :=
  let app := app.replaceClash (loadClash site.clash (readYaml app.disk "config.yaml" site.readMapping))
  let (profiles, app) := app.loadProfiles site call.savedProfiles
  (app.replaceProfiles profiles).replaceVerge restored

/-- `finalize_restored_verge_config` once the record is saved. -/
def replaceLayers (site : Site Content) (call : RestoreCall) (restored : VergeRecord)
    (app : App Content) : Except RestoreError Unit × App Content :=
  let app := app.replaceAll site call restored
  match call.turnOffProxy restored with
  | .error error => (.error error, app)
  | .ok () =>
    let (result, app) := app.patchVerge site call restored
    match call.passOn result with
    | .error error => (.error error, app)
    | .ok () => (.ok (), app.syncDnsOverride site call)

def finalizeRestoredVergeConfig (site : Site Content) (call : RestoreCall)
    (credentials : Credentials) (app : App Content) : Except RestoreError Unit × App Content :=
  match readYaml app.disk "verge.yaml" site.readVerge with
  | .error error => (.error (.failed error), app)
  | .ok record =>
    let restored := { record with settings := withCredentials record.settings credentials }
    match app.save "verge.yaml" (site.writeVerge restored) call.savedVerge with
    | (.error error, app) => (.error (.failed error), app)
    | (.ok (), app) => replaceLayers site call restored app

def extractArchive (site : Site Content) (call : RestoreCall) (archive : Content)
    (app : App Content) : Except RestoreError Unit × App Content :=
  match call.opened with
  | .error error => (.error (.failed error), app)
  | .ok () =>
    match site.readArchive archive with
    | .error error => (.error (.failed error), app)
    | .ok entries =>
      match extract entries app.disk with
      | (.error error, disk) => (.error (.failed error), { app with disk := disk })
      | (.ok (), disk) => (.ok (), { app with disk := disk })

def restoreLocalBackup (site : Site Content) (call : RestoreCall) (filename : String)
    (app : App Content) : Except RestoreError Unit × App Content :=
  match app.disk (site.backupDir ++ "/" ++ filename) with
  | none => (.error (.failed ("Backup file not found: " ++ filename)), app)
  | some archive =>
    let credentials := credentialsOf app.world.verge.latest
    match extractArchive site call archive app with
    | (.error error, app) => (.error error, app)
    | (.ok (), app) => finalizeRestoredVergeConfig site call credentials app

/-- How a download ends: the archive is written, or the call fails and may leave part of it. -/
inductive Download (Content : Type) where
  | written (archive : Content)
  | failed (error : String) (left : Option Content)

/-- `remove_if_exists` on the downloaded archive, whose result is dropped. -/
def App.removeDownloaded (app : App Content) (call : RestoreCall) (filename : String) : App Content :=
  match call.removed with
  | .ok () => { app with disk := Function.update app.disk filename none }
  | .error _ => app

def restoreWebdavBackup (site : Site Content) (call : RestoreCall) (filename : String)
    (download : Download Content) (app : App Content) : Except RestoreError Unit × App Content :=
  let credentials := credentialsOf app.world.verge.latest
  match download with
  | .failed error none => (.error (.failed error), app)
  | .failed error (some left) =>
    (.error (.failed error), { app with disk := Function.update app.disk filename (some left) })
  | .written archive =>
    let app := { app with disk := Function.update app.disk filename (some archive) }
    match extractArchive site call archive app with
    | (.error error, app) => (.error error, app)
    | (.ok (), app) =>
      -- The archive is removed however the rest ends.
      let (result, app) := finalizeRestoredVergeConfig site call credentials app
      (result, app.removeDownloaded call filename)

end ClashVerge.Feat
