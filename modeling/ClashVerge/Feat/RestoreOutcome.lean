import ClashVerge.Feat.Restore

/-!
# What a restore leaves

A restore that fails before it replaces the layers leaves memory, and on disk a first part of the
archive's entries. One that succeeds leaves the archive's record with the previous credentials in
memory and on disk, and the other layers as loaded from the extracted files; TUN may have been
switched off, and the DNS settings of a profile with an override may follow it.
-/

namespace ClashVerge.Feat

open ClashVerge.Config ClashVerge.Draft ClashVerge.Enhance ClashVerge.Profiles ClashVerge.Verge
open ClashVerge.Yaml

variable {Content : Type}

def writeEntries : List (Entry Content) → HomeFiles Content → HomeFiles Content
  | [], disk => disk
  | .whole name content :: rest, disk => writeEntries rest (Function.update disk name (some content))
  | .broken name (some left) _ :: rest, disk =>
    writeEntries rest (Function.update disk name (some left))
  | .broken _ none _ :: rest, disk => writeEntries rest disk

theorem extract_cases (entries : List (Entry Content)) (disk : HomeFiles Content) :
    extract entries disk = (.ok (), writeEntries entries disk) ∨
      ∃ error written, written <+: entries ∧
        extract entries disk = (.error error, writeEntries written disk) := by
  induction entries generalizing disk with
  | nil => exact .inl rfl
  | cons entry rest ih =>
    cases entry with
    | whole name content =>
      obtain whole | ⟨error, written, first, broken⟩ :=
        ih (Function.update disk name (some content))
      · exact .inl whole
      · exact .inr ⟨error, .whole name content :: written,
          List.cons_prefix_cons.mpr ⟨rfl, first⟩, broken⟩
    | broken name left error =>
      refine .inr ⟨error, [.broken name left error],
        List.cons_prefix_cons.mpr ⟨rfl, List.nil_prefix⟩, ?_⟩
      cases left <;> rfl

theorem writeEntries_congr (entries : List (Entry Content)) {first second : HomeFiles Content}
    {path : String} (same : first path = second path) :
    writeEntries entries first path = writeEntries entries second path := by
  induction entries generalizing first second with
  | nil => exact same
  | cons entry rest ih =>
    have updated (name : String) (content : Content) :
        Function.update first name (some content) path =
          Function.update second name (some content) path := by
      by_cases here : path = name
      · subst here
        simp
      · simp [here, same]
    cases entry with
    | whole name content => exact ih (updated name content)
    | broken name left error =>
      cases left with
      | none => exact ih same
      | some left => exact ih (updated name left)

def App.SameMemory (before after : App Content) : Prop :=
  after.world = before.world ∧ after.profileDnsSettings = before.profileDnsSettings ∧
    after.profiles = before.profiles

theorem App.sameMemory_refl (app : App Content) : app.SameMemory app := ⟨rfl, rfl, rfl⟩

def Site.entries (site : Site Content) (archive : Content) : List (Entry Content) :=
  (site.readArchive archive).toOption.getD []

/-- The extraction leaves memory alone, and on disk it has written a first part of the entries, or
    all of them where it succeeds. -/
theorem extractArchive_spec (site : Site Content) (call : RestoreCall) (archive : Content)
    (app : App Content) :
    app.SameMemory (extractArchive site call archive app).2 ∧
      ((extractArchive site call archive app).1 = .ok () ∧
          (extractArchive site call archive app).2.disk =
            writeEntries (site.entries archive) app.disk ∨
        ∃ error written, (extractArchive site call archive app).1 = .error (.failed error) ∧
          written <+: site.entries archive ∧
          (extractArchive site call archive app).2.disk = writeEntries written app.disk) := by
  unfold extractArchive
  cases call.opened with
  | error error => exact ⟨app.sameMemory_refl, .inr ⟨error, [], rfl, List.nil_prefix, rfl⟩⟩
  | ok =>
    cases reads : site.readArchive archive with
    | error error => exact ⟨app.sameMemory_refl, .inr ⟨error, [], rfl, List.nil_prefix, rfl⟩⟩
    | ok entries =>
      have entries_eq : site.entries archive = entries := by
        simp [Site.entries, reads, Except.toOption]
      rw [entries_eq]
      obtain whole | ⟨error, written, first, broken⟩ := extract_cases entries app.disk
      · simp only [whole]
        exact ⟨⟨rfl, rfl, rfl⟩, .inl ⟨trivial, trivial⟩⟩
      · simp only [broken]
        exact ⟨⟨rfl, rfl, rfl⟩, .inr ⟨error, written, rfl, first, rfl⟩⟩

theorem passOn_not_failed (call : RestoreCall) (result : Except String Unit) (error : String) :
    call.passOn result ≠ .error (.failed error) := by
  unfold RestoreCall.passOn
  cases result with
  | ok => simp
  | error reason => cases unknown : call.stateUnknown reason <;> simp [unknown]

theorem replaceLayers_not_failed (site : Site Content) (call : RestoreCall) (restored : VergeRecord)
    (app : App Content) (error : String) :
    (replaceLayers site call restored app).1 ≠ .error (.failed error) := by
  unfold replaceLayers
  intro failed
  cases turned : call.turnOffProxy restored with
  | error reason =>
    simp only [turned, Except.error.injEq] at failed
    rw [failed, RestoreCall.turnOffProxy] at turned
    split at turned
    · cases turned
    · exact passOn_not_failed call _ error turned
  | ok =>
    simp only [turned] at failed
    split at failed
    · next reason passed =>
      simp only [Except.error.injEq] at failed
      rw [failed] at passed
      exact passOn_not_failed call _ error passed
    · cases failed

theorem App.save_cases (app : App Content) (path : String) (text : Except String Content)
    (written : Except String Unit) :
    (∃ content, text = .ok content ∧ written = .ok () ∧ app.save path text written =
      (.ok (), { app with disk := Function.update app.disk path (some content) })) ∨
    (∃ error, app.save path text written = (.error error, app)) ∧
      ¬((∃ content, text = .ok content) ∧ written = .ok ()) := by
  cases text with
  | error error => exact .inr ⟨⟨error, rfl⟩, by simp⟩
  | ok content =>
    cases written with
    | error error => exact .inr ⟨⟨error, rfl⟩, by simp⟩
    | ok => exact .inl ⟨content, rfl, rfl, rfl⟩

theorem finalize_failed {site : Site Content} {call : RestoreCall} {credentials : Credentials}
    {app : App Content} {error : String}
    (failed : (finalizeRestoredVergeConfig site call credentials app).1 = .error (.failed error)) :
    (finalizeRestoredVergeConfig site call credentials app).2 = app := by
  unfold finalizeRestoredVergeConfig at failed ⊢
  cases reads : readYaml app.disk "verge.yaml" site.readVerge with
  | error reason => rfl
  | ok record =>
    obtain ⟨content, -, -, saved⟩ | ⟨⟨reason, refused⟩, -⟩ := app.save_cases "verge.yaml"
      (site.writeVerge { record with settings := withCredentials record.settings credentials })
      call.savedVerge
    · simp only [reads, saved] at failed
      exact absurd failed (replaceLayers_not_failed site call _ _ error)
    · simp only [refused]

/-! ## What a restore leaves when it succeeds -/

/-- The settings are the restored ones, except that TUN may have been switched off. -/
def AdjustedSettings (restored settings : IVerge) : Prop :=
  (∀ field, field ≠ .enableTunMode → settings field = restored field) ∧
    (settings .enableTunMode = restored .enableTunMode ∨ settings .enableTunMode = some false)

/-- The record is the restored one, except that TUN may have been switched off and the DNS settings
    of the profile with an override may have been changed to it. -/
structure Adjusted (call : RestoreCall) (restored record : VergeRecord) : Prop where
  settings : AdjustedSettings restored.settings record.settings
  dns : ∀ profileUid, (∀ state ∈ call.dnsOverride, state.profileUid ≠ profileUid) →
    OrderedMap.get record.profileDnsSettings profileUid =
      OrderedMap.get restored.profileDnsSettings profileUid

theorem readYaml_update {Value : Type} (disk : HomeFiles Content) {name path : String}
    (content : Option Content) (other : path ≠ name) (parse : Content → Except String Value) :
    readYaml (Function.update disk name content) path parse = readYaml disk path parse := by
  simp [readYaml, other]

/-- The files other than the record once the store is loaded: the store is written again where it
    has lost home links. -/
structure LoadedFiles (site : Site Content) (extracted files : HomeFiles Content) : Prop where
  profiles : files "profiles.yaml" = extracted "profiles.yaml" ∨ ∃ stored content,
    readYaml extracted "profiles.yaml" site.readProfiles = .ok stored ∧
      homeChanged site.profiles stored = true ∧
      site.writeProfiles (Profiles.loadProfiles site.profiles (.ok stored)) = .ok content ∧
      files "profiles.yaml" = some content
  others : ∀ path, path ≠ "profiles.yaml" → path ≠ "verge.yaml" → files path = extracted path

theorem LoadedFiles.of_saved {site : Site Content} {extracted files : HomeFiles Content}
    {content : Option Content}
    (loaded : LoadedFiles site (Function.update extracted "verge.yaml" content) files) :
    LoadedFiles site extracted files := by
  obtain ⟨profiles, others⟩ := loaded
  rw [readYaml_update _ _ (by decide), Function.update_of_ne (by decide)] at profiles
  refine ⟨profiles, fun path store record => ?_⟩
  rw [others path store record, Function.update_of_ne record]

theorem App.loadProfiles_spec (site : Site Content) (saved : Except String Unit) (app : App Content) :
    app.SameMemory (app.loadProfiles site saved).2 ∧
      (app.loadProfiles site saved).1 =
        Profiles.loadProfiles site.profiles (readYaml app.disk "profiles.yaml" site.readProfiles) ∧
      LoadedFiles site app.disk (app.loadProfiles site saved).2.disk ∧
      (app.loadProfiles site saved).2.disk "verge.yaml" = app.disk "verge.yaml" := by
  unfold App.loadProfiles
  cases reads : readYaml app.disk "profiles.yaml" site.readProfiles with
  | error error => exact ⟨app.sameMemory_refl, rfl, ⟨.inl rfl, fun _ _ _ => rfl⟩, rfl⟩
  | ok stored =>
    simp only
    split
    · next changed =>
      obtain ⟨content, text, -, written⟩ | ⟨⟨error, refused⟩, -⟩ := app.save_cases "profiles.yaml"
        (site.writeProfiles (Profiles.loadProfiles site.profiles (.ok stored))) saved
      · rw [written]
        refine ⟨⟨rfl, rfl, rfl⟩, rfl,
          ⟨.inr ⟨stored, content, reads, changed, text, by simp⟩, fun path other _ => ?_⟩, ?_⟩
        · simp [other]
        · simp
      · rw [refused]
        exact ⟨app.sameMemory_refl, rfl, ⟨.inl rfl, fun _ _ _ => rfl⟩, rfl⟩
    · exact ⟨app.sameMemory_refl, rfl, ⟨.inl rfl, fun _ _ _ => rfl⟩, rfl⟩

theorem adjusted_refl (call : RestoreCall) (restored : VergeRecord) :
    Adjusted call restored restored :=
  ⟨⟨fun _ _ => rfl, .inl rfl⟩, fun _ _ => rfl⟩

/-- Every later save of the record succeeds. -/
def LaterSaves (site : Site Content) (call : RestoreCall) : Prop :=
  call.disableSaved = .ok () ∧ call.dnsSaved = .ok () ∧
    ∀ record, ∃ content, site.writeVerge record = .ok content

/-- Memory holds the three layers, without a draft, and so does the disk: its record is the one in
    memory unless a later save has failed. -/
structure Restored (site : Site Content) (call : RestoreCall) (restored : VergeRecord)
    (clash : Mapping) (profiles : IProfiles) (files : HomeFiles Content) (app : App Content) :
    Prop where
  verge : app.world.verge = Slot.new app.record.settings
  dns : app.profileDnsSettings = Slot.new app.record.profileDnsSettings
  adjusted : Adjusted call restored app.record
  clash : app.world.clash = Slot.new clash
  profiles : app.profiles = Slot.new profiles
  file : ∃ record content, Adjusted call restored record ∧ site.writeVerge record = .ok content ∧
    app.disk "verge.yaml" = some content ∧ (LaterSaves site call → record = app.record)
  others : ∀ path, path ≠ "verge.yaml" → app.disk path = files path

section

variable {site : Site Content} {call : RestoreCall} {restored : VergeRecord} {clash : Mapping}
  {profiles : IProfiles} {files : HomeFiles Content} {before app : App Content}

theorem Restored.save (held : Restored site call restored clash profiles files before)
    (app : App Content)
    (verge : app.world.verge = Slot.new app.record.settings)
    (dns : app.profileDnsSettings = Slot.new app.record.profileDnsSettings)
    (adjusted : Adjusted call restored app.record) (clash_ : app.world.clash = before.world.clash)
    (profiles_ : app.profiles = before.profiles) (disk : app.disk = before.disk)
    {written : Except String Unit} (writes : LaterSaves site call → written = .ok ()) :
    Restored site call restored clash profiles files
      (app.save "verge.yaml" (site.writeVerge app.record) written).2 := by
  obtain ⟨content, text, -, saved⟩ | ⟨⟨error, refused⟩, unsaved⟩ :=
    app.save_cases "verge.yaml" (site.writeVerge app.record) written
  · rw [saved]
    refine ⟨verge, dns, adjusted, clash_.trans held.clash, profiles_.trans held.profiles,
      ⟨app.record, content, adjusted, text, by simp, fun _ => rfl⟩, fun path other => ?_⟩
    simp [other, disk, held.others path other]
  · rw [refused]
    obtain ⟨record, content, adjusted_, text, file, -⟩ := held.file
    refine ⟨verge, dns, adjusted, clash_.trans held.clash, profiles_.trans held.profiles,
      ⟨record, content, adjusted_, text, by rw [disk]; exact file, fun saves => ?_⟩,
      fun path other => by rw [disk]; exact held.others path other⟩
    exact absurd ⟨saves.2.2 app.record, writes saves⟩ unsaved

theorem Restored.of_same (held : Restored site call restored clash profiles files before)
    (verge : app.world.verge = before.world.verge) (clash_ : app.world.clash = before.world.clash)
    (dns : app.profileDnsSettings = before.profileDnsSettings)
    (profiles_ : app.profiles = before.profiles) (disk : app.disk = before.disk) :
    Restored site call restored clash profiles files app := by
  have record : app.record = before.record := by rw [App.record, App.record, verge, dns]
  obtain ⟨record_, content, adjusted, text, file, same⟩ := held.file
  refine ⟨?_, ?_, ?_, clash_.trans held.clash, profiles_.trans held.profiles,
    ⟨record_, content, adjusted, text, by rw [disk]; exact file, fun saves => ?_⟩,
    fun path other => by rw [disk]; exact held.others path other⟩
  · rw [verge, record]
    exact held.verge
  · rw [dns, record]
    exact held.dns
  · rw [record]
    exact held.adjusted
  · rw [record]
    exact same saves

theorem applyVergePatchLocked_self (world : World) (patch : VergeCall)
    (unstaged : world.verge = Slot.new world.verge.data) (same : patch.patch = world.verge.data) :
    (world.applyVergePatchLocked patch).2.verge = world.verge := by
  cases claimed : world.vergeClaimed with
  | true => simp [World.applyVergePatchLocked, claimed]
  | false =>
    have draft : world.verge.draft = none := by rw [unstaged]; rfl
    rw [world.applyVergePatchLocked_verge patch claimed draft, same, IVerge.patchConfig_self, ite_self]
    exact unstaged.symm

def withTunOff (verge : IVerge) : IVerge :=
  verge.patchConfig (IVerge.default.set .enableTunMode false)

theorem AdjustedSettings.withTunOff {restored settings : IVerge}
    (adjusted : AdjustedSettings restored settings) :
    AdjustedSettings restored (Feat.withTunOff settings) := by
  refine ⟨fun field other => ?_, .inr ?_⟩
  · rw [Feat.withTunOff, IVerge.patchConfig_absent]
    · exact adjusted.1 field other
    · exact IVerge.set_other _ _ _ _ other
  · rw [Feat.withTunOff, IVerge.patchConfig_present]
    · exact IVerge.set_same _ _ _
    · exact congrArg Option.isSome (IVerge.set_same _ _ _)

theorem Restored.reconcileTun (held : Restored site call restored clash profiles files app) :
    Restored site call restored clash profiles files (app.reconcileTun site call) := by
  set patch := World.disableTun call.disable call.disableSaved with patch_def
  have clash_ : (app.applyPatch patch).world.clash = app.world.clash :=
    app.world.applyVergePatchLocked_clash patch
  have draft : app.world.verge.draft = none := by rw [held.verge]; rfl
  unfold App.reconcileTun
  split
  · split
    · next committed =>
      rw [Bool.and_eq_true, Bool.not_eq_true'] at committed
      have verge : (app.applyPatch patch).world.verge = Slot.new (withTunOff app.record.settings) := by
        refine (app.world.applyVergePatchLocked_verge patch committed.1 draft).trans ?_
        rw [if_pos committed.2]
        rfl
      have settings : (app.applyPatch patch).record.settings = withTunOff app.record.settings := by
        rw [App.record, verge, Slot.new_data]
      refine held.save (app.applyPatch patch) ?_ held.dns ⟨?_, held.adjusted.dns⟩ clash_ rfl rfl fun saves => saves.1
      · rw [settings, verge]
      · rw [settings]
        exact held.adjusted.settings.withTunOff
    · next uncommitted =>
      refine held.of_same ?_ clash_ rfl rfl rfl
      cases claimed : app.world.vergeClaimed with
      | true => simp [App.applyPatch, World.applyVergePatchLocked, claimed]
      | false =>
        refine (app.world.applyVergePatchLocked_verge patch claimed draft).trans ?_
        rw [if_neg (by simpa [claimed] using uncommitted)]
        exact held.verge.symm
  · exact held

theorem Restored.patchVerge (held : Restored site call restored clash profiles files app)
    (exact_ : app.record = restored) :
    Restored site call restored clash profiles files (app.patchVerge site call restored).2 := by
  have patched : Restored site call restored clash profiles files
      (app.applyPatch (App.vergePatch call restored)) := by
    refine held.of_same (applyVergePatchLocked_self app.world _ held.verge ?_)
      (app.world.applyVergePatchLocked_clash _) rfl rfl rfl
    rw [← exact_]
    rfl
  unfold App.patchVerge
  split
  · exact held
  · simp only
    split
    · exact patched
    · split
      · exact patched.reconcileTun
      · exact patched

theorem DnsOverrideState.get_applyTo {state : DnsOverrideState} {record : VergeRecord}
    {settings : List (String × ProfileDnsSettings)} (applied : state.applyTo record = some settings)
    {profileUid : String} (other : state.profileUid ≠ profileUid) :
    OrderedMap.get settings profileUid = OrderedMap.get record.profileDnsSettings profileUid := by
  unfold DnsOverrideState.applyTo at applied
  split at applied
  · cases applied
  · simp only at applied
    split at applied
    · cases applied
    · split at applied
      · cases applied
      · rw [← Option.some.inj applied, SortedMap.get_insert, if_neg other]

theorem Restored.syncDnsOverride (held : Restored site call restored clash profiles files app) :
    Restored site call restored clash profiles files (app.syncDnsOverride site call) := by
  have verge : app.world.verge.latest = app.record.settings := by rw [held.verge]; rfl
  have dns : app.profileDnsSettings.latest = app.record.profileDnsSettings := by
    rw [held.dns]
    rfl
  unfold App.syncDnsOverride
  cases override : call.dnsOverride with
  | none => exact held
  | some state =>
    simp only [verge, dns]
    split
    · exact held
    · split
      · exact held.of_same (by rw [held.verge]; rfl) rfl (by rw [held.dns]; rfl) rfl rfl
      · next settings applied =>
        have committed : (app.overrideDns settings).record = ⟨app.record.settings, settings⟩ := by
          simp [App.record, App.overrideDns, verge]
        refine held.save (app.overrideDns settings) ?_ ?_ ?_ rfl rfl rfl fun saves => saves.2.1
        · rw [committed, App.overrideDns, held.verge]
          rfl
        · rw [committed]
          rfl
        · rw [committed]
          refine ⟨held.adjusted.settings, fun profileUid others => ?_⟩
          rw [DnsOverrideState.get_applyTo applied (others state override)]
          exact held.adjusted.dns profileUid others

variable (call) in
theorem App.replaceAll_restored {content : Content} (text : site.writeVerge restored = .ok content)
    (file : app.disk "verge.yaml" = some content) :
    Restored site call restored (loadClash site.clash (readYaml app.disk "config.yaml" site.readMapping))
      (Profiles.loadProfiles site.profiles (readYaml app.disk "profiles.yaml" site.readProfiles))
      (app.replaceAll site call restored).disk (app.replaceAll site call restored) ∧
    (app.replaceAll site call restored).record = restored ∧
    LoadedFiles site app.disk (app.replaceAll site call restored).disk := by
  set replaced := app.replaceClash
    (loadClash site.clash (readYaml app.disk "config.yaml" site.readMapping))
  obtain ⟨⟨world, -, -⟩, profiles_, files_, kept⟩ := replaced.loadProfiles_spec site call.savedProfiles
  have record : (app.replaceAll site call restored).record = restored := by
    simp [App.record, App.replaceAll, App.replaceVerge]
  refine ⟨⟨?_, ?_, ?_, ?_, ?_, ⟨restored, content, ?_, text, ?_, ?_⟩, fun _ _ => rfl⟩, record, files_⟩
  · rw [record]
    rfl
  · rw [record]
    rfl
  · rw [record]
    exact adjusted_refl call restored
  · exact (congrArg World.clash world).trans rfl
  · exact congrArg Slot.new profiles_
  · exact adjusted_refl call restored
  · exact kept.trans file
  · exact fun _ => record.symm

theorem replaceLayers_restored {content : Content} (text : site.writeVerge restored = .ok content)
    (file : app.disk "verge.yaml" = some content)
    (replaced : (replaceLayers site call restored app).1 = .ok ()) :
    Restored site call restored (loadClash site.clash (readYaml app.disk "config.yaml" site.readMapping))
      (Profiles.loadProfiles site.profiles (readYaml app.disk "profiles.yaml" site.readProfiles))
      (app.replaceAll site call restored).disk (replaceLayers site call restored app).2 := by
  obtain ⟨held, record, -⟩ := App.replaceAll_restored call text file
  unfold replaceLayers at replaced ⊢
  cases turned : call.turnOffProxy restored with
  | error error => simp [turned] at replaced
  | ok =>
    simp only [turned] at replaced ⊢
    split at replaced
    · cases replaced
    · exact (held.patchVerge record).syncDnsOverride

end

/-- The two ways to restore a backup. -/
inductive Source (Content : Type) where
  | localBackup (filename : String)
  | webdavBackup (filename : String) (download : Download Content)

namespace Source

variable (source : Source Content)

def restore (site : Site Content) (call : RestoreCall) :
    App Content → Except RestoreError Unit × App Content :=
  match source with
  | localBackup filename => restoreLocalBackup site call filename
  | webdavBackup filename download => restoreWebdavBackup site call filename download

/-- The file a download writes, which is removed in the end. -/
def downloaded : Option String :=
  match source with
  | localBackup _ => none
  | webdavBackup filename _ => some filename

def archive (site : Site Content) (disk : HomeFiles Content) : Option Content :=
  match source with
  | localBackup filename => disk (site.backupDir ++ "/" ++ filename)
  | webdavBackup _ (.written archive) => some archive
  | webdavBackup _ (.failed _ _) => none

def entries (site : Site Content) (disk : HomeFiles Content) : List (Entry Content) :=
  (source.archive site disk).elim [] site.entries

/-- The files when the extraction starts. -/
def base (disk : HomeFiles Content) : HomeFiles Content :=
  match source with
  | webdavBackup filename (.written archive) => Function.update disk filename (some archive)
  | _ => disk

def extracted (site : Site Content) (disk : HomeFiles Content) : HomeFiles Content :=
  writeEntries (source.entries site disk) (source.base disk)

end Source

/-- The application holds what the extracted files give, with some credentials. -/
def HoldsExtracted (site : Site Content) (call : RestoreCall) (credentials : Credentials)
    (extracted : HomeFiles Content) (app : App Content) : Prop :=
  ∃ record files, readYaml extracted "verge.yaml" site.readVerge = .ok record ∧
    LoadedFiles site extracted files ∧
    Restored site call { record with settings := withCredentials record.settings credentials }
      (loadClash site.clash (readYaml extracted "config.yaml" site.readMapping))
      (Profiles.loadProfiles site.profiles (readYaml extracted "profiles.yaml" site.readProfiles))
      files app

theorem finalize_restored {site : Site Content} {call : RestoreCall} {credentials : Credentials}
    {app : App Content}
    (finalized : (finalizeRestoredVergeConfig site call credentials app).1 = .ok ()) :
    HoldsExtracted site call credentials app.disk
      (finalizeRestoredVergeConfig site call credentials app).2 := by
  unfold finalizeRestoredVergeConfig at finalized ⊢
  cases reads : readYaml app.disk "verge.yaml" site.readVerge with
  | error error => simp [reads] at finalized
  | ok record =>
    obtain ⟨content, text, -, saved⟩ | ⟨⟨error, refused⟩, -⟩ := app.save_cases "verge.yaml"
      (site.writeVerge { record with settings := withCredentials record.settings credentials })
      call.savedVerge
    · simp only [reads, saved] at finalized ⊢
      set rewritten : App Content :=
        { app with disk := Function.update app.disk "verge.yaml" (some content) }
      have file : rewritten.disk "verge.yaml" = some content := by simp [rewritten]
      have files := (App.replaceAll_restored call text file).2.2
      have held := replaceLayers_restored text file finalized
      have clash : readYaml rewritten.disk "config.yaml" site.readMapping =
          readYaml app.disk "config.yaml" site.readMapping := readYaml_update _ _ (by decide) _
      have store : readYaml rewritten.disk "profiles.yaml" site.readProfiles =
          readYaml app.disk "profiles.yaml" site.readProfiles := readYaml_update _ _ (by decide) _
      rw [clash, store] at held
      exact ⟨record, _, reads, files.of_saved, held⟩
    · simp [reads, refused] at finalized

/-- After an error before the layers are replaced memory is as before, and a first part of the
archive's entries is on disk. -/
def Stopped (source : Source Content) (site : Site Content) (before after : App Content) : Prop :=
  before.SameMemory after ∧ ∃ written, written <+: source.entries site before.disk ∧
    ∀ path, source.downloaded ≠ some path → after.disk path = writeEntries written before.disk path

/-- Memory and disk hold what the extracted files give, with the previous credentials. The
downloaded archive is gone unless its removal failed. -/
def Completed (source : Source Content) (site : Site Content) (call : RestoreCall)
    (before after : App Content) : Prop :=
  ∃ left, HoldsExtracted site call (credentialsOf before.world.verge.latest)
      (source.extracted site before.disk) left ∧ left.SameMemory after ∧
    ∀ path, source.downloaded ≠ some path → after.disk path = left.disk path

theorem Stopped.untouched (source : Source Content) (site : Site Content) {before after : App Content}
    (memory : before.SameMemory after)
    (disk : ∀ path, source.downloaded ≠ some path → after.disk path = before.disk path) :
    Stopped source site before after :=
  ⟨memory, [], List.nil_prefix, disk⟩

theorem restoreLocalBackup_spec (site : Site Content) (call : RestoreCall) (filename : String)
    (before : App Content) :
    (∀ error, (restoreLocalBackup site call filename before).1 = .error (.failed error) →
      Stopped (.localBackup filename) site before (restoreLocalBackup site call filename before).2) ∧
    ((restoreLocalBackup site call filename before).1 = .ok () →
      Completed (.localBackup filename) site call before
        (restoreLocalBackup site call filename before).2) := by
  unfold restoreLocalBackup
  cases there : before.disk (site.backupDir ++ "/" ++ filename) with
  | none => exact ⟨fun _ _ => .untouched _ _ before.sameMemory_refl fun _ _ => rfl, nofun⟩
  | some archive =>
    have entries : (Source.localBackup filename).entries site before.disk = site.entries archive := by
      simp [Source.entries, Source.archive, there]
    obtain ⟨memory, extraction⟩ := extractArchive_spec site call archive before
    simp only
    cases run : extractArchive site call archive before with
    | mk result left =>
      rw [run] at memory extraction
      cases result with
      | error reason =>
        refine ⟨fun error failed => ?_, nofun⟩
        obtain ⟨extracted, -⟩ | ⟨_, written, -, first, disk⟩ := extraction
        · cases extracted
        · exact ⟨memory, written, entries ▸ first, fun path _ => congrFun disk path⟩
      | ok =>
        obtain ⟨-, disk⟩ | ⟨_, _, extracted, -⟩ := extraction
        · refine ⟨fun error failed => ?_, fun finalized => ?_⟩
          · simp only [finalize_failed failed]
            exact ⟨memory, _, List.prefix_rfl, fun path _ => entries ▸ congrFun disk path⟩
          · have held := finalize_restored finalized
            rw [disk, ← entries] at held
            exact ⟨_, held, App.sameMemory_refl _, fun _ _ => rfl⟩
        · cases extracted

theorem App.removeDownloaded_spec (app : App Content) (call : RestoreCall) (filename : String) :
    app.SameMemory (app.removeDownloaded call filename) ∧
      ∀ path, some filename ≠ some path →
        (app.removeDownloaded call filename).disk path = app.disk path := by
  unfold App.removeDownloaded
  cases call.removed with
  | ok => exact ⟨⟨rfl, rfl, rfl⟩, fun path other => by simp [Ne.symm (Option.some_inj.not.mp other)]⟩
  | error error => exact ⟨app.sameMemory_refl, fun _ _ => rfl⟩

theorem App.SameMemory.trans {first second third : App Content} (early : first.SameMemory second)
    (late : second.SameMemory third) : first.SameMemory third :=
  ⟨late.1.trans early.1, late.2.1.trans early.2.1, late.2.2.trans early.2.2⟩

theorem restoreWebdavBackup_spec (site : Site Content) (call : RestoreCall) (filename : String)
    (download : Download Content) (before : App Content) :
    (∀ error, (restoreWebdavBackup site call filename download before).1 = .error (.failed error) →
      Stopped (.webdavBackup filename download) site before
        (restoreWebdavBackup site call filename download before).2) ∧
    ((restoreWebdavBackup site call filename download before).1 = .ok () →
      Completed (.webdavBackup filename download) site call before
        (restoreWebdavBackup site call filename download before).2) := by
  unfold restoreWebdavBackup
  cases download with
  | failed reason left =>
    cases left with
    | none => exact ⟨fun _ _ => .untouched _ _ before.sameMemory_refl fun _ _ => rfl, nofun⟩
    | some left =>
      refine ⟨fun _ _ => .untouched _ _ ⟨rfl, rfl, rfl⟩ fun path other => ?_, nofun⟩
      exact Function.update_of_ne (Ne.symm (Option.some_inj.not.mp other)) _ _
  | written archive =>
    set base : App Content :=
      { before with disk := Function.update before.disk filename (some archive) } with base_def
    have apart (written : List (Entry Content)) (path : String) (other : some filename ≠ some path) :
        writeEntries written base.disk path = writeEntries written before.disk path :=
      writeEntries_congr written
        (Function.update_of_ne (Ne.symm (Option.some_inj.not.mp other)) _ _)
    obtain ⟨memory, extraction⟩ := extractArchive_spec site call archive base
    simp only
    rw [← base_def]
    cases run : extractArchive site call archive base with
    | mk result left =>
      rw [run] at memory extraction
      cases result with
      | error reason =>
        refine ⟨fun error failed => ?_, nofun⟩
        obtain ⟨extracted, -⟩ | ⟨_, written, -, first, disk⟩ := extraction
        · cases extracted
        · exact ⟨memory, written, first, fun path other => (congrFun disk path).trans (apart _ _ other)⟩
      | ok =>
        obtain ⟨-, disk⟩ | ⟨_, _, extracted, -⟩ := extraction
        · set credentials := credentialsOf before.world.verge.latest
          obtain ⟨removed, rest⟩ :=
            (finalizeRestoredVergeConfig site call credentials left).2.removeDownloaded_spec call filename
          refine ⟨fun error failed => ?_, fun finalized => ?_⟩
          · have unchanged : (finalizeRestoredVergeConfig site call credentials left).2 = left :=
              finalize_failed failed
            rw [unchanged] at removed rest
            simp only [unchanged]
            refine ⟨App.SameMemory.trans memory removed, _, List.prefix_rfl, fun path other => ?_⟩
            rw [rest path other]
            exact (congrFun disk path).trans (apart _ _ other)
          · have held : HoldsExtracted site call credentials left.disk
                (finalizeRestoredVergeConfig site call credentials left).2 := finalize_restored finalized
            rw [disk] at held
            exact ⟨_, held, removed, rest⟩
        · cases extracted

/-- A restore stops before the layers are replaced, completes, or ends with the proxy in an unknown
    state. -/
theorem restore_stops_or_completes (site : Site Content) (call : RestoreCall)
    (source : Source Content) (before : App Content) :
    (∀ error, (source.restore site call before).1 = .error (.failed error) →
      Stopped source site before (source.restore site call before).2) ∧
    ((source.restore site call before).1 = .ok () →
      Completed source site call before (source.restore site call before).2) := by
  cases source with
  | localBackup filename => exact restoreLocalBackup_spec site call filename before
  | webdavBackup filename download => exact restoreWebdavBackup_spec site call filename download before

/-- An error before the layers are replaced leaves memory and the files, and after a success both
hold what the archive has, with the previous credentials. -/
def AllOrNothing (site : Site Content) (call : RestoreCall) (source : Source Content)
    (before : App Content) : Prop :=
  let after := (source.restore site call before).2
  let extracted := source.extracted site before.disk
  let credentials := credentialsOf before.world.verge.latest
  (∀ error, (source.restore site call before).1 = .error (.failed error) →
    before.SameMemory after ∧
      ∀ path, source.downloaded ≠ some path → after.disk path = before.disk path) ∧
  ((source.restore site call before).1 = .ok () → ∃ record clash profiles,
    readYaml extracted "verge.yaml" site.readVerge = .ok record ∧
    readYaml extracted "config.yaml" site.readMapping = .ok clash ∧
    readYaml extracted "profiles.yaml" site.readProfiles = .ok profiles ∧
    after.record = { record with settings := withCredentials record.settings credentials } ∧
    after.world.clash.data = clash ∧ after.profiles.data = profiles ∧
    readYaml after.disk "verge.yaml" site.readVerge = .ok after.record ∧
    readYaml after.disk "config.yaml" site.readMapping = .ok clash ∧
    readYaml after.disk "profiles.yaml" site.readProfiles = .ok profiles)

/-! ## Two archives -/

/-- The files of a small home, by what they hold. -/
inductive Sheet where
  | zip (truncated : Bool)
  | vergeYaml (record : VergeRecord)
  | configYaml (mapping : Mapping)
  | profilesYaml (profiles : IProfiles)

namespace Sheet

def archived : VergeRecord := ⟨IVerge.default.set .webdavUrl "https://other.example/dav", []⟩

/-- An archive with the three files, or one that is cut off in the last of them. -/
def entries (truncated : Bool) : List (Entry Sheet) :=
  [.whole "verge.yaml" (.vergeYaml archived), .whole "config.yaml" (.configYaml []),
    if truncated then .broken "profiles.yaml" none "unexpected end of file"
    else .whole "profiles.yaml" (.profilesYaml ⟨none, none⟩)]

def site : Site Sheet where
  backupDir := "backups"
  readArchive := fun
    | .zip truncated => .ok (entries truncated)
    | _ => .error "invalid Zip archive"
  readVerge := fun
    | .vergeYaml record => .ok record
    | _ => .error "invalid type"
  writeVerge := fun record => .ok (.vergeYaml record)
  readMapping := fun
    | .configYaml mapping => .ok mapping
    | _ => .error "invalid type"
  readProfiles := fun
    | .profilesYaml profiles => .ok profiles
    | _ => .error "invalid type"
  writeProfiles := fun profiles => .ok (.profilesYaml profiles)
  clash := ⟨.linux, "/tmp/verge/clash-verge-service.sock", some⟩
  profiles := ⟨fun count => "d" ++ toString count, some⟩

/-- Nothing but the autostart entry, which the record does not ask for, fails. -/
def call : RestoreCall where
  opened := .ok ()
  savedVerge := .ok ()
  savedProfiles := .ok ()
  applyProxy := .ok ()
  refreshGuard := .ok ()
  stateUnknown := fun _ => false
  writesDisabled := false
  effects := World.launchRefused
  runState := ⟨true, false, false, false⟩
  disable := World.launchRefused
  disableSaved := .ok ()
  dnsOverride := none
  dnsSaved := .ok ()
  removed := .ok ()

def home (truncated : Bool) : App Sheet where
  world := .atRest .linux .sidecar ⟨[], .default⟩
  profileDnsSettings := .new []
  profiles := .new ⟨none, none⟩
  disk := fun path =>
    if path = "backups/a.zip" then some (zip truncated)
    else if path = "verge.yaml" then some (vergeYaml ⟨.default, []⟩)
    else none

/-- The address in a record's file. -/
def webdavUrl : Option Sheet → Option String
  | some (vergeYaml record) => record.settings .webdavUrl
  | _ => none

end Sheet

/-- The whole archive is restored, and the truncated one leaves memory and some of its files. -/
theorem restore_of_archives :
    Completed (.localBackup "a.zip") Sheet.site Sheet.call (Sheet.home false)
      ((Source.localBackup "a.zip").restore Sheet.site Sheet.call (Sheet.home false)).2 ∧
    Stopped (.localBackup "a.zip") Sheet.site (Sheet.home true)
      ((Source.localBackup "a.zip").restore Sheet.site Sheet.call (Sheet.home true)).2 :=
  ⟨(restore_stops_or_completes ..).2 (by rfl), (restore_stops_or_completes ..).1 _ (by rfl)⟩

/-- A truncated archive has replaced the record on disk when its extraction fails. -/
theorem truncated_archive_replaces_record :
    ¬ ∀ (site : Site Sheet) (call : RestoreCall) (source : Source Sheet) (before : App Sheet),
      AllOrNothing site call source before := by
  intro holds
  have kept := ((holds Sheet.site Sheet.call (.localBackup "a.zip") (Sheet.home true)).1
    "unexpected end of file" rfl).2 "verge.yaml" (by decide)
  exact absurd (congrArg Sheet.webdavUrl kept) nofun

end ClashVerge.Feat
