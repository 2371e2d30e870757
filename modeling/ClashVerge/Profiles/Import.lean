import ClashVerge.Profiles.Invariant
import ClashVerge.Profiles.PrfItem
import Mathlib.Control.Monad.Basic

/-!
# Importing a profile

An import makes an item, appends it to the store and saves the store. Making the item appends a
companion for every link its option lacks. Each append is a `with_data_modify` of its own: it writes
a text, then commits the store with one more item, and a later failure takes nothing of it back.

An import runs alone here, so no draft is staged.
-/

namespace ClashVerge.Profiles

/-- A computation on the committed store and the disk, which keeps both when it fails. -/
abbrev Importing : Type → Type := ExceptT String (StateM Kept)

inductive Import where
  | deepLink (url : String) (name : Option String)
  | importProfile (url : String) (option : Option PrfOption)
  | createProfile (item : PrfItem) (fileData : Option String)

/-- How the writes of an import end, as far as it comes to them. -/
structure Writes where
  merge : WriteOutcome
  script : WriteOutcome
  rules : WriteOutcome
  proxies : WriteOutcome
  groups : WriteOutcome
  item : WriteOutcome
  save : Except String Unit

namespace Importing

/-- A computation that touches neither the store nor the disk. -/
def check {Result : Type} (result : Except String Result) : Importing Result :=
  fun kept => (result, kept)

def withDataModify (body : IProfiles → Disk → Returned × Disk) : Importing Unit := fun kept =>
  match body kept.profiles kept.disk with
  | (.ok (next, reported), disk) => (reported, ⟨next, disk⟩)
  | (.error error, disk) => (.error error, ⟨kept.profiles, disk⟩)

def profilesAppendItemSafe (item : PrfItem) (write : WriteOutcome) : Importing Unit :=
  withDataModify (Operation.runAppend item write)

def profilesSaveFileSafe (save : Except String Unit) : Importing Unit :=
  withDataModify fun profiles disk => Operation.runSave profiles save disk

/-- A link that is not given becomes that of a new companion. -/
def appendCompanion (link : Option String) (companion : PrfItem) (write : WriteOutcome) :
    Importing (Option String) :=
  match link with
  | some uid => pure (some uid)
  | none => do
    profilesAppendItemSafe companion write
    return companion.uid

section

variable (site : ImportSite) (writes : Writes)

/-- The companions of `from_local` and `from_url`, one after another. -/
def appendCompanions (option : Option PrfOption) : Importing Links := do
  let given := Links.given option
  let merge ← appendCompanion given.merge (.fromMerge site) writes.merge
  let script ← appendCompanion given.script (.fromScript site) writes.script
  let rules ← appendCompanion given.rules (.fromRules site) writes.rules
  let proxies ← appendCompanion given.proxies (.fromProxies site) writes.proxies
  let groups ← appendCompanion given.groups (.fromGroups site) writes.groups
  return ⟨merge, script, rules, proxies, groups⟩

def fromLocal (name desc : String) (fileData : Option String) (option : Option PrfOption) :
    Importing PrfItem := do
  let links ← appendCompanions site writes option
  return .localProfile site name desc fileData option links

def fromUrl (url : String) (name desc : Option String) (option : Option PrfOption) :
    Importing PrfItem := do
  let (url, response) ← check (site.download url option)
  let links ← appendCompanions site writes option
  return .remoteProfile site url response name desc option links

def fromItem (item : PrfItem) (fileData : Option String) : Importing PrfItem :=
  match item.itype with
  | none => check (.error "type should not be null")
  | some "remote" =>
    match item.url with
    | none => check (.error "url should not be null")
    | some url => fromUrl site writes url item.name item.desc item.option
  | some "local" =>
    fromLocal site writes (item.name.getD "Local File") (item.desc.getD "") fileData item.option
  | some typ => check (.error ("invalid profile item type \"" ++ typ ++ "\""))

def makeItem : Import → Importing PrfItem
  | .deepLink url name => fromUrl site writes url name none none
  | .importProfile url option => fromUrl site writes url none none option
  | .createProfile item fileData => fromItem site writes item fileData

/-- The import, up to what it tells other parts of the program. -/
def run (request : Import) : Importing Unit := do
  let item ← makeItem site writes request
  profilesAppendItemSafe item writes.item
  profilesSaveFileSafe writes.save

end

end Importing

/-! ## The appends of an import -/

structure Append where
  item : PrfItem
  write : WriteOutcome

namespace Append

/-- The item has all that `append_item` needs of it. -/
def Ready (append : Append) : Prop :=
  append.item.uid.isSome ∧ append.item.file.isSome ∧ append.item.fileData.isSome

/-- The write fails, and leaves in the file what it held. -/
def FailsClean (append : Append) (disk : Disk) : Prop :=
  append.write ≠ .written ∧ ∀ text file, append.item.fileData = some text →
    append.item.file = some file → append.write.Spares disk file text

def missing (link : Option String) (companion : PrfItem) (write : WriteOutcome) : List Append :=
  match link with
  | some _ => []
  | none => [⟨companion, write⟩]

end Append

namespace Import

variable (site : ImportSite) (writes : Writes)

def companionAppends (option : Option PrfOption) : List Append :=
  let given := Links.given option
  Append.missing given.merge (.fromMerge site) writes.merge ++
    Append.missing given.script (.fromScript site) writes.script ++
    Append.missing given.rules (.fromRules site) writes.rules ++
    Append.missing given.proxies (.fromProxies site) writes.proxies ++
    Append.missing given.groups (.fromGroups site) writes.groups

/-- The links of a profile: those given, and the uids of the new companions. -/
def linked (option : Option PrfOption) : Links where
  merge := option.bind (·.merge) <|> some (site.getUid "m")
  script := option.bind (·.script) <|> some (site.getUid "s")
  rules := option.bind (·.rules) <|> some (site.getUid "r")
  proxies := option.bind (·.proxies) <|> some (site.getUid "p")
  groups := option.bind (·.groups) <|> some (site.getUid "g")

/-- What an import has once its checks have passed: the option with its links, and the item they
are for. -/
abbrev Prepared : Type := Option PrfOption × (Links → PrfItem)

def prepareUrl (url : String) (name desc : Option String) (option : Option PrfOption) :
    Except String Prepared :=
  (site.download url option).map fun found =>
    (option, .remoteProfile site found.1 found.2 name desc option)

/-- Everything an import checks before it appends anything. -/
def prepare : Import → Except String Prepared
  | .deepLink url name => prepareUrl site url name none none
  | .importProfile url option => prepareUrl site url none none option
  | .createProfile item fileData =>
    match item.itype with
    | none => .error "type should not be null"
    | some "remote" =>
      match item.url with
      | none => .error "url should not be null"
      | some url => prepareUrl site url item.name item.desc item.option
    | some "local" =>
      .ok (item.option, .localProfile site (item.name.getD "Local File") (item.desc.getD "")
        fileData item.option)
    | some typ => .error ("invalid profile item type \"" ++ typ ++ "\"")

/-- The appends of an import whose checks have passed; the last one is that of the profile. -/
def appends (prepared : Prepared) : List Append :=
  companionAppends site writes prepared.1 ++
    [⟨prepared.2 (linked site prepared.1), writes.item⟩]

end Import

namespace Importing

/-- What the computation returns on the store and the disk, and what it leaves of both. -/
def exec {Result : Type} (computation : Importing Result) (kept : Kept) :
    Except String Result × Kept := computation kept

/-- The appends one after another, up to the first that fails. -/
def runAppends : List Append → Importing Unit
  | [] => pure ()
  | append :: rest => do
    profilesAppendItemSafe append.item append.write
    runAppends rest

variable {Result Next : Type}

@[simp] theorem exec_pure (result : Result) (kept : Kept) :
    exec (pure result) kept = (.ok result, kept) := rfl

@[simp] theorem exec_check (result : Except String Result) (kept : Kept) :
    exec (check result) kept = (result, kept) := rfl

theorem exec_bind_ok {first : Importing Result} {kept left : Kept} {result : Result}
    (returned : exec first kept = (.ok result, left)) (next : Result → Importing Next) :
    exec (first >>= next) kept = exec (next result) left := by
  change ExceptT.bindCont next (exec first kept).1 (exec first kept).2 = _
  rw [returned]
  rfl

theorem exec_bind_error {first : Importing Result} {kept left : Kept} {error : String}
    (failed : exec first kept = (.error error, left)) (next : Result → Importing Next) :
    exec (first >>= next) kept = (.error error, left) := by
  change ExceptT.bindCont next (exec first kept).1 (exec first kept).2 = _
  rw [failed]
  rfl

@[simp] theorem check_ok_bind (result : Result) (next : Result → Importing Next) :
    check (.ok result) >>= next = next result := rfl

@[simp] theorem check_error_bind (error : String) (next : Result → Importing Next) :
    check (.error error) >>= next = check (.error error) := rfl

theorem runAppends_append (first second : List Append) :
    runAppends (first ++ second) = (do runAppends first; runAppends second) := by
  induction first with
  | nil => rfl
  | cons append rest ih =>
    simp only [List.cons_append, runAppends, ih, bind_assoc]

theorem appendCompanion_eq (link : Option String) (companion : PrfItem) (write : WriteOutcome) :
    appendCompanion link companion write = (do
      runAppends (Append.missing link companion write)
      return link <|> companion.uid) := by
  cases link with
  | some uid => rfl
  | none => simp [appendCompanion, Append.missing, runAppends]

section

variable (site : ImportSite) (writes : Writes)

theorem appendCompanions_eq (option : Option PrfOption) : appendCompanions site writes option = (do
      runAppends (Import.companionAppends site writes option)
      return Import.linked site option) := by
  simp only [appendCompanions, appendCompanion_eq, Import.companionAppends, runAppends_append,
    bind_assoc, pure_bind]
  rfl

theorem fromUrl_eq (url : String) (name desc : Option String) (option : Option PrfOption) :
    fromUrl site writes url name desc option = (do
      let prepared ← check (Import.prepareUrl site url name desc option)
      runAppends (Import.companionAppends site writes prepared.1)
      return prepared.2 (Import.linked site prepared.1)) := by
  unfold fromUrl Import.prepareUrl
  cases site.download url option with
  | error error => rfl
  | ok found => simp [Except.map, appendCompanions_eq]

theorem makeItem_eq (request : Import) : makeItem site writes request = (do
      let prepared ← check (request.prepare site)
      runAppends (Import.companionAppends site writes prepared.1)
      return prepared.2 (Import.linked site prepared.1)) := by
  cases request with
  | deepLink url name => exact fromUrl_eq site writes url name none none
  | importProfile url option => exact fromUrl_eq site writes url none none option
  | createProfile item fileData =>
    simp only [makeItem, fromItem, Import.prepare]
    split
    · rfl
    · split
      · rfl
      · exact fromUrl_eq ..
    · simp [fromLocal, appendCompanions_eq]
    · rfl

theorem run_eq (request : Import) : run site writes request = (do
      let prepared ← check (request.prepare site)
      runAppends (Import.appends site writes prepared)
      profilesSaveFileSafe writes.save) := by
  simp [run, makeItem_eq, Import.appends, runAppends_append, runAppends]

end

/-! ## What a failed import leaves -/

/-- The store's items in memory and in `profiles.yaml`, and the files, are those from before. -/
structure NoTrace (before after : Kept) : Prop where
  memory : after.profiles.list = before.profiles.list
  profilesYaml : after.disk.profilesYaml.map IProfiles.list =
    before.disk.profilesYaml.map IProfiles.list
  files : after.disk.files = before.disk.files

def LeavesNoTrace (site : ImportSite) (writes : Writes) (request : Import) (kept : Kept) : Prop :=
  ∀ error left, exec (run site writes request) kept = (.error error, left) → NoTrace kept left

/-- Everything is written, or the first of the appends fails and leaves its file as it was. -/
def AllOrNothing (appends : List Append) (save : Except String Unit) (disk : Disk) : Prop :=
  (∀ append ∈ appends, append.write = .written) ∧ save.isOk = true ∨
    ∃ first ∈ appends.head?, first.FailsClean disk

/-- The computation only adds items behind those of the store. -/
def Grows {Result : Type} (computation : Importing Result) : Prop :=
  ∀ kept, kept.profiles.list <+: (exec computation kept).2.profiles.list

theorem Grows.bind {Result Next : Type} {first : Importing Result}
    {next : Result → Importing Next} (grows : Grows first)
    (then_ : ∀ result, Grows (next result)) : Grows (first >>= next) := by
  intro kept
  have before := grows kept
  cases returned : exec first kept with
  | mk result left =>
    rw [returned] at before
    cases result with
    | error error => rwa [exec_bind_error returned]
    | ok result =>
      rw [exec_bind_ok returned]
      exact before.trans (then_ result left)

variable {append : Append}

theorem exec_append_written (ready : append.Ready)
    (written : append.write = .written) (kept : Kept) :
    ∃ item left, exec (profilesAppendItemSafe append.item append.write) kept = (.ok (), left) ∧
      left.profiles.list = kept.profiles.list ++ [item] := by
  obtain ⟨uid, file, text⟩ := ready
  obtain ⟨uid, uidIs⟩ := Option.isSome_iff_exists.mp uid
  obtain ⟨file, fileIs⟩ := Option.isSome_iff_exists.mp file
  obtain ⟨text, textIs⟩ := Option.isSome_iff_exists.mp text
  refine ⟨{ append.item with fileData := none }, ?_⟩
  simp only [exec, profilesAppendItemSafe, withDataModify, Operation.runAppend, uidIs, fileIs,
    textIs, written, Disk.writeFile]
  exact ⟨_, rfl, rfl⟩

theorem exec_append_failed (ready : append.Ready) (failed : append.write ≠ .written) (kept : Kept) :
    ∃ error left,
      exec (profilesAppendItemSafe append.item append.write) kept = (.error error, left) ∧
      left.profiles = kept.profiles ∧ left.disk.profilesYaml = kept.disk.profilesYaml ∧
      (left.disk = kept.disk ↔ append.FailsClean kept.disk) := by
  have ends := Operation.runAppend_disk append.item append.write kept.profiles kept.disk
  obtain ⟨uid, file, text⟩ := ready
  obtain ⟨uid, uidIs⟩ := Option.isSome_iff_exists.mp uid
  obtain ⟨file, fileIs⟩ := Option.isSome_iff_exists.mp file
  obtain ⟨text, textIs⟩ := Option.isSome_iff_exists.mp text
  cases write : append.write with
  | written => exact absurd write failed
  | failed error left =>
    simp only [exec, profilesAppendItemSafe, withDataModify, Append.FailsClean, Operation.runAppend,
      uidIs, fileIs, textIs, write] at ends ⊢
    cases left with
    | none | some left => exact ⟨_, _, rfl, rfl, rfl, by simpa [Disk.writeFile] using ends⟩

theorem exec_save (save : Except String Unit) (kept : Kept) :
    (exec (profilesSaveFileSafe save) kept).1 = save ∧
      (exec (profilesSaveFileSafe save) kept).2.profiles = kept.profiles := by
  cases save <;> exact ⟨rfl, rfl⟩

theorem grows_save (save : Except String Unit) : Grows (profilesSaveFileSafe save) := by
  intro kept
  rw [(exec_save save kept).2]

theorem grows_append (ready : append.Ready) :
    Grows (profilesAppendItemSafe append.item append.write) := by
  intro kept
  by_cases written : append.write = .written
  · obtain ⟨item, left, returned, added⟩ := exec_append_written ready written kept
    rw [returned, added]
    exact List.prefix_append ..
  · obtain ⟨error, left, failed, same, -⟩ := exec_append_failed ready written kept
    rw [failed, same]

theorem grows_runAppends {appends : List Append} (ready : ∀ append ∈ appends, append.Ready) :
    Grows (runAppends appends) := by
  induction appends with
  | nil => exact fun kept => List.prefix_refl _
  | cons append rest ih =>
    obtain ⟨first, others⟩ := List.forall_mem_cons.mp ready
    exact (grows_append first).bind fun _ => ih others

theorem exec_ok_iff {appends : List Append} (ready : ∀ append ∈ appends, append.Ready)
    (save : Except String Unit) (kept : Kept) :
    (exec (do runAppends appends; profilesSaveFileSafe save) kept).1.isOk = true ↔
      (∀ append ∈ appends, append.write = .written) ∧ save.isOk = true := by
  induction appends generalizing kept with
  | nil =>
    rw [runAppends, pure_bind, (exec_save save kept).1]
    simp
  | cons append rest ih =>
    obtain ⟨first, others⟩ := List.forall_mem_cons.mp ready
    simp only [runAppends, bind_assoc, List.forall_mem_cons]
    by_cases written : append.write = .written
    · obtain ⟨item, left, returned, -⟩ := exec_append_written first written kept
      rw [exec_bind_ok returned, ih others left]
      simp [written]
    · obtain ⟨error, left, failed, -⟩ := exec_append_failed first written kept
      rw [exec_bind_error failed]
      simp [written, Except.isOk, Except.toBool]

theorem not_noTrace_of_written {rest : List Append}
    (ready : ∀ each ∈ append :: rest, each.Ready) (written : append.write = .written)
    (save : Except String Unit) (kept : Kept) :
    ¬ NoTrace kept (exec (do runAppends (append :: rest); profilesSaveFileSafe save) kept).2 := by
  intro noTrace
  obtain ⟨first, others⟩ := List.forall_mem_cons.mp ready
  obtain ⟨item, left, returned, added⟩ := exec_append_written first written kept
  have grows := ((grows_runAppends others).bind fun _ => grows_save save) left
  have memory := noTrace.memory
  simp only [runAppends, bind_assoc, exec_bind_ok returned] at memory
  have longer := grows.length_le
  rw [memory, added, List.length_append, List.length_singleton] at longer
  omega

theorem noTrace_of_failed (rest : List Append) (ready : append.Ready)
    (failed : append.write ≠ .written) (save : Except String Unit) (kept : Kept) :
    NoTrace kept (exec (do runAppends (append :: rest); profilesSaveFileSafe save) kept).2 ↔
      append.FailsClean kept.disk := by
  obtain ⟨error, left, returned, profiles, profilesYaml, disk⟩ :=
    exec_append_failed ready failed kept
  simp only [runAppends, bind_assoc, exec_bind_error returned]
  rw [← disk, Disk.ext_iff]
  exact ⟨fun noTrace => ⟨profilesYaml, noTrace.files⟩,
    fun same => ⟨by rw [profiles], by rw [same.1], same.2⟩⟩

theorem runAppends_noTrace_iff {appends : List Append}
    (ready : ∀ append ∈ appends, append.Ready) (some_ : appends ≠ [])
    (save : Except String Unit) (kept : Kept) :
    (∀ error left, exec (do runAppends appends; profilesSaveFileSafe save) kept =
        (.error error, left) → NoTrace kept left) ↔
      AllOrNothing appends save kept.disk := by
  obtain ⟨first, rest, rfl⟩ := List.exists_cons_of_ne_nil some_
  have succeeds := exec_ok_iff ready save kept
  unfold AllOrNothing
  rw [← succeeds]
  by_cases written : first.write = .written
  · have trace := not_noTrace_of_written ready written save kept
    have unclean : ¬ first.FailsClean kept.disk := fun clean => clean.1 written
    cases ends : exec (do runAppends (first :: rest); profilesSaveFileSafe save) kept with
    | mk result left =>
      rw [ends] at trace
      cases result with
      | ok done => simp [Except.isOk, Except.toBool]
      | error error => simpa [Except.isOk, Except.toBool, unclean] using trace
  · have clean := noTrace_of_failed rest (ready first List.mem_cons_self) written save kept
    have fails : ¬ (exec (do runAppends (first :: rest); profilesSaveFileSafe save) kept).1.isOk =
        true := fun ok => written ((succeeds.mp ok).1 first List.mem_cons_self)
    cases ends : exec (do runAppends (first :: rest); profilesSaveFileSafe save) kept with
    | mk result left =>
      rw [ends] at clean fails
      cases result with
      | ok done => exact absurd rfl fails
      | error error => simpa [Except.isOk, Except.toBool] using clean

section

variable (site : ImportSite) (writes : Writes)

theorem ready_missing {companion : PrfItem} (link : Option String) (write : WriteOutcome)
    (ready : (Append.mk companion write).Ready) :
    ∀ append ∈ Append.missing link companion write, append.Ready := by
  cases link with
  | some uid => simp [Append.missing]
  | none => simpa [Append.missing] using ready

theorem ready_companionAppends (option : Option PrfOption) :
    ∀ append ∈ Import.companionAppends site writes option, append.Ready := by
  have companion (uidPrefix itype extension text : String) (write : WriteOutcome) :
      (Append.mk (.companion site uidPrefix itype extension text) write).Ready := ⟨rfl, rfl, rfl⟩
  simp only [Import.companionAppends, List.forall_mem_append]
  exact ⟨⟨⟨⟨ready_missing _ _ (companion ..), ready_missing _ _ (companion ..)⟩,
    ready_missing _ _ (companion ..)⟩, ready_missing _ _ (companion ..)⟩,
    ready_missing _ _ (companion ..)⟩

theorem ready_prepareUrl {url : String} {name desc : Option String} {option : Option PrfOption}
    {prepared : Import.Prepared}
    (passed : Import.prepareUrl site url name desc option = .ok prepared) (write : WriteOutcome)
    (links : Links) : (Append.mk (prepared.2 links) write).Ready := by
  unfold Import.prepareUrl at passed
  cases found : site.download url option with
  | error error => simp [found, Except.map] at passed
  | ok found' =>
    obtain rfl : _ = prepared := by simpa [found, Except.map] using passed
    exact ⟨rfl, rfl, rfl⟩

theorem ready_appends {request : Import} {prepared : Import.Prepared}
    (passed : request.prepare site = .ok prepared) :
    ∀ append ∈ Import.appends site writes prepared, append.Ready := by
  rw [Import.appends, List.forall_mem_append]
  refine ⟨ready_companionAppends site writes _, List.forall_mem_singleton.mpr ?_⟩
  cases request with
  | deepLink url name | importProfile url option => exact ready_prepareUrl site passed _ _
  | createProfile item fileData =>
    simp only [Import.prepare] at passed
    split at passed
    · contradiction
    · split at passed
      · contradiction
      · exact ready_prepareUrl site passed _ _
    · cases passed
      exact ⟨rfl, rfl, rfl⟩
    · contradiction

/-- An import that fails leaves no trace exactly when it fails in its checks, or everything it has
to write is written, or its first append fails and leaves the file as it was. -/
theorem leavesNoTrace_iff (request : Import) (kept : Kept) :
    LeavesNoTrace site writes request kept ↔
      ∀ prepared, request.prepare site = .ok prepared →
        AllOrNothing (Import.appends site writes prepared) writes.save kept.disk := by
  unfold LeavesNoTrace
  rw [run_eq]
  cases passed : request.prepare site with
  | error reason =>
    refine iff_of_true (fun error left failed => ?_) (fun prepared ok => by contradiction)
    obtain ⟨-, rfl⟩ := Prod.mk.inj
      (show ((.error reason : Except String Unit), kept) = (.error error, left) from failed)
    exact ⟨rfl, rfl, rfl⟩
  | ok prepared =>
    have nonempty : Import.appends site writes prepared ≠ [] := by simp [Import.appends]
    have appends :=
      runAppends_noTrace_iff (ready_appends site writes passed) nonempty writes.save kept
    simpa using appends

end

/-- A companion that no profile of the store links. -/
def Orphan (profiles : IProfiles) (item : PrfItem) : Prop :=
  item ∈ profiles.list ∧ item.isProfile = false ∧
    ∀ owner ∈ profiles.list, item.uid ∉ IProfiles.companions owner

def emptySubscription : ImportSite where
  getUid := (· ++ "00000000000")
  timestamp := 0
  parseUrl text := .ok ⟨text, "/", none⟩
  withPathAndPairs url _ _ := url
  get _ := .ok ⟨⟨200, "200 OK"⟩, [], "proxies: []"⟩
  parseMapping _ := .ok [(.string "proxies", .sequence [])]
  normalizeProfileHomeUrl _ := none

def noScript : Writes where
  merge := .written
  script := .failed "No space left on device" none
  rules := .written
  proxies := .written
  groups := .written
  item := .written
  save := .ok ()

/-- An import into an empty store that fails with its second companion leaves the first one. -/
theorem import_leaves_orphan : ¬ LeavesNoTrace emptySubscription noScript
        (.deepLink "https://example.com" none) ⟨⟨none, none⟩, ⟨none, fun _ => none⟩⟩ ∧
      ∃ error left, exec (run emptySubscription noScript (.deepLink "https://example.com" none))
          ⟨⟨none, none⟩, ⟨none, fun _ => none⟩⟩ = (.error error, left) ∧
        ∃ item, Orphan left.profiles item := by
  refine ⟨fun leaves => ?_, _, _, rfl, _, List.mem_singleton.mpr rfl, rfl, ?_⟩
  · have noTrace := leaves _ _ rfl
    exact absurd noTrace.memory (List.cons_ne_nil _ _)
  · decide

end Importing

end ClashVerge.Profiles
