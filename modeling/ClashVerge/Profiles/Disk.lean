import ClashVerge.Config.Update
import ClashVerge.Profiles.Store

/-!
# Profile operations and the disk

The operations on the profile store run inside `with_data_modify` and write while they run: the text
of a profile, `profiles.yaml`, the removal of deleted files. How each write ends is an argument. A
text is written in place, so a failed write may leave part of it; `profiles.yaml` is replaced by a
rename.

`run` is what the body of an operation does to the disk and what it returns. `Spares` says when it
leaves the disk as it found it.
-/

namespace ClashVerge.Profiles

open ClashVerge.Verge

/-- `profiles.yaml` as the store it holds, and the texts in the directory of the profiles. -/
structure Disk where
  profilesYaml : Option IProfiles
  files : String → Option String

/-- How writing a text in place ends. A failed write may have left something else in the file. -/
inductive WriteOutcome where
  | written
  | failed (error : String) (left : Option String)

/-- What `profiles.yaml` keeps of a store: the texts of the items are skipped. -/
def IProfiles.saved (profiles : IProfiles) : IProfiles where
  current := profiles.current
  items := profiles.items.map fun items => items.map ({ · with fileData := none })

namespace Disk

variable (disk : Disk)

def setFile (file text : String) : Disk :=
  { disk with files := Function.update disk.files file (some text) }

def removeFile (file : String) : Disk := { disk with files := Function.update disk.files file none }

/-- `fs::write` below the directory of the profiles. -/
def writeFile (file text : String) : WriteOutcome → Except String Unit × Disk
  | .written => (.ok (), disk.setFile file text)
  | .failed error none => (.error error, disk)
  | .failed error (some left) => (.error error, disk.setFile file left)

def saveFile (profiles : IProfiles) : Except String Unit → Except String Unit × Disk
  | .ok () => (.ok (), { disk with profilesYaml := some profiles.saved })
  | .error error => (.error error, disk)

/-- `ProfileDeletePlan::cleanup`, which skips the files it cannot remove. -/
def cleanup (removable : String → Bool) (files : List String) : Disk :=
  files.foldl (fun disk file => if removable file then disk.removeFile file else disk) disk

def Holds (file text : String) : Prop := disk.files file = some text

/-- `profiles.yaml` holds the store. -/
def Stores (profiles : IProfiles) : Prop := disk.profilesYaml = some profiles.saved

end Disk

/-- How `update_config_forced_with_profiles` ends before it saves the candidate store. -/
inductive ForcedUpdate where
  | refused (outcome : Config.ValidationOutcome)
  | failed (error : String)
  | applied

inductive Operation where
  | append (item : PrfItem) (write : WriteOutcome)
  | patch (uid : String) (item : PrfItem) (save : Except String Unit)
  | reorder (activeId overId : String) (save : Except String Unit)
  | saveFile (save : Except String Unit)
  | update (uid : String) (item : PrfItem) (write : WriteOutcome) (save : Except String Unit)
  | delete (uid : String) (forced : ForcedUpdate) (save : Except String Unit)
      (removable : String → Bool)
  | activate (current : String)

/-- The store to commit and what the command reports, or the error with which `with_data_modify`
ends. -/
abbrev Returned : Type := Except String (IProfiles × Except String Unit)

namespace Operation

/-- `append_item`. -/
def runAppend (item : PrfItem) (write : WriteOutcome) (profiles : IProfiles) (disk : Disk) :
    Returned × Disk :=
  match item.uid, item.fileData, item.file with
  | none, _, _ => (.error "the uid should not be null", disk)
  | some _, none, _ => (.ok (profiles.pushItem item, .ok ()), disk)
  | some _, some _, none => (.error "the file should not be null", disk)
  | some _, some text, some file =>
    match disk.writeFile file text write with
    | (.error _, left) => (.error ("failed to write to file \"" ++ file ++ "\""), left)
    | (.ok (), left) => (.ok (profiles.pushItem { item with fileData := none }, .ok ()), left)

/-- The end of an operation that saves its store. -/
def runSave (profiles : IProfiles) (save : Except String Unit) (disk : Disk) : Returned × Disk :=
  match disk.saveFile profiles save with
  | (.error error, left) => (.error error, left)
  | (.ok (), left) => (.ok (profiles, .ok ()), left)

/-- `patch_item`. -/
def runPatch (os : Os) (uid : String) (item : PrfItem) (save : Except String Unit)
    (profiles : IProfiles) (disk : Disk) : Returned × Disk :=
  match profiles.patchItem os uid item with
  | .error error => (.error error, disk)
  | .ok patched => runSave patched save disk

def runReorder (activeId overId : String) (save : Except String Unit) (profiles : IProfiles)
    (disk : Disk) : Returned × Disk :=
  match profiles.moveItem activeId overId with
  | none => (.ok (profiles, .ok ()), disk)
  | some moved => runSave moved save disk

/-- `update_item`. -/
def runUpdate (uid : String) (item : PrfItem) (write : WriteOutcome) (save : Except String Unit)
    (profiles : IProfiles) (disk : Disk) : Returned × Disk :=
  match profiles.getItem uid with
  | .error error => (.error error, disk)
  | .ok each =>
    let updated := { profiles with
      items := some (modifyItem profiles.list uid (IProfiles.updatedItem · item uid)) }
    match item.fileData with
    | none => runSave updated save disk
    | some text =>
      match disk.writeFile (IProfiles.refreshedFile each item uid) text write with
      | (.error _, left) =>
        (.error ("failed to write to file \"" ++ IProfiles.refreshedFile each item uid ++ "\""), left)
      | (.ok (), left) => runSave updated save left

/-- The body of `delete_profile`. Deleting the current profile updates the core first; a refused
update keeps the store. -/
def runDelete (uid : String) (forced : ForcedUpdate) (save : Except String Unit)
    (removable : String → Bool) (profiles : IProfiles) (disk : Disk) : Returned × Disk :=
  match profiles.planDeleteItem uid with
  | .error error => (.error error, disk)
  | .ok (shouldUpdate, files, candidate) =>
    match shouldUpdate, forced with
    | true, .refused outcome => (.ok (profiles, .error outcome.display), disk)
    | true, .failed error => (.error error, disk)
    | _, _ =>
      match disk.saveFile candidate save with
      | (.error error, left) => (.error error, left)
      | (.ok (), left) => (.ok (candidate, .ok ()), left.cleanup removable files)

/-- The body of an operation: what it returns for a snapshot of the store, and the disk it leaves. -/
def run (os : Os) (operation : Operation) (profiles : IProfiles) (disk : Disk) : Returned × Disk :=
  match operation with
  | .append item write => runAppend item write profiles disk
  | .patch uid item save => runPatch os uid item save profiles disk
  | .reorder activeId overId save => runReorder activeId overId save profiles disk
  | .saveFile save => runSave profiles save disk
  | .update uid item write save => runUpdate uid item write save profiles disk
  | .delete uid forced save removable => runDelete uid forced save removable profiles disk
  -- `commit_current_profile`
  | .activate current => (.ok (profiles.patchConfig ⟨some current, none⟩, .ok ()), disk)

end Operation

namespace Disk

variable (disk : Disk)

theorem ext_iff (left right : Disk) :
    left = right ↔ left.profilesYaml = right.profilesYaml ∧ left.files = right.files := by
  cases left
  cases right
  simp

theorem setFile_eq_iff (file text : String) :
    (disk.setFile file text).files = disk.files ↔ disk.Holds file text := by
  simp [setFile, Holds, eq_comm]

theorem saveFile_profilesYaml (profiles : IProfiles) (save : Except String Unit) :
    (disk.saveFile profiles save).2.profilesYaml = disk.profilesYaml ↔
      (save.isOk = true → disk.Stores profiles) := by
  cases save <;> simp [saveFile, Stores, Except.isOk, Except.toBool, eq_comm]

theorem saveFile_files (profiles : IProfiles) (save : Except String Unit) :
    (disk.saveFile profiles save).2.files = disk.files := by
  cases save <;> rfl

theorem cleanup_profilesYaml (removable : String → Bool) (files : List String) :
    (disk.cleanup removable files).profilesYaml = disk.profilesYaml := by
  induction files generalizing disk with
  | nil => rfl
  | cons file rest ih =>
    rw [cleanup, List.foldl_cons, ← cleanup, ih]
    split <;> rfl

theorem cleanup_files (removable : String → Bool) (files : List String) (name : String) :
    (disk.cleanup removable files).files name =
      if name ∈ files ∧ removable name then none else disk.files name := by
  induction files generalizing disk with
  | nil => simp [cleanup]
  | cons file rest ih =>
    rw [cleanup, List.foldl_cons, ← cleanup, ih]
    by_cases same : name = file
    · subst same
      cases removes : removable name <;> simp [removeFile]
    · cases removable file <;> simp [removeFile, same]

end Disk

def WriteOutcome.Spares (write : WriteOutcome) (disk : Disk) (file text : String) : Prop :=
  match write with
  | .written => disk.Holds file text
  | .failed _ none => True
  | .failed _ (some left) => disk.Holds file left

/-- Everything the operation has written when its body ends was on the disk before. -/
def Operation.Spares (os : Os) (operation : Operation) (profiles : IProfiles) (disk : Disk) : Prop :=
  match operation with
  | .append item write => ∀ text file, item.uid.isSome → item.fileData = some text →
      item.file = some file → write.Spares disk file text
  | .patch uid item save => ∀ patched, profiles.patchItem os uid item = .ok patched →
      save.isOk = true → disk.Stores patched
  | .reorder activeId overId save => ∀ moved, profiles.moveItem activeId overId = some moved →
      save.isOk = true → disk.Stores moved
  | .saveFile save => save.isOk = true → disk.Stores profiles
  | .update uid item write save => ∀ each, profiles.getItem uid = .ok each →
      (∀ text, item.fileData = some text →
        write.Spares disk (IProfiles.refreshedFile each item uid) text) ∧
      ((item.fileData.isSome → write = .written) → save.isOk = true →
        disk.Stores { profiles with
          items := some (modifyItem profiles.list uid (IProfiles.updatedItem · item uid)) })
  | .delete uid forced save removable => ∀ shouldUpdate files candidate,
      profiles.planDeleteItem uid = .ok (shouldUpdate, files, candidate) →
      (shouldUpdate = true → forced = .applied) → save.isOk = true →
        disk.Stores candidate ∧ ∀ file ∈ files, removable file = true → disk.files file = none
  | .activate _ => True

namespace Disk

variable (disk : Disk)

theorem writeFile_disk (file text : String) (write : WriteOutcome) :
    (disk.writeFile file text write).2 = disk ↔ write.Spares disk file text := by
  cases write with
  | written => simpa [writeFile, WriteOutcome.Spares, ext_iff, setFile] using disk.setFile_eq_iff file text
  | failed error left =>
    cases left with
    | none => simp [writeFile, WriteOutcome.Spares]
    | some left =>
      simpa [writeFile, WriteOutcome.Spares, ext_iff, setFile] using disk.setFile_eq_iff file left

theorem saveFile_disk (profiles : IProfiles) (save : Except String Unit) :
    (disk.saveFile profiles save).2 = disk ↔ (save.isOk = true → disk.Stores profiles) := by
  rw [ext_iff, saveFile_profilesYaml, saveFile_files]
  simp

end Disk

namespace Operation

theorem runSave_disk (profiles : IProfiles) (save : Except String Unit) (disk : Disk) :
    (runSave profiles save disk).2 = (disk.saveFile profiles save).2 := by
  unfold runSave
  split <;> simp_all

theorem runAppend_disk (item : PrfItem) (write : WriteOutcome) (profiles : IProfiles)
    (disk : Disk) :
    (runAppend item write profiles disk).2 = disk ↔ ∀ text file, item.uid.isSome →
      item.fileData = some text → item.file = some file → write.Spares disk file text := by
  unfold runAppend
  split
  · simp_all
  · simp_all
  · simp_all
  · rename_i uid text file uidIs dataIs fileIs
    simp only [uidIs, dataIs, fileIs, Option.isSome_some, Option.some.injEq, true_imp_iff]
    have written := disk.writeFile_disk file text write
    cases write with
    | written => simpa [Disk.writeFile] using written
    | failed error left => cases left <;> simpa [Disk.writeFile] using written

theorem runUpdate_disk (uid : String) (item : PrfItem) (write : WriteOutcome)
    (save : Except String Unit) (profiles : IProfiles) (disk : Disk) :
    (runUpdate uid item write save profiles disk).2 = disk ↔ ∀ each,
      profiles.getItem uid = .ok each →
      (∀ text, item.fileData = some text →
        write.Spares disk (IProfiles.refreshedFile each item uid) text) ∧
      ((item.fileData.isSome → write = .written) → save.isOk = true →
        disk.Stores { profiles with
          items := some (modifyItem profiles.list uid (IProfiles.updatedItem · item uid)) }) := by
  unfold runUpdate
  cases profiles.getItem uid with
  | error error => simp
  | ok each =>
    cases item.fileData with
    | none => simp [runSave_disk, Disk.saveFile_disk]
    | some text =>
      cases write with
      | failed error left =>
        have failed := disk.writeFile_disk (IProfiles.refreshedFile each item uid) text
          (.failed error left)
        cases left <;> simpa [Disk.writeFile] using failed
      | written =>
        simp only [Disk.writeFile, runSave_disk, Except.ok.injEq, forall_eq']
        rw [Disk.ext_iff, Disk.saveFile_files, Disk.setFile_eq_iff]
        have saved := (disk.setFile (IProfiles.refreshedFile each item uid) text).saveFile_profilesYaml
          { profiles with
            items := some (modifyItem profiles.list uid (IProfiles.updatedItem · item uid)) } save
        change _ ∧ _ ↔ _
        rw [show (disk.setFile (IProfiles.refreshedFile each item uid) text).profilesYaml =
          disk.profilesYaml from rfl] at saved
        simp only [saved, WriteOutcome.Spares, Option.some.injEq, forall_eq']
        simp [and_comm, Disk.Stores, Disk.setFile]

theorem runDelete_disk (uid : String) (forced : ForcedUpdate) (save : Except String Unit)
    (removable : String → Bool) (profiles : IProfiles) (disk : Disk) :
    (runDelete uid forced save removable profiles disk).2 = disk ↔
      ∀ shouldUpdate files candidate,
        profiles.planDeleteItem uid = .ok (shouldUpdate, files, candidate) →
        (shouldUpdate = true → forced = .applied) → save.isOk = true →
          disk.Stores candidate ∧ ∀ file ∈ files, removable file = true → disk.files file = none := by
  unfold runDelete
  cases profiles.planDeleteItem uid with
  | error error => simp
  | ok plan =>
    obtain ⟨shouldUpdate, files, candidate⟩ := plan
    have removes : ((disk.saveFile candidate (.ok ())).2.cleanup removable files) = disk ↔
        disk.Stores candidate ∧ ∀ file ∈ files, removable file = true → disk.files file = none := by
      rw [Disk.ext_iff, Disk.cleanup_profilesYaml, Disk.saveFile_profilesYaml]
      simp only [funext_iff, Disk.cleanup_files, Disk.saveFile_files, Except.isOk, Except.toBool,
        true_imp_iff]
      refine and_congr_right fun _ => ⟨fun same file listed removed => ?_, fun absent name => ?_⟩
      · simpa [listed, removed, eq_comm] using same file
      · split
        · rename_i removed
          exact (absent name removed.1 removed.2).symm
        · rfl
    simp only [Except.ok.injEq, Prod.mk.injEq, and_imp]
    cases save with
    | error error => cases shouldUpdate <;> cases forced <;> simp [Disk.saveFile, Except.isOk,
        Except.toBool]
    | ok done =>
      cases shouldUpdate <;> cases forced <;> simp_all [Disk.saveFile, Except.isOk, Except.toBool]

theorem run_disk (os : Os) (operation : Operation) (profiles : IProfiles) (disk : Disk) :
    (operation.run os profiles disk).2 = disk ↔ operation.Spares os profiles disk := by
  cases operation with
  | append item write => exact runAppend_disk item write profiles disk
  | patch uid item save =>
    simp only [run, Spares, runPatch]
    cases profiles.patchItem os uid item with
    | error error => simp
    | ok patched => simp [runSave_disk, Disk.saveFile_disk]
  | reorder activeId overId save =>
    simp only [run, Spares, runReorder]
    cases profiles.moveItem activeId overId with
    | none => simp
    | some moved => simp [runSave_disk, Disk.saveFile_disk]
  | saveFile save => simp [run, Spares, runSave_disk, Disk.saveFile_disk]
  | update uid item write save => exact runUpdate_disk uid item write save profiles disk
  | delete uid forced save removable => exact runDelete_disk uid forced save removable profiles disk
  | activate current => simp [run, Spares]

variable {profiles store : IProfiles} {reported : Except String Unit} {save : Except String Unit}
  {disk : Disk}

theorem runSave_returned
    (returned : (runSave profiles save disk).1 = .ok (store, reported)) : store = profiles := by
  cases save <;> simp_all [runSave, Disk.saveFile, eq_comm]

/-- A deletion returns the store it started from, or the candidate of its plan, which it does only
after the update that the plan asks for. -/
theorem runDelete_returned {uid : String} {forced : ForcedUpdate} {removable : String → Bool}
    (returned : (runDelete uid forced save removable profiles disk).1 = .ok (store, reported)) :
    store = profiles ∨ ∃ plan, profiles.planDeleteItem uid = .ok plan ∧ store = plan.2.2 ∧
      (plan.1 = true → forced = .applied) := by
  unfold runDelete at returned
  split at returned
  · simp at returned
  · rename_i shouldUpdate files candidate planned
    split at returned
    · simp_all
    · simp at returned
    · split at returned
      · simp at returned
      · obtain rfl : candidate = store := by simp_all
        refine .inr ⟨_, planned, rfl, ?_⟩
        cases forced <;> simp_all

theorem runDelete_succeeded {uid : String} {forced : ForcedUpdate} {removable : String → Bool}
    (returned : (runDelete uid forced save removable profiles disk).1 = .ok (store, .ok ())) :
    ∃ plan, profiles.planDeleteItem uid = .ok plan ∧ store = plan.2.2 := by
  unfold runDelete at returned
  split at returned
  · simp at returned
  · rename_i shouldUpdate files candidate planned
    refine ⟨_, planned, ?_⟩
    split at returned
    · simp at returned
    · simp at returned
    · split at returned <;> simp_all

theorem runUpdate_current {uid : String} {item : PrfItem} {write : WriteOutcome}
    {profiles store : IProfiles}
    (returned : (runUpdate uid item write save profiles disk).1 = .ok (store, reported)) :
    store.current = profiles.current := by
  unfold runUpdate at returned
  split at returned
  · simp at returned
  · dsimp only at returned
    split at returned
    · rw [runSave_returned returned]
    · split at returned
      · simp at returned
      · rw [runSave_returned returned]

theorem runSave_reported
    (returned : (runSave profiles save disk).1 = .ok (store, reported)) : reported = .ok () := by
  cases save <;> simp_all [runSave, Disk.saveFile]

/-- Only a deletion whose update was refused reports a failure without failing; it keeps the store
and writes nothing. -/
theorem run_refused {os : Os} {operation : Operation}
    (returned : (operation.run os profiles disk).1 = .ok (store, reported))
    (fails : reported.isOk = false) : store = profiles ∧ operation.Spares os profiles disk := by
  have impossible : reported ≠ .ok () := by
    rintro rfl
    simp [Except.isOk, Except.toBool] at fails
  cases operation with
  | append item write =>
    simp only [run, runAppend] at returned
    split at returned
    · simp at returned
    · simp_all
    · simp at returned
    · split at returned <;> simp_all
  | patch uid item save =>
    simp only [run, runPatch] at returned
    split at returned
    · simp at returned
    · exact absurd (runSave_reported returned) impossible
  | reorder activeId overId save =>
    simp only [run, runReorder] at returned
    split at returned
    · simp_all
    · exact absurd (runSave_reported returned) impossible
  | saveFile save => exact absurd (runSave_reported returned) impossible
  | update uid item write save =>
    simp only [run, runUpdate] at returned
    split at returned
    · simp at returned
    · split at returned
      · exact absurd (runSave_reported returned) impossible
      · split at returned
        · simp at returned
        · exact absurd (runSave_reported returned) impossible
  | delete uid forced save removable =>
    simp only [run, runDelete] at returned
    simp only [Spares]
    split at returned
    · simp at returned
    · rename_i plan planned
      split at returned
      · simp_all
      · simp at returned
      · split at returned <;> simp_all
  | activate current => simp_all [run]

end Operation

end ClashVerge.Profiles
