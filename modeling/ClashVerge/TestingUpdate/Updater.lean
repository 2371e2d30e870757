import ClashVerge.Library.Transition
import ClashVerge.TestingUpdate.Manifest

/-!
# The updater of the testing releases

`check` fetches a manifest and keeps it when it announces a newer release; `download` fetches the
installer it names, chunk by chunk, into a partial file and renames this once length and digest are
right. A lock admits one operation at a time and turns the others away. The state can be read at any
moment, so every assignment to it is a step.

A step carries what the server, the network and the file system answer. The manifest of a release
and the folder of the downloads are those the operation finds; what a failed write leaves in the
partial file is open.
-/

namespace ClashVerge.TestingUpdate

/-- `UpdateState::phase`. -/
inductive Phase where
  | idle
  | available
  | current
  | unpublished
  | downloading
  | downloaded
  | error
deriving DecidableEq, Repr

structure UpdateState where
  phase : Phase
  version : Option String
  received : Nat
  total : Option Nat
  path : Option String
  error : Option String
deriving DecidableEq, Repr

protected def UpdateState.default : UpdateState := ⟨.idle, none, 0, none, none, none⟩

def UpdateState.fail (state : UpdateState) (error : String) : UpdateState :=
  { state with phase := .error, error := some error }

structure Folder where
  present : Bool
  files : String → Option (List UInt8)
  empty : present = false → ∀ name, files name = none

namespace Folder

def create (folder : Folder) : Folder := ⟨true, folder.files, nofun⟩

def write (folder : Folder) (name : String) (content : List UInt8) : Folder :=
  ⟨true, Function.update folder.files name (some content), nofun⟩

/-- `write_all` at the end of a file. -/
def append (folder : Folder) (name : String) (bytes : List UInt8) : Folder :=
  folder.write name ((folder.files name).getD [] ++ bytes)

def remove (folder : Folder) (name : String) : Folder where
  present := folder.present
  files := Function.update folder.files name none
  empty missing other := by
    by_cases same : other = name
    · rw [same, Function.update_self]
    · rw [Function.update_of_ne same, folder.empty missing other]

def rename (folder : Folder) (name newName : String) : Folder :=
  ⟨true, Function.update (Function.update folder.files newName (folder.files name)) name none,
    nofun⟩

theorem write_same (folder : Folder) (name : String) (content : List UInt8) :
    (folder.write name content).files name = some content :=
  Function.update_self ..

theorem write_other (folder : Folder) {name other : String} (content : List UInt8)
    (different : other ≠ name) : (folder.write name content).files other = folder.files other :=
  Function.update_of_ne different ..

theorem remove_same (folder : Folder) (name : String) : (folder.remove name).files name = none :=
  Function.update_self ..

theorem remove_other (folder : Folder) {name other : String} (different : other ≠ name) :
    (folder.remove name).files other = folder.files other :=
  Function.update_of_ne different ..

theorem rename_new (folder : Folder) {name newName : String} (different : newName ≠ name) :
    (folder.rename name newName).files newName = folder.files name :=
  (Function.update_of_ne different ..).trans (Function.update_self ..)

end Folder

structure Call where
  manifest : Manifest
  version : String
  directory : String
  before : Folder

/-- What a download does next. -/
inductive Position where
  | requesting
  | creating (total : Option Nat)
  | streaming (total : Option Nat) (received : List UInt8)
  | renaming (received : List UInt8)
  | publishing (received : List UInt8)
  | removing (error : String)
  | failing (error : String) (refused : Bool)

inductive Operation where
  | checking
  | checked (result : Except String UpdateState)
  | downloading (call : Call) (position : Position)

/-- `TestingUpdater` with the folder; `arrived` records what the last completed download
received. -/
structure Updater where
  operation : Option Operation
  manifest : Option Manifest
  state : UpdateState
  folder : Folder
  arrived : List UInt8

def Updater.start (folder : Folder) : Updater := ⟨none, none, .default, folder, []⟩

structure ManifestResponse where
  contentLength : Option Nat
  /-- The length of the body and what the JSON parser makes of it. -/
  body : Except String (Nat × Except String Manifest)

/-- One step of an operation, with the answers it gets from outside. A failed write says what
the partial file holds afterwards. -/
inductive Action where
  | check
  | manifestAnswered (answer : Except String ManifestResponse)
  | checkDone
  | download (createDirAll : Except String Unit)
  | answered (answer : Except String (Option Nat))
  | created (outcome : Except String Unit)
  | chunk (bytes : List UInt8) (written : Except (String × List UInt8) Unit)
  | broken (error : String)
  | finished (synced : Except String Unit)
  | renamed (outcome : Except String Unit)
  | published
  | removed (outcome : Except String Unit)
  | failed

section
variable (platform : Platform)

def checkManifest (answer : Except String ManifestResponse) :
    Except String (UpdateState × Option Manifest) := do
  let response ← answer
  ensure (response.contentLength.getD 0 ≤ 16 * 1024) "update manifest too large"
  let (length, parsed) ← response.body
  ensure (length ≤ 16 * 1024) "update manifest too large"
  let manifest ← parsed
  let newer ← validate platform manifest
  let phase := if newer then .available else if manifest.available then .current else .unpublished
  return ({ UpdateState.default with phase := phase, version := manifest.version },
    if newer then some manifest else none)

def downloadDir : Except String String := platform.appHomeDir.map (· ++ "/updates")

/-- `create_dir_all`, which succeeds for a directory that exists. -/
def createDirAll (folder : Folder) (outcome : Except String Unit) : Except String Folder :=
  if folder.present then .ok folder else outcome.map fun _ => folder.create

/-- `download` up to its first request: the folder is created and the names are fixed. -/
def prepare (updater : Updater) (outcome : Except String Unit) : Except String (Call × Folder) := do
  let manifest ← context "check for an available update first" updater.manifest
  let newer ← validate platform manifest
  ensure newer "no newer testing version"
  let directory ← downloadDir platform
  let folder ← createDirAll updater.folder outcome
  let version ← context "missing version" manifest.version
  return (⟨manifest, version, directory, updater.folder⟩, folder)

/-- `format!("{byte:02x}")` for each byte. -/
def digestHex (digest : List UInt8) : List Char :=
  digest.flatMap fun byte =>
    [Nat.digitChar (byte.toNat / 16), Nat.digitChar (byte.toNat % 16)]

def hasDigest (manifest : Manifest) (received : List UInt8) : Bool :=
  manifest.sha256.map (fun hash => hash.toList.map Char.toLower) ==
    some (digestHex (platform.sha256 received))

namespace Updater
variable (updater : Updater)

def goOn (call : Call) (position : Position) : Updater :=
  { updater with operation := some (.downloading call position) }

/-- The download leaves the block with an error and goes on to remove its file. -/
def giveUp (call : Call) (error : String) : Updater := updater.goOn call (.removing error)

/-- The request for the installer is answered with a length or without one. -/
def requested (call : Call) (answer : Except String (Option Nat)) : Updater :=
  match context "missing URL" call.manifest.url, answer with
  | .error error, _ | .ok _, .error error => updater.giveUp call error
  | .ok _, .ok total =>
    if total.getD 0 ≤ MAX_INSTALLER_BYTES then
      { updater with
        state :=
          { UpdateState.default with
            phase := .downloading, version := some call.version, total := total }
        operation := some (.downloading call (.creating total)) }
    else updater.giveUp call "installer too large"

/-- `File::create`, which truncates. -/
def fileCreated (call : Call) (total : Option Nat) : Except String Unit → Updater
  | .error error => updater.giveUp call error
  | .ok _ =>
    { updater with
      folder := updater.folder.write (partialName call.version) []
      operation := some (.downloading call (.streaming total [])) }

def chunkArrived (call : Call) (total : Option Nat) (received bytes : List UInt8)
    (written : Except (String × List UInt8) Unit) : Updater :=
  if (received ++ bytes).length ≤ MAX_INSTALLER_BYTES then
    match written with
    | .error (error, content) =>
      { updater.giveUp call error with
        folder := updater.folder.write (partialName call.version) content }
    | .ok _ =>
      { updater with
        folder := updater.folder.append (partialName call.version) bytes
        state := { updater.state with received := (received ++ bytes).length }
        operation := some (.downloading call (.streaming total (received ++ bytes))) }
  else updater.giveUp call "installer too large"

/-- The checks behind the loop. -/
def bodyFinished (call : Call) (total : Option Nat) (received : List UInt8) :
    Except String Unit → Updater
  | .error error => updater.giveUp call error
  | .ok _ =>
    if 0 < received.length && total.all (· == received.length) then
      if hasDigest platform call.manifest received then updater.goOn call (.renaming received)
      else updater.giveUp call "installer SHA-256 mismatch"
    else updater.giveUp call "incomplete installer download"

def fileRenamed (call : Call) (received : List UInt8) : Except String Unit → Updater
  | .error error => updater.giveUp call error
  | .ok _ =>
    { updater with
      folder := updater.folder.rename (partialName call.version) (installerName call.version)
      operation := some (.downloading call (.publishing received)) }

/-- The last assignments of a download that succeeds. -/
def publish (call : Call) (received : List UInt8) : Updater :=
  { updater with
    state :=
      { updater.state with
        phase := .downloaded
        path := some (call.directory ++ "/" ++ installerName call.version) }
    arrived := received
    operation := none }

/-- `remove_file`, whose outcome is ignored. -/
def partialRemoved (call : Call) (error : String) (outcome : Except String Unit) : Updater :=
  match outcome with
  | .ok _ =>
    { updater with
      folder := updater.folder.remove (partialName call.version)
      operation := some (.downloading call (.failing error false)) }
  | .error _ =>
    updater.goOn call
      (.failing error (updater.folder.files (partialName call.version)).isSome)

/-- One step; an operation that finds the lock taken returns and changes nothing. -/
def step (action : Action) : Option Updater :=
  match action, updater.operation with
  | .check, none => some { updater with operation := some .checking }
  | .check, some _ => some updater
  | .manifestAnswered answer, some .checking =>
    match checkManifest platform answer with
    | .ok (state, manifest) =>
      some { updater with manifest := manifest, operation := some (.checked (.ok state)) }
    | .error error => some { updater with operation := some (.checked (.error error)) }
  | .checkDone, some (.checked (.ok state)) =>
    some { updater with state := state, operation := none }
  | .checkDone, some (.checked (.error error)) =>
    some { updater with state := updater.state.fail error, operation := none }
  | .download _, some _ => some updater
  | .download outcome, none =>
    match prepare platform updater outcome with
    | .ok (call, folder) =>
      some { updater with folder := folder, operation := some (.downloading call .requesting) }
    | .error _ => some updater
  | .answered answer, some (.downloading call .requesting) => some (updater.requested call answer)
  | .created outcome, some (.downloading call (.creating total)) =>
    some (updater.fileCreated call total outcome)
  | .chunk bytes written, some (.downloading call (.streaming total received)) =>
    some (updater.chunkArrived call total received bytes written)
  | .broken error, some (.downloading call (.streaming _ _)) => some (updater.giveUp call error)
  | .finished synced, some (.downloading call (.streaming total received)) =>
    some (updater.bodyFinished platform call total received synced)
  | .renamed outcome, some (.downloading call (.renaming received)) =>
    some (updater.fileRenamed call received outcome)
  | .published, some (.downloading call (.publishing received)) =>
    some (updater.publish call received)
  | .removed outcome, some (.downloading call (.removing error)) =>
    some (updater.partialRemoved call error outcome)
  | .failed, some (.downloading _ (.failing error _)) =>
    some { updater with state := updater.state.fail error, operation := none }
  | _, _ => none

end Updater

structure Failure where
  error : String
  version : Option String
  before : Folder
  refused : Bool

/-- The error a download returns in a step, if it does. -/
def downloadFailure (updater : Updater) : Action → Option Failure
  | .download outcome =>
    match updater.operation, prepare platform updater outcome with
    | some _, _ => some ⟨"update operation already running", none, updater.folder, false⟩
    | none, .error error => some ⟨error, none, updater.folder, false⟩
    | none, .ok _ => none
  | .failed =>
    match updater.operation with
    | some (.downloading call (.failing error refused)) =>
      some ⟨error, some call.version, call.before, refused⟩
    | _ => none
  | _ => none

/-- The installer at the path of the state is complete, with the digest of an accepted manifest
whose version is above the running one. -/
def Verified (updater : Updater) : Prop :=
  ∃ manifest version url hash running offered directory,
    validate platform manifest = .ok true ∧
    Accepted platform manifest version url hash running offered ∧
    downloadDir platform = .ok directory ∧
    updater.state.version = some version ∧
    updater.state.path = some (directory ++ "/" ++ installerName version) ∧
    updater.folder.files (installerName version) = some updater.arrived ∧
    updater.state.received = updater.arrived.length ∧
    0 < updater.arrived.length ∧ updater.arrived.length ≤ MAX_INSTALLER_BYTES ∧
    digestHex (platform.sha256 updater.arrived) = hash.toList.map Char.toLower

structure Call.Proper (call : Call) : Prop where
  valid : validate platform call.manifest = .ok true
  versioned : call.manifest.version = some call.version
  located : downloadDir platform = .ok call.directory

/-- Every file but the partial one is as it was when the call was made. -/
def Call.Frame (call : Call) (folder : Folder) : Prop :=
  ∀ name, name ≠ partialName call.version → folder.files name = call.before.files name

/-- The state shows the download with the bytes received so far. -/
def Call.Announced (call : Call) (state : UpdateState) (received : List UInt8) : Prop :=
  state.phase = .downloading ∧ state.version = some call.version ∧
    state.received = received.length ∧ received.length ≤ MAX_INSTALLER_BYTES

/-- How far a download has got at a position. -/
def Call.Reached (call : Call) (updater : Updater) : Position → Prop
  | .requesting => call.Frame updater.folder
  | .creating _ => call.Frame updater.folder ∧ call.Announced updater.state []
  | .streaming _ received =>
    call.Frame updater.folder ∧ call.Announced updater.state received ∧
      updater.folder.files (partialName call.version) = some received
  | .renaming received =>
    call.Frame updater.folder ∧ call.Announced updater.state received ∧
      updater.folder.files (partialName call.version) = some received ∧
      0 < received.length ∧ hasDigest platform call.manifest received
  | .publishing received =>
    call.Announced updater.state received ∧
      updater.folder.files (installerName call.version) = some received ∧
      0 < received.length ∧ hasDigest platform call.manifest received
  | .removing _ => call.Frame updater.folder
  | .failing _ refused =>
    call.Frame updater.folder ∧
      (updater.folder.files (partialName call.version) = none ∨ refused)

/-- What the operation that holds the lock has got to. -/
def Underway (updater : Updater) : Operation → Prop
  | .checking => True
  | .checked (.ok state) => state.phase ≠ .downloaded
  | .checked (.error _) => True
  | .downloading call position => call.Proper platform ∧ call.Reached platform updater position

/-- The manifest kept announces a newer release, a state that says so has a verified installer,
and the operation is where its position says. -/
structure Sound (updater : Updater) : Prop where
  kept : ∀ manifest, updater.manifest = some manifest → validate platform manifest = .ok true
  verified : updater.state.phase = .downloaded → Verified platform updater
  underway : ∀ operation, updater.operation = some operation → Underway platform updater operation

variable {platform}

theorem write_installer (folder : Folder) (version other : String) (content : List UInt8) :
    (folder.write (partialName version) content).files (installerName other) =
      folder.files (installerName other) :=
  folder.write_other content (Ne.symm (partialName_ne_installerName version other))

theorem remove_installer (folder : Folder) (version other : String) :
    (folder.remove (partialName version)).files (installerName other) =
      folder.files (installerName other) :=
  folder.remove_other (Ne.symm (partialName_ne_installerName version other))

theorem Call.Frame.write {call : Call} {folder : Folder} (frame : call.Frame folder)
    (content : List UInt8) : call.Frame (folder.write (partialName call.version) content) :=
  fun name other => (folder.write_other content other).trans (frame name other)

theorem Call.Frame.remove {call : Call} {folder : Folder} (frame : call.Frame folder) :
    call.Frame (folder.remove (partialName call.version)) :=
  fun name other => (folder.remove_other other).trans (frame name other)

theorem Verified.transfer {updater next : Updater} (verified : Verified platform updater)
    (state : next.state = updater.state) (arrived : next.arrived = updater.arrived)
    (installers : ∀ version,
      next.folder.files (installerName version) = updater.folder.files (installerName version)) :
    Verified platform next := by
  obtain ⟨manifest, version, url, hash, running, offered, directory, rest⟩ := verified
  refine ⟨manifest, version, url, hash, running, offered, directory, ?_⟩
  rwa [state, arrived, installers]

namespace Sound
variable {updater : Updater} {call : Call}

section

variable (sound : Sound platform updater)
include sound

/-- A step of a download keeps the manifest; it keeps the state and the installers as well, or
the state does not show an installer. -/
theorem of_downloading {next : Updater} {position : Position}
    (proper : call.Proper platform) (manifest : next.manifest = updater.manifest)
    (operation : next.operation = some (.downloading call position))
    (reached : call.Reached platform next position)
    (state : next.state.phase = .downloaded → next.state = updater.state ∧
      next.arrived = updater.arrived ∧ ∀ version,
        next.folder.files (installerName version) = updater.folder.files (installerName version)) :
    Sound platform next := by
  refine ⟨manifest ▸ sound.kept, fun downloaded => ?_, fun other same => ?_⟩
  · obtain ⟨same, arrived, installers⟩ := state downloaded
    exact (sound.verified (same ▸ downloaded)).transfer same arrived installers
  · obtain rfl := Option.some.inj (operation.symm.trans same)
    exact ⟨proper, reached⟩

theorem goOn (proper : call.Proper platform) {position : Position}
    (reached : call.Reached platform (updater.goOn call position) position) :
    Sound platform (updater.goOn call position) :=
  sound.of_downloading proper rfl rfl reached fun _ => ⟨rfl, rfl, fun _ => rfl⟩

theorem giveUp (proper : call.Proper platform)
    (frame : call.Frame updater.folder) (error : String) :
    Sound platform (updater.giveUp call error) :=
  sound.goOn proper frame

theorem requested (proper : call.Proper platform)
    (frame : call.Frame updater.folder) (answer : Except String (Option Nat)) :
    Sound platform (updater.requested call answer) := by
  unfold Updater.requested
  split
  · exact sound.giveUp proper frame _
  · exact sound.giveUp proper frame _
  · split
    · refine sound.of_downloading proper rfl rfl ⟨frame, rfl, rfl, rfl, Nat.zero_le _⟩ ?_
      exact fun impossible => nomatch impossible
    · exact sound.giveUp proper frame _

theorem fileCreated (proper : call.Proper platform)
    {total : Option Nat} (reached : call.Reached platform updater (.creating total))
    (outcome : Except String Unit) : Sound platform (updater.fileCreated call total outcome) := by
  obtain ⟨frame, announced⟩ := reached
  cases outcome with
  | error error => exact sound.giveUp proper frame error
  | ok _ =>
    refine sound.of_downloading proper rfl rfl
      ⟨frame.write [], announced, updater.folder.write_same _ _⟩ fun downloaded => ?_
    exact absurd (announced.1.symm.trans downloaded) (by decide)

end

variable {received : List UInt8}

section

variable (sound : Sound platform updater)
include sound

section

variable (proper : call.Proper platform)
include proper

theorem chunkArrived {total : Option Nat}
    (reached : call.Reached platform updater (.streaming total received)) (bytes : List UInt8)
    (written : Except (String × List UInt8) Unit) :
    Sound platform (updater.chunkArrived call total received bytes written) := by
  obtain ⟨frame, announced, content⟩ := reached
  unfold Updater.chunkArrived
  split
  · rename_i small
    split
    · rename_i error left
      exact sound.of_downloading proper rfl rfl (frame.write left) fun _ =>
        ⟨rfl, rfl, fun version => write_installer updater.folder call.version version left⟩
    · refine sound.of_downloading proper rfl rfl
        ⟨frame.write _, ⟨announced.1, announced.2.1, rfl, small⟩, ?_⟩ fun downloaded => ?_
      · exact (updater.folder.write_same _ _).trans (by rw [content]; rfl)
      · exact absurd (announced.1.symm.trans downloaded) (by decide)
  · exact sound.giveUp proper frame _

theorem bodyFinished {total : Option Nat}
    (reached : call.Reached platform updater (.streaming total received))
    (synced : Except String Unit) :
    Sound platform (updater.bodyFinished platform call total received synced) := by
  obtain ⟨frame, announced, content⟩ := reached
  cases synced with
  | error error => exact sound.giveUp proper frame error
  | ok _ =>
    by_cases complete : (0 < received.length && total.all (· == received.length)) = true
    · by_cases digest : hasDigest platform call.manifest received = true
      · simp only [Updater.bodyFinished, if_pos complete, if_pos digest]
        simp only [Bool.and_eq_true, decide_eq_true_eq] at complete
        exact sound.goOn proper ⟨frame, announced, content, complete.1, digest⟩
      · simp only [Updater.bodyFinished, if_pos complete, if_neg digest]
        exact sound.giveUp proper frame _
    · simp only [Updater.bodyFinished, if_neg complete]
      exact sound.giveUp proper frame _

theorem fileRenamed (reached : call.Reached platform updater (.renaming received))
    (outcome : Except String Unit) : Sound platform (updater.fileRenamed call received outcome) := by
  obtain ⟨frame, announced, content, nonempty, digest⟩ := reached
  cases outcome with
  | error error => exact sound.giveUp proper frame error
  | ok _ =>
    refine sound.of_downloading proper rfl rfl ⟨announced, ?_, nonempty, digest⟩
      fun downloaded => absurd (announced.1.symm.trans downloaded) (by decide)
    have other := Ne.symm (partialName_ne_installerName call.version call.version)
    exact (updater.folder.rename_new other).trans content

theorem publish (reached : call.Reached platform updater (.publishing received)) :
    Sound platform (updater.publish call received) := by
  obtain ⟨announced, content, nonempty, digest⟩ := reached
  refine ⟨sound.kept, fun _ => ?_, fun _ impossible => nomatch impossible⟩
  obtain ⟨version, url, hash, running, offered, accepted⟩ := validate_accepted proper.valid
  obtain rfl : version = call.version :=
    Option.some.inj (accepted.versioned.symm.trans proper.versioned)
  refine ⟨call.manifest, _, url, hash, running, offered, call.directory, proper.valid, accepted,
    proper.located, announced.2.1, rfl, content, announced.2.2.1, nonempty, announced.2.2.2, ?_⟩
  simp only [hasDigest, accepted.hashed, Option.map_some, beq_iff_eq, Option.some.injEq] at digest
  exact digest.symm

theorem partialRemoved
    (frame : call.Frame updater.folder) (error : String) (outcome : Except String Unit) :
    Sound platform (updater.partialRemoved call error outcome) := by
  cases outcome with
  | ok _ =>
    exact sound.of_downloading proper rfl rfl ⟨frame.remove, .inl (updater.folder.remove_same _)⟩
      fun _ => ⟨rfl, rfl, fun version => remove_installer updater.folder call.version version⟩
  | error _ =>
    refine sound.goOn proper ⟨frame, ?_⟩
    cases left : updater.folder.files (partialName call.version) with
    | none => exact .inl left
    | some content => exact .inr rfl

end

theorem done {state : UpdateState} (other : state.phase ≠ .downloaded) :
    Sound platform { updater with state := state, operation := none } :=
  ⟨sound.kept, fun downloaded => absurd downloaded other, fun _ impossible => nomatch impossible⟩

theorem prepare_proper {outcome : Except String Unit}
    {folder : Folder} (prepared : prepare platform updater outcome = .ok (call, folder)) :
    call.Proper platform ∧ call.before = updater.folder ∧ folder.files = updater.folder.files := by
  simp only [prepare, bind_eq_ok_iff, context_eq_ok_iff, pure, Except.pure, Except.ok.injEq,
    Prod.mk.injEq] at prepared
  obtain ⟨manifest, kept, newer, -, -, -, directory, located, created, made, version, versioned,
    rfl, rfl⟩ := prepared
  refine ⟨⟨sound.kept manifest kept, versioned, located⟩, rfl, ?_⟩
  unfold createDirAll at made
  split at made
  · rw [← Except.ok.inj made]
  · cases outcome with
    | error error => cases made
    | ok _ =>
      rw [← Except.ok.inj made]
      rfl

end

theorem checkManifest_kept {answer : Except String ManifestResponse} {state : UpdateState}
    {manifest : Option Manifest} (checked : checkManifest platform answer = .ok (state, manifest)) :
    state.phase ≠ .downloaded ∧
      ∀ kept, manifest = some kept → validate platform kept = .ok true := by
  simp only [checkManifest, bind_eq_ok_iff, pure, Except.pure, Except.ok.injEq,
    Prod.mk.injEq] at checked
  obtain ⟨response, -, -, -, ⟨length, parsed⟩, -, -, -, found, -, newer, valid, rfl, rfl⟩ :=
    checked
  cases newer with
  | true => exact ⟨nofun, fun kept same => Option.some.inj same ▸ valid⟩
  | false =>
    refine ⟨?_, fun kept impossible => nomatch impossible⟩
    cases found.available <;> exact nofun

theorem step {next : Updater} {action : Action} (sound : Sound platform updater)
    (taken : updater.step platform action = some next) : Sound platform next := by
  have underway := sound.underway
  unfold Updater.step at taken
  split at taken
  case h_1 =>
    cases taken
    exact ⟨sound.kept, sound.verified, fun _ same => Option.some.inj same ▸ trivial⟩
  case h_2 => exact Option.some.inj taken ▸ sound
  case h_3 =>
    split at taken <;> cases taken
    · rename_i checked
      obtain ⟨other, kept⟩ := checkManifest_kept checked
      exact ⟨kept, sound.verified, fun _ same => Option.some.inj same ▸ other⟩
    · exact ⟨sound.kept, sound.verified, fun _ same => Option.some.inj same ▸ trivial⟩
  case h_4 operation =>
    cases taken
    exact sound.done (underway _ operation)
  case h_5 =>
    cases taken
    exact sound.done nofun
  case h_6 => exact Option.some.inj taken ▸ sound
  case h_7 =>
    split at taken
    · rename_i prepared
      cases taken
      obtain ⟨proper, before, files⟩ := sound.prepare_proper prepared
      refine sound.of_downloading proper rfl rfl (fun name _ => ?_)
        fun _ => ⟨rfl, rfl, fun version => congrFun files _⟩
      rw [before]
      exact congrFun files name
    · exact Option.some.inj taken ▸ sound
  case h_8 operation =>
    obtain ⟨proper, frame⟩ := underway _ operation
    exact Option.some.inj taken ▸ sound.requested proper frame _
  case h_9 operation =>
    obtain ⟨proper, reached⟩ := underway _ operation
    exact Option.some.inj taken ▸ sound.fileCreated proper reached _
  case h_10 operation =>
    obtain ⟨proper, reached⟩ := underway _ operation
    exact Option.some.inj taken ▸ sound.chunkArrived proper reached _ _
  case h_11 operation =>
    obtain ⟨proper, reached⟩ := underway _ operation
    exact Option.some.inj taken ▸ sound.giveUp proper reached.1 _
  case h_12 operation =>
    obtain ⟨proper, reached⟩ := underway _ operation
    exact Option.some.inj taken ▸ sound.bodyFinished proper reached _
  case h_13 operation =>
    obtain ⟨proper, reached⟩ := underway _ operation
    exact Option.some.inj taken ▸ sound.fileRenamed proper reached _
  case h_14 operation =>
    obtain ⟨proper, reached⟩ := underway _ operation
    exact Option.some.inj taken ▸ sound.publish proper reached
  case h_15 operation =>
    obtain ⟨proper, frame⟩ := underway _ operation
    exact Option.some.inj taken ▸ sound.partialRemoved proper frame _ _
  case h_16 =>
    cases taken
    exact sound.done nofun
  case h_17 => cases taken

theorem start (folder : Folder) : Sound platform (.start folder) := by
  constructor <;> intros <;> contradiction

end Sound

variable (platform) in
/-- A process that has started with some folder can get here. -/
def Reaches (updater : Updater) : Prop :=
  ∃ folder, Transition.Reachable (Updater.step platform) (.start folder) updater

theorem Reaches.sound {updater : Updater} (reached : Reaches platform updater) :
    Sound platform updater := by
  obtain ⟨folder, reached⟩ := reached
  exact reached.invariant (.start folder) fun _ _ _ sound taken => sound.step taken

/-- What a download that returns an error leaves behind. -/
structure Clean (failure : Failure) (updater next : Updater) : Prop where
  unannounced : next.state.phase = .downloaded → next.state = updater.state
  installers : ∀ version,
    next.folder.files (installerName version) = failure.before.files (installerName version)
  unfinished : ∀ version, failure.version = some version →
    next.folder.files (partialName version) = none ∨ failure.refused
  early : failure.version = none → next = updater

/-- A download that fails leaves no partial file, unless the system keeps it, and no installer
is touched. One that fails before it names its file changes nothing at all. -/
theorem downloadFailure_clean {updater next : Updater} {action : Action} {failure : Failure}
    (sound : Sound platform updater) (taken : updater.step platform action = some next)
    (failed : downloadFailure platform updater action = some failure) :
    Clean failure updater next := by
  unfold downloadFailure at failed
  split at failed
  · rename_i outcome
    cases operation : updater.operation with
    | some holder =>
      simp only [operation, Option.some.injEq] at failed
      simp only [Updater.step, operation, Option.some.injEq] at taken
      subst failed taken
      exact ⟨fun _ => rfl, fun _ => rfl, nofun, fun _ => rfl⟩
    | none =>
      cases prepared : prepare platform updater outcome with
      | ok call => simp [operation, prepared] at failed
      | error error =>
        simp only [operation, prepared, Option.some.injEq] at failed
        simp only [Updater.step, operation, prepared, Option.some.injEq] at taken
        subst failed taken
        exact ⟨fun _ => rfl, fun _ => rfl, nofun, fun _ => rfl⟩
  · split at failed
    · rename_i call error refused operation
      cases failed
      simp only [Updater.step, operation, Option.some.injEq] at taken
      subst taken
      obtain ⟨-, frame, gone⟩ := sound.underway _ operation
      refine ⟨nofun, fun version => ?_, fun version same => ?_, nofun⟩
      · exact frame _ (Ne.symm (partialName_ne_installerName call.version version))
      · cases same
        exact gone
    · cases failed
  · cases failed

theorem requested_phase (updater : Updater) (call : Call) (answer : Except String (Option Nat)) :
    (updater.requested call answer).state = updater.state ∨
      (updater.requested call answer).state.phase = .downloading := by
  unfold Updater.requested
  split
  · exact .inl rfl
  · exact .inl rfl
  · split
    · exact .inr rfl
    · exact .inl rfl

theorem chunkArrived_phase (updater : Updater) (call : Call) (total : Option Nat)
    (received bytes : List UInt8) (written : Except (String × List UInt8) Unit) :
    (updater.chunkArrived call total received bytes written).state.phase = updater.state.phase := by
  unfold Updater.chunkArrived
  split
  · split <;> rfl
  · rfl

theorem bodyFinished_state (updater : Updater) (call : Call) (total : Option Nat)
    (received : List UInt8) (synced : Except String Unit) :
    (updater.bodyFinished platform call total received synced).state = updater.state := by
  cases synced with
  | error error => rfl
  | ok _ =>
    simp only [Updater.bodyFinished]
    split
    · split <;> rfl
    · rfl

theorem downloaded_of_step {updater next : Updater} {action : Action}
    (sound : Sound platform updater) (taken : updater.step platform action = some next)
    (downloaded : next.state.phase = .downloaded) :
    next.state = updater.state ∨ ∃ call received,
      updater.operation = some (.downloading call (.publishing received)) ∧
        next = updater.publish call received := by
  have underway := sound.underway
  unfold Updater.step at taken
  split at taken
  case h_1 => exact .inl (Option.some.inj taken ▸ rfl)
  case h_2 => exact .inl (Option.some.inj taken ▸ rfl)
  case h_3 => split at taken <;> exact .inl (Option.some.inj taken ▸ rfl)
  case h_4 operation =>
    cases taken
    exact absurd downloaded (underway _ operation)
  case h_5 =>
    cases taken
    cases downloaded
  case h_6 => exact .inl (Option.some.inj taken ▸ rfl)
  case h_7 => split at taken <;> exact .inl (Option.some.inj taken ▸ rfl)
  case h_8 call operation =>
    cases taken
    rcases requested_phase updater call _ with same | announced
    · exact .inl same
    · cases announced.symm.trans downloaded
  case h_9 outcome call total operation =>
    cases outcome <;> exact .inl (Option.some.inj taken ▸ rfl)
  case h_10 operation =>
    cases taken
    rw [chunkArrived_phase, (underway _ operation).2.2.1.1] at downloaded
    cases downloaded
  case h_11 => exact .inl (Option.some.inj taken ▸ rfl)
  case h_12 => exact .inl (Option.some.inj taken ▸ bodyFinished_state ..)
  case h_13 outcome call received operation =>
    cases outcome <;> exact .inl (Option.some.inj taken ▸ rfl)
  case h_14 operation => exact .inr ⟨_, _, operation, (Option.some.inj taken).symm⟩
  case h_15 outcome call error operation =>
    cases outcome <;> exact .inl (Option.some.inj taken ▸ rfl)
  case h_16 =>
    cases taken
    cases downloaded
  case h_17 => cases taken

variable (platform)

/-- Whatever the server, the network and the file system do: a state that shows an installer has a
verified one of a newer version, and comes to show one only where a download succeeds; a download
that fails removes its partial file and leaves the installers; and versions are ordered totally. -/
theorem only_verified_installers :
    (∀ updater, Reaches platform updater → updater.state.phase = .downloaded →
      Verified platform updater) ∧
    (∀ updater action next, Reaches platform updater →
      updater.step platform action = some next →
        (next.state.phase = .downloaded → next.state = updater.state ∨ ∃ call received,
          updater.operation = some (.downloading call (.publishing received)) ∧
            next = updater.publish call received) ∧
        ∀ failure, downloadFailure platform updater action = some failure →
          Clean failure updater next) ∧
    (∀ a : TestVersion, ¬ a < a) ∧ (∀ a b c : TestVersion, a < b → b < c → a < c) ∧
    (∀ a b : TestVersion, a < b ∨ a = b ∨ b < a) ∧
    ∀ version parsed, testVersion version = .ok parsed →
      StaysInside (installerName version) ∧ StaysInside (partialName version) := by
  refine ⟨fun updater reached => reached.sound.verified,
    fun updater action next reached taken => ⟨downloaded_of_step reached.sound taken,
      fun failure failed => downloadFailure_clean reached.sound taken failed⟩,
    TestVersion.lt_irrefl, fun _ _ _ => TestVersion.lt_trans, TestVersion.lt_trichotomy,
    fun version parsed => names_stayInside⟩

end

def zeroDigest : Platform where
  packageVersion := "0.1.0-test.4"
  appHomeDir := .ok "/home"
  parseUrl url := .ok ⟨url, ""⟩
  sha256 _ := List.replicate 32 0

def fifthRelease : Manifest where
  schemaVersion := 1
  target := "windows-x64-internal-test"
  available := true
  version := some "0.1.0-test.5"
  url := some (DOWNLOAD_PREFIX ++ "5/installer.exe")
  sha256 := some (String.ofList (List.replicate 64 '0'))
  sourceCommit := some (String.ofList (List.replicate 40 'b'))

def fifthDownload : List Action :=
  [.check, .manifestAnswered (.ok ⟨none, .ok (400, .ok fifthRelease)⟩), .checkDone,
    .download (.ok ()), .answered (.ok (some 3)), .created (.ok ()), .chunk [1, 2] (.ok ()),
    .chunk [3] (.ok ()), .finished (.ok ()), .renamed (.ok ()), .published]

theorem fifth_release_verified :
    ∃ updater, Reaches zeroDigest updater ∧ updater.arrived = [1, 2, 3] ∧
      Verified zeroDigest updater := by
  have ends :
      (Transition.run (Updater.step zeroDigest)
        (.start ⟨false, fun _ => none, fun _ _ => rfl⟩) fifthDownload).map
          (fun updater => (updater.arrived, updater.state.phase)) =
        some ([1, 2, 3], .downloaded) := by decide +kernel
  obtain ⟨updater, ran, shown⟩ := Option.map_eq_some_iff.mp ends
  obtain ⟨arrived, phase⟩ := Prod.mk.inj shown
  have reached : Reaches zeroDigest updater := ⟨_, fifthDownload, ran⟩
  exact ⟨updater, reached, arrived, (only_verified_installers zeroDigest).1 updater reached phase⟩

end ClashVerge.TestingUpdate
