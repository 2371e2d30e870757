import ClashVerge.ProxyControl.Guard
import ClashVerge.Runstate.Store

/-!
# The sync of provider caches

The service keeps the caches of remote providers, and the app reads them back. Each cache is read in
chunks into a temporary file beside its target; the files are verified once more and then renamed
onto their targets, under the lifecycle lock. Three loops hand the files to each other, and an exit
in the middle of one removes what it knows of.

What the outside answers is an environment: the replies to the reads, the errors of the file system,
the load times, the session and the committed runtime at the end. A provider is declared once.
Removing a file is taken to succeed. The names of temporary files are numbers, each given out once.
-/

namespace ClashVerge.Service.ProviderSync

open ProxyControl (OwnerSessionProof)
open Runstate (RunningMode)

inductive Section where
  | proxyProviders
  | ruleProviders
deriving DecidableEq

structure RemoteProviderRef where
  section_ : Section
  name : String
  destination : String
  url : String
deriving DecidableEq

abbrev ProviderLoadTimes : Type := Section → String → Option (Option Nat)

abbrev Content : Type := List UInt8

structure Chunk where
  bytes : Except String Content
  len : Nat
  mtime : Option Nat
  settled : Bool
  ioError : Option String

/-- A reply to `read_chunk`. -/
inductive Reply where
  | failed (message : String)
  | sessionLost
  | absent
  | chunk (chunk : Chunk)

inductive Fetch where
  | complete (len : Nat) (mtime : Option Nat)
  | notReady
  | sessionLost
deriving DecidableEq

def emptyChunkText : String := "the service returned an empty chunk before the end of the file"

/-- `fetch_runtime_file`: what has been written, and what came of it. The replies are as many as are
asked for. -/
def fetchRuntimeFile : List Reply → Content → Option (Nat × Option Nat) →
    Content × Except String Fetch
  | [], written, _ => (written, .error "no reply")
  | .failed message :: _, written, _ => (written, .error message)
  | .sessionLost :: _, written, _ => (written, .ok .sessionLost)
  | .absent :: _, written, _ => (written, .ok .notReady)
  | .chunk chunk :: replies, written, identity =>
    if chunk.len = 0 ∨ chunk.settled = false ∨
        identity.getD (chunk.len, chunk.mtime) ≠ (chunk.len, chunk.mtime) then
      (written, .ok .notReady)
    else if written.length = chunk.len then
      match chunk.ioError with
      | some message => (written, .error message)
      | none => (written, .ok (.complete chunk.len chunk.mtime))
    else
      match chunk.bytes with
      | .error message => (written, .error message)
      | .ok bytes =>
        if bytes = [] then (written, .error emptyChunkText)
        else
          match chunk.ioError with
          | some message => (written, .error message)
          | none =>
            if chunk.len < (written ++ bytes).length then (written ++ bytes, .ok .notReady)
            else fetchRuntimeFile replies (written ++ bytes) (some (chunk.len, chunk.mtime))

structure FetchedCache where
  declared : RemoteProviderRef
  temp : Nat
  len : Nat
  mtime : Option Nat
deriving DecidableEq

/-- `recheck_identity`: the end of the file is still its end. -/
def recheckIdentity (len : Nat) (mtime : Option Nat) : Reply → Except String Fetch
  | .failed message => .error message
  | .sessionLost => .ok .sessionLost
  | .absent => .ok .notReady
  | .chunk chunk =>
    match chunk.bytes with
    | .ok [] =>
      if (chunk.len, chunk.mtime) = (len, mtime) then .ok (.complete chunk.len chunk.mtime)
      else .ok .notReady
    | _ => .ok .notReady

/-- `RUNTIME_PROVIDER_SETTLE` in nanoseconds. -/
def settleNanos : Nat := 2000000000

def finishedLoading (mtime updatedAt : Option Nat) : Bool :=
  match mtime, updatedAt with
  | some mtime, some updatedAt => mtime ≤ updatedAt + settleNanos
  | _, _ => true

/-- What the outside answers to a call. -/
structure Environment where
  supportsFileRead : Bool
  credentials : Except String Unit
  session : Except String OwnerSessionProof
  appDir : Except String Unit
  /-- The providers that the committed runtime declares. -/
  declared : Except String (List RemoteProviderRef)
  loadedBefore : Except String ProviderLoadTimes
  /-- The error of `create_sync_temp`. -/
  create : RemoteProviderRef → Option String
  replies : RemoteProviderRef → List Reply
  loadedAfter : Except String ProviderLoadTimes
  recheck : RemoteProviderRef → Reply
  /-- The running mode, the session and the committed runtime when the caches are published. -/
  mode : RunningMode
  currentSession : Except String OwnerSessionProof
  declaredAtEnd : Except String (List RemoteProviderRef)
  /-- Both files could be read to compare them. -/
  comparable : RemoteProviderRef → Bool
  rename : RemoteProviderRef → Option String

structure Temp where
  number : Nat
  content : Content
deriving DecidableEq

/-- The files that a call deals with. -/
structure Disk where
  sequence : Nat
  temps : List Temp
  targets : String → Option Content

namespace Disk

/-- Before a call none of the temporary files is its own. -/
def new (sequence : Nat) (targets : String → Option Content) : Disk := ⟨sequence, [], targets⟩

/-- A temporary file with what is written into it. -/
def createTemp (disk : Disk) (content : Content) : Disk :=
  { disk with
    sequence := disk.sequence + 1
    temps := disk.temps ++ [⟨disk.sequence, content⟩] }

def removeTemp (disk : Disk) (temp : Nat) : Disk :=
  { disk with temps := disk.temps.filter (·.number ≠ temp) }

def discardFetched (disk : Disk) : List FetchedCache → Disk
  | [] => disk
  | cache :: fetched => (disk.removeTemp cache.temp).discardFetched fetched

def contentOf (disk : Disk) (temp : Nat) : Option Content :=
  (disk.temps.find? (·.number = temp)).map (·.content)

def rename (disk : Disk) (temp : Nat) (target : String) : Disk :=
  { disk.removeTemp temp with
    targets := Function.update disk.targets target (disk.contentOf temp) }

end Disk

namespace Environment

variable (environment : Environment)

def fetch (declared : RemoteProviderRef) : Content × Except String Fetch :=
  fetchRuntimeFile (environment.replies declared) [] none

def fetchAll : List RemoteProviderRef → List FetchedCache → Nat → Disk →
    Disk × Except String (List FetchedCache × Nat)
  | [], fetched, pending, disk => (disk, .ok (fetched, pending))
  | declared :: rest, fetched, pending, disk =>
    match environment.create declared with
    | some _ => fetchAll rest fetched (pending + 1) disk
    | none =>
      let temp := disk.sequence
      let created := disk.createTemp (environment.fetch declared).1
      match (environment.fetch declared).2 with
      | .ok (.complete len mtime) =>
        fetchAll rest (fetched ++ [⟨declared, temp, len, mtime⟩]) pending created
      | .ok .notReady => fetchAll rest fetched (pending + 1) (created.removeTemp temp)
      | .ok .sessionLost =>
        ((created.removeTemp temp).discardFetched fetched,
          .error "the service session ended while provider caches were being read")
      | .error _ => fetchAll rest fetched (pending + 1) (created.removeTemp temp)

inductive Verdict where
  | complete
  | incomplete
  | sessionLost
deriving DecidableEq

def verdict (before after : ProviderLoadTimes) (declared : RemoteProviderRef) (len : Nat)
    (mtime : Option Nat) : Verdict :=
  let updatedAt := (after declared.section_ declared.name).join
  if before declared.section_ declared.name = after declared.section_ declared.name ∧
      finishedLoading mtime updatedAt = true then
    match recheckIdentity len mtime (environment.recheck declared) with
    | .ok (.complete _ _) => .complete
    | .ok .notReady => .incomplete
    | .ok .sessionLost => .sessionLost
    | .error _ => .incomplete
  else .incomplete

def verifyAll (before after : ProviderLoadTimes) : List FetchedCache → List FetchedCache → Nat →
    Disk → Disk × Except String (List FetchedCache × Nat)
  | [], ready, pending, disk => (disk, .ok (ready, pending))
  | cache :: fetched, ready, pending, disk =>
    match environment.verdict before after cache.declared cache.len cache.mtime with
    | .complete => verifyAll before after fetched (ready ++ [cache]) pending disk
    | .incomplete => verifyAll before after fetched ready (pending + 1) (disk.removeTemp cache.temp)
    | .sessionLost =>
      ((disk.removeTemp cache.temp).discardFetched ready,
        .error "the service session ended while provider caches were being verified")

def sameContents (disk : Disk) (cache : FetchedCache) : Bool :=
  environment.comparable cache.declared &&
    decide (disk.contentOf cache.temp = disk.targets cache.declared.destination)

def publishAll (declared : List RemoteProviderRef) : List FetchedCache → Nat → Disk → Disk × Nat
  | [], synced, disk => (disk, synced)
  | cache :: fetched, synced, disk =>
    if cache.declared ∉ declared ∨ environment.sameContents disk cache = true then
      publishAll declared fetched synced (disk.removeTemp cache.temp)
    else
      match environment.rename cache.declared with
      | none =>
        publishAll declared fetched (synced + 1)
          (disk.rename cache.temp cache.declared.destination)
      | some _ => publishAll declared fetched synced (disk.removeTemp cache.temp)

def unchanged (session : OwnerSessionProof) : Bool :=
  environment.mode = .service &&
    match environment.currentSession with
    | .ok current => current = session
    | .error _ => false

def publishFetched (session : OwnerSessionProof) (fetched : List FetchedCache) (disk : Disk) :
    Disk × Except String Nat :=
  if environment.unchanged session then
    match environment.declaredAtEnd with
    | .error message => (disk.discardFetched fetched, .error message)
    | .ok declared =>
      let published := environment.publishAll declared fetched 0 disk
      (published.1, .ok published.2)
  else
    let published := environment.publishAll [] fetched 0 disk
    (published.1, .ok published.2)

end Environment

/-- `ProviderSync`. -/
structure Outcome where
  synced : Nat
  pending : Nat
deriving DecidableEq

namespace Environment

variable (environment : Environment)

def publish (session : OwnerSessionProof) (ready : List FetchedCache) (pending : Nat)
    (disk : Disk) : Disk × Except String Outcome :=
  match environment.publishFetched session ready disk with
  | (disk, .error message) => (disk, .error message)
  | (disk, .ok synced) => (disk, .ok ⟨synced, pending⟩)

def verifyAndPublish (session : OwnerSessionProof) (fetched : List FetchedCache) (pending : Nat)
    (disk : Disk) : Disk × Except String Outcome :=
  match environment.loadedBefore, environment.loadedAfter with
  | .ok before, .ok after =>
    match environment.verifyAll before after fetched [] pending disk with
    | (disk, .error message) => (disk, .error message)
    | (disk, .ok (ready, pending)) => environment.publish session ready pending disk
  | _, _ => (disk.discardFetched fetched, .ok ⟨0, pending + fetched.length⟩)

/-- `sync_runtime_providers_by_service`. -/
def sync (disk : Disk) : Disk × Except String Outcome :=
  if environment.supportsFileRead = false then (disk, .ok ⟨0, 0⟩)
  else
    match environment.credentials, environment.session, environment.appDir,
        environment.declared with
    | .error message, _, _, _ => (disk, .error message)
    | .ok _, .error message, _, _ => (disk, .error message)
    | .ok _, .ok _, .error message, _ => (disk, .error message)
    | .ok _, .ok _, .ok _, .error message => (disk, .error message)
    | .ok _, .ok session, .ok _, .ok declared =>
      match environment.fetchAll declared [] 0 disk with
      | (disk, .error message) => (disk, .error message)
      | (disk, .ok (fetched, pending)) =>
        environment.verifyAndPublish session fetched pending disk

end Environment

theorem length_of_complete {replies : List Reply} {written content : Content}
    {identity : Option (Nat × Option Nat)} {len : Nat} {time : Option Nat}
    (fetched : fetchRuntimeFile replies written identity = (content, .ok (.complete len time))) :
    content.length = len := by
  induction replies generalizing written identity with
  | nil => simp [fetchRuntimeFile] at fetched
  | cons reply replies ih =>
    cases reply with
    | failed message | sessionLost | absent => simp [fetchRuntimeFile] at fetched
    | chunk chunk =>
      simp only [fetchRuntimeFile] at fetched
      split at fetched
      · simp at fetched
      · split at fetched
        · rename_i whole
          split at fetched
          · simp at fetched
          · simp only [Prod.mk.injEq, Except.ok.injEq, Fetch.complete.injEq] at fetched
            obtain ⟨rfl, rfl, -⟩ := fetched
            exact whole
        · split at fetched
          · simp at fetched
          · split at fetched
            · simp at fetched
            · split at fetched
              · simp at fetched
              · split at fetched
                · simp at fetched
                · exact ih fetched

theorem identity_of_recheck {len length : Nat} {mtime time : Option Nat} {reply : Reply}
    (checked : recheckIdentity len mtime reply = .ok (.complete length time)) :
    length = len ∧ time = mtime := by
  cases reply with
  | failed message | sessionLost | absent => simp [recheckIdentity] at checked
  | chunk chunk =>
    simp only [recheckIdentity] at checked
    split at checked
    · split at checked
      · rename_i same
        simp only [Except.ok.injEq, Fetch.complete.injEq] at checked
        obtain ⟨rfl, rfl⟩ := checked
        exact Prod.mk.inj same
      · simp at checked
    · simp at checked

namespace Environment

variable (environment : Environment)

def tempOf (cache : FetchedCache) : Temp := ⟨cache.temp, (environment.fetch cache.declared).1⟩

/-- The length and the time of a cache that is fetched. -/
def fetches (declared : RemoteProviderRef) : Option (Nat × Option Nat) :=
  if environment.create declared = none then
    match (environment.fetch declared).2 with
    | .ok (.complete len mtime) => some (len, mtime)
    | _ => none
  else none

/-- The temporary files are those of the given caches, in their order. -/
structure Holds (disk : Disk) (caches : List FetchedCache) : Prop where
  temps : disk.temps = caches.map environment.tempOf
  distinct : (caches.map (·.temp)).Nodup
  below : ∀ cache ∈ caches, cache.temp < disk.sequence
  fetched : ∀ cache ∈ caches, environment.fetches cache.declared = some (cache.len, cache.mtime)

end Environment

variable {environment : Environment} {disk : Disk}

variable {caches : List FetchedCache}

theorem filter_other {temp : Nat} (other : ∀ cache ∈ caches, cache.temp ≠ temp) :
    (caches.map environment.tempOf).filter (·.number ≠ temp) = caches.map environment.tempOf := by
  rw [List.filter_eq_self]
  intro file member
  obtain ⟨cache, inside, rfl⟩ := List.mem_map.mp member
  exact decide_eq_true (other cache inside)

theorem Environment.Holds.of_temps {next : Disk}
    (holds : environment.Holds disk caches) {fewer : List FetchedCache}
    (sublist : fewer.Sublist caches) (temps : next.temps = fewer.map environment.tempOf)
    (sequence : next.sequence = disk.sequence) : environment.Holds next fewer where
  temps := temps
  distinct := holds.distinct.sublist (sublist.map _)
  below cache member := sequence ▸ holds.below cache (sublist.subset member)
  fetched cache member := holds.fetched cache (sublist.subset member)

theorem Environment.Holds.removeTemp {before after : List FetchedCache} {cache : FetchedCache}
    (holds : environment.Holds disk (before ++ cache :: after)) :
    environment.Holds (disk.removeTemp cache.temp) (before ++ after) := by
  have apart := holds.distinct
  rw [List.map_append, List.map_cons, List.nodup_middle, List.nodup_cons] at apart
  have other : ∀ another ∈ before ++ after, another.temp ≠ cache.temp := by
    intro another member same
    refine apart.1 ?_
    rw [← List.map_append, ← same]
    exact List.mem_map_of_mem member
  have shorter : (before ++ after).Sublist (before ++ cache :: after) :=
    List.Sublist.append_left (List.sublist_cons_self _ _) _
  refine Environment.Holds.of_temps holds shorter ?_ rfl
  rw [Disk.removeTemp, holds.temps, List.map_append, List.map_cons, List.filter_append,
    List.filter_cons]
  have gone : decide ((environment.tempOf cache).number ≠ cache.temp) = false := by
    simp [Environment.tempOf]
  rw [if_neg (by rw [gone]; exact Bool.false_ne_true), ← List.filter_append, ← List.map_append]
  exact filter_other other

theorem Environment.Holds.removeFirst {rest : List FetchedCache} {cache : FetchedCache}
    (holds : environment.Holds disk (cache :: rest)) :
    environment.Holds (disk.removeTemp cache.temp) rest := by
  have appended : environment.Holds disk ([] ++ cache :: rest) := holds
  exact appended.removeTemp

theorem Environment.Holds.discardFetched {caches after : List FetchedCache}
    (holds : environment.Holds disk (caches ++ after)) :
    environment.Holds (disk.discardFetched caches) after := by
  induction caches generalizing disk with
  | nil => exact holds
  | cons cache caches ih =>
    exact ih (Environment.Holds.removeFirst holds)

theorem Environment.Holds.discardAll
    (holds : environment.Holds disk caches) : environment.Holds (disk.discardFetched caches) [] := by
  have appended : environment.Holds disk (caches ++ []) := by simpa using holds
  exact appended.discardFetched

@[simp] theorem discardFetched_targets (disk : Disk) (caches : List FetchedCache) :
    (disk.discardFetched caches).targets = disk.targets := by
  induction caches generalizing disk with
  | nil => rfl
  | cons cache caches ih => exact ih (disk.removeTemp cache.temp)

theorem Environment.Holds.createTemp (holds : environment.Holds disk caches)
    {declared : RemoteProviderRef} {len : Nat} {mtime : Option Nat}
    (fetches : environment.fetches declared = some (len, mtime)) :
    environment.Holds (disk.createTemp (environment.fetch declared).1)
      (caches ++ [⟨declared, disk.sequence, len, mtime⟩]) where
  temps := by
    rw [Disk.createTemp, holds.temps, List.map_append]
    rfl
  distinct := by
    rw [List.map_append, List.nodup_append']
    refine ⟨holds.distinct, List.nodup_singleton _, ?_⟩
    intro temp before after
    obtain rfl := List.mem_singleton.mp after
    obtain ⟨cache, member, same⟩ := List.mem_map.mp before
    exact absurd same (Nat.ne_of_lt (holds.below cache member))
  below cache member := by
    obtain before | rfl := by simpa using member
    · exact Nat.lt_succ_of_lt (holds.below cache before)
    · exact Nat.lt_succ_self _
  fetched cache member := by
    obtain before | rfl := by simpa using member
    · exact holds.fetched cache before
    · exact fetches

theorem Environment.Holds.createTemp_removeTemp
    (holds : environment.Holds disk caches) (content : Content) :
    environment.Holds ((disk.createTemp content).removeTemp disk.sequence) caches where
  temps := by
    rw [Disk.removeTemp, Disk.createTemp, holds.temps, List.filter_append,
      filter_other fun cache member => Nat.ne_of_lt (holds.below cache member)]
    simp
  distinct := holds.distinct
  below cache member := Nat.lt_succ_of_lt (holds.below cache member)
  fetched := holds.fetched

/-- Reading a cache ends the first loop. -/
def Environment.losesInFetch (environment : Environment) (declared : RemoteProviderRef) : Bool :=
  environment.create declared = none &&
    match (environment.fetch declared).2 with
    | .ok .sessionLost => true
    | _ => false

/-- The files of the caches that were fetched, with the other providers counted, or, when the
session was lost, none. -/
inductive FetchedAll (environment : Environment) (declared : List RemoteProviderRef)
    (fetched : List FetchedCache) (pending : Nat)
    (result : Disk × Except String (List FetchedCache × Nat)) : Prop where
  | lost (message : String) (failed : result.2 = .error message)
      (loses : declared.any environment.losesInFetch = true) (holds : environment.Holds result.1 [])
  | went (more : List FetchedCache) (total : Nat) (went : result.2 = .ok (fetched ++ more, total))
      (keeps : declared.any environment.losesInFetch = false)
      (each : more.map (·.declared) = declared.filter (fun ref => (environment.fetches ref).isSome))
      (counts : total + more.length = pending + declared.length)
      (holds : environment.Holds result.1 (fetched ++ more))

theorem FetchedAll.skip {ref : RemoteProviderRef} {rest : List RemoteProviderRef}
    {fetched : List FetchedCache} {pending : Nat}
    {result : Disk × Except String (List FetchedCache × Nat)}
    (keeps : environment.losesInFetch ref = false) (unfetched : environment.fetches ref = none)
    (after : FetchedAll environment rest fetched (pending + 1) result) :
    FetchedAll environment (ref :: rest) fetched pending result := by
  cases after with
  | lost message failed loses holds => exact .lost message failed (by simp [loses]) holds
  | went more total went calm each counts holds =>
    refine .went more total went (by simp [keeps, calm]) ?_ ?_ holds
    · rw [List.filter_cons_of_neg (by simp [unfetched])]
      exact each
    · rw [List.length_cons]
      omega

theorem FetchedAll.fetch {ref : RemoteProviderRef} {rest : List RemoteProviderRef}
    {fetched : List FetchedCache} {pending temp len : Nat} {mtime : Option Nat}
    {result : Disk × Except String (List FetchedCache × Nat)}
    (keeps : environment.losesInFetch ref = false)
    (fetches : environment.fetches ref = some (len, mtime))
    (after : FetchedAll environment rest (fetched ++ [⟨ref, temp, len, mtime⟩]) pending result) :
    FetchedAll environment (ref :: rest) fetched pending result := by
  cases after with
  | lost message failed loses holds => exact .lost message failed (by simp [loses]) holds
  | went more total went calm each counts holds =>
    rw [List.append_assoc, List.singleton_append] at went holds
    refine .went _ total went (by simp [keeps, calm]) ?_ ?_ holds
    · rw [List.filter_cons_of_pos (by simp [fetches]), List.map_cons, each]
    · rw [List.length_cons, List.length_cons]
      omega

theorem fetchAll_fetchedAll (declared : List RemoteProviderRef) (fetched : List FetchedCache)
    (pending : Nat) (holds : environment.Holds disk fetched) :
    FetchedAll environment declared fetched pending
      (environment.fetchAll declared fetched pending disk) := by
  induction declared generalizing fetched pending disk with
  | nil =>
    exact .went [] pending (by simp [Environment.fetchAll]) rfl rfl rfl
      (by simpa [Environment.fetchAll] using holds)
  | cons ref rest ih =>
    unfold Environment.fetchAll
    have removed := holds.createTemp_removeTemp (environment.fetch ref).1
    split
    · rename_i message created
      exact .skip (by simp [Environment.losesInFetch, created])
        (by simp [Environment.fetches, created]) (ih fetched (pending + 1) holds)
    · rename_i created
      dsimp only
      split
      · rename_i len mtime answer
        have fetches : environment.fetches ref = some (len, mtime) := by
          simp [Environment.fetches, created, answer]
        exact .fetch (by simp [Environment.losesInFetch, answer]) fetches
          (ih _ pending (holds.createTemp fetches))
      · rename_i answer
        exact .skip (by simp [Environment.losesInFetch, answer])
          (by simp [Environment.fetches, answer]) (ih fetched (pending + 1) removed)
      · rename_i answer
        have loses : environment.losesInFetch ref = true := by
          simp [Environment.losesInFetch, created, answer]
        exact .lost _ rfl (by simp [loses]) (Environment.Holds.discardFetched (by simpa using removed))
      · rename_i message answer
        exact .skip (by simp [Environment.losesInFetch, answer])
          (by simp [Environment.fetches, answer]) (ih fetched (pending + 1) removed)

theorem fetchAll_targets (declared : List RemoteProviderRef) (fetched : List FetchedCache)
    (pending : Nat) (disk : Disk) :
    (environment.fetchAll declared fetched pending disk).1.targets = disk.targets := by
  induction declared generalizing fetched pending disk with
  | nil => rfl
  | cons ref rest ih =>
    unfold Environment.fetchAll
    split
    · exact ih _ _ _
    · dsimp only
      split
      · exact ih _ _ _
      · exact ih _ _ _
      · exact discardFetched_targets _ _
      · exact ih _ _ _

open Environment (Verdict)

def Environment.judges (environment : Environment) (before after : ProviderLoadTimes)
    (cache : FetchedCache) : Verdict :=
  environment.verdict before after cache.declared cache.len cache.mtime

/-- The files of the caches that are complete, with the others counted, or, when the session was
lost, those not come to. -/
inductive VerifiedAll (environment : Environment) (before after : ProviderLoadTimes)
    (fetched ready : List FetchedCache) (pending : Nat)
    (result : Disk × Except String (List FetchedCache × Nat)) : Prop where
  | lost (message : String) (earlier : List FetchedCache) (lost : FetchedCache)
      (later : List FetchedCache) (failed : result.2 = .error message)
      (split : fetched = earlier ++ lost :: later)
      (kept : ∀ cache ∈ earlier, environment.judges before after cache ≠ .sessionLost)
      (loses : environment.judges before after lost = .sessionLost)
      (holds : environment.Holds result.1 later)
  | went (more : List FetchedCache) (total : Nat) (went : result.2 = .ok (ready ++ more, total))
      (kept : ∀ cache ∈ fetched, environment.judges before after cache ≠ .sessionLost)
      (sublist : more.Sublist fetched)
      (complete : ∀ cache ∈ more, environment.judges before after cache = .complete)
      (counts : total + more.length = pending + fetched.length)
      (holds : environment.Holds result.1 (ready ++ more))

theorem verifyAll_verifiedAll (before after : ProviderLoadTimes) (fetched ready : List FetchedCache)
    (pending : Nat) (holds : environment.Holds disk (ready ++ fetched)) :
    VerifiedAll environment before after fetched ready pending
      (environment.verifyAll before after fetched ready pending disk) := by
  induction fetched generalizing ready pending disk with
  | nil =>
    exact .went [] pending (by simp [Environment.verifyAll]) (by simp) (List.Sublist.refl _)
      (by simp) rfl holds
  | cons cache rest ih =>
    unfold Environment.verifyAll
    split
    · rename_i complete
      have same : ready ++ cache :: rest = (ready ++ [cache]) ++ rest := by simp
      cases ih (ready ++ [cache]) pending (same ▸ holds) with
      | lost message earlier lost later failed split kept loses left =>
        refine .lost message (cache :: earlier) lost later failed (by rw [split]; rfl) ?_ loses left
        rw [List.forall_mem_cons]
        exact ⟨by simp [Environment.judges, complete], kept⟩
      | went more total went kept sublist each counts left =>
        rw [List.append_assoc, List.singleton_append] at went left
        refine .went (cache :: more) total went ?_ (sublist.cons_cons cache) ?_ ?_ left
        · rw [List.forall_mem_cons]
          exact ⟨by simp [Environment.judges, complete], kept⟩
        · rw [List.forall_mem_cons]
          exact ⟨complete, each⟩
        · rw [List.length_cons, List.length_cons]
          omega
    · rename_i incomplete
      cases ih ready (pending + 1) holds.removeTemp with
      | lost message earlier lost later failed split kept loses left =>
        refine .lost message (cache :: earlier) lost later failed (by rw [split]; rfl) ?_ loses left
        rw [List.forall_mem_cons]
        exact ⟨by simp [Environment.judges, incomplete], kept⟩
      | went more total went kept sublist each counts left =>
        refine .went more total went ?_ (sublist.cons cache) each ?_ left
        · rw [List.forall_mem_cons]
          exact ⟨by simp [Environment.judges, incomplete], kept⟩
        · rw [List.length_cons]
          omega
    · rename_i loses
      exact .lost _ [] cache rest rfl rfl (by simp) loses holds.removeTemp.discardFetched

theorem verifyAll_targets (before after : ProviderLoadTimes) (fetched ready : List FetchedCache)
    (pending : Nat) (disk : Disk) :
    (environment.verifyAll before after fetched ready pending disk).1.targets = disk.targets := by
  induction fetched generalizing ready pending disk with
  | nil => rfl
  | cons cache rest ih =>
    unfold Environment.verifyAll
    split
    · exact ih _ _ _
    · exact ih _ _ (disk.removeTemp cache.temp)
    · exact discardFetched_targets _ _

/-- What the third loop leaves: no file, and the counted caches on their targets. -/
structure PublishedAll (environment : Environment) (declared : List RemoteProviderRef)
    (fetched : List FetchedCache) (synced : Nat) (disk : Disk) (result : Disk × Nat) : Prop where
  holds : environment.Holds result.1 []
  moved : ∃ moved : List FetchedCache, moved.Sublist fetched ∧ result.2 = synced + moved.length ∧
    (∀ cache ∈ moved, cache.declared ∈ declared) ∧
    ∀ destination, result.1.targets destination = disk.targets destination ∨
      ∃ cache ∈ moved, cache.declared.destination = destination ∧
        result.1.targets destination = some (environment.fetch cache.declared).1

theorem Environment.Holds.contentOf {cache : FetchedCache} {rest : List FetchedCache}
    (holds : environment.Holds disk (cache :: rest)) :
    disk.contentOf cache.temp = some (environment.fetch cache.declared).1 := by
  simp [Disk.contentOf, holds.temps, Environment.tempOf]

theorem publishAll_publishedAll (declared : List RemoteProviderRef) (fetched : List FetchedCache)
    (synced : Nat) (holds : environment.Holds disk fetched) :
    PublishedAll environment declared fetched synced disk
      (environment.publishAll declared fetched synced disk) := by
  induction fetched generalizing synced disk with
  | nil => exact ⟨holds, [], List.Sublist.refl _, rfl, by simp, fun _ => .inl rfl⟩
  | cons cache rest ih =>
    have removed : environment.Holds (disk.removeTemp cache.temp) rest := holds.removeFirst
    unfold Environment.publishAll
    split
    · obtain ⟨left, moved, sublist, counts, still, targets⟩ :=
        ih synced removed
      exact ⟨left, moved, sublist.cons cache, counts, still, targets⟩
    · rename_i publishes
      rw [not_or, not_not] at publishes
      split
      · have renamed : environment.Holds
            (disk.rename cache.temp cache.declared.destination) rest :=
          ⟨removed.temps, removed.distinct, removed.below, removed.fetched⟩
        obtain ⟨left, moved, sublist, counts, still, targets⟩ :=
          ih (synced + 1) renamed
        refine ⟨left, cache :: moved, sublist.cons_cons cache, ?_, ?_, fun destination => ?_⟩
        · rw [counts, List.length_cons]
          omega
        · rw [List.forall_mem_cons]
          exact ⟨publishes.1, still⟩
        · obtain same | ⟨another, member, at_, content⟩ := targets destination
          · rw [same]
            by_cases here : destination = cache.declared.destination
            · refine .inr ⟨cache, List.mem_cons_self, here.symm, ?_⟩
              rw [here, ← holds.contentOf]
              exact Function.update_self ..
            · exact .inl (Function.update_of_ne here ..)
          · exact .inr ⟨another, List.mem_cons_of_mem _ member, at_, content⟩
      · obtain ⟨left, moved, sublist, counts, still, targets⟩ :=
          ih synced removed
        exact ⟨left, moved, sublist.cons cache, counts, still, targets⟩

namespace Environment

variable (environment : Environment)

/-- The providers whose caches come to be verified. -/
def verified : List RemoteProviderRef :=
  match environment.supportsFileRead, environment.credentials, environment.session,
    environment.appDir, environment.declared, environment.loadedBefore, environment.loadedAfter with
  | true, .ok _, .ok _, .ok _, .ok declared, .ok _, .ok _ =>
    if declared.any environment.losesInFetch then []
    else declared.filter (fun ref => (environment.fetches ref).isSome)
  | _, _, _, _, _, _, _ => []

def losesSession (ref : RemoteProviderRef) : Bool :=
  match environment.loadedBefore, environment.loadedAfter, environment.fetches ref with
  | .ok before, .ok after, some (len, mtime) =>
    environment.verdict before after ref len mtime = .sessionLost
  | _, _, _ => false

def declaredList : List RemoteProviderRef :=
  match environment.declared with
  | .ok declared => declared
  | .error _ => []

/-- The content is the whole cache of the provider, read in one piece, with its load times and its
identity unchanged, and the same session's committed runtime still declares the provider. -/
structure Publishable (ref : RemoteProviderRef) (content : Content) : Prop where
  declared : ref ∈ environment.declaredList
  complete : ∃ len mtime, environment.fetch ref = (content, .ok (.complete len mtime)) ∧
    content.length = len ∧
    recheckIdentity len mtime (environment.recheck ref) = .ok (.complete len mtime) ∧
    ∃ before after, environment.loadedBefore = .ok before ∧ environment.loadedAfter = .ok after ∧
      before ref.section_ ref.name = after ref.section_ ref.name ∧
      finishedLoading mtime (after ref.section_ ref.name).join = true
  session : ∃ session, environment.session = .ok session ∧
    environment.currentSession = .ok session ∧ environment.mode = .service
  still : ∃ declared, environment.declaredAtEnd = .ok declared ∧ ref ∈ declared

/-- A call leaves no temporary file, counts each declared provider at most once, and replaces targets
only by verified caches. -/
structure Clean (targets : String → Option Content) (result : Disk × Except String Outcome) :
    Prop where
  temps : result.1.temps = []
  counts : ∀ outcome, result.2 = .ok outcome → ∃ synced pending : List RemoteProviderRef,
    outcome.synced = synced.length ∧ outcome.pending = pending.length ∧
      (synced ++ pending).Subperm environment.declaredList
  replaced : ∀ destination, result.1.targets destination ≠ targets destination →
    ∃ ref content, ref.destination = destination ∧ result.1.targets destination = some content ∧
      environment.Publishable ref content

end Environment

theorem clean_unsynced {targets : String → Option Content}
    {result : Disk × Except String Outcome} (temps : result.1.temps = [])
    (same : result.1.targets = targets)
    (counts : ∀ outcome, result.2 = .ok outcome →
      outcome.synced = 0 ∧ outcome.pending ≤ environment.declaredList.length) :
    environment.Clean targets result where
  temps := temps
  counts outcome ok := by
    obtain ⟨none, bound⟩ := counts outcome ok
    refine ⟨[], environment.declaredList.take outcome.pending, none, ?_, ?_⟩
    · rw [List.length_take, Nat.min_eq_left bound]
    · exact (List.take_sublist _ _).subperm
  replaced destination changed := absurd (congrFun same destination) changed

theorem subperm_counted {Item : Type} {declared moved ready : List Item} {pending : Nat}
    (sublist : ready.Sublist declared) (part : moved.Sublist ready)
    (counts : pending + ready.length = declared.length) :
    ∃ rest : List Item, pending = rest.length ∧ (moved ++ rest).Subperm declared := by
  obtain ⟨rest, perm⟩ := sublist.exists_perm_append
  refine ⟨rest, ?_, ?_⟩
  · have size := perm.length_eq
    rw [List.length_append] at size
    omega
  · exact ((part.append_right rest).subperm).trans perm.symm.subperm

theorem complete_of_verdict {before after : ProviderLoadTimes} {ref : RemoteProviderRef} {len : Nat}
    {mtime : Option Nat} (complete : environment.verdict before after ref len mtime = .complete) :
    recheckIdentity len mtime (environment.recheck ref) = .ok (.complete len mtime) ∧
      before ref.section_ ref.name = after ref.section_ ref.name ∧
      finishedLoading mtime (after ref.section_ ref.name).join = true := by
  unfold Environment.verdict at complete
  dsimp only at complete
  split at complete
  · rename_i loaded
    split at complete
    · rename_i length time checked
      obtain ⟨rfl, rfl⟩ := identity_of_recheck checked
      exact ⟨checked, loaded⟩
    · contradiction
    · contradiction
    · contradiction
  · contradiction

theorem fetch_of_fetches {ref : RemoteProviderRef} {len : Nat} {mtime : Option Nat}
    (fetches : environment.fetches ref = some (len, mtime)) :
    environment.fetch ref = ((environment.fetch ref).1, .ok (.complete len mtime)) := by
  unfold Environment.fetches at fetches
  split at fetches
  · split at fetches
    · rename_i length time answer
      simp only [Option.some.injEq, Prod.mk.injEq] at fetches
      obtain ⟨rfl, rfl⟩ := fetches
      exact Prod.ext rfl answer
    · contradiction
  · contradiction

section Published

variable {before after : ProviderLoadTimes} {session : OwnerSessionProof}
  {ready : List FetchedCache} {pending : Nat} {declared : List RemoteProviderRef}

theorem publishable_of_complete {cache : FetchedCache} {atEnd : List RemoteProviderRef}
    (given : environment.session = .ok session) (declares : environment.declared = .ok declared)
    (loadedBefore : environment.loadedBefore = .ok before)
    (loadedAfter : environment.loadedAfter = .ok after)
    (listed : cache.declared ∈ declared)
    (fetches : environment.fetches cache.declared = some (cache.len, cache.mtime))
    (complete : environment.judges before after cache = .complete)
    (unchanged : environment.unchanged session = true)
    (ends : environment.declaredAtEnd = .ok atEnd) (still : cache.declared ∈ atEnd) :
    environment.Publishable cache.declared (environment.fetch cache.declared).1 where
  declared := by
    rw [Environment.declaredList, declares]
    exact listed
  complete := by
    have fetched := fetch_of_fetches fetches
    obtain ⟨checked, loads⟩ := complete_of_verdict complete
    exact ⟨cache.len, cache.mtime, fetched, length_of_complete fetched, checked, before, after,
      loadedBefore, loadedAfter, loads⟩
  session := by
    unfold Environment.unchanged at unchanged
    rw [Bool.and_eq_true, decide_eq_true_eq] at unchanged
    obtain ⟨mode, same⟩ := unchanged
    cases current : environment.currentSession with
    | error message => simp [current] at same
    | ok now =>
      simp only [current, decide_eq_true_eq] at same
      exact ⟨session, given, congrArg Except.ok same, mode⟩
  still := ⟨atEnd, ends, still⟩

theorem publish_clean (given : environment.session = .ok session)
    (declares : environment.declared = .ok declared)
    (loadedBefore : environment.loadedBefore = .ok before)
    (loadedAfter : environment.loadedAfter = .ok after)
    (sublist : (ready.map (·.declared)).Sublist declared)
    (complete : ∀ cache ∈ ready, environment.judges before after cache = .complete)
    (counts : pending + ready.length = declared.length)
    (holds : environment.Holds disk ready) :
    environment.Clean disk.targets (environment.publish session ready pending disk) := by
  have list : environment.declaredList = declared := by rw [Environment.declaredList, declares]
  have counted : ∀ moved : List FetchedCache, moved.Sublist ready →
      ∃ rest : List RemoteProviderRef, pending = rest.length ∧
        (moved.map (·.declared) ++ rest).Subperm environment.declaredList := by
    intro moved part
    rw [list]
    exact subperm_counted sublist (part.map _) (by rw [List.length_map]; exact counts)
  cases unchanged : environment.unchanged session with
  | true =>
    cases ends : environment.declaredAtEnd with
    | error message =>
      have same : environment.publish session ready pending disk =
          (disk.discardFetched ready, .error message) := by
        simp [Environment.publish, Environment.publishFetched, unchanged, ends]
      rw [same]
      have empty := holds.discardAll
      exact clean_unsynced empty.temps (discardFetched_targets _ _) (by simp)
    | ok atEnd =>
      have same : environment.publish session ready pending disk =
          ((environment.publishAll atEnd ready 0 disk).1,
            .ok ⟨(environment.publishAll atEnd ready 0 disk).2, pending⟩) := by
        simp [Environment.publish, Environment.publishFetched, unchanged, ends]
      rw [same]
      obtain ⟨left, moved, part, synced, still, targets⟩ :=
        publishAll_publishedAll atEnd ready 0 holds
      refine ⟨left.temps, fun outcome ok => ?_, fun destination changed => ?_⟩
      · cases ok
        obtain ⟨rest, pending, perm⟩ := counted moved part
        refine ⟨moved.map (·.declared), rest, ?_, pending, perm⟩
        rw [List.length_map]
        exact synced.trans (Nat.zero_add _)
      · obtain same | ⟨cache, member, at_, content⟩ := targets destination
        · exact absurd same changed
        · refine ⟨cache.declared, _, at_, content, ?_⟩
          have inside := part.subset member
          exact publishable_of_complete given declares loadedBefore loadedAfter
            (sublist.subset (List.mem_map_of_mem inside)) (holds.fetched cache inside)
            (complete cache inside) unchanged ends (still cache member)
  | false =>
    have same : environment.publish session ready pending disk =
        ((environment.publishAll [] ready 0 disk).1,
          .ok ⟨(environment.publishAll [] ready 0 disk).2, pending⟩) := by
      simp [Environment.publish, Environment.publishFetched, unchanged]
    rw [same]
    obtain ⟨left, moved, part, synced, still, targets⟩ :=
      publishAll_publishedAll [] ready 0 holds
    -- Nothing is declared any more.
    have nothing : moved = [] := by
      rw [List.eq_nil_iff_forall_not_mem]
      intro cache member
      exact absurd (still cache member) List.not_mem_nil
    subst nothing
    refine ⟨left.temps, fun outcome ok => ?_, fun destination changed => ?_⟩
    · cases ok
      obtain ⟨rest, pending, perm⟩ := counted [] part
      exact ⟨[], rest, synced, pending, perm⟩
    · obtain same | ⟨cache, member, -⟩ := targets destination
      · exact absurd same changed
      · exact absurd member List.not_mem_nil

end Published

theorem loses_iff_judges {before after : ProviderLoadTimes} {cache : FetchedCache}
    (loadedBefore : environment.loadedBefore = .ok before)
    (loadedAfter : environment.loadedAfter = .ok after)
    (fetches : environment.fetches cache.declared = some (cache.len, cache.mtime)) :
    environment.losesSession cache.declared = true ↔
      environment.judges before after cache = .sessionLost := by
  simp [Environment.losesSession, loadedBefore, loadedAfter, fetches, Environment.judges]

section Verified

variable {session : OwnerSessionProof} {fetched : List FetchedCache} {pending : Nat}
  {declared : List RemoteProviderRef}

theorem discard_clean (declares : environment.declared = .ok declared)
    (counts : pending + fetched.length = declared.length)
    (holds : environment.Holds disk fetched) :
    environment.Clean disk.targets
      (disk.discardFetched fetched, .ok ⟨0, pending + fetched.length⟩) := by
  have empty := holds.discardAll
  refine clean_unsynced empty.temps (discardFetched_targets _ _) fun outcome ok => ?_
  cases ok
  rw [Environment.declaredList, declares]
  exact ⟨rfl, Nat.le_of_eq counts⟩

theorem verify_clean {before after : ProviderLoadTimes} (given : environment.session = .ok session)
    (declares : environment.declared = .ok declared)
    (loadedBefore : environment.loadedBefore = .ok before)
    (loadedAfter : environment.loadedAfter = .ok after)
    (sublist : (fetched.map (·.declared)).Sublist declared)
    (counts : pending + fetched.length = declared.length)
    (holds : environment.Holds disk fetched) :
    environment.Clean disk.targets (environment.verifyAndPublish session fetched pending disk) ↔
      ∀ ref ∈ (fetched.map (·.declared)).dropLast, environment.losesSession ref = false := by
  have judged : ∀ cache ∈ fetched, environment.judges before after cache ≠ .sessionLost →
      environment.losesSession cache.declared = false := by
    intro cache member kept
    rw [← Bool.not_eq_true, loses_iff_judges loadedBefore loadedAfter (holds.fetched cache member)]
    exact kept
  have targets : (environment.verifyAll before after fetched [] pending disk).1.targets =
      disk.targets := verifyAll_targets before after fetched [] pending disk
  have verified : VerifiedAll environment before after fetched [] pending _ :=
    verifyAll_verifiedAll before after fetched [] pending holds
  rcases shape : environment.verifyAll before after fetched [] pending disk with ⟨left, outcome⟩
  rw [shape] at targets verified
  cases verified with
  | lost message earlier lost later failed split kept loses remains =>
    obtain rfl : outcome = .error message := failed
    have same : environment.verifyAndPublish session fetched pending disk =
        (left, .error message) := by
      simp only [Environment.verifyAndPublish, loadedBefore, loadedAfter, shape]
    rw [same]
    have lostInside : lost ∈ fetched := by simp [split]
    have lostLoses := (loses_iff_judges loadedBefore loadedAfter (holds.fetched lost lostInside)).mpr
      loses
    cases later with
    | nil =>
      refine iff_of_true (clean_unsynced remains.temps targets (by simp)) fun ref member => ?_
      rw [split, List.map_append, List.map_cons, List.map_nil, List.dropLast_concat] at member
      obtain ⟨cache, before, rfl⟩ := List.mem_map.mp member
      exact judged cache (by simp [split, before]) (kept cache before)
    | cons cache rest =>
      refine iff_of_false (fun clean => ?_) fun calm => ?_
      · have empty := remains.temps.symm.trans clean.temps
        simp at empty
      · have early : lost.declared ∈ (fetched.map (·.declared)).dropLast := by
          rw [split, List.map_append, List.dropLast_append_of_ne_nil (by simp)]
          simp
        rw [calm lost.declared early] at lostLoses
        contradiction
  | went more total went kept part complete counted all =>
    obtain rfl : outcome = .ok (more, total) := went
    have same : environment.verifyAndPublish session fetched pending disk =
        environment.publish session more total left := by
      simp only [Environment.verifyAndPublish, loadedBefore, loadedAfter, shape]
    rw [same]
    refine iff_of_true ?_ fun ref member => ?_
    · rw [← show left.targets = disk.targets from targets]
      exact publish_clean given declares loadedBefore loadedAfter ((part.map _).trans sublist)
        complete (by omega) all
    · obtain ⟨cache, inside, rfl⟩ := List.mem_map.mp (List.mem_of_mem_dropLast member)
      exact judged cache inside (kept cache inside)

theorem verifyAndPublish_clean (supports : environment.supportsFileRead = true)
    (known : environment.credentials = .ok ()) (given : environment.session = .ok session)
    (located : environment.appDir = .ok ()) (declares : environment.declared = .ok declared)
    (keeps : declared.any environment.losesInFetch = false)
    (each : fetched.map (·.declared) =
      declared.filter (fun ref => (environment.fetches ref).isSome))
    (counts : pending + fetched.length = declared.length)
    (holds : environment.Holds disk fetched) :
    environment.Clean disk.targets (environment.verifyAndPublish session fetched pending disk) ↔
      ∀ ref ∈ environment.verified.dropLast, environment.losesSession ref = false := by
  cases loadedBefore : environment.loadedBefore with
  | error message =>
    have none : environment.verified = [] := by simp [Environment.verified, loadedBefore]
    rw [none]
    simp only [Environment.verifyAndPublish, loadedBefore]
    exact iff_of_true (discard_clean declares counts holds) (by simp)
  | ok before =>
    cases loadedAfter : environment.loadedAfter with
    | error message =>
      have none : environment.verified = [] := by simp [Environment.verified, loadedAfter]
      rw [none]
      simp only [Environment.verifyAndPublish, loadedBefore, loadedAfter]
      exact iff_of_true (discard_clean declares counts holds) (by simp)
    | ok after =>
      have verified : environment.verified = fetched.map (·.declared) := by
        simp [Environment.verified, supports, known, given, located, declares, loadedBefore,
          loadedAfter, keeps, each]
      have sublist : (fetched.map (·.declared)).Sublist declared := by
        rw [each]
        exact List.filter_sublist
      rw [verified]
      exact verify_clean given declares loadedBefore loadedAfter sublist counts holds

end Verified

/-- A call leaves no temporary file behind, counts each provider at most once and replaces targets only
by verified caches if no cache but the last to be verified loses the session, and only then. -/
theorem sync_clean (environment : Environment) (sequence : Nat)
    (targets : String → Option Content) :
    environment.Clean targets (environment.sync (Disk.new sequence targets)) ↔
      ∀ ref ∈ environment.verified.dropLast, environment.losesSession ref = false := by
  -- Nothing comes to be verified where the call ends before that.
  have early : ∀ result, environment.verified = [] → environment.Clean targets result →
      (environment.Clean targets result ↔
        ∀ ref ∈ environment.verified.dropLast, environment.losesSession ref = false) := by
    intro result none clean
    rw [none]
    exact iff_of_true clean (by simp)
  have failed : ∀ message, environment.Clean targets (Disk.new sequence targets, .error message) :=
    fun message => clean_unsynced rfl rfl (by simp)
  cases supports : environment.supportsFileRead with
  | false =>
    have same : environment.sync (Disk.new sequence targets) =
        (Disk.new sequence targets, .ok ⟨0, 0⟩) := by simp [Environment.sync, supports]
    rw [same]
    refine early _ (by simp [Environment.verified, supports]) (clean_unsynced rfl rfl ?_)
    rintro _ ⟨⟩
    exact ⟨rfl, Nat.zero_le _⟩
  | true =>
    cases known : environment.credentials with
    | error message =>
      simp only [Environment.sync, supports, known]
      exact early _ (by simp [Environment.verified, known]) (failed message)
    | ok =>
      cases given : environment.session with
      | error message =>
        simp only [Environment.sync, supports, known, given]
        exact early _ (by simp [Environment.verified, given]) (failed message)
      | ok session =>
        cases located : environment.appDir with
        | error message =>
          simp only [Environment.sync, supports, known, given, located]
          exact early _ (by simp [Environment.verified, located]) (failed message)
        | ok =>
          cases declares : environment.declared with
          | error message =>
            simp only [Environment.sync, supports, known, given, located, declares]
            exact early _ (by simp [Environment.verified, declares]) (failed message)
          | ok declared =>
            have empty : environment.Holds (Disk.new sequence targets) [] :=
              ⟨rfl, by simp, by simp, by simp⟩
            have untouched : (environment.fetchAll declared [] 0
                (Disk.new sequence targets)).1.targets = (Disk.new sequence targets).targets :=
              fetchAll_targets declared [] 0 (Disk.new sequence targets)
            have fetchedAll : FetchedAll environment declared [] 0 _ :=
              fetchAll_fetchedAll declared [] 0 empty
            rcases shape : environment.fetchAll declared [] 0 (Disk.new sequence targets) with
              ⟨left, outcome⟩
            rw [shape] at untouched fetchedAll
            cases fetchedAll with
            | lost message ended loses holds =>
              obtain rfl : outcome = .error message := ended
              simp only [Environment.sync, supports, known, given, located, declares, shape]
              refine early _ ?_ (clean_unsynced holds.temps untouched (by simp))
              cases before : environment.loadedBefore <;> cases after : environment.loadedAfter <;>
                simp [Environment.verified, supports, known, given, located, declares, before,
                  after, loses]
            | went fetched total went keeps each counts holds =>
              obtain rfl : outcome = .ok (fetched, total) := went
              simp only [Environment.sync, supports, known, given, located, declares, shape]
              have clean := verifyAndPublish_clean supports known given located declares keeps each
                (counts.trans (Nat.zero_add _)) holds
              rw [untouched] at clean
              exact clean

def exampleChunk (bytes : Content) : Reply := .chunk ⟨.ok bytes, 1, none, true, none⟩

def exampleProvider (name : String) : RemoteProviderRef := ⟨.ruleProviders, name, name, name⟩

/-- Two providers are fetched, and the session is lost when the first one is verified. -/
def exampleEnvironment : Environment where
  supportsFileRead := true
  credentials := .ok ()
  session := .ok ⟨1, "token"⟩
  appDir := .ok ()
  declared := .ok [exampleProvider "first", exampleProvider "second"]
  loadedBefore := .ok fun _ _ => none
  create _ := none
  replies _ := [exampleChunk [0], exampleChunk []]
  loadedAfter := .ok fun _ _ => none
  recheck _ := .sessionLost
  mode := .service
  currentSession := .ok ⟨2, "other"⟩
  declaredAtEnd := .ok []
  comparable _ := true
  rename _ := none

/-- The exit of the second loop does not remove the files that the loop has not come to. -/
theorem lost_session_leaves_temps :
    ¬ ∀ (environment : Environment) (sequence : Nat) (targets : String → Option Content),
      environment.Clean targets (environment.sync (Disk.new sequence targets)) := by
  intro clean
  have temps := (clean exampleEnvironment 0 fun _ => none).temps
  have left : (exampleEnvironment.sync (Disk.new 0 fun _ => none)).1.temps = [⟨1, [0]⟩] := by
    decide
  rw [left] at temps
  contradiction

end ClashVerge.Service.ProviderSync
