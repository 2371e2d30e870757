import Mathlib.Data.BitVec

/-!
# The run state store

`RunStateStore` keeps what is known of the service, what the session wants of it, the mode of the
core and whether a privileged operation is in flight. Everything about the service sits behind one
lock together with two counters: `generation` counts the visible changes, `observation` everything
that was recorded.

A reading of the service that takes its time reserves an observation number first and is recorded
only if no other number was given out meanwhile. The counters are 64 bits wide and wrap.
-/

namespace ClashVerge.Runstate

inductive ServiceHealth where
  | unknown
  | ready
  | notInstalled
  | versionMismatch
  | unavailable (reason : String)
deriving DecidableEq

inductive PendingAction where
  | install
  | uninstall
  | reinstall
  | forceReinstall
deriving DecidableEq

inductive RunningMode where
  | service
  | sidecar
  | notRunning
deriving DecidableEq

/-- What is known of the service and what the session wants of it. -/
structure StoredService where
  health : ServiceHealth
  pending : Option PendingAction
  sidecarAllowed : Bool
deriving DecidableEq

def StoredService.default : StoredService := ⟨.unknown, none, false⟩

namespace StoredService

variable (service : StoredService)

/-- An observation settles whatever was wanted before it. -/
def observe (health : ServiceHealth) : StoredService := ⟨health, none, false⟩

def request (action : PendingAction) : StoredService :=
  { service with pending := some action, sidecarAllowed := false }

def allowSidecar : StoredService := { service with pending := none, sidecarAllowed := true }

/-- A pending action and an allowed sidecar exclude each other. -/
def Exclusive : Prop := service.pending = none ∨ service.sidecarAllowed = false

end StoredService

structure VersionedService where
  service : StoredService
  generation : BitVec 64
  observation : BitVec 64
deriving DecidableEq

namespace VersionedService

variable (versioned : VersionedService)

def bump : VersionedService :=
  { versioned with
    generation := versioned.generation + 1
    observation := versioned.observation + 1 }

def nextObservation : VersionedService :=
  { versioned with observation := versioned.observation + 1 }

def record (service : StoredService) : VersionedService := { versioned with service := service }.bump

end VersionedService

structure RunStateStore where
  service : VersionedService
  mode : RunningMode
  operationRunning : Bool
deriving DecidableEq

/-- The snapshot readers and observers get. -/
structure RunState where
  health : ServiceHealth
  pending : Option PendingAction
  sidecarAllowed : Bool
  mode : RunningMode
  isAdmin : Bool
  opInFlight : Bool
deriving DecidableEq

/-- What a mutator leaves: the store, whether it goes on to announce it, and what it returns. -/
structure Changed (α : Type) where
  store : RunStateStore
  announces : Bool
  result : α

namespace RunStateStore

variable (store : RunStateStore)

def new : RunStateStore where
  service := ⟨.default, 0, 0⟩
  mode := .notRunning
  operationRunning := false

/-- `state`, for a process that is elevated or not. -/
def state (isAdmin : Bool) : RunState where
  health := store.service.service.health
  pending := store.service.service.pending
  sidecarAllowed := store.service.service.sidecarAllowed
  mode := store.mode
  isAdmin := isAdmin
  opInFlight := store.operationRunning

def change {α : Type} (service : StoredService) (result : α) : Changed α :=
  ⟨{ store with service := store.service.record service }, true, result⟩

/-- What stands is confirmed: nothing visible changes, but an older reading is out of date. -/
def reassert {α : Type} (result : α) : Changed α :=
  ⟨{ store with service := store.service.nextObservation }, false, result⟩

def unchanged {α : Type} (result : α) : Changed α := ⟨store, false, result⟩

def Stands (health : ServiceHealth) : Bool :=
  store.service.service.health = health && store.service.service.pending.isNone &&
    !store.service.service.sidecarAllowed

def observe (health : ServiceHealth) : Changed Unit :=
  if store.Stands health then store.reassert ()
  else store.change (.observe health) ()

def requestAction (action : PendingAction) : Changed Bool :=
  let displaced := store.service.service.sidecarAllowed
  if store.service.service.pending = some action && !displaced then store.reassert displaced
  else store.change (store.service.service.request action) displaced

def acceptSidecar : Changed Unit :=
  if store.service.service.sidecarAllowed && store.service.service.pending.isNone then
    store.reassert ()
  else store.change store.service.service.allowSidecar ()

def restoreSidecarAllowance : Changed Bool :=
  if store.service.service.sidecarAllowed then store.reassert false
  else if store.service.service.health = .ready then store.unchanged false
  else store.change store.service.service.allowSidecar true

def withdrawSidecarAllowance : Changed Bool :=
  if store.service.service.sidecarAllowed then
    store.change { store.service.service with sidecarAllowed := false } true
  else store.unchanged false

/-- Where `allow_sidecar_for_session` gives the allowance. -/
def Permits : Bool :=
  match store.service.service.pending, store.service.service.sidecarAllowed with
  | some .install, _ => true
  | some _, _ | none, true => false
  | none, false =>
    match store.service.service.health with
    | .notInstalled | .versionMismatch | .unavailable _ => true
    | .unknown | .ready => false

def allowSidecarForSession : Changed (Except String Unit) :=
  if store.operationRunning then store.unchanged (.error "service operation already running")
  else if store.Permits then store.change store.service.service.allowSidecar (.ok ())
  else store.unchanged (.error "sidecar cannot be allowed from service state")

def allowSidecarAfterServiceRefusal (reason : String) : Changed (Except String Unit) :=
  if store.operationRunning || store.service.service.pending.isSome then
    store.unchanged (.error "cannot fall back while a service operation is pending")
  else
    store.change { store.service.service with health := .unavailable reason }.allowSidecar (.ok ())

/-- It announces the state even when it recorded nothing. -/
def requireInstallForSession : Changed (Except String Unit) :=
  if store.operationRunning then store.unchanged (.error "service operation already running")
  else if store.Stands .notInstalled then
    store.change (store.service.service.request .install) (.ok ())
  else if store.service.service.pending = some .install then
    { store.reassert (.ok ()) with announces := true }
  else { store.unchanged (.ok ()) with announces := true }

def reserveHealthObservation : Changed (BitVec 64) :=
  let reserved := store.service.nextObservation
  ⟨{ store with service := reserved }, false, reserved.observation⟩

def commitReservedObservation (health : ServiceHealth) (reservation : BitVec 64) :
    Changed ServiceHealth :=
  if store.service.observation ≠ reservation then
    store.unchanged store.service.service.health
  else if store.Stands health then store.unchanged health
  else ⟨{ store with service := { store.service with
      service := .observe health
      generation := store.service.generation + 1 } }, true, health⟩

def beginOperation : Changed (Except String Unit) :=
  if store.operationRunning then store.unchanged (.error "service operation already running")
  else ⟨{ store with service := store.service.bump, operationRunning := true }, true, .ok ()⟩

def finishOperation : Changed Unit := ⟨{ store with operationRunning := false }, true, ()⟩

def enterMode (mode : RunningMode) : Changed Unit := ⟨{ store with mode := mode }, true, ()⟩

end RunStateStore

/-- A call that may change the store. -/
inductive Mutation where
  | observe (health : ServiceHealth)
  | requestAction (action : PendingAction)
  | acceptSidecar
  | restoreSidecarAllowance
  | withdrawSidecarAllowance
  | allowSidecarForSession
  | allowSidecarAfterServiceRefusal (reason : String)
  | requireInstallForSession
  | reserve
  | commit (health : ServiceHealth) (reservation : BitVec 64)
  | beginOperation
  | finishOperation
  | enterMode (mode : RunningMode)
deriving DecidableEq

namespace Mutation

def apply (store : RunStateStore) : Mutation → Changed Unit
  | observe health => store.observe health
  | requestAction action => { store.requestAction action with result := () }
  | acceptSidecar => store.acceptSidecar
  | restoreSidecarAllowance => { store.restoreSidecarAllowance with result := () }
  | withdrawSidecarAllowance => { store.withdrawSidecarAllowance with result := () }
  | allowSidecarForSession => { store.allowSidecarForSession with result := () }
  | allowSidecarAfterServiceRefusal reason =>
    { store.allowSidecarAfterServiceRefusal reason with result := () }
  | requireInstallForSession => { store.requireInstallForSession with result := () }
  | reserve => { store.reserveHealthObservation with result := () }
  | commit health reservation =>
    { store.commitReservedObservation health reservation with result := () }
  | beginOperation => { store.beginOperation with result := () }
  | finishOperation => store.finishOperation
  | enterMode mode => store.enterMode mode

/-- The call records an observation or an intent. -/
def learns (store : RunStateStore) : Mutation → Bool
  | observe _ | requestAction _ | acceptSidecar => true
  | restoreSidecarAllowance =>
    store.service.service.sidecarAllowed || store.service.service.health ≠ .ready
  | withdrawSidecarAllowance => store.service.service.sidecarAllowed
  | allowSidecarForSession => !store.operationRunning && store.Permits
  | allowSidecarAfterServiceRefusal _ =>
    !store.operationRunning && store.service.service.pending.isNone
  | requireInstallForSession => !store.operationRunning &&
      (store.Stands .notInstalled || store.service.service.pending = some .install)
  | commit _ reservation => store.service.observation = reservation
  | reserve | beginOperation | finishOperation | enterMode _ => false

/-- The call records an observation or an intent, reserves an observation, or begins an operation.
Recording a reserved observation gives out no number. -/
def numbers (store : RunStateStore) : Mutation → Bool
  | reserve => true
  | beginOperation => !store.operationRunning
  | commit _ _ => false
  | call => call.learns store

inductive Effect (store : RunStateStore) : Mutation → Changed Unit → Prop
  | unchanged (call : Mutation) (announces : Bool) (unnumbered : call.numbers store = false) :
      Effect store call ⟨store, announces, ()⟩
  | reasserted (call : Mutation) (announces : Bool) (numbered : call.numbers store = true) :
      Effect store call
        ⟨{ store with service := store.service.nextObservation }, announces, ()⟩
  | recorded (call : Mutation) (service : StoredService) (numbered : call.numbers store = true)
      (exclusive : service.Exclusive) :
      Effect store call ⟨{ store with service := store.service.record service }, true, ()⟩
  | committed (health : ServiceHealth) :
      Effect store (.commit health store.service.observation)
        ⟨{ store with service := { store.service with
          service := .observe health
          generation := store.service.generation + 1 } }, true, ()⟩
  | began (free : store.operationRunning = false) :
      Effect store .beginOperation
        ⟨{ store with service := store.service.bump, operationRunning := true }, true, ()⟩
  | finished : Effect store .finishOperation ⟨{ store with operationRunning := false }, true, ()⟩
  | entered (mode : RunningMode) : Effect store (.enterMode mode) ⟨{ store with mode := mode }, true, ()⟩

theorem apply_effect (store : RunStateStore) (call : Mutation) :
    Effect store call (call.apply store) := by
  cases call with
  | observe health =>
    simp only [apply, RunStateStore.observe]
    split
    · exact .reasserted _ _ rfl
    · exact .recorded _ _ rfl (.inl rfl)
  | requestAction action =>
    simp only [apply, RunStateStore.requestAction]
    split
    · exact .reasserted _ _ rfl
    · exact .recorded _ _ rfl (.inr rfl)
  | acceptSidecar =>
    simp only [apply, RunStateStore.acceptSidecar]
    split
    · exact .reasserted _ _ rfl
    · exact .recorded _ _ rfl (.inl rfl)
  | restoreSidecarAllowance =>
    simp only [apply, RunStateStore.restoreSidecarAllowance]
    split
    · rename_i allowed
      exact .reasserted _ _ (by simp [numbers, learns, allowed])
    · rename_i refused
      split
      · rename_i ready
        exact .unchanged _ _ (by simp [numbers, learns, ready, refused])
      · rename_i unready
        exact .recorded _ _ (by simp [numbers, learns, unready]) (.inl rfl)
  | withdrawSidecarAllowance =>
    simp only [apply, RunStateStore.withdrawSidecarAllowance]
    split
    · rename_i allowed
      exact .recorded _ _ (by simp [numbers, learns, allowed]) (.inr rfl)
    · rename_i refused
      exact .unchanged _ _ (by simp [numbers, learns, refused])
  | allowSidecarForSession =>
    simp only [apply, RunStateStore.allowSidecarForSession]
    split
    · rename_i running
      exact .unchanged _ _ (by simp [numbers, learns, running])
    · rename_i free
      split
      · rename_i permitted
        exact .recorded _ _ (by simp [numbers, learns, free, permitted]) (.inl rfl)
      · rename_i refused
        exact .unchanged _ _ (by simp [numbers, learns, refused])
  | allowSidecarAfterServiceRefusal reason =>
    simp only [apply, RunStateStore.allowSidecarAfterServiceRefusal]
    split
    · rename_i refused
      refine .unchanged _ _ ?_
      cases running : store.operationRunning <;> simp_all [numbers, learns]
    · rename_i free
      exact .recorded _ _ (by simpa [numbers, learns] using free) (.inl rfl)
  | requireInstallForSession =>
    simp only [apply, RunStateStore.requireInstallForSession]
    split
    · rename_i running
      exact .unchanged _ _ (by simp [numbers, learns, running])
    · rename_i free
      split
      · rename_i absent
        exact .recorded _ _ (by simp [numbers, learns, free, absent]) (.inr rfl)
      · rename_i stands
        split
        · rename_i wanted
          exact .reasserted _ _ (by simp [numbers, learns, free, wanted])
        · rename_i unwanted
          exact .unchanged _ _ (by simp [numbers, learns, stands, unwanted])
  | reserve => exact .reasserted _ _ rfl
  | commit health reservation =>
    simp only [apply, RunStateStore.commitReservedObservation]
    split
    · exact .unchanged _ _ rfl
    · rename_i latest
      split
      · exact .unchanged _ _ rfl
      · obtain rfl : store.service.observation = reservation := by simpa using latest
        exact .committed health
  | beginOperation =>
    simp only [apply, RunStateStore.beginOperation]
    split
    · rename_i running
      exact .unchanged _ _ (by simp [numbers, running])
    · rename_i free
      exact .began (by simpa using free)
  | finishOperation => exact .finished
  | enterMode mode => exact .entered mode

theorem apply_observation (store : RunStateStore) (call : Mutation) :
    (call.apply store).store.service.observation =
      store.service.observation + BitVec.ofNat 64 (call.numbers store).toNat := by
  have effect := apply_effect store call
  generalize call.apply store = changed at effect ⊢
  cases effect with
  | unchanged _ announces unnumbered => simp [unnumbered]
  | reasserted _ announces numbered => simp [numbered, VersionedService.nextObservation]
  | recorded _ service numbered exclusive =>
    simp [numbered, VersionedService.record, VersionedService.bump]
  | began free => simp [numbers, free, VersionedService.bump]
  | committed | finished | entered => simp [numbers, learns]

theorem apply_exclusive (store : RunStateStore) (call : Mutation)
    (exclusive : store.service.service.Exclusive) :
    (call.apply store).store.service.service.Exclusive := by
  have effect := apply_effect store call
  generalize call.apply store = changed at effect ⊢
  cases effect with
  | recorded _ service numbered kept => exact kept
  | committed health => exact .inl rfl
  | _ => exact exclusive

theorem apply_silent (store : RunStateStore) (call : Mutation) (isAdmin : Bool)
    (silent : (call.apply store).announces = false) :
    (call.apply store).store.state isAdmin = store.state isAdmin := by
  have effect := apply_effect store call
  generalize call.apply store = changed at effect silent ⊢
  cases effect with
  | unchanged | reasserted => rfl
  | recorded | committed | began | finished | entered => simp at silent

end Mutation

/-- The store after the calls, one after another. -/
def run (store : RunStateStore) (calls : List Mutation) : RunStateStore :=
  calls.foldl (fun store call => (call.apply store).store) store

/-- How many observation numbers the calls give out. -/
def numbered (store : RunStateStore) : List Mutation → Nat
  | [] => 0
  | call :: rest => (call.numbers store).toNat + numbered (call.apply store).store rest

theorem run_observation (store : RunStateStore) (calls : List Mutation) :
    (run store calls).service.observation =
      store.service.observation + BitVec.ofNat 64 (numbered store calls) := by
  induction calls generalizing store with
  | nil => simp [run, numbered]
  | cons call rest ih =>
    have first := Mutation.apply_observation store call
    have others := ih (call.apply store).store
    rw [run, List.foldl_cons, ← run, others, first, numbered, BitVec.ofNat_add, BitVec.add_assoc]

theorem run_exclusive (calls : List Mutation) : (run .new calls).service.service.Exclusive := by
  have kept : ∀ store : RunStateStore, store.service.service.Exclusive →
      (run store calls).service.service.Exclusive := by
    induction calls with
    | nil => exact fun _ exclusive => exclusive
    | cons call rest ih =>
      exact fun store exclusive =>
        ih _ (Mutation.apply_exclusive store call exclusive)
  exact kept .new (.inl rfl)

section

variable (store : RunStateStore)
include store

theorem numbered_pos (calls : List Mutation)
    (reserved : Mutation.reserve ∈ calls) : 0 < numbered store calls := by
  induction calls generalizing store with
  | nil => simp at reserved
  | cons call rest ih =>
    rw [numbered]
    obtain rfl | later := List.mem_cons.mp reserved
    · have one : (Mutation.numbers store .reserve).toNat = 1 := rfl
      omega
    · have counted := ih (call.apply store).store later
      omega

theorem RunStateStore.observe_keeps_iff (health : ServiceHealth) :
    (store.observe health).store.service.service = store.service.service ↔
      store.Stands health = true := by
  rw [RunStateStore.observe]
  split
  · rename_i stands
    exact iff_of_true rfl stands
  · rename_i differs
    refine iff_of_false ?_ differs
    intro same
    apply differs
    have same : StoredService.observe health = store.service.service := same
    simp [RunStateStore.Stands, ← same, StoredService.observe]

theorem commit_recorded (health : ServiceHealth) (reservation : BitVec 64)
    (latest : store.service.observation = reservation) :
    let committed := store.commitReservedObservation health reservation
    committed.result = health ∧ committed.store.service.service = ⟨health, none, false⟩ := by
  simp only [RunStateStore.commitReservedObservation, latest, ne_eq, not_true_eq_false, if_false]
  split
  · rename_i stands
    simp only [RunStateStore.Stands, Bool.and_eq_true, decide_eq_true_eq, Option.isNone_iff_eq_none,
      Bool.not_eq_true'] at stands
    obtain ⟨⟨same, idle⟩, refused⟩ := stands
    refine ⟨rfl, ?_⟩
    rw [← same, ← idle, ← refused]
    rfl
  · exact ⟨rfl, rfl⟩

theorem commit_stale (health : ServiceHealth) (reservation : BitVec 64)
    (stale : store.service.observation ≠ reservation) :
    store.commitReservedObservation health reservation =
      store.unchanged store.service.service.health := by
  simp [RunStateStore.commitReservedObservation, stale]

/-- The number a reservation got is the last one given out when the calls since then gave out none,
or so many that the counter came round to it. -/
theorem reservation_latest (calls : List Mutation) :
    (run store.reserveHealthObservation.store calls).service.observation =
        store.reserveHealthObservation.result ↔
      2 ^ 64 ∣ numbered store.reserveHealthObservation.store calls := by
  rw [run_observation]
  change store.reserveHealthObservation.result + _ = store.reserveHealthObservation.result ↔ _
  constructor
  · intro same
    have none_given := BitVec.add_right_eq_self.mp same
    have wrapped := congrArg BitVec.toNat none_given
    rw [BitVec.toNat_ofNat, BitVec.toNat_zero] at wrapped
    exact Nat.dvd_of_mod_eq_zero wrapped
  · intro wrapped
    have none_given : BitVec.ofNat 64 (numbered store.reserveHealthObservation.store calls) = 0 := by
      apply BitVec.eq_of_toNat_eq
      rw [BitVec.toNat_ofNat, Nat.mod_eq_zero_of_dvd wrapped]
      rfl
    rw [none_given]
    exact BitVec.add_zero _

theorem session_refused (reason : String) (running : store.operationRunning = true) :
    store.allowSidecarForSession = store.unchanged (.error "service operation already running") ∧
      store.allowSidecarAfterServiceRefusal reason =
        store.unchanged (.error "cannot fall back while a service operation is pending") ∧
      store.requireInstallForSession =
        store.unchanged (.error "service operation already running") := by
  simp [RunStateStore.allowSidecarForSession, RunStateStore.allowSidecarAfterServiceRefusal,
    RunStateStore.requireInstallForSession, running]

end

/-- The reading is recorded if no observation number was given out since its reservation, and
otherwise the commit touches nothing and returns what stands. A later reservation makes an earlier
one void, a pending action and an allowed sidecar never meet, and the session's requests are refused
while an operation is in flight. -/
theorem reserved_commit (before between : List Mutation) (health : ServiceHealth)
    (reason : String) :
    let reserved := (run .new before).reserveHealthObservation
    let store := run reserved.store between
    let committed := store.commitReservedObservation health reserved.result
    (if 2 ^ 64 ∣ numbered reserved.store between then
        committed.result = health ∧ committed.store.service.service = ⟨health, none, false⟩
      else committed = store.unchanged store.service.service.health) ∧
    (Mutation.reserve ∈ between → numbered reserved.store between < 2 ^ 64 →
      committed = store.unchanged store.service.service.health) ∧
    committed.store.service.service.Exclusive ∧
    (store.operationRunning = true →
      store.allowSidecarForSession = store.unchanged (.error "service operation already running") ∧
      store.allowSidecarAfterServiceRefusal reason =
        store.unchanged (.error "cannot fall back while a service operation is pending") ∧
      store.requireInstallForSession =
        store.unchanged (.error "service operation already running")) := by
  intro reserved store committed
  have latest : store.service.observation = reserved.result ↔
      2 ^ 64 ∣ numbered reserved.store between := reservation_latest (run .new before) between
  have stale : ¬ 2 ^ 64 ∣ numbered reserved.store between →
      committed = store.unchanged store.service.service.health :=
    fun given => commit_stale store health reserved.result (mt latest.mp given)
  have exclusive := run_exclusive (before ++ .reserve :: between ++ [.commit health reserved.result])
  rw [run, List.foldl_append, List.foldl_append] at exclusive
  refine ⟨?_, ?_, exclusive, session_refused store reason⟩
  · split
    · rename_i none_given
      exact commit_recorded store health reserved.result (latest.mpr none_given)
    · rename_i given
      exact stale given
  · intro later bounded
    have counted := numbered_pos reserved.store between later
    exact stale (Nat.not_dvd_of_pos_of_lt counted bounded)

/-- The start of an operation alone makes a reservation void. -/
theorem operation_voids_reservation :
    let reserved := RunStateStore.new.reserveHealthObservation
    let store := run reserved.store [.beginOperation, .finishOperation]
    (∀ call ∈ [Mutation.beginOperation, .finishOperation], ∀ store, call.learns store = false) ∧
      (store.commitReservedObservation .ready reserved.result).result = .unknown ∧
      (store.commitReservedObservation .ready reserved.result).store = store := by
  refine ⟨?_, by decide, by decide⟩
  intro call listed store
  simp only [List.mem_cons, List.not_mem_nil, or_false] at listed
  obtain rfl | rfl := listed <;> rfl

end ClashVerge.Runstate
