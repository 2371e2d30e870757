import ClashVerge.Config.ProxyPorts

/-!
# The startup fallback of the mixed port

When another program serves on the mixed port at startup, the session moves on to a free port: the
scan goes round the ports from 1025 on, and the runtime configuration with the port is checked and
written before it is committed. What the user chose stays on disk.
-/

namespace ClashVerge.Config.PortFallback

open ClashVerge.Draft ClashVerge.Config

/-! ## The scan -/

def MIN_FALLBACK_PORT : UInt16 := 1025

def nextCandidate (port : UInt16) : UInt16 :=
  if port < MIN_FALLBACK_PORT ∨ port = 65535 then MIN_FALLBACK_PORT else port + 1

/-- The loop of `find_next_available_port`, with so many steps to go. -/
def scan (current : UInt16) (reserved : List UInt16) (isAvailable : UInt16 → Bool) :
    Nat → UInt16 → Option UInt16
  | 0, _ => none
  | steps + 1, candidate =>
    if candidate ≠ current ∧ candidate ∉ reserved ∧ isAvailable candidate then some candidate
    else scan current reserved isAvailable steps (nextCandidate candidate)

def findNextAvailablePort (current : UInt16) (reserved : List UInt16)
    (isAvailable : UInt16 → Bool) : Option UInt16 :=
  scan current reserved isAvailable (65535 - MIN_FALLBACK_PORT.toNat + 1) (nextCandidate current)

/-- A port that the scan may end at. -/
structure Eligible (current : UInt16) (reserved : List UInt16) (isAvailable : UInt16 → Bool)
    (port : UInt16) : Prop where
  range : 1025 ≤ port.toNat
  different : port ≠ current
  unreserved : port ∉ reserved
  available : isAvailable port

/-- The place of a port in the cycle of the ports from 1025 on, when one starts behind another. -/
def turn (current port : UInt16) : Nat :=
  if current.toNat < port.toNat then port.toNat else port.toNat + 64511

theorem turn_injective {current one other : UInt16} (low : 1025 ≤ one.toNat)
    (low' : 1025 ≤ other.toNat) (same : turn current one = turn current other) : one = other := by
  have small := one.toNat_lt
  have small' := other.toNat_lt
  apply UInt16.toNat_inj.mp
  unfold turn at same
  split_ifs at same <;> omega

theorem toNat_nextCandidate (port : UInt16) : (nextCandidate port).toNat =
    if port.toNat < 1025 ∨ port.toNat = 65535 then 1025 else port.toNat + 1 := by
  have low : port < MIN_FALLBACK_PORT ↔ port.toNat < 1025 := UInt16.lt_iff_toNat_lt
  have last : port = 65535 ↔ port.toNat = 65535 := UInt16.toNat_inj.symm
  have small := port.toNat_lt
  unfold nextCandidate
  simp only [low, last]
  split
  · rfl
  · rw [UInt16.toNat_add]
    exact Nat.mod_eq_of_lt (by simp; omega)

section

variable {current candidate : UInt16} {reserved : List UInt16} {isAvailable : UInt16 → Bool}

theorem turn_bounds (current : UInt16) {port : UInt16} (low : 1025 ≤ port.toNat) :
    turn current (nextCandidate current) ≤ turn current port ∧
      turn current port < turn current (nextCandidate current) + 64511 := by
  have small := port.toNat_lt
  have small' := current.toNat_lt
  simp only [turn, toNat_nextCandidate]
  split_ifs <;> omega

theorem turn_nextCandidate (low : 1025 ≤ candidate.toNat)
    (inside : turn current candidate + 1 < turn current (nextCandidate current) + 64511) :
    turn current (nextCandidate candidate) = turn current candidate + 1 := by
  have small := candidate.toNat_lt
  have small' := current.toNat_lt
  simp only [turn, toNat_nextCandidate] at inside ⊢
  split_ifs at inside ⊢ <;> omega

theorem scan_spec {steps : Nat} (low : 1025 ≤ candidate.toNat)
    (ahead : turn current candidate + steps = turn current (nextCandidate current) + 64511)
    {found : Option UInt16} (ends : scan current reserved isAvailable steps candidate = found) :
    (∀ port, found = some port → Eligible current reserved isAvailable port) ∧
      ∀ other, Eligible current reserved isAvailable other →
        turn current candidate ≤ turn current other →
        ∃ port, found = some port ∧ turn current port ≤ turn current other := by
  induction steps generalizing candidate with
  | zero =>
    subst ends
    refine ⟨by simp [scan], fun other eligible behind => ?_⟩
    have bounds := turn_bounds current eligible.range
    omega
  | succ steps ih =>
    unfold scan at ends
    split at ends
    · rename_i fits
      subst ends
      obtain ⟨different, unreserved, available⟩ := fits
      refine ⟨?_, fun other _ behind => ⟨candidate, rfl, behind⟩⟩
      rintro _ ⟨⟩
      exact ⟨low, different, unreserved, available⟩
    · rename_i unfit
      have beyond : ∀ other, Eligible current reserved isAvailable other →
          turn current candidate ≤ turn current other →
          turn current candidate + 1 ≤ turn current other := by
        intro other eligible behind
        refine Nat.lt_of_le_of_ne behind fun same => unfit ?_
        obtain rfl := turn_injective low eligible.range same
        exact ⟨eligible.different, eligible.unreserved, eligible.available⟩
      by_cases last : steps = 0
      · subst last
        subst ends
        refine ⟨by simp [scan], fun other eligible behind => ?_⟩
        have bounds := turn_bounds current eligible.range
        have later := beyond other eligible behind
        omega
      · have next : turn current (nextCandidate candidate) = turn current candidate + 1 :=
          turn_nextCandidate low (by omega)
        have low' : 1025 ≤ (nextCandidate candidate).toNat := by
          rw [toNat_nextCandidate]
          split <;> omega
        obtain ⟨eligible, first⟩ := ih low' (by omega) ends
        exact ⟨eligible, fun other fits behind =>
          first other fits (by rw [next]; exact beyond other fits behind)⟩

theorem findNextAvailablePort_spec {found : Option UInt16}
    (ends : findNextAvailablePort current reserved isAvailable = found) :
    (∀ port, found = some port → Eligible current reserved isAvailable port) ∧
      ∀ other, Eligible current reserved isAvailable other →
        ∃ port, found = some port ∧ turn current port ≤ turn current other := by
  have low : 1025 ≤ (nextCandidate current).toNat := by
    rw [toNat_nextCandidate]
    split <;> omega
  obtain ⟨eligible, first⟩ := scan_spec low (by rfl) ends
  exact ⟨eligible, fun other fits => first other fits (turn_bounds current fits.range).1⟩

end

/-! ## The attempts of a session -/

structure MixedPortFallback where
  original : UInt16
  current : UInt16
deriving DecidableEq

variable {Runtime : Type}

structure Session (Runtime : Type) where
  /-- `SESSION_FALLBACK`, where zero stands for no port. -/
  borrowedPort : UInt16
  runtime : Slot Runtime
  runtimeClaimed : Bool
  pendingNotice : Option MixedPortFallback
deriving DecidableEq

namespace Session

variable (session : Session Runtime)

def sessionFallback : Option UInt16 :=
  if session.borrowedPort = 0 then none else some session.borrowedPort

/-- What `apply_startup_mixed_port_fallback` does to the override when the staging fails. -/
def restoreFallback : Option UInt16 → Session Runtime
  | some port => { session with borrowedPort := port }
  | none => { session with borrowedPort := 0 }

def recordFallback (oldPort newPort : UInt16) : Session Runtime :=
  { session with pendingNotice :=
      match session.pendingNotice with
      | some change => some { change with current := newPort }
      | none => some ⟨oldPort, newPort⟩ }

end Session

/-- An error of a step, under the text that stands before it. -/
def context {α : Type} (text : String) : Except String α → Except String α :=
  Except.mapError fun _ => text

/-- What one attempt finds and how each of its steps ends. -/
structure Attempt (Runtime : Type) where
  mixedPort : UInt16
  bindScope : Except String Unit
  /-- `owned_service_core_uses_port`. -/
  owned : UInt16 → Bool
  probe : UInt16 → Except String ListenerProbeOutcome
  /-- `configured_listener_ports`. -/
  reserved : List UInt16
  isAvailable : UInt16 → Bool
  /-- The end of the task that scans. -/
  scanned : Except String Unit
  generate : Option UInt16 → Except String Runtime
  runtimeConfigYaml : Slot Runtime → Except String String
  validate : String → Except String ValidationOutcome
  writeRuntimeFile : String → Except String Unit
  /-- The name of the type of the runtime configuration. -/
  layerName : String

namespace Attempt

variable (attempt : Attempt Runtime)

/-- `stage_fallback_runtime` behind the generation. -/
def checkAndWrite (runtime : Slot Runtime) : Except String Unit := do
  let invalid := "failed to validate runtime configuration with fallback port"
  let yaml ← context invalid (attempt.runtimeConfigYaml runtime)
  let validation ← context invalid (attempt.validate yaml)
  if validation.isValid then
    context "failed to write Runtime Configuration" do
      attempt.writeRuntimeFile (← attempt.runtimeConfigYaml runtime)
  else throw ("runtime configuration with fallback port is invalid: " ++ validation.display)

def stageFallbackRuntime (session : Session Runtime) : Except String Unit × Session Runtime :=
  match attempt.generate session.sessionFallback with
  | .error _ =>
    (.error "failed to materialize runtime configuration with fallback port", session)
  | .ok runtime =>
    let staged := { session with runtime := session.runtime.editDraft fun _ => runtime }
    (attempt.checkAndWrite staged.runtime, staged)

/-- `apply_startup_mixed_port_fallback`. A transaction that is not committed discards the draft. -/
def applyFallback (oldPort newPort : UInt16) (session : Session Runtime) :
    Except String Unit × Session Runtime :=
  if session.runtimeClaimed then
    (.error ("configuration layer " ++ attempt.layerName ++ " is being changed elsewhere"), session)
  else
    let begun := { session with runtimeClaimed := true, borrowedPort := newPort }
    match attempt.stageFallbackRuntime begun with
    | (.error error, staged) =>
      (.error error, { staged.restoreFallback session.sessionFallback with
        runtime := staged.runtime.discard, runtimeClaimed := false })
    | (.ok (), staged) =>
      (.ok (), { staged with
        runtime := staged.runtime.apply, runtimeClaimed := false }.recordFallback oldPort newPort)

def selectedPort (session : Session Runtime) : UInt16 :=
  session.sessionFallback.getD attempt.mixedPort

def noPort : String := "no eligible mixed proxy port is available"

/-- `resolve_startup_mixed_port`. -/
def resolve (session : Session Runtime) : Except String Bool × Session Runtime :=
  let selectedPort := attempt.selectedPort session
  match attempt.bindScope with
  | .error _ => (.error "failed to derive mixed proxy listener scope", session)
  | .ok () =>
    if attempt.owned selectedPort then (.ok false, session)
    else
      match attempt.probe selectedPort, attempt.scanned with
      | .error _, _ => (.error "mixed proxy port probe task failed", session)
      | .ok (.conflict _ _), .error _ => (.error "mixed proxy fallback scan task failed", session)
      | .ok (.conflict _ _), .ok () =>
        match findNextAvailablePort selectedPort attempt.reserved attempt.isAvailable with
        | none => (.error noPort, session)
        | some candidate =>
          match attempt.applyFallback selectedPort candidate session with
          | (.error error, ended) => (.error error, ended)
          | (.ok (), ended) => (.ok true, ended)
      | .ok _, _ => (.ok false, session)

/-- The first port of the cycle that the session can move to. -/
structure FirstPort (session : Session Runtime) (port : UInt16) : Prop where
  eligible : Eligible (attempt.selectedPort session) attempt.reserved attempt.isAvailable port
  first : ∀ other, Eligible (attempt.selectedPort session) attempt.reserved attempt.isAvailable other →
    turn (attempt.selectedPort session) port ≤ turn (attempt.selectedPort session) other

/-- What is asked of one attempt. One that does not move the session drops at most a draft that
somebody else had staged. -/
structure Sound (session : Session Runtime) (outcome : Except String Bool)
    (ended : Session Runtime) : Prop where
  applied : outcome = .ok true →
    ∃ port, ended.sessionFallback = some port ∧ attempt.FirstPort session port
  none_ : outcome = .error noPort → ∀ port,
    ¬ Eligible (attempt.selectedPort session) attempt.reserved attempt.isAvailable port
  unmoved : outcome ≠ .ok true → ended = session ∨
    session.runtime.draft ≠ none ∧ ended = { session with runtime := session.runtime.discard }
  clean : session.runtime.draft = none → ended.runtime.draft = none

section

variable {attempt : Attempt Runtime} {session : Session Runtime}

theorem append_ne_noPort {start rest : String} (different : ¬ start.toList <+: noPort.toList) :
    start ++ rest ≠ noPort := fun same =>
  different ⟨rest.toList, by rw [← String.toList_append, same]⟩

theorem checkAndWrite_ne (runtime : Slot Runtime) :
    attempt.checkAndWrite runtime ≠ .error noPort := by
  have invalid (message : String) :
      "runtime configuration with fallback port is invalid: " ++ message ≠ noPort :=
    append_ne_noPort (by decide)
  simp only [checkAndWrite]
  cases attempt.runtimeConfigYaml runtime with
  | error error => simp [context, Except.mapError, bind, Except.bind, noPort]
  | ok yaml =>
    cases validated : attempt.validate yaml with
    | error error => simp [context, Except.mapError, bind, Except.bind, validated, noPort]
    | ok validation =>
      simp only [context, Except.mapError, bind, Except.bind, validated]
      split
      · cases attempt.writeRuntimeFile yaml <;> simp [noPort]
      · simpa [throw, throwThe, MonadExceptOf.throw] using invalid _

inductive Resolved (attempt : Attempt Runtime) (session : Session Runtime) :
    Except String Bool × Session Runtime → Prop where
  | kept {outcome : Except String Bool} (unmoved : outcome ≠ .ok true)
      (other : outcome ≠ .error noPort) : Resolved attempt session (outcome, session)
  | full (none_ : ∀ port,
      ¬ Eligible (attempt.selectedPort session) attempt.reserved attempt.isAvailable port) :
      Resolved attempt session (.error noPort, session)
  | undone {error : String} (other : error ≠ noPort) :
      Resolved attempt session
        (.error error, { session with runtime := session.runtime.discard })
  | moved {port : UInt16} (first : attempt.FirstPort session port) (runtime : Slot Runtime)
      (settled : runtime.draft = none) :
      Resolved attempt session (.ok true, { session with
        borrowedPort := port
        runtime
        pendingNotice :=
          (session.recordFallback (attempt.selectedPort session) port).pendingNotice })

theorem restoreFallback_sessionFallback (staged : Session Runtime) :
    staged.restoreFallback session.sessionFallback =
      { staged with borrowedPort := session.borrowedPort } := by
  unfold Session.sessionFallback
  split
  · rename_i zero
    rw [Session.restoreFallback, zero]
  · rfl

theorem resolve_resolved (attempt : Attempt Runtime) (session : Session Runtime) :
    Resolved attempt session (attempt.resolve session) := by
  simp only [resolve]
  cases attempt.bindScope with
  | error error => exact .kept (by simp) (by simp [noPort])
  | ok scope =>
    dsimp only
    split
    · exact .kept (by simp) (by simp)
    · split
      · exact .kept (by simp) (by simp [noPort])
      · exact .kept (by simp) (by simp [noPort])
      · have spec := findNextAvailablePort_spec
          (rfl : findNextAvailablePort (attempt.selectedPort session) attempt.reserved
            attempt.isAvailable = _)
        cases found : findNextAvailablePort (attempt.selectedPort session) attempt.reserved
            attempt.isAvailable with
        | none =>
          refine .full fun port eligible => ?_
          obtain ⟨_, some_, _⟩ := spec.2 port eligible
          rw [found] at some_
          cases some_
        | some port =>
          rw [found] at spec
          have first : attempt.FirstPort session port :=
            ⟨spec.1 port rfl, fun other eligible => by
              obtain ⟨_, ⟨⟩, before⟩ := spec.2 other eligible
              exact before⟩
          dsimp only [applyFallback]
          by_cases claimed : session.runtimeClaimed
          · rw [if_pos claimed]
            exact .kept (by simp)
              (by simpa [String.append_assoc] using append_ne_noPort (by decide))
          · rw [if_neg claimed]
            have free : session.runtimeClaimed = false := by simpa using claimed
            simp only [stageFallbackRuntime]
            cases attempt.generate ({ session with
                runtimeClaimed := true, borrowedPort := port } : Session Runtime).sessionFallback with
            | error error =>
              simp only [restoreFallback_sessionFallback, ← free]
              exact .undone (by simp [noPort])
            | ok runtime =>
              dsimp only
              cases checked : attempt.checkAndWrite
                  (session.runtime.editDraft fun _ => runtime) with
              | error error =>
                simp only [restoreFallback_sessionFallback, ← free]
                exact .undone fun same => checkAndWrite_ne _ (same ▸ checked)
              | ok done =>
                simp only [Session.recordFallback, ← free]
                exact .moved first _ (Slot.apply_draft _)
      · exact .kept (by simp) (by simp)

theorem sound_resolve (attempt : Attempt Runtime) (session : Session Runtime) :
    attempt.Sound session (attempt.resolve session).1 (attempt.resolve session).2 := by
  have resolved := resolve_resolved attempt session
  generalize attempt.resolve session = result at resolved
  cases resolved with
  | kept unmoved other =>
    exact ⟨fun moved => absurd moved unmoved, fun full => absurd full other, fun _ => .inl rfl, id⟩
  | full none_ => exact ⟨by simp, fun _ => none_, fun _ => .inl rfl, id⟩
  | undone other =>
    refine ⟨by simp, fun full => absurd (Except.error.inj full) other, fun _ => ?_, fun _ => rfl⟩
    by_cases clean : session.runtime.draft = none
    · exact .inl (by rw [Slot.discard_of_draft_none clean])
    · exact .inr ⟨clean, rfl⟩
  | @moved port first runtime settled =>
    refine ⟨fun _ => ⟨port, if_neg ?_, first⟩, by simp, fun unmoved => absurd rfl unmoved,
      fun _ => settled⟩
    rintro rfl
    exact absurd first.eligible.range (by decide)

end

end Attempt

/-! ## Runs of attempts -/

def resolveAll : List (Attempt Runtime) → Session Runtime → Session Runtime
  | [], session => session
  | attempt :: rest, session => resolveAll rest (attempt.resolve session).2

/-- The ports that the session leaves and moves to, one after the other. -/
def hops : List (Attempt Runtime) → Session Runtime → List (UInt16 × UInt16)
  | [], _ => []
  | attempt :: rest, session =>
    let (outcome, ended) := attempt.resolve session
    if outcome.toOption = some true then
      (attempt.selectedPort session, ended.borrowedPort) :: hops rest ended
    else hops rest ended

theorem notice_resolveAll (attempts : List (Attempt Runtime)) (session : Session Runtime) :
    (resolveAll attempts session).pendingNotice.map (·.original) =
        (session.pendingNotice.map (·.original)).or ((hops attempts session).head?.map Prod.fst) ∧
      (resolveAll attempts session).pendingNotice.map (·.current) =
        ((hops attempts session).getLast?.map Prod.snd).or (session.pendingNotice.map (·.current)) := by
  induction attempts generalizing session with
  | nil => simp [resolveAll, hops]
  | cons attempt rest ih =>
    have resolved := Attempt.resolve_resolved attempt session
    simp only [resolveAll, hops]
    generalize attempt.resolve session = result at resolved
    obtain ⟨original, current⟩ := ih result.2
    rw [original, current]
    cases resolved with
    | @kept outcome unmoved =>
      have unmoved : outcome.toOption ≠ some true := by
        cases outcome <;> simp_all [Except.toOption]
      simp only [if_neg unmoved, and_self]
    | full none_ | undone other => exact ⟨rfl, rfl⟩
    | moved first runtime settled =>
      simp only [Except.toOption, if_true, List.head?_cons, List.getLast?_cons]
      cases pending : session.pendingNotice <;> simp only [Session.recordFallback, pending] <;>
        cases (hops rest _).getLast? <;> simp

theorem clean_resolveAll (attempts : List (Attempt Runtime)) {session : Session Runtime}
    (clean : session.runtime.draft = none) : (resolveAll attempts session).runtime.draft = none := by
  induction attempts generalizing session with
  | nil => exact clean
  | cons attempt rest ih => exact ih ((attempt.sound_resolve session).clean clean)

/-- After any attempts the next one is sound, nothing is staged that was not at first, and the notice
that waits names the port that the first move left and the one that the last came to. -/
theorem startup_fallback (attempts : List (Attempt Runtime)) (session : Session Runtime) :
    let reached := resolveAll attempts session
    (∀ attempt : Attempt Runtime,
      attempt.Sound reached (attempt.resolve reached).1 (attempt.resolve reached).2) ∧
    (session.runtime.draft = none → reached.runtime.draft = none) ∧
    reached.pendingNotice.map (·.original) =
      (session.pendingNotice.map (·.original)).or ((hops attempts session).head?.map Prod.fst) ∧
    reached.pendingNotice.map (·.current) =
      ((hops attempts session).getLast?.map Prod.snd).or (session.pendingNotice.map (·.current)) :=
  ⟨fun attempt => attempt.sound_resolve _, clean_resolveAll attempts,
    notice_resolveAll attempts session⟩

/-- A conflict on every port, and no runtime configuration. -/
def failingAttempt : Attempt Unit where
  mixedPort := 7897
  bindScope := .ok ()
  owned _ := false
  probe port := .ok (.conflict port .tcp)
  reserved := []
  isAvailable _ := true
  scanned := .ok ()
  generate _ := .error "no profile"
  runtimeConfigYaml _ := .error "no configuration"
  validate _ := .error "no core"
  writeRuntimeFile _ := .error "no directory"
  layerName := "IRuntime"

/-- A draft that was staged before is gone when the attempt fails. -/
theorem failing_attempt_discards : ¬ ∀ (attempt : Attempt Unit) (session : Session Unit),
      (attempt.resolve session).1 ≠ .ok true →
        (attempt.resolve session).2.runtime.draft = session.runtime.draft := by
  intro all
  have kept := all failingAttempt ⟨0, ⟨(), some ()⟩, false, none⟩ (by decide)
  revert kept
  decide

end ClashVerge.Config.PortFallback
