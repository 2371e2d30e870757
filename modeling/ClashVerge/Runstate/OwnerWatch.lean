import Mathlib.Data.List.Infix

/-!
# Watching the owner of the service

`OwnerWatch` counts the samples that could not be read and, on its own, the status samples without a
core. What it says of a sample depends on how many could not be read since the last status or the
last resolve with the endpoint still there, and on the last three statuses.
-/

namespace ClashVerge.Runstate

/-- The states of the service, as far as the watch tells them apart. -/
inductive ServiceLifecycleState where
  | starting
  | recoveringCore
  | fatal
  | other
deriving DecidableEq

def sustainedSamples : Nat := 3

inductive OwnerRecoveryReason where
  | displaced
  | sameOwnerFailure
  | transportFailure
deriving DecidableEq

inductive OwnerSample where
  | unreadable
  | notActive
  | status (isActive desiredCoreShouldBeRunning : Bool) (serviceState : ServiceLifecycleState)
      (corePid : Option Nat)
deriving DecidableEq

inductive OwnerStep where
  | continue_
  | verifyTransport
  | recover (reason : OwnerRecoveryReason)
deriving DecidableEq

structure OwnerWatch where
  unreadableSamples : Nat
  missingCoreSamples : Nat
deriving DecidableEq

/-- `saturating_add(1)` of a byte. -/
def saturatingAdd (samples : Nat) : Nat := min (samples + 1) 255

def isSettling (serviceState : ServiceLifecycleState) : Bool :=
  serviceState == .starting || serviceState == .recoveringCore

def recoveryReason (isActive desiredRunning : Bool) (serviceState : ServiceLifecycleState)
    (corePid : Option Nat) (missingCoreSamples : Nat) : Option OwnerRecoveryReason :=
  if !isActive then some .displaced
  else
    let coreIsGone :=
      !isSettling serviceState && corePid.isNone && sustainedSamples ≤ missingCoreSamples
    if !desiredRunning || serviceState == .fatal || coreIsGone then some .sameOwnerFailure
    else none

namespace OwnerWatch

def new : OwnerWatch where
  unreadableSamples := 0
  missingCoreSamples := 0

def justBecameSustained (watch : OwnerWatch) : Bool := watch.unreadableSamples == sustainedSamples

def observe (watch : OwnerWatch) : OwnerSample → OwnerWatch × OwnerStep
  | .unreadable =>
    let watch := { watch with unreadableSamples := saturatingAdd watch.unreadableSamples }
    (watch, if sustainedSamples ≤ watch.unreadableSamples then .verifyTransport else .continue_)
  | .notActive => (watch, .recover .displaced)
  | .status isActive desiredRunning serviceState corePid =>
    let missingCoreSamples :=
      if corePid.isNone && !isSettling serviceState then saturatingAdd watch.missingCoreSamples
      else 0
    let watch := { unreadableSamples := 0, missingCoreSamples }
    (watch,
      match recoveryReason isActive desiredRunning serviceState corePid missingCoreSamples with
      | some reason => .recover reason
      | none => .continue_)

def resolveTransport (watch : OwnerWatch) (ownerEndpointAvailable : Bool) :
    OwnerWatch × OwnerStep :=
  if ownerEndpointAvailable then ({ watch with unreadableSamples := 0 }, .continue_)
  else (watch, .recover .transportFailure)

end OwnerWatch

inductive Event where
  | sample (sample : OwnerSample)
  | resolve (ownerEndpointAvailable : Bool)
deriving DecidableEq

namespace Event

def endsRun : Event → Bool
  | sample (.status ..) => true
  | resolve available => available
  | _ => false

def unreadable : Event → Bool
  | sample .unreadable => true
  | _ => false

def missing : Event → Option Bool
  | sample (.status _ _ serviceState corePid) => some (corePid.isNone && !isSettling serviceState)
  | _ => none

end Event

namespace OwnerWatch

def step (watch : OwnerWatch) : Event → OwnerWatch × OwnerStep
  | .sample sample => watch.observe sample
  | .resolve available => watch.resolveTransport available

/-- The caller asks for the signal when it is told to verify the transport. -/
def signals (watch : OwnerWatch) (event : Event) : Bool :=
  (watch.step event).2 == .verifyTransport && (watch.step event).1.justBecameSustained

def signalCount : OwnerWatch → List Event → Nat
  | _, [] => 0
  | watch, event :: rest =>
    (if watch.signals event then 1 else 0) + signalCount (watch.step event).1 rest

end OwnerWatch

def watched (trace : List Event) : OwnerWatch :=
  trace.foldl (fun watch event => (watch.step event).1) .new

def emitted (trace : List Event) (event : Event) : OwnerStep := ((watched trace).step event).2

/-- At least three samples could not be read since the last status and the last resolve with the
endpoint still there. -/
def Silent (trace : List Event) : Prop :=
  ∃ before run, trace = before ++ run ∧ (∀ event ∈ run, event.endsRun = false) ∧
    3 ≤ run.countP Event.unreadable

/-- The last three statuses are without a core, though none of them is settling. -/
def CoreMissing (trace : List Event) : Prop := [true, true, true] <:+ trace.filterMap Event.missing

def currentRun (trace : List Event) : List Event :=
  trace.foldl (fun run event => if event.endsRun then [] else run ++ [event]) []

theorem watched_concat (trace : List Event) (event : Event) :
    watched (trace ++ [event]) = ((watched trace).step event).1 := by
  rw [watched, List.foldl_append]
  rfl

theorem currentRun_concat (trace : List Event) (event : Event) : currentRun (trace ++ [event]) =
    if event.endsRun then [] else currentRun trace ++ [event] := by
  rw [currentRun, List.foldl_append]
  rfl

theorem currentRun_append (before : List Event) {run : List Event}
    (goesOn : ∀ event ∈ run, event.endsRun = false) :
    currentRun (before ++ run) = currentRun before ++ run := by
  induction run using List.reverseRecOn with
  | nil => rw [List.append_nil, List.append_nil]
  | append_singleton earlier last ih =>
    have later := ih fun event listed => goesOn event (List.mem_append_left _ listed)
    rw [← List.append_assoc, currentRun_concat, goesOn last (by simp), later]
    simp

theorem currentRun_spec (trace : List Event) : (∃ before, trace = before ++ currentRun trace) ∧
      ∀ event ∈ currentRun trace, event.endsRun = false := by
  induction trace using List.reverseRecOn with
  | nil => exact ⟨⟨[], rfl⟩, fun _ listed => absurd listed List.not_mem_nil⟩
  | append_singleton earlier last ih =>
    obtain ⟨⟨before, whole⟩, goesOn⟩ := ih
    rw [currentRun_concat]
    split
    · exact ⟨⟨_, (List.append_nil _).symm⟩, fun _ listed => absurd listed List.not_mem_nil⟩
    · rename_i plain
      refine ⟨⟨before, by rw [← List.append_assoc, ← whole]⟩, fun event listed => ?_⟩
      obtain here | rfl := (List.mem_append.mp listed).imp_right List.mem_singleton.mp
      · exact goesOn event here
      · exact Bool.eq_false_iff.mpr plain

theorem silent_iff (trace : List Event) :
    Silent trace ↔ 3 ≤ (currentRun trace).countP Event.unreadable := by
  obtain ⟨⟨before, whole⟩, goesOn⟩ := currentRun_spec trace
  constructor
  · rintro ⟨first, run, rfl, plain, three⟩
    rw [currentRun_append first plain, List.countP_append]
    omega
  · exact fun three => ⟨before, currentRun trace, whole, goesOn, three⟩

theorem unreadableSamples_watched (trace : List Event) : (watched trace).unreadableSamples =
    min ((currentRun trace).countP Event.unreadable) 255 := by
  induction trace using List.reverseRecOn with
  | nil => rfl
  | append_singleton earlier last ih =>
    rw [watched_concat, currentRun_concat]
    cases last with
    | resolve available =>
      cases available with
      | true => rfl
      | false =>
        rw [if_neg (by decide), List.countP_append]
        exact ih
    | sample sample =>
      cases sample with
      | unreadable =>
        change saturatingAdd (watched earlier).unreadableSamples = _
        have one : ([Event.sample .unreadable]).countP Event.unreadable = 1 := rfl
        rw [ih, saturatingAdd, if_neg (by decide), List.countP_append, one]
        omega
      | notActive =>
        rw [if_neg (by decide), List.countP_append]
        exact ih
      | status => rfl

/-- How many of the last statuses in a row are without a core. -/
def missingRun (trace : List Event) : Nat :=
  ((trace.filterMap Event.missing).reverse.takeWhile id).length

theorem missingRun_status (trace : List Event) (isActive desired : Bool)
    (serviceState : ServiceLifecycleState) (corePid : Option Nat) :
    missingRun (trace ++ [.sample (.status isActive desired serviceState corePid)]) =
      if corePid.isNone && !isSettling serviceState then missingRun trace + 1 else 0 := by
  rw [missingRun, List.filterMap_append]
  cases gone : corePid.isNone && !isSettling serviceState <;> simp [Event.missing, gone, missingRun]

theorem missingCoreSamples_watched (trace : List Event) :
    (watched trace).missingCoreSamples = min (missingRun trace) 255 := by
  induction trace using List.reverseRecOn with
  | nil => rfl
  | append_singleton earlier last ih =>
    rw [watched_concat]
    have kept (skipped : last.missing = none) :
        missingRun (earlier ++ [last]) = missingRun earlier := by
      rw [missingRun, List.filterMap_append, List.filterMap_cons, skipped]
      simp [missingRun]
    cases last with
    | resolve available => cases available <;> exact ih.trans (by rw [kept rfl])
    | sample sample =>
      cases sample with
      | unreadable | notActive => exact ih.trans (by rw [kept rfl])
      | status isActive desired serviceState corePid =>
        change (if corePid.isNone && !isSettling serviceState then
          saturatingAdd (watched earlier).missingCoreSamples else 0) = _
        rw [missingRun_status, ih, saturatingAdd]
        split <;> omega

theorem coreMissing_iff (trace : List Event) : CoreMissing trace ↔ 3 ≤ missingRun trace := by
  rw [CoreMissing, ← List.reverse_prefix, missingRun]
  generalize (trace.filterMap Event.missing).reverse = latest
  match latest with
  | [] => simp
  | [one] => cases one <;> simp
  | [one, two] => cases one <;> cases two <;> simp
  | one :: two :: three :: rest => cases one <;> cases two <;> cases three <;> simp

theorem emitted_verifyTransport_iff (trace : List Event) (event : Event) :
    emitted trace event = .verifyTransport ↔
      event = .sample .unreadable ∧ Silent (trace ++ [event]) := by
  have counted := unreadableSamples_watched trace
  rw [silent_iff, currentRun_concat]
  cases event with
  | resolve available =>
    cases available <;> simp [emitted, OwnerWatch.step, OwnerWatch.resolveTransport]
  | sample sample =>
    cases sample with
    | unreadable =>
      have one : ([Event.sample .unreadable]).countP Event.unreadable = 1 := rfl
      have said : emitted trace (.sample .unreadable) =
          if 3 ≤ saturatingAdd (watched trace).unreadableSamples then .verifyTransport
          else .continue_ := rfl
      rw [said, counted, saturatingAdd, if_neg (by decide : ¬ _ = true), List.countP_append, one]
      constructor
      · intro sustained
        split at sustained
        · exact ⟨rfl, by omega⟩
        · cases sustained
      · rintro ⟨-, three⟩
        rw [if_pos (by omega)]
    | notActive => simp [emitted, OwnerWatch.step, OwnerWatch.observe]
    | status isActive desired serviceState corePid =>
      simp only [emitted, OwnerWatch.step, OwnerWatch.observe]
      split <;> simp

theorem recoveryReason_sameOwnerFailure (isActive desiredRunning : Bool)
    (serviceState : ServiceLifecycleState) (corePid : Option Nat) (missing : Nat) :
    recoveryReason isActive desiredRunning serviceState corePid missing =
        some .sameOwnerFailure ↔ isActive = true ∧ (desiredRunning = false ∨
      serviceState = .fatal ∨ isSettling serviceState = false ∧ corePid = none ∧ 3 ≤ missing) := by
  unfold recoveryReason sustainedSamples
  cases isActive <;> cases desiredRunning <;> cases corePid <;> simp [or_iff_not_imp_left]

/-- A status of an active owner leads to a recovery at once if no core is wanted or the service has
failed for good, and otherwise if it is the third in a row without a core. -/
theorem emitted_sameOwnerFailure_iff (trace : List Event) (event : Event) :
    emitted trace event = .recover .sameOwnerFailure ↔ ∃ desired serviceState corePid,
      event = .sample (.status true desired serviceState corePid) ∧
        (desired = false ∨ serviceState = .fatal ∨ CoreMissing (trace ++ [event])) := by
  cases event with
  | resolve available =>
    cases available <;> simp [emitted, OwnerWatch.step, OwnerWatch.resolveTransport]
  | sample sample =>
    cases sample with
    | unreadable =>
      simp only [emitted, OwnerWatch.step, OwnerWatch.observe]
      split <;> simp
    | notActive => simp [emitted, OwnerWatch.step, OwnerWatch.observe]
    | status isActive desired serviceState corePid =>
      have counted := missingCoreSamples_watched
        (trace ++ [.sample (.status isActive desired serviceState corePid)])
      have said : emitted trace (.sample (.status isActive desired serviceState corePid)) =
          match recoveryReason isActive desired serviceState corePid (watched
            (trace ++ [.sample (.status isActive desired serviceState corePid)])).missingCoreSamples
          with
          | some reason => .recover reason
          | none => .continue_ := by
        rw [watched_concat]
        rfl
      have recovers : emitted trace (.sample (.status isActive desired serviceState corePid)) =
            .recover .sameOwnerFailure ↔
          recoveryReason isActive desired serviceState corePid (watched
            (trace ++ [.sample (.status isActive desired serviceState corePid)])).missingCoreSamples =
              some .sameOwnerFailure := by
        rw [said]
        split
        · rename_i reason found
          rw [found, OwnerStep.recover.injEq, Option.some.injEq]
        · rename_i found
          simp [found]
      have gone : (isSettling serviceState = false ∧ corePid = none ∧ 3 ≤ min (missingRun
            (trace ++ [.sample (.status isActive desired serviceState corePid)])) 255) ↔
          CoreMissing (trace ++ [.sample (.status isActive desired serviceState corePid)]) := by
        rw [coreMissing_iff, missingRun_status]
        cases settling : isSettling serviceState <;> cases corePid <;> simp [Nat.le_min]
      rw [recovers, counted, recoveryReason_sameOwnerFailure, gone]
      constructor
      · rintro ⟨rfl, cause⟩
        exact ⟨desired, serviceState, corePid, rfl, cause⟩
      · rintro ⟨_, _, _, same, cause⟩
        obtain ⟨rfl, rfl, rfl, rfl⟩ := OwnerSample.status.inj (Event.sample.inj same)
        exact ⟨rfl, cause⟩

theorem signalCount_run (watch : OwnerWatch) {run : List Event}
    (goesOn : ∀ event ∈ run, event.endsRun = false) : watch.signalCount run =
      if watch.unreadableSamples < 3 ∧ 3 ≤ watch.unreadableSamples + run.countP Event.unreadable
      then 1 else 0 := by
  induction run generalizing watch with
  | nil =>
    rw [OwnerWatch.signalCount, List.countP_nil, if_neg (by omega)]
  | cons event rest ih =>
    obtain ⟨here, later⟩ := List.forall_mem_cons.mp goesOn
    rw [OwnerWatch.signalCount, ih _ later, List.countP_cons]
    cases event with
    | resolve available =>
      obtain rfl : available = false := here
      have quiet : watch.signals (.resolve false) = false := rfl
      rw [quiet, if_neg Bool.false_ne_true, Nat.zero_add]
      rfl
    | sample sample =>
      cases sample with
      | unreadable =>
        have next : (watch.step (.sample .unreadable)).1.unreadableSamples =
            saturatingAdd watch.unreadableSamples := rfl
        have signal : watch.signals (.sample .unreadable) =
            (saturatingAdd watch.unreadableSamples == 3) := by
          change ((if 3 ≤ saturatingAdd watch.unreadableSamples then OwnerStep.verifyTransport
            else .continue_) == .verifyTransport && (saturatingAdd watch.unreadableSamples == 3)) = _
          split
          · exact Bool.true_and _
          · rename_i less
            exact (Bool.false_and _).trans (beq_eq_false_iff_ne.mpr (by omega)).symm
        have unreadable : Event.unreadable (.sample .unreadable) = true := rfl
        rw [next, signal, unreadable, if_pos rfl, saturatingAdd]
        by_cases third : min (watch.unreadableSamples + 1) 255 = 3
        · rw [third, if_pos (by decide), if_neg (by omega), if_pos (by omega)]
        · rw [beq_eq_false_iff_ne.mpr third, if_neg (by decide), Nat.zero_add]
          refine if_congr ?_ rfl rfl
          omega
      | notActive =>
        have quiet : watch.signals (.sample .notActive) = false := rfl
        rw [quiet, if_neg Bool.false_ne_true, Nat.zero_add]
        rfl
      | status => cases here

/-- A run of evidence begins with the trace, or behind the event that ended the last one. -/
def Begins (before : List Event) : Prop :=
  before = [] ∨ ∃ earlier last, before = earlier ++ [last] ∧ last.endsRun = true

theorem unreadableSamples_begins {before : List Event} (begins : Begins before) :
    (watched before).unreadableSamples = 0 := by
  rw [unreadableSamples_watched]
  obtain rfl | ⟨earlier, last, rfl, ends⟩ := begins
  · rfl
  · rw [currentRun_concat, if_pos ends]
    rfl

/-- What the watch says of an event. -/
structure FiresExactly (trace : List Event) (event : Event) : Prop where
  verifies : emitted trace event = .verifyTransport ↔
    event = .sample .unreadable ∧ Silent (trace ++ [event])
  recovers : emitted trace event = .recover .sameOwnerFailure ↔ ∃ desired serviceState corePid,
    event = .sample (.status true desired serviceState corePid) ∧
      (desired = false ∨ serviceState = .fatal ∨ CoreMissing (trace ++ [event]))

/-- The watch fires exactly on sustained evidence, and signals each run of it once. -/
theorem ownerWatch_exact : (∀ trace event, FiresExactly trace event) ∧
    ∀ before run, Begins before → (∀ event ∈ run, event.endsRun = false) →
      (watched before).signalCount run = if 3 ≤ run.countP Event.unreadable then 1 else 0 := by
  constructor
  · exact fun trace event =>
      ⟨emitted_verifyTransport_iff trace event, emitted_sameOwnerFailure_iff trace event⟩
  · intro before run begins goesOn
    rw [signalCount_run _ goesOn, unreadableSamples_begins begins]
    refine if_congr ?_ rfl rfl
    omega

/-- Four samples that could not be read, from the start. -/
theorem ownerWatch_exact_four :
    (watched []).signalCount (List.replicate 4 (.sample .unreadable)) = 1 :=
  ownerWatch_exact.2 [] _ (.inl rfl) (by decide)

/-- A resolve that does not find the endpoint leaves the count as it is, so that a single sample
behind it is enough. -/
theorem resolve_unavailable_keeps :
    ¬ ∀ trace event, emitted trace event = .verifyTransport ↔ event = .sample .unreadable ∧
      3 ≤ ((trace ++ [event]).reverse.takeWhile fun event =>
        !(event.endsRun || event == .resolve false)).countP Event.unreadable := by
  intro each
  have said := (each [.sample .unreadable, .sample .unreadable, .sample .unreadable, .resolve false]
    (.sample .unreadable)).mp (by decide)
  exact absurd said.2 (by decide)

end ClashVerge.Runstate
