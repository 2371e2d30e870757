import Mathlib.Data.List.Induction
import Mathlib.Order.MinMax

/-!
# The scheduled backup

`run_scheduler` sleeps for the configured interval and then triggers a backup. It also waits on a
watch channel, on which `refresh_settings` sends after every patch of the settings, whatever it was
about. A woken runner starts its sleep anew.

Time is counted in milliseconds, the grain of the timer. Where a message comes at the very moment
the sleep is over, either may be seen first. How long a triggered backup takes is not fixed.
-/

namespace ClashVerge.Module.AutoBackup

def DEFAULT_INTERVAL_HOURS : Nat := 24
def MIN_INTERVAL_HOURS : Nat := 1
def MAX_INTERVAL_HOURS : Nat := 168

/-- The entries of the application's settings that concern the backup. -/
structure Verge where
  enableAutoBackupSchedule : Option Bool
  autoBackupIntervalHours : Option Nat
  autoBackupOnChange : Option Bool
deriving DecidableEq, Repr

structure AutoBackupSettings where
  scheduleEnabled : Bool
  intervalHours : Nat
  changeEnabled : Bool
  clamped : MIN_INTERVAL_HOURS ≤ intervalHours ∧ intervalHours ≤ MAX_INTERVAL_HOURS
deriving DecidableEq, Repr

namespace AutoBackupSettings

def fromVerge (verge : Verge) : AutoBackupSettings where
  scheduleEnabled := verge.enableAutoBackupSchedule.getD false
  intervalHours :=
    max MIN_INTERVAL_HOURS
      (min (verge.autoBackupIntervalHours.getD DEFAULT_INTERVAL_HOURS) MAX_INTERVAL_HOURS)
  changeEnabled := verge.autoBackupOnChange.getD true
  clamped := by
    constructor
    · exact le_max_left _ _
    · exact max_le (by decide) (min_le_right _ _)

protected def default : AutoBackupSettings where
  scheduleEnabled := false
  intervalHours := DEFAULT_INTERVAL_HOURS
  changeEnabled := true
  clamped := by decide

/-- The length of the sleep, `interval_hours * 3600` seconds. -/
def duration (settings : AutoBackupSettings) : Nat := settings.intervalHours * 3600 * 1000

def keepsSchedule (before after : AutoBackupSettings) : Bool :=
  before.scheduleEnabled && after.scheduleEnabled && before.intervalHours == after.intervalHours

end AutoBackupSettings

/-- A message, the sleep or a message, or the end of the backup it has triggered. -/
inductive Phase where
  | disabled
  | sleeping (started deadline : Nat)
  | executing
deriving DecidableEq, Repr

structure Runner where
  current : AutoBackupSettings
  /-- The receiver has not seen the value sent last. -/
  changed : Bool
  phase : Phase
deriving DecidableEq, Repr

structure State where
  now : Nat
  /-- The settings, which are also the value of the watch channel. -/
  settings : AutoBackupSettings
  /-- The runner, once `ensure_runner` has started it. -/
  runner : Option Runner
  triggered : List Nat
deriving DecidableEq, Repr

/-- What happens to the manager. The sleep is over at its deadline; a passage of time that
goes beyond a deadline takes the expiry along. -/
inductive Event where
  | refreshSettings (verge : Verge)
  | pass (milliseconds : Nat)
  | expire
  | backupDone
deriving DecidableEq, Repr

namespace Runner

/-- The head of the loop: without a schedule it awaits a message, else it starts a sleep. -/
def round (runner : Runner) (now : Nat) : Runner :=
  { runner with
    phase :=
      if runner.current.scheduleEnabled then .sleeping now (now + runner.current.duration)
      else .disabled }

/-- The branch of `changed`, taken at once when there is a message, and the next round. -/
def takeChanged (runner : Runner) (settings : AutoBackupSettings) (now : Nat) : Runner :=
  if runner.changed then round ⟨settings, false, runner.phase⟩ now else runner

end Runner

namespace State

/-- The manager before `init`. -/
def new : State := ⟨0, .default, none, []⟩

/-- `ensure_runner`: the receiver of a runner just started has seen the value. -/
def startRunner (state : State) : State :=
  { state with runner := some (Runner.round ⟨state.settings, false, .disabled⟩ state.now) }

/-- `init` and `refresh_settings`: the settings are stored and sent, and a first schedule starts the
runner. -/
def refreshSettings (state : State) (verge : Verge) : State :=
  let settings := AutoBackupSettings.fromVerge verge
  match state.runner with
  | none =>
    if settings.scheduleEnabled then startRunner { state with settings := settings }
    else { state with settings := settings }
  | some runner =>
    { state with
      settings := settings
      runner :=
        if runner.phase = .executing then some { runner with changed := true }
        else some ({ runner with changed := true }.takeChanged settings state.now) }

def expireBefore (state : State) (bound : Nat) : State :=
  match state.runner with
  | some ⟨current, changed, .sleeping _ deadline⟩ =>
    if deadline < bound then
      { state with
        runner := some ⟨current, changed, .executing⟩
        triggered := state.triggered ++ [deadline] }
    else state
  | _ => state

/-- The triggered backup is over and the loop goes on. -/
def backupDone (state : State) : State :=
  match state.runner with
  | some ⟨current, changed, .executing⟩ =>
    { state with
      runner := some
        ((Runner.round ⟨current, changed, .executing⟩ state.now).takeChanged state.settings
          state.now) }
  | _ => state

def handle (state : State) : Event → State
  | .refreshSettings verge => state.refreshSettings verge
  | .pass milliseconds =>
    { state.expireBefore (state.now + milliseconds) with now := state.now + milliseconds }
  | .expire => state.expireBefore (state.now + 1)
  | .backupDone => state.backupDone

def run (events : List Event) : State := events.foldl handle new

/-- The moment of the next scheduled backup, while the runner waits for it. -/
def nextDeadline (state : State) : Option Nat :=
  match state.runner with
  | some ⟨_, _, .sleeping _ deadline⟩ => some deadline
  | _ => none

/-- The runner is in a sleep that has begun at an earlier moment. -/
def insideSleep (state : State) : Prop :=
  ∃ runner started deadline, state.runner = some runner ∧
    runner.phase = .sleeping started deadline ∧ started < state.now

end State

def storedAfter (settings : AutoBackupSettings) : Event → AutoBackupSettings
  | .refreshSettings verge => .fromVerge verge
  | _ => settings

def keeps (settings : AutoBackupSettings) : Event → Bool
  | .refreshSettings verge => settings.keepsSchedule (.fromVerge verge)
  | _ => false

/-- The trace without the calls that keep the schedule. -/
def withoutUnchanged : AutoBackupSettings → List Event → List Event
  | _, [] => []
  | settings, event :: rest =>
    if keeps settings event then withoutUnchanged (storedAfter settings event) rest
    else event :: withoutUnchanged (storedAfter settings event) rest

theorem withoutUnchanged_concat (settings : AutoBackupSettings) (before : List Event)
    (event : Event) :
    withoutUnchanged settings (before ++ [event]) =
      withoutUnchanged settings before ++
        if keeps (before.foldl storedAfter settings) event then [] else [event] := by
  induction before generalizing settings with
  | nil => by_cases kept : keeps settings event <;> simp [withoutUnchanged, kept]
  | cons first rest ih =>
    simp only [List.cons_append, withoutUnchanged, List.foldl_cons]
    rw [ih]
    cases keeps settings first with
    | true => rfl
    | false => rfl

/-- What the schedule depends on: of the settings, whether there is a schedule and how long its
sleep is, and of the runner, what it awaits. -/
structure Schedule where
  now : Nat
  enabled : Bool
  duration : Nat
  phase : Option Phase
  triggered : List Nat
deriving DecidableEq, Repr

namespace Schedule

/-- What a runner awaits that goes round with the settings stored. -/
def awake (schedule : Schedule) : Phase :=
  if schedule.enabled then .sleeping schedule.now (schedule.now + schedule.duration)
  else .disabled

/-- New settings; only a runner with a backup under way leaves them for later. -/
def refresh (schedule : Schedule) (settings : AutoBackupSettings) : Schedule :=
  let stored : Schedule :=
    { schedule with enabled := settings.scheduleEnabled, duration := settings.duration }
  { stored with
    phase := match schedule.phase with
      | none => if settings.scheduleEnabled then some stored.awake else none
      | some .executing => some .executing
      | some _ => some stored.awake }

def expireBefore (schedule : Schedule) (bound : Nat) : Schedule :=
  match schedule.phase with
  | some (.sleeping _ deadline) =>
    if deadline < bound then
      { schedule with
        phase := some .executing
        triggered := schedule.triggered ++ [deadline] }
    else schedule
  | _ => schedule

def handle (schedule : Schedule) : Event → Schedule
  | .refreshSettings verge => schedule.refresh (.fromVerge verge)
  | .pass milliseconds =>
    { schedule.expireBefore (schedule.now + milliseconds) with
      now := schedule.now + milliseconds }
  | .expire => schedule.expireBefore (schedule.now + 1)
  | .backupDone =>
    match schedule.phase with
    | some .executing => { schedule with phase := some schedule.awake }
    | _ => schedule

def nextDeadline (schedule : Schedule) : Option Nat :=
  match schedule.phase with
  | some (.sleeping _ deadline) => some deadline
  | _ => none

end Schedule

/-- A phase that belongs to the settings: a sleep has their length and began in the past. -/
def Phase.Fits (settings : AutoBackupSettings) (now : Nat) : Phase → Prop
  | .disabled => settings.scheduleEnabled = false
  | .sleeping started deadline =>
    settings.scheduleEnabled ∧ deadline = started + settings.duration ∧ started ≤ now
  | .executing => True

namespace State

def schedule (state : State) : Schedule :=
  ⟨state.now, state.settings.scheduleEnabled, state.settings.duration,
    state.runner.map Runner.phase, state.triggered⟩

theorem nextDeadline_schedule (state : State) :
    state.schedule.nextDeadline = state.nextDeadline := by
  obtain ⟨now, settings, runner, triggered⟩ := state
  obtain _ | ⟨current, changed, phase⟩ := runner
  · rfl
  · cases phase <;> rfl

/-- Without a runner there is no schedule. A runner goes by the settings stored, unless a
message has come during a backup. -/
structure Valid (state : State) : Prop where
  unstarted : state.runner = none → state.settings.scheduleEnabled = false
  seen : ∀ runner, state.runner = some runner → runner.phase ≠ .executing →
    runner.changed = false
  current : ∀ runner, state.runner = some runner → runner.changed = false →
    runner.current = state.settings
  fits : ∀ runner, state.runner = some runner → runner.phase.Fits runner.current state.now

variable {state : State}

theorem Valid.of_unstarted (unstarted : state.runner = none)
    (off : state.settings.scheduleEnabled = false) : Valid state := by
  refine ⟨fun _ => off, ?_, ?_, ?_⟩ <;> intro runner started <;>
    exact absurd (unstarted.symm.trans started) (by simp)

theorem Valid.of_executing {runner : Runner} (started : state.runner = some runner)
    (busy : runner.phase = .executing)
    (current : runner.changed = false → runner.current = state.settings) : Valid state := by
  refine ⟨by simp [started], ?_, ?_, ?_⟩ <;> intro other same <;>
    obtain rfl := Option.some.inj (started.symm.trans same)
  · exact fun different => absurd busy different
  · exact current
  · exact busy ▸ trivial

theorem new_valid : Valid new := .of_unstarted rfl rfl

theorem Valid.of_round (phase : Phase)
    (awoken : state.runner = some (Runner.round ⟨state.settings, false, phase⟩ state.now)) :
    Valid state := by
  refine ⟨by simp [awoken], ?_, ?_, ?_⟩ <;> intro runner started <;>
    obtain rfl := Option.some.inj (awoken.symm.trans started)
  · exact fun _ => rfl
  · exact fun _ => rfl
  · by_cases enabled : state.settings.scheduleEnabled <;>
      simp [Runner.round, enabled, Phase.Fits]

section

variable (valid : Valid state)
include valid

theorem Valid.later (milliseconds : Nat) :
    Valid { state with now := state.now + milliseconds } := by
  refine ⟨valid.unstarted, valid.seen, valid.current, fun runner started => ?_⟩
  have fits := valid.fits runner started
  revert fits
  cases runner.phase with
  | disabled => exact id
  | executing => exact id
  | sleeping begun deadline =>
    rintro ⟨enabled, length, past⟩
    exact ⟨enabled, length, Nat.le_add_right_of_le past⟩

theorem Valid.expireBefore (bound : Nat) : Valid (state.expireBefore bound) := by
  obtain ⟨now, settings, runner, triggered⟩ := state
  obtain _ | ⟨current, changed, phase⟩ := runner
  · exact valid
  cases phase with
  | disabled => exact valid
  | executing => exact valid
  | sleeping begun deadline =>
    by_cases late : deadline < bound
    · simp only [State.expireBefore, if_pos late]
      exact .of_executing rfl rfl (valid.current ⟨current, changed, .sleeping begun deadline⟩ rfl)
    · simpa only [State.expireBefore, if_neg late] using valid

theorem Valid.handle (event : Event) : Valid (state.handle event) := by
  cases event with
  | pass milliseconds =>
    have now : (state.expireBefore (state.now + milliseconds)).now = state.now := by
      unfold State.expireBefore
      split
      · split <;> rfl
      · rfl
    have later := (valid.expireBefore (state.now + milliseconds)).later milliseconds
    rwa [now] at later
  | expire => exact valid.expireBefore (state.now + 1)
  | refreshSettings verge =>
    obtain ⟨now, settings, runner, triggered⟩ := state
    obtain _ | ⟨current, changed, phase⟩ := runner
    · by_cases enabled : (AutoBackupSettings.fromVerge verge).scheduleEnabled
      · simp only [State.handle, refreshSettings, if_pos enabled]
        exact .of_round .disabled rfl
      · simp only [State.handle, refreshSettings, if_neg enabled]
        exact .of_unstarted rfl (by simpa using enabled)
    · by_cases busy : phase = .executing
      · subst busy
        simp only [State.handle, refreshSettings, if_true]
        exact .of_executing rfl rfl (by simp)
      · simp only [State.handle, refreshSettings, if_neg busy]
        exact .of_round phase rfl
  | backupDone =>
    obtain ⟨now, settings, runner, triggered⟩ := state
    obtain _ | ⟨current, changed, phase⟩ := runner
    · exact valid
    cases phase with
    | disabled => exact valid
    | sleeping begun deadline => exact valid
    | executing =>
      cases changed with
      | true =>
        exact .of_round (Runner.round ⟨current, true, .executing⟩ now).phase rfl
      | false =>
        obtain rfl : current = settings := valid.current _ rfl rfl
        exact .of_round .executing rfl

theorem Valid.schedule_handle (event : Event) :
    (state.handle event).schedule = state.schedule.handle event := by
  obtain ⟨now, settings, runner, triggered⟩ := state
  obtain _ | ⟨current, changed, phase⟩ := runner
  · cases event with
    | refreshSettings verge =>
      by_cases enabled : (AutoBackupSettings.fromVerge verge).scheduleEnabled <;>
        simp [State.handle, refreshSettings, startRunner, Schedule.handle, Schedule.refresh,
          schedule, enabled, Runner.round, Schedule.awake]
    | pass milliseconds | expire | backupDone => rfl
  · cases event with
    | refreshSettings verge =>
      cases phase <;>
        simp [State.handle, refreshSettings, Schedule.handle, Schedule.refresh, schedule,
          Runner.takeChanged, Runner.round, Schedule.awake]
    | pass milliseconds =>
      cases phase with
      | disabled => rfl
      | executing => rfl
      | sleeping begun deadline =>
        by_cases late : deadline < now + milliseconds <;>
          simp [State.handle, State.expireBefore, Schedule.handle, Schedule.expireBefore, schedule,
            late]
    | expire =>
      cases phase with
      | disabled => rfl
      | executing => rfl
      | sleeping begun deadline =>
        by_cases late : deadline < now + 1 <;>
          simp [State.handle, State.expireBefore, Schedule.handle, Schedule.expireBefore, schedule,
            late]
    | backupDone =>
      cases phase with
      | disabled => rfl
      | sleeping begun deadline => rfl
      | executing =>
        cases changed with
        | true => rfl
        | false =>
          obtain rfl : current = settings := valid.current _ rfl rfl
          rfl

/-- A call that keeps the schedule is a call of `refresh_settings` with the same duration, and a
runner has been started. -/
theorem keeps_cases {event : Event} (kept : keeps state.settings event) :
    ∃ verge runner, event = .refreshSettings verge ∧ state.runner = some runner ∧
      state.settings.scheduleEnabled = true ∧
      (AutoBackupSettings.fromVerge verge).scheduleEnabled = true ∧
      (AutoBackupSettings.fromVerge verge).duration = state.settings.duration := by
  cases event with
  | pass milliseconds | expire | backupDone => simp [keeps] at kept
  | refreshSettings verge =>
    simp only [keeps, AutoBackupSettings.keepsSchedule, Bool.and_eq_true, beq_iff_eq] at kept
    obtain ⟨⟨enabled, stays⟩, interval⟩ := kept
    have length : (AutoBackupSettings.fromVerge verge).duration = state.settings.duration := by
      rw [AutoBackupSettings.duration, AutoBackupSettings.duration, interval]
    cases started : state.runner with
    | none => simp [valid.unstarted started] at enabled
    | some runner => exact ⟨verge, runner, rfl, rfl, enabled, stays, length⟩

theorem Valid.schedule_kept {event : Event}
    (kept : keeps state.settings event) (outside : ¬ state.insideSleep) :
    (state.handle event).schedule = state.schedule := by
  obtain ⟨verge, runner, rfl, started, enabled, stays, length⟩ := keeps_cases valid kept
  rw [valid.schedule_handle]
  have fits := valid.fits runner started
  cases phase : runner.phase with
  | executing =>
    simp [Schedule.handle, Schedule.refresh, schedule, started, phase, enabled, stays, length]
  | disabled =>
    have current := valid.current runner started (valid.seen runner started (by simp [phase]))
    rw [phase, current] at fits
    exact absurd (fits.symm.trans enabled) (by simp)
  | sleeping begun deadline =>
    have current := valid.current runner started (valid.seen runner started (by simp [phase]))
    rw [phase, current] at fits
    obtain ⟨-, slept, past⟩ := fits
    have now : begun = state.now := by
      by_contra different
      exact outside ⟨runner, begun, deadline, started, phase, by omega⟩
    subst now
    simp [Schedule.handle, Schedule.refresh, schedule, started, phase, enabled, stays, length,
      Schedule.awake, slept]

theorem Valid.nextDeadline_moved {event : Event}
    (kept : keeps state.settings event) (inside : state.insideSleep) :
    (state.handle event).nextDeadline ≠ state.nextDeadline := by
  obtain ⟨verge, runner, rfl, started, enabled, stays, length⟩ := keeps_cases valid kept
  obtain ⟨other, begun, deadline, same, phase, earlier⟩ := inside
  obtain rfl := Option.some.inj (started.symm.trans same)
  have current := valid.current runner started (valid.seen runner started (by simp [phase]))
  have fits := valid.fits runner started
  rw [phase, current] at fits
  obtain ⟨-, slept, -⟩ := fits
  rw [← nextDeadline_schedule, ← nextDeadline_schedule, valid.schedule_handle]
  simp only [Schedule.handle, Schedule.refresh, schedule, started, phase, stays, length,
    Schedule.awake, Schedule.nextDeadline, Option.map_some, if_true, ne_eq, Option.some.injEq]
  omega

end

theorem run_concat (before : List Event) (event : Event) :
    run (before ++ [event]) = (run before).handle event := by
  simp [run]

theorem run_valid (events : List Event) : Valid (run events) := by
  induction events using List.reverseRecOn with
  | nil => exact new_valid
  | append_singleton before event ih =>
    rw [run_concat]
    exact ih.handle event

theorem run_settings (events : List Event) :
    (run events).settings = events.foldl storedAfter .default := by
  induction events using List.reverseRecOn with
  | nil => rfl
  | append_singleton before event ih =>
    rw [run_concat, List.foldl_append, List.foldl_cons, List.foldl_nil, ← ih]
    generalize run before = state
    cases event with
    | refreshSettings verge =>
      simp only [handle, refreshSettings, startRunner, storedAfter]
      split
      · split <;> rfl
      · rfl
    | pass milliseconds | expire =>
      simp only [handle, expireBefore, storedAfter]
      split
      · split <;> rfl
      · rfl
    | backupDone =>
      simp only [handle, backupDone, storedAfter]
      split <;> rfl

/-- The trace without the calls that keep the schedule leads to the same schedule, as long as
none of these calls falls inside a sleep. -/
theorem schedule_withoutUnchanged (events : List Event)
    (outside : ∀ before event after, events = before ++ event :: after →
      keeps (run before).settings event → ¬ (run before).insideSleep) :
    (run events).schedule = (run (withoutUnchanged .default events)).schedule := by
  induction events using List.reverseRecOn with
  | nil => rfl
  | append_singleton before event ih =>
    have earlier := ih fun front middle back split_ =>
      outside front middle (back ++ [event]) (by simp [split_])
    have last := outside before event [] rfl
    rw [withoutUnchanged_concat, ← run_settings, run_concat]
    by_cases kept : keeps (run before).settings event
    · rw [if_pos kept, List.append_nil, ← earlier]
      exact (run_valid before).schedule_kept kept (last kept)
    · rw [if_neg kept, run_concat, (run_valid before).schedule_handle, earlier,
        ← (run_valid _).schedule_handle]

/-- With a schedule of one hour, another setting is changed after half an hour: the backup due an
hour after the start is not triggered. -/
def halfway : List Event :=
  [.refreshSettings ⟨some true, some 1, some true⟩, .pass 1800000,
    .refreshSettings ⟨some true, some 1, some false⟩, .pass 1800000, .expire]

end State

end ClashVerge.Module.AutoBackup
