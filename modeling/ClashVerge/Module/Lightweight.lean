import ClashVerge.Library.Transition

/-!
# Lightweight mode

In lightweight mode the application has no window. `entry_lightweight_mode` takes the state by a
compare-exchange, stores it again and destroys the window; `exit_lightweight_mode` takes it to
`Exiting`, stores that again, shows the window and stores `Normal`. A timer enters the mode when its
sleep is over and its cancel handle, which all timers share one place for, has not been used.

Every access to the shared state and every action on the window is a step; calls that return are
kept in the lists of calls. The refresh of the tray, the listeners and the settings read on the way
are left out: a listener only sets up or cancels the timer, which may happen at any moment.
-/

namespace ClashVerge.Module.Lightweight

open Transition

inductive LightweightState where
  | normal
  | inside
  | exiting
deriving DecidableEq, Repr

inductive WindowAction where
  | destroy
  | show
deriving DecidableEq, Repr

/-- What a call of `entry_lightweight_mode` does next, once it has taken the state. -/
inductive EntryStep where
  | store
  | destroy
  | cancel
  | done
deriving DecidableEq, Repr

/-- What a call of `exit_lightweight_mode` does next, once it has taken the state. -/
inductive ExitStep where
  | store
  | show
  | cancel
  | restore
  | done
deriving DecidableEq, Repr

/-- It waits in its `select!`, clears the handle or enters the mode; or it has called the entry, or
stopped at the signal. -/
inductive TimerStep where
  | waiting
  | clear
  | enter
  | entered
  | stopped
deriving DecidableEq, Repr

structure Timer where
  step : TimerStep
  elapsed : Bool
  /-- The receiver is ready: its sender has sent or is dropped. -/
  signalled : Bool
  /-- A cancel has used the handle before the sleep was over. -/
  cancelled : Bool
deriving DecidableEq, Repr

def Timer.new : Timer := ⟨.waiting, false, false, false⟩

structure State where
  /-- `LIGHTWEIGHT_STATE`. -/
  state : LightweightState
  /-- The last action of an entry or an exit on the window. -/
  window : Option WindowAction
  entries : List EntryStep
  exits : List ExitStep
  timers : List Timer
  /-- The timer whose sender is in `CANCEL_TX`. -/
  cancelTx : Option Nat
deriving DecidableEq, Repr

inductive Action where
  | beginEntry
  | entry (call : Nat)
  | beginExit
  | exit (call : Nat)
  | setup
  | cancel
  | elapse (timer : Nat)
  /-- `select!` takes one of the branches that are ready. -/
  | pollSleep (timer : Nat)
  | pollSignal (timer : Nat)
  | timer (timer : Nat)
deriving DecidableEq, Repr

namespace State

def new : State := ⟨.normal, none, [], [], [], none⟩

/-- `cancel_light_weight_timer`. -/
def cancelTimer (state : State) : State :=
  match state.cancelTx with
  | none => state
  | some timer =>
    { state with
      cancelTx := none
      timers := state.timers.modify timer fun timer =>
        { timer with signalled := true, cancelled := timer.cancelled || !timer.elapsed } }

/-- `entry_lightweight_mode` up to its compare-exchange; without `Normal` the call returns. -/
def beginEntry (state : State) : State :=
  if state.state = .normal then
    { state with state := .inside, entries := state.entries ++ [.store] }
  else state

/-- `exit_lightweight_mode` up to its compare-exchange; without `In` the call returns. -/
def beginExit (state : State) : State :=
  if state.state = .inside then
    { state with state := .exiting, exits := state.exits ++ [.store] }
  else state

def entry (state : State) (call : Nat) : EntryStep → Option State
  | .store => some { state with state := .inside, entries := state.entries.set call .destroy }
  | .destroy =>
    some { state with window := some .destroy, entries := state.entries.set call .cancel }
  | .cancel => some { state.cancelTimer with entries := state.entries.set call .done }
  | .done => none

def exit (state : State) (call : Nat) : ExitStep → Option State
  | .store => some { state with state := .exiting, exits := state.exits.set call .show }
  | .show => some { state with window := some .show, exits := state.exits.set call .cancel }
  | .cancel => some { state.cancelTimer with exits := state.exits.set call .restore }
  | .restore => some { state with state := .normal, exits := state.exits.set call .done }
  | .done => none

/-- `setup_light_weight_timer`; with a handle there is a timer already. -/
def setup (state : State) : State :=
  match state.cancelTx with
  | some _ => state
  | none =>
    { state with
      cancelTx := some state.timers.length
      timers := state.timers ++ [.new] }

/-- A timer whose `select!` takes a branch. -/
def pollTimer (state : State) (timer : Nat) (step : TimerStep) : State :=
  { state with timers := state.timers.modify timer fun timer => { timer with step := step } }

/-- An expired timer empties the place of the handle. A sender that is there is dropped. -/
def clearHandle (state : State) : State :=
  match state.cancelTx with
  | none => state
  | some other =>
    { state with
      cancelTx := none
      timers := state.timers.modify other fun timer => { timer with signalled := true } }

def step (state : State) : Action → Option State
  | .beginEntry => some state.beginEntry
  | .entry call => state.entries[call]?.bind (state.entry call)
  | .beginExit => some state.beginExit
  | .exit call => state.exits[call]?.bind (state.exit call)
  | .setup => some state.setup
  | .cancel => some state.cancelTimer
  | .elapse timer =>
    some { state with
      timers := state.timers.modify timer fun timer => { timer with elapsed := true } }
  | .pollSleep timer =>
    match state.timers[timer]? with
    | some ⟨.waiting, true, _, _⟩ => some (state.pollTimer timer .clear)
    | _ => none
  | .pollSignal timer =>
    match state.timers[timer]? with
    | some ⟨.waiting, _, true, _⟩ => some (state.pollTimer timer .stopped)
    | _ => none
  | .timer timer =>
    match state.timers[timer]? with
    | some ⟨.clear, _, _, _⟩ => some (state.clearHandle.pollTimer timer .enter)
    | some ⟨.enter, _, _, _⟩ => some (state.beginEntry.pollTimer timer .entered)
    | _ => none

def Quiet (state : State) : Prop :=
  (∀ step ∈ state.entries, step = .done) ∧ ∀ step ∈ state.exits, step = .done

/-- The state matches the window wherever no call is in progress, it is `Exiting` only during an
exit, and a timer that was cancelled before its sleep was over does not go on to the handle or
the mode. -/
structure Matches (state : State) : Prop where
  quiet : state.Quiet → (state.state = .inside ↔ state.window = some .destroy) ∧
    (state.state = .normal ↔ state.window ≠ some .destroy)
  exiting : state.state = .exiting → ∃ step ∈ state.exits, step ≠ .done
  timers : ∀ timer ∈ state.timers, timer.cancelled →
    timer.step = .waiting ∨ timer.step = .stopped

/-- An entry's stretch from its store to its destroy and an exit's from its show to its store of
`Normal` do not overlap; and `select!` does not take the sleep of a timer that was cancelled in
time. -/
def Apart (state : State) : Action → Prop
  | .entry call => state.entries[call]? = some .store →
      ExitStep.cancel ∉ state.exits ∧ ExitStep.restore ∉ state.exits
  | .exit call => state.exits[call]? = some .show → EntryStep.destroy ∉ state.entries
  | .pollSleep timer => state.timers[timer]?.all fun found => !found.cancelled
  | _ => True

instance (state : State) : ∀ action, Decidable (state.Apart action)
  | .entry call => inferInstanceAs (Decidable (state.entries[call]? = some .store →
      ExitStep.cancel ∉ state.exits ∧ ExitStep.restore ∉ state.exits))
  | .exit call => inferInstanceAs (Decidable (state.exits[call]? = some .show →
      EntryStep.destroy ∉ state.entries))
  | .pollSleep timer =>
    inferInstanceAs (Decidable ((state.timers[timer]?.all fun found => !found.cancelled) = true))
  | .beginEntry | .beginExit | .setup | .cancel | .elapse _ | .pollSignal _ | .timer _ =>
    inferInstanceAs (Decidable True)

/-- While an entry stands between its store and its destroy the state is not `Normal` and no exit
has shown the window without restoring; while an exit does, the window was shown last. -/
structure Consistent (state : State) : Prop where
  exiting : state.state = .exiting → ∃ step ∈ state.exits, step ≠ .done
  apart : EntryStep.destroy ∈ state.entries →
    ExitStep.cancel ∉ state.exits ∧ ExitStep.restore ∉ state.exits
  shown : ExitStep.cancel ∈ state.exits ∨ ExitStep.restore ∈ state.exits →
    state.window = some .show
  entered : EntryStep.destroy ∈ state.entries → state.state ≠ .normal
  destroyed : state.window = some .destroy → state.state ≠ .normal
  visible : state.window ≠ some .destroy → EntryStep.store ∉ state.entries →
    EntryStep.destroy ∉ state.entries → ExitStep.cancel ∉ state.exits →
      ExitStep.restore ∉ state.exits → state.state ≠ .inside

/-- A timer goes on only when its sleep is over, and not when it was cancelled before. -/
def Timed (timer : Timer) : Prop :=
  (timer.step ≠ .waiting → timer.step ≠ .stopped → timer.elapsed = true) ∧
    (timer.cancelled = true → timer.step = .waiting ∨ timer.step = .stopped)

theorem new_consistent : Consistent new := by
  refine ⟨?_, ?_, ?_, ?_, ?_, ?_⟩ <;> simp [new]

theorem Consistent.matches_ {state : State} (consistent : Consistent state)
    (timed : ∀ timer ∈ state.timers, Timed timer) : Matches state := by
  refine ⟨fun quiet => ?_, consistent.exiting, fun timer member => (timed timer member).2⟩
  have notExiting : state.state ≠ .exiting := by
    intro exiting
    obtain ⟨step, member, busy⟩ := consistent.exiting exiting
    exact busy (quiet.2 step member)
  have noEntry : ∀ step, step ≠ EntryStep.done → step ∉ state.entries :=
    fun step busy member => busy (quiet.1 step member)
  have noExit : ∀ step, step ≠ ExitStep.done → step ∉ state.exits :=
    fun step busy member => busy (quiet.2 step member)
  by_cases window : state.window = some .destroy
  · have notNormal := consistent.destroyed window
    cases kind : state.state with
    | normal => exact absurd kind notNormal
    | inside => simp [window]
    | exiting => exact absurd kind notExiting
  · have notInside := consistent.visible window (noEntry _ nofun) (noEntry _ nofun)
      (noExit _ nofun) (noExit _ nofun)
    cases kind : state.state with
    | normal => simp [window]
    | inside => exact absurd kind notInside
    | exiting => exact absurd kind notExiting

/-! ### Calls in a list -/

section
variable {Call : Type} {calls : List Call} {index : Nat} {before after other : Call}

theorem mem_set_self (found : calls[index]? = some before) : after ∈ calls.set index after := by
  obtain ⟨inside, _⟩ := List.getElem?_eq_some_iff.mp found
  exact List.mem_set inside after

theorem mem_set_of_ne (found : calls[index]? = some before) (different : other ≠ before)
    (member : other ∈ calls) : other ∈ calls.set index after := by
  obtain ⟨place, inside, same⟩ := List.getElem_of_mem member
  have elsewhere : index ≠ place := by
    rintro rfl
    rw [List.getElem?_eq_getElem inside, same] at found
    exact different (Option.some.inj found)
  rw [List.mem_iff_getElem]
  exact ⟨place, by simpa using inside, by rw [List.getElem_set_ne elsewhere, same]⟩

theorem mem_of_mem_set (member : other ∈ calls.set index after) (different : other ≠ after) :
    other ∈ calls :=
  (List.mem_or_eq_of_mem_set member).resolve_right different

end

namespace Consistent
variable {state next : State}

section

variable (consistent : Consistent state)
include consistent

theorem congr_ (kind : next.state = state.state)
    (window : next.window = state.window) (entries : next.entries = state.entries)
    (exits : next.exits = state.exits) : Consistent next := by
  obtain ⟨exiting, apart, shown, entered, destroyed, visible⟩ := consistent
  constructor <;> simp only [kind, window, entries, exits] <;> assumption

theorem beginEntry : Consistent state.beginEntry := by
  by_cases normal : state.state = .normal
  · simp only [State.beginEntry, if_pos normal]
    constructor
    case exiting => exact nofun
    case apart => exact fun member => consistent.apart (by simpa using member)
    case shown => exact consistent.shown
    case entered => exact fun _ => nofun
    case destroyed => exact fun _ => nofun
    case visible => exact fun _ free => absurd (List.mem_append_right _ List.mem_cons_self) free
  · simpa only [State.beginEntry, if_neg normal] using consistent

theorem beginExit : Consistent state.beginExit := by
  by_cases inside : state.state = .inside
  · simp only [State.beginExit, if_pos inside]
    constructor
    case exiting => exact fun _ => ⟨.store, by simp, nofun⟩
    case apart => exact fun member => by simpa using consistent.apart member
    case shown => exact fun member => consistent.shown (by simpa using member)
    case entered => exact fun _ => nofun
    case destroyed => exact fun _ => nofun
    case visible => exact fun _ _ _ _ _ => nofun
  · simpa only [State.beginExit, if_neg inside] using consistent

theorem entry {call : Nat} {step : EntryStep} (found : state.entries[call]? = some step)
    (apart : step = .store → ExitStep.cancel ∉ state.exits ∧ ExitStep.restore ∉ state.exits)
    (taken : state.entry call step = some next) : Consistent next := by
  have member : step ∈ state.entries := List.mem_of_getElem? found
  cases step with
  | store =>
    cases taken
    constructor
    case exiting => exact nofun
    case apart => exact fun _ => apart rfl
    case shown => exact consistent.shown
    case entered => exact fun _ => nofun
    case destroyed => exact fun _ => nofun
    case visible => exact fun _ _ free => absurd (mem_set_self found) free
  | destroy =>
    cases taken
    obtain ⟨noCancel, noRestore⟩ := consistent.apart member
    constructor
    case exiting => exact consistent.exiting
    case apart => exact fun _ => ⟨noCancel, noRestore⟩
    case shown =>
      rintro (cancel | restore)
      · exact absurd cancel noCancel
      · exact absurd restore noRestore
    case entered => exact fun _ => consistent.entered member
    case destroyed => exact fun _ => consistent.entered member
    case visible => exact fun other => absurd rfl other
  | cancel =>
    cases taken
    have frame : state.cancelTimer.state = state.state ∧
        state.cancelTimer.window = state.window ∧ state.cancelTimer.exits = state.exits := by
      unfold State.cancelTimer
      split <;> exact ⟨rfl, rfl, rfl⟩
    obtain ⟨kind, window, exits⟩ := frame
    constructor <;> simp only [kind, window, exits]
    case exiting => exact consistent.exiting
    case apart => exact fun late => consistent.apart (mem_of_mem_set late nofun)
    case shown => exact consistent.shown
    case entered => exact fun late => consistent.entered (mem_of_mem_set late nofun)
    case destroyed => exact consistent.destroyed
    case visible =>
      exact fun other noStore noDestroy => consistent.visible other
        (fun early => noStore (mem_set_of_ne found nofun early))
        fun early => noDestroy (mem_set_of_ne found nofun early)
  | done => cases taken

theorem exit {call : Nat} {step : ExitStep} (found : state.exits[call]? = some step)
    (apart : step = .show → EntryStep.destroy ∉ state.entries)
    (taken : state.exit call step = some next) : Consistent next := by
  have member : step ∈ state.exits := List.mem_of_getElem? found
  cases step with
  | store =>
    cases taken
    constructor
    case exiting => exact fun _ => ⟨.show, mem_set_self found, nofun⟩
    case apart =>
      exact fun destroy => ⟨fun late => (consistent.apart destroy).1 (mem_of_mem_set late nofun),
        fun late => (consistent.apart destroy).2 (mem_of_mem_set late nofun)⟩
    case shown =>
      rintro (cancel | restore)
      · exact consistent.shown (.inl (mem_of_mem_set cancel nofun))
      · exact consistent.shown (.inr (mem_of_mem_set restore nofun))
    case entered => exact fun _ => nofun
    case destroyed => exact fun _ => nofun
    case visible => exact fun _ _ _ _ _ => nofun
  | «show» =>
    cases taken
    constructor
    case exiting => exact fun _ => ⟨.cancel, mem_set_self found, nofun⟩
    case apart => exact fun destroy => absurd destroy (apart rfl)
    case shown => exact fun _ => rfl
    case entered => exact fun destroy => absurd destroy (apart rfl)
    case destroyed => exact nofun
    case visible => exact fun _ _ _ free => absurd (mem_set_self found) free
  | cancel =>
    cases taken
    have frame : state.cancelTimer.state = state.state ∧
        state.cancelTimer.window = state.window ∧
          state.cancelTimer.entries = state.entries := by
      unfold State.cancelTimer
      split <;> exact ⟨rfl, rfl, rfl⟩
    obtain ⟨kind, window, entries⟩ := frame
    have shown := consistent.shown (.inl member)
    constructor <;> simp only [kind, window, entries]
    case exiting => exact fun _ => ⟨.restore, mem_set_self found, nofun⟩
    case apart => exact fun destroy => absurd member (consistent.apart destroy).1
    case shown => exact fun _ => shown
    case entered => exact consistent.entered
    case destroyed => exact consistent.destroyed
    case visible => exact fun _ _ _ _ free => absurd (mem_set_self found) free
  | restore =>
    cases taken
    have shown := consistent.shown (.inr member)
    constructor
    case exiting => exact nofun
    case apart => exact fun destroy => absurd member (consistent.apart destroy).2
    case shown => exact fun _ => shown
    case entered => exact fun destroy => absurd member (consistent.apart destroy).2
    case destroyed => exact fun window => absurd (shown.symm.trans window) (by decide)
    case visible => exact fun _ _ _ _ _ => nofun
  | done => cases taken

end

end Consistent

/-! ### Timers -/

theorem timed_modify {timers : List Timer} (timed : ∀ timer ∈ timers, Timed timer) (index : Nat)
    {change : Timer → Timer}
    (kept : ∀ timer, timers[index]? = some timer → Timed timer → Timed (change timer)) :
    ∀ timer ∈ timers.modify index change, Timed timer := by
  intro timer member
  obtain ⟨place, found⟩ := List.mem_iff_getElem?.mp member
  rw [List.getElem?_modify] at found
  cases there : timers[place]? with
  | none => simp [there] at found
  | some old =>
    have before := timed old (List.mem_of_getElem? there)
    simp only [there, Option.map_eq_map, Option.map_some, Option.some.injEq] at found
    by_cases same : index = place
    · rw [if_pos same] at found
      exact found ▸ kept old (same ▸ there) before
    · rw [if_neg same] at found
      exact found ▸ before

theorem timed_cancelTimer {state : State} (timed : ∀ timer ∈ state.timers, Timed timer) :
    ∀ timer ∈ state.cancelTimer.timers, Timed timer := by
  unfold cancelTimer
  split
  · exact timed
  · refine timed_modify timed _ fun timer _ before => ⟨before.1, fun cancelled => ?_⟩
    simp only [Bool.or_eq_true, Bool.not_eq_true'] at cancelled
    rcases cancelled with early | running
    · exact before.2 early
    · by_contra further
      rw [not_or] at further
      exact absurd ((before.1 further.1 further.2).symm.trans running) (by decide)

theorem timed_clearHandle {state : State} (timed : ∀ timer ∈ state.timers, Timed timer) :
    ∀ timer ∈ state.clearHandle.timers, Timed timer := by
  unfold clearHandle
  split
  · exact timed
  · exact timed_modify timed _ fun timer _ before => before

theorem clearHandle_step {state : State} {index : Nat} {timer : Timer}
    (there : state.clearHandle.timers[index]? = some timer) :
    ∃ old, state.timers[index]? = some old ∧ timer.step = old.step := by
  unfold clearHandle at there
  split at there
  · exact ⟨timer, there, rfl⟩
  · rw [List.getElem?_modify, Option.map_eq_map, Option.map_eq_some_iff] at there
    obtain ⟨old, before, same⟩ := there
    refine ⟨old, before, same ▸ ?_⟩
    split <;> rfl

theorem timed_step {state next : State} {action : Action}
    (timed : ∀ timer ∈ state.timers, Timed timer) (apart : state.Apart action)
    (taken : state.step action = some next) : ∀ timer ∈ next.timers, Timed timer := by
  cases action with
  | beginEntry =>
    cases taken
    unfold beginEntry
    split <;> exact timed
  | beginExit =>
    cases taken
    unfold beginExit
    split <;> exact timed
  | entry call =>
    obtain ⟨step, -, taken⟩ := Option.bind_eq_some_iff.mp taken
    cases step with
    | store | destroy => exact Option.some.inj taken ▸ timed
    | cancel => exact Option.some.inj taken ▸ timed_cancelTimer timed
    | done => cases taken
  | exit call =>
    obtain ⟨step, -, taken⟩ := Option.bind_eq_some_iff.mp taken
    cases step with
    | store | «show» | restore => exact Option.some.inj taken ▸ timed
    | cancel => exact Option.some.inj taken ▸ timed_cancelTimer timed
    | done => cases taken
  | setup =>
    cases taken
    unfold setup
    split
    · exact timed
    · intro timer member
      rcases List.mem_append.mp member with old | new
      · exact timed timer old
      · obtain rfl := List.mem_singleton.mp new
        exact ⟨fun other => absurd rfl other, nofun⟩
  | cancel => exact Option.some.inj taken ▸ timed_cancelTimer timed
  | elapse index =>
    cases taken
    exact timed_modify timed index fun timer _ before => ⟨fun _ _ => rfl, before.2⟩
  | pollSleep index =>
    simp only [State.step] at taken
    split at taken
    · rename_i found
      cases taken
      have running := apart
      simp only [Apart, found, Option.all_some, Bool.not_eq_true'] at running
      refine timed_modify timed index fun timer there _ => ?_
      obtain rfl := Option.some.inj (found.symm.trans there)
      exact ⟨fun _ _ => rfl, fun cancelled => absurd (running.symm.trans cancelled) (by decide)⟩
    · cases taken
  | pollSignal index =>
    simp only [State.step] at taken
    split at taken
    · cases taken
      exact timed_modify timed index fun timer _ _ =>
        ⟨fun _ other => absurd rfl other, fun _ => .inr rfl⟩
    · cases taken
  | timer index =>
    have advance : ∀ {timers : List Timer} {step : TimerStep},
        (∀ timer ∈ timers, Timed timer) →
        (∀ timer, timers[index]? = some timer → timer.step ≠ .waiting ∧ timer.step ≠ .stopped) →
        ∀ timer ∈ timers.modify index (fun timer => { timer with step := step }), Timed timer := by
      intro timers step all busy
      refine timed_modify all index fun timer there before => ?_
      obtain ⟨notWaiting, notStopped⟩ := busy timer there
      refine ⟨fun _ _ => before.1 notWaiting notStopped, fun cancelled => ?_⟩
      rcases before.2 cancelled with waiting | stopped
      · exact absurd waiting notWaiting
      · exact absurd stopped notStopped
    simp only [State.step] at taken
    split at taken
    · rename_i found
      cases taken
      refine advance (timed_clearHandle timed) fun timer there => ?_
      obtain ⟨old, before, same⟩ := clearHandle_step there
      obtain rfl := Option.some.inj (found.symm.trans before)
      rw [same]
      exact ⟨nofun, nofun⟩
    · rename_i found
      cases taken
      have same : state.beginEntry.timers = state.timers := by
        unfold beginEntry
        split <;> rfl
      refine advance (same ▸ timed) fun timer there => ?_
      rw [same, found] at there
      cases there
      exact ⟨nofun, nofun⟩
    · cases taken

theorem consistent_step {state next : State} {action : Action} (consistent : Consistent state)
    (apart : state.Apart action) (taken : state.step action = some next) : Consistent next := by
  cases action with
  | beginEntry => exact Option.some.inj taken ▸ consistent.beginEntry
  | beginExit => exact Option.some.inj taken ▸ consistent.beginExit
  | entry call =>
    obtain ⟨step, found, taken⟩ := Option.bind_eq_some_iff.mp taken
    exact consistent.entry found (fun store => apart (store ▸ found)) taken
  | exit call =>
    obtain ⟨step, found, taken⟩ := Option.bind_eq_some_iff.mp taken
    exact consistent.exit found (fun shows => apart (shows ▸ found)) taken
  | setup =>
    cases taken
    unfold setup
    split
    · exact consistent
    · exact consistent.congr_ rfl rfl rfl rfl
  | cancel =>
    cases taken
    unfold cancelTimer
    split
    · exact consistent
    · exact consistent.congr_ rfl rfl rfl rfl
  | elapse index => exact Option.some.inj taken ▸ consistent.congr_ rfl rfl rfl rfl
  | pollSleep index | pollSignal index =>
    simp only [State.step] at taken
    split at taken
    · exact Option.some.inj taken ▸ consistent.congr_ rfl rfl rfl rfl
    · cases taken
  | timer index =>
    simp only [State.step] at taken
    split at taken
    · cases taken
      unfold clearHandle
      split <;> exact consistent.congr_ rfl rfl rfl rfl
    · exact Option.some.inj taken ▸ consistent.beginEntry.congr_ rfl rfl rfl rfl
    · cases taken

end State

/-- In a run in which the stretches of entries and exits do not overlap, and no cancelled timer's
sleep is taken, the state matches the window all the way. -/
theorem matches_of_apart (actions : List Action)
    (apart : Meets State.step State.Apart State.new actions) :
    ∀ before after state, actions = before ++ after →
      run State.step State.new before = some state → state.Matches := by
  rintro before after state rfl ran
  have kept := run_invariant_of_meets
    (fun state : State => state.Consistent ∧ ∀ timer ∈ state.timers, State.Timed timer)
    (fun state action next both met taken =>
      ⟨State.consistent_step both.1 met taken, State.timed_step both.2 met taken⟩)
    ⟨State.new_consistent, fun _ member => nomatch member⟩ apart.before ran
  exact kept.1.matches_ kept.2

def inAndOut : List Action :=
  [.setup, .beginEntry, .entry 0, .entry 0, .beginExit, .exit 0, .entry 0, .elapse 0,
    .pollSignal 0, .exit 0, .exit 0, .exit 0]

theorem inAndOut_matches :
    ∃ state, run State.step State.new inAndOut = some state ∧ state.Matches := by
  have ends : (run State.step State.new inAndOut).isSome := by decide
  obtain ⟨state, ran⟩ := Option.isSome_iff_exists.mp ends
  exact ⟨state, ran, matches_of_apart inAndOut (by decide) inAndOut [] state rfl ran⟩

/-- An exit shows the window before the entry it follows has destroyed it. -/
def shownTooEarly : List Action :=
  [.beginEntry, .entry 0, .beginExit, .exit 0, .exit 0, .entry 0, .entry 0, .exit 0, .exit 0]

def sleepTaken : List Action :=
  [.setup, .cancel, .setup, .elapse 0, .pollSleep 0, .timer 0, .timer 0]

/-- The window stays destroyed in the state `Normal`; and a cancelled timer takes the handle of
the next one away and enters the mode. -/
theorem not_matched : run State.step State.new shownTooEarly =
        some ⟨.normal, some .destroy, [.done], [.done], [], none⟩ ∧
      ¬ State.Matches ⟨.normal, some .destroy, [.done], [.done], [], none⟩ ∧
      run State.step State.new sleepTaken =
        some ⟨.inside, none, [.store], [], [⟨.entered, true, true, true⟩,
          ⟨.waiting, false, true, false⟩], none⟩ := by
  refine ⟨by decide, fun matched => ?_, by decide⟩
  have quiet : State.Quiet ⟨.normal, some .destroy, [.done], [.done], [], none⟩ := by
    constructor <;> simp
  exact (matched.quiet quiet).2.mp rfl rfl

end ClashVerge.Module.Lightweight
