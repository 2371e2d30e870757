import Mathlib.Algebra.GroupWithZero.Nat
import ClashVerge.Library.Transition

/-!
# The limiter

`Limiter::check` reads the clock, loads the time of the last call that passed, and exchanges it for
its own. Any number of callers do this, and each access is a step. A caller that is overtaken
between the first two finds a time that is newer than its own, and takes that for a clock that was
set back.

`passed` and `lasts` are not in the source: they list the times of the calls that returned true, and
every value that `last_run_ms` has had.
-/

namespace ClashVerge.Utils.Limiter

open Function (update)
open Transition (Meets run meets_iff_throughout)

/-- Where a caller stands in `check`. -/
inductive Phase where
  | idle
  | timed (now : Nat)
  | loaded (now last : Nat)
deriving DecidableEq

structure State (Caller : Type) where
  clock : Nat
  /-- `last_run_ms`. -/
  last : Nat
  phase : Caller → Phase
  passed : List Nat
  lasts : List Nat

inductive Action (Caller : Type) where
  | advance (time : Nat)
  | readClock (caller : Caller)
  | load (caller : Caller)
  | exchange (caller : Caller)
deriving DecidableEq

/-- The sum wraps in a release build. -/
def limited (period now last : Nat) : Bool := now < (last + period) % 2 ^ 64 && last ≤ now

variable {Caller : Type}

namespace State

def new (clock : Nat) : State Caller where
  clock
  last := 0
  phase _ := .idle
  passed := []
  lasts := [0]

def pass (state : State Caller) (now : Nat) : State Caller :=
  { state with last := now, passed := state.passed ++ [now], lasts := state.lasts ++ [now] }

def setPhase [DecidableEq Caller] (state : State Caller) (caller : Caller) (phase : Phase) :
    State Caller :=
  { state with phase := update state.phase caller phase }

end State

/-- The clock never goes backwards, and its times are 64 bits wide. -/
def step [DecidableEq Caller] (period : Nat) (state : State Caller) : Action Caller → Option (State Caller)
  | .advance time =>
    if state.clock ≤ time ∧ time < 2 ^ 64 then some { state with clock := time } else none
  | .readClock caller =>
    match state.phase caller with
    | .idle => some (state.setPhase caller (.timed state.clock))
    | _ => none
  | .load caller =>
    match state.phase caller with
    | .timed now =>
      some (state.setPhase caller
        (if limited period now state.last then .idle else .loaded now state.last))
    | _ => none
  | .exchange caller =>
    match state.phase caller with
    | .loaded now last =>
      let state := state.setPhase caller .idle
      some (if state.last = last then state.pass now else state)
    | _ => none

/-- Any two calls that have returned true are a period apart, and the last time has only grown. -/
structure Spaced (period : Nat) (state : State Caller) : Prop where
  apart : state.passed.Pairwise fun one other => one + period ≤ other ∨ other + period ≤ one
  grown : state.lasts.Pairwise (· ≤ ·)

/-- A caller whose exchange is about to succeed has not read an older time than it has loaded, and the
end of the period is a time. -/
def Orderly (period : Nat) (state : State Caller) : Action Caller → Prop
  | .exchange caller => ∀ now, state.phase caller = .loaded now state.last →
      state.last ≤ now ∧ state.last + period < 2 ^ 64
  | _ => True

instance (period : Nat) (state : State Caller) (action : Action Caller) :
    Decidable (Orderly period state action) :=
  match action with
  | .exchange caller =>
    match is_ : state.phase caller with
    | .loaded now last =>
      decidable_of_iff
        (state.last = last → state.last ≤ now ∧ state.last + period < 2 ^ 64) (by
          constructor
          · intro orderly other same
            obtain ⟨rfl, rfl⟩ := Phase.loaded.inj (is_.symm.trans same)
            exact orderly rfl
          · rintro orderly rfl
            exact orderly now is_)
    | .idle => isTrue fun _ same => nomatch is_.symm.trans same
    | .timed _ => isTrue fun _ same => nomatch is_.symm.trans same
  | .advance _ | .readClock _ | .load _ => isTrue trivial

structure Coherent (period : Nat) (state : State Caller) : Prop where
  clock : state.clock < 2 ^ 64
  lasts : state.lasts = 0 :: state.passed
  last : state.last = state.passed.getLast?.getD 0
  bounded : state.last < 2 ^ 64
  timed : ∀ caller now, state.phase caller = .timed now → now < 2 ^ 64
  loaded : ∀ caller now last, state.phase caller = .loaded now last →
    now < 2 ^ 64 ∧ limited period now last = false

variable {period : Nat} {state : State Caller}

theorem coherent_new {clock : Nat} (time : clock < 2 ^ 64) :
    Coherent period (State.new clock : State Caller) where
  clock := time
  lasts := rfl
  last := rfl
  bounded := show 0 < 2 ^ 64 by decide
  timed _ _ is_ := nomatch is_
  loaded _ _ _ is_ := nomatch is_

theorem Coherent.pass (coherent : Coherent period state) {now : Nat} (time : now < 2 ^ 64) :
    Coherent period (state.pass now) where
  clock := coherent.clock
  lasts := by
    rw [State.pass, coherent.lasts]
    rfl
  last := by rw [State.pass, List.getLast?_concat, Option.getD_some]
  bounded := time
  timed := coherent.timed
  loaded := coherent.loaded

theorem Coherent.last_cases (coherent : Coherent period state) :
    state.last ∈ state.lasts ∧ (state.last = 0 ∨ state.last ∈ state.passed) := by
  rw [coherent.lasts, coherent.last]
  cases ended : state.passed.getLast? with
  | none => exact ⟨List.mem_cons_self, .inl rfl⟩
  | some time =>
    have listed := List.mem_of_getLast? ended
    exact ⟨List.mem_cons_of_mem _ listed, .inr listed⟩

theorem Coherent.passed_le (coherent : Coherent period state)
    (grown : state.lasts.Pairwise (· ≤ ·)) : ∀ time ∈ state.lasts, time ≤ state.last := by
  have ended : state.lasts.getLast? = some state.last := by
    rw [coherent.lasts, coherent.last, List.getLast?_cons]
  intro time listed
  obtain ⟨before, whole⟩ := List.getLast?_eq_some_iff.mp ended
  rw [whole] at listed grown
  obtain here | there := List.mem_append.mp listed
  · exact (List.pairwise_append.mp grown).2.2 time here state.last (List.mem_singleton.mpr rfl)
  · exact (List.mem_singleton.mp there).le

theorem period_le {now last : Nat} (passes : limited period now last = false) (older : last ≤ now)
    (time : last + period < 2 ^ 64) : last + period ≤ now := by
  rw [limited, Nat.mod_eq_of_lt time, decide_eq_true older, Bool.and_true,
    decide_eq_false_iff_not] at passes
  omega

theorem spaced_pass_iff (coherent : Coherent period state) (spaced : Spaced period state)
    (fits : period < 2 ^ 64) {now : Nat} (time : now < 2 ^ 64)
    (passes : limited period now state.last = false) :
    Spaced period (state.pass now) ↔ state.last ≤ now ∧ state.last + period < 2 ^ 64 := by
  obtain ⟨listed, from_⟩ := coherent.last_cases
  constructor
  · rintro ⟨apart, grown⟩
    have older : state.last ≤ now :=
      (List.pairwise_append.mp grown).2.2 _ listed now (List.mem_singleton.mpr rfl)
    refine ⟨older, Nat.lt_of_not_le fun overflow => ?_⟩
    obtain first | call := from_
    · omega
    · have := (List.pairwise_append.mp apart).2.2 _ call now (List.mem_singleton.mpr rfl)
      have := coherent.bounded
      omega
  · rintro ⟨older, end_⟩
    have later := period_le passes older end_
    have before := coherent.passed_le spaced.grown
    constructor
    · refine List.pairwise_append.mpr ⟨spaced.apart, List.pairwise_singleton _ _, ?_⟩
      intro call called own is_
      obtain rfl := List.mem_singleton.mp is_
      have := before call (by rw [coherent.lasts]; exact List.mem_cons_of_mem _ called)
      omega
    · refine List.pairwise_append.mpr ⟨spaced.grown, List.pairwise_singleton _ _, ?_⟩
      intro earlier stored own is_
      obtain rfl := List.mem_singleton.mp is_
      have := before earlier stored
      omega

variable [DecidableEq Caller]

theorem Coherent.setPhase (coherent : Coherent period state) (caller : Caller) {phase : Phase}
    (timed : ∀ now, phase = .timed now → now < 2 ^ 64)
    (loaded : ∀ now last, phase = .loaded now last → now < 2 ^ 64 ∧ limited period now last = false) :
    Coherent period (state.setPhase caller phase) where
  clock := coherent.clock
  lasts := coherent.lasts
  last := coherent.last
  bounded := coherent.bounded
  timed other now is_ := by
    by_cases same : other = caller
    · subst same
      exact timed now ((Function.update_self ..).symm.trans is_)
    · exact coherent.timed other now ((Function.update_of_ne same ..).symm.trans is_)
  loaded other now last is_ := by
    by_cases same : other = caller
    · subst same
      exact loaded now last ((Function.update_self ..).symm.trans is_)
    · exact coherent.loaded other now last ((Function.update_of_ne same ..).symm.trans is_)

theorem Coherent.step {next : State Caller} {action : Action Caller}
    (coherent : Coherent period state) (taken : step period state action = some next) :
    Coherent period next := by
  cases action with rw [Limiter.step] at taken
  | advance time =>
    split at taken
    · rename_i later
      cases taken
      exact { coherent with clock := later.2 }
    · cases taken
  | readClock caller =>
    split at taken
    · cases taken
      refine coherent.setPhase caller (fun now is_ => ?_) (fun _ _ is_ => nomatch is_)
      exact Phase.timed.inj is_ ▸ coherent.clock
    · cases taken
  | load caller =>
    split at taken
    · rename_i now is_
      cases taken
      have time := coherent.timed caller now is_
      cases limits : limited period now state.last with
      | true =>
        exact coherent.setPhase caller (fun _ is_ => nomatch is_) (fun _ _ is_ => nomatch is_)
      | false =>
        refine coherent.setPhase caller (fun _ is_ => nomatch is_) fun _ _ is_ => ?_
        obtain ⟨rfl, rfl⟩ := Phase.loaded.inj is_
        exact ⟨time, limits⟩
    · cases taken
  | exchange caller =>
    split at taken
    · rename_i now last is_
      cases taken
      have time := (coherent.loaded caller now last is_).1
      have idle : Coherent period (state.setPhase caller .idle) :=
        coherent.setPhase caller (fun _ is_ => nomatch is_) (fun _ _ is_ => nomatch is_)
      split
      · exact idle.pass time
      · exact idle
    · cases taken

theorem spaced_step_iff (coherent : Coherent period state) (spaced : Spaced period state)
    (fits : period < 2 ^ 64) (action : Action Caller) :
    Orderly period state action ↔
      ∀ next, step period state action = some next → Spaced period next := by
  cases action with
  | advance time | readClock caller | load caller =>
    refine iff_of_true trivial fun next taken => ?_
    rw [Limiter.step] at taken
    split at taken
    · cases taken
      exact ⟨spaced.apart, spaced.grown⟩
    · cases taken
  | exchange caller =>
    rw [Orderly, Limiter.step]
    cases is_ : state.phase caller with
    | idle | timed now =>
      exact iff_of_true (fun _ is_ => nomatch is_) (fun _ taken => nomatch taken)
    | loaded now last =>
      obtain ⟨time, passes⟩ := coherent.loaded caller now last is_
      by_cases current : state.last = last
      · subst current
        have passed : Spaced period ((state.setPhase caller .idle).pass now) ↔
            Spaced period (state.pass now) :=
          ⟨fun spaced => ⟨spaced.apart, spaced.grown⟩, fun spaced => ⟨spaced.apart, spaced.grown⟩⟩
        have exact_ := spaced_pass_iff coherent spaced fits time passes
        constructor
        · intro orderly next taken
          cases taken
          rw [if_pos (show (state.setPhase caller .idle).last = state.last from rfl)]
          exact passed.mpr (exact_.mpr (orderly now rfl))
        · intro keeps other same
          obtain ⟨rfl, -⟩ := Phase.loaded.inj same
          have kept := keeps _ rfl
          rw [if_pos (show (state.setPhase caller .idle).last = state.last from rfl)] at kept
          exact exact_.mp (passed.mp kept)
      · refine iff_of_true ?_ fun next taken => ?_
        · intro other same
          exact absurd (Phase.loaded.inj same).2.symm current
        · cases taken
          rw [if_neg (show (state.setPhase caller .idle).last ≠ last from current)]
          exact ⟨spaced.apart, spaced.grown⟩

/-- The calls that pass are a period apart, and the last time never decreases, in all states of a run
just if the run is orderly. -/
theorem check_spaced_iff {clock : Nat} (fits : period < 2 ^ 64) (time : clock < 2 ^ 64)
    (actions : List (Action Caller)) :
    Meets (step period) (Orderly period) (State.new clock) actions ↔
      ∀ before after middle, actions = before ++ after →
        run (step period) (State.new clock) before = some middle → Spaced period middle :=
  meets_iff_throughout (fun _ _ _ coherent taken => coherent.step taken)
    (fun _ action coherent spaced => spaced_step_iff coherent spaced fits action)
    (coherent_new time) ⟨List.Pairwise.nil, List.pairwise_singleton _ _⟩ actions

/-- Two callers, one after the other and a period apart. -/
theorem check_spaced_in_turn :
    let actions : List (Action Bool) := [.readClock true, .load true, .exchange true, .advance 1100,
      .readClock false, .load false, .exchange false]
    ∀ before after middle, actions = before ++ after →
      run (step 100) (State.new 1000) before = some middle → Spaced 100 middle :=
  (check_spaced_iff (by decide) (by decide) _).mp (by decide)

/-- A caller that has read the clock is overtaken by another one, a millisecond later. Both pass, and
the last time goes back. -/
theorem overtaken_not_spaced : ¬ ∀ (actions : List (Action Bool)) final,
      run (step 100) (State.new 1000) actions = some final → Spaced 100 final := by
  intro each
  let actions : List (Action Bool) := [.readClock true, .advance 1001, .readClock false, .load false,
    .exchange false, .load true, .exchange true]
  have passed : (run (step 100) (State.new 1000) actions).map State.passed = some [1001, 1000] := by
    decide
  obtain ⟨final, ran, is_⟩ := Option.map_eq_some_iff.mp passed
  have spaced := (each actions final ran).apart
  rw [is_] at spaced
  exact absurd spaced (by decide)

end ClashVerge.Utils.Limiter
