import Mathlib.Algebra.Ring.Int.Defs
import ClashVerge.Profiles.PrfItem
import ClashVerge.Timer.Consistent

/-!
# The arithmetic of the schedule

An interval comes from the user or, in hours, from a header of the subscription. It is turned into
minutes, then into the seconds of a delay, and added to the time of the last update. The header's
product and the next update time overflow 64 bits, and the queue panics on a delay beyond its
maximum, which ends the scheduler.
-/

namespace ClashVerge.Timer

open ClashVerge.Profiles (PrfItem)
open ClashVerge.Profiles.Network (HttpResponse parseU64)
open Transition (run Meets)

def headerHours (response : HttpResponse) : Option Nat :=
  (response.header "profile-update-interval").bind fun value =>
    parseU64 (value.toStr.getD "").toList

theorem updateInterval_eq (response : HttpResponse) :
    response.updateInterval = (headerHours response).map fun hours => hours * 60 % UInt64.size := by
  unfold HttpResponse.updateInterval headerHours
  cases response.header "profile-update-interval" with
  | none => rfl
  | some value =>
    cases parsed : parseU64 (value.toStr.getD "").toList <;> simp [parsed]

inductive Overflow where
  | overflow
deriving DecidableEq

/-- `as i64`. -/
def asI64 (value : Nat) : Int := Int.bmod value UInt64.size

/-- The result of a signed operation of 64 bits, if it has one. -/
def checkedI64 (value : Int) : Except Overflow Int :=
  if -2 ^ 63 ≤ value ∧ value < 2 ^ 63 then .ok value else .error .overflow

def getNextUpdateTime (timerMap : List (String × Nat)) (items : Option (List PrfItem))
    (uid : String) : Except Overflow (Option Int) :=
  match OrderedMap.get timerMap uid, items.bind (·.find? fun item => item.uid = some uid) with
  | some taskInterval, some profile =>
    let updated := asI64 (profile.updated.getD 0)
    if 0 < updated then do
      let seconds ← checkedI64 (asI64 taskInterval * 60)
      let next ← checkedI64 (updated + seconds)
      return some next
    else return none
  | _, _ => return none

/-- Every refresh of the run reads these profiles. -/
def Reads (items : Option (List PrfItem)) : Action → Prop
  | .refresh _ read _ => read = items
  | _ => True

/-- The arithmetic of the schedule never fails: neither that of the header, nor that of the next
update time, nor the queue, whatever happens as long as the profiles stay the same. -/
structure Unfailing (rules : QueueRules) (response : HttpResponse)
    (items : Option (List PrfItem)) : Prop where
  header : response.updateInterval = (headerHours response).map (· * 60)
  next : ∀ actions final, Meets (step rules) (fun _ => Reads items) .new actions →
    run (step rules) .new actions = some final →
      ∀ uid, getNextUpdateTime final.timerMap items uid ≠ .error .overflow
  delays : ∀ actions final, Meets (step rules) (fun _ => Reads items) .new actions →
    run (step rules) .new actions = some final →
      Meets (step rules) (WithinMaximum rules) .new actions ∧
        ∃ scheduler, final.scheduler = .ok scheduler

/-- The interval in minutes at which a profile updates itself. -/
def intervalOf (items : Option (List PrfItem)) (uid : String) : Option Nat :=
  (OrderedMap.get (genMap items 0) uid).map (·.intervalMinutes)

/-- The numbers are small enough: the hours of the header, every interval for the queue, and the
last updates for the time of the next ones. -/
structure Fits (response : HttpResponse) (items : Option (List PrfItem)) : Prop where
  hours : ∀ hours ∈ headerHours response, hours ≤ 307445734561825860
  interval : ∀ uid, ∀ interval ∈ intervalOf items uid, interval ≤ 1145324
  updated : ∀ uid, ∀ interval ∈ intervalOf items uid,
    ∀ profile ∈ items.bind (·.find? fun item => item.uid = some uid),
      0 < asI64 (profile.updated.getD 0) →
        asI64 (profile.updated.getD 0) + interval * 60 < 2 ^ 63

theorem header_exact_iff (response : HttpResponse) :
    response.updateInterval = (headerHours response).map (· * 60) ↔
      ∀ hours ∈ headerHours response, hours ≤ 307445734561825860 := by
  rw [updateInterval_eq]
  cases headerHours response with
  | none => simp
  | some hours =>
    simp only [Option.map_some, Option.some.injEq, Option.mem_def, forall_eq', UInt64.size]
    omega

/-! ## What a refresh reads -/

section

variable {items : Option (List PrfItem)}

/-- The schedules of the profiles: the interval does not depend on the time, and the first delay is
reckoned from it. -/
theorem get_genMap (items : Option (List PrfItem)) (now : Int) (uid : String) :
    (OrderedMap.get (genMap items now) uid).map (·.intervalMinutes) = intervalOf items uid ∧
      ∀ schedule ∈ OrderedMap.get (genMap items now) uid,
        ∃ updated, schedule = .new schedule.intervalMinutes updated now := by
  cases items with
  | none => simp [intervalOf, genMap]
  | some items =>
    unfold intervalOf genMap
    induction items using List.reverseRecOn with
    | nil => simp [genMapFromItems]
    | append_singleton before item ih =>
      dsimp only at ih ⊢
      rw [genMapFromItems, genMapFromItems, List.foldl_append, List.foldl_append, List.foldl_cons,
        List.foldl_cons, List.foldl_nil, List.foldl_nil, ← genMapFromItems, ← genMapFromItems]
      split
      · split
        · split
          · rename_i option own _ _ _ interval _ _
            rw [OrderedMap.get_insert, OrderedMap.get_insert]
            split
            · constructor
              · simp only [Option.map_some, TaskSchedule.new]
              · intro schedule found
                cases found
                exact ⟨item.updated, rfl⟩
            · exact ih
          · exact ih
        · exact ih
      · exact ih

theorem firstDelay_le (interval : Nat) (updated : Option Nat) (now : Int) :
    (TaskSchedule.new interval updated now).firstDelay ≤ intervalDuration interval :=
  Nat.sub_le _ _

theorem firstDelay_earliest (interval : Nat) (updated : Option Nat) :
    (TaskSchedule.new interval updated (-2 ^ 63)).firstDelay = intervalDuration interval := by
  unfold TaskSchedule.new
  split
  · rfl
  · rename_i updated _
    have lower := Int.le_bmod (x := (updated : Int)) (m := UInt64.size) (by decide)
    have none : saturatingSub (-2 ^ 63) (Int.bmod updated UInt64.size) ≤ 0 := by
      unfold saturatingSub
      simp only [UInt64.size] at lower ⊢
      omega
    simp only [max_eq_left none, Int.toNat_zero, Nat.sub_zero]

theorem System.mem_pending {system : System} {newMap : Schedules} : newMap ∈ system.pending ↔
      .apply newMap ∈ system.commands ∨ system.refreshing = some newMap := by
  rw [System.pending, List.mem_append, List.mem_filterMap, Option.mem_toList]
  apply or_congr_left
  constructor
  · rintro ⟨command, listed, read⟩
    cases command with
    | apply other =>
      cases read
      exact listed
    | runNow uid => cases read
    | taskFinished uid => cases read
  · intro listed
    exact ⟨_, listed, rfl⟩

variable {rules : QueueRules} {system next : System} {scheduler : Scheduler} {action : Action}

theorem pending_step (taken : step rules system action = some next) {newMap : Schedules}
    (waits : newMap ∈ next.pending) : newMap ∈ system.pending ∨
      ∃ now items, action = .refresh now items newMap ∧ newMap.Perm (genMap items now) := by
  have posted (sender : System) (command : TimerCommand)
      (other : ∀ newMap, command = .apply newMap → newMap ∈ system.pending)
      (kept : ∀ newMap ∈ sender.pending, newMap ∈ system.pending)
      (waits : newMap ∈ (sender.post command).pending) : newMap ∈ system.pending := by
    unfold System.post at waits
    split at waits
    · rw [System.mem_pending] at waits
      obtain listed | refreshing := waits
      · obtain before | last := List.mem_append.mp listed
        · exact kept newMap (System.mem_pending.mpr (.inl before))
        · exact other newMap (List.mem_singleton.mp last).symm
      · exact kept newMap (System.mem_pending.mpr (.inr refreshing))
    · exact kept newMap waits
  cases action with simp only [Timer.step] at taken
  | refresh now items read =>
    split at taken
    · rename_i starts
      split at taken
      · cases taken
        exact .inl waits
      · cases taken
        obtain listed | refreshing := System.mem_pending.mp waits
        · exact .inl (System.mem_pending.mpr (.inl listed))
        · cases refreshing
          exact .inr ⟨now, items, rfl, starts.2⟩
    · contradiction
  | send =>
    split at taken
    · rename_i read refreshing
      cases taken
      refine .inl (posted _ _ ?_ ?_ waits)
      · intro newMap same
        obtain rfl := TimerCommand.apply.inj same
        exact System.mem_pending.mpr (.inr refreshing)
      · intro newMap listed
        obtain before | none := System.mem_pending.mp listed
        · exact System.mem_pending.mpr (.inl before)
        · contradiction
    · contradiction
  | runNow uid =>
    cases taken
    exact .inl (posted _ _ (by simp) (fun _ => id) waits)
  | expire key =>
    split at taken
    · split at taken
      · cases taken
        exact .inl waits
      · contradiction
    · contradiction
  | receive visited =>
    split at taken
    · rename_i command rest alive waiting
      split at taken
      · cases taken
        refine .inl (System.mem_pending.mpr ?_)
        unfold System.settle at waits
        split at waits
        · obtain listed | refreshing := System.mem_pending.mp waits
          · exact .inl (by rw [waiting]; exact List.mem_cons_of_mem _ listed)
          · exact .inr refreshing
        · obtain listed | refreshing := System.mem_pending.mp waits
          · cases listed
          · exact .inr refreshing
      · contradiction
    · contradiction
  | report uid =>
    split at taken
    · cases taken
      exact .inl (posted { system with updates := system.updates.erase uid } _ (by simp)
        (fun _ => id) waits)
    · contradiction

theorem active_step (invariant : Invariant system scheduler)
    (within : WithinMaximum rules system action) (taken : step rules system action = some next)
    {scheduler' : Scheduler} (alive : next.scheduler = .ok scheduler') (uid : String) :
    activeInterval scheduler'.tasks uid = activeInterval scheduler.tasks uid ∨
      ∃ newMap ∈ system.pending, activeInterval scheduler'.tasks uid =
        (OrderedMap.get newMap uid).map (·.intervalMinutes) := by
  have kept : next.scheduler = system.scheduler →
      activeInterval scheduler'.tasks uid = activeInterval scheduler.tasks uid := by
    intro same
    obtain rfl := Except.ok.inj (alive.symm.trans (same.trans invariant.alive))
    rfl
  have posted (sender : System) (command : TimerCommand) :
      (sender.post command).scheduler = sender.scheduler := by
    unfold System.post
    split <;> rfl
  cases action with
  | refresh now items read =>
    simp only [Timer.step] at taken
    split_ifs at taken
    · exact .inl (kept (Option.some.inj taken ▸ rfl))
    · exact .inl (kept (Option.some.inj taken ▸ rfl))
  | send | report other =>
    simp only [Timer.step] at taken
    split at taken
    · exact .inl (kept (Option.some.inj taken ▸ posted _ _))
    · contradiction
  | runNow uid => exact .inl (kept (Option.some.inj taken ▸ posted _ _))
  | expire key =>
    simp only [Timer.step, invariant.alive] at taken
    split at taken
    · rename_i expired delay found
      obtain ⟨tasks', ran, -, starts⟩ := runExpiredTask_spec invariant.scheduled ⟨delay, found⟩
      rw [ran] at taken
      cases taken
      cases alive
      exact .inl (starts.active uid)
    · contradiction
  | receive visited =>
    obtain ⟨permuted, command, rest, waiting, received⟩ := invariant.received taken
    rw [if_pos (within scheduler command invariant.alive (by rw [waiting]; rfl))] at received
    obtain ⟨queue', tasks', spawned, alive', handles, -⟩ := received
    obtain rfl := Except.ok.inj (alive.symm.trans alive')
    have active := handles.active uid
    have visits : activeInterval visited uid = activeInterval scheduler.tasks uid :=
      (readings_congr (OrderedMap.get_perm invariant.scheduled.tasks_distinct permuted uid)).2.1
    cases command with
    | apply newMap =>
      refine .inr ⟨newMap, System.mem_pending.mpr (.inl ?_), active⟩
      rw [waiting]
      exact List.mem_cons_self
    | runNow other | taskFinished other => exact .inl (active.trans visits)

/-- All that the scheduler has, or is going to have, comes from these profiles. -/
structure Sourced (items : Option (List PrfItem)) (system : System) (scheduler : Scheduler) :
    Prop where
  pending : ∀ newMap ∈ system.pending, ∃ now, newMap.Perm (genMap items now)
  active : ∀ uid, ∀ interval ∈ activeInterval scheduler.tasks uid,
    interval ∈ intervalOf items uid

theorem intervals_of_perm {now : Int} {newMap : Schedules}
    (generated : newMap.Perm (genMap items now)) (uid : String) :
    (OrderedMap.get newMap uid).map (·.intervalMinutes) = intervalOf items uid := by
  rw [OrderedMap.get_perm (distinct_genMap items now) generated]
  exact (get_genMap items now uid).1

theorem Sourced.step (sourced : Sourced items system scheduler)
    (invariant : Invariant system scheduler) (reads : Reads items action)
    (within : WithinMaximum rules system action) (taken : step rules system action = some next)
    {scheduler' : Scheduler} (alive : next.scheduler = .ok scheduler') :
    Sourced items next scheduler' := by
  constructor
  · intro newMap waits
    obtain before | ⟨now, read, rfl, generated⟩ := pending_step taken waits
    · exact sourced.pending newMap before
    · obtain rfl : read = items := reads
      exact ⟨now, generated⟩
  · intro uid interval found
    obtain same | ⟨newMap, waited, same⟩ := active_step invariant within taken alive uid
    · exact sourced.active uid interval (same ▸ found)
    · obtain ⟨now, generated⟩ := sourced.pending newMap waited
      rwa [same, intervals_of_perm generated] at found

theorem Sourced.cached (sourced : Sourced items system scheduler)
    (invariant : Invariant system scheduler) {uid : String} {interval : Nat}
    (found : OrderedMap.get system.timerMap uid = some interval) :
    interval ∈ intervalOf items uid := by
  rw [← invariant.latest uid, latestInterval] at found
  split at found
  · rename_i newMap last
    obtain ⟨now, generated⟩ := sourced.pending newMap (List.mem_of_getLast? last)
    rwa [intervals_of_perm generated] at found
  · exact sourced.active uid interval found

theorem finishDelay_eq (tasks : Tasks) (uid : String) :
    finishDelay tasks uid = (activeInterval tasks uid).map intervalDuration := by
  unfold finishDelay activeInterval
  cases OrderedMap.get tasks uid with
  | none => rfl
  | some state => cases retired : state.retired <;> simp [retired]

theorem Sourced.within (sourced : Sourced items system scheduler)
    (invariant : Invariant system scheduler)
    (short : ∀ uid, ∀ interval ∈ intervalOf items uid, intervalDuration interval ≤ rules.maximum)
    (action : Action) : WithinMaximum rules system action := by
  cases action with
  | receive visited =>
    intro scheduler' command alive first delay listed
    obtain rfl := Except.ok.inj (alive.symm.trans invariant.alive)
    cases command with
    | apply newMap =>
      obtain ⟨now, generated⟩ := sourced.pending newMap
        (System.mem_pending.mpr (.inl (List.mem_of_mem_head? first)))
      obtain ⟨⟨uid, schedule⟩, member, handed⟩ := List.mem_filterMap.mp listed
      have found : OrderedMap.get (genMap items now) uid = some schedule :=
        (OrderedMap.get_eq_some_iff (distinct_genMap items now) _ _).mpr (generated.subset member)
      obtain ⟨interval, reckoned⟩ := get_genMap items now uid
      rw [found, Option.map_some] at interval
      obtain ⟨updated, made⟩ := reckoned schedule found
      have fits : schedule.firstDelay ≤ rules.maximum :=
        (made ▸ firstDelay_le _ updated now).trans (short uid _ interval.symm)
      unfold handedDelay at handed
      split at handed
      · exact Option.some.inj handed ▸ fits
      · split at handed
        · cases handed
        · exact Option.some.inj handed ▸ fits
    | runNow uid => cases listed
    | taskFinished uid =>
      rw [TimerCommand.delays, finishDelay_eq, Option.mem_toList, Option.map_eq_some_iff] at listed
      obtain ⟨interval, found, rfl⟩ := listed
      exact short uid interval (sourced.active uid interval found)
  | refresh | send | runNow | expire | report => trivial

theorem sourced_run
    (short : ∀ uid, ∀ interval ∈ intervalOf items uid, intervalDuration interval ≤ rules.maximum)
    {actions : List Action} {final : System}
    (reads : Meets (step rules) (fun _ => Reads items) .new actions)
    (ran : run (step rules) .new actions = some final) :
    Meets (step rules) (WithinMaximum rules) .new actions ∧
      ∃ scheduler, Invariant final scheduler ∧ Sourced items final scheduler := by
  have initially : ∃ scheduler, Invariant .new scheduler ∧ Sourced items .new scheduler :=
    ⟨_, invariant_new, by simp [System.pending, System.new], by simp [activeInterval]⟩
  have keeps (system : System) (action : Action) (next : System)
      (both : ∃ scheduler, Invariant system scheduler ∧ Sourced items system scheduler)
      (reads : Reads items action) (taken : step rules system action = some next) :
      ∃ scheduler, Invariant next scheduler ∧ Sourced items next scheduler := by
    obtain ⟨scheduler, invariant, sourced⟩ := both
    have within := sourced.within invariant short action
    obtain ⟨scheduler', kept⟩ := invariant.step within taken
    exact ⟨scheduler', kept, sourced.step invariant reads within taken kept.alive⟩
  constructor
  · refine Meets.imp_of_invariant _ keeps (fun system action both _ => ?_) initially reads
    obtain ⟨scheduler, invariant, sourced⟩ := both
    exact sourced.within invariant short action
  · exact Transition.run_invariant_of_meets _ keeps initially reads ran

end

/-! ## When no step of it fails -/

section

variable {rules : QueueRules} {response : HttpResponse} {items : Option (List PrfItem)}

theorem intervalDuration_le_iff (documented : rules.maximum = 68719476) (interval : Nat) :
    intervalDuration interval ≤ rules.maximum ↔ interval ≤ 1145324 := by
  simp only [intervalDuration, documented, UInt64.size]
  omega

theorem asI64_of_small {value : Nat} (small : value < 2 ^ 63) : asI64 value = value := by
  unfold asI64
  rw [Int.bmod_def]
  simp only [UInt64.size]
  omega

theorem checkedI64_ok {value : Int} (above : -2 ^ 63 ≤ value) (below : value < 2 ^ 63) :
    checkedI64 value = pure value := if_pos ⟨above, below⟩

theorem checkedI64_error {value : Int} (beyond : 2 ^ 63 ≤ value) :
    checkedI64 value = .error .overflow := by
  rw [checkedI64, if_neg]
  omega

theorem getNextUpdateTime_overflow {timerMap : List (String × Nat)} {uid : String} {interval : Nat}
    (found : OrderedMap.get timerMap uid = some interval) (short : interval ≤ 1145324) :
    getNextUpdateTime timerMap items uid = .error .overflow ↔
      ∃ profile ∈ items.bind (·.find? fun item => item.uid = some uid),
        0 < asI64 (profile.updated.getD 0) ∧
          2 ^ 63 ≤ asI64 (profile.updated.getD 0) + interval * 60 := by
  unfold getNextUpdateTime
  rw [found]
  cases items.bind (·.find? fun item => item.uid = some uid) with
  | none => simp [pure, Except.pure]
  | some profile =>
    have seconds : asI64 interval = interval := asI64_of_small (by omega)
    have fits : checkedI64 (interval * 60) = pure (interval * 60 : Int) :=
      checkedI64_ok (by omega) (by omega)
    simp only [seconds, fits, Option.mem_def, Option.some.injEq, exists_eq_left', pure_bind]
    generalize asI64 (profile.updated.getD 0) = updated
    by_cases positive : 0 < updated
    · rw [if_pos positive, and_iff_right positive]
      by_cases within : updated + interval * 60 < 2 ^ 63
      · rw [checkedI64_ok (by omega) within, pure_bind]
        exact iff_of_false (fun fails => nomatch fails) (not_le.mpr within)
      · rw [checkedI64_error (not_lt.mp within)]
        exact iff_of_true rfl (not_lt.mp within)
    · rw [if_neg positive]
      simp [pure, Except.pure, positive]

theorem first_refresh (rules : QueueRules) (items : Option (List PrfItem)) (now : Int) :
    ∃ final, run (step rules) .new [.refresh now items (genMap items now)] = some final ∧
      ∀ uid, OrderedMap.get final.timerMap uid = intervalOf items uid := by
  have written (uid : String) : OrderedMap.get
      ((genMap items now).map fun entry => (entry.1, entry.2.intervalMinutes)) uid =
        intervalOf items uid := by
    rw [OrderedMap.get_map]
    exact intervals_of_perm (List.Perm.refl _) uid
  simp only [Transition.run_cons_iff, Transition.run_nil, Option.some.injEq, exists_eq_right]
  rw [step, if_pos ⟨rfl, List.Perm.refl _⟩]
  dsimp only
  split
  · rename_i same
    refine ⟨_, rfl, fun uid => ?_⟩
    rw [← written]
    exact congrArg (OrderedMap.get · uid) same.nil_eq
  · exact ⟨_, rfl, written⟩

theorem first_delay (rules : QueueRules) {uid : String} {interval : Nat}
    (found : interval ∈ intervalOf items uid) :
    ∃ actions final, Meets (step rules) (fun _ => Reads items) .new actions ∧
      run (step rules) .new actions = some final ∧
      (Meets (step rules) (WithinMaximum rules) .new actions →
        intervalDuration interval ≤ rules.maximum) := by
  let newMap := genMap items (-2 ^ 63)
  let intervals := newMap.map fun entry => (entry.1, entry.2.intervalMinutes)
  obtain ⟨same, reckoned⟩ := get_genMap items (-2 ^ 63) uid
  obtain ⟨schedule, listed, rfl⟩ := Option.map_eq_some_iff.mp (same.trans found)
  have member : (uid, schedule) ∈ newMap :=
    (OrderedMap.get_eq_some_iff (distinct_genMap items _) _ _).mp listed
  have changes : ¬ System.new.timerMap.Perm intervals := by
    intro same
    have none : newMap = [] := List.map_eq_nil_iff.mp same.nil_eq.symm
    exact List.not_mem_nil (none ▸ member)
  have refreshed : step rules .new (.refresh (-2 ^ 63) items newMap) =
      some ⟨intervals, some newMap, [], .ok ⟨[], []⟩, []⟩ := by
    rw [step, if_pos ⟨rfl, List.Perm.refl _⟩]
    exact if_neg changes
  have sent : run (step rules) .new [.refresh (-2 ^ 63) items newMap, .send] =
      some ⟨intervals, none, [.apply newMap], .ok ⟨[], []⟩, []⟩ :=
    (Transition.run_cons_iff ..).mpr ⟨_, refreshed, rfl⟩
  refine ⟨[.refresh (-2 ^ 63) items newMap, .send] ++ [.receive []], _, ?_,
    (Transition.run_append_iff ..).mpr ⟨_, sent, rfl⟩, fun meets => ?_⟩
  · exact ⟨rfl, fun _ _ => ⟨trivial, fun _ _ => ⟨trivial, fun _ _ => trivial⟩⟩⟩
  · have within := meets.reached sent ⟨[], []⟩ (.apply newMap) rfl rfl
    obtain ⟨updated, made⟩ := reckoned schedule listed
    have full : schedule.firstDelay = intervalDuration schedule.intervalMinutes := by
      rw [made]
      exact firstDelay_earliest _ updated
    rw [← full]
    exact within _ (List.mem_filterMap.mpr ⟨(uid, schedule), member, rfl⟩)

end

def updateHours (hours : String) : HttpResponse where
  status := ⟨200, "200 OK"⟩
  headers := [("profile-update-interval", ⟨some hours, hours⟩)]
  text := ""

end ClashVerge.Timer
