import ClashVerge.Timer.Scheduler

/-!
# What the handlers keep

The tasks and the queue are matched when each task that waits has one entry, whose key it stores,
each task that runs has none, and no other entry exists. Of matched tasks and queue no handler asks
the queue for a key it does not hold: it panics only if a delay is too long.

Each handler is also described by what it does to two readings of a task: whether it runs, and the
interval at which it is active, which a retired task is not.
-/

namespace ClashVerge.Timer

open OrderedMap (Distinct distinct_cons distinct_insert distinct_nil distinct_remove get
  get_eq_none_iff get_eq_some_iff get_insert get_insert_other get_insert_same get_remove keys)

/-- The task waits with an entry, or runs without one. -/
def TaskState.Proper (state : TaskState) : Prop :=
  state.running = state.key.isNone ∧ (state.retired = true → state.running = true)

/-- The entries of a uid are the one its task stores. -/
structure Matches (queue : DelayQueue) (uid : String) (task : Option TaskState) : Prop where
  proper : ∀ state ∈ task, state.Proper
  entries : ∀ key, queue.Held uid key ↔ ∃ state ∈ task, state.key = some key

structure Scheduled (queue : DelayQueue) (tasks : Tasks) : Prop where
  queue_distinct : Distinct queue
  tasks_distinct : Distinct tasks
  matched : ∀ uid, Matches queue uid (get tasks uid)

def isRunning (tasks : Tasks) (uid : String) : Bool := (get tasks uid).any (·.running)

def activeInterval (tasks : Tasks) (uid : String) : Option Nat :=
  (get tasks uid).bind fun state =>
    if state.retired then none else some state.intervalMinutes

theorem scheduled_nil : Scheduled [] [] :=
  ⟨distinct_nil, distinct_nil, fun _ => ⟨by simp, by simp [DelayQueue.Held]⟩⟩

section

variable {rules : QueueRules} {queue : DelayQueue} {tasks : Tasks} {uid : String}

theorem DelayQueue.insert_ok (distinct : Distinct queue) (uid : String) {delay : Nat}
    (within : delay ≤ rules.maximum) :
    ∃ queue' key, queue.insert rules uid delay = .ok (queue', key) ∧
      Distinct queue' ∧
      ∀ other held, queue'.Held other held ↔
        other = uid ∧ held = key ∨ queue.Held other held := by
  refine ⟨_, _, if_pos within, distinct_insert distinct _ _, fun other held => ?_⟩
  unfold Held
  rw [get_insert]
  by_cases same : held = rules.freshKey queue
  · subst same
    simp [rules.unused, eq_comm]
  · simp [same]

theorem DelayQueue.insert_error (uid : String) {delay : Nat} (long : ¬ delay ≤ rules.maximum) :
    queue.insert rules uid delay = .error .delayTooLong := if_neg long

theorem DelayQueue.reset_ok (distinct : Distinct queue) {key : Key}
    (held : queue.Held uid key) {delay : Nat} (within : delay ≤ rules.maximum) :
    ∃ queue', queue.reset rules key delay = .ok queue' ∧ Distinct queue' ∧
      ∀ other held, queue'.Held other held ↔ queue.Held other held := by
  obtain ⟨before, found⟩ := held
  refine ⟨OrderedMap.insert queue key (uid, delay), by rw [reset, found]; exact if_pos within,
    distinct_insert distinct _ _, fun other held => ?_⟩
  unfold Held
  rw [get_insert]
  by_cases same : held = key
  · subst same
    simp [found]
  · simp [same]

theorem DelayQueue.reset_error {key : Key} (held : queue.Held uid key) {delay : Nat}
    (long : ¬ delay ≤ rules.maximum) :
    queue.reset rules key delay = .error .delayTooLong := by
  obtain ⟨before, found⟩ := held
  rw [reset, found]
  exact if_neg long

theorem DelayQueue.remove_ok (distinct : Distinct queue) {key : Key} (held : queue.Held uid key) :
    ∃ queue', queue.remove key = .ok queue' ∧ Distinct queue' ∧
      ∀ other held, queue'.Held other held ↔ queue.Held other held ∧ held ≠ key := by
  obtain ⟨before, found⟩ := held
  refine ⟨OrderedMap.remove queue key, if_pos (by simp [OrderedMap.contains, found]),
    distinct_remove distinct key, fun other held => ?_⟩
  unfold Held
  rw [get_remove distinct]
  by_cases same : held = key <;> simp [same]

theorem DelayQueue.Held.unique {one other : String} {key : Key} (held : queue.Held one key)
    (again : queue.Held other key) : one = other := by
  obtain ⟨delay, found⟩ := held
  obtain ⟨delay', found'⟩ := again
  rw [found] at found'
  exact (Prod.mk.inj (Option.some.inj found')).1

theorem Scheduled.change (scheduled : Scheduled queue tasks) {queue' : DelayQueue} {tasks' : Tasks}
    (queueDistinct : Distinct queue') (tasksDistinct : Distinct tasks')
    (tasksOther : ∀ other, other ≠ uid → get tasks' other = get tasks other)
    (queueOther : ∀ other, other ≠ uid → ∀ key, queue'.Held other key ↔ queue.Held other key)
    (changed : Matches queue' uid (get tasks' uid)) : Scheduled queue' tasks' := by
  refine ⟨queueDistinct, tasksDistinct, fun other => ?_⟩
  by_cases same : other = uid
  · exact same ▸ changed
  · obtain ⟨proper, entries⟩ := scheduled.matched other
    rw [tasksOther other same]
    exact ⟨proper, fun key => (queueOther other same key).trans (entries key)⟩

variable {state : TaskState}

section

variable (scheduled : Scheduled queue tasks)
include scheduled

theorem Scheduled.idle_key (found : get tasks uid = some state) (idle : state.running = false) :
    ∃ key, state.key = some key ∧ queue.Held uid key := by
  obtain ⟨proper, entries⟩ := scheduled.matched uid
  have present : state.key.isNone = false := (proper state found).1 ▸ idle
  obtain ⟨key, stored⟩ := Option.isSome_iff_exists.mp (by simpa using present)
  exact ⟨key, stored, (entries key).mpr ⟨state, found, stored⟩⟩

theorem Scheduled.running_key (found : get tasks uid = some state) (runs : state.running = true) :
    state.key = none ∧ ∀ key, ¬ queue.Held uid key := by
  obtain ⟨proper, entries⟩ := scheduled.matched uid
  have absent : state.key.isNone = true := (proper state found).1 ▸ runs
  have none : state.key = none := by simpa using absent
  refine ⟨none, fun key held => ?_⟩
  obtain ⟨state', found', stored⟩ := (entries key).mp held
  obtain rfl : state = state' := Option.some.inj (found.symm.trans found')
  simp [none] at stored

theorem Scheduled.absent (missing : get tasks uid = none) (key : Key) : ¬ queue.Held uid key := by
  intro held
  obtain ⟨state, found, -⟩ := ((scheduled.matched uid).entries key).mp held
  simp [missing] at found

theorem Scheduled.perm {visited : Tasks}
    (permuted : visited.Perm tasks) : Scheduled queue visited := by
  refine ⟨scheduled.queue_distinct,
    (permuted.map Prod.fst).nodup_iff.mpr scheduled.tasks_distinct, fun uid => ?_⟩
  rw [OrderedMap.get_perm scheduled.tasks_distinct permuted]
  exact scheduled.matched uid

end

def retained (newMap : Schedules) (uid : String) (state : TaskState) : Option TaskState :=
  if OrderedMap.contains newMap uid then some state
  else if state.running then some { state with key := none, retired := true }
  else none

theorem retainTask_ok (newMap : Schedules) (distinct : Distinct queue)
    (matched : Matches queue uid (some state)) :
    ∃ queue', retainTask newMap queue uid state = .ok (queue', retained newMap uid state) ∧
      Distinct queue' ∧ Matches queue' uid (retained newMap uid state) ∧
      ∀ other, other ≠ uid → ∀ key, queue'.Held other key ↔ queue.Held other key := by
  obtain ⟨proper, entries⟩ := matched
  obtain ⟨waits, retires⟩ := proper state rfl
  unfold retainTask retained
  by_cases listed : OrderedMap.contains newMap uid = true
  · rw [if_pos listed, if_pos listed]
    exact ⟨queue, rfl, distinct, ⟨proper, entries⟩, fun _ _ _ => Iff.rfl⟩
  · rw [if_neg listed, if_neg listed]
    cases stored : state.key with
    | none =>
      have runs : state.running = true := by rw [waits, stored]; rfl
      refine ⟨queue, by simp [bind, Except.bind, runs], distinct, ?_, fun _ _ _ => Iff.rfl⟩
      rw [if_pos runs]
      refine ⟨fun retired is_ => ?_, fun key => ?_⟩
      · cases is_
        exact ⟨runs, fun _ => runs⟩
      · simp [entries key, stored]
    | some key =>
      have idle : state.running = false := by rw [waits, stored]; rfl
      obtain ⟨queue', removed, distinct', held⟩ :=
        DelayQueue.remove_ok distinct ((entries key).mpr ⟨state, rfl, stored⟩)
      refine ⟨queue', by simp [bind, Except.bind, removed, idle], distinct', ?_,
        fun other different key' => ?_⟩
      · rw [idle, if_neg Bool.false_ne_true]
        refine ⟨by simp, fun key' => ?_⟩
        simp [held, entries key', stored, eq_comm]
      · rw [held]
        refine and_iff_left_of_imp fun own same => different ?_
        exact own.unique (same ▸ (entries key).mpr ⟨state, rfl, stored⟩)

theorem retainTasks_ok (newMap : Schedules) (distinct : Distinct queue)
    (tasksDistinct : Distinct tasks)
    (matched : ∀ uid ∈ keys tasks, Matches queue uid (get tasks uid)) :
    ∃ queue' tasks', retainTasks newMap queue tasks = .ok (queue', tasks') ∧
      Distinct queue' ∧ Distinct tasks' ∧
      (∀ uid, get tasks' uid = (get tasks uid).bind (retained newMap uid)) ∧
      (∀ uid ∈ keys tasks, Matches queue' uid (get tasks' uid)) ∧
      ∀ uid ∉ keys tasks, ∀ key, queue'.Held uid key ↔ queue.Held uid key := by
  induction tasks generalizing queue with
  | nil =>
    exact ⟨queue, [], rfl, distinct, distinct_nil, by simp, by simp,
      fun _ _ _ => Iff.rfl⟩
  | cons task rest ih =>
    obtain ⟨uid, state⟩ := task
    obtain ⟨fresh, restDistinct⟩ := distinct_cons.mp tasksDistinct
    have others : ∀ other ∈ keys rest, other ≠ uid := by
      rintro other member rfl
      exact fresh member
    have first : get ((uid, state) :: rest) uid = some state := if_pos rfl
    have later : ∀ other, other ≠ uid →
        get ((uid, state) :: rest) other = get rest other :=
      fun other different => if_neg (Ne.symm different)
    have own := matched uid List.mem_cons_self
    rw [first] at own
    obtain ⟨queue', retains, distinct', left, others'⟩ := retainTask_ok newMap distinct own
    obtain ⟨queue'', rest', remains, distinct'', restDistinct', kept, matched', frame⟩ :=
      ih distinct' restDistinct fun other member => by
        obtain ⟨proper, entries⟩ := matched other (List.mem_cons_of_mem _ member)
        rw [later other (others other member)] at proper entries
        exact ⟨proper, fun key => (others' other (others other member) key).trans (entries key)⟩
    have gone : get rest' uid = none := by
      rw [kept, (get_eq_none_iff rest uid).mpr fresh]
      rfl
    have stays : Matches queue'' uid (retained newMap uid state) :=
      ⟨left.proper, fun key => (frame uid fresh key).trans (left.entries key)⟩
    have spared : ∀ other ∉ keys ((uid, state) :: rest), ∀ key,
        queue''.Held other key ↔ queue.Held other key := by
      intro other absent key
      obtain ⟨different, unlisted⟩ := not_or.mp (mt List.mem_cons.mpr absent)
      exact (frame other unlisted key).trans (others' other different key)
    cases result : retained newMap uid state with rw [result] at retains stays
    | none =>
      refine ⟨queue'', rest', by simp [retainTasks, retains, remains, bind, Except.bind], distinct'',
        restDistinct', fun other => ?_, fun other member => ?_, spared⟩
      · by_cases same : other = uid
        · subst same
          rw [first, gone, Option.bind_some, result]
        · rw [later other same, kept]
      · obtain rfl | member := List.mem_cons.mp member
        · exact gone ▸ stays
        · exact matched' other member
    | some state' =>
      have first' : get ((uid, state') :: rest') uid = some state' := if_pos rfl
      have later' : ∀ other, other ≠ uid →
          get ((uid, state') :: rest') other = get rest' other :=
        fun other different => if_neg (Ne.symm different)
      refine ⟨queue'', (uid, state') :: rest',
        by simp [retainTasks, retains, remains, bind, Except.bind], distinct'',
        distinct_cons.mpr ⟨(get_eq_none_iff rest' uid).mp gone,
          restDistinct'⟩, fun other => ?_, fun other member => ?_, spared⟩
      · by_cases same : other = uid
        · subst same
          rw [first, first', Option.bind_some, result]
        · rw [later other same, later' other same, kept]
      · obtain rfl | member := List.mem_cons.mp member
        · exact first' ▸ stays
        · exact later' other (others other member) ▸ matched' other member

theorem Scheduled.store (scheduled : Scheduled queue tasks) {queue' : DelayQueue}
    (distinct : Distinct queue')
    (others : ∀ other, other ≠ uid → ∀ key, queue'.Held other key ↔ queue.Held other key)
    (matched : Matches queue' uid (some state)) :
    Scheduled queue' (OrderedMap.insert tasks uid state) := by
  refine scheduled.change distinct (distinct_insert scheduled.tasks_distinct uid state)
    (fun other different => get_insert_other tasks state different) others ?_
  rwa [get_insert_same]

theorem Scheduled.enqueue (scheduled : Scheduled queue tasks)
    (without : ∀ key, ¬ queue.Held uid key) {delay : Nat} (within : delay ≤ rules.maximum) :
    ∃ queue' key, queue.insert rules uid delay = .ok (queue', key) ∧
      ∀ state : TaskState, state.key = some key → state.running = false →
        state.retired = false → Scheduled queue' (OrderedMap.insert tasks uid state) := by
  obtain ⟨queue', key, inserted, distinct, held⟩ :=
    DelayQueue.insert_ok scheduled.queue_distinct uid within
  refine ⟨queue', key, inserted, fun state stored idle active => ?_⟩
  refine scheduled.store distinct (fun other different other' => ?_) ⟨fun state' is_ => ?_,
    fun other => ?_⟩
  · simp [held, different]
  · cases is_
    simp [TaskState.Proper, stored, idle, active]
  · simp [held, without, stored, eq_comm]

theorem Scheduled.dequeue (scheduled : Scheduled queue tasks) {queue' : DelayQueue} {key : Key}
    (found : get tasks uid = some state)
    (stored : state.key = some key) (distinct : Distinct queue')
    (held : ∀ other held, queue'.Held other held ↔ queue.Held other held ∧ held ≠ key)
    {state' : TaskState} (unkeyed : state'.key = none) (runs : state'.running = true) :
    Scheduled queue' (OrderedMap.insert tasks uid state') := by
  obtain ⟨proper, entries⟩ := scheduled.matched uid
  have own : queue.Held uid key := (entries key).mpr ⟨state, found, stored⟩
  refine scheduled.store distinct (fun other different other' => ?_) ⟨fun state' is_ => ?_,
    fun other => ?_⟩
  · rw [held]
    exact and_iff_left_of_imp fun theirs same => different (theirs.unique (same ▸ own))
  · cases is_
    simp [TaskState.Proper, unkeyed, runs]
  · rw [held, entries]
    simp [found, stored, unkeyed, eq_comm]

/-- The delay that a new schedule of a profile makes the queue take. -/
def handedDelay (tasks : Tasks) (uid : String) (schedule : TaskSchedule) : Option Nat :=
  match get tasks uid with
  | none => some schedule.firstDelay
  | some state =>
    if state.running = true ∨ state.intervalMinutes = schedule.intervalMinutes then none
    else some schedule.firstDelay

/-- What a new schedule makes of its profile's task. -/
structure Adopts (tasks tasks' : Tasks) (uid : String) (schedule : TaskSchedule) : Prop where
  running : isRunning tasks' uid = isRunning tasks uid
  active : activeInterval tasks' uid = some schedule.intervalMinutes

theorem adopts_insert {schedule : TaskSchedule}
    (running : state.running = isRunning tasks uid) (active : state.retired = false)
    (interval : state.intervalMinutes = schedule.intervalMinutes) :
    Adopts tasks (OrderedMap.insert tasks uid state) uid schedule := by
  refine ⟨?_, ?_⟩
  · rw [← running, isRunning, get_insert_same, Option.any_some]
  · simp [activeInterval, active, interval]

theorem applySchedule_ok (scheduled : Scheduled queue tasks) {schedule : TaskSchedule}
    (within : ∀ delay ∈ handedDelay tasks uid schedule, delay ≤ rules.maximum) :
    ∃ queue' tasks', applySchedule rules queue tasks uid schedule = .ok (queue', tasks') ∧
      Scheduled queue' tasks' ∧ Adopts tasks tasks' uid schedule ∧
      ∀ other, other ≠ uid → get tasks' other = get tasks other := by
  have others : ∀ state other, other ≠ uid →
      get (OrderedMap.insert tasks uid state) other = get tasks other :=
    fun state other different => get_insert_other tasks state different
  unfold handedDelay at within
  unfold applySchedule
  cases found : get tasks uid with
  | none =>
    rw [found] at within
    obtain ⟨queue', key, inserted, enqueued⟩ :=
      scheduled.enqueue (scheduled.absent found) (within _ rfl)
    refine ⟨queue', OrderedMap.insert tasks uid (.new key schedule.intervalMinutes), ?_,
      enqueued _ rfl rfl rfl, adopts_insert ?_ rfl rfl, others _⟩
    · simp [insertTask, inserted, bind, Except.bind]
    · simp [isRunning, found, TaskState.new]
  | some state =>
    simp only [found] at within
    have runs : isRunning tasks uid = state.running := by simp [isRunning, found]
    have matched := scheduled.matched uid
    rw [found] at matched
    by_cases same : state.intervalMinutes = schedule.intervalMinutes
    · refine ⟨queue, OrderedMap.insert tasks uid { state with retired := false }, ?_,
        scheduled.store scheduled.queue_distinct (fun _ _ _ => Iff.rfl) ?_,
        adopts_insert runs.symm rfl same, others _⟩
      · simp [same]
      · refine ⟨fun state' is_ => ?_, fun key => ?_⟩
        · cases is_
          exact ⟨(matched.proper state rfl).1, by simp⟩
        · simpa using matched.entries key
    · cases running : state.running with
      | true =>
        obtain ⟨unkeyed, without⟩ := scheduled.running_key found running
        refine ⟨queue, OrderedMap.insert tasks uid
          { state with retired := false, intervalMinutes := schedule.intervalMinutes }, ?_,
          scheduled.store scheduled.queue_distinct (fun _ _ _ => Iff.rfl) ?_,
          adopts_insert runs.symm rfl rfl, others _⟩
        · simp [same, updateTaskInterval, unkeyed, running, bind, Except.bind]
        · refine ⟨fun state' is_ => ?_, fun key => ?_⟩
          · cases is_
            exact ⟨(matched.proper state rfl).1, by simp⟩
          · simpa using matched.entries key
      | false =>
        obtain ⟨key, stored, held⟩ := scheduled.idle_key found running
        have short : schedule.firstDelay ≤ rules.maximum := within _ (by simp [running, same])
        obtain ⟨queue', resets, distinct, kept⟩ :=
          DelayQueue.reset_ok scheduled.queue_distinct held short
        refine ⟨queue', OrderedMap.insert tasks uid
          { state with retired := false, intervalMinutes := schedule.intervalMinutes }, ?_,
          scheduled.store distinct (fun other _ => kept other) ?_,
          adopts_insert runs.symm rfl rfl, others _⟩
        · simp [same, updateTaskInterval, stored, resets, bind, Except.bind]
        · refine ⟨fun state' is_ => ?_, fun key => ?_⟩
          · cases is_
            exact ⟨(matched.proper state rfl).1, by simp⟩
          · rw [kept]
            simpa using matched.entries key

theorem applySchedule_error (scheduled : Scheduled queue tasks) {schedule : TaskSchedule}
    (long : ¬ ∀ delay ∈ handedDelay tasks uid schedule, delay ≤ rules.maximum) :
    applySchedule rules queue tasks uid schedule = .error .delayTooLong := by
  unfold handedDelay at long
  unfold applySchedule
  cases found : get tasks uid with
  | none =>
    simp only [found, Option.mem_def, Option.some.injEq, forall_eq'] at long
    simp [insertTask, DelayQueue.insert_error uid long, bind, Except.bind]
  | some state =>
    simp only [found] at long
    split at long
    · simp at long
    · rename_i changes
      obtain ⟨idle, different⟩ := not_or.mp changes
      simp only [Option.mem_def, Option.some.injEq, forall_eq'] at long
      obtain ⟨key, stored, held⟩ := scheduled.idle_key found (by simpa using idle)
      simp [different, updateTaskInterval, stored, DelayQueue.reset_error held long, bind,
        Except.bind]

theorem readings_congr {tasks' : Tasks} (same : get tasks' uid = get tasks uid) :
    isRunning tasks' uid = isRunning tasks uid ∧
      activeInterval tasks' uid = activeInterval tasks uid ∧
      ∀ schedule, handedDelay tasks' uid schedule = handedDelay tasks uid schedule := by
  simp [isRunning, activeInterval, handedDelay, same]

theorem applySchedules_ok (scheduled : Scheduled queue tasks) {newMap : Schedules}
    (distinct : Distinct newMap)
    (within : ∀ entry ∈ newMap, ∀ delay ∈ handedDelay tasks entry.1 entry.2,
      delay ≤ rules.maximum) :
    ∃ queue' tasks', applySchedules rules queue tasks newMap = .ok (queue', tasks') ∧
      Scheduled queue' tasks' ∧ (∀ uid, isRunning tasks' uid = isRunning tasks uid) ∧
      ∀ uid, activeInterval tasks' uid =
        ((get newMap uid).map (·.intervalMinutes)).or (activeInterval tasks uid) := by
  induction newMap generalizing queue tasks with
  | nil => exact ⟨queue, tasks, rfl, scheduled, fun _ => rfl, fun _ => rfl⟩
  | cons entry rest ih =>
    obtain ⟨uid, schedule⟩ := entry
    obtain ⟨fresh, restDistinct⟩ := distinct_cons.mp distinct
    obtain ⟨queue', tasks', applied, scheduled', adopts, others⟩ :=
      applySchedule_ok scheduled (within _ List.mem_cons_self)
    have unlisted : ∀ entry ∈ rest, entry.1 ≠ uid := fun entry listed same =>
      fresh (List.mem_map.mpr ⟨entry, listed, same⟩)
    obtain ⟨queue'', tasks'', appliedRest, scheduled'', running, active⟩ :=
      ih scheduled' restDistinct fun entry listed => by
        rw [(readings_congr (others entry.1 (unlisted entry listed))).2.2]
        exact within entry (List.mem_cons_of_mem _ listed)
    refine ⟨queue'', tasks'', by simp [applySchedules, applied, appliedRest, bind, Except.bind],
      scheduled'', fun other => ?_, fun other => ?_⟩
    · rw [running]
      by_cases same : other = uid
      · exact same ▸ adopts.running
      · exact (readings_congr (others other same)).1
    · rw [active, OrderedMap.get_cons]
      by_cases same : other = uid
      · subst same
        rw [if_pos rfl, (get_eq_none_iff rest other).mpr fresh, adopts.active]
        rfl
      · rw [if_neg (Ne.symm same), (readings_congr (others other same)).2.1]

theorem applySchedules_error (scheduled : Scheduled queue tasks) {newMap : Schedules}
    (distinct : Distinct newMap)
    (long : ¬ ∀ entry ∈ newMap, ∀ delay ∈ handedDelay tasks entry.1 entry.2,
      delay ≤ rules.maximum) :
    applySchedules rules queue tasks newMap = .error .delayTooLong := by
  induction newMap generalizing queue tasks with
  | nil => simp at long
  | cons entry rest ih =>
    obtain ⟨uid, schedule⟩ := entry
    obtain ⟨fresh, restDistinct⟩ := distinct_cons.mp distinct
    by_cases within : ∀ delay ∈ handedDelay tasks uid schedule, delay ≤ rules.maximum
    · obtain ⟨queue', tasks', applied, scheduled', -, others⟩ := applySchedule_ok scheduled within
      have remains := ih scheduled' restDistinct fun short => long (by
        intro entry listed
        obtain rfl | later := List.mem_cons.mp listed
        · exact within
        · have different : entry.1 ≠ uid := fun same =>
            fresh (List.mem_map.mpr ⟨entry, later, same⟩)
          rw [← (readings_congr (others entry.1 different)).2.2]
          exact short entry later)
      simp [applySchedules, applied, remains, bind, Except.bind]
    · simp [applySchedules, applySchedule_error scheduled within, bind, Except.bind]

theorem retained_readings {newMap : Schedules} {tasks' : Tasks}
    (kept : get tasks' uid = (get tasks uid).bind (retained newMap uid)) :
    isRunning tasks' uid = isRunning tasks uid ∧
      (get newMap uid = none → activeInterval tasks' uid = none) ∧
      (∀ schedule ∈ get newMap uid,
        get tasks' uid = get tasks uid) := by
  unfold isRunning activeInterval
  rw [kept]
  cases found : get tasks uid with
  | none => simp
  | some state =>
    cases listed : get newMap uid with
    | some schedule => simp [retained, OrderedMap.contains, listed]
    | none =>
      cases runs : state.running <;> simp [retained, OrderedMap.contains, listed, runs]

def handedDelays (tasks : Tasks) (newMap : Schedules) : List Nat :=
  newMap.filterMap fun entry => handedDelay tasks entry.1 entry.2

theorem applyTimerMap_spec (rules : QueueRules) (scheduled : Scheduled queue tasks)
    {newMap : Schedules} (distinct : Distinct newMap) :
    if ∀ delay ∈ handedDelays tasks newMap, delay ≤ rules.maximum then
      ∃ queue' tasks', applyTimerMap rules queue tasks newMap = .ok (queue', tasks') ∧
        Scheduled queue' tasks' ∧ (∀ uid, isRunning tasks' uid = isRunning tasks uid) ∧
        ∀ uid, activeInterval tasks' uid = (get newMap uid).map (·.intervalMinutes)
    else applyTimerMap rules queue tasks newMap = .error .delayTooLong := by
  obtain ⟨queue', tasks', retains, distinct', tasksDistinct, kept, matched, frame⟩ :=
    retainTasks_ok newMap scheduled.queue_distinct scheduled.tasks_distinct
      fun uid _ => scheduled.matched uid
  have scheduled' : Scheduled queue' tasks' := by
    refine ⟨distinct', tasksDistinct, fun uid => ?_⟩
    by_cases known : uid ∈ keys tasks
    · exact matched uid known
    · have absent := (get_eq_none_iff tasks uid).mpr known
      rw [kept, absent, Option.bind_none]
      exact ⟨by simp, fun key => by simp [frame uid known, scheduled.absent absent]⟩
  have handed : (∀ entry ∈ newMap, ∀ delay ∈ handedDelay tasks' entry.1 entry.2,
      delay ≤ rules.maximum) ↔ ∀ delay ∈ handedDelays tasks newMap, delay ≤ rules.maximum := by
    simp only [handedDelays, List.mem_filterMap, forall_exists_index, and_imp]
    constructor
    · intro within delay entry listed read
      have same := (retained_readings (kept entry.1)).2.2 entry.2
        ((get_eq_some_iff distinct _ _).mpr listed)
      exact within entry listed delay ((readings_congr same).2.2 entry.2 ▸ read)
    · intro within entry listed delay read
      have same := (retained_readings (kept entry.1)).2.2 entry.2
        ((get_eq_some_iff distinct _ _).mpr listed)
      exact within delay entry listed ((readings_congr same).2.2 entry.2 ▸ read)
  split
  · rename_i within
    obtain ⟨queue'', tasks'', applied, scheduled'', running, active⟩ :=
      applySchedules_ok scheduled' distinct (handed.mpr within)
    refine ⟨queue'', tasks'', by simp [applyTimerMap, retains, applied, bind, Except.bind],
      scheduled'', fun uid => ?_, fun uid => ?_⟩
    · exact (running uid).trans (retained_readings (kept uid)).1
    · rw [active]
      cases listed : get newMap uid with
      | none => exact (retained_readings (kept uid)).2.1 listed
      | some schedule => rfl
  · rename_i long
    have failed := applySchedules_error scheduled' distinct (mt handed.mp long)
    simp [applyTimerMap, retains, failed, bind, Except.bind]

/-- The task of the uid starts to run, and nothing else changes. -/
structure Starts (tasks tasks' : Tasks) (uid : String) : Prop where
  idle : isRunning tasks uid = false
  running : isRunning tasks' uid = true
  others : ∀ other, other ≠ uid → isRunning tasks' other = isRunning tasks other
  active : ∀ other, activeInterval tasks' other = activeInterval tasks other

theorem starts_insert (found : get tasks uid = some state) (idle : state.running = false) :
    Starts tasks (OrderedMap.insert tasks uid { state with key := none, running := true }) uid := by
  refine ⟨by simp [isRunning, found, idle], by simp [isRunning], fun other different => ?_,
    fun other => ?_⟩
  · exact (readings_congr (get_insert_other tasks _ different)).1
  · by_cases same : other = uid
    · subst same
      simp [activeInterval, found]
    · exact (readings_congr (get_insert_other tasks _ same)).2.1

theorem runExpiredTask_spec (scheduled : Scheduled queue tasks) {key : Key}
    (held : queue.Held uid key) :
    ∃ tasks', runExpiredTask tasks uid = (tasks', some uid) ∧
      Scheduled (OrderedMap.remove queue key) tasks' ∧ Starts tasks tasks' uid := by
  obtain ⟨proper, entries⟩ := scheduled.matched uid
  obtain ⟨state, found, stored⟩ := (entries key).mp held
  have found : get tasks uid = some state := found
  have idle : state.running = false := by rw [(proper state found).1, stored]; rfl
  obtain ⟨queue', removed, distinct, kept⟩ := DelayQueue.remove_ok scheduled.queue_distinct held
  obtain ⟨delay, entry⟩ := held
  obtain rfl : OrderedMap.remove queue key = queue' := by
    rw [DelayQueue.remove, if_pos (by simp [OrderedMap.contains, entry])] at removed
    exact Except.ok.inj removed
  refine ⟨OrderedMap.insert tasks uid { state with key := none, running := true }, ?_,
    scheduled.dequeue found stored distinct kept rfl rfl, starts_insert found idle⟩
  simp [runExpiredTask, found, markTaskRunning, idle]

theorem runTaskNow_spec (scheduled : Scheduled queue tasks) (uid : String) :
    ∃ queue' tasks' spawned, runTaskNow queue tasks uid = .ok (queue', tasks', spawned) ∧
      Scheduled queue' tasks' ∧
      (spawned = some uid ∧ Starts tasks tasks' uid ∨ spawned = none ∧ tasks' = tasks) := by
  unfold runTaskNow
  cases found : get tasks uid with
  | none => exact ⟨queue, tasks, none, rfl, scheduled, .inr ⟨rfl, rfl⟩⟩
  | some state =>
    cases runs : state.running with
    | true =>
      have same : OrderedMap.insert tasks uid state = tasks := OrderedMap.insert_of_get found
      refine ⟨queue, tasks, none, ?_, scheduled, .inr ⟨rfl, rfl⟩⟩
      simp [markTaskRunning, runs, same]
    | false =>
      obtain ⟨key, stored, held⟩ := scheduled.idle_key found runs
      obtain ⟨queue', removed, distinct, kept⟩ := DelayQueue.remove_ok scheduled.queue_distinct held
      refine ⟨queue', OrderedMap.insert tasks uid { state with key := none, running := true },
        some uid, ?_, scheduled.dequeue found stored distinct kept rfl rfl,
        .inl ⟨rfl, starts_insert found runs⟩⟩
      simp [markTaskRunning, runs, stored, removed, bind, Except.bind]

/-- The delay that the end of a profile's update makes the queue take. -/
def finishDelay (tasks : Tasks) (uid : String) : Option Nat :=
  match get tasks uid with
  | none => none
  | some state =>
    if state.retired then none else some (intervalDuration state.intervalMinutes)

/-- The task of the uid stops running, and disappears if it is retired. -/
structure Finishes (tasks tasks' : Tasks) (uid : String) : Prop where
  idle : isRunning tasks' uid = false
  others : ∀ other, other ≠ uid → isRunning tasks' other = isRunning tasks other
  active : ∀ other, activeInterval tasks' other = activeInterval tasks other
  dropped : ∀ state ∈ get tasks uid, state.retired = true →
    get tasks' uid = none

theorem finishTask_spec (rules : QueueRules) (scheduled : Scheduled queue tasks)
    (runs : isRunning tasks uid = true) :
    if ∀ delay ∈ finishDelay tasks uid, delay ≤ rules.maximum then
      ∃ queue' tasks', finishTask rules queue tasks uid = .ok (queue', tasks') ∧
        Scheduled queue' tasks' ∧ Finishes tasks tasks' uid
    else finishTask rules queue tasks uid = .error .delayTooLong := by
  unfold finishTask finishDelay
  cases found : get tasks uid with
  | none => simp [isRunning, found] at runs
  | some state =>
    have runs : state.running = true := by simpa [isRunning, found] using runs
    obtain ⟨unkeyed, without⟩ := scheduled.running_key found runs
    cases retired : state.retired with
    | true =>
      have gone : ∀ other, get (OrderedMap.remove tasks uid) other =
          if other = uid then none else get tasks other :=
        get_remove scheduled.tasks_distinct uid
      rw [if_pos (by simp [retired])]
      refine ⟨queue, OrderedMap.remove tasks uid, by simp [retired],
        scheduled.change scheduled.queue_distinct
          (distinct_remove scheduled.tasks_distinct uid)
          (fun other different => (gone other).trans (if_neg different)) (fun _ _ _ => Iff.rfl) ?_,
        ?_, fun other different => ?_, fun other => ?_, fun _ _ _ => (gone uid).trans (if_pos rfl)⟩
      · rw [gone uid, if_pos rfl]
        exact ⟨by simp, fun key => by simp [without]⟩
      · simp [isRunning, gone]
      · exact (readings_congr ((gone other).trans (if_neg different))).1
      · by_cases same : other = uid
        · subst same
          simp [activeInterval, gone, found, retired]
        · exact (readings_congr ((gone other).trans (if_neg same))).2.1
    | false =>
      by_cases within : intervalDuration state.intervalMinutes ≤ rules.maximum
      · obtain ⟨queue', key, inserted, enqueued⟩ := scheduled.enqueue without within
        have others : ∀ other, other ≠ uid → get (OrderedMap.insert tasks uid
            { state with running := false, key := some key }) other = get tasks other :=
          fun other different => get_insert_other tasks _ different
        rw [if_pos (by simpa [retired] using within)]
        refine ⟨queue', OrderedMap.insert tasks uid { state with running := false, key := some key },
          by simp [retired, inserted, bind, Except.bind], enqueued _ rfl rfl retired,
          by simp [isRunning], fun other different => (readings_congr (others other different)).1,
          fun other => ?_, fun state' is_ gone => ?_⟩
        · by_cases same : other = uid
          · subst same
            simp [activeInterval, found]
          · exact (readings_congr (others other same)).2.1
        · obtain rfl : state = state' := Option.some.inj (found.symm.trans is_)
          simp [retired] at gone
      · rw [if_neg (by simpa [retired] using within)]
        simp [retired, DelayQueue.insert_error uid within, bind, Except.bind]

end

end ClashVerge.Timer
