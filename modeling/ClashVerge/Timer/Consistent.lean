import ClashVerge.Library.Transition
import ClashVerge.Timer.Handlers

/-!
# The timer and its scheduler

`refresh` compares the profiles' intervals with its cache and sends a difference to the scheduler,
which takes the messages in order and spawns the updates; an update reports back by a message of its
own. When a refresh runs and what it reads, when an entry of the queue expires, when an update ends,
and in which order a hash map is visited, is left open.

A handler that panics takes the scheduler with it, its tasks and its queue; only a delay that is too
long for the queue does this. While no message asks for one, the tasks, the queue, the updates in
flight and the cache stay consistent.
-/

namespace ClashVerge.Timer

open ClashVerge.Profiles (PrfItem)
open OrderedMap (Distinct get get_map get_perm keys remove)
open Transition (run Meets)

inductive TimerCommand where
  | apply (newMap : Schedules)
  | runNow (uid : String)
  | taskFinished (uid : String)
deriving DecidableEq

structure Scheduler where
  queue : DelayQueue
  tasks : Tasks
deriving DecidableEq

structure System where
  timerMap : List (String × Nat)
  /-- A refresh that has written the cache and not yet sent what it found. -/
  refreshing : Option Schedules
  commands : List TimerCommand
  scheduler : Except Panic Scheduler
  updates : List String

inductive Action where
  /-- `refresh` up to the write of the cache: the time and items read, and the map made of them. -/
  | refresh (now : Int) (items : Option (List PrfItem)) (newMap : Schedules)
  | send
  /-- `init` finds an overdue task. -/
  | runNow (uid : String)
  /-- The queue yields the entry of a key. -/
  | expire (key : Key)
  /-- The scheduler takes the next message and visits the tasks in this order. -/
  | receive (visited : Tasks)
  | report (uid : String)

namespace System

/-- Nothing is known and nothing is sent. -/
def new : System := ⟨[], none, [], .ok ⟨[], []⟩, []⟩

variable (system : System)

/-- Send a message to the scheduler, if it is there to receive it. -/
def post (command : TimerCommand) : System :=
  match system.scheduler with
  | .ok _ => { system with commands := system.commands ++ [command] }
  | .error _ => system

/-- The state after a handler, with the update it spawned. -/
def settle : Except Panic (DelayQueue × Tasks × Option String) → System
  | .ok (queue, tasks, spawned) =>
    { system with scheduler := .ok ⟨queue, tasks⟩, updates := system.updates ++ spawned.toList }
  | .error panic => { system with scheduler := .error panic, commands := [] }

end System

section

variable (rules : QueueRules)

/-- `run_scheduler` on a message. -/
def handle (queue : DelayQueue) (tasks : Tasks) :
    TimerCommand → Except Panic (DelayQueue × Tasks × Option String)
  | .apply newMap => do
    let (queue, tasks) ← applyTimerMap rules queue tasks newMap
    .ok (queue, tasks, none)
  | .runNow uid => runTaskNow queue tasks uid
  | .taskFinished uid => do
    let (queue, tasks) ← finishTask rules queue tasks uid
    .ok (queue, tasks, none)

def step (system : System) : Action → Option System
  | .refresh now items newMap =>
    if system.refreshing = none ∧ newMap.Perm (genMap items now) then
      let intervals := newMap.map fun entry => (entry.1, entry.2.intervalMinutes)
      if system.timerMap.Perm intervals then some system
      else some { system with timerMap := intervals, refreshing := some newMap }
    else none
  | .send =>
    match system.refreshing with
    | some newMap => some ({ system with refreshing := none }.post (.apply newMap))
    | none => none
  | .runNow uid => some (system.post (.runNow uid))
  | .expire key =>
    match system.scheduler with
    | .ok scheduler =>
      match get scheduler.queue key with
      | some (uid, _) =>
        let (tasks, spawned) := runExpiredTask scheduler.tasks uid
        some (system.settle (.ok (remove scheduler.queue key, tasks, spawned)))
      | none => none
    | .error _ => none
  | .receive visited =>
    match system.scheduler, system.commands with
    | .ok scheduler, command :: rest =>
      if visited.Perm scheduler.tasks then
        some ({ system with commands := rest }.settle (handle rules scheduler.queue visited command))
      else none
    | _, _ => none
  | .report uid =>
    if uid ∈ system.updates then
      some ({ system with updates := system.updates.erase uid }.post (.taskFinished uid))
    else none

end

/-- The delays that a message makes the queue take. -/
def TimerCommand.delays (tasks : Tasks) : TimerCommand → List Nat
  | .apply newMap => handedDelays tasks newMap
  | .runNow _ => []
  | .taskFinished uid => (finishDelay tasks uid).toList

/-- The action makes the queue take no delay beyond its maximum. -/
def WithinMaximum (rules : QueueRules) (system : System) : Action → Prop
  | .receive _ => ∀ scheduler command, system.scheduler = .ok scheduler →
      system.commands.head? = some command →
      ∀ delay ∈ command.delays scheduler.tasks, delay ≤ rules.maximum
  | _ => True

namespace System

variable (system : System)

def activeInterval (uid : String) : Option Nat :=
  match system.scheduler with
  | .ok scheduler => Timer.activeInterval scheduler.tasks uid
  | .error _ => none

def newMap? : TimerCommand → Option Schedules
  | .apply newMap => some newMap
  | _ => none

def pending : List Schedules := system.commands.filterMap newMap? ++ system.refreshing.toList

end System

/-- What holds of the timer whenever the scheduler waits for its next message. -/
structure Consistent (rules : QueueRules) (system : System) : Prop where
  /-- A task waits with one entry, whose key it stores, or runs with none. -/
  settled : ∀ scheduler uid state, system.scheduler = .ok scheduler →
    get scheduler.tasks uid = some state →
    (state.running = false ∧
      ∃ key, state.key = some key ∧ ∀ held, scheduler.queue.Held uid held ↔ held = key) ∨
    (state.running = true ∧ state.key = none ∧ ∀ held, ¬ scheduler.queue.Held uid held)
  /-- Each entry is that of the one task that stores its key. -/
  owned : ∀ scheduler uid key, system.scheduler = .ok scheduler →
    (scheduler.queue.Held uid key ↔
      ∃ state, get scheduler.tasks uid = some state ∧ state.key = some key)
  known : system.scheduler ≠ .error .unknownKey
  single : ∀ uid, system.updates.count uid ≤ 1
  retired : ∀ scheduler uid state, system.scheduler = .ok scheduler →
    get scheduler.tasks uid = some state → state.retired = true → state.running = true
  /-- A retired task disappears when its update has reported back. -/
  dropped : ∀ scheduler uid state visited next, system.scheduler = .ok scheduler →
    system.commands.head? = some (.taskFinished uid) →
    get scheduler.tasks uid = some state → state.retired = true →
    step rules system (.receive visited) = some next →
    ∃ scheduler', next.scheduler = .ok scheduler' ∧ get scheduler'.tasks uid = none
  /-- Once every new map is handled, the active tasks are those of the cache. -/
  cached : system.pending = [] →
    ∀ uid, system.activeInterval uid = get system.timerMap uid

def latestInterval (waiting : List Schedules) (tasks : Tasks) (uid : String) : Option Nat :=
  match waiting.getLast? with
  | some newMap => (get newMap uid).map (·.intervalMinutes)
  | none => activeInterval tasks uid

/-- The tasks and entries match, each running task has one update that it waits for, and the last
map sent or else the active tasks agree with the cache. -/
structure Invariant (system : System) (scheduler : Scheduler) : Prop where
  alive : system.scheduler = .ok scheduler
  scheduled : Scheduled scheduler.queue scheduler.tasks
  awaited : ∀ uid, system.updates.count uid + system.commands.count (.taskFinished uid) =
    (isRunning scheduler.tasks uid).toNat
  distinct : ∀ newMap ∈ system.pending, Distinct newMap
  cache_distinct : Distinct system.timerMap
  latest : ∀ uid,
    latestInterval system.pending scheduler.tasks uid = get system.timerMap uid

section

variable {rules : QueueRules} {queue : DelayQueue} {tasks : Tasks} {system next : System}
  {scheduler : Scheduler}

/-- What a handled message does to the readings of the tasks. -/
structure Handles (tasks tasks' : Tasks) (spawned : Option String) (command : TimerCommand) :
    Prop where
  running : ∀ uid, (isRunning tasks' uid).toNat + [command].count (.taskFinished uid) =
    (isRunning tasks uid).toNat + spawned.toList.count uid
  active : ∀ uid, activeInterval tasks' uid =
    match System.newMap? command with
    | some newMap => (get newMap uid).map (·.intervalMinutes)
    | none => activeInterval tasks uid
  dropped : ∀ uid state, command = .taskFinished uid → get tasks uid = some state →
    state.retired = true → get tasks' uid = none

theorem Starts.counted {tasks' : Tasks} {uid : String} (starts : Starts tasks tasks' uid)
    (other : String) :
    (isRunning tasks' other).toNat = (isRunning tasks other).toNat + [uid].count other := by
  by_cases same : other = uid
  · subst same
    simp [starts.idle, starts.running]
  · simp [starts.others other same, Ne.symm same]

theorem Finishes.counted {tasks' : Tasks} {uid : String} (finishes : Finishes tasks tasks' uid)
    (runs : isRunning tasks uid = true) (other : String) :
    (isRunning tasks' other).toNat + [TimerCommand.taskFinished uid].count (.taskFinished other) =
      (isRunning tasks other).toNat := by
  by_cases same : other = uid
  · subst same
    simp [finishes.idle, runs]
  · simp [finishes.others other same, Ne.symm same]

theorem handle_spec (rules : QueueRules) (scheduled : Scheduled queue tasks)
    (command : TimerCommand)
    (distinct : ∀ newMap ∈ System.newMap? command, Distinct newMap)
    (runs : ∀ uid, command = .taskFinished uid → isRunning tasks uid = true) :
    if ∀ delay ∈ command.delays tasks, delay ≤ rules.maximum then
      ∃ queue' tasks' spawned, handle rules queue tasks command = .ok (queue', tasks', spawned) ∧
        Scheduled queue' tasks' ∧ Handles tasks tasks' spawned command
    else handle rules queue tasks command = .error .delayTooLong := by
  cases command with
  | apply newMap =>
    have applied := applyTimerMap_spec rules scheduled (distinct newMap rfl)
    by_cases within : ∀ delay ∈ handedDelays tasks newMap, delay ≤ rules.maximum
    · rw [if_pos within] at applied
      obtain ⟨queue', tasks', applied, scheduled', running, active⟩ := applied
      refine (if_pos within).mpr ⟨queue', tasks', none, by simp [handle, applied, bind, Except.bind],
        scheduled', fun uid => ?_, active, by simp⟩
      simp [running]
    · rw [if_neg within] at applied
      exact (if_neg within).mpr (by simp [handle, applied, bind, Except.bind])
  | runNow uid =>
    obtain ⟨queue', tasks', spawned, handled, scheduled', which⟩ := runTaskNow_spec scheduled uid
    refine (if_pos (by simp [TimerCommand.delays])).mpr ⟨queue', tasks', spawned, handled,
      scheduled', ?_⟩
    obtain ⟨rfl, starts⟩ | ⟨rfl, rfl⟩ := which
    · exact ⟨fun other => by simpa using starts.counted other, starts.active, by simp⟩
    · exact ⟨by simp, fun _ => rfl, by simp⟩
  | taskFinished uid =>
    have finished := finishTask_spec rules scheduled (runs uid rfl)
    have listed : (∀ delay ∈ (TimerCommand.taskFinished uid).delays tasks, delay ≤ rules.maximum) ↔
        ∀ delay ∈ finishDelay tasks uid, delay ≤ rules.maximum := by simp [TimerCommand.delays]
    by_cases within : ∀ delay ∈ finishDelay tasks uid, delay ≤ rules.maximum
    · rw [if_pos within] at finished
      obtain ⟨queue', tasks', finished, scheduled', finishes⟩ := finished
      refine (if_pos (listed.mpr within)).mpr ⟨queue', tasks', none,
        by simp [handle, finished, bind, Except.bind], scheduled', fun other => ?_,
        finishes.active, fun other state same found retired => ?_⟩
      · simpa using finishes.counted (runs uid rfl) other
      · obtain rfl := TimerCommand.taskFinished.inj same
        exact finishes.dropped state found retired
    · rw [if_neg within] at finished
      exact (if_neg (mt listed.mp within)).mpr (by simp [handle, finished, bind, Except.bind])

theorem latestInterval_append (waiting : List Schedules) (newMap : Schedules) (tasks : Tasks)
    (uid : String) :
    latestInterval (waiting ++ [newMap]) tasks uid =
      (get newMap uid).map (·.intervalMinutes) := by
  rw [latestInterval, List.getLast?_concat]

theorem Invariant.visit (invariant : Invariant system scheduler) {visited : Tasks}
    (permuted : visited.Perm scheduler.tasks) :
    Invariant { system with scheduler := .ok ⟨scheduler.queue, visited⟩ }
      ⟨scheduler.queue, visited⟩ := by
  have same : ∀ uid, get visited uid = get scheduler.tasks uid :=
    get_perm invariant.scheduled.tasks_distinct permuted
  refine ⟨rfl, invariant.scheduled.perm permuted, fun uid => ?_, invariant.distinct,
    invariant.cache_distinct, fun uid => ?_⟩
  · rw [(readings_congr (same uid)).1]
    exact invariant.awaited uid
  · refine Eq.trans ?_ (invariant.latest uid)
    rw [latestInterval, latestInterval, (readings_congr (same uid)).2.1]
    rfl

theorem Invariant.first (invariant : Invariant system scheduler) {command : TimerCommand}
    {rest : List TimerCommand} (waiting : system.commands = command :: rest) :
    (∀ newMap ∈ System.newMap? command, Distinct newMap) ∧
      ∀ uid, command = .taskFinished uid → isRunning scheduler.tasks uid = true := by
  constructor
  · intro newMap is_
    refine invariant.distinct newMap (List.mem_append_left _ ?_)
    rw [waiting]
    exact List.mem_filterMap.mpr ⟨command, List.mem_cons_self, is_⟩
  · rintro uid rfl
    have awaited := invariant.awaited uid
    rw [waiting, List.count_cons_self] at awaited
    cases runs : isRunning scheduler.tasks uid with
    | true => rfl
    | false =>
      rw [runs] at awaited
      simp at awaited

theorem Invariant.handled (invariant : Invariant system scheduler) {command : TimerCommand}
    {rest : List TimerCommand} (waiting : system.commands = command :: rest)
    {queue' : DelayQueue} {tasks' : Tasks} {spawned : Option String}
    (scheduled' : Scheduled queue' tasks')
    (handles : Handles scheduler.tasks tasks' spawned command) :
    Invariant ({ system with commands := rest }.settle (.ok (queue', tasks', spawned)))
      ⟨queue', tasks'⟩ := by
  have pending : system.pending =
      (System.newMap? command).toList ++ (rest.filterMap System.newMap? ++ system.refreshing.toList) := by
    rw [System.pending, waiting, ← List.append_assoc]
    cases is_ : System.newMap? command <;> simp [is_]
  have distinct := invariant.distinct
  have latest := invariant.latest
  rw [pending] at distinct latest
  refine ⟨rfl, scheduled', fun uid => ?_, fun newMap listed => ?_, invariant.cache_distinct,
    fun uid => ?_⟩
  · have awaited := invariant.awaited uid
    have counted := handles.running uid
    rw [waiting, List.count_cons] at awaited
    rw [List.count_singleton] at counted
    simp only [System.settle, List.count_append]
    omega
  · exact distinct newMap (List.mem_append_right _ listed)
  · refine Eq.trans ?_ (latest uid)
    unfold latestInterval
    simp only [System.settle, System.pending]
    cases waits : (rest.filterMap System.newMap? ++ system.refreshing.toList).getLast? with
    | some newMap => simp [List.getLast?_append, waits]
    | none =>
      rw [List.getLast?_eq_none_iff.mp waits, List.append_nil, handles.active uid]
      cases System.newMap? command <;> rfl

theorem delays_perm (scheduled : Scheduled queue tasks) {visited : Tasks}
    (permuted : visited.Perm tasks) (command : TimerCommand) :
    command.delays visited = command.delays tasks := by
  have same := get_perm scheduled.tasks_distinct permuted
  cases command with
  | apply newMap => simp [TimerCommand.delays, handedDelays, handedDelay, same]
  | runNow uid => rfl
  | taskFinished uid => simp [TimerCommand.delays, finishDelay, same]

theorem Invariant.received (invariant : Invariant system scheduler) {visited : Tasks}
    (taken : step rules system (.receive visited) = some next) :
    visited.Perm scheduler.tasks ∧ ∃ command rest, system.commands = command :: rest ∧
      if ∀ delay ∈ command.delays scheduler.tasks, delay ≤ rules.maximum then
        ∃ queue' tasks' spawned, next.scheduler = .ok ⟨queue', tasks'⟩ ∧
          Handles visited tasks' spawned command ∧ Invariant next ⟨queue', tasks'⟩
      else next.scheduler = .error .delayTooLong := by
  simp only [step, invariant.alive] at taken
  split at taken
  · rename_i scheduler' command rest alive waiting
    obtain rfl : scheduler = scheduler' := Except.ok.inj alive
    split at taken
    · rename_i permuted
      have visits := invariant.visit permuted
      obtain ⟨distinct, runs⟩ := visits.first waiting
      have handled := handle_spec rules visits.scheduled command distinct runs
      cases taken
      refine ⟨permuted, command, rest, waiting, ?_⟩
      simp only [delays_perm invariant.scheduled permuted] at handled
      by_cases within : ∀ delay ∈ command.delays scheduler.tasks, delay ≤ rules.maximum
      · rw [if_pos within] at handled ⊢
        obtain ⟨queue', tasks', spawned, handled, scheduled', handles⟩ := handled
        rw [handled]
        exact ⟨queue', tasks', spawned, rfl, handles, visits.handled waiting scheduled' handles⟩
      · rw [if_neg within] at handled ⊢
        rw [handled]
        rfl
    · contradiction
  · contradiction

theorem invariant_new : Invariant .new ⟨[], []⟩ :=
  ⟨rfl, scheduled_nil, fun _ => rfl, by simp [System.pending, System.new], OrderedMap.distinct_nil,
    fun _ => rfl⟩

theorem Invariant.step (invariant : Invariant system scheduler) {action : Action}
    (within : WithinMaximum rules system action)
    (taken : Timer.step rules system action = some next) :
    ∃ scheduler', Invariant next scheduler' := by
  obtain ⟨alive, scheduled, awaited, distinct, cacheDistinct, latest⟩ := id invariant
  cases action with
  | refresh now items newMap =>
    simp only [Timer.step] at taken
    split at taken
    · rename_i starts
      split at taken
      · exact Option.some.inj taken ▸ ⟨scheduler, invariant⟩
      · cases taken
        have generated : Distinct newMap :=
          (starts.2.map Prod.fst).nodup_iff.mpr (distinct_genMap items now)
        have idle : system.pending = system.commands.filterMap System.newMap? := by
          rw [System.pending, starts.1, Option.toList_none, List.append_nil]
        rw [idle] at distinct
        refine ⟨scheduler, alive, scheduled, awaited, fun newMap' listed => ?_, ?_, fun uid => ?_⟩
        · obtain earlier | last := List.mem_append.mp listed
          · exact distinct newMap' earlier
          · obtain rfl : newMap' = newMap := by simpa using last
            exact generated
        · rw [Distinct, keys, List.map_map]
          exact generated
        · exact (latestInterval_append _ newMap _ uid).trans
            (get_map newMap (·.intervalMinutes) uid).symm
    · contradiction
  | send =>
    simp only [Timer.step] at taken
    split at taken
    · rename_i newMap refreshing
      cases taken
      simp only [System.post, alive]
      have same : System.pending { system with
          refreshing := none, commands := system.commands ++ [.apply newMap] } = system.pending := by
        simp [System.pending, refreshing, System.newMap?]
      exact ⟨scheduler, rfl, scheduled, fun uid => by simpa using awaited uid,
        same ▸ distinct, cacheDistinct, same ▸ latest⟩
    · contradiction
  | runNow uid =>
    cases taken
    simp only [System.post, alive]
    have same : System.pending { system with commands := system.commands ++ [.runNow uid] } =
        system.pending := by simp [System.pending, System.newMap?]
    exact ⟨scheduler, rfl, scheduled, fun uid => by simpa using awaited uid, same ▸ distinct,
      cacheDistinct, same ▸ latest⟩
  | expire key =>
    simp only [Timer.step, alive] at taken
    split at taken
    · rename_i uid delay found
      obtain ⟨tasks', expired, scheduled', starts⟩ := runExpiredTask_spec scheduled ⟨delay, found⟩
      rw [expired] at taken
      cases taken
      refine ⟨⟨remove scheduler.queue key, tasks'⟩, rfl, scheduled', fun other => ?_,
        distinct, cacheDistinct, fun other => ?_⟩
      · have counted := starts.counted other
        have before := awaited other
        simp only [System.settle, List.count_append, Option.toList_some]
        omega
      · refine Eq.trans ?_ (latest other)
        rw [latestInterval, latestInterval, starts.active]
        rfl
    · contradiction
  | receive visited =>
    obtain ⟨-, command, rest, waiting, received⟩ := invariant.received taken
    rw [if_pos (within scheduler command alive (by rw [waiting]; rfl))] at received
    obtain ⟨queue', tasks', -, -, -, kept⟩ := received
    exact ⟨_, kept⟩
  | report uid =>
    simp only [Timer.step] at taken
    split at taken
    · rename_i flying
      cases taken
      simp only [System.post, alive]
      have same : System.pending { system with
          updates := system.updates.erase uid
          commands := system.commands ++ [.taskFinished uid] } = system.pending := by
        simp [System.pending, System.newMap?]
      refine ⟨scheduler, rfl, scheduled, fun other => ?_, same ▸ distinct, cacheDistinct,
        same ▸ latest⟩
      rw [← awaited other]
      simp only [List.count_append]
      by_cases own : other = uid
      · subst own
        have present : 0 < system.updates.count other := List.count_pos_iff.mpr flying
        rw [List.count_erase_self, List.count_singleton_self]
        omega
      · rw [List.count_erase_of_ne own]
        simp [Ne.symm own]
    · contradiction

theorem Invariant.consistent (invariant : Invariant system scheduler) :
    Consistent rules system := by
  obtain ⟨alive, scheduled, awaited, -, -, latest⟩ := id invariant
  have only : ∀ scheduler', system.scheduler = .ok scheduler' → scheduler' = scheduler :=
    fun scheduler' is_ => Except.ok.inj (is_.symm.trans alive)
  refine ⟨?_, ?_, by simp [alive], fun uid => ?_, ?_, ?_, fun handled uid => ?_⟩
  · intro scheduler' uid state is_ found
    obtain rfl := only scheduler' is_
    cases runs : state.running with
    | true => exact .inr ⟨rfl, scheduled.running_key found runs⟩
    | false =>
      obtain ⟨key, stored, -⟩ := scheduled.idle_key found runs
      refine .inl ⟨rfl, key, stored, fun held => ?_⟩
      rw [(scheduled.matched uid).entries held]
      simp [found, stored, eq_comm]
  · intro scheduler' uid key is_
    obtain rfl := only scheduler' is_
    exact (scheduled.matched uid).entries key
  · have counted := awaited uid
    have atMost := Bool.toNat_le (isRunning scheduler.tasks uid)
    omega
  · intro scheduler' uid state is_ found
    obtain rfl := only scheduler' is_
    exact ((scheduled.matched uid).proper state found).2
  · intro scheduler' uid state visited next is_ first found retired taken
    obtain rfl := only scheduler' is_
    obtain ⟨permuted, command, rest, waiting, received⟩ := invariant.received taken
    obtain rfl : command = .taskFinished uid := by simpa [waiting] using first
    rw [if_pos (by simp [TimerCommand.delays, finishDelay, found, retired])] at received
    obtain ⟨queue', tasks', spawned, alive', handles, -⟩ := received
    refine ⟨_, alive', handles.dropped uid state rfl ?_ retired⟩
    rw [get_perm scheduled.tasks_distinct permuted, found]
  · rw [System.activeInterval, alive, ← latest uid, handled]
    rfl

theorem panicked_stays {panic : Panic} (panicked : system.scheduler = .error panic)
    {action : Action} (taken : step rules system action = some next) :
    next.scheduler = .error panic := by
  cases action with
  | refresh now items newMap =>
    simp only [step] at taken
    split_ifs at taken
    · exact Option.some.inj taken ▸ panicked
    · exact Option.some.inj taken ▸ panicked
  | send =>
    simp only [step, System.post, panicked] at taken
    split at taken
    · exact Option.some.inj taken ▸ rfl
    · contradiction
  | runNow uid =>
    simp only [step, System.post, panicked] at taken
    exact Option.some.inj taken ▸ panicked
  | expire key | receive visited => simp [step, panicked] at taken
  | report uid =>
    simp only [step, System.post, panicked] at taken
    split_ifs at taken
    exact Option.some.inj taken ▸ rfl

theorem Invariant.panics (invariant : Invariant system scheduler) {action : Action}
    (beyond : ¬ WithinMaximum rules system action)
    (taken : Timer.step rules system action = some next) :
    next.scheduler = .error .delayTooLong := by
  cases action with
  | receive visited =>
    obtain ⟨-, command, rest, waiting, received⟩ := invariant.received taken
    by_cases short : ∀ delay ∈ command.delays scheduler.tasks, delay ≤ rules.maximum
    · refine absurd (fun scheduler' command' is_ first => ?_) beyond
      obtain rfl := Except.ok.inj (is_.symm.trans invariant.alive)
      obtain rfl : command = command' := by simpa [waiting] using first
      exact short
    · rwa [if_neg short] at received
  | refresh | send | runNow | expire | report => exact absurd trivial beyond

theorem alive_iff_meets {actions : List Action} {final : System}
    (invariant : Invariant system scheduler)
    (ran : run (step rules) system actions = some final) :
    (∃ scheduler', final.scheduler = .ok scheduler') ↔
      Meets (step rules) (WithinMaximum rules) system actions := by
  induction actions generalizing system scheduler with
  | nil =>
    cases ran
    exact iff_of_true ⟨scheduler, invariant.alive⟩ trivial
  | cons action rest ih =>
    obtain ⟨next, taken, remaining⟩ := (Transition.run_cons_iff ..).mp ran
    by_cases within : WithinMaximum rules system action
    · obtain ⟨scheduler', kept⟩ := invariant.step within taken
      rw [ih kept remaining]
      refine ⟨fun meets => ⟨within, fun next' taken' => ?_⟩, fun meets => meets.2 next taken⟩
      obtain rfl := Option.some.inj (taken.symm.trans taken')
      exact meets
    · have persists : ∀ system action next, System.scheduler system = .error .delayTooLong →
          step rules system action = some next → next.scheduler = .error .delayTooLong :=
        fun _ _ _ panicked taken => panicked_stays panicked taken
      have dead : final.scheduler = .error .delayTooLong :=
        Transition.run_invariant persists (invariant.panics within taken) remaining
      refine iff_of_false (fun alive => ?_) fun meets => within meets.1
      obtain ⟨scheduler', is_⟩ := alive
      simp [dead] at is_

end

/-- A run whose messages ask for no delay beyond the queue's maximum keeps the timer consistent. -/
theorem timer_consistent (rules : QueueRules) {actions : List Action} {final : System}
    (ran : run (step rules) .new actions = some final)
    (meets : Meets (step rules) (WithinMaximum rules) .new actions) : Consistent rules final := by
  have kept : ∃ scheduler, Invariant final scheduler :=
    Transition.run_invariant_of_meets (fun system => ∃ scheduler, Invariant system scheduler)
      (fun _ _ _ invariant within taken => by
        obtain ⟨scheduler, invariant⟩ := invariant
        exact invariant.step within taken)
      ⟨_, invariant_new⟩ meets ran
  obtain ⟨scheduler, invariant⟩ := kept
  exact invariant.consistent

/-- The queue's maximum is that of its wheel of 2 ^ 36 milliseconds. -/
def queueRules : QueueRules where
  maximum := 68719476
  freshKey queue := (keys queue).foldr max 0 + 1
  unused queue := by
    rw [OrderedMap.get_eq_none_iff]
    have bounded : ∀ keys : List Key, ∀ key ∈ keys, key ≤ keys.foldr max 0 := by
      intro keys
      induction keys with
      | nil => simp
      | cons first rest ih =>
        intro key member
        obtain rfl | later := List.mem_cons.mp member
        · exact le_max_left _ _
        · exact (ih key later).trans (le_max_right _ _)
    intro member
    exact absurd (bounded _ _ member) (Nat.not_succ_le_self _)

/-- A profile that updates itself at this interval, in minutes. -/
def remoteProfile (interval : Nat) : PrfItem :=
  { PrfItem.default with
    uid := some "uid"
    option := some
      ⟨none, none, none, some interval, none, none, some true, none, none, none, none, none⟩ }

def addProfile (interval : Nat) : List Action :=
  [.refresh 0 (some [remoteProfile interval]) [("uid", ⟨interval, intervalDuration interval⟩)],
    .send, .receive []]

/-- A profile disabled while its update runs is retired until the update reports back. -/
def retireProfile : List Action :=
  [.expire 1, .refresh 0 (some []) [], .send, .receive [("uid", ⟨none, 60, true, false⟩)],
    .report "uid", .receive [("uid", ⟨none, 60, true, true⟩)]]

theorem timer_consistent_retired :
    ∃ final, run (step queueRules) .new (addProfile 60 ++ retireProfile) = some final ∧
      Consistent queueRules final :=
  have ran : run (step queueRules) .new (addProfile 60 ++ retireProfile) =
      some ⟨[], none, [], .ok ⟨[], []⟩, []⟩ := rfl
  ⟨_, ran, timer_consistent queueRules ran ((alive_iff_meets invariant_new ran).mp ⟨_, rfl⟩)⟩

/-- An interval of three years ends the scheduler, and the cache has a profile it does not. -/
theorem three_year_interval_inconsistent :
    ∃ final, run (step queueRules) .new (addProfile 1576800) = some final ∧
      ¬ Consistent queueRules final := by
  have ran : run (step queueRules) .new (addProfile 1576800) =
      some ⟨[("uid", 1576800)], none, [], .error .delayTooLong, []⟩ := rfl
  refine ⟨_, ran, fun consistent => ?_⟩
  have active := consistent.cached rfl "uid"
  contradiction

end ClashVerge.Timer
