import ClashVerge.Library.OrderedMap
import ClashVerge.Profiles.Store
import Mathlib.Data.List.Induction

/-!
# The tasks of the update timer

The scheduler keeps a task for each profile that updates itself and a delay queue that yields the
uid of a task when its delay has passed. A task stores the key of its entry while it waits and none
while its update runs.

The queue is a library's. It is a map here from keys to uids: a new entry gets a key that no entry
has, and a delay beyond the maximum makes it panic, as a key does that it does not hold. A hash map
is a list of entries in the order it is visited in.
-/

namespace ClashVerge.Timer

open ClashVerge.Profiles (PrfItem)

/-- `Timer::interval_duration`, in seconds. -/
def intervalDuration (intervalMinutes : Nat) : Nat := min (intervalMinutes * 60) (UInt64.size - 1)

structure TaskSchedule where
  intervalMinutes : Nat
  /-- In seconds. -/
  firstDelay : Nat
deriving DecidableEq, Repr

/-- A signed difference of 64 bits that stays within its type. -/
def saturatingSub (one other : Int) : Int := max (-9223372036854775808) (min 9223372036854775807 (one - other))

/-- No recorded `updated` is the full interval, and a deadline already past is no delay. -/
def TaskSchedule.new (intervalMinutes : Nat) (updated : Option Nat) (now : Int) : TaskSchedule :=
  let full := intervalDuration intervalMinutes
  let elapsed := match updated.filter (0 < ·) with
    | none => 0
    | some updated => (max 0 (saturatingSub now (Int.bmod updated UInt64.size))).toNat
  { intervalMinutes, firstDelay := full - elapsed }

abbrev Schedules := List (String × TaskSchedule)

def genMapFromItems (items : List PrfItem) (now : Int) : Schedules :=
  items.foldl (fun newMap item =>
    match item.option, item.uid with
    | some option, some uid =>
      match option.updateInterval with
      | some interval =>
        if option.allowAutoUpdate.getD true ∧ 0 < interval then
          OrderedMap.insert newMap uid (.new interval item.updated now)
        else newMap
      | none => newMap
    | _, _ => newMap) []

theorem distinct_genMapFromItems (items : List PrfItem) (now : Int) :
    OrderedMap.Distinct (genMapFromItems items now) := by
  induction items using List.reverseRecOn with
  | nil => exact OrderedMap.distinct_nil
  | append_singleton before item ih =>
    rw [genMapFromItems, List.foldl_append, List.foldl_cons, List.foldl_nil, ← genMapFromItems]
    split
    · split
      · split
        · exact OrderedMap.distinct_insert ih _ _
        · exact ih
      · exact ih
    · exact ih

def genMap (items : Option (List PrfItem)) (now : Int) : Schedules :=
  match items with
  | some items => genMapFromItems items now
  | none => []

theorem distinct_genMap (items : Option (List PrfItem)) (now : Int) :
    OrderedMap.Distinct (genMap items now) := by
  cases items with
  | none => exact OrderedMap.distinct_nil
  | some items => exact distinct_genMapFromItems items now

abbrev Key := Nat

/-- The entries by their keys: the uid, and the delay that was asked for. -/
abbrev DelayQueue := List (Key × String × Nat)

inductive Panic where
  | unknownKey
  | delayTooLong
deriving DecidableEq, Repr

/-- What the library leaves open: the longest delay, and which key a new entry gets. -/
structure QueueRules where
  maximum : Nat
  freshKey : DelayQueue → Key
  unused : ∀ queue, OrderedMap.get queue (freshKey queue) = none

namespace DelayQueue

variable (rules : QueueRules) (queue : DelayQueue)

def insert (uid : String) (delay : Nat) : Except Panic (DelayQueue × Key) :=
  if delay ≤ rules.maximum then
    .ok (OrderedMap.insert queue (rules.freshKey queue) (uid, delay), rules.freshKey queue)
  else .error .delayTooLong

def reset (key : Key) (delay : Nat) : Except Panic DelayQueue :=
  match OrderedMap.get queue key with
  | none => .error .unknownKey
  | some (uid, _) =>
    if delay ≤ rules.maximum then .ok (OrderedMap.insert queue key (uid, delay))
    else .error .delayTooLong

def remove (key : Key) : Except Panic DelayQueue :=
  if OrderedMap.contains queue key then .ok (OrderedMap.remove queue key)
  else .error .unknownKey

def Held (uid : String) (key : Key) : Prop := ∃ delay, OrderedMap.get queue key = some (uid, delay)

end DelayQueue

structure TaskState where
  key : Option Key
  intervalMinutes : Nat
  running : Bool
  /-- Disabled while its update runs. -/
  retired : Bool
deriving DecidableEq, Repr

def TaskState.new (key : Key) (intervalMinutes : Nat) : TaskState :=
  { key := some key, intervalMinutes, running := false, retired := false }

abbrev Tasks := List (String × TaskState)

def retainTask (newMap : Schedules) (queue : DelayQueue) (uid : String) (state : TaskState) :
    Except Panic (DelayQueue × Option TaskState) :=
  if OrderedMap.contains newMap uid then .ok (queue, some state)
  else do
    let queue ← match state.key with
      | some key => queue.remove key
      | none => .ok queue
    let state := { state with key := none }
    if state.running then .ok (queue, some { state with retired := true })
    else .ok (queue, none)

/-- `tasks.retain` in `apply_timer_map`. -/
def retainTasks (newMap : Schedules) : DelayQueue → Tasks → Except Panic (DelayQueue × Tasks)
  | queue, [] => .ok (queue, [])
  | queue, (uid, state) :: rest => do
    let (queue, retained) ← retainTask newMap queue uid state
    let (queue, rest) ← retainTasks newMap queue rest
    match retained with
    | some state => .ok (queue, (uid, state) :: rest)
    | none => .ok (queue, rest)

section

variable (rules : QueueRules)

def insertTask (queue : DelayQueue) (tasks : Tasks) (uid : String) (schedule : TaskSchedule) :
    Except Panic (DelayQueue × Tasks) := do
  let (queue, key) ← queue.insert rules uid schedule.firstDelay
  .ok (queue, OrderedMap.insert tasks uid (.new key schedule.intervalMinutes))

def updateTaskInterval (queue : DelayQueue) (uid : String) (state : TaskState)
    (schedule : TaskSchedule) : Except Panic (DelayQueue × TaskState) := do
  let state := { state with intervalMinutes := schedule.intervalMinutes }
  match state.key with
  | some key =>
    let queue ← queue.reset rules key schedule.firstDelay
    .ok (queue, state)
  | none =>
    if !state.running then
      let (queue, key) ← queue.insert rules uid schedule.firstDelay
      .ok (queue, { state with key := some key })
    else .ok (queue, state)

/-- One turn of the loop over the new map in `apply_timer_map`. -/
def applySchedule (queue : DelayQueue) (tasks : Tasks) (uid : String) (schedule : TaskSchedule) :
    Except Panic (DelayQueue × Tasks) :=
  match OrderedMap.get tasks uid with
  | none => insertTask rules queue tasks uid schedule
  | some state => do
    let state := { state with retired := false }
    if state.intervalMinutes = schedule.intervalMinutes then
      .ok (queue, OrderedMap.insert tasks uid state)
    else
      let (queue, state) ← updateTaskInterval rules queue uid state schedule
      .ok (queue, OrderedMap.insert tasks uid state)

def applySchedules : DelayQueue → Tasks → Schedules → Except Panic (DelayQueue × Tasks)
  | queue, tasks, [] => .ok (queue, tasks)
  | queue, tasks, (uid, schedule) :: rest => do
    let (queue, tasks) ← applySchedule rules queue tasks uid schedule
    applySchedules queue tasks rest

def applyTimerMap (queue : DelayQueue) (tasks : Tasks) (newMap : Schedules) :
    Except Panic (DelayQueue × Tasks) := do
  let (queue, tasks) ← retainTasks newMap queue tasks
  applySchedules rules queue tasks newMap

def markTaskRunning (state : TaskState) : Bool × TaskState :=
  if !state.running then (true, { state with running := true }) else (false, state)

/-- The uid is that of the update to spawn, if one is. -/
def runExpiredTask (tasks : Tasks) (uid : String) : Tasks × Option String :=
  match OrderedMap.get tasks uid with
  | none => (tasks, none)
  | some state =>
    match markTaskRunning { state with key := none } with
    | (false, state) => (OrderedMap.insert tasks uid state, none)
    | (true, state) => (OrderedMap.insert tasks uid state, some uid)

def runTaskNow (queue : DelayQueue) (tasks : Tasks) (uid : String) :
    Except Panic (DelayQueue × Tasks × Option String) :=
  match OrderedMap.get tasks uid with
  | none => .ok (queue, tasks, none)
  | some state =>
    match markTaskRunning state with
    | (false, state) => .ok (queue, OrderedMap.insert tasks uid state, none)
    | (true, state) => do
      let queue ← match state.key with
        | some key => queue.remove key
        | none => .ok queue
      .ok (queue, OrderedMap.insert tasks uid { state with key := none }, some uid)

def finishTask (queue : DelayQueue) (tasks : Tasks) (uid : String) :
    Except Panic (DelayQueue × Tasks) :=
  match OrderedMap.get tasks uid with
  | none => .ok (queue, tasks)
  | some state => do
    let state := { state with running := false }
    if state.retired then .ok (queue, OrderedMap.remove tasks uid)
    else
      let (queue, key) ← queue.insert rules uid (intervalDuration state.intervalMinutes)
      .ok (queue, OrderedMap.insert tasks uid { state with key := some key })

end

end ClashVerge.Timer
