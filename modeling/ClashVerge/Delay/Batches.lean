import ClashVerge.Delay.Manager
import ClashVerge.Library.Transition

/-!
# Delay tests in flight

`checkDelay` measures one member of a group, `checkListDelay` a list of members with several workers
that take the next index of the list from one variable. A turn runs the code from one `await` to the
next.

What such a stretch calls on the manager is a list of calls. `measureDelay` throws nothing, so the
`catch` of a worker is never reached. For each index of a batch it is recorded when the core is
asked for the delay and when the result is set.
-/

namespace ClashVerge.Delay

open Transition
open UriParser (Text text)

/-- What `measureDelay` asks the core for. -/
structure Request where
  apiName : Text
  url : Text
  timeout : Int
  providerName : Option Text
deriving DecidableEq, Repr

def requestOf (manager : Manager) (member : InteractableProxyMember) (group : Text)
    (timeout : Int) : Request :=
  ⟨member.apiName, manager.getUrl group, timeout, member.providerName⟩

/-- How the race between the request and the timeout ends; the timeout gives the delay 0. -/
inductive Answer where
  | result (delay : Int)
  | failed
deriving DecidableEq, Repr

/-- At a time of the clock: the answer of the race, the end of a wait, or the promise of a call that
has returned. -/
inductive Event where
  | answered (answer : Answer) (now : Int)
  | woke (now : Int)
  | resumed (now : Int)
deriving DecidableEq, Repr

/-- Where a `measureDelay` stands. -/
inductive Measure where
  | requested (startTime : Int)
  /-- A result that came before half a second waits for its end. -/
  | resting (delay elapsed : Int)
  | recovering (startTime : Int)
  | returned
deriving DecidableEq, Repr

/-- The call that shows a node as being tested. -/
def testing (name group : Text) (now : Int) : Call := .setDelay name group (-2) none now

/-- The body of `measureDelay` after its request, and what it calls. -/
def Measure.advance (name group : Text) : Measure → Event → Option (Measure × List Call)
  | .requested startTime, .answered (.result delay) now =>
    let elapsedTime := now - startTime
    if elapsedTime < 500 then some (.resting delay elapsedTime, [])
    else some (.returned, [.setDelay name group delay (some elapsedTime) now])
  | .requested startTime, .answered .failed _ => some (.recovering startTime, [])
  | .resting delay elapsed, .woke now =>
    some (.returned, [.setDelay name group delay (some elapsed) now])
  | .recovering startTime, .woke now =>
    some (.returned, [.setDelay name group 1000000 (some (now - startTime)) now])
  | _, _ => none

/-- A `checkDelay`. -/
structure Single where
  member : InteractableProxyMember
  group : Text
  request : Request
  measure : Measure
  finished : Bool
deriving DecidableEq, Repr

/-- Once its measurement has returned, `checkDelay` queues the notification. -/
def Single.advance (single : Single) : Event → Option (Single × List Call)
  | .resumed _ =>
    if single.measure = .returned ∧ single.finished = false then
      some ({ single with finished := true }, [.queueGroupNotification single.group])
    else none
  | event => (single.measure.advance single.member.name single.group event).map fun next =>
    ({ single with measure := next.1 }, next.2)

/-- Where a `help` of a batch stands, with the index it has taken and `currMember`. -/
inductive Worker where
  | staggering (index : Nat) (currMember : InteractableProxyMember)
  | measuring (index : Nat) (currMember : InteractableProxyMember) (measure : Measure)
  | stopped
deriving DecidableEq, Repr

/-- A `checkListDelay`. -/
structure Batch where
  proxies : List InteractableProxyMember
  group : Text
  timeout : Int
  concurrency : Nat
  index : Nat := 0
  workers : List Worker := []
  released : Bool := false
  requested : List (Nat × Request) := []
  recorded : List Nat := []
deriving DecidableEq, Repr

namespace Batch

/-- The start of `measureDelay` in a worker. -/
def startMeasure (batch : Batch) (manager : Manager) (index : Nat)
    (currMember : InteractableProxyMember) (now : Int) : Worker × Batch × List Call :=
  (.measuring index currMember (.requested now),
    { batch with
      requested := batch.requested ++
        [(index, requestOf manager currMember batch.group batch.timeout)] },
    [testing currMember.name batch.group now])

/-- `help`, up to its first `await`. Only the first member is measured at once. -/
def help (batch : Batch) (manager : Manager) (now : Int) : Worker × Batch × List Call :=
  match batch.proxies[batch.index]? with
  | none => (.stopped, { batch with index := batch.index + 1 }, [])
  | some currMember =>
    let taken := { batch with index := batch.index + 1 }
    let shown := testing currMember.name batch.group now
    if 1 < taken.index then (.staggering batch.index currMember, taken, [shown])
    else
      let started := taken.startMeasure manager batch.index currMember now
      (started.1, started.2.1, shown :: started.2.2)

def addWorker (batch : Batch) (worker : Worker) : Batch :=
  { batch with workers := batch.workers ++ [worker] }

def startWorkers (manager : Manager) (now : Int) : Nat → Batch → Batch × List Call
  | 0, batch => (batch, [])
  | count + 1, batch =>
    let helped := batch.help manager now
    let rest := startWorkers manager now count (helped.2.1.addWorker helped.1)
    (rest.1, helped.2.2 ++ rest.2)

/-- `checkListDelay`, up to its `await`. -/
def start (manager : Manager) (proxies : List InteractableProxyMember) (group : Text)
    (timeout : Int) (concurrency : Nat) (now : Int) : Batch × List Call :=
  let actualConcurrency := min (min concurrency proxies.length) 10
  let started := startWorkers manager now actualConcurrency
    { proxies := proxies, group := group, timeout := timeout, concurrency := concurrency }
  (started.1, .openBatch group ::
    proxies.map (fun member => testing member.name group now) ++ started.2)

def setWorker (batch : Batch) (position : Nat) (worker : Worker) : Batch :=
  { batch with workers := batch.workers.set position worker }

/-- A worker goes on: the stagger is over, its measurement advances, or has returned, when it takes
the next member. -/
def advance (batch : Batch) (manager : Manager) (position : Nat) (event : Event) :
    Option (Batch × List Call) :=
  match batch.workers[position]?, event with
  | some (.staggering index currMember), .woke now =>
    let started := batch.startMeasure manager index currMember now
    some (started.2.1.setWorker position started.1, started.2.2)
  | some (.measuring _ _ .returned), .resumed now =>
    let helped := batch.help manager now
    some (helped.2.1.setWorker position helped.1, helped.2.2)
  | some (.measuring index currMember measure), event =>
    (measure.advance currMember.name batch.group event).map fun next =>
      ({ batch with
          workers := batch.workers.set position (.measuring index currMember next.1)
          recorded :=
            if next.1 = .returned then batch.recorded ++ [index] else batch.recorded }, next.2)
  | _, _ => none

end Batch

structure State where
  manager : Manager := {}
  singles : List Single := []
  batches : List Batch := []
  calls : List Call := []
deriving DecidableEq, Repr

def Call.isExternal : Call → Bool
  | .queueGroupNotification _ | .openBatch _ | .closeBatch _ => false
  | _ => true

inductive Action where
  | call (call : Call)
  | checkDelay (member : InteractableProxyMember) (group : Text) (timeout now : Int)
  | checkListDelay (proxies : List InteractableProxyMember) (group : Text) (timeout : Int)
      (concurrency : Nat) (now : Int)
  | single (position : Nat) (event : Event)
  | worker (position worker : Nat) (event : Event)
  /-- All workers of a batch have stopped, and its `finally` runs. -/
  | release (position : Nat)
deriving DecidableEq, Repr

def Action.continues : Action → Bool
  | .single _ _ | .worker _ _ _ | .release _ => true
  | _ => false

namespace State

def perform (state : State) (calls : List Call) : State :=
  { state with
    manager := calls.foldl Manager.perform state.manager
    calls := state.calls ++ calls }

/-- One turn of the event loop. -/
def step (state : State) : Action → Option State
  | .call call => if call.isExternal then some (state.perform [call]) else none
  | .checkDelay member group timeout now =>
    let shown := state.perform [testing member.name group now]
    some { shown with
      singles := state.singles ++
        [⟨member, group, requestOf shown.manager member group timeout, .requested now, false⟩] }
  | .checkListDelay proxies group timeout concurrency now =>
    let started := Batch.start state.manager proxies group timeout concurrency now
    some { state.perform started.2 with batches := state.batches ++ [started.1] }
  | .single position event => do
    let single ← state.singles[position]?
    let next ← single.advance event
    return { state.perform next.2 with singles := state.singles.set position next.1 }
  | .worker position worker event => do
    let batch ← state.batches[position]?
    let next ← batch.advance state.manager worker event
    return { state.perform next.2 with batches := state.batches.set position next.1 }
  | .release position => do
    let batch ← state.batches[position]?
    if batch.released = false ∧ ∀ worker ∈ batch.workers, worker = .stopped then
      return { state.perform [.closeBatch batch.group] with
        batches := state.batches.set position { batch with released := true } }
    else none

end State

end ClashVerge.Delay
