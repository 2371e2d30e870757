import Mathlib.Algebra.BigOperators.Group.List.Basic
import Mathlib.Algebra.GroupWithZero.Nat
import ClashVerge.Library.Transition

/-!
# Subscriptions that share a socket

The subscribers of one key share an entry, which holds the socket, its retry timer and the connect
in progress. The last subscriber to leave closes the entry and takes it out of the map; a later one
starts a new entry while a connect of the old one may be in progress. An entry's functions run from
one await to the next without interruption.

A socket that turns up for a closed entry is closed at once. One whose `onConnected` step throws
stays open beside the one that the retry opens.

The sockets and the timers of an entry are numbered in the order they appear.
-/

namespace ClashVerge.Hooks

open Transition

/-- A subscriber, with whether it comes with an `onConnected` step. -/
structure Owner where
  id : Nat
  onConnected : Bool
deriving DecidableEq, Repr

/-- The await at which `connectWs` is suspended. -/
inductive Pending where
  | connect
  | onConnected (socket : Nat) (owner : Option Owner)
  | close (socket : Nat)
deriving DecidableEq, Repr

/-- The socket that is in its `onConnected` step. -/
def Pending.greeted : Pending → Option Nat
  | .onConnected socket _ => some socket
  | _ => none

structure Entry where
  refs : Int
  ws : Option Nat
  reconnectTimer : Option Nat
  connecting : Bool
  /-- The mounted subscribers, in the order they came. -/
  owners : List Owner
  activeOwner : Option Owner
  closed : Bool
  pending : Option Pending
  /-- The `scheduleReconnect` calls that await, each with the socket it closes. -/
  reconnects : List (Option Nat)
  /-- The timers that have neither fired nor been cleared. -/
  timers : List Nat
  timersSet : Nat
  connects : Nat
  opened : Nat
  /-- The sockets in the order their `close` was called. -/
  closes : List Nat
  /-- The sockets whose `onConnected` step threw. -/
  threw : List Nat
  /-- The last connect succeeded, and no subscriber has given it up since. -/
  succeeded : Bool
deriving DecidableEq, Repr

/-- What happens to an entry in one turn of the event loop. -/
inductive Turn where
  | unsubscribe (owner : Owner)
  | connected
  | connectFailed
  | onConnectedReturned
  | onConnectedThrew
  | closeEnded (succeeded : Bool)
  | expired (timer : Nat)
  | scheduleReconnect
  | reconnectResumed (index : Nat) (succeeded : Bool)
deriving DecidableEq, Repr

namespace Entry

/-- What `createSharedSubscriptionEntry` returns. -/
def new : Entry := ⟨0, none, none, false, [], none, false, none, [], [], 0, 0, 0, [], [], false⟩

variable (entry : Entry)

def pickActiveOwner : Option Owner :=
  match entry.activeOwner with
  | some owner => if owner ∈ entry.owners then some owner else entry.owners.head?
  | none => entry.owners.head?

def clearReconnectTimer : Entry :=
  match entry.reconnectTimer with
  | none => entry
  | some timer => { entry with timers := entry.timers.erase timer, reconnectTimer := none }

/-- The timer that retries, in place of whichever the entry knew. -/
def setReconnectTimer : Entry :=
  { entry with
    reconnectTimer := some entry.timersSet
    timers := entry.timers ++ [entry.timersSet]
    timersSet := entry.timersSet + 1 }

def closeSharedSocket : Entry :=
  match entry.ws with
  | none => entry
  | some socket => { entry with ws := none, closes := entry.closes ++ [socket] }

/-- `connectWs`, up to its first `await`. -/
def connectWs : Entry :=
  if entry.closed || entry.connecting || entry.ws.isSome then entry
  else
    { entry with
      connecting := true
      pending := some .connect
      connects := entry.connects + 1
      succeeded := false }

/-- The `catch` of `connectWs`. -/
def caught : Entry :=
  if !entry.closed && entry.ws.isNone then entry.clearReconnectTimer.setReconnectTimer else entry

/-- The `finally` of `connectWs`. -/
def ended : Entry := { entry with connecting := false, pending := none }

/-- The promise of `connect` is fulfilled. -/
def connected : Option Entry :=
  match entry.pending with
  | some .connect =>
    let arrived := { entry with opened := entry.opened + 1 }
    some (if entry.closed then
      { arrived with
        closes := entry.closes ++ [entry.opened]
        pending := some (.close entry.opened) }
    else
      { arrived with
        activeOwner := entry.pickActiveOwner
        pending := some (.onConnected entry.opened entry.pickActiveOwner) })
  | _ => none

def connectFailed : Option Entry :=
  match entry.pending with
  | some .connect => some entry.caught.ended
  | _ => none

/-- The active owner's `onConnected` is over, or it has none. -/
def onConnectedReturned : Option Entry :=
  match entry.pending with
  | some (.onConnected socket _) =>
    some (if entry.closed then
      { entry with
        closes := entry.closes ++ [socket]
        pending := some (.close socket)
        succeeded := true }
    else { entry with ws := some socket, succeeded := true }.clearReconnectTimer.ended)
  | _ => none

/-- The active owner's `onConnected` throws, at once or later. -/
def onConnectedThrew : Option Entry :=
  match entry.pending with
  | some (.onConnected socket (some owner)) =>
    if owner.onConnected then
      some { entry with threw := entry.threw ++ [socket] }.caught.ended
    else none
  | _ => none

/-- The close of a socket that came too late is over. -/
def closeEnded (succeeded : Bool) : Option Entry :=
  match entry.pending with
  | some (.close _) => some (if succeeded then entry else entry.caught).ended
  | _ => none

def expired (timer : Nat) : Option Entry :=
  if timer ∈ entry.timers then
    some { entry with timers := entry.timers.erase timer }.connectWs
  else none

/-- `scheduleReconnect`, up to its `await`. -/
def scheduleReconnect : Entry :=
  if entry.closed then entry
  else
    { entry.clearReconnectTimer.closeSharedSocket with
      reconnects := entry.reconnects ++ [entry.ws]
      succeeded := false }

/-- `scheduleReconnect` goes on after its `await`, unless the close was rejected. -/
def reconnectResumed (index : Nat) (succeeded : Bool) : Option Entry :=
  match entry.reconnects[index]? with
  | none => none
  | some socket =>
    let resumed := { entry with reconnects := entry.reconnects.eraseIdx index }
    if succeeded then some (if entry.closed then resumed else resumed.setReconnectTimer)
    else if socket.isSome then some resumed
    else none

def subscribe (owner : Owner) : Entry :=
  { entry with
    refs := entry.refs + 1
    owners := entry.owners ++ [owner]
    activeOwner := entry.activeOwner.or (some owner) }.connectWs

/-- A subscriber no longer owns the entry. The `onConnected` that its successor runs on the socket
is not awaited. -/
def disown (owner : Owner) : Entry :=
  let left := { entry with owners := entry.owners.erase owner }
  if left.activeOwner = some owner then
    { left with activeOwner := { left with activeOwner := none }.pickActiveOwner }
  else left

/-- The cleanup of a subscriber's effect, once for each. -/
def unsubscribe (owner : Owner) : Option Entry :=
  if owner ∈ entry.owners then
    let left := { entry.disown owner with refs := entry.refs - 1 }
    some (if left.refs ≤ 0 then
      { left with closed := true }.clearReconnectTimer.closeSharedSocket
    else left)
  else none

def step : Turn → Option Entry
  | .unsubscribe owner => entry.unsubscribe owner
  | .connected => entry.connected
  | .connectFailed => entry.connectFailed
  | .onConnectedReturned => entry.onConnectedReturned
  | .onConnectedThrew => entry.onConnectedThrew
  | .closeEnded succeeded => entry.closeEnded succeeded
  | .expired timer => entry.expired timer
  | .scheduleReconnect => some entry.scheduleReconnect
  | .reconnectResumed index succeeded => entry.reconnectResumed index succeeded

/-- A subscriber that leaves no other behind deletes the key from the map. -/
def deletes : Turn → Bool
  | .unsubscribe _ => entry.refs ≤ 0
  | _ => false

def openSockets : List Nat := (List.range entry.opened).filter fun socket => socket ∉ entry.closes

def Quiescent : Prop := entry.pending = none ∧ entry.reconnects = []

instance : Decidable entry.Quiescent := by unfold Quiescent; infer_instance

end Entry

structure Key where
  /-- The entries created for the key so far, the oldest first. -/
  entries : List Entry
  /-- The entry that `sharedSubscriptions` holds under the key. -/
  shared : Option Nat
  joined : Nat
deriving DecidableEq, Repr

inductive Action where
  | subscribe (onConnected : Bool)
  | turn (index : Nat) (turn : Turn)
deriving DecidableEq, Repr

namespace Key

/-- Nobody has subscribed yet. -/
def new : Key := ⟨[], none, 0⟩

variable (key : Key)

def subscribe (onConnected : Bool) : Option Key :=
  let owner : Owner := ⟨key.joined, onConnected⟩
  match key.shared with
  | none =>
    some {
      entries := key.entries ++ [Entry.new.subscribe owner]
      shared := some key.entries.length
      joined := key.joined + 1 }
  | some index =>
    match key.entries[index]? with
    | none => none
    | some entry =>
      some { key with
        entries := key.entries.set index (entry.subscribe owner)
        joined := key.joined + 1 }

def turn (index : Nat) (turn : Turn) : Option Key :=
  match key.entries[index]? with
  | none => none
  | some entry =>
    match entry.step turn with
    | none => none
    | some next =>
      some { key with
        entries := key.entries.set index next
        shared := if next.deletes turn then none else key.shared }

def connects : Nat := (key.entries.map Entry.connects).sum

def openSockets : Nat := (key.entries.map fun entry => entry.openSockets.length).sum

def HasSubscriber : Prop := ∃ entry ∈ key.entries, entry.owners ≠ []

def LastConnectSucceeded : Prop := ∃ entry ∈ key.entries.getLast?, entry.succeeded = true

def Quiescent : Prop := ∀ entry ∈ key.entries, entry.Quiescent

instance : Decidable key.HasSubscriber := by unfold HasSubscriber; infer_instance

instance : Decidable key.LastConnectSucceeded := by unfold LastConnectSucceeded; infer_instance

instance : Decidable key.Quiescent := by unfold Quiescent; infer_instance

end Key

def step (key : Key) : Action → Option Key
  | .subscribe onConnected => key.subscribe onConnected
  | .turn index turn => key.turn index turn

/-- An `onConnected` step throws. -/
def Action.throws : Action → Bool
  | .turn _ .onConnectedThrew => true
  | _ => false

/-- Subscribers have one socket if their last connect succeeded, every other socket has been
closed once, and no timer connects for nobody. -/
structure Key.LeakFree (key : Key) : Prop where
  sockets : key.Quiescent →
    key.openSockets = if key.HasSubscriber ∧ key.LastConnectSucceeded then 1 else 0
  closedOnce : key.Quiescent → ∀ entry ∈ key.entries, ∀ socket < entry.opened,
    entry.ws ≠ some socket → entry.closes.count socket = 1
  silent : ¬ key.HasSubscriber → ∀ index timer next,
    step key (.turn index (.expired timer)) = some next → next.connects = key.connects

namespace Entry

/-- Where the sockets of an entry are: kept, in their `onConnected` step, closed, or lost by a step
that threw. -/
def places (entry : Entry) : List Nat :=
  entry.ws.toList ++ (entry.pending.bind Pending.greeted).toList ++ entry.closes ++ entry.threw

/-- What an entry's fields say about each other between two turns. Every socket that opened is in
one place. -/
structure Sound (entry : Entry) : Prop where
  flag : entry.connecting = entry.pending.isSome
  refs : entry.refs = entry.owners.length
  closed : entry.closed = entry.owners.isEmpty
  released : entry.closed = true → entry.ws = none
  free : entry.pending.isSome = true → entry.ws = none
  succeeded : entry.closed = false → entry.succeeded = entry.ws.isSome
  places : entry.places.Perm (List.range entry.opened)

variable {entry next : Entry}

theorem clearReconnectTimer_eq (entry : Entry) : ∃ timers,
    entry.clearReconnectTimer = { entry with timers := timers, reconnectTimer := none } := by
  unfold clearReconnectTimer
  split
  · rename_i none_
    exact ⟨entry.timers, by rw [← none_]⟩
  · rename_i timer _
    exact ⟨entry.timers.erase timer, rfl⟩

theorem Sound.clearReconnectTimer (old : Sound entry) : Sound entry.clearReconnectTimer := by
  obtain ⟨timers, cleared⟩ := clearReconnectTimer_eq entry
  rw [cleared]
  exact ⟨old.flag, old.refs, old.closed, old.released, old.free, old.succeeded, old.places⟩

theorem Sound.setReconnectTimer (old : Sound entry) : Sound entry.setReconnectTimer :=
  ⟨old.flag, old.refs, old.closed, old.released, old.free, old.succeeded, old.places⟩

theorem caught_eq (entry : Entry) : ∃ timers reconnectTimer timersSet, entry.caught =
    { entry with timers, reconnectTimer, timersSet } := by
  unfold caught
  split
  · obtain ⟨timers, cleared⟩ := clearReconnectTimer_eq entry
    rw [cleared]
    exact ⟨_, _, _, rfl⟩
  · exact ⟨_, _, _, rfl⟩

section

variable (old : Sound entry)
include old

theorem Sound.connectWs : Sound entry.connectWs := by
  unfold Entry.connectWs
  split
  · exact old
  · rename_i goes
    obtain ⟨⟨opened, idle⟩, noSocket⟩ :
        (entry.closed = false ∧ entry.connecting = false) ∧ entry.ws = none := by simpa using goes
    have resting : entry.pending = none := by
      rw [old.flag] at idle
      exact Option.isSome_eq_false_iff.mp idle |> Option.isNone_iff_eq_none.mp
    refine ⟨rfl, old.refs, old.closed, old.released, fun _ => noSocket, fun _ => ?_, ?_⟩
    · rw [noSocket]
      rfl
    · have places := old.places
      rwa [Entry.places, resting] at places

theorem Sound.caught_ended {pending : Pending}
    (here : entry.pending = some pending) (empty : pending.greeted = none) :
    Sound entry.caught.ended := by
  obtain ⟨timers, reconnectTimer, timersSet, same⟩ := caught_eq entry
  rw [same]
  refine ⟨rfl, old.refs, old.closed, old.released, nofun, old.succeeded, ?_⟩
  have places := old.places
  rw [Entry.places, here, Option.bind_some, empty] at places
  exact places

theorem Sound.connected (taken : entry.connected = some next) :
    Sound next := by
  unfold Entry.connected at taken
  split at taken
  case h_2 => contradiction
  rename_i opening
  have noSocket : entry.ws = none := old.free (by rw [opening]; rfl)
  have places : (entry.closes ++ entry.threw).Perm (List.range entry.opened) := by
    simpa [Entry.places, opening, noSocket, Pending.greeted] using old.places
  cases taken
  split
  · refine ⟨by simp [old.flag, opening], old.refs, old.closed, old.released, fun _ => noSocket,
      old.succeeded, ?_⟩
    simp only [Entry.places, noSocket, Option.bind_some, Pending.greeted, Option.toList_none, List.nil_append,
      List.range_succ, List.append_assoc]
    rw [List.perm_iff_count] at places ⊢
    intro socket
    have same := places socket
    simp only [List.count_append] at same ⊢
    omega
  · refine ⟨by simp [old.flag, opening], old.refs, old.closed, old.released, fun _ => noSocket,
      old.succeeded, ?_⟩
    simp only [Entry.places, noSocket, Option.bind_some, Pending.greeted, Option.toList_none, Option.toList_some,
      List.nil_append, List.range_succ, List.append_assoc]
    exact List.perm_append_comm.trans (places.append_right _)

theorem Sound.connectFailed (taken : entry.connectFailed = some next) :
    Sound next := by
  unfold Entry.connectFailed at taken
  split at taken
  case h_2 => contradiction
  rename_i opening
  cases taken
  exact old.caught_ended opening rfl

theorem Sound.onConnectedReturned (taken : entry.onConnectedReturned = some next) : Sound next := by
  unfold Entry.onConnectedReturned at taken
  split at taken
  case h_2 => contradiction
  rename_i socket owner greeting
  have noSocket : entry.ws = none := old.free (by rw [greeting]; rfl)
  have places : ([socket] ++ entry.closes ++ entry.threw).Perm (List.range entry.opened) := by
    simpa [Entry.places, greeting, noSocket, Pending.greeted] using old.places
  cases taken
  split
  · rename_i closed
    refine ⟨by simp [old.flag, greeting], old.refs, old.closed, old.released, fun _ => noSocket,
      fun opened => by simp [closed] at opened, ?_⟩
    simp only [Entry.places, noSocket, Option.bind_some, Pending.greeted, Option.toList_none, List.nil_append]
    exact (List.perm_append_comm.append_right _).trans places
  · rename_i opened
    obtain ⟨timers, cleared⟩ := clearReconnectTimer_eq { entry with ws := some socket, succeeded := true }
    rw [cleared]
    exact ⟨rfl, old.refs, old.closed, fun closed => absurd closed opened, nofun, fun _ => rfl, places⟩

theorem Sound.onConnectedThrew (taken : entry.onConnectedThrew = some next) : Sound next := by
  unfold Entry.onConnectedThrew at taken
  split at taken
  case h_2 => contradiction
  rename_i socket owner greeting
  split at taken
  case isFalse => contradiction
  have noSocket : entry.ws = none := old.free (by rw [greeting]; rfl)
  have places : ([socket] ++ entry.closes ++ entry.threw).Perm (List.range entry.opened) := by
    simpa [Entry.places, greeting, noSocket, Pending.greeted] using old.places
  cases taken
  obtain ⟨timers, reconnectTimer, timersSet, same⟩ :=
    caught_eq { entry with threw := entry.threw ++ [socket] }
  rw [same]
  refine ⟨rfl, old.refs, old.closed, old.released, nofun, old.succeeded, ?_⟩
  change (entry.ws.toList ++ [] ++ entry.closes ++ (entry.threw ++ [socket])).Perm _
  rw [noSocket, ← List.append_assoc]
  rw [List.append_assoc] at places
  exact List.perm_append_comm.trans places

theorem Sound.closeEnded {succeeded : Bool}
    (taken : entry.closeEnded succeeded = some next) : Sound next := by
  unfold Entry.closeEnded at taken
  split at taken
  case h_2 => contradiction
  rename_i socket closing
  cases taken
  split
  · refine ⟨rfl, old.refs, old.closed, old.released, nofun, old.succeeded, ?_⟩
    have places := old.places
    rw [Entry.places, closing] at places
    exact places
  · exact old.caught_ended closing rfl

end

theorem closeSharedSocket_eq (entry : Entry) : entry.closeSharedSocket.ws = none ∧
      (entry.ws.toList ++ entry.closes).Perm entry.closeSharedSocket.closes ∧
      entry.closeSharedSocket =
        { entry with ws := none, closes := entry.closeSharedSocket.closes } := by
  unfold closeSharedSocket
  split
  · rename_i none_
    exact ⟨none_, by rw [none_]; rfl, by rw [← none_]⟩
  · rename_i socket some_
    exact ⟨rfl, by rw [some_]; exact List.perm_append_comm, rfl⟩

theorem closeSharedSocket_perm {entry : Entry} (places : entry.places.Perm (List.range entry.opened)) :
    entry.closeSharedSocket.places.Perm (List.range entry.opened) := by
  obtain ⟨released, moved, same⟩ := closeSharedSocket_eq entry
  refine List.Perm.trans ?_ places
  rw [same]
  rw [List.perm_iff_count] at moved ⊢
  intro socket
  have one := moved socket
  simp only [Entry.places, Option.toList_none, List.nil_append, List.count_append] at one ⊢
  omega

theorem Sound.scheduleReconnect (old : Sound entry) : Sound entry.scheduleReconnect := by
  unfold Entry.scheduleReconnect
  split
  · exact old
  · have cleared := old.clearReconnectTimer
    obtain ⟨released, -, same⟩ := closeSharedSocket_eq entry.clearReconnectTimer
    have places := closeSharedSocket_perm cleared.places
    rw [same] at places ⊢
    exact ⟨cleared.flag, cleared.refs, cleared.closed, fun _ => rfl, fun _ => rfl, fun _ => rfl, places⟩

theorem Sound.reconnectResumed (old : Sound entry) {index : Nat} {succeeded : Bool}
    (taken : entry.reconnectResumed index succeeded = some next) : Sound next := by
  have resumed : Sound { entry with reconnects := entry.reconnects.eraseIdx index } :=
    ⟨old.flag, old.refs, old.closed, old.released, old.free, old.succeeded, old.places⟩
  unfold Entry.reconnectResumed at taken
  split at taken
  · contradiction
  · split at taken
    · cases taken
      split
      · exact resumed
      · exact resumed.setReconnectTimer
    · split at taken
      · cases taken
        exact resumed
      · contradiction

theorem Sound.expired (old : Sound entry) {timer : Nat}
    (taken : entry.expired timer = some next) : Sound next := by
  unfold Entry.expired at taken
  split at taken
  · cases taken
    refine Sound.connectWs ?_
    exact ⟨old.flag, old.refs, old.closed, old.released, old.free, old.succeeded, old.places⟩
  · contradiction

theorem sound_subscribe_new (owner : Owner) : Sound (new.subscribe owner) := by
  refine ⟨rfl, rfl, rfl, nofun, fun _ => rfl, fun _ => rfl, List.Perm.refl _⟩

theorem Sound.subscribe (old : Sound entry) (opened : entry.closed = false) (owner : Owner) :
    Sound (entry.subscribe owner) := by
  refine Sound.connectWs ⟨old.flag, ?_, ?_, old.released, old.free, old.succeeded, old.places⟩
  · simp [old.refs]
  · simp [opened]

theorem disown_eq (entry : Entry) (owner : Owner) : ∃ activeOwner, entry.disown owner =
    { entry with owners := entry.owners.erase owner, activeOwner } := by
  unfold disown
  dsimp only
  split
  · exact ⟨_, rfl⟩
  · exact ⟨_, rfl⟩

theorem Sound.unsubscribe (old : Sound entry) {owner : Owner}
    (taken : entry.unsubscribe owner = some next) : Sound next := by
  unfold Entry.unsubscribe at taken
  split at taken
  case isFalse => contradiction
  rename_i mounted
  obtain ⟨activeOwner, disowned⟩ := disown_eq entry owner
  rw [disowned] at taken
  cases taken
  have counted : entry.refs - 1 = (entry.owners.erase owner).length := by
    have positive := List.length_pos_of_mem mounted
    rw [List.length_erase_of_mem mounted, old.refs]
    omega
  have opened : entry.closed = false := by
    rw [old.closed, List.isEmpty_eq_false_iff]
    exact List.ne_nil_of_mem mounted
  split
  · rename_i last
    have nobody : entry.owners.erase owner = [] := by
      change entry.refs - 1 ≤ 0 at last
      rw [counted] at last
      exact List.length_eq_zero_iff.mp (by omega)
    obtain ⟨timers, cleared⟩ := clearReconnectTimer_eq
      { entry with
        owners := entry.owners.erase owner, activeOwner, refs := entry.refs - 1, closed := true }
    rw [cleared]
    generalize here : ({ entry with
        owners := entry.owners.erase owner, activeOwner, refs := entry.refs - 1, closed := true
        timers, reconnectTimer := none } : Entry) = left
    have places : left.closeSharedSocket.places.Perm (List.range left.opened) :=
      closeSharedSocket_perm (by rw [← here]; exact old.places)
    obtain ⟨-, -, same⟩ := closeSharedSocket_eq left
    rw [same] at places ⊢
    subst here
    exact ⟨old.flag, counted, by rw [nobody]; rfl, fun _ => rfl, fun _ => rfl, nofun, places⟩
  · rename_i more
    refine ⟨old.flag, counted, ?_, old.released, old.free, old.succeeded, old.places⟩
    change ¬ entry.refs - 1 ≤ 0 at more
    rw [counted] at more
    change entry.closed = (entry.owners.erase owner).isEmpty
    rw [opened, eq_comm, List.isEmpty_eq_false_iff, ← List.length_pos_iff]
    omega

theorem Sound.step (old : Sound entry) {turn : Turn} (taken : entry.step turn = some next) :
    Sound next := by
  cases turn with
  | unsubscribe owner => exact old.unsubscribe taken
  | connected => exact old.connected taken
  | connectFailed => exact old.connectFailed taken
  | onConnectedReturned => exact old.onConnectedReturned taken
  | onConnectedThrew => exact old.onConnectedThrew taken
  | closeEnded succeeded => exact old.closeEnded taken
  | expired timer => exact old.expired taken
  | scheduleReconnect =>
    cases taken
    exact old.scheduleReconnect
  | reconnectResumed index succeeded => exact old.reconnectResumed taken

theorem connectWs_closed (entry : Entry) : entry.connectWs.closed = entry.closed := by
  unfold connectWs
  split <;> rfl

theorem connectWs_threw (entry : Entry) : entry.connectWs.threw = entry.threw := by
  unfold connectWs
  split <;> rfl

/-- An entry is closed by the last subscriber to leave and never reopens; only an `onConnected`
step that throws loses a socket. -/
theorem step_frame {turn : Turn} (taken : entry.step turn = some next) :
    next.closed = (entry.closed || next.deletes turn) ∧
      next.threw.length = entry.threw.length + if turn = .onConnectedThrew then 1 else 0 := by
  cases turn with
  | unsubscribe owner =>
    simp only [step, unsubscribe] at taken
    split at taken
    case isFalse => contradiction
    obtain ⟨activeOwner, disowned⟩ := disown_eq entry owner
    cases taken
    rw [disowned]
    split
    · rename_i last
      obtain ⟨timers, cleared⟩ := clearReconnectTimer_eq
        { entry with
          owners := entry.owners.erase owner, activeOwner, refs := entry.refs - 1, closed := true }
      rw [cleared, (closeSharedSocket_eq _).2.2]
      exact ⟨by simp only [deletes, decide_eq_true last, Bool.or_true], rfl⟩
    · rename_i more
      exact ⟨by simp only [deletes, decide_eq_false more, Bool.or_false], rfl⟩
  | connected =>
    simp only [step, connected] at taken
    split at taken
    · cases taken
      split <;> exact ⟨(Bool.or_false _).symm, rfl⟩
    · contradiction
  | connectFailed =>
    simp only [step, connectFailed] at taken
    split at taken
    · cases taken
      obtain ⟨timers, reconnectTimer, timersSet, same⟩ := caught_eq entry
      rw [same]
      exact ⟨(Bool.or_false _).symm, rfl⟩
    · contradiction
  | onConnectedReturned =>
    simp only [step, onConnectedReturned] at taken
    split at taken
    · rename_i socket _ _
      cases taken
      obtain ⟨timers, cleared⟩ :=
        clearReconnectTimer_eq { entry with ws := some socket, succeeded := true }
      rw [cleared]
      split <;> exact ⟨(Bool.or_false _).symm, rfl⟩
    · contradiction
  | onConnectedThrew =>
    simp only [step, onConnectedThrew] at taken
    split at taken
    · split at taken
      · rename_i socket _ _ _
        cases taken
        obtain ⟨timers, reconnectTimer, timersSet, same⟩ :=
          caught_eq { entry with threw := entry.threw ++ [socket] }
        rw [same]
        exact ⟨(Bool.or_false _).symm, by simp [ended]⟩
      · contradiction
    · contradiction
  | closeEnded succeeded =>
    simp only [step, closeEnded] at taken
    split at taken
    · cases taken
      obtain ⟨timers, reconnectTimer, timersSet, same⟩ := caught_eq entry
      rw [same]
      split <;> exact ⟨(Bool.or_false _).symm, rfl⟩
    · contradiction
  | expired timer =>
    simp only [step, expired] at taken
    split at taken
    · cases taken
      rw [connectWs_closed, connectWs_threw]
      exact ⟨(Bool.or_false _).symm, rfl⟩
    · contradiction
  | scheduleReconnect =>
    simp only [step, scheduleReconnect] at taken
    cases taken
    split
    · exact ⟨(Bool.or_false _).symm, rfl⟩
    · obtain ⟨timers, cleared⟩ := clearReconnectTimer_eq entry
      rw [cleared, (closeSharedSocket_eq _).2.2]
      exact ⟨(Bool.or_false _).symm, rfl⟩
  | reconnectResumed index succeeded =>
    simp only [step, reconnectResumed] at taken
    split at taken
    · contradiction
    · split at taken
      · cases taken
        split <;> exact ⟨(Bool.or_false _).symm, rfl⟩
      · split at taken
        · cases taken
          exact ⟨(Bool.or_false _).symm, rfl⟩
        · contradiction

theorem Sound.opened_of_deletes (sound : Sound entry) {turn : Turn}
    (taken : entry.step turn = some next) (deleted : next.deletes turn = true) :
    entry.closed = false := by
  cases turn with
  | unsubscribe owner =>
    simp only [Entry.step, Entry.unsubscribe] at taken
    split at taken
    · rename_i mounted
      rw [sound.closed, List.isEmpty_eq_false_iff]
      exact List.ne_nil_of_mem mounted
    · contradiction
  | _ => contradiction

theorem expired_connects (closed : entry.closed = true) {timer : Nat}
    (taken : entry.expired timer = some next) : next.connects = entry.connects := by
  unfold expired at taken
  split at taken
  · cases taken
    simp [connectWs, closed]
  · contradiction

theorem Sound.openSockets_perm (sound : Sound entry) : entry.openSockets.Perm
    (entry.ws.toList ++ (entry.pending.bind Pending.greeted).toList ++ entry.threw) := by
  have once : entry.places.Nodup := sound.places.nodup_iff.mpr List.nodup_range
  obtain ⟨before, -, lost⟩ := List.nodup_append.mp once
  obtain ⟨-, -, held⟩ := List.nodup_append.mp before
  have apart : ∀ socket ∈ entry.ws.toList ++ (entry.pending.bind Pending.greeted).toList,
      decide (socket ∉ entry.closes) = true := fun socket here =>
    decide_eq_true fun closed => held socket here socket closed rfl
  have gone : ∀ socket ∈ entry.closes, ¬ decide (socket ∉ entry.closes) = true :=
    fun socket closed kept => of_decide_eq_true kept closed
  have open_ : ∀ socket ∈ entry.threw, decide (socket ∉ entry.closes) = true := fun socket here =>
    decide_eq_true fun closed => lost socket (List.mem_append_right _ closed) socket here rfl
  refine (sound.places.filter _).symm.trans ?_
  rw [Entry.places, List.filter_append, List.filter_append, List.filter_eq_self.mpr apart,
    List.filter_eq_nil_iff.mpr gone, List.filter_eq_self.mpr open_, List.append_nil]

theorem Sound.openSockets_length (sound : Sound entry) (quiescent : entry.Quiescent) :
    entry.openSockets.length = (if entry.ws.isSome then 1 else 0) + entry.threw.length := by
  rw [sound.openSockets_perm.length_eq, quiescent.1]
  cases entry.ws <;> simp [Nat.add_comm]

end Entry

namespace Key

/-- Only the entry in the map is open, and it is the newest one. -/
structure Sound (key : Key) : Prop where
  entries : ∀ entry ∈ key.entries, entry.Sound
  newest : ∀ index, key.shared = some index → index + 1 = key.entries.length
  shared : ∀ index entry, key.entries[index]? = some entry →
    (entry.closed = false ↔ key.shared = some index)

variable {key next : Key}

theorem sound_new : Sound new where
  entries _ member := by contradiction
  newest _ held := by contradiction
  shared _ _ here := by contradiction

theorem subscribe_closed (entry : Entry) (owner : Owner) :
    (entry.subscribe owner).closed = entry.closed := Entry.connectWs_closed _

theorem Sound.subscribe (old : Sound key) {onConnected : Bool}
    (taken : key.subscribe onConnected = some next) : Sound next := by
  unfold Key.subscribe at taken
  dsimp only at taken
  split at taken
  · -- Nobody else is there: a new entry joins the closed ones.
    rename_i nobody
    cases taken
    refine ⟨fun entry member => ?_, fun index held => ?_, fun index entry here => ?_⟩
    · obtain earlier | created := List.mem_append.mp member
      · exact old.entries entry earlier
      · obtain rfl := List.mem_singleton.mp created
        exact Entry.sound_subscribe_new _
    · cases held
      simp
    · rw [List.getElem?_append] at here
      split at here
      · rename_i inside
        have closed := old.shared index entry here
        rw [nobody] at closed
        refine closed.trans ⟨nofun, fun held => ?_⟩
        cases held
        exact absurd inside (Nat.lt_irrefl _)
      · rename_i outside
        rw [List.getElem?_singleton] at here
        split at here
        · cases here
          rw [subscribe_closed]
          exact ⟨fun _ => congrArg some (by omega), fun _ => rfl⟩
        · contradiction
  · rename_i index held
    split at taken
    · contradiction
    · rename_i entry here
      have opened := (old.shared index entry here).mpr held
      cases taken
      refine ⟨fun other member => ?_, fun other held => ?_, fun other found there => ?_⟩
      · obtain earlier | rfl := List.mem_or_eq_of_mem_set member
        · exact old.entries other earlier
        · exact (old.entries entry (List.mem_of_getElem? here)).subscribe opened _
      · rw [List.length_set]
        exact old.newest other held
      · rw [List.getElem?_set] at there
        split at there
        · rename_i same
          subst same
          split at there
          · cases there
            rw [subscribe_closed, opened]
            exact ⟨fun _ => held, fun _ => rfl⟩
          · contradiction
        · exact old.shared other found there

theorem Sound.turn (old : Sound key) {index : Nat} {turn : Turn}
    (taken : key.turn index turn = some next) : Sound next := by
  unfold Key.turn at taken
  split at taken
  · contradiction
  rename_i entry here
  split at taken
  · contradiction
  rename_i moved stepped
  cases taken
  have sound := old.entries entry (List.mem_of_getElem? here)
  have closed := (Entry.step_frame stepped).1
  refine ⟨fun other member => ?_, fun other held => ?_, fun other found there => ?_⟩
  · obtain earlier | rfl := List.mem_or_eq_of_mem_set member
    · exact old.entries other earlier
    · exact sound.step stepped
  · rw [List.length_set]
    dsimp only at held
    split at held
    · contradiction
    · exact old.newest other held
  · rw [List.getElem?_set] at there
    have before := old.shared index entry here
    split at there
    · rename_i same
      subst same
      split at there
      · cases there
        rw [closed]
        cases deleted : moved.deletes turn with
        | true => simp
        | false => simpa using before
      · contradiction
    · rename_i apart
      refine (old.shared other found there).trans ?_
      dsimp only
      split
      · rename_i deleted
        have opened := sound.opened_of_deletes stepped deleted
        rw [before.mp opened]
        exact ⟨fun same => absurd (Option.some.inj same) apart, nofun⟩
      · rfl

theorem Sound.step (old : Sound key) {action : Action} (taken : Hooks.step key action = some next) :
    Sound next := by
  cases action with
  | subscribe onConnected => exact old.subscribe taken
  | turn index turn => exact old.turn taken

/-- How many sockets were lost to an `onConnected` step that threw. -/
def losses (key : Key) : Nat := (key.entries.map fun entry => entry.threw.length).sum

theorem sum_set {numbers : List Nat} {index number : Nat} (here : numbers[index]? = some number)
    (other : Nat) : (numbers.set index other).sum + number = numbers.sum + other := by
  induction numbers generalizing index with
  | nil => simp at here
  | cons first rest ih =>
    cases index with
    | zero =>
      cases here
      simp only [List.set_cons_zero, List.sum_cons]
      omega
    | succ index =>
      have here : rest[index]? = some number := here
      have remaining := ih here
      simp only [List.set_cons_succ, List.sum_cons]
      omega

theorem sum_map_set {entry : Entry} {index : Nat} (here : key.entries[index]? = some entry)
    (measure : Entry → Nat) (other : Entry) :
    ((key.entries.set index other).map measure).sum + measure entry =
      (key.entries.map measure).sum + measure other := by
  rw [List.map_set]
  refine sum_set ?_ _
  rw [List.getElem?_map, here]
  rfl

theorem step_losses {action : Action} (taken : Hooks.step key action = some next) :
    next.losses = key.losses + if action.throws then 1 else 0 := by
  cases action with
  | subscribe onConnected =>
    simp only [Hooks.step, Key.subscribe] at taken
    split at taken
    · cases taken
      simp [losses, Entry.subscribe, Entry.connectWs_threw, Entry.new, Action.throws]
    · split at taken
      · contradiction
      · rename_i entry here
        cases taken
        have moved := sum_map_set here (fun entry => entry.threw.length)
          (entry.subscribe ⟨key.joined, onConnected⟩)
        simp only [Entry.subscribe, Entry.connectWs_threw] at moved
        simp only [losses, Action.throws, Entry.subscribe]
        simpa using moved
  | turn index turn =>
    simp only [Hooks.step, Key.turn] at taken
    split at taken
    · contradiction
    rename_i entry here
    split at taken
    · contradiction
    rename_i after stepped
    cases taken
    have lost := (Entry.step_frame stepped).2
    have moved := sum_map_set here (fun entry => entry.threw.length) after
    have throws : (Action.turn index turn).throws = decide (turn = .onConnectedThrew) := by
      cases turn <;> rfl
    simp only [losses, throws, decide_eq_true_eq]
    omega

theorem run_losses {actions : List Action} {final : Key}
    (ran : run Hooks.step key actions = some final) :
    final.losses = key.losses + actions.countP Action.throws := by
  induction actions generalizing key with
  | nil =>
    cases ran
    rfl
  | cons action rest ih =>
    obtain ⟨next, taken, remaining⟩ := (run_cons_iff _ _ _ _ _).mp ran
    rw [ih remaining, step_losses taken, List.countP_cons]
    omega

theorem Sound.kept (sound : Sound key) :
    (key.entries.map fun entry => if entry.ws.isSome then 1 else 0).sum =
      if key.HasSubscriber ∧ key.LastConnectSucceeded then 1 else 0 := by
  obtain empty | ⟨older, newest, split_⟩ := List.eq_nil_or_concat key.entries
  · have nobody : ¬ key.HasSubscriber := by simp [HasSubscriber, empty]
    rw [empty, if_neg fun both => nobody both.1]
    rfl
  have abandoned : ∀ entry ∈ older, entry.closed = true := by
    intro entry member
    obtain ⟨index, inside, here⟩ := List.getElem_of_mem member
    have there : key.entries[index]? = some entry := by
      rw [split_, List.concat_eq_append, List.getElem?_append_left inside,
        List.getElem?_eq_getElem inside, here]
    by_contra opened
    have held := (sound.shared index entry there).mp (Bool.not_eq_true _ ▸ opened)
    have last := sound.newest index held
    rw [split_, List.length_concat] at last
    omega
  have here : newest ∈ key.entries := by simp [split_]
  have member : ∀ entry ∈ older, entry ∈ key.entries := fun entry member => by simp [split_, member]
  have none_ : (older.map fun entry => if entry.ws.isSome then 1 else 0).sum = 0 := by
    refine List.sum_eq_zero fun number counted => ?_
    obtain ⟨entry, inside, rfl⟩ := List.mem_map.mp counted
    rw [(sound.entries entry (member entry inside)).released (abandoned entry inside)]
    rfl
  have last : key.LastConnectSucceeded ↔ newest.succeeded = true := by
    simp [LastConnectSucceeded, split_]
  have someone : key.HasSubscriber ↔ newest.closed = false := by
    rw [(sound.entries newest here).closed, List.isEmpty_eq_false_iff]
    refine ⟨?_, fun subscribed => ⟨newest, here, subscribed⟩⟩
    rintro ⟨entry, inside, subscribed⟩
    rw [split_, List.concat_eq_append, List.mem_append, List.mem_singleton] at inside
    obtain earlier | rfl := inside
    · have closed := abandoned entry earlier
      rw [(sound.entries entry (member entry earlier)).closed, List.isEmpty_iff] at closed
      exact absurd closed subscribed
    · exact subscribed
  rw [split_, List.concat_eq_append, List.map_append, List.sum_append, none_, Nat.zero_add,
    List.map_singleton, List.sum_singleton]
  refine if_congr ?_ rfl rfl
  rw [last, someone]
  cases closed : newest.closed with
  | true => simp [(sound.entries newest here).released closed]
  | false => simp [(sound.entries newest here).succeeded closed]

theorem Sound.openSockets (sound : Sound key) (quiescent : key.Quiescent) : key.openSockets =
      (if key.HasSubscriber ∧ key.LastConnectSucceeded then 1 else 0) + key.losses := by
  rw [← sound.kept, losses, ← List.sum_map_add, Key.openSockets]
  refine congrArg List.sum (List.map_congr_left fun entry member => ?_)
  exact (sound.entries entry member).openSockets_length (quiescent entry member)

theorem Sound.silent (sound : Sound key) (nobody : ¬ key.HasSubscriber) {index timer : Nat}
    (taken : Hooks.step key (.turn index (.expired timer)) = some next) :
    next.connects = key.connects := by
  simp only [Hooks.step, Key.turn] at taken
  split at taken
  · contradiction
  rename_i entry here
  split at taken
  · contradiction
  rename_i after stepped
  cases taken
  have member := List.mem_of_getElem? here
  have closed : entry.closed = true := by
    rw [(sound.entries entry member).closed, List.isEmpty_iff]
    by_contra somebody
    exact nobody ⟨entry, member, somebody⟩
  have same := Entry.expired_connects closed stepped
  have moved := sum_map_set here Entry.connects after
  simp only [connects]
  omega

theorem closedOnce_iff {entry : Entry} (sound : entry.Sound) (quiescent : entry.Quiescent) :
    (∀ socket < entry.opened, entry.ws ≠ some socket → entry.closes.count socket = 1) ↔
      entry.threw = [] := by
  have once : entry.places.Nodup := sound.places.nodup_iff.mpr List.nodup_range
  have everywhere : entry.places = entry.ws.toList ++ entry.closes ++ entry.threw := by
    rw [Entry.places, quiescent.1]
    simp
  rw [everywhere] at once
  constructor
  · intro closedOnce
    by_contra lost
    obtain ⟨socket, threw⟩ := List.exists_mem_of_ne_nil entry.threw lost
    have opened : socket < entry.opened := by
      rw [← List.mem_range, ← sound.places.mem_iff, everywhere]
      exact List.mem_append_right _ threw
    obtain ⟨-, -, apart⟩ := List.nodup_append.mp once
    have gone : entry.ws ≠ some socket := fun kept =>
      apart socket (List.mem_append_left _ (by simp [kept])) socket threw rfl
    have closed : socket ∈ entry.closes := by
      rw [← List.count_pos_iff, closedOnce socket opened gone]
      exact Nat.one_pos
    exact apart socket (List.mem_append_right _ closed) socket threw rfl
  · intro lost socket opened gone
    have here : socket ∈ entry.places := sound.places.mem_iff.mpr (List.mem_range.mpr opened)
    rw [everywhere, lost, List.append_nil] at here
    rw [lost, List.append_nil] at once
    obtain kept | closed := List.mem_append.mp here
    · exact absurd (Option.mem_toList.mp kept) gone
    · exact List.count_eq_one_of_mem (List.nodup_append.mp once).2.1 closed

/-- A key leaks just if it has come to rest and an `onConnected` step has thrown before. -/
theorem leakFree_iff (actions : List Action) (key : Key) (ran : run step new actions = some key) :
    key.LeakFree ↔ (key.Quiescent → ∀ action ∈ actions, action.throws = false) := by
  have sound : key.Sound :=
    run_invariant (fun _ _ _ (old : Sound _) taken => old.step taken) sound_new ran
  have lost : key.losses = actions.countP Action.throws := by
    rw [run_losses ran]
    exact Nat.zero_add _
  have calm : (∀ action ∈ actions, action.throws = false) ↔ key.losses = 0 := by
    rw [lost, List.countP_eq_zero]
    simp
  have lossless : key.losses = 0 ↔ ∀ entry ∈ key.entries, entry.threw = [] := by
    simp [losses, List.sum_eq_zero_iff_forall_eq_nat]
  constructor
  · intro leakFree quiescent
    rw [calm, lossless]
    intro entry member
    rw [← closedOnce_iff (sound.entries entry member) (quiescent entry member)]
    exact leakFree.closedOnce quiescent entry member
  · intro condition
    refine ⟨fun quiescent => ?_, fun quiescent entry member => ?_,
      fun nobody index timer next => sound.silent nobody⟩
    · rw [sound.openSockets quiescent, calm.mp (condition quiescent), Nat.add_zero]
    · rw [closedOnce_iff (sound.entries entry member) (quiescent entry member)]
      exact lossless.mp (calm.mp (condition quiescent)) entry member

/-- A subscriber leaves while its socket opens, and the next one fails to connect at first. -/
def crossing : List Action :=
  [.subscribe true, .turn 0 (.unsubscribe ⟨0, true⟩), .subscribe true, .turn 0 .connected,
    .turn 1 .connectFailed, .turn 0 (.closeEnded true), .turn 1 (.expired 0), .turn 1 .connected,
    .turn 1 .onConnectedReturned]

/-- The late socket is closed, and the one that the retry opens is kept. -/
theorem crossing_leakFree : ∃ key, run step new crossing = some key ∧ key.Quiescent ∧ key.LeakFree :=
  ⟨_, rfl, by decide, (leakFree_iff crossing _ rfl).mpr fun _ => by decide⟩

/-- The step throws, and the retry succeeds. -/
def retried : List Action :=
  [.subscribe true, .turn 0 .connected, .turn 0 .onConnectedThrew, .turn 0 (.expired 0),
    .turn 0 .connected, .turn 0 .onConnectedReturned]

/-- The socket of the first attempt stays open beside the one that is kept. -/
theorem retried_leaks : ¬ ∀ actions key, run step new actions = some key → key.LeakFree := by
  intro leakFree
  have sockets := (leakFree retried _ rfl).sockets (by decide)
  exact absurd sockets (by decide)

end Key

end ClashVerge.Hooks
