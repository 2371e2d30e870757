import Mathlib.Data.Finset.Card
import ClashVerge.Library.Transition

/-!
# The supervisor of a connections socket

`createSocketSupervisor` keeps one socket open while anybody subscribes and arms a timer when it has
lost it. Its functions run between two awaits without interruption.

A socket that opens after its last subscriber has left is closed by `connect` itself, which still
counts as connecting until the close is over. A subscriber who arrives meanwhile is turned away by
that flag, and nobody calls `connect` again. Opened sockets and timers are numbered in the order
they appear.
-/

namespace ClashVerge.ConnectionData

open Transition

variable {Listener : Type}

/-- A `connect` that awaits: the socket it has asked for, or the end of one it gave up. -/
inductive Connect where
  | opening
  | abandoning (socket : Nat)
deriving DecidableEq, Repr

/-- A `closeSocket` that awaits, called by `reconnect` or not, or one that has returned to a
`reconnect` that has not been resumed. -/
inductive Close where
  | closing (socket : Nat) (reconnects : Bool)
  | returned
deriving DecidableEq, Repr

/-- The caller goes on to arm the timer. -/
def Close.reconnects : Close → Bool
  | .closing _ reconnects => reconnects
  | .returned => true

/-- A message of the socket, as its listener tells them apart. -/
inductive Message where
  | text (data : String)
  | other
deriving DecidableEq, Repr

structure State (Listener : Type) where
  listeners : Finset Listener
  socket : Option Nat
  connecting : Bool
  reconnectTimer : Option Nat
  connects : List Connect
  closes : List Close
  timers : List Nat
  timersSet : Nat
  opened : Nat
  closed : List Nat
  /-- What was handed to `onText`. -/
  texts : List String
deriving DecidableEq

inductive Action (Listener : Type) where
  | subscribe (listener : Listener)
  | unsubscribe (listener : Listener)
  | connected (index : Nat)
  | connectFailed (index : Nat)
  | abandoned (index : Nat) (succeeded : Bool)
  | closed (index : Nat) (succeeded : Bool)
  | resumed (index : Nat)
  | expired (timer : Nat)
  | message (socket : Nat) (message : Message)

namespace State

def new : State Listener := ⟨∅, none, false, none, [], [], [], 0, 0, [], []⟩

variable (state : State Listener)

def hasSubscribers : Bool := 0 < state.listeners.card

def clearReconnectTimer : State Listener :=
  match state.reconnectTimer with
  | none => state
  | some timer => { state with timers := state.timers.erase timer, reconnectTimer := none }

/-- `closeSocket`, up to its `await`. -/
def closeSocket (reconnects : Bool) : State Listener :=
  match state.socket with
  | none => { state with closes := state.closes ++ if reconnects then [.returned] else [] }
  | some current =>
    { state with
      socket := none
      closed := state.closed ++ [current]
      closes := state.closes ++ [.closing current reconnects] }

def scheduleReconnect : State Listener :=
  if !state.hasSubscribers then state
  else if state.reconnectTimer.isSome then state
  else
    { state with
      reconnectTimer := some state.timersSet
      timers := state.timers ++ [state.timersSet]
      timersSet := state.timersSet + 1 }

/-- `reconnect`, up to its `await`. -/
def reconnect : State Listener := if !state.hasSubscribers then state else state.closeSocket true

/-- `connect`, up to its first `await`. -/
def connect : State Listener :=
  if state.socket.isSome || state.connecting then state
  else if !state.hasSubscribers then state
  else
    { state.clearReconnectTimer with
      connecting := true
      connects := state.connects ++ [.opening] }

def stopIfIdle : State Listener :=
  if state.hasSubscribers then state else state.clearReconnectTimer.closeSocket false

/-- The promise of `connectSocket` is fulfilled. -/
def connected (index : Nat) : Option (State Listener) :=
  match state.connects[index]? with
  | some .opening =>
    let arrived := { state with opened := state.opened + 1 }
    some (if !state.hasSubscribers then
      { arrived with
        closed := state.closed ++ [state.opened]
        connects := state.connects.set index (.abandoning state.opened) }
    else
      { arrived with
        socket := some state.opened
        connecting := false
        connects := state.connects.eraseIdx index })
  | _ => none

/-- The `catch` and the `finally` of `connect`. -/
def connectFailed (index : Nat) : Option (State Listener) :=
  match state.connects[index]? with
  | some .opening =>
    some { state.scheduleReconnect with
      connecting := false
      connects := state.connects.eraseIdx index }
  | _ => none

/-- The close of a socket that was given up is over; `finally` clears the flag. -/
def abandoned (index : Nat) (succeeded : Bool) : Option (State Listener) :=
  match state.connects[index]? with
  | some (.abandoning _) =>
    let left := if succeeded then state else state.scheduleReconnect
    some { left with connecting := false, connects := state.connects.eraseIdx index }
  | _ => none

/-- The close of the current socket is over. Its failure is logged only. -/
def closeEnds (index : Nat) (_succeeded : Bool) : Option (State Listener) :=
  match state.closes[index]? with
  | some (.closing _ true) => some { state with closes := state.closes.set index .returned }
  | some (.closing _ false) => some { state with closes := state.closes.eraseIdx index }
  | _ => none

/-- `reconnect` goes on after its `await`. -/
def resumed (index : Nat) : Option (State Listener) :=
  match state.closes[index]? with
  | some .returned => some { state.scheduleReconnect with closes := state.closes.eraseIdx index }
  | _ => none

def expired (timer : Nat) : Option (State Listener) :=
  if timer ∈ state.timers then
    some { state with timers := state.timers.erase timer, reconnectTimer := none }.connect
  else none

/-- The listener that `connect` adds to the socket it keeps. -/
def onMessage (socket : Nat) (message : Message) : State Listener :=
  if state.socket ≠ some socket then state
  else match message with
    | .other => state
    | .text data =>
      if data.startsWith "Websocket error" then state.reconnect
      else { state with texts := state.texts ++ [data] }

end State

/-- One turn of the event loop. -/
def step [DecidableEq Listener] (state : State Listener) : Action Listener → Option (State Listener)
  | .subscribe listener => some { state with listeners := insert listener state.listeners }.connect
  | .unsubscribe listener =>
    some { state with listeners := state.listeners.erase listener }.stopIfIdle
  | .connected index => state.connected index
  | .connectFailed index => state.connectFailed index
  | .abandoned index succeeded => state.abandoned index succeeded
  | .closed index succeeded => state.closeEnds index succeeded
  | .resumed index => state.resumed index
  | .expired timer => state.expired timer
  | .message socket message => some (state.onMessage socket message)

namespace State

variable (state : State Listener)

def Resting : Prop := state.connects = [] ∧ state.closes = []

/-- The supervisor has a socket or a timer just if somebody subscribes, and every socket that
ever opened is the current one or has been closed. -/
structure Sound : Prop where
  supplied : state.Resting → state.listeners.Nonempty → state.socket.isSome ∨ state.timers ≠ []
  quiet : state.Resting → state.listeners = ∅ → state.socket = none ∧ state.timers = []
  current : ∀ socket ∈ state.socket, socket < state.opened ∧ socket ∉ state.closed
  closed : ∀ socket < state.opened, state.socket = some socket ∨ socket ∈ state.closed

/-- Somebody is on the way to arm the timer. -/
def Rearming : Prop := state.timers ≠ [] ∨ ∃ close ∈ state.closes, close.reconnects = true

end State

/-- A socket that was given up is closed while nobody subscribes, or the timer is armed all the
same. -/
def ClosedUnobserved (state : State Listener) : Action Listener → Prop
  | .abandoned _ true => state.listeners.Nonempty → state.Rearming
  | _ => True

namespace State

variable {state : State Listener}

/-- What the flags and counters say about each other, also in the middle of a turn. -/
structure Counted (state : State Listener) : Prop where
  flag : state.connects.length = if state.connecting then 1 else 0
  free : state.connecting = true → state.socket = none
  armed : state.timers = state.reconnectTimer.toList
  known : ∀ socket ∈ state.closed, socket < state.opened
  current : ∀ socket ∈ state.socket, socket < state.opened ∧ socket ∉ state.closed
  closed : ∀ socket < state.opened, state.socket = some socket ∨ socket ∈ state.closed

/-- Nothing is kept for nobody. -/
structure Consistent (state : State Listener) : Prop extends Counted state where
  quiet : state.listeners = ∅ → state.socket = none ∧ state.timers = []

/-- A subscriber has a socket, or somebody is about to provide one. -/
structure Steady (state : State Listener) : Prop extends Consistent state where
  supplied : state.listeners.Nonempty →
    state.socket.isSome ∨ state.connecting = true ∨ state.Rearming

theorem hasSubscribers_iff : state.hasSubscribers = true ↔ state.listeners.Nonempty := by
  rw [hasSubscribers, decide_eq_true_iff, Finset.card_pos]

theorem not_hasSubscribers_iff : (!state.hasSubscribers) = true ↔ state.listeners = ∅ := by
  rw [Bool.not_eq_true', ← Bool.not_eq_true, hasSubscribers_iff, Finset.not_nonempty_iff_eq_empty]

theorem steady_new : Steady (new : State Listener) where
  flag := rfl
  free _ := rfl
  armed := rfl
  known _ member := by contradiction
  quiet _ := ⟨rfl, rfl⟩
  current _ member := by contradiction
  closed _ inside := by contradiction
  supplied someone := absurd someone Finset.not_nonempty_empty

theorem clearReconnectTimer_eq (armed : state.timers = state.reconnectTimer.toList) :
    state.clearReconnectTimer = { state with timers := [], reconnectTimer := none } := by
  unfold clearReconnectTimer
  split
  · rename_i none_
    rw [none_] at armed
    simp only [← none_, ← show state.timers = [] from armed]
  · rename_i timer some_
    rw [some_] at armed
    simp [armed]

theorem Consistent.connect (old : Consistent state) : Steady state.connect := by
  unfold State.connect
  split
  · rename_i busy
    refine ⟨old, fun _ => ?_⟩
    obtain socket | connecting := (Bool.or_eq_true _ _).mp busy
    · exact .inl socket
    · exact .inr (.inl connecting)
  · rename_i idle
    obtain ⟨noSocket, notConnecting⟩ : state.socket = none ∧ state.connecting = false := by
      simpa using idle
    split
    · rename_i nobody
      refine ⟨old, fun someone => ?_⟩
      rw [not_hasSubscribers_iff.mp nobody] at someone
      exact absurd someone Finset.not_nonempty_empty
    · rename_i somebody
      rw [clearReconnectTimer_eq old.armed]
      refine ⟨⟨⟨?_, fun _ => noSocket, rfl, old.known, old.current, old.closed⟩, fun nobody => ?_⟩,
        fun _ => .inr (.inl rfl)⟩
      · have flag := old.flag
        rw [notConnecting] at flag
        simpa using flag
      · exact absurd (not_hasSubscribers_iff.mpr nobody) somebody

theorem scheduleReconnect_frame (state : State Listener) :
    state.scheduleReconnect.listeners = state.listeners ∧
      state.scheduleReconnect.socket = state.socket ∧
      state.scheduleReconnect.connecting = state.connecting ∧
      state.scheduleReconnect.connects = state.connects ∧
      state.scheduleReconnect.closes = state.closes ∧
      state.scheduleReconnect.opened = state.opened ∧
      state.scheduleReconnect.closed = state.closed := by
  unfold scheduleReconnect
  split
  · simp
  · split <;> simp

theorem scheduleReconnect_armed (armed : state.timers = state.reconnectTimer.toList) :
    state.scheduleReconnect.timers = state.scheduleReconnect.reconnectTimer.toList := by
  unfold scheduleReconnect
  split
  · exact armed
  · split
    · exact armed
    · rename_i none_
      rw [armed, Option.not_isSome_iff_eq_none.mp none_]
      rfl

theorem scheduleReconnect_timers (armed : state.timers = state.reconnectTimer.toList)
    (someone : state.listeners.Nonempty) : state.scheduleReconnect.timers ≠ [] := by
  unfold scheduleReconnect
  rw [if_neg (by rw [not_hasSubscribers_iff]; exact someone.ne_empty)]
  split
  · rename_i some_
    obtain ⟨timer, is_⟩ := Option.isSome_iff_exists.mp some_
    rw [armed, is_]
    simp
  · simp

theorem scheduleReconnect_quiet (nobody : state.listeners = ∅) :
    state.scheduleReconnect = state := by
  unfold scheduleReconnect
  rw [if_pos (not_hasSubscribers_iff.mpr nobody)]

theorem Consistent.scheduleReconnect (old : Consistent state) :
    Consistent state.scheduleReconnect := by
  obtain ⟨listeners, socket, connecting, connects, -, opened, closed⟩ := scheduleReconnect_frame state
  refine ⟨⟨?_, ?_, scheduleReconnect_armed old.armed, ?_, ?_, ?_⟩, ?_⟩
  · rw [connects, connecting]
    exact old.flag
  · rw [connecting, socket]
    exact old.free
  · rw [opened, closed]
    exact old.known
  · rw [socket, opened, closed]
    exact old.current
  · rw [socket, opened, closed]
    exact old.closed
  · intro nobody
    rw [listeners] at nobody
    rw [scheduleReconnect_quiet nobody]
    exact old.quiet nobody

variable {index : Nat}

theorem Counted.onlyConnect (old : Counted state) {connect : Connect}
    (here : state.connects[index]? = some connect) :
    state.connects.eraseIdx index = [] ∧ state.connecting = true ∧ state.socket = none ∧
      ∀ other : Connect, (state.connects.set index other).length = 1 := by
  have flag := old.flag
  split at flag
  · rename_i connecting
    obtain ⟨only, one⟩ := List.length_eq_one_iff.mp flag
    rw [one] at here
    obtain ⟨inside, -⟩ := List.getElem?_eq_some_iff.mp here
    obtain rfl : index = 0 := by simpa using inside
    exact ⟨by rw [one]; rfl, connecting, old.free connecting, by simp [one]⟩
  · rw [List.length_eq_zero_iff.mp flag] at here
    contradiction

theorem Counted.closeSocket (old : Counted state) (reconnects : Bool) :
    Counted (state.closeSocket reconnects) := by
  unfold State.closeSocket
  split
  · exact ⟨old.flag, old.free, old.armed, old.known, old.current, old.closed⟩
  · rename_i current here
    refine ⟨old.flag, fun _ => rfl, old.armed, fun socket member => ?_,
      fun _ member => by contradiction, fun socket inside => .inr ?_⟩
    · obtain earlier | same := List.mem_append.mp member
      · exact old.known socket earlier
      · obtain rfl := List.mem_singleton.mp same
        exact (old.current socket here).1
    · obtain same | closed := old.closed socket inside
      · rw [here] at same
        cases same
        exact List.mem_append_right _ (List.mem_singleton_self _)
      · exact List.mem_append_left _ closed

theorem closeSocket_rearming : (state.closeSocket true).Rearming := by
  unfold State.closeSocket
  split
  · exact .inr ⟨.returned, by simp, rfl⟩
  · rename_i current _
    exact .inr ⟨.closing current true, by simp, rfl⟩

theorem closeSocket_socket (reconnects : Bool) : (state.closeSocket reconnects).socket = none := by
  unfold State.closeSocket
  split
  · rename_i none_
    exact none_
  · rfl

theorem closeSocket_listeners (reconnects : Bool) :
    (state.closeSocket reconnects).listeners = state.listeners := by
  unfold State.closeSocket
  split <;> rfl

theorem closeSocket_timers (reconnects : Bool) :
    (state.closeSocket reconnects).timers = state.timers := by
  unfold State.closeSocket
  split <;> rfl

theorem Steady.unsubscribe [DecidableEq Listener] (old : Steady state) (listener : Listener) :
    Steady ({ state with listeners := state.listeners.erase listener } : State Listener).stopIfIdle := by
  have counted : Counted { state with listeners := state.listeners.erase listener } :=
    ⟨old.flag, old.free, old.armed, old.known, old.current, old.closed⟩
  unfold State.stopIfIdle
  split
  · rename_i someone
    refine ⟨⟨counted, fun nobody => ?_⟩,
      fun remaining => old.supplied (remaining.mono (Finset.erase_subset _ _))⟩
    exact absurd nobody (hasSubscribers_iff.mp someone).ne_empty
  · rename_i nobody
    rw [Bool.not_eq_true, ← Bool.not_eq_true'] at nobody
    have none_ := not_hasSubscribers_iff.mp nobody
    rw [clearReconnectTimer_eq counted.armed]
    have cleared : Counted { state with
        listeners := state.listeners.erase listener
        timers := []
        reconnectTimer := none } :=
      ⟨old.flag, old.free, rfl, old.known, old.current, old.closed⟩
    refine ⟨⟨cleared.closeSocket false, fun _ => ?_⟩, fun someone => ?_⟩
    · rw [closeSocket_socket, closeSocket_timers]
      exact ⟨rfl, rfl⟩
    · rw [closeSocket_listeners] at someone
      exact absurd none_ someone.ne_empty

theorem Steady.subscribe [DecidableEq Listener] (old : Steady state) (listener : Listener) :
    Steady ({ state with listeners := insert listener state.listeners } : State Listener).connect := by
  refine Consistent.connect ⟨⟨old.flag, old.free, old.armed, old.known, old.current, old.closed⟩, ?_⟩
  intro nobody
  exact absurd nobody (Finset.insert_ne_empty _ _)

variable {next : State Listener}

theorem Steady.connected (old : Steady state)
    (taken : state.connected index = some next) : Steady next := by
  unfold State.connected at taken
  split at taken
  · rename_i here
    obtain ⟨free, connecting, noSocket, single⟩ := old.onlyConnect here
    cases taken
    have opened : ∀ socket < state.opened + 1, socket = state.opened ∨ socket ∈ state.closed := by
      intro socket inside
      by_cases newest : socket = state.opened
      · exact .inl newest
      · obtain same | closed := old.closed socket (by omega)
        · rw [noSocket] at same
          contradiction
        · exact .inr closed
    split
    · rename_i nobody
      have none_ := not_hasSubscribers_iff.mp nobody
      refine ⟨⟨⟨?_, old.free, old.armed, ?_, ?_, ?_⟩, old.quiet⟩, ?_⟩
      · simpa [connecting] using single (.abandoning state.opened)
      · intro socket member
        obtain earlier | same := List.mem_append.mp member
        · exact Nat.lt_succ_of_lt (old.known socket earlier)
        · obtain rfl := List.mem_singleton.mp same
          exact Nat.lt_succ_self _
      · intro socket member
        change socket ∈ state.socket at member
        rw [noSocket] at member
        contradiction
      · intro socket inside
        obtain rfl | closed := opened socket inside
        · exact .inr (List.mem_append_right _ (List.mem_singleton_self _))
        · exact .inr (List.mem_append_left _ closed)
      · intro someone
        exact absurd none_ someone.ne_empty
    · rename_i someone
      refine ⟨⟨⟨?_, fun busy => by contradiction, old.armed, ?_, ?_, ?_⟩, ?_⟩,
        fun _ => .inl rfl⟩
      · rw [free]
        rfl
      · exact fun socket member => Nat.lt_succ_of_lt (old.known socket member)
      · intro socket member
        cases member
        exact ⟨Nat.lt_succ_self _, fun closed => (old.known _ closed).false⟩
      · intro socket inside
        obtain rfl | closed := opened socket inside
        · exact .inl rfl
        · exact .inr closed
      · intro nobody
        exact absurd (not_hasSubscribers_iff.mpr nobody) someone
  · contradiction

theorem Consistent.endConnect (old : Consistent state) {connect : Connect}
    (here : state.connects[index]? = some connect)
    (supplied : state.listeners.Nonempty → state.Rearming) :
    Steady { state with connecting := false, connects := state.connects.eraseIdx index } := by
  obtain ⟨free, -, noSocket, -⟩ := old.onlyConnect here
  refine ⟨⟨⟨?_, fun busy => by contradiction, old.armed, old.known, old.current, old.closed⟩,
    old.quiet⟩, fun someone => .inr (.inr (supplied someone))⟩
  rw [free]
  rfl

theorem scheduleReconnect_rearming (armed : state.timers = state.reconnectTimer.toList)
    (someone : state.scheduleReconnect.listeners.Nonempty) : state.scheduleReconnect.Rearming := by
  rw [(scheduleReconnect_frame state).1] at someone
  exact .inl (scheduleReconnect_timers armed someone)

theorem Consistent.retry (old : Consistent state) {connect : Connect}
    (here : state.connects[index]? = some connect) :
    Steady { state.scheduleReconnect with
      connecting := false, connects := state.connects.eraseIdx index } := by
  have same := (scheduleReconnect_frame state).2.2.2.1
  rw [← same] at here ⊢
  exact old.scheduleReconnect.endConnect here (scheduleReconnect_rearming old.armed)

section

variable (old : Steady state)
include old

theorem Steady.connectFailed (taken : state.connectFailed index = some next) : Steady next := by
  unfold State.connectFailed at taken
  split at taken
  · rename_i here
    cases taken
    exact old.retry here
  · contradiction

theorem Steady.abandoned
    {succeeded : Bool} (unobserved : ClosedUnobserved state (.abandoned index succeeded))
    (taken : state.abandoned index succeeded = some next) : Steady next := by
  unfold State.abandoned at taken
  split at taken
  · rename_i here
    cases taken
    cases succeeded with
    | true => exact old.endConnect here unobserved
    | false => exact old.retry here
  · contradiction

theorem rearming_of_others (kept : Consistent next) (listeners : next.listeners = state.listeners)
    (socket : next.socket = state.socket) (connecting : next.connecting = state.connecting)
    (rearming : next.listeners.Nonempty → state.Rearming → next.Rearming) : Steady next := by
  refine ⟨kept, fun someone => ?_⟩
  have before := someone
  rw [listeners] at before
  rw [socket, connecting]
  obtain has | busy | soon := old.supplied before
  · exact .inl has
  · exact .inr (.inl busy)
  · exact .inr (.inr (rearming someone soon))

theorem Steady.closeEnds
    (succeeded : Bool) (taken : state.closeEnds index succeeded = some next) : Steady next := by
  have kept : ∀ closes, Consistent { state with closes := closes } := fun closes =>
    ⟨⟨old.flag, old.free, old.armed, old.known, old.current, old.closed⟩, old.quiet⟩
  unfold State.closeEnds at taken
  split at taken
  · rename_i current here
    cases taken
    refine rearming_of_others old (kept _) rfl rfl rfl fun _ _ => .inr ⟨.returned, ?_, rfl⟩
    exact List.mem_set (List.getElem?_eq_some_iff.mp here).1 _
  · rename_i current here
    cases taken
    refine rearming_of_others old (kept _) rfl rfl rfl fun _ soon => ?_
    refine soon.imp_right ?_
    rintro ⟨close, member, reconnects⟩
    refine ⟨close, ?_, reconnects⟩
    obtain ⟨position, inside, rfl⟩ := List.getElem_of_mem member
    rw [List.mem_eraseIdx_iff_getElem]
    refine ⟨position, inside, ?_, rfl⟩
    rintro rfl
    rw [List.getElem?_eq_getElem inside] at here
    rw [Option.some.inj here] at reconnects
    contradiction
  · contradiction

theorem Steady.resumed (taken : state.resumed index = some next) : Steady next := by
  unfold State.resumed at taken
  split at taken
  · cases taken
    have armed := old.toConsistent.scheduleReconnect
    refine rearming_of_others old ?_ (scheduleReconnect_frame state).1 (scheduleReconnect_frame state).2.1
      (scheduleReconnect_frame state).2.2.1 fun someone _ => .inl ?_
    · exact ⟨⟨armed.flag, armed.free, armed.armed, armed.known, armed.current, armed.closed⟩,
        armed.quiet⟩
    · change state.scheduleReconnect.listeners.Nonempty at someone
      rw [(scheduleReconnect_frame state).1] at someone
      exact scheduleReconnect_timers old.armed someone
  · contradiction

theorem Steady.expired {timer : Nat} (taken : state.expired timer = some next) : Steady next := by
  unfold State.expired at taken
  split at taken
  · rename_i armed
    cases taken
    have none_ : state.timers.erase timer = [] := by
      rw [old.armed] at armed ⊢
      rw [Option.mem_toList.mp armed]
      simp
    refine Consistent.connect ⟨⟨old.flag, old.free, none_, old.known, old.current, old.closed⟩,
      fun nobody => ⟨(old.quiet nobody).1, none_⟩⟩
  · contradiction

theorem Steady.onMessage (socket : Nat) (message : Message) :
    Steady (state.onMessage socket message) := by
  unfold State.onMessage
  split
  · exact old
  · split
    · exact old
    · split
      · unfold State.reconnect
        split
        · exact old
        · rename_i someone
          refine ⟨⟨old.toCounted.closeSocket true, fun nobody => ?_⟩,
            fun _ => .inr (.inr closeSocket_rearming)⟩
          rw [closeSocket_listeners] at nobody
          exact absurd (not_hasSubscribers_iff.mpr nobody) someone
      · exact ⟨⟨⟨old.flag, old.free, old.armed, old.known, old.current, old.closed⟩, old.quiet⟩,
          old.supplied⟩

end

theorem Steady.sound (steady : Steady state) : state.Sound := by
  refine ⟨fun resting someone => ?_, fun _ => steady.quiet, steady.current, steady.closed⟩
  obtain socket | connecting | timer | ⟨close, member, -⟩ := steady.supplied someone
  · exact .inl socket
  · have flag := steady.flag
    rw [resting.1, connecting] at flag
    contradiction
  · exact .inr timer
  · rw [resting.2] at member
    contradiction

end State

variable [DecidableEq Listener]

theorem steady_step {state next : State Listener} {action : Action Listener} (old : state.Steady)
    (unobserved : ClosedUnobserved state action) (taken : step state action = some next) :
    next.Steady := by
  cases action with
  | subscribe listener =>
    cases taken
    exact old.subscribe listener
  | unsubscribe listener =>
    cases taken
    exact old.unsubscribe listener
  | connected index => exact old.connected taken
  | connectFailed index => exact old.connectFailed taken
  | abandoned index succeeded => exact old.abandoned unobserved taken
  | closed index succeeded => exact old.closeEnds succeeded taken
  | resumed index => exact old.resumed taken
  | expired timer => exact old.expired taken
  | message socket message =>
    cases taken
    exact old.onMessage socket message

instance (state : State Listener) (action : Action Listener) :
    Decidable (ClosedUnobserved state action) := by
  unfold ClosedUnobserved State.Rearming
  split <;> infer_instance

/-- Where every socket that was given up is closed unobserved, the supervisor neither stalls nor
leaks. -/
theorem supervisor_sound {actions : List (Action Listener)} {state : State Listener}
    (unobserved : Meets step ClosedUnobserved State.new actions)
    (ran : run step State.new actions = some state) : state.Sound :=
  (run_invariant_of_meets State.Steady (fun _ _ _ old met taken => steady_step old met taken)
    State.steady_new unobserved ran).sound

/-- A second subscriber who comes once the socket that the first gave up has been closed. -/
def inTurn : List (Action String) :=
  [.subscribe "summary", .unsubscribe "summary", .connected 0, .abandoned 0 true,
    .subscribe "table", .connected 0]

theorem supervisor_sound_in_turn : Meets step ClosedUnobserved State.new inTurn ∧
      ∃ state : State String, run step State.new inTurn = some state ∧ state.Sound := by
  have unobserved : Meets step ClosedUnobserved State.new inTurn := by decide
  exact ⟨unobserved, _, rfl, supervisor_sound unobserved rfl⟩

/-- The second subscriber comes while that socket is being closed, and stays without one. -/
theorem supervisor_stalls : ¬ ∀ (actions : List (Action String)) (state : State String),
      run step State.new actions = some state → state.Sound := by
  intro all
  have ran : ∃ state : State String, run step State.new [.subscribe "summary",
      .unsubscribe "summary", .connected 0, .subscribe "table", .abandoned 0 true] = some state ∧
      state.Resting ∧ state.listeners = {"table"} ∧ state.socket = none ∧ state.timers = [] :=
    ⟨_, rfl, ⟨rfl, rfl⟩, rfl, rfl, rfl⟩
  obtain ⟨state, ran, resting, listeners, noSocket, noTimer⟩ := ran
  obtain socket | timer := (all _ state ran).supplied resting
    (by rw [listeners]; exact Finset.singleton_nonempty _)
  · rw [noSocket] at socket
    contradiction
  · exact timer noTimer

end ClashVerge.ConnectionData
