import ClashVerge.Library.Transition

/-!
# Node selections waiting for their turn

`useProxySelection` carries out one `executeChange` at a time. A request made meanwhile waits in
`pendingRequestRef`, a single slot for all groups, and the loop of `flushChangeQueue` takes it once
the running change has returned or thrown.

The event loop interleaves calls of `changeProxy` with the moments at which an awaited promise
settles and at which the awaiting loop is resumed. The model keeps every loop that is running.
Requests are numbered in the order they are made; which request took the slot from which is
recorded.

The selections of all groups are carried out exactly where a waiting request meets only requests for
its own group.
-/

namespace ClashVerge.ProxySelection

open Transition

structure ProxyChangeRequest where
  groupName : String
  proxyName : String
  previousProxy : Option String
  fixed : Option String
deriving DecidableEq, Repr

/-- What `executeChange` reads of the options of the hook and of the app's settings. -/
structure Options where
  enableConnectionCleanup : Bool
  autoCloseConnection : Bool
deriving DecidableEq, Repr

/-- The calls `executeChange` makes, in the order of its statements. -/
inductive Call where
  | unfixedProxy (groupName : String)
  | selectNodeForGroup (groupName proxyName : String)
  | onSuccess
  | syncTraySelection
  | forgetSelection (groupName : String)
  | recordSelection (groupName proxyName : String)
  | cleanupConnections (previousProxy : String)
  | onError
deriving DecidableEq, Repr

/-- A request that asks for the fixed node takes the fixing back. -/
def ProxyChangeRequest.isFixedProxy (request : ProxyChangeRequest) : Bool :=
  request.fixed == some request.proxyName

/-- The first call of `executeChange`, which it awaits. -/
def ProxyChangeRequest.switchCall (request : ProxyChangeRequest) : Call :=
  if request.isFixedProxy then .unfixedProxy request.groupName
  else .selectNodeForGroup request.groupName request.proxyName

/-- The calls made once the node is switched; the last of them is awaited. -/
def ProxyChangeRequest.recordCalls (request : ProxyChangeRequest) : List Call :=
  [.onSuccess, .syncTraySelection,
    if request.isFixedProxy then .forgetSelection request.groupName
    else .recordSelection request.groupName request.proxyName]

/-- The clean-up of connections, which is not awaited. -/
def ProxyChangeRequest.cleanupCalls (options : Options) (request : ProxyChangeRequest) :
    List Call :=
  match request.previousProxy with
  | some previousProxy =>
    if options.enableConnectionCleanup && options.autoCloseConnection && previousProxy ≠ "" then
      [.cleanupConnections previousProxy]
    else []
  | none => []

/-- It awaits one of its two calls, or it has settled and the loop that awaits it has not been
resumed. It rejects when `onError` throws. -/
inductive Progress where
  | switching
  | recording
  | settled (rejected : Bool)
deriving DecidableEq, Repr

structure Numbered where
  number : Nat
  request : ProxyChangeRequest
deriving DecidableEq, Repr

/-- The loop of one `flushChangeQueue`, at its `await executeChange(request)`. -/
structure Loop where
  current : Numbered
  progress : Progress
deriving DecidableEq, Repr

structure State where
  pendingRequestRef : Option Numbered
  isProcessingRef : Bool
  /-- The loops that have entered, in the order they did. -/
  loops : List Loop
  requests : List ProxyChangeRequest
  /-- The numbers of the requests whose `executeChange` has settled. -/
  executed : List Nat
  /-- A waiting request and the one that took the slot from it. -/
  replaced : List (Nat × Nat)
  calls : List Call
deriving DecidableEq, Repr

/-- How an awaited call ends. An error, which is also what a throwing `onSuccess` is, runs
`onError`, and `onError` may throw. -/
inductive Settlement where
  | resolved
  | failed (onErrorThrows : Bool)
deriving DecidableEq, Repr

inductive Action where
  | changeProxy (request : ProxyChangeRequest)
  | settle (index : Nat) (settlement : Settlement)
  | resume (index : Nat)
deriving DecidableEq, Repr

namespace State

/-- The refs of a component just mounted. -/
def new : State := ⟨none, false, [], [], [], [], []⟩

/-- The condition and the body of the loop up to its `await`. -/
def takePending (state : State) : State :=
  match state.pendingRequestRef with
  | none => { state with isProcessingRef := false }
  | some waiting =>
    { state with
      pendingRequestRef := none
      loops := state.loops ++ [⟨waiting, .switching⟩]
      calls := state.calls ++ [waiting.request.switchCall] }

/-- `flushChangeQueue`, up to its first `await`. -/
def flushChangeQueue (state : State) : State :=
  if state.isProcessingRef then state else takePending { state with isProcessingRef := true }

/-- The assignment of `changeProxy` to the slot. -/
def setPending (state : State) (request : ProxyChangeRequest) : State :=
  { state with
    pendingRequestRef := some ⟨state.requests.length, request⟩
    requests := state.requests ++ [request]
    replaced := state.replaced ++ state.pendingRequestRef.toList.map fun waiting =>
      (waiting.number, state.requests.length) }

def changeProxy (state : State) (request : ProxyChangeRequest) : State :=
  (state.setPending request).flushChangeQueue

/-- The `executeChange` of a loop has settled. -/
def leave (state : State) (index : Nat) (current : Numbered) (rejected : Bool)
    (calls : List Call) : State :=
  { state with
    loops := state.loops.set index ⟨current, .settled rejected⟩
    executed := state.executed ++ [current.number]
    calls := state.calls ++ calls }

/-- An awaited call of `executeChange` settles, and its body runs to the next `await`. -/
def settle (options : Options) (state : State) (index : Nat) (settlement : Settlement) :
    Option State :=
  match state.loops[index]?, settlement with
  | some ⟨current, .switching⟩, .resolved =>
    some { state with
      loops := state.loops.set index ⟨current, .recording⟩
      calls := state.calls ++ current.request.recordCalls }
  | some ⟨current, .recording⟩, .resolved =>
    some (state.leave index current false (current.request.cleanupCalls options))
  | some ⟨_, .settled _⟩, _ => none
  | some ⟨current, _⟩, .failed onErrorThrows =>
    some (state.leave index current onErrorThrows [.onError])
  | none, _ => none

/-- The loop goes on unless the promise was rejected, when `finally` clears the flag and starts
another loop for a waiting request. -/
def resume (state : State) (index : Nat) : Option State :=
  match state.loops[index]? with
  | some ⟨_, .settled false⟩ => some { state with loops := state.loops.eraseIdx index }.takePending
  | some ⟨_, .settled true⟩ =>
    let left := { state with loops := state.loops.eraseIdx index, isProcessingRef := false }
    some (if left.pendingRequestRef.isSome then left.flushChangeQueue else left)
  | _ => none

end State

/-- One turn of the event loop. -/
def step (options : Options) (state : State) : Action → Option State
  | .changeProxy request => some (state.changeProxy request)
  | .settle index settlement => state.settle options index settlement
  | .resume index => state.resume index

/-- A request is made while none waits, or one for the same group. -/
def MeetsOwnGroup (state : State) : Action → Prop
  | .changeProxy request =>
    ∀ waiting ∈ state.pendingRequestRef, waiting.request.groupName = request.groupName
  | _ => True

instance (state : State) (action : Action) : Decidable (MeetsOwnGroup state action) := by
  cases action <;> unfold MeetsOwnGroup <;> infer_instance

namespace State

/-- No change is in flight and nothing waits for one. -/
def Idle (state : State) : Prop := state.isProcessingRef = false ∧ state.loops = []

def SameGroup (state : State) (number later : Nat) : Prop :=
  number < later ∧ ∃ request other, state.requests[number]? = some request ∧
    state.requests[later]? = some other ∧ other.groupName = request.groupName

def LastOfGroup (state : State) (number : Nat) (request : ProxyChangeRequest) : Prop :=
  state.requests[number]? = some request ∧ ∀ later other, number < later →
    state.requests[later]? = some other → other.groupName ≠ request.groupName

/-- Every request has been executed, is being executed, waits, or lost the slot to another. -/
def Accounts (state : State) : Prop :=
  ∀ number < state.requests.length, number ∈ state.executed ∨
    number ∈ state.loops.map (·.current.number) ∨
    number ∈ state.pendingRequestRef.map (·.number) ∨ ∃ later, (number, later) ∈ state.replaced

/-- The selections of all groups are carried out, one at a time. -/
structure NothingLost (state : State) : Prop where
  alone : state.loops.length ≤ 1
  executed : state.Idle → ∀ number request, state.LastOfGroup number request →
    number ∈ state.executed
  accounted : state.Accounts
  replaced : ∀ pair ∈ state.replaced, state.SameGroup pair.1 pair.2

/-- What every run keeps: the flag tells whether a loop runs, an idle hook has nothing waiting,
and every request is in one of four places. -/
structure Coherent (state : State) : Prop where
  flag : state.loops.length = if state.isProcessingRef then 1 else 0
  nothingWaits : state.isProcessingRef = false → state.pendingRequestRef = none
  numbered : ∀ waiting ∈ state.pendingRequestRef,
    state.requests[waiting.number]? = some waiting.request
  settled : ∀ loop ∈ state.loops, ∀ rejected, loop.progress = .settled rejected →
    loop.current.number ∈ state.executed
  accounted : state.Accounts

theorem coherent_new : Coherent new where
  flag := rfl
  nothingWaits _ := rfl
  numbered _ member := by contradiction
  settled _ member := by contradiction
  accounted _ inside := by contradiction

variable {state : State}

theorem coherent_takePending (flag : state.isProcessingRef = true)
    (free : state.loops = []) (accounted : state.Accounts) : Coherent state.takePending := by
  unfold takePending
  split
  · rename_i none_
    refine ⟨by simp [free], fun _ => none_, ?_, ?_, accounted⟩
    · rw [none_]
      intro other member
      contradiction
    · rw [free]
      intro loop member
      contradiction
  · rename_i taken here
    refine ⟨by simp [free, flag], fun _ => rfl, fun _ member => by contradiction, ?_, ?_⟩
    · rw [free]
      intro loop member rejected settled
      obtain rfl := List.mem_singleton.mp member
      contradiction
    · intro number inside
      obtain executed | running | waits | lost := accounted number inside
      · exact .inl executed
      · rw [free] at running
        contradiction
      · rw [here] at waits
        obtain rfl : taken.number = number := by simpa using waits
        exact .inr (.inl (by simp))
      · exact .inr (.inr (.inr lost))

theorem accounts_setPending (accounted : state.Accounts)
    (request : ProxyChangeRequest) : (state.setPending request).Accounts := by
  intro number inside
  simp only [setPending, List.length_append, List.length_singleton] at inside
  by_cases new : number = state.requests.length
  · exact .inr (.inr (.inl (by simp [setPending, new])))
  · obtain executed | running | waits | ⟨later, lost⟩ := accounted number (by omega)
    · exact .inl executed
    · exact .inr (.inl running)
    · obtain ⟨waiting, here, rfl⟩ := Option.mem_map.mp waits
      refine .inr (.inr (.inr ⟨state.requests.length, ?_⟩))
      simp [setPending, Option.mem_def.mp here]
    · exact .inr (.inr (.inr ⟨later, List.mem_append_left _ lost⟩))

theorem numbered_setPending (state : State) (request : ProxyChangeRequest) :
    ∀ waiting ∈ (state.setPending request).pendingRequestRef,
      (state.setPending request).requests[waiting.number]? = some waiting.request := by
  intro waiting member
  cases member
  simp [setPending]

theorem coherent_flushChangeQueue
    (flag : state.loops.length = if state.isProcessingRef then 1 else 0)
    (numbered : ∀ waiting ∈ state.pendingRequestRef,
      state.requests[waiting.number]? = some waiting.request)
    (settled : ∀ loop ∈ state.loops, ∀ rejected, loop.progress = .settled rejected →
      loop.current.number ∈ state.executed)
    (accounted : state.Accounts) : Coherent state.flushChangeQueue := by
  unfold flushChangeQueue
  split
  · rename_i busy
    exact ⟨flag, fun idle => absurd busy (by simp [idle]), numbered, settled, accounted⟩
  · rename_i idle
    rw [if_neg idle] at flag
    exact coherent_takePending rfl (List.length_eq_zero_iff.mp flag) accounted

theorem Coherent.changeProxy (old : Coherent state)
    (request : ProxyChangeRequest) : Coherent (state.changeProxy request) :=
  coherent_flushChangeQueue old.flag (state.numbered_setPending request) old.settled
    (accounts_setPending old.accounted request)

theorem numbers_set {loops : List Loop} {index : Nat} {loop : Loop}
    (here : loops[index]? = some loop) (progress : Progress) :
    (loops.set index ⟨loop.current, progress⟩).map (·.current.number) =
      loops.map (·.current.number) := by
  obtain ⟨inside, rfl⟩ := List.getElem?_eq_some_iff.mp here
  apply List.ext_getElem (by simp)
  intro position _ _
  rw [List.getElem_map, List.getElem_map, List.getElem_set]
  split
  · rename_i same
    subst same
    rfl
  · rfl

theorem Coherent.leave (old : Coherent state) {index : Nat} {loop : Loop}
    (here : state.loops[index]? = some loop) (rejected : Bool) (calls : List Call) :
    Coherent (state.leave index loop.current rejected calls) := by
  refine ⟨List.length_set.trans old.flag, old.nothingWaits, old.numbered, ?_, ?_⟩
  · intro other member rejected' settled
    obtain earlier | rfl := List.mem_or_eq_of_mem_set member
    · exact List.mem_append_left _ (old.settled other earlier rejected' settled)
    · exact List.mem_append_right _ (List.mem_singleton_self _)
  · intro number inside
    obtain executed | running | rest := old.accounted number inside
    · exact .inl (List.mem_append_left _ executed)
    · refine .inr (.inl ?_)
      rw [State.leave, numbers_set here]
      exact running
    · exact .inr (.inr rest)

theorem Coherent.settle {options : Options} {state next : State} (old : Coherent state)
    {index : Nat} {settlement : Settlement}
    (taken : state.settle options index settlement = some next) : Coherent next := by
  unfold State.settle at taken
  split at taken
  · rename_i current here
    cases taken
    refine ⟨List.length_set.trans old.flag, old.nothingWaits, old.numbered, ?_, ?_⟩
    · intro other member rejected settled
      obtain earlier | rfl := List.mem_or_eq_of_mem_set member
      · exact old.settled other earlier rejected settled
      · contradiction
    · intro number inside
      rw [numbers_set here]
      exact old.accounted number inside
  · rename_i current here
    cases taken
    exact old.leave here _ _
  · contradiction
  · rename_i current _ _ here
    cases taken
    exact old.leave here _ _
  · contradiction

theorem Coherent.onlyLoop (old : Coherent state) {index : Nat} {loop : Loop}
    (here : state.loops[index]? = some loop) {rejected : Bool}
    (settled : loop.progress = .settled rejected) :
    state.loops.eraseIdx index = [] ∧ state.isProcessingRef = true ∧
      Accounts { state with loops := [] } := by
  have flag := old.flag
  split at flag
  · rename_i busy
    obtain ⟨only, one⟩ := List.length_eq_one_iff.mp flag
    rw [one] at here
    obtain ⟨inside, rfl⟩ := List.getElem?_eq_some_iff.mp here
    obtain rfl : index = 0 := by simpa using inside
    refine ⟨by rw [one]; rfl, busy, ?_⟩
    intro number known
    obtain executed | running | rest := old.accounted number known
    · exact .inl executed
    · obtain rfl : number = only.current.number := by simpa [one] using running
      exact .inl (old.settled only (by rw [one]; exact List.mem_singleton_self _) rejected settled)
    · exact .inr (.inr rest)
  · rw [List.length_eq_zero_iff.mp flag] at here
    contradiction

theorem Coherent.resume {state next : State} (old : Coherent state) {index : Nat}
    (taken : state.resume index = some next) : Coherent next := by
  unfold State.resume at taken
  split at taken
  · rename_i current here
    obtain ⟨free, busy, accounted⟩ := old.onlyLoop here rfl
    rw [free] at taken
    cases taken
    exact coherent_takePending busy rfl accounted
  · rename_i current here
    obtain ⟨free, busy, accounted⟩ := old.onlyLoop here rfl
    rw [free] at taken
    cases taken
    split
    · exact coherent_flushChangeQueue rfl old.numbered (fun _ member => by contradiction) accounted
    · rename_i none_
      exact ⟨rfl, fun _ => Option.not_isSome_iff_eq_none.mp none_, old.numbered,
        fun _ member => by contradiction, accounted⟩
  · contradiction

end State

theorem coherent_step {options : Options} {state next : State} {action : Action}
    (old : state.Coherent) (taken : step options state action = some next) : next.Coherent := by
  cases action with
  | changeProxy request =>
    cases taken
    exact old.changeProxy request
  | settle index settlement => exact old.settle taken
  | resume index => exact old.resume taken

namespace State

@[simp] theorem takePending_replaced (state : State) :
    state.takePending.replaced = state.replaced := by
  unfold takePending
  split <;> rfl

@[simp] theorem takePending_requests (state : State) :
    state.takePending.requests = state.requests := by
  unfold takePending
  split <;> rfl

@[simp] theorem flushChangeQueue_replaced (state : State) :
    state.flushChangeQueue.replaced = state.replaced := by
  unfold flushChangeQueue
  split
  · rfl
  · exact takePending_replaced _

@[simp] theorem flushChangeQueue_requests (state : State) :
    state.flushChangeQueue.requests = state.requests := by
  unfold flushChangeQueue
  split
  · rfl
  · exact takePending_requests _

theorem settle_frame {options : Options} {state next : State} {index : Nat}
    {settlement : Settlement} (taken : state.settle options index settlement = some next) :
    next.requests = state.requests ∧ next.replaced = state.replaced := by
  unfold settle at taken
  split at taken <;> first
    | contradiction
    | cases taken
      exact ⟨rfl, rfl⟩

theorem resume_frame {state next : State} {index : Nat} (taken : state.resume index = some next) :
    next.requests = state.requests ∧ next.replaced = state.replaced := by
  unfold resume at taken
  split at taken
  · cases taken
    exact ⟨takePending_requests _, takePending_replaced _⟩
  · cases taken
    split
    · exact ⟨flushChangeQueue_requests _, flushChangeQueue_replaced _⟩
    · exact ⟨rfl, rfl⟩
  · contradiction

theorem sameGroup_append {state next : State} (request : ProxyChangeRequest)
    (requests : next.requests = state.requests ++ [request]) {number later : Nat}
    (same : state.SameGroup number later) : next.SameGroup number later := by
  obtain ⟨before, own, other, ownIs, otherIs, group⟩ := same
  refine ⟨before, own, other, ?_, ?_, group⟩
  · rw [requests, List.getElem?_append_left (List.getElem?_eq_some_iff.mp ownIs).1]
    exact ownIs
  · rw [requests, List.getElem?_append_left (List.getElem?_eq_some_iff.mp otherIs).1]
    exact otherIs

/-- The slot goes to requests of one group only as long as the request made next is for the group
of the one that waits. -/
theorem Coherent.replaced_changeProxy {state : State} (old : Coherent state)
    (replaced : ∀ pair ∈ state.replaced, state.SameGroup pair.1 pair.2)
    (request : ProxyChangeRequest) :
    (∀ waiting ∈ state.pendingRequestRef, waiting.request.groupName = request.groupName) ↔
      ∀ pair ∈ (state.changeProxy request).replaced,
        (state.changeProxy request).SameGroup pair.1 pair.2 := by
  have requests : (state.changeProxy request).requests = state.requests ++ [request] := by
    rw [State.changeProxy, flushChangeQueue_requests]
    rfl
  have newest : (state.changeProxy request).requests[state.requests.length]? = some request := by
    rw [requests]
    exact List.getElem?_concat_length
  rw [State.changeProxy, flushChangeQueue_replaced, ← State.changeProxy]
  constructor
  · intro own pair member
    obtain earlier | new := List.mem_append.mp member
    · exact sameGroup_append request requests (replaced pair earlier)
    · obtain ⟨waiting, here, rfl⟩ := List.mem_map.mp new
      have waits := Option.mem_toList.mp here
      have numbered := old.numbered waiting waits
      have inside := (List.getElem?_eq_some_iff.mp numbered).1
      refine ⟨inside, waiting.request, request, ?_, newest, (own waiting waits).symm⟩
      rw [requests, List.getElem?_append_left inside]
      exact numbered
  · intro kept waiting waits
    obtain ⟨-, own, other, ownIs, otherIs, group⟩ :=
      kept (waiting.number, state.requests.length)
        (List.mem_append_right _ (List.mem_map.mpr ⟨waiting, Option.mem_toList.mpr waits, rfl⟩))
    have numbered := old.numbered waiting waits
    rw [requests, List.getElem?_append_left (List.getElem?_eq_some_iff.mp numbered).1, numbered]
      at ownIs
    rw [newest] at otherIs
    cases ownIs
    cases otherIs
    exact group.symm

theorem Coherent.nothingLost_iff {state : State} (coherent : Coherent state) :
    state.NothingLost ↔ ∀ pair ∈ state.replaced, state.SameGroup pair.1 pair.2 := by
  constructor
  · exact NothingLost.replaced
  · intro replaced
    refine ⟨?_, ?_, coherent.accounted, replaced⟩
    · rw [coherent.flag]
      split <;> decide
    · intro idle number request last
      obtain ⟨here, final⟩ := last
      obtain executed | running | waits | ⟨later, lost⟩ :=
        coherent.accounted number (List.getElem?_eq_some_iff.mp here).1
      · exact executed
      · rw [idle.2] at running
        contradiction
      · rw [coherent.nothingWaits idle.1] at waits
        contradiction
      · obtain ⟨before, own, other, ownIs, otherIs, group⟩ := replaced _ lost
        rw [here] at ownIs
        cases ownIs
        exact absurd group (final later other before otherIs)

end State

theorem step_keeps_iff {options : Options} {state : State} {action : Action}
    (coherent : state.Coherent) (kept : state.NothingLost) :
    MeetsOwnGroup state action ↔
      ∀ next, step options state action = some next → next.NothingLost := by
  have next_iff : ∀ next, step options state action = some next →
      (next.NothingLost ↔ ∀ pair ∈ next.replaced, next.SameGroup pair.1 pair.2) :=
    fun next taken => (coherent_step coherent taken).nothingLost_iff
  have unmoved : ∀ next : State, next.requests = state.requests ∧ next.replaced = state.replaced →
      ∀ pair ∈ next.replaced, next.SameGroup pair.1 pair.2 := by
    rintro next ⟨requests, replaced⟩ pair member
    rw [replaced] at member
    obtain ⟨before, own, other, same⟩ := kept.replaced pair member
    refine ⟨before, own, other, ?_⟩
    rw [requests]
    exact same
  cases action with
  | changeProxy request =>
    refine (coherent.replaced_changeProxy kept.replaced request).trans ?_
    refine Iff.trans (next_iff _ rfl).symm ⟨fun lost next taken => ?_, fun all => all _ rfl⟩
    cases taken
    exact lost
  | settle index settlement =>
    refine iff_of_true trivial fun next taken => ?_
    exact (next_iff next taken).mpr (unmoved next (State.settle_frame taken))
  | resume index =>
    refine iff_of_true trivial fun next taken => ?_
    exact (next_iff next taken).mpr (unmoved next (State.resume_frame taken))

/-- Along a run no selection is lost exactly if each request that is made finds none waiting, or
one for its own group. -/
theorem nothing_lost_iff (options : Options) (actions : List Action) :
    Meets (step options) MeetsOwnGroup State.new actions ↔
      ∀ before after state, actions = before ++ after →
        run (step options) State.new before = some state → state.NothingLost := by
  have initially : State.new.NothingLost := by
    rw [State.coherent_new.nothingLost_iff]
    intro pair member
    contradiction
  exact meets_iff_throughout (fun state action next old taken => coherent_step old taken)
    (fun state action coherent kept => step_keeps_iff coherent kept) State.coherent_new initially
    actions

/-- A run in which two groups ask for a node while a third is switched. -/
def threeGroups : List Action :=
  [.changeProxy ⟨"Auto", "tokyo", none, none⟩, .changeProxy ⟨"Media", "paris", none, none⟩,
    .changeProxy ⟨"Games", "seoul", none, none⟩, .settle 0 .resolved, .settle 0 .resolved,
    .resume 0, .settle 0 .resolved, .settle 0 .resolved, .resume 0]

/-- The request for the second group is never carried out. -/
theorem selection_lost : ¬ ∀ (options : Options) (actions : List Action) (state : State),
      run (step options) State.new actions = some state → state.NothingLost := by
  intro all
  have ran : ∃ state, run (step ⟨true, false⟩) State.new threeGroups = some state ∧
      state.Idle ∧ state.executed = [0, 2] ∧ state.requests.length = 3 ∧
      state.requests[1]? = some ⟨"Media", "paris", none, none⟩ ∧
      state.requests[2]? = some ⟨"Games", "seoul", none, none⟩ :=
    ⟨_, rfl, ⟨rfl, rfl⟩, rfl, rfl, rfl, rfl⟩
  obtain ⟨state, ran, idle, executed, length, media, games⟩ := ran
  have done := (all _ _ state ran).executed idle 1 _ ⟨media, ?_⟩
  · rw [executed] at done
    contradiction
  · intro later other after found
    have inside := (List.getElem?_eq_some_iff.mp found).1
    obtain rfl : later = 2 := by omega
    rw [games] at found
    cases found
    decide

/-! ## The order of the changes -/

def Call.switches : Call → Bool
  | .unfixedProxy _ | .selectNodeForGroup _ _ => true
  | _ => false

def Progress.runs : Progress → Bool
  | .settled _ => false
  | _ => true

namespace State

/-- The numbers of the requests whose `executeChange` has begun. -/
def started (state : State) : List Nat :=
  state.executed ++ (state.loops.filter (·.progress.runs)).map (·.current.number)

/-- The requests that have begun, and behind them the one that waits. -/
def turns (state : State) : List Nat :=
  state.started ++ state.pendingRequestRef.toList.map (·.number)

/-- The requests are carried out in order, each by one switch, and the last one of all has had its
turn or waits for it. -/
structure InOrder (state : State) : Prop where
  increasing : state.turns.Pairwise (· < ·)
  latest : state.turns.getLast? = (List.range state.requests.length).getLast?
  switched : state.calls.filter Call.switches = (state.started.filterMap fun number =>
    state.requests[number]?).map ProxyChangeRequest.switchCall

variable {state : State}

theorem InOrder.lt (old : InOrder state) {number : Nat} (inside : number ∈ state.turns) :
    number < state.requests.length := by
  obtain ⟨rest, last, turns⟩ := (List.eq_nil_or_concat state.turns).resolve_left
    (List.ne_nil_of_mem inside)
  have increasing := old.increasing
  have latest := old.latest
  rw [turns, List.concat_eq_append] at inside increasing latest
  rw [List.getLast?_concat] at latest
  have below := List.mem_range.mp (List.mem_of_getLast? latest.symm)
  obtain earlier | same := (List.mem_append.mp inside).imp_right List.mem_singleton.mp
  · have before := (List.pairwise_append.mp increasing).2.2 number earlier last (by simp)
    exact before.trans below
  · exact same ▸ below

theorem InOrder.congr {next : State} (old : InOrder state) (started : next.started = state.started)
    (pending : next.pendingRequestRef = state.pendingRequestRef)
    (requests : next.requests = state.requests)
    (calls : next.calls.filter Call.switches = state.calls.filter Call.switches) :
    InOrder next := by
  have turns : next.turns = state.turns := by rw [turns, started, pending, State.turns]
  exact ⟨turns ▸ old.increasing, by rw [turns, requests]; exact old.latest, by
    rw [calls, started, requests]; exact old.switched⟩

theorem InOrder.takePending (old : InOrder state) (numbered : ∀ waiting ∈ state.pendingRequestRef,
    state.requests[waiting.number]? = some waiting.request) : InOrder state.takePending := by
  unfold State.takePending
  split
  · exact old.congr rfl rfl rfl rfl
  · rename_i waiting here
    have own := numbered waiting here
    have begun : (State.started { state with
        pendingRequestRef := none
        loops := state.loops ++ [⟨waiting, .switching⟩]
        calls := state.calls ++ [waiting.request.switchCall] }) =
        state.started ++ [waiting.number] := by
      simp [State.started, Progress.runs]
    have turns : state.turns = state.started ++ [waiting.number] := by simp [State.turns, here]
    have switch : waiting.request.switchCall.switches = true := by
      unfold ProxyChangeRequest.switchCall
      split <;> rfl
    constructor
    · rw [State.turns, begun, ← turns]
      simpa using old.increasing
    · rw [State.turns, begun, ← turns]
      simpa using old.latest
    · rw [begun]
      simp [List.filter_append, old.switched, switch, own]

theorem InOrder.setPending (old : InOrder state) (request : ProxyChangeRequest) :
    InOrder (state.setPending request) := by
  have bound : ∀ number ∈ state.started, number < state.requests.length := fun number begun =>
    old.lt (List.mem_append_left _ begun)
  have turns : (state.setPending request).turns = state.started ++ [state.requests.length] := rfl
  constructor
  · rw [turns]
    refine List.pairwise_append.mpr ⟨(List.pairwise_append.mp old.increasing).1,
      List.pairwise_singleton _ _, fun number begun last is_ => ?_⟩
    exact List.mem_singleton.mp is_ ▸ bound number begun
  · rw [turns, State.setPending, List.length_append, List.length_singleton, List.range_succ,
      List.getLast?_concat, List.getLast?_concat]
  · refine old.switched.trans (congrArg _ (List.filterMap_congr fun number begun => ?_))
    exact (List.getElem?_append_left (bound number begun)).symm

theorem InOrder.flushChangeQueue (old : InOrder state)
    (numbered : ∀ waiting ∈ state.pendingRequestRef,
      state.requests[waiting.number]? = some waiting.request) : InOrder state.flushChangeQueue := by
  unfold State.flushChangeQueue
  split
  · exact old
  · have busy : InOrder { state with isProcessingRef := true } := old.congr rfl rfl rfl rfl
    exact busy.takePending numbered

theorem Coherent.loops_eq (coherent : Coherent state) {index : Nat} {loop : Loop}
    (here : state.loops[index]? = some loop) : state.loops = [loop] ∧ index = 0 := by
  have flag := coherent.flag
  split at flag
  · obtain ⟨only, one⟩ := List.length_eq_one_iff.mp flag
    rw [one] at here ⊢
    obtain ⟨inside, rfl⟩ := List.getElem?_eq_some_iff.mp here
    obtain rfl : index = 0 := by simpa using inside
    exact ⟨rfl, rfl⟩
  · rw [List.length_eq_zero_iff.mp flag] at here
    contradiction

theorem InOrder.settle (old : InOrder state) (coherent : Coherent state) {options : Options}
    {next : State} {index : Nat} {settlement : Settlement}
    (taken : state.settle options index settlement = some next) : InOrder next := by
  have left (current : Numbered) (progress : Progress) (rejected : Bool) (calls : List Call)
      (here : state.loops[index]? = some ⟨current, progress⟩)
      (runs : progress.runs = true) (others : calls.filter Call.switches = []) :
      InOrder (state.leave index current rejected calls) := by
    obtain ⟨one, rfl⟩ := coherent.loops_eq here
    refine old.congr ?_ rfl rfl ?_
    · have settled : (Progress.settled rejected).runs = false := rfl
      simp [State.started, State.leave, one, runs, settled]
    · rw [State.leave, List.filter_append, others, List.append_nil]
  unfold State.settle at taken
  split at taken
  · rename_i current here
    cases taken
    obtain ⟨one, rfl⟩ := coherent.loops_eq here
    refine old.congr ?_ rfl rfl ?_
    · simp [State.started, one, Progress.runs]
    · rw [List.filter_append, ProxyChangeRequest.recordCalls]
      split <;> simp [Call.switches]
  · rename_i current here
    cases taken
    refine left _ _ _ _ here rfl ?_
    unfold ProxyChangeRequest.cleanupCalls
    split
    · split <;> rfl
    · rfl
  · contradiction
  · rename_i current progress throws unsettled here
    cases taken
    refine left _ _ _ _ here ?_ rfl
    cases progress with
    | settled rejected => exact absurd rfl (unsettled rejected)
    | switching | recording => rfl
  · contradiction

theorem InOrder.resume (old : InOrder state) (coherent : Coherent state) {next : State}
    {index : Nat} (taken : state.resume index = some next) : InOrder next := by
  have erased (current : Numbered) (rejected busy : Bool)
      (here : state.loops[index]? = some ⟨current, .settled rejected⟩) :
      InOrder { state with loops := state.loops.eraseIdx index, isProcessingRef := busy } := by
    obtain ⟨one, rfl⟩ := coherent.loops_eq here
    refine old.congr ?_ rfl rfl rfl
    simp [State.started, one, Progress.runs]
  unfold State.resume at taken
  split at taken
  · rename_i current here
    cases taken
    exact (erased _ _ state.isProcessingRef here).takePending coherent.numbered
  · rename_i current here
    cases taken
    dsimp only
    split
    · exact (erased _ _ false here).flushChangeQueue coherent.numbered
    · exact erased _ _ false here
  · contradiction

end State

/-- In every run the changes happen in the order in which they were asked for, each by one switch,
and one at a time. Once none is under way the last one that was asked for has been carried out. -/
theorem changes_in_order (options : Options) {state : State}
    (reached : Reachable (step options) State.new state) :
    state.turns.Pairwise (· < ·) ∧ state.loops.length ≤ 1 ∧
      state.calls.filter Call.switches = (state.started.filterMap fun number =>
        state.requests[number]?).map ProxyChangeRequest.switchCall ∧
      (state.Idle → state.executed.getLast? = (List.range state.requests.length).getLast?) := by
  have all : state.Coherent ∧ state.InOrder := by
    refine @Reachable.invariant _ _ _ (fun state => state.Coherent ∧ state.InOrder) _ _ reached
      ⟨State.coherent_new, List.Pairwise.nil, rfl, rfl⟩ fun before action after old taken => ?_
    refine ⟨coherent_step old.1 taken, ?_⟩
    cases action with
    | changeProxy request =>
      cases taken
      exact (old.2.setPending request).flushChangeQueue (before.numbered_setPending request)
    | settle index settlement => exact old.2.settle old.1 taken
    | resume index => exact old.2.resume old.1 taken
  obtain ⟨coherent, inOrder⟩ := all
  refine ⟨inOrder.increasing, ?_, inOrder.switched, fun idle => ?_⟩
  · rw [coherent.flag]
    split <;> omega
  · have latest := inOrder.latest
    rw [State.turns, State.started, idle.2, coherent.nothingWaits idle.1] at latest
    simpa using latest

theorem changes_in_order_threeGroups :
    let state := (run (step ⟨true, false⟩) State.new threeGroups).get (by decide)
    state.executed.getLast? = some 2 := by
  intro state
  have reached : Reachable (step ⟨true, false⟩) State.new state :=
    ⟨threeGroups, (Option.some_get _).symm⟩
  exact (changes_in_order _ reached).2.2.2 ⟨rfl, rfl⟩

end ClashVerge.ProxySelection
