import ClashVerge.Draft.Modify

/-!
# Calls of `with_data_modify` are linearizable

The waiter queue lists exactly the parked calls. The flag `data_modifying` is set exactly while one
call stands between its compare-exchange and its store. A call's snapshot `Arc` is the committed one
exactly while nothing has replaced the committed value since: the snapshot keeps its allocation
alive, so no later `Arc` shares its address.
-/

namespace ClashVerge.Draft.Modify

open ClashVerge.Draft Transition

variable {Task T E R : Type} [DecidableEq Task] {state next : State Task T E R}

@[simp] theorem setPhase_self (state : State Task T E R) (task : Task) (phase : Phase T E R) :
    (state.setPhase task phase).phase task = phase := by
  simp [State.setPhase]

@[simp] theorem setPhase_other (state : State Task T E R) (task other : Task)
    (phase : Phase T E R) (different : other ≠ task) :
    (state.setPhase task phase).phase other = state.phase other := by
  simp [State.setPhase, different]

@[simp] theorem setPhase_waiters (state : State Task T E R) (task : Task) (phase : Phase T E R) :
    (state.setPhase task phase).waiters = state.waiters := rfl

@[simp] theorem setPhase_data (state : State Task T E R) (task : Task) (phase : Phase T E R) :
    (state.setPhase task phase).data = state.data := rfl

@[simp] theorem setPhase_commits (state : State Task T E R) (task : Task) (phase : Phase T E R) :
    (state.setPhase task phase).commits = state.commits := rfl

@[simp] theorem setPhase_notified (state : State Task T E R) (task : Task) (phase : Phase T E R) :
    (state.setPhase task phase).notified = state.notified := rfl

@[simp] theorem setPhase_dataModifying (state : State Task T E R) (task : Task)
    (phase : Phase T E R) :
    (state.setPhase task phase).dataModifying = state.dataModifying := rfl

theorem notifyOne_stored (empty : state.waiters = []) :
    state.notifyOne = { state with notified := true } := by
  simp [State.notifyOne, empty]

theorem notifyOne_woken {first : Task} {rest : List Task} (waiting : state.waiters = first :: rest) :
    state.notifyOne = { state with waiters := rest }.setPhase first .woken := by
  simp [State.notifyOne, waiting]

theorem notifyOne_frame (state : State Task T E R) : state.notifyOne.data = state.data ∧
      state.notifyOne.dataModifying = state.dataModifying ∧
      state.notifyOne.commits = state.commits ∧ state.notifyOne.seen = state.seen := by
  cases waiting : state.waiters with
  | nil =>
    rw [notifyOne_stored waiting]
    exact ⟨rfl, rfl, rfl, rfl⟩
  | cons first rest =>
    rw [notifyOne_woken waiting]
    exact ⟨rfl, rfl, rfl, rfl⟩

/-- The waiter queue lists each parked call once. -/
structure Queued (state : State Task T E R) : Prop where
  parked : ∀ task, task ∈ state.waiters ↔ state.phase task = .parked
  nodup : state.waiters.Nodup

namespace Queued

theorem setPhase (queued : Queued state) {base : State Task T E R} {task : Task}
    {phase : Phase T E R} (before : state.phase task ≠ .parked) (after : phase ≠ .parked)
    (waiters : base.waiters = state.waiters := by rfl)
    (phases : base.phase = state.phase := by rfl) : Queued (base.setPhase task phase) := by
  refine ⟨?_, by simpa [waiters] using queued.nodup⟩
  intro other
  by_cases same : other = task
  · subst other
    simp [waiters, queued.parked, before, after]
  · simp [waiters, phases, queued.parked, same]

theorem returned (queued : Queued state) (task : Task) (outcome : Outcome E R)
    (unparked : state.phase task ≠ .parked) :
    Queued (state.setPhase task (.returned outcome)) :=
  queued.setPhase unparked (by simp)

theorem notifyOne (queued : Queued state) : Queued state.notifyOne := by
  cases waiting : state.waiters with
  | nil =>
    rw [notifyOne_stored waiting]
    exact ⟨queued.parked, queued.nodup⟩
  | cons first rest =>
    rw [notifyOne_woken waiting]
    have distinct : first ∉ rest ∧ rest.Nodup := by
      simpa only [waiting, List.nodup_cons] using queued.nodup
    refine ⟨?_, distinct.2⟩
    intro other
    by_cases same : other = first
    · subst other
      simp [distinct.1]
    · have listed := queued.parked other
      simp only [waiting, List.mem_cons, same, false_or] at listed
      simpa [same] using listed

/-- Every step keeps the queue exact. Only parking, waking and dropping a parked call
touch it; other steps move a call between phases that are not parked. -/
theorem moves {action : Action Task T E R} (queued : Queued state)
    (moved : Moves state action next) : Queued next := by
  cases moved with
  | start task resting =>
    refine queued.setPhase ?_ (by simp [enterLoop, dataModifyFastRetryYields])
    intro parked
    simp [parked, Phase.Resting] at resting
  | enter task seeking free =>
    refine queued.setPhase ?_ (by simp)
    intro parked
    simp [parked, Phase.Seeking] at seeking
  | yield task left at_ | refuse task at_ | wake task at_ | finish task body original at_
  | dropYielded task left at_ | dropRunning task original at_ | consume task at_
  | snapshot task at_ | fail task address original body at_ | reject task address original body at_
  | replace task address original body at_ | release task outcome at_ =>
    exact queued.setPhase (by simp [at_]) (by simp)
  | again task left at_ =>
    refine queued.setPhase (by simp [at_]) ?_
    cases left <;> simp [enterLoop]
  | park task at_ empty =>
    have absent : task ∉ state.waiters := by simp [queued.parked, at_]
    refine ⟨?_, ?_⟩
    · intro other
      by_cases same : other = task
      · subst other
        simp
      · simp [same, queued.parked]
    · exact queued.nodup.append (List.nodup_singleton task) (by simpa using absent)
  | notify task outcome at_ | dropWoken task at_ =>
    exact (queued.setPhase (by simp [at_]) (by simp)).notifyOne
  | dropParked task at_ =>
    refine ⟨?_, queued.nodup.erase task⟩
    intro other
    by_cases same : other = task
    · subst other
      simp [queued.nodup.mem_erase_iff]
    · simp [same, queued.nodup.mem_erase_iff, queued.parked]
  | editDraft edit address editable | applyDraft draft staged | discard =>
    exact ⟨queued.parked, queued.nodup⟩
  | applyNothing empty => exact queued

end Queued

theorem notifyOne_phase (queued : Queued state) (other : Task) :
    state.notifyOne.phase other = state.phase other ∨
      state.phase other = .parked ∧ state.notifyOne.phase other = .woken := by
  cases waiting : state.waiters with
  | nil =>
    rw [notifyOne_stored waiting]
    exact .inl rfl
  | cons first rest =>
    rw [notifyOne_woken waiting]
    by_cases equal : other = first
    · subst other
      exact .inr ⟨(queued.parked first).mp (by simp [waiting]), by simp⟩
    · exact .inl (by simp [equal])

theorem moves_phase_other {action : Action Task T E R} (queued : Queued state)
    (moved : Moves state action next) (other : Task) (elsewhere : action.actor ≠ some other) :
    next.phase other = state.phase other ∨
      state.phase other = .parked ∧ next.phase other = .woken := by
  have different : ∀ {task : Task}, action.actor = some task → other ≠ task := by
    intro task acts equal
    exact elsewhere (equal ▸ acts)
  cases moved with
  | notify task outcome at_ =>
    have frame := notifyOne_phase
      (queued.returned task outcome (by simp [at_])) other
    simpa [different rfl] using frame
  | dropWoken task at_ =>
    have frame := notifyOne_phase
      (queued.returned task .dropped (by simp [at_])) other
    simpa [different rfl] using frame
  | editDraft | applyNothing | applyDraft | discard => exact .inl rfl
  | _ => exact .inl (setPhase_other _ _ _ _ (different rfl))

/-- The flag is set exactly while one call stands in its critical section. -/
structure Exclusive (state : State Task T E R) : Prop where
  one : ∀ left right, (state.phase left).Critical → (state.phase right).Critical → left = right
  flag : state.dataModifying = true ↔ ∃ task, (state.phase task).Critical

namespace Exclusive

omit [DecidableEq Task] in
theorem of_same (exclusive : Exclusive state) (flag : next.dataModifying = state.dataModifying)
    (phases : ∀ task, (next.phase task).Critical ↔ (state.phase task).Critical) :
    Exclusive next := by
  refine ⟨?_, ?_⟩
  · intro left right atLeft atRight
    exact exclusive.one left right ((phases left).mp atLeft) ((phases right).mp atRight)
  · rw [flag, exclusive.flag]
    exact exists_congr fun task => (phases task).symm

theorem setPhase (exclusive : Exclusive state) {base : State Task T E R} {task : Task}
    {phase : Phase T E R} (same : phase.Critical ↔ (state.phase task).Critical)
    (flag : base.dataModifying = state.dataModifying := by rfl)
    (phases : base.phase = state.phase := by rfl) : Exclusive (base.setPhase task phase) := by
  refine exclusive.of_same flag ?_
  intro other
  by_cases equal : other = task
  · subst other
    simpa using same
  · simp [equal, phases]

theorem notifyOne (exclusive : Exclusive state) (queued : Queued state) :
    Exclusive state.notifyOne := by
  refine exclusive.of_same (notifyOne_frame state).2.1 ?_
  intro other
  cases waiting : state.waiters with
  | nil => rw [notifyOne_stored waiting]
  | cons first rest =>
    rw [notifyOne_woken waiting]
    by_cases equal : other = first
    · subst other
      have parked : state.phase first = .parked := (queued.parked first).mp (by simp [waiting])
      simp [parked, Phase.Critical]
    · simp [equal]

/-- Every step keeps exclusion. A successful compare-exchange found the flag clear, so no
call was inside; the store that clears it is made by the only call inside. -/
theorem moves {action : Action Task T E R} (exclusive : Exclusive state) (queued : Queued state)
    (moved : Moves state action next) : Exclusive next := by
  cases moved with
  | start task resting =>
    refine exclusive.setPhase ?_
    cases at_ : state.phase task <;>
      simp_all [Phase.Resting, Phase.Critical, enterLoop, dataModifyFastRetryYields]
  | enter task seeking free =>
    have outside : ∀ other, ¬ (state.phase other).Critical := by
      intro other inside
      have held : state.dataModifying = true := exclusive.flag.mpr ⟨other, inside⟩
      simp [free] at held
    have only : ∀ other, (({ state with dataModifying := true }.setPhase task
        Phase.admitted).phase other).Critical → other = task := by
      intro other inside
      by_contra different
      rw [setPhase_other _ _ _ _ different] at inside
      exact outside other inside
    refine ⟨?_, ?_⟩
    · intro left right atLeft atRight
      exact (only left atLeft).trans (only right atRight).symm
    · simp only [setPhase_dataModifying, true_iff]
      exact ⟨task, by simp [Phase.Critical]⟩
  | yield task left at_ | refuse task at_ | wake task at_ | finish task body original at_
  | dropYielded task left at_ | dropRunning task original at_ | consume task at_ | park task at_
  | snapshot task at_ | fail task address original body at_ | reject task address original body at_
  | replace task address original body at_ | dropParked task at_ =>
    exact exclusive.setPhase (by simp [at_, Phase.Critical])
  | again task left at_ =>
    refine exclusive.setPhase ?_
    cases left <;> simp [at_, Phase.Critical, enterLoop]
  | release task outcome at_ =>
    have inside : (state.phase task).Critical := by simp [at_, Phase.Critical]
    have outside : ∀ other, ¬ (({ state with dataModifying := false }.setPhase task
        (Phase.notifying outcome)).phase other).Critical := by
      intro other
      by_cases equal : other = task
      · subst other
        simp [Phase.Critical]
      · intro still
        rw [setPhase_other _ _ _ _ equal] at still
        exact equal (exclusive.one other task still inside)
    refine ⟨fun left _ atLeft _ => absurd atLeft (outside left), ?_⟩
    simp only [setPhase_dataModifying, Bool.false_eq_true, false_iff]
    rintro ⟨other, still⟩
    exact outside other still
  | notify task outcome at_ | dropWoken task at_ =>
    exact (exclusive.setPhase (by simp [at_, Phase.Critical])).notifyOne
      (queued.setPhase (by simp [at_]) (by simp))
  | editDraft edit address editable | applyDraft draft staged | discard =>
    exact ⟨exclusive.one, exclusive.flag⟩
  | applyNothing empty => exact exclusive

end Exclusive

/-- What a call's snapshot `Arc` says about the committed value. `current` and `moved` make
the pointer check exact; `apart` keeps the staged draft from ever sharing a live address. -/
structure Pointers (state : State Task T E R) : Prop where
  bound : ∀ task original, (state.phase task).original = some original →
    state.seen task ≤ state.commits.length
  current : ∀ task original, (state.phase task).original = some original →
    state.seen task = state.commits.length → state.data.committed = original
  moved : ∀ task original, (state.phase task).original = some original →
    state.seen task < state.commits.length → state.data.committed.address ≠ original.address
  others : ∀ task original, (state.phase task).original = some original →
    ∀ commit ∈ state.commits.drop (state.seen task), commit = .draft
  apart : ∀ draft, state.data.draft = some draft →
    draft.address ≠ state.data.committed.address ∧
      ∀ task original, (state.phase task).original = some original →
        draft.address ≠ original.address

namespace Pointers

omit [DecidableEq Task] in
/-- Steps that keep the data, the recorded commits and each call's snapshot, or forget a
snapshot, keep the pointer facts. -/
theorem of_frame (pointers : Pointers state) (data : next.data = state.data)
    (commits : next.commits = state.commits) (seen : next.seen = state.seen)
    (originals : ∀ task original, (next.phase task).original = some original →
      (state.phase task).original = some original) : Pointers next := by
  refine ⟨?_, ?_, ?_, ?_, ?_⟩
  · intro task original held
    rw [commits, seen]
    exact pointers.bound task original (originals task original held)
  · intro task original held
    rw [commits, seen, data]
    exact pointers.current task original (originals task original held)
  · intro task original held
    rw [commits, seen, data]
    exact pointers.moved task original (originals task original held)
  · intro task original held
    rw [commits, seen]
    exact pointers.others task original (originals task original held)
  · intro draft staged
    rw [data] at staged ⊢
    obtain ⟨fromCommitted, fromOriginals⟩ := pointers.apart draft staged
    exact ⟨fromCommitted, fun task original held =>
      fromOriginals task original (originals task original held)⟩

theorem setPhase (pointers : Pointers state) {base : State Task T E R} {task : Task}
    {phase : Phase T E R} (forgets : ∀ original, phase.original = some original →
      (state.phase task).original = some original) (data : base.data = state.data := by rfl)
    (commits : base.commits = state.commits := by rfl) (seen : base.seen = state.seen := by rfl)
    (phases : base.phase = state.phase := by rfl) : Pointers (base.setPhase task phase) := by
  refine pointers.of_frame data commits seen ?_
  intro other original held
  by_cases equal : other = task
  · subst other
    exact forgets original (by simpa using held)
  · simpa [equal, phases] using held

theorem notifyOne (pointers : Pointers state) : Pointers state.notifyOne := by
  obtain ⟨data, _, commits, seen⟩ := notifyOne_frame state
  refine pointers.of_frame data commits seen ?_
  intro other original held
  cases waiting : state.waiters with
  | nil => simpa [notifyOne_stored waiting] using held
  | cons first rest =>
    rw [notifyOne_woken waiting] at held
    by_cases equal : other = first
    · subst other
      simp [Phase.original] at held
    · simpa [equal] using held

/-- A snapshot shares the committed `Arc`; a replacement is made by the only call inside the
critical section; a committed draft moves the committed pointer away from every snapshot. -/
theorem moves {action : Action Task T E R} (pointers : Pointers state)
    (exclusive : Exclusive state) (moved : Moves state action next) : Pointers next := by
  cases moved with
  | start task resting =>
    exact pointers.setPhase (by simp [enterLoop, dataModifyFastRetryYields, Phase.original])
  | yield task left at_ | refuse task at_ | wake task at_ | dropYielded task left at_
  | dropRunning task original at_ | enter task | consume task at_ | park task at_
  | fail task address original body at_ | reject task address original body at_
  | release task outcome at_ | dropParked task at_ =>
    exact pointers.setPhase (by simp [Phase.original])
  | again task left at_ => exact pointers.setPhase (by cases left <;> simp [enterLoop, Phase.original])
  | snapshot task at_ =>
    have inside : (state.phase task).Critical := by simp [at_, Phase.Critical]
    have none_other : ∀ other original, other ≠ task →
        (state.phase other).original ≠ some original := by
      intro other original different held
      exact different (exclusive.one other task (Phase.critical_of_original held) inside)
    have only : ∀ other original, (({ state with
        seen := Function.update state.seen task state.commits.length }.setPhase task
          (Phase.running state.data.dataArc)).phase other).original = some original →
        other = task ∧ original = state.data.committed := by
      intro other original held
      by_cases equal : other = task
      · subst other
        have same : state.data.dataArc = original := by simpa [Phase.original] using held
        exact ⟨rfl, same.symm⟩
      · exact absurd (by simpa [equal] using held) (none_other other original equal)
    refine ⟨?_, ?_, ?_, ?_, ?_⟩
    · intro other original held
      obtain ⟨rfl, rfl⟩ := only other original held
      simp [State.setPhase]
    · intro other original held _
      obtain ⟨rfl, rfl⟩ := only other original held
      rfl
    · intro other original held later
      obtain ⟨rfl, rfl⟩ := only other original held
      simp [State.setPhase] at later
    · intro other original held
      obtain ⟨rfl, rfl⟩ := only other original held
      simp [State.setPhase]
    · intro draft staged
      refine ⟨(pointers.apart draft staged).1, ?_⟩
      intro other original held
      obtain ⟨rfl, rfl⟩ := only other original held
      exact (pointers.apart draft staged).1
  | finish task body original at_ =>
    exact pointers.setPhase (by simp [at_, Phase.original])
  | replace task address original body at_ newLocal result succeeded same fresh =>
    have inside : (state.phase task).Critical := by simp [at_, Phase.Critical]
    have none_left : ∀ other snapshot, (({ state with
        data := { state.data with committed := ⟨address, newLocal⟩ }
        commits := state.commits ++ [Commit.modify task] }.setPhase task
          (Phase.releasing (.ok result))).phase other).original ≠ some snapshot := by
      intro other snapshot held
      by_cases equal : other = task
      · subst other
        simp [Phase.original] at held
      · rw [setPhase_other _ _ _ _ equal] at held
        exact equal (exclusive.one other task (Phase.critical_of_original held) inside)
    refine ⟨?_, ?_, ?_, ?_, ?_⟩
    · exact fun other snapshot held => absurd held (none_left other snapshot)
    · exact fun other snapshot held => absurd held (none_left other snapshot)
    · exact fun other snapshot held => absurd held (none_left other snapshot)
    · exact fun other snapshot held => absurd held (none_left other snapshot)
    · intro draft staged
      refine ⟨?_, fun other snapshot held => absurd held (none_left other snapshot)⟩
      intro collides
      exact fresh (.inr (.inl ⟨draft, staged, collides⟩))
  | notify task outcome at_ | dropWoken task at_ =>
    exact (pointers.setPhase (by simp [Phase.original])).notifyOne
  | editDraft edit address editable =>
    refine ⟨pointers.bound, pointers.current, pointers.moved, pointers.others, ?_⟩
    intro draft staged
    have placed : draft.address = address := by
      have same := Option.some.inj staged
      exact same ▸ rfl
    rw [placed]
    rcases editable with ⟨old, held, same⟩ | free
    · exact same ▸ pointers.apart old held
    · refine ⟨fun collides => free (.inl collides.symm), ?_⟩
      intro task original held collides
      exact free (.inr (.inr ⟨task, original, held, collides.symm⟩))
  | applyNothing empty => exact pointers
  | applyDraft draft staged =>
    have away := (pointers.apart draft staged).2
    refine ⟨?_, ?_, ?_, ?_, ?_⟩
    · intro task original held
      have before := pointers.bound task original held
      simp only [List.length_append, List.length_singleton]
      omega
    · intro task original held same
      have before := pointers.bound task original held
      simp only [List.length_append, List.length_singleton] at same
      omega
    · exact fun task original held _ => away task original held
    · intro task original held commit member
      rw [List.drop_append_of_le_length (pointers.bound task original held)] at member
      rcases List.mem_append.mp member with earlier | last
      · exact pointers.others task original held commit earlier
      · simpa using last
    · exact fun other impossible => by simp at impossible
  | discard =>
    refine ⟨pointers.bound, pointers.current, pointers.moved, pointers.others, ?_⟩
    exact fun other impossible => by simp [DraftData.discard] at impossible

end Pointers

/-- How a call ended, from the step that decides it until the slot is used again. -/
def Phase.outcome : Phase T E R → Option (Outcome E R)
  | releasing outcome | notifying outcome | returned outcome => some outcome
  | _ => none

/-- What one step does to the draft and to the calls. `replaced` is the commit point of a successful
call; `rejected` is the exact condition of the optimistic lock; `untouched` says that no other step
of a call reaches the committed value or the draft. -/
structure Contract (state : State Task T E R) (action : Action Task T E R)
    (next : State Task T E R) : Prop where
  recorded : next.commits = state.commits → next.data.committed = state.data.committed
  untouched : ∀ task, action.actor = some task →
    (state.phase task).outcome ≠ none ∨
      (∀ result, (next.phase task).outcome ≠ some (.ok result)) → next.data = state.data
  replaced : ∀ task result, (state.phase task).outcome = none →
    (next.phase task).outcome = some (.ok result) →
    ∃ original body newLocal, state.phase task = .finished original body ∧
      state.commits.drop (state.seen task) = [] ∧
      body state.data.committed.value = .ok (newLocal, result) ∧
      next.data.committed.value = newLocal ∧ next.data.draft = state.data.draft ∧
      next.commits = state.commits ++ [Commit.modify task]
  rejected : ∀ task address original body newLocal result, action = .commit task address →
    state.phase task = .finished original body → body original.value = .ok (newLocal, result) →
    ((next.phase task).outcome = some .optimisticLockFailed ↔
      Commit.draft ∈ state.commits.drop (state.seen task))
  settled : ∀ task outcome, (state.phase task).outcome = some outcome → action ≠ .start task →
    (next.phase task).outcome = some outcome

omit [DecidableEq Task] in
/-- The pointer check passes exactly when nothing was committed since the snapshot, and then
the snapshot is the committed `Arc` itself. -/
theorem Pointers.check_exact (pointers : Pointers state) (task : Task) (original : SharedDraft T)
    (held : (state.phase task).original = some original) :
    (state.data.committed.address = original.address ↔
        state.commits.drop (state.seen task) = []) ∧
      (state.data.committed.address = original.address → state.data.committed = original) := by
  have bound := pointers.bound task original held
  rcases Nat.lt_or_ge (state.seen task) state.commits.length with earlier | latest
  · have away := pointers.moved task original held earlier
    refine ⟨⟨fun same => absurd same away, ?_⟩, fun same => absurd same away⟩
    intro nothing
    have short := List.drop_eq_nil_iff.mp nothing
    omega
  · have same : state.data.committed = original := pointers.current task original held (by omega)
    exact ⟨⟨fun _ => List.drop_eq_nil_iff.mpr latest, fun _ => by rw [same]⟩, fun _ => same⟩

variable {action : Action Task T E R}

theorem moves_recorded (moved : Moves state action next)
    (unrecorded : next.commits = state.commits) : next.data.committed = state.data.committed := by
  cases moved with
  | replace task address original body at_ newLocal result succeeded same fresh =>
    exact absurd unrecorded (by simp)
  | applyDraft draft staged => exact absurd unrecorded (by simp)
  | notify task outcome at_ | dropWoken task at_ => rw [(notifyOne_frame _).1]; rfl
  | _ => rfl

variable {task : Task}

theorem moves_untouched (moved : Moves state action next) (acts : action.actor = some task)
    (quiet : (state.phase task).outcome ≠ none ∨
      ∀ result, (next.phase task).outcome ≠ some (.ok result)) : next.data = state.data := by
  cases moved with
  | replace caller address original body at_ newLocal result succeeded same fresh =>
    obtain rfl : caller = task := Option.some.inj acts
    rcases quiet with decided | never
    · simp [at_, Phase.outcome] at decided
    · exact absurd (by simp [Phase.outcome]) (never result)
  | notify caller outcome at_ | dropWoken caller at_ => rw [(notifyOne_frame _).1]; rfl
  | editDraft | applyNothing | applyDraft | discard => simp [Action.actor] at acts
  | _ => rfl

variable {original : SharedDraft T}

theorem moves_holding (queued : Queued state) (moved : Moves state action next)
    {phase : Phase T E R} (now : next.phase task = phase) (holds : phase.original ≠ none) :
    state.phase task = phase ∨ action = .snapshot task ∧ phase = .running state.data.dataArc ∨
      ∃ original body, action = .finish task body ∧ phase = .finished original body := by
  subst now
  by_cases acts : action.actor = some task
  · cases moved with
    | snapshot caller | finish caller =>
      obtain rfl : caller = task := Option.some.inj acts
      simp
    | notify caller outcome at_ =>
      obtain rfl : caller = task := Option.some.inj acts
      have frame := notifyOne_phase (queued.returned caller outcome (by simp [at_])) caller
      exact absurd (by rcases frame with same | ⟨-, woken⟩ <;> simp [*, Phase.original]) holds
    | dropWoken caller at_ =>
      obtain rfl : caller = task := Option.some.inj acts
      have frame := notifyOne_phase (queued.returned caller .dropped (by simp [at_])) caller
      exact absurd (by rcases frame with same | ⟨-, woken⟩ <;> simp [*, Phase.original]) holds
    | again caller left at_ =>
      obtain rfl : caller = task := Option.some.inj acts
      cases left <;> simp [enterLoop, Phase.original] at holds
    | editDraft | applyNothing | applyDraft | discard => simp [Action.actor] at acts
    | _ =>
      simp only [Action.actor, Option.some.injEq] at acts
      subst acts
      simp [enterLoop, dataModifyFastRetryYields, Phase.original] at holds
  · rcases moves_phase_other queued moved task acts with same | ⟨_, woken⟩
    · exact .inl same.symm
    · simp [woken, Phase.original] at holds

theorem moves_finished (queued : Queued state) (moved : Moves state action next)
    {body : T → Except E (T × R)} (ends : next.phase task = .finished original body) :
    state.phase task = .finished original body ∨ action = .finish task body := by
  simpa using moves_holding queued moved ends (by simp [Phase.original])

theorem moves_running (queued : Queued state) (moved : Moves state action next)
    (runs : next.phase task = .running original) :
    state.phase task = .running original ∨ action = .snapshot task := by
  have held := moves_holding queued moved runs (by simp [Phase.original])
  simp only [reduceCtorEq, and_false, exists_false, or_false] at held
  exact held.imp_right And.left

theorem moves_original (queued : Queued state) (moved : Moves state action next)
    (held : (next.phase task).original = some original) :
    (state.phase task).original = some original ∨
      action = .snapshot task ∧ original = state.data.committed := by
  cases at_ : next.phase task with
  | running snapshot =>
    obtain rfl : snapshot = original := by simpa [at_, Phase.original] using held
    rcases moves_running queued moved at_ with before | rfl
    · exact .inl (by simp [before, Phase.original])
    · cases moved with
      | snapshot _ admitted =>
        exact .inr ⟨rfl, by simpa [DraftData.dataArc, eq_comm] using at_⟩
  | finished snapshot body =>
    obtain rfl : snapshot = original := by simpa [at_, Phase.original] using held
    rcases moves_finished queued moved at_ with before | rfl
    · exact .inl (by simp [before, Phase.original])
    · cases moved with
      | finish _ _ running at_running =>
        obtain rfl : running = snapshot := by simpa using at_
        exact .inl (by simp [at_running, Phase.original])
  | _ => simp [at_, Phase.original] at held

theorem moves_finish {body : T → Except E (T × R)} (moved : Moves state (.finish task body) next) :
    ∃ original, state.phase task = .running original ∧
      next = state.setPhase task (.finished original body) := by
  cases moved with
  | finish _ _ original at_ => exact ⟨original, at_, rfl⟩

theorem moves_running_stays (queued : Queued state) (moved : Moves state action next)
    (runs : state.phase task = .running original)
    (unfinished : ∀ body, action ≠ .finish task body) (kept : action ≠ .drop task) :
    next.phase task = .running original := by
  by_cases acts : action.actor = some task
  · cases moved with
    | finish caller body =>
      obtain rfl : caller = task := Option.some.inj acts
      exact absurd rfl (unfinished body)
    | dropYielded caller | dropParked caller | dropWoken caller | dropRunning caller =>
      obtain rfl : caller = task := Option.some.inj acts
      exact absurd rfl kept
    | editDraft | applyNothing | applyDraft | discard => simp [Action.actor] at acts
    | _ => simp_all [Action.actor, Phase.Resting, Phase.Seeking]
  · rcases moves_phase_other queued moved task acts with same | ⟨parked, _⟩
    · exact same ▸ runs
    · simp [runs] at parked

theorem moves_committed (moved : Moves state action next) :
    next.data.committed = state.data.committed ∨
      (∃ task address original body newLocal result, action = .commit task address ∧
        state.phase task = .finished original body ∧
        body original.value = .ok (newLocal, result) ∧
        next.data.committed = ⟨address, newLocal⟩ ∧
        state.data.committed.address = original.address) ∨
      action = .apply ∧ ∃ draft, state.data.draft = some draft ∧ next.data.committed = draft := by
  cases moved with
  | replace task address original body at_ newLocal result succeeded same fresh =>
    exact .inr (.inl ⟨task, address, original, body, newLocal, result, rfl, at_, succeeded, rfl, same⟩)
  | applyDraft draft staged => exact .inr (.inr ⟨rfl, draft, staged, rfl⟩)
  | notify task outcome at_ | dropWoken task at_ =>
    exact .inl (by rw [(notifyOne_frame _).1]; rfl)
  | _ => exact .inl rfl

theorem Pointers.moves_exchanged (pointers : Pointers state) (moved : Moves state action next) :
    next.data.committed = state.data.committed ∨
      (∃ task address original body newLocal result, action = .commit task address ∧
        state.phase task = .finished original body ∧
        body state.data.committed.value = .ok (newLocal, result) ∧
        next.data.committed = ⟨address, newLocal⟩) ∨
      action = .apply := by
  refine (moves_committed moved).imp_right (.imp ?_ And.left)
  rintro ⟨task, address, original, body, newLocal, result, rfl, at_, succeeded, after, same⟩
  have held : (state.phase task).original = some original := by simp [at_, Phase.original]
  have equal := (pointers.check_exact task original held).2 same
  exact ⟨task, address, original, body, newLocal, result, rfl, at_, equal ▸ succeeded, after⟩

theorem moves_start (moved : Moves state (.start task) next) :
    next.data = state.data ∧ next.phase task = enterLoop dataModifyFastRetryYields := by
  cases moved
  exact ⟨rfl, setPhase_self _ _ _⟩

theorem moves_editDraft {edit : T → T} {address : Nat}
    (moved : Moves state (.editDraft edit address) next) :
    next.data = state.data.editDraft edit address := by
  cases moved
  rfl

theorem moves_discard (moved : Moves state .discard next) : next.data = state.data.discard := by
  cases moved
  rfl

theorem moves_apply (moved : Moves state .apply next) : next.data.draft = none := by
  cases moved with
  | applyNothing empty => exact empty
  | applyDraft draft staged => rfl

theorem moves_draft (moved : Moves state action next)
    (acts : action.actor ≠ none) : next.data.draft = state.data.draft := by
  cases moved with
  | notify task outcome at_ | dropWoken task at_ => rw [(notifyOne_frame _).1]; rfl
  | editDraft | applyNothing | applyDraft | discard => simp [Action.actor] at acts
  | _ => rfl

/-- A call ends `Ok` at its replacement step only. There the snapshot is the committed value,
nothing was committed since it was taken, and the draft stays. -/
theorem moves_replaced {result : R}
    (queued : Queued state) (pointers : Pointers state) (moved : Moves state action next)
    (undecided : (state.phase task).outcome = none)
    (succeeds : (next.phase task).outcome = some (.ok result)) :
    ∃ original body newLocal, state.phase task = .finished original body ∧
      state.commits.drop (state.seen task) = [] ∧
      body state.data.committed.value = .ok (newLocal, result) ∧
      next.data.committed.value = newLocal ∧ next.data.draft = state.data.draft ∧
      next.commits = state.commits ++ [Commit.modify task] := by
  have acts : action.actor = some task := by
    by_contra elsewhere
    rcases moves_phase_other queued moved task elsewhere with same | ⟨_, woken⟩
    · rw [same, undecided] at succeeds
      simp at succeeds
    · simp [woken, Phase.outcome] at succeeds
  cases moved with
  | replace caller address original body at_ newLocal value succeeded same fresh =>
    obtain rfl : caller = task := Option.some.inj acts
    obtain ⟨check, equal⟩ := pointers.check_exact caller original
      (by simp [at_, Phase.original])
    obtain rfl : value = result := by simpa [Phase.outcome] using succeeds
    exact ⟨original, body, newLocal, at_, check.mp same, by rw [equal same]; exact succeeded,
      rfl, rfl, rfl⟩
  | notify caller outcome at_ | release caller outcome at_ =>
    obtain rfl : caller = task := Option.some.inj acts
    simp [at_, Phase.outcome] at undecided
  | dropWoken caller at_ =>
    obtain rfl : caller = task := Option.some.inj acts
    have frame := notifyOne_phase (queued.returned caller .dropped (by simp [at_])) caller
    simp only [setPhase_self, reduceCtorEq, false_and, or_false] at frame
    simp [frame, Phase.outcome] at succeeds
  | again caller left at_ =>
    obtain rfl : caller = task := Option.some.inj acts
    cases left <;> simp [enterLoop, Phase.outcome] at succeeds
  | editDraft | applyNothing | applyDraft | discard => simp [Action.actor] at acts
  | _ =>
    simp only [Action.actor, Option.some.injEq] at acts
    subst acts
    simp [enterLoop, dataModifyFastRetryYields, Phase.outcome] at succeeds

theorem moves_rejected {address : Nat}
    {body : T → Except E (T × R)} {newLocal : T} {result : R} (pointers : Pointers state)
    (moved : Moves state (.commit task address) next)
    (at_ : state.phase task = .finished original body)
    (succeeded : body original.value = .ok (newLocal, result)) :
    (next.phase task).outcome = some .optimisticLockFailed ↔
      Commit.draft ∈ state.commits.drop (state.seen task) := by
  have held : (state.phase task).original = some original := by simp [at_, Phase.original]
  have check := (pointers.check_exact task original held).1
  cases moved with
  | fail _ _ snapshot run finished error failed =>
    obtain ⟨rfl, rfl⟩ : snapshot = original ∧ run = body := by simpa [at_] using finished.symm
    simp [succeeded] at failed
  | reject _ _ snapshot run finished value output ran moved =>
    obtain ⟨rfl, rfl⟩ : snapshot = original ∧ run = body := by simpa [at_] using finished.symm
    refine ⟨fun _ => ?_, fun _ => by simp [Phase.outcome]⟩
    obtain ⟨commit, rest, later⟩ := List.exists_cons_of_ne_nil (mt check.mpr moved)
    have drafted : commit = .draft :=
      pointers.others task snapshot held commit (by simp [later])
    simp [later, drafted]
  | replace _ _ snapshot run finished value output ran same fresh =>
    obtain ⟨rfl, rfl⟩ : snapshot = original ∧ run = body := by simpa [at_] using finished.symm
    simp [Phase.outcome, check.mp same]

theorem moves_settled {outcome : Outcome E R}
    (queued : Queued state) (moved : Moves state action next)
    (decided : (state.phase task).outcome = some outcome) (kept : action ≠ .start task) :
    (next.phase task).outcome = some outcome := by
  by_cases acts : action.actor = some task
  · cases moved with
    | notify caller ended at_ =>
      obtain rfl : caller = task := Option.some.inj acts
      have frame := notifyOne_phase (queued.returned caller ended (by simp [at_])) caller
      simp only [setPhase_self, reduceCtorEq, false_and, or_false] at frame
      rw [frame]
      simpa [at_, Phase.outcome] using decided
    | enter caller seeking free =>
      obtain rfl : caller = task := Option.some.inj acts
      cases at_ : state.phase caller <;> simp_all [Phase.outcome, Phase.Seeking]
    | _ => simp_all [Action.actor, Phase.outcome]
  · rcases moves_phase_other queued moved task acts with same | ⟨parked, _⟩
    · rw [same, decided]
    · simp [parked, Phase.outcome] at decided

theorem moves_contract (queued : Queued state)
    (pointers : Pointers state) (moved : Moves state action next) :
    Contract state action next where
  recorded := moves_recorded moved
  untouched := fun _ acts quiet => moves_untouched moved acts quiet
  replaced := fun _ _ undecided succeeds => moves_replaced queued pointers moved undecided succeeds
  rejected := by
    intro task address original body newLocal result chosen at_ succeeded
    subst action
    exact moves_rejected pointers moved at_ succeeded
  settled := fun _ _ decided kept => moves_settled queued moved decided kept

end ClashVerge.Draft.Modify
