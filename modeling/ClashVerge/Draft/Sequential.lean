import ClashVerge.Draft.Wakeup

/-!
# The draft one operation at a time

The steps of any number of calls come to operations that run alone, one after another. A call of
`with_data_modify` takes effect where its pointer check passes.
-/

namespace ClashVerge.Draft.Modify

open ClashVerge.Draft Transition

variable {Task T E R : Type}

inductive Operation (T E R : Type) where
  | editDraft (edit : T → T)
  | withDataModify (body : T → Except E (T × R))
  | apply
  | discard

def Operation.perform (slot : Slot T) : Operation T E R → Slot T
  | .editDraft edit => slot.editDraft edit
  | .withDataModify body =>
    match body slot.data with
    | .ok (newLocal, _) => { slot with data := newLocal }
    | .error _ => slot
  | .apply => slot.apply
  | .discard => slot.discard

variable [DecidableEq Task] {state next : State Task T E R}

/-- The operation that takes effect in a step. -/
def State.effect (state : State Task T E R) : Action Task T E R → Option (Operation T E R)
  | .commit task _ =>
    match state.phase task with
    | .finished original body =>
      if state.data.committed.address = original.address then some (.withDataModify body) else none
    | _ => none
  | .editDraft edit _ => some (.editDraft edit)
  | .apply => some .apply
  | .discard => some .discard
  | _ => none

theorem Pointers.moves_performs (pointers : Pointers state) {action : Action Task T E R}
    (moved : Moves state action next) :
    next.data.slot = (state.effect action).toList.foldl Operation.perform state.data.slot := by
  cases moved with
  | replace task address original body at_ newLocal result succeeded same fresh =>
    have equal := (pointers.check_exact task original (by simp [at_, Phase.original])).2 same
    rw [← equal] at succeeded
    simp [State.effect, at_, same, Operation.perform, DraftData.slot, succeeded]
  | fail task address original body at_ error failed =>
    by_cases same : state.data.committed.address = original.address
    · have equal := (pointers.check_exact task original (by simp [at_, Phase.original])).2 same
      rw [← equal] at failed
      simp [State.effect, at_, same, Operation.perform, DraftData.slot, failed]
    · simp [State.effect, at_, same]
  | reject task address original body at_ newLocal result succeeded moved =>
    simp [State.effect, at_, moved]
  | notify task outcome at_ | dropWoken task at_ =>
    rw [(notifyOne_frame _).1]
    rfl
  | editDraft edit address editable => exact DraftData.slot_editDraft ..
  | applyNothing empty =>
    have same : state.data.apply = state.data := by simp [DraftData.apply, empty]
    exact (congrArg DraftData.slot same).symm.trans (DraftData.slot_apply state.data)
  | applyDraft draft staged =>
    have same : state.data.apply = ⟨draft, none⟩ := by simp [DraftData.apply, staged]
    exact (congrArg DraftData.slot same).symm.trans (DraftData.slot_apply state.data)
  | _ => rfl

/-- A call that comes to end `Ok` takes effect in that step, with the result it returns. -/
theorem moves_takes_effect {action : Action Task T E R} (queued : Queued state)
    (pointers : Pointers state) (moved : Moves state action next) {task : Task} {result : R}
    (undecided : (state.phase task).outcome = none)
    (succeeds : (next.phase task).outcome = some (.ok result)) :
    ∃ body newLocal, state.effect action = some (.withDataModify body) ∧
      body state.data.slot.data = .ok (newLocal, result) := by
  obtain ⟨original, body, newLocal, at_, -, made, -, -, recorded⟩ :=
    moves_replaced queued pointers moved undecided succeeds
  cases moved with
  | replace caller address _ _ held _ _ _ same _ =>
    obtain rfl : caller = task := by simpa using recorded
    obtain ⟨rfl, rfl⟩ : _ = original ∧ _ = body := by simpa [at_] using held.symm
    exact ⟨_, newLocal, by simp [State.effect, at_, same], made⟩
  | notify | dropWoken =>
    rw [(notifyOne_frame _).2.2.1] at recorded
    simp at recorded
  | _ => simp at recorded

/-- A step, noting the operations that have taken effect. -/
def noting [Fintype Task] (noted : State Task T E R × List (Operation T E R))
    (action : Action Task T E R) : Option (State Task T E R × List (Operation T E R)) :=
  (step noted.1 action).map fun next => (next, noted.2 ++ (noted.1.effect action).toList)

/-- The draft is what the operations make of the initial one, each running alone, and a call that
ends `Ok` ends with the result of one of them. -/
structure Sequential (data : T) (state : State Task T E R) (history : List (Operation T E R)) :
    Prop where
  slot : state.data.slot = history.foldl Operation.perform (Slot.new data)
  replies : ∀ task result, (state.phase task).outcome = some (.ok result) →
    ∃ before body after newLocal, history = before ++ .withDataModify body :: after ∧
      body (before.foldl Operation.perform (Slot.new data)).data = .ok (newLocal, result)

theorem Sequential.moves {data : T} {history : List (Operation T E R)}
    {action : Action Task T E R} (sequential : Sequential data state history)
    (invariant : Invariant state) (moved : Moves state action next) :
    Sequential data next (history ++ (state.effect action).toList) where
  slot := by
    rw [List.foldl_append, ← sequential.slot]
    exact invariant.pointers.moves_performs moved
  replies := by
    intro task result succeeds
    cases decided : (state.phase task).outcome with
    | none =>
      obtain ⟨body, newLocal, effect, made⟩ :=
        moves_takes_effect invariant.queued invariant.pointers moved decided succeeds
      exact ⟨history, body, [], newLocal, by rw [effect]; rfl, sequential.slot ▸ made⟩
    | some outcome =>
      have kept : action ≠ .start task := by
        rintro rfl
        rw [(moves_start moved).2] at succeeds
        exact nomatch succeeds
      have same := (moves_settled invariant.queued moved decided kept).symm.trans succeeds
      obtain ⟨before, body, after, newLocal, rfl, made⟩ :=
        sequential.replies task result (decided.trans same)
      exact ⟨before, body, after ++ (state.effect action).toList, newLocal, by simp, made⟩

end ClashVerge.Draft.Modify
