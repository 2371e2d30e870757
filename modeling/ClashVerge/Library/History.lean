import Mathlib.Data.List.Induction
import Mathlib.Data.List.Perm.Basic

/-!
# Histories of concurrent calls

A history lists when each call was invoked and when it returned. One call precedes another if it had
returned when the other was invoked. The calls that succeeded are serializable if running them one
after the other, in some order that never puts a call before one that precedes it, gives the final
value.

Where each success applies its operation to the value it finds when it returns, the order of the
returns is such an order.
-/

namespace History

variable {Task Operation Value : Type*}

inductive Event (Task Operation : Type*) where
  | invoked (task : Task) (operation : Operation)
  | returned (task : Task) (operation : Operation) (succeeded : Bool)
deriving DecidableEq, Repr

def Event.task : Event Task Operation → Task
  | .invoked task _ => task
  | .returned task _ _ => task

def succeeded (history : List (Event Task Operation)) : List (Task × Operation) :=
  history.filterMap fun
    | .returned task operation true => some (task, operation)
    | _ => none

/-- The first call had succeeded when the second was invoked. -/
def Precedes (history : List (Event Task Operation)) (first second : Task × Operation) : Prop :=
  [Event.returned first.1 first.2 true, .invoked second.1 second.2].Sublist history

/-- The order of the calls is one that real time allows. -/
def Consistent (history : List (Event Task Operation)) (order : List (Task × Operation)) : Prop :=
  order.Pairwise fun earlier later => ¬ Precedes history later earlier

/-- The successful calls one after the other. -/
def replay (apply : Operation → Value → Value) (order : List (Task × Operation)) (initial : Value) :
    Value :=
  order.foldl (fun value call => apply call.2 value) initial

def Serializable (apply : Operation → Value → Value) (history : List (Event Task Operation))
    (initial final : Value) : Prop :=
  ∃ order : List (Task × Operation), order.Perm (succeeded history) ∧ Consistent history order ∧
    replay apply order initial = final

/-- Nothing happens to a call after it has returned. -/
def Closed (history : List (Event Task Operation)) : Prop :=
  history.Pairwise fun earlier later =>
    ∀ task operation succeeded, earlier = .returned task operation succeeded → later.task ≠ task

variable {history : List (Event Task Operation)}

theorem closed_nil : Closed ([] : List (Event Task Operation)) := List.Pairwise.nil

theorem closed_append_iff (event : Event Task Operation) : Closed (history ++ [event]) ↔
      Closed history ∧ ∀ operation succeeded, .returned event.task operation succeeded ∉ history := by
  rw [Closed, List.pairwise_append]
  constructor
  · rintro ⟨before, -, apart⟩
    refine ⟨before, fun operation succeeded member => ?_⟩
    exact apart _ member event (List.mem_singleton_self _) _ _ _ rfl rfl
  · rintro ⟨before, apart⟩
    refine ⟨before, List.pairwise_singleton _ _, fun earlier member later here => ?_⟩
    obtain rfl := List.mem_singleton.mp here
    rintro task operation succeeded rfl same
    exact apart operation succeeded (same ▸ member)

@[simp] theorem succeeded_nil : succeeded ([] : List (Event Task Operation)) = [] := rfl

@[simp] theorem succeeded_append_invoked (task : Task) (operation : Operation) :
    succeeded (history ++ [.invoked task operation]) = succeeded history := by
  simp [succeeded]

@[simp] theorem succeeded_append_returned (task : Task) (operation : Operation) (ok : Bool) :
    succeeded (history ++ [.returned task operation ok]) =
      succeeded history ++ if ok then [(task, operation)] else [] := by
  cases ok <;> simp [succeeded]

theorem mem_succeeded_iff (call : Task × Operation) :
    call ∈ succeeded history ↔ .returned call.1 call.2 true ∈ history := by
  rw [succeeded, List.mem_filterMap]
  constructor
  · rintro ⟨event, member, same⟩
    split at same
    · cases same
      exact member
    · contradiction
  · exact fun member => ⟨_, member, rfl⟩

theorem precedes_append_iff (event : Event Task Operation) (first second : Task × Operation) :
    Precedes (history ++ [event]) first second ↔ Precedes history first second ∨
      .returned first.1 first.2 true ∈ history ∧ event = .invoked second.1 second.2 := by
  rw [Precedes, List.sublist_append_iff]
  constructor
  · rintro ⟨left, right, split_, inside, last⟩
    obtain rfl | rfl := List.sublist_singleton.mp last
    · rw [List.append_nil] at split_
      rw [← split_] at inside
      exact .inl inside
    · have split_ : [Event.returned first.1 first.2 true] ++ [.invoked second.1 second.2] =
          left ++ [event] := split_
      obtain ⟨rfl, same⟩ := List.append_inj' split_ rfl
      exact .inr ⟨List.singleton_sublist.mp inside, (List.singleton_inj.mp same).symm⟩
  · rintro (before | ⟨returned, rfl⟩)
    · exact ⟨_, [], (List.append_nil _).symm, before, List.nil_sublist _⟩
    · exact ⟨[_], [_], rfl, List.singleton_sublist.mpr returned, List.Sublist.refl _⟩

theorem replay_append (apply : Operation → Value → Value) (order more : List (Task × Operation))
    (initial : Value) :
    replay apply (order ++ more) initial = replay apply more (replay apply order initial) :=
  List.foldl_append ..

theorem Closed.consistent (closed : Closed history) : Consistent history (succeeded history) := by
  induction history using List.reverseRecOn with
  | nil => exact List.Pairwise.nil
  | append_singleton before event ih =>
    obtain ⟨earlier, fresh⟩ := (closed_append_iff event).mp closed
    have old := ih earlier
    cases event with
    | invoked task operation =>
      rw [succeeded_append_invoked]
      refine old.imp_of_mem fun {one other} here there allowed precedes => ?_
      obtain before_ | ⟨-, same⟩ := (precedes_append_iff _ _ _).mp precedes
      · exact allowed before_
      · -- The call that is invoked has not returned yet.
        obtain ⟨rfl, rfl⟩ := Event.invoked.inj same
        exact fresh _ _ ((mem_succeeded_iff _).mp here)
    | returned task operation ok =>
      have same (one other : Task × Operation) :
          Precedes (before ++ [.returned task operation ok]) one other ↔ Precedes before one other := by
        rw [precedes_append_iff]
        exact or_iff_left nofun
      simp only [Consistent, same, succeeded_append_returned]
      refine List.pairwise_append.mpr ⟨old, ?_, fun one _ other here precedes => ?_⟩
      · cases ok
        · exact List.Pairwise.nil
        · exact List.pairwise_singleton _ _
      · cases ok with
        | false => contradiction
        | true =>
          obtain rfl := List.mem_singleton.mp here
          exact fresh _ _ (precedes.subset (List.mem_cons_self))

/-- Calls that each apply their operation to what they find at their return are serializable. -/
theorem Closed.serializable (closed : Closed history) {apply : Operation → Value → Value}
    {initial final : Value} (replayed : replay apply (succeeded history) initial = final) :
    Serializable apply history initial final :=
  ⟨succeeded history, List.Perm.refl _, closed.consistent, replayed⟩

end History
