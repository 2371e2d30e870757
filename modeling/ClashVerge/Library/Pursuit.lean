import Mathlib.Data.List.Perm.Subperm

/-!
# Following links

A loop looks up what a state leads to: an item to note down and the next state, or nothing, where it
ends. The lookups are bounded by fuel. Where all states that lead anywhere are known, the loop ends
after at most as many turns, unless it comes to a state that leads back to itself.
-/

namespace Pursuit

universe u v
variable {State : Type u} {Item : Type v} {next : State → Option (Item × State)}

/-- The items that are noted down and the state where the loop ends, if it does so within as many
lookups. -/
def pursue (next : State → Option (Item × State)) : Nat → State → Option (List Item × State)
  | 0, _ => none
  | fuel + 1, state =>
    match next state with
    | none => some ([], state)
    | some (item, following) =>
      (pursue next fuel following).map fun (items, last) => (item :: items, last)

/-- One state leads to the other. -/
def Link (next : State → Option (Item × State)) (state following : State) : Prop :=
  ∃ item, next state = some (item, following)

/-- From the state the links come to one that leads back to itself. -/
def Cyclic (next : State → Option (Item × State)) (state : State) : Prop :=
  ∃ again, Relation.ReflTransGen (Link next) state again ∧
    Relation.TransGen (Link next) again again

/-- The loop from a state to the one where it ends, with the items on its way. -/
inductive Path (next : State → Option (Item × State)) : State → List Item → State → Prop
  | ends {state : State} (none : next state = none) : Path next state [] state
  | turn {state following last : State} {item : Item} {items : List Item}
      (leads : next state = some (item, following)) (rest : Path next following items last) :
      Path next state (item :: items) last

variable {state following last : State} {items : List Item} {fuel : Nat}

theorem Path.pursue_eq (path : Path next state items last) (enough : items.length < fuel) :
    pursue next fuel state = some (items, last) := by
  induction path generalizing fuel with
  | ends none =>
    obtain ⟨more, rfl⟩ := Nat.exists_eq_succ_of_ne_zero (Nat.ne_of_gt enough)
    simp [pursue, none]
  | turn leads _ ih =>
    obtain ⟨more, rfl⟩ := Nat.exists_eq_succ_of_ne_zero (Nat.ne_of_gt (Nat.zero_lt_of_lt enough))
    have rest := ih (Nat.lt_of_succ_lt_succ enough)
    simp [pursue, leads, rest]

theorem Cyclic.leads (cyclic : Cyclic next state) :
    ∃ item following, next state = some (item, following) ∧ Cyclic next following := by
  obtain ⟨again, reached, cycle⟩ := cyclic
  rcases Relation.ReflTransGen.cases_head reached with rfl | ⟨following, ⟨item, leads⟩, rest⟩
  · obtain ⟨following, ⟨item, leads⟩, rest⟩ := Relation.TransGen.head'_iff.mp cycle
    exact ⟨item, following, leads, state, rest, cycle⟩
  · exact ⟨item, following, leads, again, rest, cycle⟩

theorem Cyclic.pursue_eq_none (cyclic : Cyclic next state) (fuel : Nat) :
    pursue next fuel state = none := by
  induction fuel generalizing state with
  | zero => rfl
  | succ fuel ih =>
    obtain ⟨item, following, leads, cyclic⟩ := cyclic.leads
    simp [pursue, leads, ih cyclic]

/-- Turns that do not end pass as many states, and come to a cycle if they pass one twice. -/
theorem exists_passed (endless : pursue next fuel state = none) :
    ∃ passed : List State, passed.length = fuel ∧ (∀ one ∈ passed, (next one).isSome = true) ∧
      passed.Pairwise (Relation.TransGen (Link next)) ∧
      ∀ one ∈ passed, Relation.ReflTransGen (Link next) state one := by
  induction fuel generalizing state with
  | zero => exact ⟨[], rfl, by simp, List.Pairwise.nil, by simp⟩
  | succ fuel ih =>
    rw [pursue] at endless
    cases leads : next state with
    | none =>
      rw [leads] at endless
      contradiction
    | some turn =>
      obtain ⟨item, following⟩ := turn
      rw [leads] at endless
      obtain ⟨passed, length, lead, linked, reached⟩ :=
        ih (Option.map_eq_none_iff.mp endless)
      have link : Link next state following := ⟨item, leads⟩
      refine ⟨state :: passed, by rw [List.length_cons, length], ?_, ?_, ?_⟩
      · exact List.forall_mem_cons.mpr ⟨by rw [leads]; rfl, lead⟩
      · exact List.pairwise_cons.mpr
          ⟨fun one member => Relation.TransGen.head' link (reached one member), linked⟩
      · exact List.forall_mem_cons.mpr ⟨Relation.ReflTransGen.refl,
          fun one member => Relation.ReflTransGen.head link (reached one member)⟩

/-- Where the states that lead anywhere are known, the loop ends within as many turns exactly if it
comes to no cycle. -/
theorem pursue_isSome_iff {known : List State}
    (all : ∀ state, (next state).isSome = true → state ∈ known) (state : State) :
    (pursue next (known.length + 1) state).isSome = true ↔ ¬ Cyclic next state := by
  constructor
  · intro ends cyclic
    rw [cyclic.pursue_eq_none] at ends
    contradiction
  · intro acyclic
    by_contra endless
    obtain ⟨passed, length, lead, linked, reached⟩ :=
      exists_passed (Option.not_isSome_iff_eq_none.mp endless)
    have distinct : passed.Nodup := by
      refine List.Pairwise.imp_of_mem (fun {one other} member _ link => ?_) linked
      rintro rfl
      exact acyclic ⟨one, reached one member, link⟩
    have few := (List.subperm_of_subset distinct fun one member => all one (lead one member)).length_le
    omega

end Pursuit
