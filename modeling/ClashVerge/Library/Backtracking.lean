import Mathlib.Data.List.Basic
import Mathlib.Data.List.TakeDrop

/-!
# Backtracking patterns

A pattern hands what it leaves of the input to a continuation; where the continuation fails, the
pattern tries its next way to match. The first match in the order of these ways fixes what the
groups capture. The order is that of Perl and ECMAScript: a greedy repetition first tries to go on
and a lazy one to stop, and a repetition does not go on after an empty round.
-/

namespace Backtracking

inductive Pattern (Symbol : Type) where
  | empty
  | one (accepts : Symbol → Bool)
  | seq (first second : Pattern Symbol)
  | either (first second : Pattern Symbol)
  /-- A body that may be left out, and is tried first. -/
  | optional (body : Pattern Symbol)
  | star (greedy : Bool) (body : Pattern Symbol)
  | group (name : String) (body : Pattern Symbol)
  | finish

/-- What the groups have matched, the last first. -/
abbrev Captures (Symbol : Type) : Type := List (String × List Symbol)

/-- What is to be done with the rest of the input. -/
abbrev Continuation (Symbol : Type) : Type :=
  List Symbol → Captures Symbol → Option (Captures Symbol)

variable {Symbol : Type}

/-- Continue only where something has been consumed. -/
def consumed (input : List Symbol) (next : Continuation Symbol) : Continuation Symbol :=
  fun rest captures => if rest.length < input.length then next rest captures else none

def rounds (greedy : Bool) (body : Continuation Symbol → Continuation Symbol)
    (next : Continuation Symbol) : Nat → Continuation Symbol
  | 0 => next
  | left + 1 => fun input captures =>
    let again := body (consumed input (rounds greedy body next left)) input captures
    if greedy then again.or (next input captures) else (next input captures).or again

namespace Pattern

/-- The matcher. A repetition has at most as many rounds as there are symbols. -/
def run : Pattern Symbol → Continuation Symbol → Continuation Symbol
  | .empty, next => next
  | .one accepts, next => fun input captures =>
    match input with
    | [] => none
    | symbol :: rest => if accepts symbol then next rest captures else none
  | .seq first second, next => first.run (second.run next)
  | .either first second, next => fun input captures =>
    (first.run next input captures).or (second.run next input captures)
  | .optional body, next => fun input captures =>
    (body.run (consumed input next) input captures).or (next input captures)
  | .star greedy body, next => fun input captures =>
    rounds greedy body.run next input.length input captures
  | .group name body, next => fun input captures =>
    body.run (fun rest inner =>
      next rest ((name, input.take (input.length - rest.length)) :: inner)) input captures
  | .finish, next => fun input captures => if input.isEmpty then next input captures else none

/-- One or more rounds. -/
def plus (greedy : Bool) (body : Pattern Symbol) : Pattern Symbol := .seq body (.star greedy body)

def literal [DecidableEq Symbol] : List Symbol → Pattern Symbol
  | [] => .empty
  | symbol :: rest => .seq (.one (· == symbol)) (literal rest)

/-- A given number of rounds. -/
def times (body : Pattern Symbol) : Nat → Pattern Symbol
  | 0 => .empty
  | count + 1 => .seq body (times body count)

/-- Between one number of rounds and that number and some more, greedily. -/
def between (body : Pattern Symbol) (least : Nat) : Nat → Pattern Symbol
  | 0 => times body least
  | more + 1 => .seq (between body least more) (.optional body)

/-- A match from the start of the input. The group `0` is all that is matched. -/
def exec (pattern : Pattern Symbol) (input : List Symbol) : Option (Captures Symbol) :=
  (Pattern.group "0" pattern).run (fun _ captures => some captures) input []

def search (pattern : Pattern Symbol) : List Symbol → Option (List Symbol × Captures Symbol)
  | [] => (pattern.exec []).map fun captures => ([], captures)
  | symbol :: rest =>
    match pattern.exec (symbol :: rest) with
    | some captures => some ([], captures)
    | none => (search pattern rest).map fun found => (symbol :: found.1, found.2)

def accepts (pattern : Pattern Symbol) (input : List Symbol) : Bool := (pattern.exec input).isSome

variable (next : Continuation Symbol)

@[simp] theorem run_empty : (empty : Pattern Symbol).run next = next := rfl

@[simp] theorem run_one_nil (accepts : Symbol → Bool) (captures : Captures Symbol) :
    (one accepts).run next [] captures = none := rfl

@[simp] theorem run_one_cons (accepts : Symbol → Bool) (symbol : Symbol) (rest : List Symbol)
    (captures : Captures Symbol) :
    (one accepts).run next (symbol :: rest) captures =
      if accepts symbol then next rest captures else none := rfl

@[simp] theorem run_seq (first second : Pattern Symbol) :
    (seq first second).run next = first.run (second.run next) := rfl

theorem run_optional (body : Pattern Symbol) (input : List Symbol) (captures : Captures Symbol) :
    (optional body).run next input captures =
      (body.run (consumed input next) input captures).or (next input captures) := rfl

theorem run_group (name : String) (body : Pattern Symbol) (input : List Symbol)
    (captures : Captures Symbol) :
    (group name body).run next input captures =
      body.run (fun rest inner =>
        next rest ((name, input.take (input.length - rest.length)) :: inner)) input captures := rfl

@[simp] theorem run_finish_nil (captures : Captures Symbol) :
    (finish : Pattern Symbol).run next [] captures = next [] captures := rfl

@[simp] theorem run_finish_cons (symbol : Symbol) (rest : List Symbol)
    (captures : Captures Symbol) :
    (finish : Pattern Symbol).run next (symbol :: rest) captures = none := rfl

@[simp] theorem run_star_nil (greedy : Bool) (body : Pattern Symbol) (captures : Captures Symbol) :
    (star greedy body).run next [] captures = next [] captures := rfl

theorem run_star_one_cons (greedy : Bool) (accepts : Symbol → Bool) (symbol : Symbol)
    (rest : List Symbol) (captures : Captures Symbol) :
    (star greedy (one accepts)).run next (symbol :: rest) captures =
      let again := if accepts symbol then (star greedy (one accepts)).run next rest captures else none
      if greedy then again.or (next (symbol :: rest) captures)
      else (next (symbol :: rest) captures).or again := by
  simp [run, rounds, consumed]

@[simp] theorem run_literal [DecidableEq Symbol] (word rest : List Symbol)
    (captures : Captures Symbol) :
    (literal word).run next (word ++ rest) captures = next rest captures := by
  induction word with
  | nil => rfl
  | cons symbol others ih => simp [literal, ih]

/-- Where the continuation fails before every symbol of the class, a greedy repetition takes all of
them. -/
theorem run_greedy_all {accepts : Symbol → Bool}
    (blocked : ∀ symbol rest captures, accepts symbol = true → next (symbol :: rest) captures = none)
    (input : List Symbol) (captures : Captures Symbol) :
    (star true (one accepts)).run next input captures =
      next (input.dropWhile accepts) captures := by
  induction input with
  | nil => rfl
  | cons symbol rest ih =>
    rw [run_star_one_cons]
    cases accepted : accepts symbol with
    | true => simp [accepted, ih, blocked symbol rest captures accepted]
    | false => simp [accepted]

/-- The continuations agree on everything that is no longer than the input. -/
def Agree (input : List Symbol) (first second : Continuation Symbol) : Prop :=
  ∀ rest captures, rest.length ≤ input.length → first rest captures = second rest captures

theorem Agree.consumed {input : List Symbol} {first second : Continuation Symbol}
    (agree : Agree input first second) :
    Agree input (consumed input first) (consumed input second) := by
  intro rest captures shorter
  unfold Backtracking.consumed
  rw [agree rest captures shorter]

theorem rounds_congr {body : Continuation Symbol → Continuation Symbol}
    (keeps : ∀ {first second : Continuation Symbol} {input : List Symbol},
      Agree input first second → ∀ captures, body first input captures = body second input captures)
    (greedy : Bool) (left : Nat) {first second : Continuation Symbol} {input : List Symbol}
    (agree : Agree input first second) (captures : Captures Symbol) :
    rounds greedy body first left input captures =
      rounds greedy body second left input captures := by
  induction left generalizing input captures with
  | zero => exact agree input captures (Nat.le_refl _)
  | succ left ih =>
    have rest_agree : Agree input (rounds greedy body first left)
        (rounds greedy body second left) := fun rest inner shorter =>
      ih (fun each other less => agree each other (Nat.le_trans less shorter)) inner
    have again := keeps rest_agree.consumed captures
    simp only [rounds]
    rw [again, agree input captures (Nat.le_refl _)]

/-- What a pattern does on an input depends only on the continuation for what can be left of it. -/
theorem run_congr (pattern : Pattern Symbol) {first second : Continuation Symbol}
    {input : List Symbol} (same : Agree input first second) (captures : Captures Symbol) :
    pattern.run first input captures = pattern.run second input captures := by
  induction pattern generalizing first second input captures with
  | empty => exact same input captures (Nat.le_refl _)
  | one accepts =>
    cases input with
    | nil => rfl
    | cons symbol rest =>
      rw [run_one_cons, run_one_cons, same rest captures (Nat.le_succ _)]
  | seq one other one_ih other_ih =>
    refine one_ih (fun rest inner shorter => other_ih (fun left captures less => ?_) inner) captures
    exact same left captures (Nat.le_trans less shorter)
  | either one other one_ih other_ih =>
    simp only [run]
    rw [one_ih same captures, other_ih same captures]
  | optional body ih =>
    rw [run_optional, run_optional, same input captures (Nat.le_refl _),
      ih same.consumed captures]
  | star greedy body ih =>
    have keeps {first second : Continuation Symbol} {input : List Symbol}
        (agree : Agree input first second) (captures : Captures Symbol) :
        body.run first input captures = body.run second input captures :=
      ih agree captures
    exact rounds_congr keeps greedy input.length same captures
  | group name body ih =>
    exact ih (fun rest inner shorter => same rest _ shorter) captures
  | finish =>
    cases input with
    | nil => exact same [] captures (Nat.le_refl _)
    | cons symbol rest => rfl

theorem run_optional_one (accepts : Symbol → Bool) (body : Pattern Symbol) (symbol : Symbol)
    (rest : List Symbol) (captures : Captures Symbol) :
    (optional (seq (one accepts) body)).run next (symbol :: rest) captures =
      (if accepts symbol then body.run next rest captures else none).or
        (next (symbol :: rest) captures) := by
  rw [run_optional, run_seq, run_one_cons]
  congr 1
  split
  · refine run_congr body (fun left inner shorter => ?_) captures
    exact if_pos (Nat.lt_succ_of_le shorter)
  · rfl

theorem run_optional_symbol (accepts : Symbol → Bool) (symbol : Symbol) (rest : List Symbol)
    (captures : Captures Symbol) :
    (optional (one accepts)).run next (symbol :: rest) captures =
      (if accepts symbol then next rest captures else none).or
        (next (symbol :: rest) captures) := by
  simp [run_optional, consumed]

@[simp] theorem run_optional_one_nil (accepts : Symbol → Bool) (body : Pattern Symbol)
    (captures : Captures Symbol) :
    (optional (seq (one accepts) body)).run next [] captures = next [] captures := by
  simp [run_optional]

/-! ## Repetitions that end at a known place -/

section

variable {next} {accepts : Symbol → Bool} {word rest : List Symbol} {captures : Captures Symbol}
  {result : Captures Symbol} (all : ∀ symbol ∈ word, accepts symbol = true)

include all

/-- A greedy repetition takes the whole word, if what is behind it goes on from there. -/
theorem run_greedy_first (stop : ∀ symbol ∈ rest.head?, accepts symbol = false)
    (found : next rest captures = some result) :
    (star true (one accepts)).run next (word ++ rest) captures = some result := by
  induction word with
  | nil =>
    cases rest with
    | nil => exact found
    | cons symbol others => simp [run_star_one_cons, stop symbol rfl, found]
  | cons symbol others ih =>
    have later := ih fun each inside => all each (List.mem_cons_of_mem _ inside)
    simp [run_star_one_cons, all symbol List.mem_cons_self, later]

theorem run_lazy_first
    (fails : ∀ after, after <:+ word → after ≠ [] → next (after ++ rest) captures = none)
    (found : next rest captures = some result) :
    (star false (one accepts)).run next (word ++ rest) captures = some result := by
  induction word with
  | nil =>
    cases rest with
    | nil => exact found
    | cons symbol others => simp [run_star_one_cons, found]
  | cons symbol others ih =>
    have here := fails _ List.suffix_rfl (List.cons_ne_nil symbol others)
    have later := ih (fun each inside => all each (List.mem_cons_of_mem _ inside))
      fun after inside => fails after (inside.trans (List.suffix_cons _ _))
    rw [List.cons_append] at here ⊢
    simp [run_star_one_cons, all symbol List.mem_cons_self, here, later]

end

/-! ## Lazy groups -/

/-- The first split of the input at which the continuation goes on with what is before it as the
group. -/
def firstSplit (accepts : Symbol → Bool) (name : String) (captures : Captures Symbol)
    (before : List Symbol) : List Symbol → Option (Captures Symbol)
  | [] => next [] ((name, before) :: captures)
  | symbol :: rest =>
    (next (symbol :: rest) ((name, before) :: captures)).or
      (if accepts symbol then firstSplit accepts name captures (before ++ [symbol]) rest else none)

/-- A lazy group of one class ends at the first split that lets the continuation go on. -/
theorem run_group_lazy (accepts : Symbol → Bool) (name : String) (input : List Symbol)
    (captures : Captures Symbol) :
    (group name (star false (one accepts))).run next input captures =
      firstSplit next accepts name captures [] input := by
  suffices general : ∀ before, (star false (one accepts)).run (fun rest inner =>
      next rest ((name, (before ++ input).take ((before ++ input).length - rest.length)) :: inner))
      input captures = firstSplit next accepts name captures before input by
    rw [run_group]
    simpa using general []
  induction input with
  | nil =>
    intro before
    simp [firstSplit]
  | cons symbol rest ih =>
    intro before
    have shorter := ih (before ++ [symbol])
    simp only [List.append_assoc, List.singleton_append] at shorter
    rw [run_star_one_cons, firstSplit, shorter]
    simp

/-! ## Symbols that no class accepts -/

/-- The continuation fails where a symbol is left that is bad. -/
def Blocks (bad : Symbol → Bool) (next : Continuation Symbol) : Prop :=
  ∀ input captures, (∃ symbol ∈ input, bad symbol = true) → next input captures = none

/-- No class of the pattern accepts a bad symbol. -/
def Avoids (bad : Symbol → Bool) : Pattern Symbol → Prop
  | .empty | .finish => True
  | .one accepts => ∀ symbol, bad symbol = true → accepts symbol = false
  | .seq first second | .either first second => first.Avoids bad ∧ second.Avoids bad
  | .optional body | .star _ body | .group _ body => body.Avoids bad

variable {next} {bad : Symbol → Bool}

theorem blocks_finish (next : Continuation Symbol) :
    Blocks bad ((finish : Pattern Symbol).run next) := by
  rintro input captures ⟨symbol, listed, -⟩
  cases input with
  | nil => simp at listed
  | cons first rest => rfl

theorem Blocks.consumed (blocks : Blocks bad next) (input : List Symbol) :
    Blocks bad (consumed input next) := by
  intro rest captures left
  unfold Backtracking.consumed
  split
  · exact blocks rest captures left
  · rfl

theorem Blocks.rounds {body : Continuation Symbol → Continuation Symbol}
    (keeps : ∀ next, Blocks bad next → Blocks bad (body next)) (blocks : Blocks bad next)
    (greedy : Bool) (left : Nat) : Blocks bad (rounds greedy body next left) := by
  induction left with
  | zero => exact blocks
  | succ left ih =>
    intro input captures here
    have again := keeps _ (ih.consumed input) input captures here
    simp [Backtracking.rounds, again, blocks input captures here]

theorem Avoids.blocks {pattern : Pattern Symbol} (avoids : pattern.Avoids bad)
    (blocks : Blocks bad next) : Blocks bad (pattern.run next) := by
  induction pattern generalizing next with
  | empty => exact blocks
  | one accepts =>
    intro input captures here
    obtain ⟨symbol, listed, isBad⟩ := here
    cases input with
    | nil => rfl
    | cons first rest =>
      rw [run_one_cons]
      split
      · rename_i accepted
        obtain rfl | later := List.mem_cons.mp listed
        · simp [avoids symbol isBad] at accepted
        · exact blocks rest captures ⟨symbol, later, isBad⟩
      · rfl
  | seq first second first_ih second_ih => exact first_ih avoids.1 (second_ih avoids.2 blocks)
  | either first second first_ih second_ih =>
    intro input captures here
    simp [run, first_ih avoids.1 blocks input captures here,
      second_ih avoids.2 blocks input captures here]
  | optional body ih =>
    intro input captures here
    simp [run, ih avoids (blocks.consumed input) input captures here,
      blocks input captures here]
  | star greedy body ih =>
    intro input captures here
    exact blocks.rounds (fun _ => ih avoids) greedy _ input captures here
  | group name body ih =>
    intro input captures here
    exact ih avoids (fun rest inner left => blocks rest _ left) input captures here
  | finish => exact blocks_finish next

end Pattern

end Backtracking
