import DZFile.Library.Interaction
import DZFile.Library.Transition

/-!
# Programs that make a bounded number of calls

`Within` is total correctness with a budget: the program makes at most so many
calls, never runs into undefined behaviour, and what it returns satisfies a
postcondition, which may look at what is left of the budget.

A program with loops is within a budget if each of its blocks is, where
entering the next block costs nothing and asks for that block's own budget.
The rule `run_within` then bounds the length of every run and yields the
postcondition at its end.
-/

namespace DZFile.BoundedCalls

open DZFile.Interaction

variable {Op : Type} {Reply : Op → Type} {α β Label σ Choice : Type}

/-- The program returns within so many calls, with the postcondition. -/
def Within
    (answers : (op : Op) → σ → Reply op → σ → Prop)
    (post : α → Nat → σ → Prop) :
    Prog Op Reply α → Nat → σ → Prop
  | .ret value, calls, state => post value calls state
  | .call op next, calls + 1, state =>
      ∀ reply after,
        answers op state reply after →
          Within answers post (next reply) calls after
  | .call _ _, 0, _ => False
  | .fault, _, _ => False

section Rules

variable
    {answers : (op : Op) → σ → Reply op → σ → Prop}
    {post : α → Nat → σ → Prop} {calls : Nat} {state : σ}

/-- A call with what its answers lead to. -/
theorem Within.call
    {op : Op} {next : Reply op → Prog Op Reply α}
    (enough : 0 < calls)
    (after :
      ∀ reply later,
        answers op state reply later →
          Within answers post (next reply) (calls - 1) later) :
    Within answers post (.call op next) calls state := by
  cases calls with
  | zero => exact (Nat.lt_irrefl 0 enough).elim
  | succ left => exact after

/-- A composition is within the budget that its parts share. -/
theorem Within.bind
    {first : Prog Op Reply α} {rest : α → Prog Op Reply β}
    {post : β → Nat → σ → Prop}
    (within :
      Within answers
        (fun value left middle =>
          Within answers post (rest value) left middle)
        first calls state) :
    Within answers post (first >>= rest) calls state := by
  induction first generalizing calls state with
  | ret value => exact within
  | fault => exact within.elim
  | call op next induction =>
      cases calls with
      | zero => exact within.elim
      | succ calls =>
          intro reply after answered
          exact induction reply (within reply after answered)

end Rules

section Loops

variable
    {kernel : Kernel Op Reply σ Choice}
    {condition : σ → Choice → Op → Prop}
    {body : Label → Prog Op Reply (Label ⊕ α)}
    {entered : Label → Nat → σ → Prop} {post : α → Nat → σ → Prop}

/-- The answers of the environment to calls that meet a condition. -/
def Answers
    (kernel : Kernel Op Reply σ Choice)
    (condition : σ → Choice → Op → Prop)
    (op : Op) (state : σ) (reply : Reply op) (later : σ) : Prop :=
  ∃ choice,
    condition state choice op ∧ kernel state choice op = some (reply, later)

/-- The next call of a program with loops meets the condition. -/
def Meets
    (condition : σ → Choice → Op → Prop)
    (body : Label → Prog Op Reply (Label ⊕ α))
    (state : σ × Prog Op Reply (Label ⊕ α)) (choice : Choice) : Prop :=
  ∀ op next,
    Prog.blockAction body state.2 = .call op next →
      condition state.1 choice op

/-- Whether the next call meets the condition can be tested. -/
instance decidableMeets
    [testable : ∀ state choice op, Decidable (condition state choice op)]
    (state : σ × Prog Op Reply (Label ⊕ α)) (choice : Choice) :
    Decidable (Meets condition body state choice) :=
  match action : Prog.blockAction body state.2 with
  | .call op next =>
      decidable_of_iff (condition state.1 choice op)
        ⟨fun met op' next' same => by
            rw [action] at same
            cases same
            exact met,
          fun meets => meets op next action⟩
  | .done _ =>
      isTrue fun op next same => by
        rw [action] at same
        cases same
  | .fault =>
      isTrue fun op next same => by
        rw [action] at same
        cases same

/-- A call takes one from the budget. -/
theorem Within.step
    (bodies :
      ∀ label calls state, entered label calls state →
        Within (Answers kernel condition) (Sum.elim entered post)
          (body label) calls state)
    {program program' : Prog Op Reply (Label ⊕ α)} {state later : σ}
    {choice : Choice} {calls : Nat}
    (within :
      Within (Answers kernel condition) (Sum.elim entered post) program
        calls state)
    (meets : Meets condition body (state, program) choice)
    (stepped :
      advance kernel (Prog.blockAction body) state program choice =
        some (later, program')) :
    ∃ left,
      left + 1 = calls ∧
        Within (Answers kernel condition) (Sum.elim entered post) program'
          left later := by
  rcases advance_eq_some.mp stepped with
    ⟨op, next, reply, action, answered, rfl⟩
  have met := meets op next action
  have called :
      ∀ {calls},
        Within (Answers kernel condition) (Sum.elim entered post)
            (.call op next) calls state →
          ∃ left,
            left + 1 = calls ∧
              Within (Answers kernel condition) (Sum.elim entered post)
                (next reply) left later := by
    intro calls within
    cases calls with
    | zero => exact within.elim
    | succ left =>
        exact ⟨left, rfl, within reply later ⟨choice, met, answered⟩⟩
  cases program with
  | fault => cases action
  | call op' next' =>
      cases action
      exact called within
  | ret place =>
      cases place with
      | inr value => cases action
      | inl label =>
          have block := bodies label calls state within
          simp only [Prog.blockAction] at action
          cases shape : body label with
          | ret place =>
              rw [shape] at action
              cases action
          | fault =>
              rw [shape] at action
              cases action
          | call op' next' =>
              rw [shape] at action block
              cases action
              exact called block

/-- A run stays within its budget, and what is left covers the rest. -/
theorem run_within
    (bodies :
      ∀ label calls state, entered label calls state →
        Within (Answers kernel condition) (Sum.elim entered post)
          (body label) calls state)
    {start final : σ × Prog Op Reply (Label ⊕ α)} {calls : Nat}
    {choices : List Choice}
    (within :
      Within (Answers kernel condition) (Sum.elim entered post) start.2
        calls start.1)
    (along :
      Transition.Along
        (fun state choice =>
          advance kernel (Prog.blockAction body) state.1 state.2 choice)
        (Meets condition body) start choices)
    (ran :
      Transition.run
          (fun state choice =>
            advance kernel (Prog.blockAction body) state.1 state.2 choice)
          start choices =
        some final) :
    ∃ left,
      choices.length + left = calls ∧
        Within (Answers kernel condition) (Sum.elim entered post) final.2
          left final.1 := by
  induction choices generalizing start calls with
  | nil =>
      cases ran
      exact ⟨calls, Nat.zero_add calls, within⟩
  | cons choice rest induction =>
      rcases Transition.run_cons_eq_some.mp ran with ⟨next, stepped, later⟩
      rcases within.step bodies along.1 stepped with ⟨left, spent, after⟩
      rcases induction after (along.2 next stepped) later with
        ⟨remaining, total, ended⟩
      refine ⟨remaining, ?_, ended⟩
      rw [List.length_cons]
      omega

/-- Within its budget a program has returned or is at a call. -/
theorem Within.acts
    (begins : ∀ label, ∃ op next, body label = .call op next)
    {program : Prog Op Reply (Label ⊕ α)} {calls : Nat} {state : σ}
    (within :
      Within (Answers kernel condition) (Sum.elim entered post) program
        calls state) :
    (∃ value, program = .ret (.inr value)) ∨
      ∃ op next, Prog.blockAction body program = .call op next := by
  cases program with
  | fault => exact within.elim
  | call op next => exact Or.inr ⟨op, next, rfl⟩
  | ret place =>
      cases place with
      | inr value => exact Or.inl ⟨value, rfl⟩
      | inl label =>
          rcases begins label with ⟨op, next, shape⟩
          refine Or.inr ⟨op, next, ?_⟩
          simp only [Prog.blockAction, shape]

/-- Within its budget a program has returned or makes its next call. -/
theorem Within.continues
    (begins : ∀ label, ∃ op next, body label = .call op next)
    (total :
      ∀ state op, ∃ choice reply later,
        kernel state choice op = some (reply, later))
    {program : Prog Op Reply (Label ⊕ α)} {calls : Nat} {state : σ}
    (within :
      Within (Answers kernel condition) (Sum.elim entered post) program
        calls state) :
    (∃ value, program = .ret (.inr value)) ∨
      ∃ choice later,
        advance kernel (Prog.blockAction body) state program choice =
          some later := by
  rcases within.acts begins with returned | ⟨op, next, action⟩
  · exact Or.inl returned
  · rcases total state op with ⟨choice, reply, later, answered⟩
    right
    exact
      ⟨choice, (later, next reply),
        advance_eq_some.mpr ⟨op, next, reply, action, answered, rfl⟩⟩

/-- If the environment can answer so, its next call meets the condition. -/
theorem Within.proceeds
    (bodies :
      ∀ label calls state, entered label calls state →
        Within (Answers kernel condition) (Sum.elim entered post)
          (body label) calls state)
    (begins : ∀ label, ∃ op next, body label = .call op next)
    (answering :
      ∀ state op, ∃ choice reply later,
        condition state choice op ∧
          kernel state choice op = some (reply, later))
    {program : Prog Op Reply (Label ⊕ α)} {calls : Nat} {state : σ}
    (within :
      Within (Answers kernel condition) (Sum.elim entered post) program
        calls state) :
    (∃ value, program = .ret (.inr value)) ∨
      ∃ choice later program' left,
        Meets condition body (state, program) choice ∧
          advance kernel (Prog.blockAction body) state program choice =
            some (later, program') ∧
            left + 1 = calls ∧
              Within (Answers kernel condition) (Sum.elim entered post)
                program' left later := by
  rcases within.acts begins with returned | ⟨op, next, action⟩
  · exact Or.inl returned
  · rcases answering state op with ⟨choice, reply, later, met, answered⟩
    have meets : Meets condition body (state, program) choice := by
      intro op' next' action'
      rw [action] at action'
      cases action'
      exact met
    have stepped :
        advance kernel (Prog.blockAction body) state program choice =
          some (later, next reply) :=
      advance_eq_some.mpr ⟨op, next, reply, action, answered, rfl⟩
    rcases within.step bodies meets stepped with ⟨left, spent, after⟩
    exact Or.inr ⟨choice, later, _, left, meets, stepped, spent, after⟩

/-- And it has a run of such calls to its end. -/
theorem Within.completes
    (bodies :
      ∀ label calls state, entered label calls state →
        Within (Answers kernel condition) (Sum.elim entered post)
          (body label) calls state)
    (begins : ∀ label, ∃ op next, body label = .call op next)
    (answering :
      ∀ state op, ∃ choice reply later,
        condition state choice op ∧
          kernel state choice op = some (reply, later))
    {program : Prog Op Reply (Label ⊕ α)} {calls : Nat} {state : σ}
    (within :
      Within (Answers kernel condition) (Sum.elim entered post) program
        calls state) :
    ∃ choices final value,
      Transition.Along
          (fun state choice =>
            advance kernel (Prog.blockAction body) state.1 state.2 choice)
          (Meets condition body) (state, program) choices ∧
        Transition.run
            (fun state choice =>
              advance kernel (Prog.blockAction body) state.1 state.2 choice)
            (state, program) choices =
          some final ∧
          final.2 = .ret (.inr value) := by
  induction calls generalizing state program with
  | zero =>
      rcases within.proceeds bodies begins answering with
        ⟨value, rfl⟩ | ⟨_, _, _, left, _, _, impossible, _⟩
      · exact ⟨[], _, value, trivial, rfl, rfl⟩
      · cases impossible
  | succ calls induction =>
      rcases within.proceeds bodies begins answering with
        ⟨value, rfl⟩ |
          ⟨choice, later, program', left, meets, stepped, spent, after⟩
      · exact ⟨[], _, value, trivial, rfl, rfl⟩
      · cases spent
        rcases induction after with
          ⟨choices, final, value, along, ran, returned⟩
        refine
          ⟨choice :: choices, final, value, ⟨meets, ?_⟩,
            Transition.run_cons_eq_some.mpr ⟨_, stepped, ran⟩, returned⟩
        intro other same
        cases stepped.symm.trans same
        exact along

end Loops

end DZFile.BoundedCalls
