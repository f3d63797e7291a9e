import DZFile.Library.Interaction

/-!
# Programs among other parties

A loop-free program whose calls other parties come between.  The relation
`rely` says what the others may do to the state, and `answers` what a call may
do and reply.  `Ensures` is the weakest condition on the state before the
program under which every value it returns satisfies a postcondition, whatever
the others do between its calls and after the last of them.

With a reflexive and transitive `rely` the condition is stable under what the
others do, and a call leads from it to the condition of the rest; so a proof
about one program is kept by every interleaving.
-/

namespace DZFile.RelyGuarantee

open DZFile.Interaction

variable {Op : Type} {Reply : Op → Type} {α β σ : Type}

/-- Every value the program returns satisfies the postcondition. -/
def Ensures
    (rely : σ → σ → Prop)
    (answers : (op : Op) → σ → Reply op → σ → Prop)
    (post : α → σ → Prop) :
    Prog Op Reply α → σ → Prop
  | .ret value, state => ∀ later, rely state later → post value later
  | .fault, _ => True
  | .call op next, state =>
      ∀ middle, rely state middle → ∀ reply after,
        answers op middle reply after →
          Ensures rely answers post (next reply) after

section Rules

variable
    {rely : σ → σ → Prop}
    {answers : (op : Op) → σ → Reply op → σ → Prop}
    {post : α → σ → Prop} {state later : σ}

/-- What the others do keeps the condition. -/
theorem Ensures.relied
    (trans : ∀ a b c, rely a b → rely b c → rely a c)
    {program : Prog Op Reply α}
    (ensures : Ensures rely answers post program state)
    (relied : rely state later) :
    Ensures rely answers post program later := by
  cases program with
  | ret value =>
      intro final after
      exact ensures final (trans _ _ _ relied after)
  | fault => trivial
  | call op next =>
      intro middle after
      exact ensures middle (trans _ _ _ relied after)

/-- A call leads to the condition of the rest. -/
theorem Ensures.called
    (refl : ∀ a, rely a a) {op : Op} {next : Reply op → Prog Op Reply α}
    (ensures : Ensures rely answers post (.call op next) state)
    {reply : Reply op} (answered : answers op state reply later) :
    Ensures rely answers post (next reply) later :=
  ensures state (refl state) reply later answered

/-- The value of a program that has returned satisfies the postcondition. -/
theorem Ensures.returned
    (refl : ∀ a, rely a a) {value : α}
    (ensures : Ensures rely answers post (.ret value) state) :
    post value state :=
  ensures state (refl state)

/-- A postcondition of every state. -/
theorem Ensures.of_forall
    (always : ∀ value state, post value state)
    (program : Prog Op Reply α) (state : σ) :
    Ensures rely answers post program state := by
  induction program generalizing state with
  | ret value => exact fun later _ => always value later
  | fault => trivial
  | call op next induction =>
      exact fun _ _ reply after _ => induction reply after

/-- A stronger postcondition. -/
theorem Ensures.mono
    {weaker : α → σ → Prop} {program : Prog Op Reply α}
    (ensures : Ensures rely answers post program state)
    (weakens : ∀ value state, post value state → weaker value state) :
    Ensures rely answers weaker program state := by
  induction program generalizing state with
  | ret value =>
      intro later relied
      exact weakens value later (ensures later relied)
  | fault => trivial
  | call op next induction =>
      intro middle relied reply after answered
      exact induction reply (ensures middle relied reply after answered)

/-- The condition of a composition is the condition of its parts. -/
theorem Ensures.bind
    (refl : ∀ a, rely a a)
    {first : Prog Op Reply α} {rest : α → Prog Op Reply β}
    {post : β → σ → Prop}
    (ensures :
      Ensures rely answers
        (fun value middle => Ensures rely answers post (rest value) middle)
        first state) :
    Ensures rely answers post (first >>= rest) state := by
  induction first generalizing state with
  | ret value => exact ensures.returned refl
  | fault => trivial
  | call op next induction =>
      intro middle relied reply after answered
      exact induction reply (ensures middle relied reply after answered)

/-- Blocks that keep their conditions keep them in a program with loops. -/
theorem Ensures.block
    {Label : Type} (refl : ∀ a, rely a a)
    {body : Label → Prog Op Reply (Label ⊕ α)}
    {entered : Label → σ → Prop}
    (bodies :
      ∀ label state, entered label state →
        Ensures rely answers (Sum.elim entered post) (body label) state)
    {program : Prog Op Reply (Label ⊕ α)} {op : Op}
    {next : Reply op → Prog Op Reply (Label ⊕ α)}
    (action : Prog.blockAction body program = .call op next)
    (ensures : Ensures rely answers (Sum.elim entered post) program state)
    {reply : Reply op} (answered : answers op state reply later) :
    Ensures rely answers (Sum.elim entered post) (next reply) later := by
  cases program with
  | fault => cases action
  | call op' next' =>
      cases action
      exact ensures.called refl answered
  | ret place =>
      cases place with
      | inr value => cases action
      | inl label =>
          have block := bodies label state (ensures.returned refl)
          simp only [Prog.blockAction] at action
          cases shape : body label with
          | ret place =>
              rw [shape] at action
              cases action
          | fault =>
              rw [shape] at action
              cases action
          | call op' next' =>
              rw [shape] at action block
              cases action
              exact block.called refl answered

end Rules

end DZFile.RelyGuarantee
