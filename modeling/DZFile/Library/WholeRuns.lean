import DZFile.Library.BoundedCalls

/-!
# Whole runs of programs with loops

What the calls of a kind keep, a program with loops keeps whose blocks make
calls of that kind only, and what the blocks may return, the program may.  A
run that returns begins with a run of the loop-free part it starts with, and a
condition met along the whole run is met along both of its parts.
-/

namespace DZFile.WholeRuns

open DZFile.Interaction
open DZFile.BoundedCalls

variable
    {Op : Type} {Reply : Op → Type} {α Label Environment Choice : Type}
    {kernel : Kernel Op Reply Environment Choice}
    {body : Label → Prog Op Reply (Label ⊕ α)}

/-- One call of a program with loops. -/
abbrev blockStep
    (kernel : Kernel Op Reply Environment Choice)
    (body : Label → Prog Op Reply (Label ⊕ α))
    (state : Environment × Prog Op Reply (Label ⊕ α)) (choice : Choice) :
    Option (Environment × Prog Op Reply (Label ⊕ α)) :=
  advance kernel (Prog.blockAction body) state.1 state.2 choice

/-- The next call is of the kind, and so are those behind it. -/
theorem allCalls_of_blockAction
    {kind : Op → Prop} (bodies : ∀ label, (body label).AllCalls kind)
    {program : Prog Op Reply (Label ⊕ α)} {op : Op}
    {next : Reply op → Prog Op Reply (Label ⊕ α)}
    (calls : program.AllCalls kind)
    (action : Prog.blockAction body program = .call op next) :
    kind op ∧ ∀ reply, (next reply).AllCalls kind := by
  cases program with
  | fault => cases action
  | call op' next' =>
      cases action
      exact calls
  | ret place =>
      cases place with
      | inr value => cases action
      | inl label =>
          have block := bodies label
          simp only [Prog.blockAction] at action
          cases shape : body label with
          | ret place =>
              rw [shape] at action
              cases action
          | fault =>
              rw [shape] at action
              cases action
          | call op' next' =>
              rw [shape] at action block
              cases action
              exact block

/-- What the calls of a kind keep, a program of such calls keeps. -/
theorem run_blocks_invariant
    {kind : Op → Prop} (Invariant : Environment → Prop)
    (kept : ∀ environment choice op reply later,
      kind op → Invariant environment →
        kernel environment choice op = some (reply, later) → Invariant later)
    (bodies : ∀ label, (body label).AllCalls kind)
    {start final : Environment × Prog Op Reply (Label ⊕ α)}
    {choices : List Choice} (calls : start.2.AllCalls kind)
    (before : Invariant start.1)
    (ran : Transition.run (blockStep kernel body) start choices = some final) :
    Invariant final.1 := by
  have ends :
      Invariant final.1 ∧ final.2.AllCalls kind := by
    refine
      Transition.run_invariant
        (fun state : Environment × Prog Op Reply (Label ⊕ α) =>
          Invariant state.1 ∧ state.2.AllCalls kind)
        ?_ ⟨before, calls⟩ ran
    rintro ⟨environment, program⟩ choice ⟨later, rest⟩ ⟨holds, calls⟩ stepped
    rcases advance_eq_some.mp stepped with
      ⟨op, next, reply, action, answered, rfl⟩
    rcases allCalls_of_blockAction bodies calls action with ⟨here, after⟩
    exact
      ⟨kept environment choice op reply later here holds answered,
        after reply⟩
  exact ends.1

/-- A run that returns passes the end of the loop-free part it starts with. -/
theorem run_split
    {program : Prog Op Reply (Label ⊕ α)} {environment final : Environment}
    {choices : List Choice} {value : α}
    (ran :
      Transition.run (blockStep kernel body) (environment, program) choices =
        some (final, .ret (.inr value))) :
    ∃ before after place middle,
      choices = before ++ after ∧
        program.run kernel environment before = some (place, middle) ∧
          Transition.run (blockStep kernel body) (middle, .ret place) after =
            some (final, .ret (.inr value)) := by
  induction program generalizing environment choices with
  | ret place => exact ⟨[], choices, place, environment, rfl, rfl, ran⟩
  | fault =>
      cases choices with
      | nil => cases ran
      | cons choice rest =>
          rcases Transition.run_cons_eq_some.mp ran with ⟨next, stepped, _⟩
          cases stepped
  | call op next induction =>
      cases choices with
      | nil => cases ran
      | cons choice rest =>
          rcases Transition.run_cons_eq_some.mp ran with
            ⟨⟨middle, program⟩, stepped, later⟩
          rcases advance_eq_some.mp stepped with
            ⟨op', next', reply, action, answered, rfl⟩
          cases action
          rcases induction reply later with
            ⟨before, after, place, reached, rfl, prefixRan, restRan⟩
          refine
            ⟨choice :: before, after, place, reached, rfl, ?_, restRan⟩
          exact
            Prog.run_call_eq_some.mpr
              ⟨choice, before, reply, middle, rfl, answered, prefixRan⟩

/-- A program that has returned makes no further call. -/
theorem run_returned
    {environment : Environment} {value : α} {choices : List Choice}
    {final : Environment × Prog Op Reply (Label ⊕ α)}
    (ran :
      Transition.run (blockStep kernel body)
          (environment, .ret (.inr value)) choices =
        some final) :
    final = (environment, .ret (.inr value)) := by
  cases choices with
  | nil =>
      cases ran
      rfl
  | cons choice rest =>
      rcases Transition.run_cons_eq_some.mp ran with ⟨next, stepped, _⟩
      cases stepped

/-! ## Returned values -/

/-- Every value the program can return satisfies the condition. -/
def Yields (post : α → Prop) : Prog Op Reply α → Prop
  | .ret value => post value
  | .call _ next => ∀ reply, Yields post (next reply)
  | .fault => True

theorem Yields.bind
    {β : Type} {post : β → Prop} (first : Prog Op Reply α)
    {rest : α → Prog Op Reply β}
    (after : ∀ value, Yields post (rest value)) :
    Yields post (first >>= rest) := by
  induction first with
  | ret value => exact after value
  | call op next induction => exact induction
  | fault => trivial

theorem Yields.of_run
    {post : α → Prop} {program : Prog Op Reply α} (yields : Yields post program)
    {environment later : Environment} {choices : List Choice} {value : α}
    (ran :
      program.run kernel environment choices = some (value, later)) :
    post value := by
  induction program generalizing environment choices with
  | ret result =>
      rcases Prog.run_ret_eq_some.mp ran with ⟨_, rfl, _⟩
      exact yields
  | fault => simp at ran
  | call op next induction =>
      rcases Prog.run_call_eq_some.mp ran with
        ⟨choice, rest, reply, middle, rfl, _, restRan⟩
      exact induction reply (yields reply) restRan

/-- What the blocks may return is what the program may. -/
theorem Yields.of_blocks
    {post : α → Prop}
    (bodies : ∀ label, Yields (Sum.elim (fun _ => True) post) (body label))
    {start final : Environment × Prog Op Reply (Label ⊕ α)} {value : α}
    {choices : List Choice}
    (yields : Yields (Sum.elim (fun _ => True) post) start.2)
    (ran : Transition.run (blockStep kernel body) start choices = some final)
    (returned : final.2 = .ret (.inr value)) :
    post value := by
  have ends : Yields (Sum.elim (fun _ => True) post) final.2 := by
    refine
      Transition.run_invariant
        (fun state : Environment × Prog Op Reply (Label ⊕ α) =>
          Yields (Sum.elim (fun _ => True) post) state.2)
        ?_ yields ran
    rintro ⟨environment, program⟩ choice ⟨later, rest⟩ yields stepped
    rcases advance_eq_some.mp stepped with
      ⟨op, next, reply, action, answered, rfl⟩
    cases program with
    | fault => cases action
    | call op' next' =>
        cases action
        exact yields reply
    | ret place =>
        cases place with
        | inr value => cases action
        | inl label =>
            have block := bodies label
            simp only [Prog.blockAction] at action
            cases shape : body label with
            | ret place =>
                rw [shape] at action
                cases action
            | fault =>
                rw [shape] at action
                cases action
            | call op' next' =>
                rw [shape] at action block
                cases action
                exact block reply
  rw [returned] at ends
  exact ends

/-! ## Conditions along a run -/

/-- A condition along a run is one along its loop-free part and the rest. -/
theorem along_split
    {condition : Environment → Choice → Op → Prop}
    {program : Prog Op Reply (Label ⊕ α)} {environment middle : Environment}
    {place : Label ⊕ α} {before after : List Choice}
    (ran : program.run kernel environment before = some (place, middle))
    (along :
      Transition.Along (blockStep kernel body) (Meets condition body)
        (environment, program) (before ++ after)) :
    program.Along kernel condition environment before ∧
      Transition.Along (blockStep kernel body) (Meets condition body)
        (middle, .ret place) after := by
  induction program generalizing environment before with
  | ret result =>
      rcases Prog.run_ret_eq_some.mp ran with ⟨rfl, rfl, rfl⟩
      exact ⟨trivial, along⟩
  | fault => simp at ran
  | call op next induction =>
      rcases Prog.run_call_eq_some.mp ran with
        ⟨choice, rest, reply, later, rfl, answered, restRan⟩
      have met : condition environment choice op := along.1 op next rfl
      have stepped :
          blockStep kernel body (environment, .call op next) choice =
            some (later, next reply) :=
        advance_eq_some.mpr ⟨op, next, reply, rfl, answered, rfl⟩
      rcases induction reply restRan (along.2 _ stepped) with
        ⟨first, second⟩
      exact ⟨(Prog.along_call_iff answered).mpr ⟨met, first⟩, second⟩

end DZFile.WholeRuns
