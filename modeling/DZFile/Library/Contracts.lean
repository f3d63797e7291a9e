import DZFile.Library.Interaction

/-!
# Runs that meet a contract

A contract is a precondition of every call, on the state the call finds, and
a postcondition of the end.  `Completes` says that a program has a run to its
end that meets both.

Where the environment leaves no choice there is at most one run, and every
rule is an equivalence: the walk through the program that shows a contract to
be met also shows when it is not.
-/

namespace DZFile.Contracts

open DZFile.Interaction

variable {Op : Type} {Reply : Op → Type} {σ α Choice : Type}

/-- Some run of the program to its end meets the contract. -/
def Completes
    (kernel : Kernel Op Reply σ Choice)
    (pre : σ → Choice → Op → Prop) (post : α → σ → Prop)
    (program : Prog Op Reply α) (state : σ) : Prop :=
  ∃ choices value later,
    program.run kernel state choices = some (value, later) ∧
      program.Along kernel pre state choices ∧ post value later

section Rules

variable
    {kernel : Kernel Op Reply σ Choice}
    {pre : σ → Choice → Op → Prop} {post : α → σ → Prop}
    {state : σ} {op : Op} {next : Reply op → Prog Op Reply α}

/-- A program that has returned. -/
theorem completes_ret_iff {value : α} :
    Completes kernel pre post (.ret value) state ↔ post value state := by
  constructor
  · rintro ⟨choices, result, later, ran, _, met⟩
    rcases Prog.run_ret_eq_some.mp ran with ⟨_, rfl, rfl⟩
    exact met
  · intro met
    exact ⟨[], value, state, rfl, trivial, met⟩

/-- Undefined behaviour meets no contract. -/
theorem not_completes_fault :
    ¬ Completes kernel pre post (.fault : Prog Op Reply α) state := by
  rintro ⟨choices, value, later, ran, _⟩
  simp at ran

/-- A call that meets its precondition, and what follows the reply. -/
theorem completes_call_iff :
    Completes kernel pre post (.call op next) state ↔
      ∃ choice reply middle,
        kernel state choice op = some (reply, middle) ∧
          pre state choice op ∧
            Completes kernel pre post (next reply) middle := by
  constructor
  · rintro ⟨choices, value, later, ran, along, met⟩
    rcases Prog.run_call_eq_some.mp ran with
      ⟨choice, rest, reply, middle, rfl, answered, after⟩
    exact
      ⟨choice, reply, middle, answered, along.1,
        rest, value, later, after, along.2 reply middle answered, met⟩
  · rintro
      ⟨choice, reply, middle, answered, met,
        rest, value, later, after, along, ended⟩
    exact
      ⟨choice :: rest, value, later,
        Prog.run_call_eq_some.mpr
          ⟨choice, rest, reply, middle, rfl, answered, after⟩,
        (Prog.along_call_iff answered).mpr ⟨met, along⟩, ended⟩

/-- No contract is met past a call whose precondition fails. -/
theorem not_completes_of_not_pre
    (fails : ∀ choice, ¬ pre state choice op) :
    ¬ Completes kernel pre post (.call op next) state := by
  intro completes
  rcases completes_call_iff.mp completes with ⟨choice, _, _, _, met, _⟩
  exact fails choice met

end Rules

/-- Where there is no choice, the call's only reply is the one to look past. -/
theorem completes_call_of_answer
    {kernel : Kernel Op Reply σ Unit}
    {pre : σ → Unit → Op → Prop} {post : α → σ → Prop}
    {state middle : σ} {op : Op} {reply : Reply op}
    {next : Reply op → Prog Op Reply α}
    (answered : kernel state () op = some (reply, middle))
    (met : pre state () op) :
    Completes kernel pre post (.call op next) state ↔
      Completes kernel pre post (next reply) middle := by
  rw [completes_call_iff]
  constructor
  · rintro ⟨_, other, otherwise, answer, _, after⟩
    rw [answered] at answer
    cases answer
    exact after
  · intro after
    exact ⟨(), reply, middle, answered, met, after⟩

end DZFile.Contracts
