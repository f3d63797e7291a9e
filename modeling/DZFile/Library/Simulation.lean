import DZFile.Library.Transition

/-!
# Forward simulation

An abstract system whose steps are a relation, and a concrete one given by a
step function over the same labels.  When every concrete step from related
states, under a condition that may look at both, is matched by an abstract
step to related states, every concrete run is matched by an abstract one.
-/

namespace DZFile.Simulation

open DZFile.Transition

variable {Abstract State Label : Type}

/-- The abstract states reached by performing the labels in order. -/
inductive Steps
    (step : Abstract → Label → Abstract → Prop) :
    Abstract → List Label → Abstract → Prop where
  | nil (state : Abstract) : Steps step state [] state
  | cons
      {state next final : Abstract} {label : Label} {rest : List Label}
      (first : step state label next) (later : Steps step next rest final) :
      Steps step state (label :: rest) final

/-- What every step keeps, all of them keep. -/
theorem Steps.invariant
    {step : Abstract → Label → Abstract → Prop}
    {condition : Label → Prop} (Invariant : Abstract → Prop)
    (kept : ∀ state label next,
      condition label → Invariant state → step state label next →
        Invariant next)
    {state final : Abstract} {labels : List Label}
    (steps : Steps step state labels final)
    (all : ∀ label ∈ labels, condition label) (start : Invariant state) :
    Invariant final := by
  induction steps with
  | nil state => exact start
  | cons first later induction =>
      apply induction
      · intro label member
        exact all label (List.mem_cons_of_mem _ member)
      · exact kept _ _ _ (all _ List.mem_cons_self) start first

/--
The concrete steps that meet a condition are matched, so the runs of such
steps are.
-/
theorem run_simulates
    {concrete : State → Label → Option State}
    {abstract : Abstract → Label → Abstract → Prop}
    {condition : State → Label → Prop}
    (related : Abstract → State → Prop)
    (matched : ∀ above state label next,
      related above state → condition state label →
        concrete state label = some next →
          ∃ above', abstract above label above' ∧ related above' next)
    {above : Abstract} {state final : State} {labels : List Label}
    (start : related above state)
    (along : Along concrete condition state labels)
    (ran : run concrete state labels = some final) :
    ∃ above', Steps abstract above labels above' ∧ related above' final := by
  induction labels generalizing above state with
  | nil =>
      cases ran
      exact ⟨above, .nil above, start⟩
  | cons label rest induction =>
      rcases run_cons_eq_some.mp ran with ⟨next, stepped, later⟩
      rcases matched above state label next start along.1 stepped with
        ⟨middle, first, reached⟩
      rcases induction reached (along.2 next stepped) later with
        ⟨above', steps, ended⟩
      exact ⟨above', .cons first steps, ended⟩

end DZFile.Simulation
