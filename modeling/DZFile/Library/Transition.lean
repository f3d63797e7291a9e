import Mathlib.Data.List.Basic

/-!
# Runs of labelled partial step functions

A system is a partial function `step : State → Label → Option State`.  The
label resolves every choice of the environment, so a run is determined by its
list of labels and can be evaluated.

The rules are these.  `run_invariant` carries an invariant along every
run.  `run_invariant_along` carries it along those runs whose steps all meet a
condition on the state before the step.  `run_exact` turns a pair of
predicates, one kept by the good steps and one entered by the first bad step
and never left, into an equivalence about the end of a run.
`throughout_iff_along` is its counterpart for a property of all states passed.
`run_observed` reads a record that the states keep off the steps of the run.
-/

namespace DZFile.Transition

variable {State Label : Type}

/-- The state after performing the labels in order, if every step is enabled. -/
def run
    (step : State → Label → Option State) :
    State → List Label → Option State
  | state, [] => some state
  | state, label :: rest =>
      (step state label).bind fun next => run step next rest

@[simp]
theorem run_nil
    (step : State → Label → Option State) (state : State) :
    run step state [] = some state :=
  rfl

@[simp]
theorem run_cons
    (step : State → Label → Option State)
    (state : State) (label : Label) (rest : List Label) :
    run step state (label :: rest) =
      (step state label).bind fun next => run step next rest :=
  rfl

theorem run_cons_eq_some
    {step : State → Label → Option State}
    {state final : State} {label : Label} {rest : List Label} :
    run step state (label :: rest) = some final ↔
      ∃ next, step state label = some next ∧
        run step next rest = some final := by
  simp [Option.bind_eq_some_iff]

/-- What an observer of the steps notes on a run, in order. -/
def observed {Note : Type}
    (step : State → Label → Option State)
    (observe : State → Label → List Note) :
    State → List Label → List Note
  | _, [] => []
  | state, label :: rest =>
      match step state label with
      | none => []
      | some next =>
          observe state label ++ observed step observe next rest

/-- A record to which every step adds what the observer notes. -/
theorem run_observed {Note : Type}
    {step : State → Label → Option State}
    {observe : State → Label → List Note} (record : State → List Note)
    (noted : ∀ state label next,
      step state label = some next →
        record next = record state ++ observe state label)
    {state final : State} {labels : List Label}
    (ran : run step state labels = some final) :
    record final = record state ++ observed step observe state labels := by
  induction labels generalizing state with
  | nil =>
      cases ran
      exact (List.append_nil _).symm
  | cons label rest induction =>
      rcases run_cons_eq_some.mp ran with ⟨next, stepped, later⟩
      rw [induction later, noted state label next stepped, observed, stepped,
        List.append_assoc]

/-- Where the labels alone tell what is noted, it is noted of all of them. -/
theorem observed_of_labels {Note : Type}
    {step : State → Label → Option State} {observe : Label → List Note}
    {state final : State} {labels : List Label}
    (ran : run step state labels = some final) :
    observed step (fun _ => observe) state labels =
      labels.flatMap observe := by
  induction labels generalizing state with
  | nil => rfl
  | cons label rest induction =>
      rcases run_cons_eq_some.mp ran with ⟨next, stepped, later⟩
      rw [observed, stepped, List.flatMap_cons, ← induction later]

/-- Two runs one after the other. -/
theorem run_append
    {step : State → Label → Option State}
    {state middle final : State} (before : List Label) {after : List Label}
    (first : run step state before = some middle)
    (second : run step middle after = some final) :
    run step state (before ++ after) = some final := by
  induction before generalizing state with
  | nil =>
      cases first
      exact second
  | cons label rest induction =>
      rcases run_cons_eq_some.mp first with ⟨next, stepped, later⟩
      exact run_cons_eq_some.mpr ⟨next, stepped, induction later⟩

/-- Every step of the run meets the condition in the state before it. -/
def Along
    (step : State → Label → Option State)
    (condition : State → Label → Prop) :
    State → List Label → Prop
  | _, [] => True
  | state, label :: rest =>
      condition state label ∧
        ∀ next, step state label = some next →
          Along step condition next rest

/-- The step that is taken is the only one to look past. -/
theorem along_cons_of_step
    {step : State → Label → Option State}
    {condition : State → Label → Prop}
    {state next : State} {label : Label} {rest : List Label}
    (met : condition state label) (stepped : step state label = some next)
    (along : Along step condition next rest) :
    Along step condition state (label :: rest) := by
  refine ⟨met, ?_⟩
  intro other reached
  rw [stepped] at reached
  cases reached
  exact along

/-- A condition that can be tested can be tested along a run. -/
instance decidableAlong
    {step : State → Label → Option State}
    {condition : State → Label → Prop}
    [testable : ∀ state label, Decidable (condition state label)] :
    ∀ state labels, Decidable (Along step condition state labels)
  | _, [] => isTrue trivial
  | state, label :: rest =>
      match stepped : step state label with
      | none =>
          decidable_of_iff (condition state label)
            ⟨fun met => ⟨met, fun next reached => by
                rw [stepped] at reached
                cases reached⟩,
              And.left⟩
      | some next =>
          have : Decidable (Along step condition next rest) :=
            @decidableAlong _ _ testable next rest
          decidable_of_iff
            (condition state label ∧ Along step condition next rest)
            ⟨fun met => along_cons_of_step met.1 stepped met.2,
              fun along => ⟨along.1, along.2 next stepped⟩⟩

/-- A condition on the labels alone. -/
theorem along_of_forall
    {step : State → Label → Option State}
    {condition : State → Label → Prop}
    {state : State} {labels : List Label}
    (all : ∀ state, ∀ label ∈ labels, condition state label) :
    Along step condition state labels := by
  induction labels generalizing state with
  | nil => exact trivial
  | cons label rest induction =>
      refine ⟨all state label List.mem_cons_self, fun next _ => ?_⟩
      exact induction fun state label member =>
        all state label (List.mem_cons_of_mem _ member)

/-- A condition that another one implies. -/
theorem Along.mono
    {step : State → Label → Option State}
    {strong weak : State → Label → Prop}
    (implies : ∀ state label, strong state label → weak state label)
    {state : State} {labels : List Label}
    (along : Along step strong state labels) :
    Along step weak state labels := by
  induction labels generalizing state with
  | nil => exact trivial
  | cons label rest induction =>
      refine ⟨implies state label along.1, ?_⟩
      intro next stepped
      exact induction (along.2 next stepped)

/-- An invariant of the step function is an invariant of every run. -/
theorem run_invariant
    {step : State → Label → Option State}
    (Invariant : State → Prop)
    (preserved : ∀ state label next,
      Invariant state → step state label = some next → Invariant next)
    {state final : State} {labels : List Label}
    (start : Invariant state)
    (ran : run step state labels = some final) :
    Invariant final := by
  induction labels generalizing state with
  | nil =>
      cases ran
      exact start
  | cons label rest induction =>
      rcases run_cons_eq_some.mp ran with ⟨next, stepped, later⟩
      exact induction (preserved state label next start stepped) later

/--
An invariant kept by the steps that meet the condition holds at the end of
every run whose steps all meet it.
-/
theorem run_invariant_along
    {step : State → Label → Option State}
    {condition : State → Label → Prop}
    (Invariant : State → Prop)
    (preserved : ∀ state label next,
      Invariant state → condition state label →
        step state label = some next → Invariant next)
    {state final : State} {labels : List Label}
    (start : Invariant state)
    (along : Along step condition state labels)
    (ran : run step state labels = some final) :
    Invariant final := by
  induction labels generalizing state with
  | nil =>
      cases ran
      exact start
  | cons label rest induction =>
      rcases run_cons_eq_some.mp ran with ⟨next, stepped, later⟩
      exact
        induction
          (preserved state label next start along.1 stepped)
          (along.2 next stepped) later

/--
Two conditions that agree on the steps taken from the states of an invariant,
under an assumption that holds along the run, hold along the same runs.
-/
theorem along_congr_of_assumed
    {step : State → Label → Option State}
    {assumed left right : State → Label → Prop}
    (Invariant : State → Prop)
    (preserved : ∀ state label next,
      Invariant state → assumed state label →
        step state label = some next → Invariant next)
    (agree : ∀ state label next,
      Invariant state → assumed state label →
        step state label = some next → (left state label ↔ right state label))
    {state final : State} {labels : List Label}
    (start : Invariant state)
    (along : Along step assumed state labels)
    (ran : run step state labels = some final) :
    Along step left state labels ↔ Along step right state labels := by
  induction labels generalizing state with
  | nil => exact Iff.rfl
  | cons label rest induction =>
      rcases run_cons_eq_some.mp ran with ⟨next, stepped, later⟩
      have here := agree state label next start along.1 stepped
      have there :=
        induction (preserved state label next start along.1 stepped)
          (along.2 next stepped) later
      have onlyNext : ∀ other, step state label = some other → other = next := by
        intro other otherStep
        exact Option.some.inj (otherStep.symm.trans stepped)
      constructor
      · rintro ⟨first, after⟩
        refine ⟨here.mp first, fun other otherStep => ?_⟩
        rw [onlyNext other otherStep]
        exact there.mp (after next stepped)
      · rintro ⟨first, after⟩
        refine ⟨here.mpr first, fun other otherStep => ?_⟩
        rw [onlyNext other otherStep]
        exact there.mpr (after next stepped)

/--
When the good steps keep `Sound`, the first bad step enters `Broken` and no
step leaves `Broken`, the end of a run tells whether all its steps were good;
all of this under an assumption that holds along the run.
-/
theorem run_exact_along
    {step : State → Label → Option State}
    {assumed condition : State → Label → Prop}
    {Sound Broken : State → Prop}
    (kept : ∀ state label next,
      Sound state → assumed state label → condition state label →
        step state label = some next → Sound next)
    (entered : ∀ state label next,
      Sound state → assumed state label → ¬ condition state label →
        step state label = some next → Broken next)
    (absorbed : ∀ state label next,
      Broken state → assumed state label →
        step state label = some next → Broken next)
    {state final : State} {labels : List Label}
    (start : Sound state) (along : Along step assumed state labels)
    (ran : run step state labels = some final) :
    (Along step condition state labels ∧ Sound final) ∨
      (¬ Along step condition state labels ∧ Broken final) := by
  induction labels generalizing state with
  | nil =>
      cases ran
      exact Or.inl ⟨trivial, start⟩
  | cons label rest induction =>
      rcases run_cons_eq_some.mp ran with ⟨next, stepped, later⟩
      have onlyNext : ∀ other, step state label = some other → other = next := by
        intro other otherStep
        exact Option.some.inj (otherStep.symm.trans stepped)
      have here := along.1
      have there := along.2 next stepped
      by_cases good : condition state label
      · have sound := kept state label next start here good stepped
        rcases induction sound there later with
          ⟨goods, sound⟩ | ⟨notGoods, broken⟩
        · refine Or.inl ⟨⟨good, ?_⟩, sound⟩
          intro other otherStep
          rw [onlyNext other otherStep]
          exact goods
        · exact Or.inr ⟨fun all => notGoods (all.2 next stepped), broken⟩
      · refine Or.inr ⟨fun all => good all.1, ?_⟩
        exact
          run_invariant_along Broken absorbed
            (entered state label next start here good stepped) there later

/-- The same where nothing has to be assumed. -/
theorem run_exact
    {step : State → Label → Option State}
    {condition : State → Label → Prop}
    {Sound Broken : State → Prop}
    (kept : ∀ state label next,
      Sound state → condition state label →
        step state label = some next → Sound next)
    (entered : ∀ state label next,
      Sound state → ¬ condition state label →
        step state label = some next → Broken next)
    (absorbed : ∀ state label next,
      Broken state → step state label = some next → Broken next)
    {state final : State} {labels : List Label}
    (start : Sound state)
    (ran : run step state labels = some final) :
    (Along step condition state labels ∧ Sound final) ∨
      (¬ Along step condition state labels ∧ Broken final) :=
  @run_exact_along _ _ step (fun _ _ => True) condition Sound Broken
    (fun state label next sound _ => kept state label next sound)
    (fun state label next sound _ => entered state label next sound)
    (fun state label next broken _ => absorbed state label next broken)
    state final labels start (along_of_forall fun _ _ _ => trivial) ran

/--
A potential that every step raises and that stays below a bound limits the
length of a run.
-/
theorem length_le_of_climbs
    {step : State → Label → Option State}
    (potential : State → Nat → Prop) {bound : Nat}
    (climbs : ∀ state label next height,
      potential state height → step state label = some next →
        ∃ higher, height < higher ∧ potential next higher)
    (limited : ∀ state height, potential state height → height ≤ bound)
    {state final : State} {labels : List Label} {height : Nat}
    (start : potential state height)
    (ran : run step state labels = some final) :
    labels.length + height ≤ bound := by
  induction labels generalizing state height with
  | nil =>
      rw [List.length_nil, Nat.zero_add]
      exact limited state height start
  | cons label rest induction =>
      rcases run_cons_eq_some.mp ran with ⟨next, stepped, later⟩
      rcases climbs state label next height start stepped with
        ⟨higher, above, reached⟩
      have here := induction reached later
      rw [List.length_cons]
      omega

/-- Every state the run passes, its end included, satisfies the property. -/
def Throughout
    (step : State → Label → Option State) (property : State → Prop)
    (state : State) (labels : List Label) : Prop :=
  ∀ before middle, before <+: labels →
    run step state before = some middle → property middle

/-- The property holds where the run starts. -/
theorem Throughout.here
    {step : State → Label → Option State} {property : State → Prop}
    {state : State} {labels : List Label}
    (throughout : Throughout step property state labels) :
    property state :=
  throughout [] state (List.nil_prefix) rfl

/-- The property holds throughout the rest of the run. -/
theorem Throughout.tail
    {step : State → Label → Option State} {property : State → Prop}
    {state next : State} {label : Label} {rest : List Label}
    (throughout : Throughout step property state (label :: rest))
    (stepped : step state label = some next) :
    Throughout step property next rest := by
  intro before middle isPrefix reached
  apply throughout (label :: before) middle
  · exact List.cons_prefix_cons.mpr ⟨rfl, isPrefix⟩
  · exact run_cons_eq_some.mpr ⟨next, stepped, reached⟩

/-- An invariant kept by the good steps holds throughout a run of good steps. -/
theorem throughout_of_along
    {step : State → Label → Option State}
    {condition : State → Label → Prop}
    (Invariant : State → Prop) {property : State → Prop}
    (safe : ∀ state, Invariant state → property state)
    (kept : ∀ state label next,
      Invariant state → condition state label →
        step state label = some next → Invariant next)
    {state : State} {labels : List Label}
    (start : Invariant state)
    (along : Along step condition state labels) :
    Throughout step property state labels := by
  induction labels generalizing state with
  | nil =>
      intro before middle isPrefix reached
      rw [List.prefix_nil.mp isPrefix] at reached
      cases reached
      exact safe state start
  | cons label rest induction =>
      intro before middle isPrefix reached
      cases before with
      | nil =>
          cases reached
          exact safe state start
      | cons first before =>
          rcases List.cons_prefix_cons.mp isPrefix with ⟨rfl, isPrefix'⟩
          rcases run_cons_eq_some.mp reached with
            ⟨next, stepped, reached'⟩
          exact
            induction
              (kept state first next start along.1 stepped)
              (along.2 next stepped) before middle isPrefix' reached'

/--
When the good steps keep an invariant that implies the property and a bad step
leads from the invariant to a state without the property, the property holds
throughout exactly the runs of good steps.
-/
theorem throughout_iff_along
    {step : State → Label → Option State}
    {condition : State → Label → Prop}
    (Invariant : State → Prop) {property : State → Prop}
    (safe : ∀ state, Invariant state → property state)
    (kept : ∀ state label next,
      Invariant state → condition state label →
        step state label = some next → Invariant next)
    (unsafe_ : ∀ state label next,
      Invariant state → ¬ condition state label →
        step state label = some next → ¬ property next)
    {state final : State} {labels : List Label}
    (start : Invariant state)
    (ran : run step state labels = some final) :
    Throughout step property state labels ↔
      Along step condition state labels := by
  constructor
  · intro throughout
    induction labels generalizing state with
    | nil => trivial
    | cons label rest induction =>
        rcases run_cons_eq_some.mp ran with ⟨next, stepped, later⟩
        have good : condition state label := by
          by_contra bad
          exact
            unsafe_ state label next start bad stepped
              (throughout.tail stepped).here
        refine ⟨good, ?_⟩
        intro other otherStep
        rw [stepped] at otherStep
        cases otherStep
        exact
          induction (kept state label next start good stepped) later
            (throughout.tail stepped)
  · exact throughout_of_along Invariant safe kept start

/-- A run that goes on where another one has ended. -/
theorem Along.append
    {step : State → Label → Option State}
    {condition : State → Label → Prop} {state middle : State}
    {first second : List Label} (along : Along step condition state first)
    (ran : run step state first = some middle)
    (after : Along step condition middle second) :
    Along step condition state (first ++ second) := by
  induction first generalizing state with
  | nil =>
      cases ran
      exact after
  | cons label rest induction =>
      rcases run_cons_eq_some.mp ran with ⟨next, stepped, later⟩
      exact
        along_cons_of_step along.1 stepped
          (induction (along.2 next stepped) later)

/-- A property that holds throughout a run holds before and after its steps. -/
theorem Throughout.along
    {step : State → Label → Option State} {property : State → Prop}
    {state : State} {labels : List Label}
    (throughout : Throughout step property state labels) :
    Along step
      (fun state label =>
        property state ∧
          ∀ next, step state label = some next → property next)
      state labels := by
  induction labels generalizing state with
  | nil => trivial
  | cons label rest induction =>
      exact
        ⟨⟨throughout.here, fun next stepped =>
            (throughout.tail stepped).here⟩,
          fun next stepped => induction (throughout.tail stepped)⟩

/-- Two conditions met along a run are met together. -/
theorem Along.and
    {step : State → Label → Option State}
    {left right : State → Label → Prop} {state : State}
    {labels : List Label} (first : Along step left state labels)
    (second : Along step right state labels) :
    Along step (fun state label => left state label ∧ right state label)
      state labels := by
  induction labels generalizing state with
  | nil => trivial
  | cons label rest induction =>
      exact
        ⟨⟨first.1, second.1⟩, fun next stepped =>
          induction (first.2 next stepped) (second.2 next stepped)⟩

end DZFile.Transition
