import DZFile.Library.Interaction
import DZFile.Library.Transition

/-!
# Processes side by side

Processes that share a part of the environment and have a part of their own
each.  A step of the world is a call of one process.

The rule is a projection.  Take a relation between the world and an
environment in which one process is alone, such that the process does the same
in both, and such that the others do not disturb the relation.  Then whatever
the order of the calls, the process runs as it does alone.
-/

namespace DZFile.Interleaving

open DZFile.Interaction

variable
    {Op : Type} {Reply : Op → Type} {Choice Pid : Type}
    {Shared Private Environment : Type} {Local Result : Pid → Type}

/-- A shared part, and for each process its own part and its program. -/
structure World (Pid Shared Private : Type) (Local : Pid → Type) where
  shared : Shared
  privates : Pid → Private
  locals : (pid : Pid) → Local pid

/-- What the processes do, and what they see of the world. -/
structure System
    (Op : Type) (Reply : Op → Type)
    (Choice Shared Private Environment : Type) (Local Result : Pid → Type)
    where
  kernel : Kernel Op Reply Environment Choice
  action : (pid : Pid) → Local pid → Action Op Reply (Local pid) (Result pid)
  join : Shared → Private → Environment
  shared : Environment → Shared
  own : Environment → Private

/-- The calls of one process. -/
def choicesOf [DecidableEq Pid] (pid : Pid) (labels : List (Pid × Choice)) :
    List Choice :=
  (labels.filter fun label => label.1 = pid).map Prod.snd

namespace System

variable
    (system :
      System Op Reply Choice Shared Private Environment Local Result)

/-- The environment of a process. -/
def sees (world : World Pid Shared Private Local) (pid : Pid) : Environment :=
  system.join world.shared (world.privates pid)

/-- A call of a process that is alone. -/
def alone (pid : Pid) (state : Environment × Local pid) (choice : Choice) :
    Option (Environment × Local pid) :=
  advance system.kernel (system.action pid) state.1 state.2 choice

variable [DecidableEq Pid]

/-- A call of one of the processes. -/
def step (world : World Pid Shared Private Local) (label : Pid × Choice) :
    Option (World Pid Shared Private Local) :=
  (system.alone label.1 (system.sees world label.1, world.locals label.1)
      label.2).map fun answer =>
    { shared := system.shared answer.1
      privates :=
        Function.update world.privates label.1 (system.own answer.1)
      locals := Function.update world.locals label.1 answer.2 }

variable {system}

/-- The others leave the program of a process alone. -/
theorem locals_of_step
    {world next : World Pid Shared Private Local} {label : Pid × Choice}
    (stepped : system.step world label = some next) {pid : Pid}
    (other : label.1 ≠ pid) :
    next.locals pid = world.locals pid := by
  rcases Option.map_eq_some_iff.mp stepped with ⟨answer, _, rfl⟩
  exact Function.update_of_ne other.symm _ _

/-- Among the others a process runs as it does alone. -/
theorem run_projects
    (pid : Pid)
    (agrees : World Pid Shared Private Local → Environment → Prop)
    (own : ∀ world environment choice next,
      agrees world environment → system.step world (pid, choice) = some next →
        ∃ later,
          system.alone pid (environment, world.locals pid) choice =
              some (later, next.locals pid) ∧
            agrees next later)
    (others : ∀ world environment label next,
      label.1 ≠ pid → agrees world environment →
        system.step world label = some next → agrees next environment)
    {world final : World Pid Shared Private Local} {environment : Environment}
    {labels : List (Pid × Choice)} (start : agrees world environment)
    (ran : Transition.run system.step world labels = some final) :
    ∃ later,
      Transition.run (system.alone pid) (environment, world.locals pid)
          (choicesOf pid labels) =
          some (later, final.locals pid) ∧
        agrees final later := by
  induction labels generalizing world environment with
  | nil =>
      cases ran
      exact ⟨environment, rfl, start⟩
  | cons label rest induction =>
      rcases Transition.run_cons_eq_some.mp ran with ⟨next, stepped, restRan⟩
      by_cases same : label.1 = pid
      · rcases label with ⟨pid', choice⟩
        cases same
        rcases own world environment choice next start stepped with
          ⟨middle, moved, reached⟩
        rcases induction reached restRan with ⟨later, ran, ended⟩
        refine ⟨later, ?_, ended⟩
        rw [choicesOf, List.filter_cons_of_pos (by simp), List.map_cons]
        exact Transition.run_cons_eq_some.mpr ⟨_, moved, ran⟩
      · have reached := others world environment label next same start stepped
        rcases induction reached restRan with ⟨later, ran, ended⟩
        refine ⟨later, ?_, ended⟩
        rw [choicesOf, List.filter_cons_of_neg (by simpa using same),
          ← locals_of_step stepped same]
        exact ran

end System

end DZFile.Interleaving
