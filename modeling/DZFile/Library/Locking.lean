import DZFile.Library.Interaction
import DZFile.Library.Transition
import Mathlib.Logic.Function.Basic

/-!
# Threads that share one lock

A thread runs programs whose calls may lock and unlock one mutex that all
threads share.  Locking waits until the mutex is free; unlocking makes it free
whoever calls it.  Each thread counts how often its current program has locked
and unlocked.

`Balances` says of a program that its locks and unlocks match on every path,
as long as its other calls get allowed replies, and that it unlocks once too
often after a reply that is not allowed.  When all programs are of this kind,
a run stays balanced exactly as long as all replies are allowed.
-/

namespace DZFile.Locking

open DZFile.Interaction
open DZFile.Transition

/-- A call of the shared lock, or another one. -/
inductive LockOp (Op : Type) where
  | lock
  | unlock
  | call (op : Op)

/-- The lock gives no reply. -/
@[reducible]
def LockReply {Op : Type} (Reply : Op → Type) : LockOp Op → Type
  | .lock => Unit
  | .unlock => Unit
  | .call op => Reply op

/-- A program of a thread. -/
abbrev Locked (Op : Type) (Reply : Op → Type) (α : Type) :=
  Prog (LockOp Op) (LockReply Reply) α

section Programs

variable {Op : Type} {Reply : Op → Type} {α β : Type}

/-- The program without its calls of the lock. -/
def erase : Locked Op Reply α → Prog Op Reply α
  | .ret value => .ret value
  | .call .lock next => erase (next ())
  | .call .unlock next => erase (next ())
  | .call (.call op) next => .call op fun reply => erase (next reply)
  | .fault => .fault

/-- With so many locks to give back, the program gives back more. -/
def Overdraws : Nat → Locked Op Reply α → Prop
  | _, .ret _ => False
  | _, .fault => False
  | held, .call .lock next => Overdraws (held + 1) (next ())
  | 0, .call .unlock _ => True
  | held + 1, .call .unlock next => Overdraws held (next ())
  | held, .call (.call _) next => ∀ reply, Overdraws held (next reply)

/--
Holding the lock or not, the program locks and unlocks in turn and returns
without it, unless it gets a reply that is not allowed; then it overdraws.
-/
def Balances (Allowed : (op : Op) → Reply op → Prop) :
    Bool → Locked Op Reply α → Prop
  | held, .ret _ => held = false
  | _, .fault => True
  | held, .call .lock next => held = false ∧ Balances Allowed true (next ())
  | held, .call .unlock next => held = true ∧ Balances Allowed false (next ())
  | held, .call (.call op) next =>
      ∀ reply,
        (Allowed op reply → Balances Allowed held (next reply)) ∧
          (¬ Allowed op reply → Overdraws held.toNat (next reply))

/-- What follows an overdrawing program does not put it right. -/
theorem Overdraws.bind
    {held : Nat} {first : Locked Op Reply α} {rest : α → Locked Op Reply β}
    (overdraws : Overdraws held first) :
    Overdraws held (first >>= rest) := by
  induction first generalizing held with
  | ret value => exact overdraws.elim
  | fault => exact overdraws.elim
  | call op next induction =>
      cases op with
      | lock =>
          simp only [Overdraws, Prog.call_bind] at overdraws ⊢
          exact induction () overdraws
      | unlock =>
          cases held with
          | zero => trivial
          | succ held =>
              simp only [Overdraws, Prog.call_bind] at overdraws ⊢
              exact induction () overdraws
      | call op =>
          simp only [Overdraws, Prog.call_bind] at overdraws ⊢
          intro reply
          exact induction reply (overdraws reply)

/-- Balancing programs compose. -/
theorem Balances.bind
    {Allowed : (op : Op) → Reply op → Prop} {held : Bool}
    {first : Locked Op Reply α} {rest : α → Locked Op Reply β}
    (before : Balances Allowed held first)
    (after : ∀ value, Balances Allowed false (rest value)) :
    Balances Allowed held (first >>= rest) := by
  induction first generalizing held with
  | ret value =>
      rw [show held = false from before]
      exact after value
  | fault => trivial
  | call op next induction =>
      cases op with
      | lock => exact ⟨before.1, induction () before.2⟩
      | unlock => exact ⟨before.1, induction () before.2⟩
      | call op =>
          intro reply
          constructor
          · intro allowed
            exact induction reply ((before reply).1 allowed)
          · intro refused
            exact ((before reply).2 refused).bind

end Programs

/-! ## Runs -/

/-- A thread, and what its current program has done with the lock. -/
structure Thread (Op : Type) (Reply : Op → Type) (α : Type) where
  program : Locked Op Reply α
  acquired : Nat
  released : Nat

/-- The lock, the environment and the threads. -/
structure State
    (Op : Type) (Reply : Op → Type) (α Environment : Type) where
  locked : Bool
  environment : Environment
  thread : Nat → Thread Op Reply α

/-- A thread calls a function, or makes the next call of its program. -/
inductive Label (Request Choice : Type) where
  | start (number : Nat) (request : Request)
  | step (number : Nat) (choice : Choice)

section Runs

variable
    {Op : Type} {Reply : Op → Type} {α : Type}
    {Environment Choice Request : Type}

/-- The thread has returned from the last function it called. -/
def Thread.Idle (thread : Thread Op Reply α) : Prop :=
  thread.program.returned.isSome

/-- The thread is between its lock and its unlock. -/
def Thread.Inside (thread : Thread Op Reply α) : Prop :=
  thread.released < thread.acquired

/-- A thread that enters a function. -/
def Thread.enter (program : Locked Op Reply α) : Thread Op Reply α :=
  ⟨program, 0, 0⟩

/-- The state after a call of one thread. -/
def State.after
    (state : State Op Reply α Environment) (number : Nat)
    (locked : Bool) (environment : Environment)
    (thread : Thread Op Reply α) : State Op Reply α Environment :=
  ⟨locked, environment, Function.update state.thread number thread⟩

/-- The next call of a thread. -/
def State.advance
    (kernel : Kernel Op Reply Environment Choice)
    (state : State Op Reply α Environment) (number : Nat) (choice : Choice) :
    Option (State Op Reply α Environment) :=
  let thread := state.thread number
  match thread.program with
  | .ret _ => none
  | .fault => none
  | .call .lock next =>
      if state.locked then none
      else
        some
          (state.after number true state.environment
            ⟨next (), thread.acquired + 1, thread.released⟩)
  | .call .unlock next =>
      some
        (state.after number false state.environment
          ⟨next (), thread.acquired, thread.released + 1⟩)
  | .call (.call op) next =>
      (kernel state.environment choice op).map fun answer =>
        state.after number state.locked answer.2
          ⟨next answer.1, thread.acquired, thread.released⟩

/-- One step of the threads. -/
def step
    (kernel : Kernel Op Reply Environment Choice)
    (program : Request → Locked Op Reply α)
    (state : State Op Reply α Environment) :
    Label Request Choice → Option (State Op Reply α Environment)
  | .start number request =>
      if (state.thread number).program.returned.isSome then
        some
          (state.after number state.locked state.environment
            (.enter (program request)))
      else none
  | .step number choice => state.advance kernel number choice

/-- All threads before their first call, each as if returned with a value. -/
def State.idle
    (value : α) (environment : Environment) :
    State Op Reply α Environment where
  locked := false
  environment := environment
  thread _ := .enter (.ret value)

/--
Every call unlocks only while it has the lock to give back and has given it
back when it returns, and one thread at most is inside.
-/
structure State.Balanced (state : State Op Reply α Environment) : Prop where
  backed :
    ∀ number,
      (state.thread number).released ≤ (state.thread number).acquired
  matched :
    ∀ number,
      (state.thread number).Idle →
        (state.thread number).released = (state.thread number).acquired
  exclusive :
    ∀ first second,
      (state.thread first).Inside → (state.thread second).Inside →
        first = second

/-- The call that comes next, if one does, gets an allowed reply. -/
def Allows
    (kernel : Kernel Op Reply Environment Choice)
    (Allowed : (op : Op) → Reply op → Prop)
    (state : State Op Reply α Environment) : Label Request Choice → Prop
  | .start _ _ => True
  | .step number choice =>
      ∀ op next reply environment,
        (state.thread number).program = .call (.call op) next →
          kernel state.environment choice op = some (reply, environment) →
            Allowed op reply

/-! ### Balance -/

/-- A thread holds the lock or not, and its program balances from there. -/
structure Thread.Sound
    (Allowed : (op : Op) → Reply op → Prop)
    (thread : Thread Op Reply α) (held : Bool) : Prop where
  counts : thread.acquired = thread.released + held.toNat
  balances : Balances Allowed held thread.program

/-- The invariant: each thread is sound, and the lock knows who is inside. -/
structure State.Sound
    (Allowed : (op : Op) → Reply op → Prop)
    (state : State Op Reply α Environment) : Prop where
  threads : ∀ number, ∃ held, (state.thread number).Sound Allowed held
  guarded : ∀ number, (state.thread number).Inside → state.locked = true
  exclusive :
    ∀ first second,
      (state.thread first).Inside → (state.thread second).Inside →
        first = second

theorem Thread.Sound.inside_iff
    {Allowed : (op : Op) → Reply op → Prop}
    {thread : Thread Op Reply α} {held : Bool}
    (sound : thread.Sound Allowed held) :
    thread.Inside ↔ held = true := by
  have counts := sound.counts
  cases held with
  | false =>
      simp only [Bool.toNat_false, Nat.add_zero] at counts
      simp [Thread.Inside, counts]
  | true =>
      simp only [Bool.toNat_true] at counts
      simp [Thread.Inside, counts]

/-- A sound state is balanced. -/
theorem State.Sound.balanced
    {Allowed : (op : Op) → Reply op → Prop}
    {state : State Op Reply α Environment}
    (sound : state.Sound Allowed) :
    state.Balanced where
  backed number := by
    rcases sound.threads number with ⟨held, thread⟩
    rw [thread.counts]
    exact Nat.le_add_right _ _
  matched number idle := by
    rcases sound.threads number with ⟨held, thread⟩
    have balances := thread.balances
    cases program : (state.thread number).program with
    | ret value =>
        rw [program] at balances
        have counts := thread.counts
        rw [show held = false from balances] at counts
        exact counts.symm
    | call op next => simp [Thread.Idle, program, Prog.returned] at idle
    | fault => simp [Thread.Idle, program, Prog.returned] at idle
  exclusive := sound.exclusive

/-- A thread that does not come inside leaves the others alone. -/
theorem State.Sound.after
    {Allowed : (op : Op) → Reply op → Prop}
    {state : State Op Reply α Environment}
    (sound : state.Sound Allowed)
    {number : Nat} {locked : Bool} {environment : Environment}
    {thread : Thread Op Reply α} {held : Bool}
    (threadSound : thread.Sound Allowed held)
    (guarded :
      ∀ other, other ≠ number → (state.thread other).Inside →
        locked = true)
    (exclusive :
      held = true →
        locked = true ∧
          ∀ other, other ≠ number → ¬ (state.thread other).Inside) :
    (state.after number locked environment thread).Sound Allowed where
  threads other := by
    by_cases same : other = number
    · subst same
      simp only [State.after, Function.update_self]
      exact ⟨held, threadSound⟩
    · simp only [State.after, Function.update_of_ne same]
      exact sound.threads other
  guarded other inside := by
    by_cases same : other = number
    · subst same
      simp only [State.after, Function.update_self] at inside
      exact (exclusive (threadSound.inside_iff.mp inside)).1
    · simp only [State.after, Function.update_of_ne same] at inside
      exact guarded other same inside
  exclusive first second firstInside secondInside := by
    by_cases firstSame : first = number
    · by_cases secondSame : second = number
      · rw [firstSame, secondSame]
      · subst firstSame
        simp only [State.after, Function.update_self] at firstInside
        simp only [State.after, Function.update_of_ne secondSame]
          at secondInside
        have alone := (exclusive (threadSound.inside_iff.mp firstInside)).2
        exact (alone second secondSame secondInside).elim
    · simp only [State.after, Function.update_of_ne firstSame] at firstInside
      by_cases secondSame : second = number
      · subst secondSame
        simp only [State.after, Function.update_self] at secondInside
        have alone := (exclusive (threadSound.inside_iff.mp secondInside)).2
        exact (alone first firstSame firstInside).elim
      · simp only [State.after, Function.update_of_ne secondSame]
          at secondInside
        exact sound.exclusive first second firstInside secondInside

/-- A step whose reply is allowed keeps the invariant. -/
theorem State.Sound.step
    {kernel : Kernel Op Reply Environment Choice}
    {Allowed : (op : Op) → Reply op → Prop}
    {program : Request → Locked Op Reply α}
    (balances : ∀ request, Balances Allowed false (program request))
    {state next : State Op Reply α Environment}
    {label : Label Request Choice}
    (sound : state.Sound Allowed)
    (allows : Allows kernel Allowed state label)
    (stepped : Locking.step kernel program state label = some next) :
    next.Sound Allowed := by
  cases label with
  | start number request =>
      simp only [Locking.step] at stepped
      split at stepped
      · cases stepped
        have entered :
            (Thread.enter (program request)).Sound Allowed false :=
          ⟨rfl, balances request⟩
        apply sound.after entered
        · intro other _ inside
          exact sound.guarded other inside
        · simp
      · cases stepped
  | step number choice =>
      rcases sound.threads number with ⟨held, thread⟩
      have counts := thread.counts
      have judged := thread.balances
      simp only [Locking.step, State.advance] at stepped
      split at stepped
      · cases stepped
      · cases stepped
      · -- The mutex is free, so nobody is inside.
        rename_i following calls
        split at stepped
        · cases stepped
        · rename_i free
          cases stepped
          rw [calls] at judged
          rcases judged with ⟨rfl, judged⟩
          have locking :
              Thread.Sound Allowed
                ⟨following (), (state.thread number).acquired + 1,
                  (state.thread number).released⟩ true :=
            ⟨congrArg (· + 1) counts, judged⟩
          apply sound.after locking
          · simp
          · intro _
            constructor
            · rfl
            · intro other _ inside
              exact free (sound.guarded other inside)
      · -- The thread is inside, so nobody else is.
        rename_i following calls
        cases stepped
        rw [calls] at judged
        rcases judged with ⟨rfl, judged⟩
        have unlocking :
            Thread.Sound Allowed
              ⟨following (), (state.thread number).acquired,
                (state.thread number).released + 1⟩ false :=
          ⟨counts, judged⟩
        apply sound.after unlocking
        · intro other different inside
          have both :=
            sound.exclusive other number inside
              (thread.inside_iff.mpr rfl)
          exact (different both).elim
        · simp
      · rename_i op following calls
        rcases Option.map_eq_some_iff.mp stepped with
          ⟨⟨reply, environment⟩, answered, rfl⟩
        rw [calls] at judged
        have allowed :=
          allows op following reply environment calls answered
        have calling :
            Thread.Sound Allowed
              ⟨following reply, (state.thread number).acquired,
                (state.thread number).released⟩ held :=
          ⟨counts, (judged reply).1 allowed⟩
        apply sound.after calling
        · intro other _ inside
          exact sound.guarded other inside
        · intro inside
          have own := thread.inside_iff.mpr inside
          constructor
          · exact sound.guarded number own
          · intro other different otherInside
            exact different (sound.exclusive other number otherInside own)

/-! ### A reply that is not allowed -/

/-- A thread whose program will unlock more often than it has locked. -/
def Thread.Doomed (thread : Thread Op Reply α) : Prop :=
  ∃ held,
    thread.acquired = thread.released + held ∧
      Overdraws held thread.program

theorem Thread.Doomed.not_idle
    {thread : Thread Op Reply α} (doomed : thread.Doomed) :
    ¬ thread.Idle := by
  rcases doomed with ⟨held, _, overdraws⟩
  intro idle
  cases program : thread.program with
  | ret value =>
      rw [program] at overdraws
      exact overdraws
  | call op next => simp [Thread.Idle, program, Prog.returned] at idle
  | fault => simp [Thread.Idle, program, Prog.returned] at idle

/-- A doomed thread stays doomed until the step that unlocks too often. -/
theorem Thread.Doomed.step
    {kernel : Kernel Op Reply Environment Choice}
    {program : Request → Locked Op Reply α}
    {state next : State Op Reply α Environment}
    {label : Label Request Choice} {number : Nat}
    (doomed : (state.thread number).Doomed)
    (stepped : Locking.step kernel program state label = some next) :
    (next.thread number).Doomed ∨ ¬ next.Balanced := by
  cases label with
  | start other request =>
      simp only [Locking.step] at stepped
      split at stepped
      · rename_i idle
        cases stepped
        have different : number ≠ other := by
          rintro rfl
          exact doomed.not_idle idle
        simp only [State.after, Function.update_of_ne different]
        exact Or.inl doomed
      · cases stepped
  | step other choice =>
      by_cases same : number = other
      · subst same
        rcases doomed with ⟨held, counts, overdraws⟩
        simp only [Locking.step, State.advance] at stepped
        split at stepped
        · cases stepped
        · cases stepped
        · rename_i following calls
          rw [calls] at overdraws
          split at stepped
          · cases stepped
          · cases stepped
            left
            refine ⟨held + 1, ?_, ?_⟩
            · simp only [State.after, Function.update_self, counts]
              rfl
            · simp only [State.after, Function.update_self]
              simpa only [Overdraws] using overdraws
        · rename_i following calls
          rw [calls] at overdraws
          cases stepped
          cases held with
          | zero =>
              right
              intro balanced
              have backed := balanced.backed number
              simp only [State.after, Function.update_self, counts]
                at backed
              exact Nat.not_succ_le_self _ backed
          | succ held =>
              left
              refine ⟨held, ?_, ?_⟩
              · simp only [State.after, Function.update_self, counts]
                omega
              · simp only [State.after, Function.update_self]
                simpa only [Overdraws] using overdraws
        · rename_i op following calls
          rw [calls] at overdraws
          rcases Option.map_eq_some_iff.mp stepped with
            ⟨⟨reply, environment⟩, _, rfl⟩
          left
          refine ⟨held, ?_, ?_⟩
          · simp only [State.after, Function.update_self, counts]
          · simpa only [State.after, Function.update_self]
              using overdraws reply
      · left
        simp only [Locking.step, State.advance] at stepped
        repeat' split at stepped
        all_goals first
          | cases stepped
          | skip
        all_goals first
          | (simp only [State.after, Function.update_of_ne same]
             exact doomed)
          | (rcases Option.map_eq_some_iff.mp stepped with ⟨_, _, rfl⟩
             simp only [State.after, Function.update_of_ne same]
             exact doomed)

/-- A run that lets a doomed thread return is not balanced throughout. -/
theorem not_throughout_of_doomed
    {kernel : Kernel Op Reply Environment Choice}
    {program : Request → Locked Op Reply α}
    {state final : State Op Reply α Environment}
    {labels : List (Label Request Choice)} {number : Nat}
    (doomed : (state.thread number).Doomed)
    (ran : run (Locking.step kernel program) state labels = some final)
    (returned : (final.thread number).Idle) :
    ¬ Throughout (Locking.step kernel program) State.Balanced state
      labels := by
  induction labels generalizing state with
  | nil =>
      cases ran
      exact (doomed.not_idle returned).elim
  | cons label rest induction =>
      intro throughout
      rcases run_cons_eq_some.mp ran with ⟨next, stepped, later⟩
      have after := throughout.tail stepped
      rcases doomed.step stepped with still | unbalanced
      · exact induction still later after
      · exact unbalanced after.here

/-- A reply that is not allowed dooms the thread that gets it. -/
theorem doomed_of_not_allows
    {kernel : Kernel Op Reply Environment Choice}
    {Allowed : (op : Op) → Reply op → Prop}
    {program : Request → Locked Op Reply α}
    {state next : State Op Reply α Environment}
    {label : Label Request Choice}
    (sound : state.Sound Allowed)
    (refused : ¬ Allows kernel Allowed state label)
    (stepped : Locking.step kernel program state label = some next) :
    ∃ number, (next.thread number).Doomed := by
  cases label with
  | start number request => exact (refused trivial).elim
  | step number choice =>
      simp only [Allows, not_forall] at refused
      rcases refused with
        ⟨op, following, reply, environment, calls, answered, notAllowed⟩
      rcases sound.threads number with ⟨held, thread⟩
      have judged := thread.balances
      rw [calls] at judged
      simp only [Locking.step, State.advance, calls, answered,
        Option.map_some, Option.some.injEq] at stepped
      subst stepped
      refine ⟨number, held.toNat, ?_, ?_⟩
      · simp only [State.after, Function.update_self, thread.counts]
      · simp only [State.after, Function.update_self]
        exact (judged reply).2 notAllowed

/--
When every program balances, a run of allowed replies is balanced throughout,
and a balanced run that lets every thread return had no other replies.
-/
theorem balanced_throughout
    {kernel : Kernel Op Reply Environment Choice}
    {Allowed : (op : Op) → Reply op → Prop}
    {program : Request → Locked Op Reply α}
    (balances : ∀ request, Balances Allowed false (program request))
    {state final : State Op Reply α Environment}
    {labels : List (Label Request Choice)}
    (start : state.Sound Allowed)
    (ran : run (Locking.step kernel program) state labels = some final) :
    (Along (Locking.step kernel program) (Allows kernel Allowed) state
        labels →
      Throughout (Locking.step kernel program) State.Balanced state
        labels) ∧
      ((∀ number, (final.thread number).Idle) →
        Throughout (Locking.step kernel program) State.Balanced state
            labels →
          Along (Locking.step kernel program) (Allows kernel Allowed) state
            labels) := by
  constructor
  · exact
      throughout_of_along (State.Sound Allowed)
        (fun _ sound => sound.balanced)
        (fun _ _ _ sound allows stepped =>
          sound.step balances allows stepped)
        start
  · intro returned throughout
    induction labels generalizing state with
    | nil => trivial
    | cons label rest induction =>
        rcases run_cons_eq_some.mp ran with ⟨next, stepped, later⟩
        have after := throughout.tail stepped
        have allows : Allows kernel Allowed state label := by
          by_contra refused
          rcases doomed_of_not_allows start refused stepped with
            ⟨number, doomed⟩
          exact
            not_throughout_of_doomed doomed later (returned number) after
        refine ⟨allows, ?_⟩
        intro other otherStep
        rw [stepped] at otherStep
        cases otherStep
        exact
          induction (start.step balances allows stepped) later after

/-- Threads that have called nothing yet are sound. -/
theorem sound_idle
    {Allowed : (op : Op) → Reply op → Prop}
    (value : α) (environment : Environment) :
    (State.idle value environment :
      State Op Reply α Environment).Sound Allowed where
  threads _ := ⟨false, rfl, rfl⟩
  guarded _ inside := (Nat.lt_irrefl 0 inside).elim
  exclusive _ _ inside _ := (Nat.lt_irrefl 0 inside).elim

end Runs

end DZFile.Locking
