import Mathlib.Data.List.Basic

/-!
# Programs that call an environment

`Prog Op Reply α` is the free monad over a signature of operations: a program
either returns, calls an operation and continues with its reply, or has run
into undefined behaviour.  Programs without loops are written in it directly.
A program with an unbounded loop is given by its activation record and a
function `σ → Action Op Reply σ α` that says what the record does next;
`Prog.blockAction` is such a function for records whose loop-free stretches
are programs.

Both are executed against one environment, a partial function that answers an
operation according to a choice.  `Prog.run` executes a whole program;
`advance` performs one call of an activation record, which is the grain at
which several of them interleave.
-/

namespace DZFile.Interaction

/-- What an activation record does next. -/
inductive Action
    (Op : Type) (Reply : Op → Type) (σ α : Type) where
  | done (value : α)
  | call (op : Op) (next : Reply op → σ)
  | fault

/-- A loop-free program over the operations `Op`. -/
inductive Prog (Op : Type) (Reply : Op → Type) (α : Type) where
  | ret (value : α)
  | call (op : Op) (next : Reply op → Prog Op Reply α)
  | fault

namespace Prog

variable {Op : Type} {Reply : Op → Type} {α β γ : Type}

/-- Sequential composition. -/
def bind (first : Prog Op Reply α) (rest : α → Prog Op Reply β) :
    Prog Op Reply β :=
  match first with
  | .ret value => rest value
  | .call op next => .call op fun reply => (next reply).bind rest
  | .fault => .fault

instance : Monad (Prog Op Reply) where
  pure := .ret
  bind := bind

/-- Call one operation and return its reply. -/
def perform (op : Op) : Prog Op Reply (Reply op) :=
  .call op .ret

@[simp]
theorem pure_eq_ret (value : α) :
    (pure value : Prog Op Reply α) = .ret value :=
  rfl

@[simp]
theorem ret_bind (value : α) (rest : α → Prog Op Reply β) :
    (Prog.ret value >>= rest) = rest value :=
  rfl

@[simp]
theorem call_bind
    (op : Op) (next : Reply op → Prog Op Reply α)
    (rest : α → Prog Op Reply β) :
    (Prog.call op next >>= rest) =
      .call op fun reply => next reply >>= rest :=
  rfl

@[simp]
theorem fault_bind (rest : α → Prog Op Reply β) :
    ((.fault : Prog Op Reply α) >>= rest) = .fault :=
  rfl

@[simp]
theorem perform_bind
    (op : Op) (rest : Reply op → Prog Op Reply β) :
    (perform op >>= rest) = .call op rest :=
  rfl

/-- The next action of a program, whose continuation is its own record. -/
def action : Prog Op Reply α → Action Op Reply (Prog Op Reply α) α
  | .ret value => .done value
  | .call op next => .call op next
  | .fault => .fault

/-- The value of a program that has returned. -/
def returned : Prog Op Reply α → Option α
  | .ret value => some value
  | _ => none

theorem eq_ret_of_returned
    {program : Prog Op Reply α} {value : α}
    (returned : program.returned = some value) :
    program = .ret value := by
  cases program with
  | ret other =>
      cases returned
      rfl
  | fault => cases returned
  | call op next => cases returned

/-- Every call the program can come to make is of the given kind. -/
def AllCalls (kind : Op → Prop) : Prog Op Reply α → Prop
  | .ret _ => True
  | .call op next => kind op ∧ ∀ reply, (next reply).AllCalls kind
  | .fault => True

theorem AllCalls.bind
    {kind : Op → Prop} {first : Prog Op Reply α}
    {rest : α → Prog Op Reply β}
    (before : first.AllCalls kind)
    (after : ∀ value, (rest value).AllCalls kind) :
    (first >>= rest).AllCalls kind := by
  induction first with
  | ret value => exact after value
  | call op next induction =>
      exact ⟨before.1, fun reply => induction reply (before.2 reply)⟩
  | fault => trivial

/-- Calls that are of two kinds. -/
theorem AllCalls.and
    {kind other : Op → Prop} {program : Prog Op Reply α}
    (calls : program.AllCalls kind) (calls' : program.AllCalls other) :
    program.AllCalls fun op => kind op ∧ other op := by
  induction program with
  | ret value => trivial
  | call op next induction =>
      exact
        ⟨⟨calls.1, calls'.1⟩, fun reply =>
          induction reply (calls.2 reply) (calls'.2 reply)⟩
  | fault => trivial

/-- A property of all operations holds of the calls of every program. -/
theorem AllCalls.of_forall
    {kind : Op → Prop} (all : ∀ op, kind op) (program : Prog Op Reply α) :
    program.AllCalls kind := by
  induction program with
  | ret value => trivial
  | call op next induction => exact ⟨all op, induction⟩
  | fault => trivial

theorem AllCalls.mono
    {kind wider : Op → Prop} {program : Prog Op Reply α}
    (calls : program.AllCalls kind)
    (widens : ∀ op, kind op → wider op) :
    program.AllCalls wider := by
  induction program with
  | ret value => trivial
  | call op next induction =>
      exact ⟨widens op calls.1, fun reply => induction reply (calls.2 reply)⟩
  | fault => trivial

end Prog

/-! ## Programs with loops -/

/--
The next action of a program with loops.  Its blocks are loop-free programs,
each of which begins with a call and ends by naming the block to go on with or
by returning.
-/
def Prog.blockAction
    {Op : Type} {Reply : Op → Type} {Label α : Type}
    (body : Label → Prog Op Reply (Label ⊕ α)) :
    Prog Op Reply (Label ⊕ α) →
      Action Op Reply (Prog Op Reply (Label ⊕ α)) α
  | .ret (.inr value) => .done value
  | .ret (.inl label) =>
      match body label with
      | .call op next => .call op next
      | _ => .fault
  | .call op next => .call op next
  | .fault => .fault

/-! ## Execution -/

section Execution

variable
    {Op : Type} {Reply : Op → Type} {σ α β : Type}
    {Environment Choice : Type}

/-- How the environment answers one operation under one choice. -/
abbrev Kernel
    (Op : Type) (Reply : Op → Type)
    (Environment Choice : Type) : Type :=
  Environment → Choice → (op : Op) → Option (Reply op × Environment)

/--
One call of an activation record.  A record that has returned, or that has run
into undefined behaviour, makes no further call.
-/
def advance
    (kernel : Kernel Op Reply Environment Choice)
    (action : σ → Action Op Reply σ α)
    (environment : Environment) (record : σ) (choice : Choice) :
    Option (Environment × σ) :=
  match action record with
  | .done _ => none
  | .fault => none
  | .call op next =>
      (kernel environment choice op).map fun answer =>
        (answer.2, next answer.1)

/-- The inversion of one call: everything an activation record can do. -/
theorem advance_eq_some
    {kernel : Kernel Op Reply Environment Choice}
    {action : σ → Action Op Reply σ α}
    {environment later : Environment} {record nextRecord : σ}
    {choice : Choice} :
    advance kernel action environment record choice =
        some (later, nextRecord) ↔
      ∃ op next reply,
        action record = .call op next ∧
          kernel environment choice op = some (reply, later) ∧
            nextRecord = next reply := by
  unfold advance
  cases action record with
  | done value => simp
  | fault => simp
  | call op next =>
      simp only [Option.map_eq_some_iff, Action.call.injEq, Prod.mk.injEq]
      constructor
      · rintro ⟨⟨reply, environment'⟩, answered, rfl, rfl⟩
        exact ⟨op, next, reply, ⟨rfl, HEq.rfl⟩, answered, rfl⟩
      · rintro ⟨_, _, reply, ⟨rfl, sameNext⟩, answered, rfl⟩
        cases sameNext
        exact ⟨(reply, later), answered, rfl, rfl⟩

/-- Execute a whole program; the choices are used up exactly. -/
def Prog.run
    (kernel : Kernel Op Reply Environment Choice) :
    Prog Op Reply α → Environment → List Choice →
      Option (α × Environment)
  | .ret value, environment, [] => some (value, environment)
  | .ret _, _, _ :: _ => none
  | .call _ _, _, [] => none
  | .call op next, environment, choice :: rest =>
      (kernel environment choice op).bind fun answer =>
        (next answer.1).run kernel answer.2 rest
  | .fault, _, _ => none

@[simp]
theorem Prog.run_ret_eq_some
    {kernel : Kernel Op Reply Environment Choice}
    {value result : α} {environment later : Environment}
    {choices : List Choice} :
    (Prog.ret value : Prog Op Reply α).run kernel environment choices =
        some (result, later) ↔
      choices = [] ∧ value = result ∧ environment = later := by
  cases choices <;> simp [Prog.run]

@[simp]
theorem Prog.run_fault
    {kernel : Kernel Op Reply Environment Choice}
    {environment : Environment} {choices : List Choice} :
    (Prog.fault : Prog Op Reply α).run kernel environment choices =
      none := by
  cases choices <;> rfl

@[simp]
theorem Prog.run_call_eq_some
    {kernel : Kernel Op Reply Environment Choice}
    {op : Op} {next : Reply op → Prog Op Reply α}
    {environment : Environment} {choices : List Choice}
    {result : α × Environment} :
    (Prog.call op next).run kernel environment choices = some result ↔
      ∃ choice rest reply middle,
        choices = choice :: rest ∧
          kernel environment choice op = some (reply, middle) ∧
            (next reply).run kernel middle rest = some result := by
  cases choices with
  | nil => simp [Prog.run]
  | cons choice rest =>
      simp only [Prog.run, Option.bind_eq_some_iff, List.cons.injEq]
      constructor
      · rintro ⟨⟨reply, middle⟩, answered, ran⟩
        exact ⟨choice, rest, reply, middle, ⟨rfl, rfl⟩, answered, ran⟩
      · rintro ⟨_, _, reply, middle, ⟨rfl, rfl⟩, answered, ran⟩
        exact ⟨(reply, middle), answered, ran⟩

/-- A composed program runs its parts one after the other. -/
theorem Prog.run_bind_eq_some
    {kernel : Kernel Op Reply Environment Choice}
    {first : Prog Op Reply α} {rest : α → Prog Op Reply β}
    {environment : Environment} {choices : List Choice}
    {result : β × Environment} :
    (first >>= rest).run kernel environment choices = some result ↔
      ∃ before after value middle,
        choices = before ++ after ∧
          first.run kernel environment before = some (value, middle) ∧
            (rest value).run kernel middle after = some result := by
  induction first generalizing environment choices with
  | ret value =>
      constructor
      · intro ran
        exact ⟨[], choices, value, environment, rfl, rfl, ran⟩
      · rintro ⟨before, after, value', middle, rfl, firstRan, ran⟩
        rcases Prog.run_ret_eq_some.mp firstRan with ⟨rfl, rfl, rfl⟩
        exact ran
  | fault => simp
  | call op next induction =>
      constructor
      · intro ran
        rcases Prog.run_call_eq_some.mp ran with
          ⟨choice, later, reply, middle, rfl, answered, laterRan⟩
        rcases (induction reply).mp laterRan with
          ⟨before, after, value, final, rfl, firstRan, restRan⟩
        exact
          ⟨choice :: before, after, value, final, rfl,
            Prog.run_call_eq_some.mpr
              ⟨choice, before, reply, middle, rfl, answered, firstRan⟩,
            restRan⟩
      · rintro ⟨before, after, value, final, rfl, firstRan, restRan⟩
        rcases Prog.run_call_eq_some.mp firstRan with
          ⟨choice, later, reply, middle, rfl, answered, laterRan⟩
        exact
          Prog.run_call_eq_some.mpr
            ⟨choice, later ++ after, reply, middle, rfl, answered,
              (induction reply).mpr
                ⟨later, after, value, final, rfl, laterRan, restRan⟩⟩

/-- What the calls of a kind preserve, a program of such calls preserves. -/
theorem Prog.AllCalls.run_invariant
    {kernel : Kernel Op Reply Environment Choice}
    {kind : Op → Prop} (Invariant : Environment → Prop)
    (kept : ∀ environment choice op reply later,
      kind op → Invariant environment →
        kernel environment choice op = some (reply, later) → Invariant later)
    {program : Prog Op Reply α} (calls : program.AllCalls kind)
    {environment later : Environment} {choices : List Choice} {value : α}
    (start : Invariant environment)
    (ran : program.run kernel environment choices = some (value, later)) :
    Invariant later := by
  induction program generalizing environment choices with
  | ret result =>
      rcases Prog.run_ret_eq_some.mp ran with ⟨_, _, rfl⟩
      exact start
  | fault => simp at ran
  | call op next induction =>
      rcases Prog.run_call_eq_some.mp ran with
        ⟨choice, rest, reply, middle, rfl, answered, restRan⟩
      exact
        induction reply (calls.2 reply)
          (kept environment choice op reply middle calls.1 start answered)
          restRan

/-- Every call of the run meets a condition on the state it finds. -/
def Prog.Along
    (kernel : Kernel Op Reply Environment Choice)
    (condition : Environment → Choice → Op → Prop) :
    Prog Op Reply α → Environment → List Choice → Prop
  | .call op next, environment, choice :: rest =>
      condition environment choice op ∧
        ∀ reply later,
          kernel environment choice op = some (reply, later) →
            (next reply).Along kernel condition later rest
  | _, _, _ => True

section Along

variable
    {kernel : Kernel Op Reply Environment Choice}
    {condition : Environment → Choice → Op → Prop}

theorem Prog.along_nil
    (program : Prog Op Reply α) (environment : Environment) :
    program.Along kernel condition environment [] := by
  cases program <;> trivial

/-- The reply that is given is the only one to look past. -/
theorem Prog.along_call_iff
    {op : Op} {next : Reply op → Prog Op Reply α}
    {environment middle : Environment} {choice : Choice}
    {reply : Reply op} {rest : List Choice}
    (answered : kernel environment choice op = some (reply, middle)) :
    (Prog.call op next).Along kernel condition environment
        (choice :: rest) ↔
      condition environment choice op ∧
        (next reply).Along kernel condition middle rest := by
  constructor
  · rintro ⟨met, along⟩
    exact ⟨met, along reply middle answered⟩
  · rintro ⟨met, along⟩
    refine ⟨met, ?_⟩
    intro other later otherwise
    rw [answered] at otherwise
    cases otherwise
    exact along

/-- A composition meets it if both of its parts do. -/
theorem Prog.along_bind_iff
    {first : Prog Op Reply α} {rest : α → Prog Op Reply β}
    {environment middle : Environment} {before after : List Choice}
    {value : α}
    (ran : first.run kernel environment before = some (value, middle)) :
    (first >>= rest).Along kernel condition environment (before ++ after) ↔
      first.Along kernel condition environment before ∧
        (rest value).Along kernel condition middle after := by
  induction first generalizing environment before with
  | ret result =>
      rcases Prog.run_ret_eq_some.mp ran with ⟨rfl, rfl, rfl⟩
      exact (and_iff_right trivial).symm
  | fault => simp at ran
  | call op next induction =>
      rcases Prog.run_call_eq_some.mp ran with
        ⟨choice, later, reply, reached, rfl, answered, restRan⟩
      rw [Prog.call_bind, List.cons_append,
        Prog.along_call_iff answered, Prog.along_call_iff answered,
        induction reply restRan, and_assoc]

/-- Calls of a kind that always meets the condition. -/
theorem Prog.AllCalls.along
    {kind : Op → Prop}
    (meets : ∀ environment choice op,
      kind op → condition environment choice op)
    {program : Prog Op Reply α} (calls : program.AllCalls kind)
    (environment : Environment) (choices : List Choice) :
    program.Along kernel condition environment choices := by
  induction program generalizing environment choices with
  | ret value => cases choices <;> trivial
  | fault => cases choices <;> trivial
  | call op next induction =>
      cases choices with
      | nil => trivial
      | cons choice rest =>
          refine ⟨meets environment choice op calls.1, ?_⟩
          intro reply later answered
          exact induction reply (calls.2 reply) later rest

end Along

/-! ## Executions that may fail -/

/--
How an execution ends: with a value, or in undefined behaviour; and the calls
it made, with their replies.
-/
structure Ending
    (Op : Type) (Reply : Op → Type) (α Environment : Type) where
  result : Option α
  environment : Environment
  answers : List (Sigma Reply)

/-- An ending, with one more call before it. -/
def Ending.after
    (ending : Ending Op Reply α Environment) (answer : Sigma Reply) :
    Ending Op Reply α Environment :=
  { ending with answers := answer :: ending.answers }

/-- Execute a program until it returns or runs into undefined behaviour. -/
def Prog.execute
    (kernel : Kernel Op Reply Environment Choice) :
    Prog Op Reply α → Environment → List Choice →
      Option (Ending Op Reply α Environment)
  | .ret value, environment, [] => some ⟨some value, environment, []⟩
  | .fault, environment, [] => some ⟨none, environment, []⟩
  | .call op next, environment, choice :: rest =>
      (kernel environment choice op).bind fun answer =>
        ((next answer.1).execute kernel answer.2 rest).map fun ending =>
          ending.after ⟨op, answer.1⟩
  | _, _, _ => none

@[simp]
theorem Prog.execute_ret_eq_some
    {kernel : Kernel Op Reply Environment Choice}
    {value : α} {environment : Environment} {choices : List Choice}
    {ending : Ending Op Reply α Environment} :
    (Prog.ret value : Prog Op Reply α).execute kernel environment choices =
        some ending ↔
      choices = [] ∧ ending = ⟨some value, environment, []⟩ := by
  cases choices <;> simp [Prog.execute, eq_comm]

@[simp]
theorem Prog.execute_fault_eq_some
    {kernel : Kernel Op Reply Environment Choice}
    {environment : Environment} {choices : List Choice}
    {ending : Ending Op Reply α Environment} :
    (Prog.fault : Prog Op Reply α).execute kernel environment choices =
        some ending ↔
      choices = [] ∧ ending = ⟨none, environment, []⟩ := by
  cases choices <;> simp [Prog.execute, eq_comm]

theorem Prog.execute_call_eq_some
    {kernel : Kernel Op Reply Environment Choice}
    {op : Op} {next : Reply op → Prog Op Reply α}
    {environment : Environment} {choices : List Choice}
    {ending : Ending Op Reply α Environment} :
    (Prog.call op next).execute kernel environment choices = some ending ↔
      ∃ choice rest reply middle later,
        choices = choice :: rest ∧
          kernel environment choice op = some (reply, middle) ∧
            (next reply).execute kernel middle rest = some later ∧
              ending = later.after ⟨op, reply⟩ := by
  cases choices with
  | nil => simp [Prog.execute]
  | cons choice rest =>
      simp only [Prog.execute, Option.bind_eq_some_iff,
        Option.map_eq_some_iff, List.cons.injEq]
      constructor
      · rintro ⟨⟨reply, middle⟩, answered, later, ran, rfl⟩
        exact
          ⟨choice, rest, reply, middle, later, ⟨rfl, rfl⟩, answered, ran,
            rfl⟩
      · rintro ⟨_, _, reply, middle, later, ⟨rfl, rfl⟩, answered, ran, rfl⟩
        exact ⟨(reply, middle), answered, later, ran, rfl⟩

/-- An execution that returns is a run. -/
theorem Prog.run_of_execute
    {kernel : Kernel Op Reply Environment Choice}
    {program : Prog Op Reply α} {environment : Environment}
    {choices : List Choice} {ending : Ending Op Reply α Environment}
    {value : α}
    (executed : program.execute kernel environment choices = some ending)
    (returned : ending.result = some value) :
    program.run kernel environment choices =
      some (value, ending.environment) := by
  induction program generalizing environment choices ending with
  | ret result =>
      rcases Prog.execute_ret_eq_some.mp executed with ⟨rfl, rfl⟩
      cases returned
      rfl
  | fault =>
      rcases Prog.execute_fault_eq_some.mp executed with ⟨rfl, rfl⟩
      cases returned
  | call op next induction =>
      rcases Prog.execute_call_eq_some.mp executed with
        ⟨choice, rest, reply, middle, later, rfl, answered, after, rfl⟩
      have ran := induction reply after returned
      exact
        Prog.run_call_eq_some.mpr
          ⟨choice, rest, reply, middle, rfl, answered, ran⟩

/-- No path of the program runs into undefined behaviour. -/
def Prog.Defined : Prog Op Reply α → Prop
  | .ret _ => True
  | .call _ next => ∀ reply, (next reply).Defined
  | .fault => False

/-- An execution of a well-defined program returns. -/
theorem Prog.Defined.returns
    {kernel : Kernel Op Reply Environment Choice}
    {program : Prog Op Reply α} (defined : program.Defined)
    {environment : Environment} {choices : List Choice}
    {ending : Ending Op Reply α Environment}
    (executed : program.execute kernel environment choices = some ending) :
    ∃ value, ending.result = some value := by
  induction program generalizing environment choices ending with
  | ret value =>
      rcases Prog.execute_ret_eq_some.mp executed with ⟨rfl, rfl⟩
      exact ⟨value, rfl⟩
  | fault => exact defined.elim
  | call op next induction =>
      rcases Prog.execute_call_eq_some.mp executed with
        ⟨choice, rest, reply, middle, later, rfl, answered, after, rfl⟩
      have returned := induction reply (defined reply) after
      exact returned

/--
A composition whose first part is well defined executes its parts one after
the other.
-/
theorem Prog.execute_bind_eq_some
    {kernel : Kernel Op Reply Environment Choice}
    {first : Prog Op Reply α} {rest : α → Prog Op Reply β}
    {environment : Environment} {choices : List Choice}
    {ending : Ending Op Reply β Environment}
    (defined : first.Defined)
    (executed :
      (first >>= rest).execute kernel environment choices = some ending) :
    ∃ before after value middle answers later,
      choices = before ++ after ∧
        first.execute kernel environment before =
            some ⟨some value, middle, answers⟩ ∧
          (rest value).execute kernel middle after = some later ∧
            ending =
              ⟨later.result, later.environment,
                answers ++ later.answers⟩ := by
  induction first generalizing environment choices ending with
  | ret value =>
      exact
        ⟨[], choices, value, environment, [], ending, rfl, rfl, executed,
          rfl⟩
  | fault => exact defined.elim
  | call op next induction =>
      rcases Prog.execute_call_eq_some.mp executed with
        ⟨choice, more, reply, middle, later, rfl, answered, after, rfl⟩
      rcases induction reply (defined reply) after with
        ⟨before, left, value, final, answers, last, rfl, firstRan, restRan,
          rfl⟩
      refine
        ⟨choice :: before, left, value, final, ⟨op, reply⟩ :: answers, last,
          rfl, ?_, restRan, rfl⟩
      exact
        Prog.execute_call_eq_some.mpr
          ⟨choice, before, reply, middle, _, rfl, answered, firstRan, rfl⟩

/-- The calls an execution made are of the kind its program makes. -/
theorem Prog.AllCalls.answers
    {kernel : Kernel Op Reply Environment Choice}
    {kind : Op → Prop} {program : Prog Op Reply α}
    (calls : program.AllCalls kind)
    {environment : Environment} {choices : List Choice}
    {ending : Ending Op Reply α Environment}
    (executed : program.execute kernel environment choices = some ending) :
    ∀ answer ∈ ending.answers, kind answer.1 := by
  induction program generalizing environment choices ending with
  | ret value =>
      rcases Prog.execute_ret_eq_some.mp executed with ⟨rfl, rfl⟩
      simp
  | fault =>
      rcases Prog.execute_fault_eq_some.mp executed with ⟨rfl, rfl⟩
      simp
  | call op next induction =>
      rcases Prog.execute_call_eq_some.mp executed with
        ⟨choice, rest, reply, middle, later, rfl, answered, after, rfl⟩
      intro answer member
      rcases List.mem_cons.mp member with rfl | member
      · exact calls.1
      · exact induction reply (calls.2 reply) after answer member

end Execution

end DZFile.Interaction
