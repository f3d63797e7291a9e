import DZFile.Api
import DZFile.Library.Sql
import DZFile.Library.Transition

/-!
# The counter of files

`fmt_entry_insert` and `fmt_entry_delete` change the table `filemeta` with one
statement and the counter `filenum` with a second one.  Nothing makes the two
one transaction, and a delete takes one from the counter whatever number of
rows it has matched.  So the counter is the number of rows along the runs in
which no second statement fails behind a first one that did something, and
every delete that succeeds finds its path in one row.
-/

namespace DZFile.RowCount

open DZFile.Interaction
open DZFile.Transition
open DZFile.Names
open DZFile.Metadata
open DZFile.Kernel
open DZFile.Api

/-! ## Runs of the two functions -/

/-- A path without a single quote. -/
abbrev QuoteFree : Type :=
  { path : CString // Sql.quote ∉ path }

/-- A call of one of the two functions. -/
inductive EntryCall where
  | insert (path : QuoteFree)
  | delete (path : QuoteFree)

/-- The function that is called. -/
def EntryCall.program : EntryCall → Call Int
  | .insert path => fmt_entry_insert path
  | .delete path => fmt_entry_delete path

/-- A call and what becomes of its statements. -/
structure Attempt where
  call : EntryCall
  choices : List Choice

/-- The statement of the given number fails. -/
def Attempt.Fails (attempt : Attempt) (number : Nat) : Prop :=
  ∃ errno, attempt.choices[number]? = some (.fail errno)

/-- The return value and the state behind a call. -/
def Attempt.outcome
    (platform : Platform) (sys : Sys) (attempt : Attempt) :
    Option (Int × Sys) :=
  attempt.call.program.run (kernel platform) sys attempt.choices

/-- The state behind a call. -/
def attemptStep
    (platform : Platform) (sys : Sys) (attempt : Attempt) : Option Sys :=
  (attempt.outcome platform sys).map Prod.snd

/-- The counter is the number of rows. -/
def Counted (db : Db) : Prop :=
  db.space .filenum = db.filemeta.length

instance (db : Db) : Decidable (Counted db) :=
  inferInstanceAs (Decidable (db.space .filenum = db.filemeta.length))

/--
Behind the call the counter is the number of rows, and both are what they were
if it has failed.
-/
def KeepsCount
    (platform : Platform) (sys : Sys) (attempt : Attempt) : Prop :=
  ∀ ret later, attempt.outcome platform sys = some (ret, later) →
    Counted later.db ∧
      (ret ≠ 0 →
        later.db.filemeta = sys.db.filemeta ∧
          later.db.space .filenum = sys.db.space .filenum)

/--
The second statement fails together with the first one or not at all; a
delete that succeeds has one row to delete, and one whose second statement
fails has none.
-/
def OneRow (sys : Sys) (attempt : Attempt) : Prop :=
  attempt.Fails 0 ∨
    match attempt.call with
    | .insert _ => ¬ attempt.Fails 1
    | .delete path =>
        (¬ attempt.Fails 1 ∧ sys.db.filemeta.count path.1 = 1) ∨
          (attempt.Fails 1 ∧ sys.db.filemeta.count path.1 = 0)

/-! ## One call -/

/-- The two statements of a call. -/
def EntryCall.statements : EntryCall → Stmt × Stmt
  | .insert path =>
      (.insertFilemeta path, .updateSpace .filenum .ADD_NUM 1)
  | .delete path =>
      (.deleteFilemeta path, .updateSpace .filenum .SUB_NUM 1)

/-- One statement after the other; the second only behind a success. -/
def both (first second : Stmt) : Call Int := do
  let done ← perform (.sqlite3_exec first)
  if done then do
    let done ← perform (.sqlite3_exec second)
    return if done then 0 else -1
  else return -1

theorem program_eq (call : EntryCall) :
    call.program = both call.statements.1 call.statements.2 := by
  cases call <;> rfl

/-- A statement either fails and does nothing, or is executed. -/
theorem kernel_sqlite3_exec_cases
    {platform : Platform} {sys later : Sys} {choice : Choice} {stmt : Stmt}
    {done : Reply (.sqlite3_exec stmt)}
    (answered :
      kernel platform sys choice (.sqlite3_exec stmt) = some (done, later)) :
    (∃ errno, choice = .fail errno ∧ done = false ∧ later = sys) ∨
      (∃ number, choice = .ok number ∧ done = true ∧
        later = { sys with db := stmt.exec sys.db }) := by
  cases choice with
  | fail errno =>
      cases answered
      exact Or.inl ⟨errno, rfl, rfl, rfl⟩
  | ok number =>
      cases answered
      exact Or.inr ⟨number, rfl, rfl, rfl⟩

/-- The three ways a call can go. -/
theorem outcome_cases
    {platform : Platform} {sys later : Sys} {attempt : Attempt} {ret : Int}
    (ran : attempt.outcome platform sys = some (ret, later)) :
    (attempt.Fails 0 ∧ ret = -1 ∧ later = sys) ∨
      (¬ attempt.Fails 0 ∧ attempt.Fails 1 ∧ ret = -1 ∧
        later.db = attempt.call.statements.1.exec sys.db) ∨
      (¬ attempt.Fails 0 ∧ ¬ attempt.Fails 1 ∧ ret = 0 ∧
        later.db =
          attempt.call.statements.2.exec
            (attempt.call.statements.1.exec sys.db)) := by
  rcases attempt with ⟨call, choices⟩
  simp only [Attempt.outcome, program_eq, both] at ran
  rcases Prog.run_call_eq_some.mp ran with
    ⟨choice, rest, done, middle, rfl, answered, ran⟩
  rcases kernel_sqlite3_exec_cases answered with
    ⟨errno, rfl, rfl, rfl⟩ | ⟨number, rfl, rfl, rfl⟩
  · rcases Prog.run_ret_eq_some.mp ran with ⟨rfl, rfl, rfl⟩
    exact Or.inl ⟨⟨errno, rfl⟩, rfl, rfl⟩
  · have started : ¬ Attempt.Fails ⟨call, .ok number :: rest⟩ 0 := by
      rintro ⟨errno, failed⟩
      cases failed
    rcases Prog.run_call_eq_some.mp ran with
      ⟨choice, rest, done, middle, rfl, answered, ran⟩
    rcases kernel_sqlite3_exec_cases answered with
      ⟨errno, rfl, rfl, rfl⟩ | ⟨number', rfl, rfl, rfl⟩
    · rcases Prog.run_ret_eq_some.mp ran with ⟨rfl, rfl, rfl⟩
      exact Or.inr (Or.inl ⟨started, ⟨errno, rfl⟩, rfl, rfl⟩)
    · rcases Prog.run_ret_eq_some.mp ran with ⟨rfl, rfl, rfl⟩
      refine Or.inr (Or.inr ⟨started, ?_, rfl, rfl⟩)
      rintro ⟨errno, failed⟩
      cases failed

/-! ## Rows and counter -/

/-- A delete takes away the rows it matches. -/
theorem length_filter_add_count (rows : List CString) (path : CString) :
    (rows.filter (· ≠ path)).length + rows.count path = rows.length := by
  induction rows with
  | nil => rfl
  | cons row rest induction =>
      by_cases same : row = path
      · rw [List.filter_cons_of_neg (by simpa using same), same,
          List.count_cons_self, List.length_cons]
        omega
      · rw [List.filter_cons_of_pos (by simpa using same),
          List.count_cons_of_ne same, List.length_cons, List.length_cons]
        omega

/-- A delete that matches nothing leaves the rows. -/
theorem filter_ne_of_count_eq_zero
    {rows : List CString} {path : CString} (none_ : rows.count path = 0) :
    rows.filter (· ≠ path) = rows := by
  apply List.filter_eq_self.mpr
  intro row member
  have absent := List.count_eq_zero.mp none_
  simpa using ne_of_mem_of_not_mem member absent

section Step

variable {platform : Platform} {sys later : Sys} {ret : Int}

/-- From a counted state an insert counts unless its second statement fails. -/
theorem keepsCount_insert_iff
    {path : QuoteFree} {choices : List Choice}
    (counted : Counted sys.db)
    (ran :
      Attempt.outcome platform sys ⟨.insert path, choices⟩ =
        some (ret, later)) :
    (Counted later.db ∧
        (ret ≠ 0 →
          later.db.filemeta = sys.db.filemeta ∧
            later.db.space .filenum = sys.db.space .filenum)) ↔
      OneRow sys ⟨.insert path, choices⟩ := by
  rw [Counted] at counted
  rcases outcome_cases ran with
    ⟨failed, rfl, rfl⟩ | ⟨started, failed, rfl, db⟩ |
      ⟨started, ended, rfl, db⟩
  · exact
      iff_of_true ⟨counted, fun _ => ⟨rfl, rfl⟩⟩ (Or.inl failed)
  · have notOneRow : ¬ OneRow sys ⟨.insert path, choices⟩ := by
      rintro (first | second)
      · exact started first
      · exact second failed
    apply iff_of_false _ notOneRow
    rintro ⟨still, _⟩
    rw [db, Counted] at still
    simp [EntryCall.statements, Stmt.exec, counted] at still
  · apply iff_of_true _ (Or.inr ended)
    refine ⟨?_, fun nonzero => absurd rfl nonzero⟩
    rw [db, Counted]
    simp [EntryCall.statements, Stmt.exec, counted]

/--
From a counted state a delete counts if it deletes one row, or none and does
not succeed.
-/
theorem keepsCount_delete_iff
    {path : QuoteFree} {choices : List Choice}
    (counted : Counted sys.db)
    (ran :
      Attempt.outcome platform sys ⟨.delete path, choices⟩ =
        some (ret, later)) :
    (Counted later.db ∧
        (ret ≠ 0 →
          later.db.filemeta = sys.db.filemeta ∧
            later.db.space .filenum = sys.db.space .filenum)) ↔
      OneRow sys ⟨.delete path, choices⟩ := by
  have rows := length_filter_add_count sys.db.filemeta path.1
  rw [Counted] at counted
  rcases outcome_cases ran with
    ⟨failed, rfl, rfl⟩ | ⟨started, failed, rfl, db⟩ |
      ⟨started, ended, rfl, db⟩
  · exact
      iff_of_true ⟨counted, fun _ => ⟨rfl, rfl⟩⟩ (Or.inl failed)
  · have oneRow :
        OneRow sys ⟨.delete path, choices⟩ ↔
          sys.db.filemeta.count path.1 = 0 := by
      simp [OneRow, started, failed]
    rw [oneRow, db, Counted]
    simp only [EntryCall.statements, Stmt.exec, counted]
    constructor
    · rintro ⟨still, _⟩
      omega
    · intro none_
      rw [filter_ne_of_count_eq_zero none_]
      exact ⟨rfl, fun _ => ⟨rfl, trivial⟩⟩
  · have oneRow :
        OneRow sys ⟨.delete path, choices⟩ ↔
          sys.db.filemeta.count path.1 = 1 := by
      simp [OneRow, started, ended]
    rw [oneRow, db, Counted]
    simp only [EntryCall.statements, Stmt.exec, counted, if_true]
    constructor
    · rintro ⟨still, _⟩
      omega
    · intro one
      refine ⟨?_, fun nonzero => absurd rfl nonzero⟩
      omega

/-- One call, from a counted state, if it can be made at all. -/
theorem keepsCount_iff
    {attempt : Attempt} {next : Sys}
    (counted : Counted sys.db)
    (stepped : attemptStep platform sys attempt = some next) :
    KeepsCount platform sys attempt ↔ OneRow sys attempt := by
  rcases Option.map_eq_some_iff.mp stepped with ⟨⟨ret, later⟩, ran, rfl⟩
  have only : KeepsCount platform sys attempt ↔
      Counted later.db ∧
        (ret ≠ 0 →
          later.db.filemeta = sys.db.filemeta ∧
            later.db.space .filenum = sys.db.space .filenum) := by
    constructor
    · intro keeps
      exact keeps ret later ran
    · intro kept ret' later' ran'
      rw [ran] at ran'
      cases ran'
      exact kept
  rw [only]
  rcases attempt with ⟨call, choices⟩
  cases call with
  | insert path => exact keepsCount_insert_iff counted ran
  | delete path => exact keepsCount_delete_iff counted ran

/-- A call that keeps the count leads to a counted state. -/
theorem counted_of_keepsCount
    {attempt : Attempt} {next : Sys}
    (keeps : KeepsCount platform sys attempt)
    (stepped : attemptStep platform sys attempt = some next) :
    Counted next.db := by
  rcases Option.map_eq_some_iff.mp stepped with ⟨⟨ret, later⟩, ran, rfl⟩
  exact (keeps ret later ran).1

end Step

/-! ## Whole runs -/

/-- The path `/f`. -/
def rootFile : QuoteFree :=
  ⟨['/', 'f'], by decide⟩

/-- An insert and the delete of what it has inserted. -/
def insertAndDelete : List Attempt :=
  [⟨.insert rootFile, [.ok 0, .ok 0]⟩, ⟨.delete rootFile, [.ok 0, .ok 0]⟩]

end DZFile.RowCount
