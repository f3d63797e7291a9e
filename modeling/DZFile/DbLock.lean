import DZFile.Api
import DZFile.Library.Locking

/-!
# The lock of the database

The functions of `dz-sqlite-ifce.c` with their calls of `LOCK` and `UNLOCK` on
`priv->dblock`.  Without these calls they are the functions of the library's
model.  Every exit of the functions that change a row gives the lock back
once.  `get_space_entry` falls from its last `UNLOCK` into the label `out`,
which unlocks again; it is balanced only when the query gave it no row.
-/

namespace DZFile.DbLock

open DZFile.Interaction
open DZFile.Transition
open DZFile.Locking
open DZFile.Names
open DZFile.Metadata
open DZFile.Kernel

/-- A program that may call the lock of the database. -/
abbrev LockedCall := Locked Op Reply

/-- `LOCK(&priv->dblock)`. -/
def LOCK : LockedCall Unit :=
  Prog.perform LockOp.lock

/-- `UNLOCK(&priv->dblock)`. -/
def UNLOCK : LockedCall Unit :=
  Prog.perform LockOp.unlock

/-- A call that is not of the lock. -/
def perform (op : Op) : LockedCall (Reply op) :=
  Prog.perform (LockOp.call op)

/-! ## The functions

`db` says whether the database is open.
-/

/-- `space_update`. -/
def space_update
    (db : Bool) (field : Field) (num : Int) (flag : Flag) :
    LockedCall Int :=
  if db = false then return -1
  else do
    LOCK
    let done ←
      perform (.sqlite3_exec (.updateSpace field flag (printUnsigned num)))
    if done then do
      UNLOCK
      return 0
    else do
      UNLOCK
      return -1

/-- `add_writtenbytes`. -/
def add_writtenbytes (db : Bool) (nbytes : Int) : LockedCall Int :=
  space_update db .writtenbytes nbytes .ADD_NUM

/-- `sub_writtenbytes`. -/
def sub_writtenbytes (db : Bool) (nbytes : Int) : LockedCall Int :=
  space_update db .writtenbytes nbytes .SUB_NUM

/-- `add_diskbytes`. -/
def add_diskbytes (db : Bool) (nbytes : Int) : LockedCall Int :=
  space_update db .diskbytes nbytes .ADD_NUM

/-- `sub_diskbytes`. -/
def sub_diskbytes (db : Bool) (nbytes : Int) : LockedCall Int :=
  space_update db .diskbytes nbytes .SUB_NUM

/-- `add_filenum`. -/
def add_filenum (db : Bool) (num : Int) : LockedCall Int :=
  space_update db .filenum num .ADD_NUM

/-- `sub_filenum`. -/
def sub_filenum (db : Bool) (num : Int) : LockedCall Int :=
  space_update db .filenum num .SUB_NUM

/-- `fmt_entry_insert`. -/
def fmt_entry_insert (db : Bool) (path : CString) : LockedCall Int :=
  if db = false then return -1
  else do
    LOCK
    let done ← perform (.sqlite3_exec (.insertFilemeta path))
    if done then do
      UNLOCK
      add_filenum db 1
    else do
      UNLOCK
      return -1

/-- `fmt_entry_delete`. -/
def fmt_entry_delete (db : Bool) (path : CString) : LockedCall Int :=
  if db = false then return -1
  else do
    LOCK
    let done ← perform (.sqlite3_exec (.deleteFilemeta path))
    if done then do
      UNLOCK
      sub_filenum db 1
    else do
      UNLOCK
      return -1

/--
`get_space_entry`.  Without a database it goes to `out` with `azresult`
uninitialised and frees it there.
-/
def get_space_entry
    (db spentry : Bool) : LockedCall (Option (Field → Int)) :=
  if db = false then .fault
  else if spentry = false then return none
  else do
    LOCK
    let azresult ← perform .sqlite3_get_table
    match azresult with
    | none => do
        UNLOCK
        return none
    | some [] => do
        UNLOCK
        return none
    | some (row :: _) => do
        UNLOCK
        -- The label `out`.
        UNLOCK
        return some row

/-! ## The functions without the lock -/

theorem erase_space_update (field : Field) (num : Int) (flag : Flag) :
    erase (space_update true field num flag) =
      Api.space_update field num flag := by
  apply
    congrArg
      (Prog.call
        (Op.sqlite3_exec (.updateSpace field flag (printUnsigned num))))
  funext done
  cases done <;> rfl

theorem erase_fmt_entry_insert (path : CString) :
    erase (fmt_entry_insert true path) = Api.fmt_entry_insert path := by
  apply congrArg (Prog.call (Op.sqlite3_exec (.insertFilemeta path)))
  funext done
  cases done with
  | false => rfl
  | true => exact erase_space_update .filenum 1 .ADD_NUM

theorem erase_fmt_entry_delete (path : CString) :
    erase (fmt_entry_delete true path) = Api.fmt_entry_delete path := by
  apply congrArg (Prog.call (Op.sqlite3_exec (.deleteFilemeta path)))
  funext done
  cases done with
  | false => rfl
  | true => exact erase_space_update .filenum 1 .SUB_NUM

theorem erase_get_space_entry :
    erase (get_space_entry true true) = Api.get_space_entry := by
  apply congrArg (Prog.call Op.sqlite3_get_table)
  funext azresult
  rcases azresult with _ | _ | ⟨row, rest⟩ <;> rfl

/-! ## Threads -/

/-- What a thread may call. -/
inductive Request where
  | fmt_entry_insert (path : CString)
  | fmt_entry_delete (path : CString)
  | add_writtenbytes (nbytes : Int)
  | sub_writtenbytes (nbytes : Int)
  | add_diskbytes (nbytes : Int)
  | sub_diskbytes (nbytes : Int)
  | add_filenum (num : Int)
  | sub_filenum (num : Int)
  | get_space_entry (spentry : Bool)

/-- What the call executes, and the return value of the function. -/
def Request.program (db : Bool) : Request → LockedCall Int
  | .fmt_entry_insert path => DbLock.fmt_entry_insert db path
  | .fmt_entry_delete path => DbLock.fmt_entry_delete db path
  | .add_writtenbytes nbytes => DbLock.add_writtenbytes db nbytes
  | .sub_writtenbytes nbytes => DbLock.sub_writtenbytes db nbytes
  | .add_diskbytes nbytes => DbLock.add_diskbytes db nbytes
  | .sub_diskbytes nbytes => DbLock.sub_diskbytes db nbytes
  | .add_filenum num => DbLock.add_filenum db num
  | .sub_filenum num => DbLock.sub_filenum db num
  | .get_space_entry spentry => do
      let entry ← DbLock.get_space_entry db spentry
      match entry with
      | none => return -1
      | some _ => return 0

/-- The reply is not a row of the table `space`. -/
def Rowless : (op : Op) → Reply op → Prop
  | .sqlite3_get_table, some (_ :: _) => False
  | _, _ => True

theorem balances_space_update
    (db : Bool) (field : Field) (num : Int) (flag : Flag) :
    Balances Rowless false (space_update db field num flag) := by
  cases db with
  | false => rfl
  | true =>
      constructor
      · rfl
      · intro done
        constructor
        · intro _
          cases done
          · exact ⟨rfl, rfl⟩
          · exact ⟨rfl, rfl⟩
        · intro refused
          exact (refused trivial).elim

/-- A statement on `filemeta` and then a counter. -/
theorem balances_statement
    {stmt : Stmt} {rest : LockedCall Int}
    (balances : Balances Rowless false rest) :
    Balances Rowless false
      (do
        LOCK
        let done ← perform (.sqlite3_exec stmt)
        if done then do
          UNLOCK
          rest
        else do
          UNLOCK
          return -1) := by
  constructor
  · rfl
  · intro done
    constructor
    · intro _
      cases done with
      | false => exact ⟨rfl, rfl⟩
      | true => exact ⟨rfl, balances⟩
    · intro refused
      exact (refused trivial).elim

theorem balances_get_space_entry (db spentry : Bool) :
    Balances Rowless false (get_space_entry db spentry) := by
  cases db with
  | false => trivial
  | true =>
      cases spentry with
      | false => rfl
      | true =>
          constructor
          · rfl
          · intro azresult
            rcases azresult with _ | _ | ⟨row, rest⟩
            · exact ⟨fun _ => ⟨rfl, rfl⟩, fun refused => refused trivial⟩
            · exact ⟨fun _ => ⟨rfl, rfl⟩, fun refused => refused trivial⟩
            · exact ⟨fun allowed => allowed.elim, fun _ => trivial⟩

theorem balances_program (db : Bool) (request : Request) :
    Balances Rowless false (request.program db) := by
  cases request with
  | fmt_entry_insert path =>
      cases db with
      | false => rfl
      | true => exact balances_statement (balances_space_update _ _ _ _)
  | fmt_entry_delete path =>
      cases db with
      | false => rfl
      | true => exact balances_statement (balances_space_update _ _ _ _)
  | get_space_entry spentry =>
      apply (balances_get_space_entry db spentry).bind
      intro entry
      cases entry <;> rfl
  | _ => exact balances_space_update _ _ _ _

/--
Over any SQL library, a run in which no query returns a row is balanced
throughout; when every call of a run returns, that is exactly when it is.
-/
theorem balanced_iff_rowless
    {Environment Choice : Type}
    (kernel : Interaction.Kernel Op Reply Environment Choice)
    (db : Bool) (environment : Environment)
    {labels : List (Label Request Choice)}
    {final : State Op Reply Int Environment}
    (ran :
      run (step kernel (Request.program db)) (.idle 0 environment) labels =
        some final) :
    (Along (step kernel (Request.program db)) (Allows kernel Rowless)
        (.idle 0 environment) labels →
      Throughout (step kernel (Request.program db)) State.Balanced
        (.idle 0 environment) labels) ∧
      ((∀ number, (final.thread number).Idle) →
        (Throughout (step kernel (Request.program db)) State.Balanced
            (.idle 0 environment) labels ↔
          Along (step kernel (Request.program db)) (Allows kernel Rowless)
            (.idle 0 environment) labels)) := by
  have balanced :=
    balanced_throughout (balances_program db) (sound_idle 0 environment) ran
  constructor
  · exact balanced.1
  · intro returned
    exact ⟨balanced.2 returned, balanced.1⟩

/-- A query that fails. -/
def failingQuery : List (Label Request Choice) :=
  [.start 0 (.get_space_entry true), .step 0 (.ok 0), .step 0 (.fail .ENOMEM),
    .step 0 (.ok 0)]

theorem balanced_iff_rowless_failingQuery :
    Throughout (step (kernel storingPlatform) (Request.program true))
      State.Balanced (.idle 0 Sys.initial) failingQuery := by
  have ran :
      run (step (kernel storingPlatform) (Request.program true))
          (.idle 0 Sys.initial) failingQuery =
        some _ :=
    rfl
  apply (balanced_iff_rowless _ true Sys.initial ran).1
  refine ⟨trivial, ?_⟩
  rintro _ ⟨⟩
  constructor
  · rintro op next reply environment ⟨⟩
  · rintro _ ⟨⟩
    constructor
    · rintro op next reply environment ⟨⟩ ⟨⟩
      trivial
    · rintro _ ⟨⟩
      constructor
      · rintro op next reply environment ⟨⟩
      · intro next _
        trivial

/--
Thread 0 has its row and unlocks; thread 1 locks; thread 0 unlocks again; and
thread 2 locks as well.
-/
def crowd : List (Label Request Choice) :=
  [.start 0 (.get_space_entry true), .step 0 (.ok 0), .step 0 (.ok 0),
    .step 0 (.ok 0), .start 1 (.add_filenum 1), .step 1 (.ok 0),
    .step 0 (.ok 0), .start 2 (.add_filenum 1), .step 2 (.ok 0)]

theorem second_unlock_lets_two_in :
    ¬ ∀ labels final,
        run (step (kernel storingPlatform) (Request.program true))
            (.idle 0 Sys.initial) labels =
          some final →
            final.Balanced := by
  intro always
  have ran :
      run (step (kernel storingPlatform) (Request.program true))
          (.idle 0 Sys.initial) crowd =
        some _ :=
    rfl
  have balanced := always crowd _ ran
  have same := balanced.exclusive 1 2 Nat.zero_lt_one Nat.zero_lt_one
  cases same

end DZFile.DbLock
