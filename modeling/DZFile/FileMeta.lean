import DZFile.Library.Transition
import DZFile.Quoting
import Mathlib.Data.Set.Card

/-!
# The rows of `filemeta`

A run is any sequence of `dzfile_creat`, `dzfile_open` and `dzfile_unlink`
calls on an empty store.  An underlying `open`, `creat` or `unlink` may fail;
no other call does.  `step_effect` says once what a call does to the rows, the
counter and the names; everything else follows from it.

A row is inserted by the text that `sprintf` makes of the path, so SQLite is a
parameter: all that is asked of it is what it does with a text that is one
statement.  The row is the path only if the path has no quote.

Rows are inserted before the file is created and are never deleted, so no
path is recorded less often than it has files, and the difference never
shrinks; and a row that is shorter than its path stays.
-/

namespace DZFile.FileMeta

open DZFile.Interaction
open DZFile.Sql (quote)
open DZFile.Names
open DZFile.Codec
open DZFile.Metadata
open DZFile.Kernel
open DZFile.Api
open DZFile.Statements
open DZFile.Quoting (execText OneStatement ReadAs oneStatement_of_free
  execText_insertText)

/-! ## Calls -/

/-- `sqlite3_exec` on a text, where it succeeds. -/
abbrev Sqlite := Db → CString → Option Db

/-- A text that is one statement has the effect of that statement. -/
def Documented (sqlite : Sqlite) : Prop :=
  ∀ db text later, execText db text = some later → sqlite db text = some later

/-- The calls that may fail. -/
def mayFail : Op → Bool
  | .openFile _ _ => true
  | .unlink _ => true
  | _ => false

/--
`fmt_entry_insert` formats its text into `sql` and executes it.  Where the
text does not fit, nothing is known of what follows.
-/
def insertRow
    (sqlite : Sqlite) (insert_time : Int) (path : CString) (sys : Sys) :
    Option (Bool × Sys) :=
  (insertSql (List.replicate sqlSize CBuffer.nul) path insert_time).bind
    fun _ =>
      (sqlite sys.db (insertText path insert_time)).map fun db =>
        (true, { sys with db := db })

/-- The kernel in which only those calls fail. -/
def storeKernel (platform : Platform) (sqlite : Sqlite) (insert_time : Int) :
    Interaction.Kernel Op Reply Sys Choice :=
  fun sys choice op =>
    if choice.fails && !mayFail op then none
    else
      match op with
      | .sqlite3_exec (.insertFilemeta path) =>
          insertRow sqlite insert_time path sys
      | op => kernel platform sys choice op

section StoreKernel

variable
    {platform : Platform} {sqlite : Sqlite} {insert_time : Int}
    {sys later : Sys} {choice : Choice}

theorem storeKernel_eq_some
    {op : Op} {reply : Reply op}
    (answered :
      storeKernel platform sqlite insert_time sys choice op =
        some (reply, later))
    (noInsert : ∀ path, op ≠ .sqlite3_exec (.insertFilemeta path)) :
    (mayFail op = false → ∃ number, choice = .ok number) ∧
      kernel platform sys choice op = some (reply, later) := by
  unfold storeKernel at answered
  split at answered
  · cases answered
  · rename_i allowed
    constructor
    · intro mustSucceed
      cases choice with
      | ok number => exact ⟨number, rfl⟩
      | fail errno => simp [Choice.fails, mustSucceed] at allowed
    · split at answered
      · rename_i path
        exact (noInsert path rfl).elim
      · exact answered

/-- What is executed has found room, and is what SQLite makes of the text. -/
theorem storeKernel_insert
    {path : CString} {done : Bool}
    (answered :
      storeKernel platform sqlite insert_time sys choice
          (.sqlite3_exec (.insertFilemeta path)) =
        some (done, later)) :
    BuffersSuffice path insert_time ∧ done = true ∧
      ∃ db,
        sqlite sys.db (insertText path insert_time) = some db ∧
          later = { sys with db := db } := by
  unfold storeKernel at answered
  split at answered
  · cases answered
  · rcases Option.bind_eq_some_iff.mp answered with ⟨sql, formatted, executed⟩
    rcases Option.map_eq_some_iff.mp executed with ⟨db, inserted, same⟩
    cases same
    have room :
        (insertSql (List.replicate sqlSize CBuffer.nul) path
          insert_time).isSome := by
      rw [formatted]
      rfl
    rw [insertSql, strcpy_isSome_iff, length_insertText,
      List.length_replicate, sqlSize] at room
    exact
      ⟨buffersSuffice_of_length_le (by omega), rfl, db, inserted, rfl⟩

end StoreKernel

/-- A call of one of the three functions. -/
inductive NameCall where
  | dzfile_creat (path : CString)
  | dzfile_open (path : CString) (flags : Nat)
  | dzfile_unlink (path : CString)

/-- The program of a call. -/
def NameCall.program : NameCall → Call Int
  | .dzfile_creat path => Api.dzfile_creat path
  | .dzfile_open path flags => Api.dzfile_open path flags
  | .dzfile_unlink path => Api.dzfile_unlink path

/-- The path of a call. -/
def NameCall.path : NameCall → CString
  | .dzfile_creat path => path
  | .dzfile_open path _ => path
  | .dzfile_unlink path => path

/-- The path is one the filter `.XXX.DZF` refuses. -/
def hiddenPath (path : CString) : Bool :=
  match strrchrSlash path with
  | none => false
  | some bname => illegalName path bname

/-- The call returns -1 before it does anything. -/
def NameCall.refused : NameCall → Bool
  | .dzfile_creat path =>
      hiddenPath path || (match_sysdir path || match_hiddenfile [] path)
  | .dzfile_open path _ => match_sysdir path || hiddenPath path
  | .dzfile_unlink path => match_sysdir path

/-- A call, the time it is made at and the choices behind it. -/
structure Label where
  call : NameCall
  insert_time : Int
  choices : List Choice

/-- The last underlying call succeeds. -/
def succeeds (choices : List Choice) : Bool :=
  match choices.getLast? with
  | some choice => !choice.fails
  | none => false

@[simp]
theorem succeeds_append_singleton (before : List Choice) (choice : Choice) :
    succeeds (before ++ [choice]) = !choice.fails := by
  simp [succeeds]

/-- One call. -/
def step (platform : Platform) (sqlite : Sqlite) (sys : Sys) (label : Label) :
    Option Sys :=
  (label.call.program.run (storeKernel platform sqlite label.insert_time) sys
    label.choices).map Prod.snd

/-! ## What a call does -/

/-- The file exists. -/
def present (sys : Sys) (path : CString) : Bool :=
  (sys.fs.entry path).isSome

/-- The paths a call inserts a row for. -/
def inserted (sys : Sys) : NameCall → List CString
  | .dzfile_creat path => [path]
  | .dzfile_open path _ => if present sys path then [] else [path]
  | .dzfile_unlink _ => []

/-- Whether the file exists after a call. -/
def remains (sys : Sys) (choices : List Choice) : NameCall → Bool
  | .dzfile_creat path => present sys path || succeeds choices
  | .dzfile_open path flags =>
      present sys path || (hasCreat flags && succeeds choices)
  | .dzfile_unlink path => present sys path && !succeeds choices

/-- All names are those of plain files. -/
def Plain (fs : FileSystem) : Prop :=
  ∀ path ino, fs.entry path = some ino →
    ∃ content, fs.node ino = .file content

theorem Plain.put
    {fs : FileSystem} (plain : Plain fs) (ino : Ino) (content : Bytes) :
    Plain (fs.put ino (.file content)) := by
  intro path other found
  by_cases same : other = ino
  · subst same
    exact ⟨content, by simp⟩
  · rw [FileSystem.node_put, Function.update_of_ne same]
    exact plain path other found

theorem Plain.link
    {fs : FileSystem} (plain : Plain fs) (path : CString) (content : Bytes) :
    Plain (fs.link path (.file content)) := by
  intro other ino found
  by_cases same : other = path
  · subst same
    simp only [FileSystem.entry_link, Function.update_self,
      Option.some.injEq] at found
    subst found
    exact ⟨content, by simp⟩
  · rw [FileSystem.entry_link, Function.update_of_ne same] at found
    rw [FileSystem.node_link,
      Function.update_of_ne (FileSystem.entry_ne_fresh found)]
    exact plain other ino found

theorem Plain.remove
    {fs : FileSystem} (plain : Plain fs) (path : CString) :
    Plain (fs.remove path) := by
  intro other ino found
  by_cases same : other = path
  · subst same
    simp at found
  · rw [FileSystem.entry_remove, Function.update_of_ne same] at found
    exact plain other ino found

/--
What holds of the file system in every reachable state: all names are those
of plain files, and no name is that of a hidden image.
-/
structure Ordinary (sys : Sys) : Prop where
  plain : Plain sys.fs
  legal :
    ∀ path, present sys path = true →
      ∃ base, strrchrSlash path = some base ∧
        illegalName path base = false

/-- No hidden image exists. -/
theorem Ordinary.image_absent
    {sys : Sys} (ordinary : Ordinary sys)
    {path h5name : CString} (built : buildHiddenFile path = some h5name) :
    sys.fs.entry h5name = none := by
  by_contra exists_
  rcases illegalName_buildHiddenFile built with ⟨base, found, illegal⟩
  rcases ordinary.legal h5name (Option.isSome_iff_ne_none.mpr exists_) with
    ⟨base', found', legal⟩
  rw [found] at found'
  cases found'
  rw [illegal] at legal
  cases legal

/-- The change of a state by a call about one path that records some paths. -/
structure Effect
    (sys next : Sys) (insert_time : Int) (path : CString)
    (paths : List CString) (remaining : Bool) : Prop where
  filemeta :
    ∃ rows, List.Forall₂ ReadAs paths rows ∧
      next.db.filemeta = sys.db.filemeta ++ rows
  filenum :
    next.db.space .filenum = sys.db.space .filenum + paths.length
  fits : ∀ recorded ∈ paths, BuffersSuffice recorded insert_time
  others : ∀ other, other ≠ path → next.fs.entry other = sys.fs.entry other
  presence : present next path = remaining
  plain : Plain next.fs

section Calls

variable {platform : Platform} {sqlite : Sqlite} {insert_time : Int}

/-- `findhiddenFile` finds nothing. -/
theorem run_findhiddenFile
    {sys later : Sys} (ordinary : Ordinary sys)
    {path : CString} {choices : List Choice} {rc : Int}
    (ran :
      (findhiddenFile path).run (storeKernel platform sqlite insert_time)
          sys choices =
        some (rc, later)) :
    sys = later ∧ (rc = 0 ∨ rc = -1 ∧ strrchrSlash path = none) := by
  unfold findhiddenFile at ran
  cases built : buildHiddenFile path with
  | none =>
      rw [built] at ran
      rcases Prog.run_ret_eq_some.mp ran with ⟨rfl, rfl, rfl⟩
      exact ⟨rfl, Or.inr ⟨rfl, by simpa [buildHiddenFile] using built⟩⟩
  | some hiddenFile =>
      rw [built] at ran
      rcases Prog.run_call_eq_some.mp ran with
        ⟨choice, rest, found, middle, rfl, answered, returned⟩
      rcases storeKernel_eq_some answered (fun _ same => by cases same) with
        ⟨mustSucceed, called⟩
      rcases mustSucceed rfl with ⟨number, rfl⟩
      have missing : sys.fs.lookup hiddenFile = none := by
        simp [FileSystem.lookup, ordinary.image_absent built]
      simp only [kernel, Sys.stat, missing, Sys.refuse, Option.some.injEq,
        Prod.mk.injEq] at called
      rcases called with ⟨rfl, rfl⟩
      rcases Prog.run_ret_eq_some.mp returned with ⟨_, rfl, rfl⟩
      exact ⟨rfl, Or.inl rfl⟩

/-- `fmt_entry_insert` inserts one row and counts it. -/
theorem run_fmt_entry_insert
    (documented : Documented sqlite) {path : CString}
    (single : OneStatement path insert_time)
    {sys later : Sys} {choices : List Choice} {ret : Int}
    (ran :
      (fmt_entry_insert path).run (storeKernel platform sqlite insert_time)
          sys choices =
        some (ret, later)) :
    later.fs = sys.fs ∧
      BuffersSuffice path insert_time ∧
        (∃ row, ReadAs path row ∧
          later.db.filemeta = sys.db.filemeta ++ [row]) ∧
          later.db.space .filenum = sys.db.space .filenum + 1 := by
  rcases execText_insertText single with ⟨row, readAs, executed⟩
  rcases Prog.run_call_eq_some.mp ran with
    ⟨choice, rest, done, middle, rfl, answered, ran⟩
  rcases storeKernel_insert answered with ⟨room, rfl, db, inserted, rfl⟩
  rw [documented _ _ _ (executed sys.db)] at inserted
  cases inserted
  rcases Prog.run_call_eq_some.mp ran with
    ⟨choice, rest, done, middle, rfl, answered, ran⟩
  rcases storeKernel_eq_some answered (fun _ same => by cases same) with
    ⟨mustSucceed, called⟩
  rcases mustSucceed rfl with ⟨number, rfl⟩
  rcases kernel_sqlite3_exec_ok called with ⟨rfl, rfl⟩
  rcases Prog.run_ret_eq_some.mp ran with ⟨_, _, rfl⟩
  exact ⟨rfl, room, ⟨row, readAs, rfl⟩, rfl⟩

/-- The names after an `open` or a `creat`. -/
theorem openFile_names
    {sys later : Sys} (plain : Plain sys.fs)
    {choice : Choice} {path : CString} {flags : Nat}
    {opened : Except Errno Int}
    (called : sys.openFile choice path flags = some (opened, later)) :
    later.db = sys.db ∧
      (∀ other, other ≠ path →
        later.fs.entry other = sys.fs.entry other) ∧
        present later path =
            (present sys path || (hasCreat flags && !choice.fails)) ∧
          Plain later.fs := by
  unfold Sys.openFile at called
  cases choice with
  | fail errno =>
      cases called
      exact ⟨rfl, fun _ _ => rfl, by simp [Choice.fails], plain⟩
  | ok number =>
      simp only at called
      split at called
      · cases called
      · cases found : sys.fs.entry path with
        | none =>
            simp only [found] at called
            split at called
            · rename_i creates
              cases called
              refine ⟨rfl, ?_, ?_, plain.link path []⟩
              · intro other different
                simp [different]
              · simp [present, creates, Choice.fails]
            · rename_i creates
              cases called
              exact
                ⟨rfl, fun _ _ => rfl, by simp [creates], plain⟩
        | some ino =>
            rcases plain path ino found with ⟨content, isFile⟩
            simp only [found, isFile] at called
            split at called
            · cases called
              exact ⟨rfl, fun _ _ => rfl, by simp [present, found], plain⟩
            · cases called
              refine ⟨rfl, ?_, ?_, ?_⟩
              · intro other different
                split <;> rfl
              · split <;> simp [present, found]
              · split
                · exact plain.put ino []
                · exact plain

/-- The names after an `unlink`. -/
theorem unlink_names
    {sys later : Sys} (plain : Plain sys.fs)
    {choice : Choice} {path : CString} {removed : Except Errno Unit}
    (called : sys.unlink choice path = some (removed, later)) :
    later.db = sys.db ∧
      (∀ other, other ≠ path →
        later.fs.entry other = sys.fs.entry other) ∧
        present later path = (present sys path && choice.fails) ∧
          (choice.fails = true → ∃ errno, removed = .error errno) ∧
            Plain later.fs := by
  unfold Sys.unlink at called
  cases choice with
  | fail errno =>
      cases called
      exact
        ⟨rfl, fun _ _ => rfl, by simp [Choice.fails],
          fun _ => ⟨errno, rfl⟩, plain⟩
  | ok number =>
      cases found : sys.fs.entry path with
      | none =>
          simp only [FileSystem.lookup, found, Option.map_none] at called
          cases called
          exact
            ⟨rfl, fun _ _ => rfl, by simp [present, found],
              fun _ => ⟨_, rfl⟩, plain⟩
      | some ino =>
          rcases plain path ino found with ⟨content, isFile⟩
          simp only [FileSystem.lookup, found, Option.map_some, isFile]
            at called
          cases called
          refine ⟨rfl, ?_, ?_, ?_, plain.remove path⟩
          · intro other different
            simp [different]
          · simp [present, Choice.fails]
          · intro failing
            cases failing

/-- The last call of `dzfile_creat` and of `dzfile_open`. -/
theorem run_openVisible
    {sys later : Sys} (plain : Plain sys.fs)
    {path : CString} {flags : Nat} {choices : List Choice} {ret : Int}
    (ran :
      (openVisible path flags).run (storeKernel platform sqlite insert_time)
          sys choices =
        some (ret, later)) :
    ∃ choice,
      choices = [choice] ∧
        Effect sys later insert_time path []
          (present sys path || (hasCreat flags && !choice.fails)) := by
  rcases Prog.run_call_eq_some.mp ran with
    ⟨choice, rest, opened, middle, rfl, answered, returned⟩
  rcases Prog.run_ret_eq_some.mp returned with ⟨rfl, _, rfl⟩
  rcases
    openFile_names plain
      (storeKernel_eq_some answered fun _ same => by cases same).2 with
    ⟨db, others, here, plain'⟩
  exact
    ⟨choice, rfl,
      { filemeta := ⟨[], .nil, by rw [db, List.append_nil]⟩
        filenum := by simp [db]
        fits := fun _ member => by cases member
        others := others
        presence := here
        plain := plain' }⟩

/-- The row is inserted, then the file is opened or created. -/
theorem run_insert_openVisible
    (documented : Documented sqlite) {path : CString}
    (single : OneStatement path insert_time)
    {sys later : Sys} (plain : Plain sys.fs)
    {flags : Nat} {choices : List Choice} {ret : Int}
    (ran :
      (do
        let _ ← fmt_entry_insert path
        openVisible path flags).run (storeKernel platform sqlite insert_time)
          sys choices =
        some (ret, later)) :
    ∃ before choice,
      choices = before ++ [choice] ∧
        Effect sys later insert_time path [path]
          (present sys path || (hasCreat flags && !choice.fails)) := by
  rcases Prog.run_bind_eq_some.mp ran with
    ⟨before, after, _, middle, rfl, insertRan, openRan⟩
  rcases run_fmt_entry_insert documented single insertRan with
    ⟨sameFs, room, ⟨row, readAs, added⟩, number⟩
  obtain ⟨choice, rfl, effect⟩ :=
    run_openVisible (by rw [sameFs]; exact plain) openRan
  have samePresent : present middle path = present sys path := by
    rw [present, sameFs, present]
  rcases effect.filemeta with ⟨rows, nothing, kept⟩
  cases nothing
  exact
    ⟨before, choice, rfl,
      { filemeta :=
          ⟨[row], .cons readAs .nil, by rw [kept, added, List.append_nil]⟩
        filenum := by simp [effect.filenum, number]
        fits := fun _ member => by
          rw [List.mem_singleton.mp member]
          exact room
        others := fun other different =>
          (effect.others other different).trans (by rw [sameFs])
        presence := by rw [effect.presence, samePresent]
        plain := effect.plain }⟩

/-- What `dzfile_creat` does. -/
theorem run_dzfile_creat
    (documented : Documented sqlite)
    {sys next : Sys} (ordinary : Ordinary sys)
    {path : CString}
    (single :
      (NameCall.dzfile_creat path).refused = false →
        OneStatement path insert_time)
    {choices : List Choice} {ret : Int}
    (ran :
      (dzfile_creat path).run (storeKernel platform sqlite insert_time)
          sys choices =
        some (ret, next)) :
    ((NameCall.dzfile_creat path).refused = true ∧ next = sys) ∨
      ((NameCall.dzfile_creat path).refused = false ∧
        Effect sys next insert_time path [path]
          (present sys path || succeeds choices) ∧
          ∃ base, strrchrSlash path = some base ∧
            illegalName path base = false) := by
  unfold dzfile_creat at ran
  cases found : strrchrSlash path with
  | none => simp [found] at ran
  | some bname =>
      simp only [found] at ran
      split at ran
      · rename_i illegal
        rcases Prog.run_ret_eq_some.mp ran with ⟨_, _, rfl⟩
        exact Or.inl ⟨by simp [NameCall.refused, hiddenPath, found, illegal], rfl⟩
      · rename_i legal
        rw [Bool.not_eq_true] at legal
        split at ran
        · rename_i guarded
          rcases Prog.run_ret_eq_some.mp ran with ⟨_, _, rfl⟩
          exact Or.inl ⟨by simp [NameCall.refused, guarded], rfl⟩
        · rename_i admitted
          rw [Bool.not_eq_true] at admitted
          rcases Prog.run_bind_eq_some.mp ran with
            ⟨first, rest, rc, middle, rfl, lookupRan, restRan⟩
          rcases run_findhiddenFile ordinary lookupRan with
            ⟨rfl, rfl | ⟨rfl, noSlash⟩⟩
          · have proper : (NameCall.dzfile_creat path).refused = false := by
              simp [NameCall.refused, hiddenPath, found, legal, admitted]
            rcases
              run_insert_openVisible documented (single proper) ordinary.plain
                restRan with
              ⟨before, choice, rfl, effect⟩
            refine Or.inr ⟨proper, ?_, bname, rfl, legal⟩
            · have creates : hasCreat (O_WRONLY + O_CREAT + O_TRUNC) = true := by
                decide
              rw [creates, Bool.true_and] at effect
              rw [← List.append_assoc, succeeds_append_singleton]
              exact effect
          · rw [found] at noSlash
            cases noSlash

/-- The branch of `dzfile_open` that is taken without a hidden image. -/
theorem run_openPlain
    (documented : Documented sqlite)
    {sys next : Sys} (plain : Plain sys.fs)
    {path : CString}
    (single : present sys path = false → OneStatement path insert_time)
    {flags : Nat} {choices : List Choice} {ret : Int}
    (ran :
      (openPlain path flags).run (storeKernel platform sqlite insert_time)
          sys choices =
        some (ret, next)) :
    ∃ before choice,
      choices = before ++ [choice] ∧
        Effect sys next insert_time path
          (if present sys path then [] else [path])
          (present sys path || (hasCreat flags && !choice.fails)) := by
  rcases Prog.run_call_eq_some.mp ran with
    ⟨choice, rest, stat, middle, rfl, answered, openRan⟩
  rcases storeKernel_eq_some answered (fun _ same => by cases same) with
    ⟨mustSucceed, called⟩
  rcases mustSucceed rfl with ⟨number, rfl⟩
  cases entry : sys.fs.entry path with
  | none =>
      have missing : sys.fs.lookup path = none := by
        simp [FileSystem.lookup, entry]
      simp only [kernel, Sys.stat, missing, Sys.refuse,
        Option.some.injEq, Prod.mk.injEq] at called
      rcases called with ⟨rfl, rfl⟩
      have absent : present sys path = false := by simp [present, entry]
      rcases
        run_insert_openVisible documented (single absent) plain openRan with
        ⟨before, choice, rfl, effect⟩
      refine ⟨.ok number :: before, choice, rfl, ?_⟩
      simpa [absent] using effect
  | some ino =>
      rcases plain path ino entry with ⟨content, isFile⟩
      have located : sys.fs.lookup path = some (.file content) := by
        simp [FileSystem.lookup, entry, isFile]
      simp only [kernel, Sys.stat, located, Option.some.injEq,
        Prod.mk.injEq] at called
      rcases called with ⟨rfl, rfl⟩
      rcases run_openVisible plain openRan with ⟨choice, rfl, effect⟩
      have there : present sys path = true := by simp [present, entry]
      refine ⟨[.ok number], choice, rfl, ?_⟩
      simpa [there] using effect

/-- What `dzfile_open` does. -/
theorem run_dzfile_open
    (documented : Documented sqlite)
    {sys next : Sys} (ordinary : Ordinary sys)
    {path : CString} {flags : Nat}
    (single :
      (NameCall.dzfile_open path flags).refused = false →
        present sys path = false → OneStatement path insert_time)
    {choices : List Choice} {ret : Int}
    (ran :
      (dzfile_open path flags).run (storeKernel platform sqlite insert_time)
          sys choices =
        some (ret, next)) :
    ((NameCall.dzfile_open path flags).refused = true ∧ next = sys) ∨
      ((NameCall.dzfile_open path flags).refused = false ∧
        Effect sys next insert_time path
          (if present sys path then [] else [path])
          (present sys path || (hasCreat flags && succeeds choices)) ∧
          ∃ base, strrchrSlash path = some base ∧
            illegalName path base = false) := by
  unfold dzfile_open at ran
  split at ran
  · rename_i guarded
    rcases Prog.run_ret_eq_some.mp ran with ⟨_, _, rfl⟩
    exact Or.inl ⟨by simp [NameCall.refused, guarded], rfl⟩
  · rename_i admitted
    rw [Bool.not_eq_true] at admitted
    cases found : strrchrSlash path with
    | none => simp [found] at ran
    | some bname =>
        simp only [found] at ran
        split at ran
        · rename_i illegal
          rcases Prog.run_ret_eq_some.mp ran with ⟨_, _, rfl⟩
          exact
            Or.inl ⟨by simp [NameCall.refused, hiddenPath, found, illegal], rfl⟩
        · rename_i legal
          rw [Bool.not_eq_true] at legal
          rcases Prog.run_bind_eq_some.mp ran with
            ⟨first, rest, rc, middle, rfl, lookupRan, restRan⟩
          rcases run_findhiddenFile ordinary lookupRan with
            ⟨rfl, rfl | ⟨rfl, noSlash⟩⟩
          · have proper :
                (NameCall.dzfile_open path flags).refused = false := by
              simp [NameCall.refused, hiddenPath, found, legal, admitted]
            refine Or.inr ⟨proper, ?_, bname, rfl, legal⟩
            · rcases
                run_openPlain documented ordinary.plain (single proper)
                  restRan with
                ⟨before, choice, rfl, effect⟩
              rw [← List.append_assoc, succeeds_append_singleton]
              exact effect
          · rw [found] at noSlash
            cases noSlash

/-- What `dzfile_unlink` does. -/
theorem run_dzfile_unlink
    {sys next : Sys} (ordinary : Ordinary sys)
    {path : CString} {choices : List Choice} {ret : Int}
    (ran :
      (dzfile_unlink path).run (storeKernel platform sqlite insert_time)
          sys choices =
        some (ret, next)) :
    ((NameCall.dzfile_unlink path).refused = true ∧ next = sys) ∨
      ((NameCall.dzfile_unlink path).refused = false ∧
        Effect sys next insert_time path []
          (present sys path && !succeeds choices)) := by
  unfold dzfile_unlink at ran
  split at ran
  · rename_i guarded
    rcases Prog.run_ret_eq_some.mp ran with ⟨_, _, rfl⟩
    exact Or.inl ⟨guarded, rfl⟩
  · rename_i admitted
    rw [Bool.not_eq_true] at admitted
    rcases Prog.run_bind_eq_some.mp ran with
      ⟨first, rest, rc, middle, rfl, lookupRan, restRan⟩
    rcases run_findhiddenFile ordinary lookupRan with ⟨rfl, noImage⟩
    have notOne : rc ≠ 1 := by
      rcases noImage with rfl | ⟨rfl, _⟩ <;> decide
    rw [if_neg notOne] at restRan
    rcases Prog.run_call_eq_some.mp restRan with
      ⟨choice, rest, removed, middle, rfl, answered, accountRan⟩
    rcases
      unlink_names ordinary.plain
        (storeKernel_eq_some answered fun _ same => by cases same).2 with
      ⟨db, others, here, refusal, plain⟩
    have effect :
        Effect sys middle insert_time path []
          (present sys path && choice.fails) :=
      { filemeta := ⟨[], .nil, by rw [db, List.append_nil]⟩
        filenum := by simp [db]
        fits := fun _ member => by cases member
        others := others
        presence := here
        plain := plain }
    refine Or.inr ⟨admitted, ?_⟩
    cases removed with
    | error errno =>
        rcases Prog.run_ret_eq_some.mp accountRan with ⟨rfl, _, rfl⟩
        rw [succeeds_append_singleton, Bool.not_not]
        exact effect
    | ok done =>
        -- the file is gone, so the call of `stat` that follows fails
        have succeeded : choice.fails = false := by
          by_contra failing
          rcases refusal (by simpa using failing) with ⟨errno, failed⟩
          cases failed
        have gone : middle.fs.lookup path = none := by
          rw [succeeded, Bool.and_false, present,
            Option.isSome_eq_false_iff, Option.isNone_iff_eq_none] at here
          simp [FileSystem.lookup, here]
        rcases Prog.run_call_eq_some.mp accountRan with
          ⟨statChoice, rest, found, after, rfl, statAnswered, finished⟩
        rcases storeKernel_eq_some statAnswered (fun _ same => by cases same) with
          ⟨mustSucceed, statCalled⟩
        rcases mustSucceed rfl with ⟨number, rfl⟩
        simp only [kernel, Sys.stat, gone, Sys.refuse, Option.some.injEq,
          Prod.mk.injEq] at statCalled
        rcases statCalled with ⟨rfl, rfl⟩
        rcases Prog.run_ret_eq_some.mp finished with ⟨rfl, _, rfl⟩
        have lastOk :
            succeeds (first ++ [choice, .ok number]) = true := by
          simpa [Choice.fails] using
            succeeds_append_singleton (first ++ [choice]) (.ok number)
        rw [lastOk]
        rw [succeeded] at effect
        exact effect

end Calls

/-- The text of every row that a call inserts is one statement. -/
def Spelled (sys : Sys) (label : Label) : Prop :=
  label.call.refused = false →
    ∀ path ∈ inserted sys label.call, OneStatement path label.insert_time

section Steps

variable
    {platform : Platform} {sqlite : Sqlite} {sys next : Sys} {label : Label}

/-- What one call does. -/
theorem step_effect
    (documented : Documented sqlite) (ordinary : Ordinary sys)
    (spelled : Spelled sys label)
    (stepped : step platform sqlite sys label = some next) :
    (label.call.refused = true ∧ next = sys) ∨
      (label.call.refused = false ∧
        Effect sys next label.insert_time label.call.path
          (inserted sys label.call)
          (remains sys label.choices label.call) ∧
          (present sys label.call.path = true ∨
            remains sys label.choices label.call = false ∨
              ∃ base, strrchrSlash label.call.path = some base ∧
                illegalName label.call.path base = false)) := by
  rcases Option.map_eq_some_iff.mp stepped with ⟨⟨ret, later⟩, ran, rfl⟩
  rcases label with ⟨call, insert_time, choices⟩
  cases call with
  | dzfile_creat path =>
      have single :
          (NameCall.dzfile_creat path).refused = false →
            OneStatement path insert_time :=
        fun proper => spelled proper path List.mem_cons_self
      rcases run_dzfile_creat documented ordinary single ran with
        refused | ⟨admitted, effect, legal⟩
      · exact Or.inl refused
      · exact Or.inr ⟨admitted, effect, Or.inr (Or.inr legal)⟩
  | dzfile_open path flags =>
      have single :
          (NameCall.dzfile_open path flags).refused = false →
            present sys path = false → OneStatement path insert_time := by
        intro proper absent
        apply spelled proper path
        rw [inserted, absent]
        exact List.mem_cons_self
      rcases run_dzfile_open documented ordinary single ran with
        refused | ⟨admitted, effect, legal⟩
      · exact Or.inl refused
      · exact Or.inr ⟨admitted, effect, Or.inr (Or.inr legal)⟩
  | dzfile_unlink path =>
      rcases run_dzfile_unlink ordinary ran with refused | ⟨admitted, effect⟩
      · exact Or.inl refused
      · refine Or.inr ⟨admitted, effect, ?_⟩
        cases there : present sys path with
        | true => exact Or.inl there
        | false => exact Or.inr (Or.inl (by simp [remains, there]))

/-- Every call keeps the file system ordinary. -/
theorem ordinary_step
    (documented : Documented sqlite) (ordinary : Ordinary sys)
    (spelled : Spelled sys label)
    (stepped : step platform sqlite sys label = some next) :
    Ordinary next := by
  rcases step_effect documented ordinary spelled stepped with
    ⟨_, rfl⟩ | ⟨_, effect, legal⟩
  · exact ordinary
  · refine ⟨effect.plain, ?_⟩
    intro path there
    by_cases same : path = label.call.path
    · subst same
      rcases legal with before | gone | named
      · exact ordinary.legal _ before
      · rw [effect.presence, gone] at there
        cases there
      · exact named
    · refine ordinary.legal path ?_
      rw [present, ← effect.others path same]
      exact there

end Steps

/-! ## Runs -/

/-- The number of rows of a path. -/
def rowsOf (sys : Sys) (path : CString) : Nat :=
  sys.db.filemeta.count path

/-- The number of files of a path, one or none. -/
def filesOf (sys : Sys) (path : CString) : Nat :=
  (present sys path).toNat

/--
The metadata tracks the files: one row for each file and none for any other
path, and the number of files in `filenum`.
-/
structure Tracked (sys : Sys) : Prop where
  rows : ∀ path, rowsOf sys path = filesOf sys path
  filenum :
    sys.db.space .filenum = ({path | present sys path = true}.ncard : Nat)

/-- There is room for the text of its insert, and the path comes back from it. -/
structure Recordable (path : CString) (insert_time : Int) : Prop where
  free : quote ∉ path
  room : BuffersSuffice path insert_time

/--
A call that records the files it creates and removes none: a refused call, a
`dzfile_creat` that creates, a `dzfile_open` of a file that exists or that it
creates, and a `dzfile_unlink` that removes nothing.
-/
def Matched (sys : Sys) (label : Label) : Prop :=
  label.call.refused = true ∨
    match label.call with
    | .dzfile_creat path =>
        present sys path = false ∧ succeeds label.choices = true ∧
          Recordable path label.insert_time
    | .dzfile_open path flags =>
        present sys path = true ∨
          (hasCreat flags = true ∧ succeeds label.choices = true ∧
            Recordable path label.insert_time)
    | .dzfile_unlink path =>
        present sys path = false ∨ succeeds label.choices = false

section Counting

variable {sys : Sys} {label : Label}

/-- What is matched is inserted by one statement. -/
theorem spelled_of_matched (matched : Matched sys label) :
    Spelled sys label := by
  intro admitted path recorded
  apply oneStatement_of_free
  rcases label with ⟨call, insert_time, choices⟩
  rcases matched with refused | matched
  · rw [admitted] at refused
    cases refused
  cases call with
  | dzfile_creat other =>
      rw [List.mem_singleton.mp recorded]
      exact matched.2.2.free
  | dzfile_open other flags =>
      rcases matched with there | ⟨_, _, recordable⟩
      · simp [inserted, there] at recorded
      · simp only [inserted] at recorded
        split at recorded
        · cases recorded
        · rw [List.mem_singleton.mp recorded]
          exact recordable.free
  | dzfile_unlink other => cases recorded

/--
The matched calls record as many paths as they create files, and none with a
quote.
-/
theorem matched_iff
    (admitted : label.call.refused = false)
    (fits :
      ∀ path ∈ inserted sys label.call,
        BuffersSuffice path label.insert_time) :
    Matched sys label ↔
      filesOf sys label.call.path + (inserted sys label.call).length =
          (remains sys label.choices label.call).toNat ∧
        ∀ path ∈ inserted sys label.call, quote ∉ path := by
  rcases label with ⟨call, insert_time, choices⟩
  unfold Matched
  rw [admitted]
  cases call with
  | dzfile_creat path =>
      have recordable : Recordable path insert_time ↔ quote ∉ path :=
        ⟨Recordable.free, fun free => ⟨free, fits path List.mem_cons_self⟩⟩
      simp only [filesOf, NameCall.path, inserted, remains, recordable]
      cases present sys path <;> cases succeeds choices <;> simp
  | dzfile_open path flags =>
      simp only [filesOf, NameCall.path, inserted, remains] at fits ⊢
      cases there : present sys path with
      | true => simp
      | false =>
          rw [there] at fits
          have recordable : Recordable path insert_time ↔ quote ∉ path :=
            ⟨Recordable.free,
              fun free => ⟨free, fits path List.mem_cons_self⟩⟩
          rw [recordable]
          cases succeeds choices <;> cases hasCreat flags <;> simp
  | dzfile_unlink path =>
      simp only [filesOf, NameCall.path, inserted, remains]
      cases present sys path <;> cases succeeds choices <;> simp

/-- No call creates a file without inserting a row. -/
theorem remains_le (sys : Sys) (label : Label) :
    (remains sys label.choices label.call).toNat ≤
      filesOf sys label.call.path + (inserted sys label.call).length := by
  rcases label with ⟨call, insert_time, choices⟩
  cases call with
  | dzfile_creat path =>
      simp only [filesOf, NameCall.path, inserted, remains]
      cases present sys path <;> cases succeeds choices <;> simp
  | dzfile_open path flags =>
      simp only [filesOf, NameCall.path, inserted, remains]
      cases present sys path <;> cases succeeds choices <;>
        cases hasCreat flags <;> simp
  | dzfile_unlink path =>
      simp only [filesOf, NameCall.path, inserted, remains]
      cases present sys path <;> cases succeeds choices <;> simp

/-- A call records its own path only. -/
theorem count_inserted (sys : Sys) (call : NameCall) (path : CString) :
    (inserted sys call).count path =
      if path = call.path then (inserted sys call).length else 0 := by
  have single :
      ∀ other : CString,
        [other].count path = if path = other then 1 else 0 := by
    intro other
    rw [List.count_singleton]
    by_cases same : path = other
    · simp [same]
    · simp [same, Ne.symm same]
  cases call with
  | dzfile_creat other => simpa [inserted, NameCall.path] using single other
  | dzfile_open other flags =>
      cases there : present sys other with
      | true => simp [inserted, there]
      | false => simpa [inserted, there, NameCall.path] using single other
  | dzfile_unlink other => simp [inserted]

end Counting

/-! ### What the rows have been inserted for -/

/-- Paths without a quote are the rows. -/
theorem rows_of_free
    {paths rows : List CString} (readAs : List.Forall₂ ReadAs paths rows)
    (free : ∀ path ∈ paths, quote ∉ path) :
    rows = paths := by
  induction readAs with
  | nil => rfl
  | cons first rest induction =>
      rcases List.forall_mem_cons.mp free with ⟨head, tail⟩
      rcases first with ⟨_, rfl⟩ | ⟨quoted, _⟩
      · rw [induction tail]
      · exact (head quoted).elim

/-- Rows are no longer than their paths, and one of them shorter. -/
theorem lengths_of_rows
    {paths rows : List CString} (readAs : List.Forall₂ ReadAs paths rows) :
    (rows.map List.length).sum ≤ (paths.map List.length).sum ∧
      ∀ path ∈ paths, quote ∈ path →
        (rows.map List.length).sum < (paths.map List.length).sum := by
  induction readAs with
  | nil => exact ⟨Nat.le_refl _, fun _ member => by cases member⟩
  | cons first rest induction =>
      have head := first.length_le
      simp only [List.map_cons, List.sum_cons]
      refine ⟨Nat.add_le_add head induction.1, ?_⟩
      intro path member quoted
      rcases List.mem_cons.mp member with rfl | later
      · rcases first with ⟨free, _⟩ | ⟨_, shorter⟩
        · exact (free quoted).elim
        · exact Nat.add_lt_add_of_lt_of_le shorter induction.1
      · exact
          Nat.add_lt_add_of_le_of_lt head (induction.2 path later quoted)

/-- The rows are those of the paths, and every file is one of them. -/
structure Recorded (sys : Sys) (paths : List CString) : Prop where
  rows : List.Forall₂ ReadAs paths sys.db.filemeta
  files : ∀ path, filesOf sys path ≤ paths.count path

/-- The rows and the number of rows agree with the files. -/
structure Sound (sys : Sys) : Prop where
  ordinary : Ordinary sys
  counted : sys.db.space .filenum = sys.db.filemeta.length
  rows : ∀ path, rowsOf sys path = filesOf sys path
  free : ∀ row ∈ sys.db.filemeta, quote ∉ row

/-- Some path is recorded more often than it has files, or with a quote. -/
structure Broken (sys : Sys) : Prop where
  ordinary : Ordinary sys
  surplus :
    ∃ paths, Recorded sys paths ∧
      ((∃ path, filesOf sys path < paths.count path) ∨
        ∃ path ∈ paths, quote ∈ path)

theorem Sound.recorded {sys : Sys} (sound : Sound sys) :
    Recorded sys sys.db.filemeta where
  rows :=
    List.forall₂_same.mpr fun row member => Or.inl ⟨sound.free row member, rfl⟩
  files path := Nat.le_of_eq (sound.rows path).symm

section Steps

variable
    {platform : Platform} {sqlite : Sqlite} {sys next : Sys} {label : Label}

/-- The files of every path after an admitted call. -/
theorem Effect.files
    (effect :
      Effect sys next label.insert_time label.call.path
        (inserted sys label.call) (remains sys label.choices label.call))
    (path : CString) :
    (path = label.call.path ∧
        filesOf next path =
          (remains sys label.choices label.call).toNat) ∨
      (path ≠ label.call.path ∧ filesOf next path = filesOf sys path) := by
  by_cases same : path = label.call.path
  · subst same
    exact Or.inl ⟨rfl, by rw [filesOf, effect.presence]⟩
  · refine Or.inr ⟨same, ?_⟩
    unfold filesOf present
    rw [effect.others path same]

/-- The call records its paths behind those recorded before. -/
theorem Effect.recorded
    (effect :
      Effect sys next label.insert_time label.call.path
        (inserted sys label.call) (remains sys label.choices label.call))
    {paths : List CString} (recorded : Recorded sys paths) :
    Recorded next (paths ++ inserted sys label.call) ∧
      ∀ path, filesOf sys path < paths.count path →
        filesOf next path <
          (paths ++ inserted sys label.call).count path := by
  rcases effect.filemeta with ⟨rows, readAs, added⟩
  have atMost := remains_le sys label
  have counts :
      ∀ path,
        (paths ++ inserted sys label.call).count path =
          paths.count path +
            if path = label.call.path then
              (inserted sys label.call).length
            else 0 := by
    intro path
    rw [List.count_append, count_inserted]
  refine ⟨⟨?_, ?_⟩, ?_⟩
  · rw [added]
    exact List.rel_append recorded.rows readAs
  · intro path
    have before := recorded.files path
    rw [counts]
    rcases effect.files path with ⟨rfl, files⟩ | ⟨other, files⟩
    · rw [if_pos rfl]
      omega
    · rw [if_neg other]
      omega
  · intro path surplus
    rw [counts]
    rcases effect.files path with ⟨rfl, files⟩ | ⟨other, files⟩
    · rw [if_pos rfl]
      omega
    · rw [if_neg other]
      omega

theorem sound_step
    (documented : Documented sqlite) (sound : Sound sys)
    (matched : Matched sys label)
    (stepped : step platform sqlite sys label = some next) :
    Sound next := by
  have spelled := spelled_of_matched matched
  have ordinary := ordinary_step documented sound.ordinary spelled stepped
  rcases step_effect documented sound.ordinary spelled stepped with
    ⟨_, rfl⟩ | ⟨admitted, effect, _⟩
  · exact sound
  · rcases (matched_iff admitted effect.fits).mp matched with ⟨balance, free⟩
    rcases effect.filemeta with ⟨rows, readAs, added⟩
    rw [rows_of_free readAs free] at added
    refine ⟨ordinary, ?_, ?_, ?_⟩
    · rw [effect.filenum, added, sound.counted]
      simp
    · intro path
      have before := sound.rows path
      have now :
          rowsOf next path =
            rowsOf sys path + (inserted sys label.call).count path := by
        rw [rowsOf, added, List.count_append, rowsOf]
      rw [now, count_inserted]
      rcases effect.files path with ⟨rfl, files⟩ | ⟨other, files⟩
      · rw [if_pos rfl]
        omega
      · rw [if_neg other]
        omega
    · intro row member
      rw [added] at member
      rcases List.mem_append.mp member with old | new
      · exact sound.free row old
      · exact free row new

theorem broken_of_unmatched
    (documented : Documented sqlite) (sound : Sound sys)
    (spelled : Spelled sys label) (unmatched : ¬ Matched sys label)
    (stepped : step platform sqlite sys label = some next) :
    Broken next := by
  have ordinary := ordinary_step documented sound.ordinary spelled stepped
  rcases step_effect documented sound.ordinary spelled stepped with
    ⟨refused, rfl⟩ | ⟨admitted, effect, _⟩
  · exact (unmatched (Or.inl refused)).elim
  · refine ⟨ordinary, _, (effect.recorded sound.recorded).1, ?_⟩
    by_cases free : ∀ path ∈ inserted sys label.call, quote ∉ path
    · left
      refine ⟨label.call.path, ?_⟩
      have imbalance :
          filesOf sys label.call.path + (inserted sys label.call).length ≠
            (remains sys label.choices label.call).toNat := fun balance =>
        unmatched ((matched_iff admitted effect.fits).mpr ⟨balance, free⟩)
      have atMost := remains_le sys label
      have before := sound.rows label.call.path
      rw [List.count_append, count_inserted, if_pos rfl]
      rcases effect.files label.call.path with ⟨_, files⟩ | ⟨different, _⟩
      · unfold rowsOf at before
        omega
      · exact (different rfl).elim
    · right
      push Not at free
      rcases free with ⟨path, recorded, quoted⟩
      exact ⟨path, List.mem_append_right _ recorded, quoted⟩

theorem broken_step
    (documented : Documented sqlite) (broken : Broken sys)
    (spelled : Spelled sys label)
    (stepped : step platform sqlite sys label = some next) :
    Broken next := by
  have ordinary := ordinary_step documented broken.ordinary spelled stepped
  rcases step_effect documented broken.ordinary spelled stepped with
    ⟨_, rfl⟩ | ⟨_, effect, _⟩
  · exact broken
  · rcases broken.surplus with ⟨paths, recorded, surplus⟩
    rcases effect.recorded recorded with ⟨recorded', grows⟩
    refine ⟨ordinary, _, recorded', ?_⟩
    rcases surplus with ⟨path, more⟩ | ⟨path, member, quoted⟩
    · exact Or.inl ⟨path, grows path more⟩
    · exact Or.inr ⟨path, List.mem_append_left _ member, quoted⟩

end Steps

/-- The number of rows is the number of files when each file has one row. -/
theorem tracked_of_sound {sys : Sys} (sound : Sound sys) : Tracked sys := by
  refine ⟨sound.rows, ?_⟩
  have noDuplicates : sys.db.filemeta.Nodup := by
    rw [List.nodup_iff_count_le_one]
    intro path
    have rows := sound.rows path
    unfold rowsOf filesOf at rows
    rw [rows]
    exact Bool.toNat_le _
  have files :
      {path | present sys path = true} =
        (sys.db.filemeta.toFinset : Set CString) := by
    ext path
    have rows := sound.rows path
    unfold rowsOf filesOf at rows
    simp only [Set.mem_ofPred_eq, List.coe_toFinset]
    rw [← List.count_pos_iff, rows]
    cases present sys path <;> simp
  rw [sound.counted, files, Set.ncard_coe_finset,
    List.toFinset_card_of_nodup noDuplicates]

/-- One row for each file would make the rows the recorded paths. -/
theorem not_tracked_of_broken {sys : Sys} (broken : Broken sys) :
    ¬ Tracked sys := by
  intro tracked
  rcases broken.surplus with ⟨paths, recorded, surplus⟩
  have within : sys.db.filemeta.Subperm paths := by
    rw [List.subperm_ext_iff]
    intro path _
    have rows := tracked.rows path
    have files := recorded.files path
    unfold rowsOf at rows
    omega
  have same : sys.db.filemeta.Perm paths :=
    within.perm_of_length_le (Nat.le_of_eq recorded.rows.length_eq)
  rcases surplus with ⟨path, more⟩ | ⟨path, member, quoted⟩
  · have rows := tracked.rows path
    rw [rowsOf, same.count_eq] at rows
    omega
  · have shorter := (lengths_of_rows recorded.rows).2 path member quoted
    rw [(same.map List.length).sum_eq] at shorter
    exact Nat.lt_irrefl _ shorter

theorem sound_initial : Sound Sys.initial where
  ordinary :=
    { plain := by
        intro path ino found
        cases found
      legal := by
        intro path there
        cases there }
  counted := rfl
  rows path := rfl
  free row member := by cases member

/--
After any sequence of matched calls on an empty store the metadata tracks the
files.  If the text of every insert is one statement, it tracks them after no
other sequence.
-/
theorem tracked_iff_matched
    {platform : Platform} {sqlite : Sqlite} (documented : Documented sqlite)
    {final : Sys} {labels : List Label}
    (ran :
      Transition.run (step platform sqlite) Sys.initial labels =
        some final) :
    (Transition.Along (step platform sqlite) Matched Sys.initial labels →
        Tracked final) ∧
      (Transition.Along (step platform sqlite) Spelled Sys.initial labels →
        Tracked final →
          Transition.Along (step platform sqlite) Matched Sys.initial
            labels) := by
  constructor
  · intro along
    apply tracked_of_sound
    exact
      Transition.run_invariant_along Sound
        (fun _ _ _ sound matched => sound_step documented sound matched)
        sound_initial along ran
  · intro spelled tracked
    rcases
      Transition.run_exact_along
        (fun _ _ _ sound _ matched => sound_step documented sound matched)
        (fun _ _ _ sound => broken_of_unmatched documented sound)
        (fun _ _ _ broken => broken_step documented broken)
        sound_initial spelled ran with
      ⟨along, _⟩ | ⟨_, broken⟩
    · exact along
    · exact (not_tracked_of_broken broken tracked).elim

/-- Create `/f`, and fail to remove it. -/
def createThenRefuse : List Label :=
  [⟨.dzfile_creat ['/', 'f'], 0, [.ok 0, .ok 0, .ok 0, .ok 3]⟩,
    ⟨.dzfile_unlink ['/', 'f'], 0, [.ok 0, .fail .EACCES]⟩]

/-- The row is for a path with one quote, and the file has two. -/
def createQuoted : Label :=
  ⟨.dzfile_creat ['/', 'a', quote, quote, 'b'], 0,
    [.ok 0, .ok 0, .ok 0, .ok 3]⟩

theorem tracked_iff_matched_createThenRefuse :
    (∃ final,
      Transition.run (step storingPlatform execText) Sys.initial
            createThenRefuse =
          some final ∧
        Tracked final) ∧
      ∃ final,
        Transition.run (step storingPlatform execText) Sys.initial
              [createQuoted] =
            some final ∧
          ¬ Tracked final := by
  constructor
  · have completes :
        (Transition.run (step storingPlatform execText) Sys.initial
          createThenRefuse).isSome := by
      decide +kernel
    rcases Option.isSome_iff_exists.mp completes with ⟨final, ran⟩
    refine ⟨final, ran, (tracked_iff_matched (fun _ _ _ => id) ran).1 ?_⟩
    refine ⟨Or.inr ⟨rfl, rfl, by decide, ?_⟩, ?_⟩
    · apply buffersSuffice_of_length_le
      decide
    · intro next _
      exact ⟨Or.inr (Or.inr rfl), fun _ _ => trivial⟩
  · have completes :
        (Transition.run (step storingPlatform execText) Sys.initial
          [createQuoted]).isSome := by
      decide +kernel
    rcases Option.isSome_iff_exists.mp completes with ⟨final, ran⟩
    refine ⟨final, ran, fun tracked => ?_⟩
    have spelled :
        Transition.Along (step storingPlatform execText) Spelled Sys.initial
          [createQuoted] := by
      refine ⟨fun _ path recorded => ?_, fun _ _ => trivial⟩
      rw [List.mem_singleton.mp recorded]
      decide +kernel
    rcases
      ((tracked_iff_matched (fun _ _ _ => id) ran).2 spelled tracked).1 with
      refused | ⟨_, _, recordable⟩
    · revert refused
      decide
    · exact absurd recordable.free (by decide)

/-- Creating a file and removing it leaves its row behind. -/
theorem removed_file_keeps_its_row :
    ¬ ∀ (platform : Platform) (sqlite : Sqlite) (final : Sys)
        (labels : List Label),
        Documented sqlite →
          Transition.run (step platform sqlite) Sys.initial labels =
              some final →
            Tracked final := by
  intro claimed
  have completes :
      (Transition.run (step storingPlatform execText) Sys.initial
        [⟨.dzfile_creat ['/', 'f'], 0, [.ok 0, .ok 0, .ok 0, .ok 3]⟩,
          ⟨.dzfile_unlink ['/', 'f'], 0, [.ok 0, .ok 0, .ok 0]⟩]).map
        (fun final =>
          (rowsOf final ['/', 'f'], filesOf final ['/', 'f'])) =
        some (1, 0) := by
    decide +kernel
  rcases Option.map_eq_some_iff.mp completes with ⟨final, ran, counts⟩
  have rows :=
    (claimed storingPlatform execText final _ (fun _ _ _ => id) ran).rows
      ['/', 'f']
  rw [Prod.mk.injEq] at counts
  rw [counts.1, counts.2] at rows
  cases rows

end DZFile.FileMeta
