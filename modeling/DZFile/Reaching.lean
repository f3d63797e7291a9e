import DZFile.Kernel
import DZFile.Library.Transition

/-!
# File systems the program can reach

Whatever functions are called, by however many processes, the file system
changes only by the calls of the environment.  A reachable file system is one
that any sequence of such calls makes of the empty one; each call may be made
by another process, so the tables of the caller are part of the label.

No call gives a file a second name.  A call that can change certain names only
therefore leaves alone what the other names refer to.
-/

namespace DZFile.Reaching

open DZFile.ByteSeq
open DZFile.Interaction
open DZFile.Names
open DZFile.Codec
open DZFile.Kernel

/-! ## Names -/

/-- What a call does to the names. -/
inductive EntryStep (fs fs' : FileSystem) : Prop where
  | same (entry : fs'.entry = fs.entry)
  | link
      (path : CString)
      (entry : fs'.entry = Function.update fs.entry path (some fs.fresh))
  | remove
      (path : CString) (entry : fs'.entry = Function.update fs.entry path none)
  | move
      (old new : CString)
      (entry :
        fs'.entry =
          Function.update (Function.update fs.entry old none) new
            (fs.entry old))

/-- What a call does to the names, and which call takes one away. -/
inductive NamedStep (op : Op) (fs fs' : FileSystem) : Prop where
  | same (entry : fs'.entry = fs.entry)
  | link
      (path : CString)
      (entry : fs'.entry = Function.update fs.entry path (some fs.fresh))
  | remove
      (path : CString) (unlinks : op = .unlink path)
      (entry : fs'.entry = Function.update fs.entry path none)
  | move
      (old new : CString) (renames : op = .rename old new)
      (found : fs.entry old ≠ none)
      (entry :
        fs'.entry =
          Function.update (Function.update fs.entry old none) new
            (fs.entry old))

theorem NamedStep.entryStep
    {op : Op} {fs fs' : FileSystem} (named : NamedStep op fs fs') :
    EntryStep fs fs' := by
  cases named with
  | same entry => exact .same entry
  | link path entry => exact .link path entry
  | remove path _ entry => exact .remove path entry
  | move old new _ _ entry => exact .move old new entry

/-- A name goes away when it is unlinked or renamed. -/
theorem NamedStep.vanishes
    {op : Op} {fs fs' : FileSystem} (named : NamedStep op fs fs')
    {name : CString} (present : fs.entry name ≠ none)
    (gone : fs'.entry name = none) :
    op = .unlink name ∨ ∃ new, op = .rename name new := by
  cases named with
  | same entry =>
      rw [entry] at gone
      exact (present gone).elim
  | link path entry =>
      rw [entry, Function.update_apply] at gone
      split at gone
      · cases gone
      · exact (present gone).elim
  | remove path unlinks entry =>
      rw [entry, Function.update_apply] at gone
      split at gone
      · rename_i same
        left
        rw [unlinks, same]
      · exact (present gone).elim
  | move old new renames found entry =>
      rw [entry, Function.update_apply, Function.update_apply] at gone
      by_cases isOld : name = old
      · right
        rw [renames, isOld]
        exact ⟨new, rfl⟩
      · rw [if_neg isOld] at gone
        split at gone
        · exact (found gone).elim
        · exact (present gone).elim

section Kernel

variable
    {platform : Platform} {sys later : Sys} {choice : Choice} {op : Op}
    {reply : Reply op}

/-- Every call is one of these, and only two of them take a name away. -/
theorem namedStep_of_kernel
    (called : kernel platform sys choice op = some (reply, later)) :
    NamedStep op sys.fs later.fs := by
  cases op with
  | stat path =>
      rw [(Sys.stat_eq_some called).1]
      exact .same rfl
  | openFile path flags =>
      cases reply with
      | error errno =>
          rw [Sys.openFile_eq_error called]
          exact .same rfl
      | ok fd =>
          rcases Sys.openFile_eq_some called with
            ⟨number, ino, fs, _, _, rfl, ⟨_, _, _, rfl⟩ | ⟨_, kept⟩⟩
          · exact .link path rfl
          · rcases kept with rfl | ⟨_, rfl⟩ <;> exact .same rfl
  | close fd =>
      rw [Sys.close_eq_some called]
      exact .same rfl
  | read fd count =>
      simp only [kernel, Sys.read, Sys.refuse] at called
      repeat' split at called
      all_goals first
        | (cases called; exact .same rfl)
        | (obtain ⟨_, _, answer⟩ := Option.map_eq_some_iff.mp called
           cases answer
           exact .same rfl)
  | pread fd count offset =>
      simp only [kernel, Sys.pread, Sys.refuse] at called
      repeat' split at called
      all_goals first
        | (cases called; exact .same rfl)
        | (obtain ⟨_, _, answer⟩ := Option.map_eq_some_iff.mp called
           cases answer
           exact .same rfl)
  | write fd data =>
      rcases Sys.write_eq_some called with
        ⟨errno, _, rfl⟩ | ⟨limit, file, _, _, fs, _⟩
      · exact .same rfl
      · exact .same (by rw [fs]; rfl)
  | pwrite fd data offset =>
      rcases Sys.pwrite_eq_some called with
        ⟨errno, _, rfl⟩ | ⟨limit, file, _, _, _, fs, _⟩
      · exact .same rfl
      · exact .same (by rw [fs]; rfl)
  | lseek fd offset whence =>
      simp only [kernel, Sys.lseek, Sys.refuse] at called
      repeat' split at called
      all_goals
        cases called
        exact .same rfl
  | truncate path length =>
      simp only [kernel, Sys.truncate, Sys.refuse] at called
      repeat' split at called
      all_goals
        cases called
        exact .same rfl
  | ftruncate fd length =>
      simp only [kernel, Sys.ftruncate, Sys.refuse] at called
      repeat' split at called
      all_goals
        cases called
        exact .same rfl
  | rename old new =>
      simp only [kernel, Sys.rename, Sys.refuse] at called
      repeat' split at called
      all_goals cases called
      all_goals first
        | exact .same rfl
        | exact .move old new rfl (by simp [*]) rfl
  | unlink path =>
      simp only [kernel, Sys.unlink, Sys.refuse] at called
      repeat' split at called
      all_goals cases called
      all_goals first
        | exact .same rfl
        | exact .remove path rfl rfl
  | mkdir path =>
      simp only [kernel, Sys.mkdir, Sys.refuse] at called
      repeat' split at called
      all_goals cases called
      all_goals first
        | exact .same rfl
        | exact .link path rfl
  | h5fcreate path =>
      simp only [kernel, Sys.h5fcreate, Sys.installHandle] at called
      repeat' split at called
      all_goals cases called
      all_goals first
        | exact .same rfl
        | exact .link path rfl
  | h5fopen path =>
      simp only [kernel, Sys.h5fopen, Sys.installHandle] at called
      repeat' split at called
      all_goals cases called
      all_goals exact .same rfl
  | h5fclose h5fd =>
      rcases Sys.h5fclose_eq_some called with ⟨_, rfl⟩ | ⟨handle, _, rfl⟩
      · exact .same rfl
      · refine .same ?_
        simp only [Sys.released]
        split <;> rfl
  | h5dwrite h5fd name data =>
      rcases Sys.h5dwrite_eq_some called with
        ⟨_, rfl⟩ | ⟨_, handle, image, _, _, _, rfl⟩
      · exact .same rfl
      · exact .same rfl
  | statfs path =>
      rw [kernel_statfs called]
      exact .same rfl
  | _ =>
      cases choice
      all_goals
        cases called
        exact .same rfl

/-- Every call is one of these. -/
theorem entryStep_of_kernel
    (called : kernel platform sys choice op = some (reply, later)) :
    EntryStep sys.fs later.fs := by
  have named := namedStep_of_kernel called
  exact named.entryStep

end Kernel

/-! ## One name for each file -/

/-- No file has two names. -/
def OneName (fs : FileSystem) : Prop :=
  ∀ p q ino, fs.entry p = some ino → fs.entry q = some ino → p = q

/-- No call gives a file a second name. -/
theorem OneName.step
    {fs fs' : FileSystem} (oneName : OneName fs) (names : EntryStep fs fs') :
    OneName fs' := by
  intro p q ino first second
  cases names with
  | same entry =>
      rw [entry] at first second
      exact oneName p q ino first second
  | link path entry =>
      rw [entry, Function.update_apply] at first second
      split at first <;> split at second
      · rename_i isPath isPath'
        rw [isPath, isPath']
      · cases first
        exact (FileSystem.entry_ne_fresh second rfl).elim
      · cases second
        exact (FileSystem.entry_ne_fresh first rfl).elim
      · exact oneName p q ino first second
  | remove path entry =>
      rw [entry, Function.update_apply] at first second
      split at first
      · cases first
      · split at second
        · cases second
        · exact oneName p q ino first second
  | move old new entry =>
      rw [entry, Function.update_apply, Function.update_apply] at first second
      split at first
      · rename_i isNew
        split at second
        · rename_i isNew'
          rw [isNew, isNew']
        · split at second
          · cases second
          · rename_i notOld
            exact (notOld (oneName q old ino second first)).elim
      · split at first
        · cases first
        · rename_i notOld
          split at second
          · exact (notOld (oneName p old ino first second)).elim
          · split at second
            · cases second
            · exact oneName p q ino first second

/-! ## Reachable file systems -/

/-- One call by some process. -/
structure Called where
  proc : Process
  choice : Choice
  op : Op

/-- The system after a call. -/
def callStep (platform : Platform) (sys : Sys) (called : Called) :
    Option Sys :=
  (kernel platform { sys with proc := called.proc } called.choice
      called.op).map
    fun answer => answer.2

/-- Some sequence of calls makes this file system of the empty one. -/
def Reachable (platform : Platform) (fs : FileSystem) : Prop :=
  ∃ calls sys,
    Transition.run (callStep platform) Sys.initial calls = some sys ∧
      sys.fs = fs

theorem oneName_of_callStep
    {platform : Platform} {sys later : Sys} {called : Called}
    (oneName : OneName sys.fs)
    (stepped : callStep platform sys called = some later) :
    OneName later.fs := by
  rcases Option.map_eq_some_iff.mp stepped with ⟨⟨reply, middle⟩, answered, rfl⟩
  have names := entryStep_of_kernel answered
  exact oneName.step names

/-- In a reachable file system no file has two names. -/
theorem oneName_of_reachable
    {platform : Platform} {fs : FileSystem}
    (reachable : Reachable platform fs) :
    OneName fs := by
  rcases reachable with ⟨calls, sys, ran, rfl⟩
  refine
    Transition.run_invariant (fun sys => OneName sys.fs)
      (fun _ _ _ => oneName_of_callStep) ?_ ran
  intro p q ino first
  cases first

/-- The empty file system is reachable. -/
theorem reachable_initial (platform : Platform) :
    Reachable platform Sys.initial.fs :=
  ⟨[], Sys.initial, rfl, rfl⟩

/-- A single file with any content is reachable. -/
theorem exists_reachable_file
    (platform : Platform) (path : CString) (content : Bytes) :
    ∃ fs, Reachable platform fs ∧ fs.lookup path = some (.file content) ∧
      ∀ other, other ≠ path → fs.entry other = none := by
  let created := Sys.initial.fs.link path (.file [])
  let opened := Process.empty.setFd 3 (some ⟨0, 0, O_WRONLY⟩)
  refine
    ⟨created.put 0 (.file content),
      ⟨[⟨Process.empty, .ok 3, .openFile path O_CREAT⟩,
          ⟨opened, .ok content.length, .write 3 content⟩],
        ?_⟩, ?_, ?_⟩
  · have contentWritten :
        overwrite 0 ((created.node 0).bytes platform) 0 content =
          content := by
      simp [created, Sys.initial, Node.bytes, overwrite]
    refine
      ⟨⟨created.put 0 (.file content), .empty,
          opened.setFd 3 (some ⟨0, content.length, O_WRONLY⟩)⟩, ?_, rfl⟩
    refine
      Transition.run_cons_eq_some.mpr
        ⟨⟨created, .empty, Process.empty.setFd 3 (some ⟨0, 0, O_CREAT⟩)⟩,
          rfl, Transition.run_cons_eq_some.mpr ⟨_, ?_, rfl⟩⟩
    simp only [callStep, kernel, Sys.write, opened, Process.setFd,
      Function.update_self, OpenFile.writable, accessMode, O_WRONLY,
      Sys.landing, hasAppend, Sys.writeAt]
    exact congrArg some (by simp [contentWritten, Nat.testBit])
  · simp [FileSystem.lookup, created, Sys.initial]
  · intro other different
    simp [created, Sys.initial, different]

/-! ## Frames -/

/-- The call can change what a name refers to only if it is one of these. -/
def Touches (names : CString → Prop) : Op → Prop
  | .stat _ => True
  | .openFile path flags =>
      names path ∨ (hasCreat flags = false ∧ hasTrunc flags = false)
  | .truncate path length => names path ∨ length < 0
  | .unlink path => names path
  | .mkdir path => names path
  | .h5fopen _ => True
  | .sqlite3_exec _ => True
  | .malloc => True
  | .add_dzfd _ _ => True
  | _ => False

/-- What a call that touches some names does to the file system. -/
inductive Reaches (names : CString → Prop) (fs : FileSystem) :
    FileSystem → Prop where
  | same : Reaches names fs fs
  | link (path : CString) (node : Node) (named : names path) :
      Reaches names fs (fs.link path node)
  | put
      (path : CString) (ino : Ino) (node : Node) (named : names path)
      (found : fs.entry path = some ino) :
      Reaches names fs (fs.put ino node)
  | remove (path : CString) (named : names path) :
      Reaches names fs (fs.remove path)

/-- The other names refer to what they did. -/
theorem Reaches.lookup
    {names : CString → Prop} {fs fs' : FileSystem}
    (reaches : Reaches names fs fs') (oneName : OneName fs)
    {name : CString} (other : ¬ names name) :
    fs'.lookup name = fs.lookup name := by
  have differs : ∀ path, names path → name ≠ path := by
    rintro path named rfl
    exact other named
  cases reaches with
  | same => rfl
  | link path node named =>
      simp only [FileSystem.lookup, FileSystem.entry_link,
        FileSystem.node_link, Function.update_of_ne (differs path named)]
      cases found : fs.entry name with
      | none => rfl
      | some ino =>
          simp [Function.update_of_ne (FileSystem.entry_ne_fresh found)]
  | put path ino node named found =>
      simp only [FileSystem.lookup, FileSystem.entry_put,
        FileSystem.node_put]
      cases mine : fs.entry name with
      | none => rfl
      | some mineIno =>
          have different : mineIno ≠ ino := by
            rintro rfl
            exact differs path named (oneName name path mineIno mine found)
          simp [Function.update_of_ne different]
  | remove path named =>
      simp [FileSystem.lookup, Function.update_of_ne (differs path named)]

/-- A call reaches the names it touches only. -/
theorem reaches_of_kernel
    {platform : Platform} {names : CString → Prop} {sys later : Sys}
    {choice : Choice} {op : Op} {reply : Reply op}
    (touches : Touches names op)
    (called : kernel platform sys choice op = some (reply, later)) :
    Reaches names sys.fs later.fs := by
  cases op with
  | stat path =>
      rw [(Sys.stat_eq_some called).1]
      exact .same
  | openFile path flags =>
      cases reply with
      | error errno =>
          rw [Sys.openFile_eq_error called]
          exact .same
      | ok fd =>
          rcases Sys.openFile_eq_some called with
            ⟨number, ino, fs, _, _, rfl, created | ⟨found, kept⟩⟩
          · rcases created with ⟨_, creates, _, rfl⟩
            rcases touches with named | ⟨noCreat, _⟩
            · exact .link path _ named
            · rw [noCreat] at creates
              cases creates
          · rcases kept with rfl | ⟨truncates, rfl⟩
            · exact .same
            · rcases touches with named | ⟨_, noTrunc⟩
              · exact .put path ino _ named found
              · rw [noTrunc] at truncates
                cases truncates
  | truncate path length =>
      simp only [kernel, Sys.truncate, Sys.refuse] at called
      split at called
      · cases called
        exact .same
      · cases called
        exact .same
      · rename_i ino found
        split at called
        · cases called
          exact .same
        · rename_i nonneg
          split at called
          · cases called
            exact .same
          · cases called
            rcases touches with named | negative
            · exact .put path ino _ named found
            · exact (nonneg negative).elim
  | unlink path =>
      simp only [kernel, Sys.unlink, Sys.refuse] at called
      repeat' split at called
      all_goals cases called
      all_goals first
        | exact .same
        | exact .remove path touches
  | mkdir path =>
      simp only [kernel, Sys.mkdir, Sys.refuse] at called
      repeat' split at called
      all_goals cases called
      all_goals first
        | exact .same
        | exact .link path _ touches
  | h5fopen path =>
      simp only [kernel, Sys.h5fopen, Sys.installHandle] at called
      repeat' split at called
      all_goals cases called
      all_goals exact .same
  | sqlite3_exec stmt =>
      cases choice
      all_goals
        cases called
        exact .same
  | malloc =>
      cases choice
      all_goals
        cases called
        exact .same
  | add_dzfd fd dzfd =>
      cases called
      exact .same
  | _ => exact touches.elim

/-- A program that touches some names leaves the others alone. -/
theorem lookup_of_run
    {platform : Platform} {names : CString → Prop} {program : Call Int}
    (touches : program.AllCalls (Touches names))
    {sys later : Sys} {choices : List Choice} {ret : Int}
    (oneName : OneName sys.fs)
    (ran :
      program.run (kernel platform) sys choices = some (ret, later))
    {name : CString} (other : ¬ names name) :
    later.fs.lookup name = sys.fs.lookup name := by
  have framed :
      OneName later.fs ∧ later.fs.lookup name = sys.fs.lookup name := by
    refine
      Prog.AllCalls.run_invariant
        (fun middle =>
          OneName middle.fs ∧ middle.fs.lookup name = sys.fs.lookup name)
        ?_ touches ⟨oneName, rfl⟩ ran
    intro middle choice op reply next touched before answered
    have reaches := reaches_of_kernel touched answered
    exact
      ⟨before.1.step (entryStep_of_kernel answered),
        (reaches.lookup before.1 other).trans before.2⟩
  exact framed.2

end DZFile.Reaching
