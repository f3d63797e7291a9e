import DZFile.Converter
import DZFile.Opening
import DZFile.Reaching
import DZFile.Library.WholeRuns

/-!
# Processes confined to some names

A process that starts with no descriptor and no handle, and whose calls
create, truncate, rename, remove and open for writing only certain names,
leaves every other name as it is.  What it writes it writes through what it
has opened, so the invariant says that no other name refers to a file the
process can write.
-/

namespace DZFile.Confinement

open DZFile.ByteSeq
open DZFile.Interaction
open DZFile.Names
open DZFile.Codec
open DZFile.Image
open DZFile.Kernel
open DZFile.Reaching

/-- Whatever the call changes by name has one of the names. -/
def Confines (names : CString → Prop) : Op → Prop
  | .openFile path flags =>
      names path ∨
        (accessMode flags = O_RDONLY ∧ hasCreat flags = false ∧
          hasTrunc flags = false)
  | .truncate path _ => names path
  | .rename old new => names old ∧ names new
  | .unlink path => names path
  | .mkdir path => names path
  | .h5fcreate path => names path
  | _ => True

/--
The files a process can write: those under the names, and those it has opened
for writing.
-/
inductive Reaches (names : CString → Prop) (sys : Sys) (ino : Ino) : Prop where
  | name (path : CString) (named : names path)
      (found : sys.fs.entry path = some ino)
  | file (fd : Int) (file : OpenFile) (held : sys.proc.fds fd = some file)
      (writable : file.writable = true) (same : file.ino = ino)
  | handle (h5fd : Int) (handle : H5Handle)
      (held : sys.proc.handles h5fd = some handle)
      (writing : handle.writing = true) (same : handle.ino = ino)

/-- No other name refers to the file. -/
def Own (names : CString → Prop) (fs : FileSystem) (ino : Ino) : Prop :=
  ∀ name, ¬ names name → fs.entry name ≠ some ino

/-- The other names are as they were, and the process cannot write to them. -/
structure Confined
    (names : CString → Prop) (start : FileSystem) (sys : Sys) : Prop where
  oneName : OneName sys.fs
  kept : ∀ name, ¬ names name → sys.fs.lookup name = start.lookup name
  own : ∀ ino, Reaches names sys ino → Own names sys.fs ino

/-- A file under one of the names is under no other. -/
theorem own_of_named
    {names : CString → Prop} {fs : FileSystem} (oneName : OneName fs)
    {path : CString} {ino : Ino} (named : names path)
    (found : fs.entry path = some ino) :
    Own names fs ino := by
  intro name other same
  rw [oneName name path ino same found] at other
  exact other named

theorem confined_initial
    {names : CString → Prop} {fs : FileSystem} (oneName : OneName fs)
    (db : Metadata.Db) :
    Confined names fs ⟨fs, db, .empty⟩ where
  oneName := oneName
  kept _ _ := rfl
  own ino reaches := by
    cases reaches with
    | name path named found => exact own_of_named oneName named found
    | file fd file held => cases held
    | handle h5fd handle held => cases held

/-! ## What a call changes -/

/-- What a confined call does to the files. -/
inductive Changes (names : CString → Prop) (sys : Sys) :
    FileSystem → Prop where
  | same : Changes names sys sys.fs
  | link (path : CString) (node : Node) (named : names path) :
      Changes names sys (sys.fs.link path node)
  | put (ino : Ino) (node : Node) (reached : Reaches names sys ino) :
      Changes names sys (sys.fs.put ino node)
  | remove (path : CString) (named : names path) :
      Changes names sys (sys.fs.remove path)
  | move (old new : CString) (fromNamed : names old) (toNamed : names new) :
      Changes names sys (sys.fs.move old new)

section Files

variable {names : CString → Prop} {sys : Sys} {fs' : FileSystem}

theorem Changes.entry
    (changes : Changes names sys fs') {name : CString}
    (other : ¬ names name) :
    fs'.entry name = sys.fs.entry name := by
  have differs : ∀ path, names path → name ≠ path := by
    rintro path named rfl
    exact other named
  cases changes with
  | same => rfl
  | link path node named =>
      exact Function.update_of_ne (differs path named) _ _
  | put ino node reached => rfl
  | remove path named =>
      exact Function.update_of_ne (differs path named) _ _
  | move old new fromNamed toNamed =>
      rw [FileSystem.entry_move,
        Function.update_of_ne (differs new toNamed),
        Function.update_of_ne (differs old fromNamed)]

/-- A file the process cannot write stays as it is. -/
theorem Changes.node
    (changes : Changes names sys fs') {ino : Ino}
    (old : ino < sys.fs.fresh) (unreached : ¬ Reaches names sys ino) :
    fs'.node ino = sys.fs.node ino := by
  cases changes with
  | same => rfl
  | link path node named =>
      exact Function.update_of_ne (Nat.ne_of_lt old) _ _
  | put mine node reached =>
      have different : ino ≠ mine := by
        rintro rfl
        exact unreached reached
      exact Function.update_of_ne different _ _
  | remove path named => rfl
  | move old new fromNamed toNamed => rfl

theorem Changes.fresh (changes : Changes names sys fs') :
    sys.fs.fresh ≤ fs'.fresh := by
  cases changes with
  | link path node named => exact Nat.le_succ _
  | _ => exact Nat.le_refl _

/-- What one of the names refers to afterwards. -/
theorem Changes.named
    (changes : Changes names sys fs') {path : CString} {ino : Ino}
    (named : names path) (found : fs'.entry path = some ino) :
    Reaches names sys ino ∨ ino = sys.fs.fresh := by
  cases changes with
  | same => exact Or.inl (.name path named found)
  | link created node =>
      rw [FileSystem.entry_link, Function.update_apply] at found
      split at found
      · exact Or.inr (Option.some.inj found).symm
      · exact Or.inl (.name path named found)
  | put mine node reached => exact Or.inl (.name path named found)
  | remove removed =>
      rw [FileSystem.entry_remove, Function.update_apply] at found
      split at found
      · cases found
      · exact Or.inl (.name path named found)
  | move old new fromNamed toNamed =>
      rw [FileSystem.entry_move, Function.update_apply,
        Function.update_apply] at found
      split at found
      · exact Or.inl (.name old fromNamed found)
      · split at found
        · cases found
        · exact Or.inl (.name path named found)

end Files

/-! ## What a call opens -/

section Kernel

variable
    {platform : Platform} {names : CString → Prop} {start : FileSystem}
    {sys later : Sys} {choice : Choice}

/-- What the process can write through, it could write, or it is new. -/
structure Opens (names : CString → Prop) (sys later : Sys) : Prop where
  files :
    ∀ fd file, later.proc.fds fd = some file → file.writable = true →
      Reaches names sys file.ino ∨ file.ino = sys.fs.fresh
  handles :
    ∀ h5fd handle, later.proc.handles h5fd = some handle →
      handle.writing = true →
        Reaches names sys handle.ino ∨ handle.ino = sys.fs.fresh

/-- No new descriptor, and no new handle. -/
theorem opens_of_same
    (fds : later.proc.fds = sys.proc.fds)
    (handles : later.proc.handles = sys.proc.handles) :
    Opens names sys later where
  files fd file held writable := by
    rw [fds] at held
    exact Or.inl (.file fd file held writable rfl)
  handles h5fd handle held writing := by
    rw [handles] at held
    exact Or.inl (.handle h5fd handle held writing rfl)

/-- A descriptor that has moved. -/
theorem opens_of_moved
    {fd : Int} {file : OpenFile} {offset : Nat}
    (held : sys.proc.fds fd = some file)
    (proc :
      later.proc =
        sys.proc.setFd fd (some { file with offset := offset })) :
    Opens names sys later where
  files other found isOpen writable := by
    rw [proc] at isOpen
    by_cases same : other = fd
    · subst same
      simp only [Process.setFd, Function.update_self, Option.some.injEq]
        at isOpen
      subst isOpen
      exact Or.inl (.file other file held writable rfl)
    · simp only [Process.setFd, Function.update_of_ne same] at isOpen
      exact Or.inl (.file other found isOpen writable rfl)
  handles h5fd handle isOpen writing := by
    rw [proc] at isOpen
    exact Or.inl (.handle h5fd handle isOpen writing rfl)

/-- A descriptor that has gone. -/
theorem opens_of_closed (fd : Int) :
    Opens names sys { sys with proc := sys.proc.setFd fd none } where
  files other found isOpen writable := by
    by_cases same : other = fd
    · subst same
      simp [Process.setFd] at isOpen
    · simp only [Process.setFd, Function.update_of_ne same] at isOpen
      exact Or.inl (.file other found isOpen writable rfl)
  handles h5fd handle held writing :=
    Or.inl (.handle h5fd handle held writing rfl)

/-- A new descriptor. -/
theorem opens_of_opened
    {number : Int} {file : OpenFile} {fs : FileSystem}
    (reached :
      file.writable = true →
        Reaches names sys file.ino ∨ file.ino = sys.fs.fresh) :
    Opens names sys
      { sys with fs := fs, proc := sys.proc.setFd number (some file) } where
  files other found isOpen writable := by
    by_cases same : other = number
    · subst same
      simp only [Process.setFd, Function.update_self, Option.some.injEq]
        at isOpen
      subst isOpen
      exact reached writable
    · simp only [Process.setFd, Function.update_of_ne same] at isOpen
      exact Or.inl (.file other found isOpen writable rfl)
  handles h5fd handle held writing :=
    Or.inl (.handle h5fd handle held writing rfl)

/-- A handle that is new or has gone. -/
theorem opens_of_handle
    {h5fd : Int} {handle : Option H5Handle} {fs : FileSystem}
    (reached :
      ∀ entered, handle = some entered → entered.writing = true →
        Reaches names sys entered.ino ∨ entered.ino = sys.fs.fresh) :
    Opens names sys
      { sys with
        fs := fs
        proc := sys.proc.setHandle h5fd handle } where
  files fd file held writable := Or.inl (.file fd file held writable rfl)
  handles other found isOpen writing := by
    by_cases same : other = h5fd
    · subst same
      simp only [Process.setHandle, Function.update_self] at isOpen
      exact reached found isOpen writing
    · simp only [Process.setHandle, Function.update_of_ne same] at isOpen
      exact Or.inl (.handle other found isOpen writing rfl)

/-- What the process can write after a call, it could write, or it is new. -/
theorem reaches_after
    (changes : Changes names sys later.fs) (opens : Opens names sys later)
    {ino : Ino} (reaches : Reaches names later ino) :
    Reaches names sys ino ∨ ino = sys.fs.fresh := by
  cases reaches with
  | name path named found => exact changes.named named found
  | file fd file held writable same =>
      rw [← same]
      exact opens.files fd file held writable
  | handle h5fd handle held writing same =>
      rw [← same]
      exact opens.handles h5fd handle held writing

/-- The condition after a call that changes and opens its own files only. -/
theorem Confined.after
    (confined : Confined names start sys) (oneName : OneName later.fs)
    (changes : Changes names sys later.fs)
    (opens : Opens names sys later) :
    Confined names start later where
  oneName := oneName
  kept name other := by
    rw [← confined.kept name other, FileSystem.lookup, FileSystem.lookup,
      changes.entry other]
    cases found : sys.fs.entry name with
    | none => rfl
    | some ino =>
        rw [Option.map_some, Option.map_some,
          changes.node (sys.fs.entry_lt name ino found)
            (fun reaches => confined.own ino reaches name other found)]
  own ino reaches name other found := by
    rw [changes.entry other] at found
    rcases reaches_after changes opens reaches with before | rfl
    · exact confined.own ino before name other found
    · exact FileSystem.entry_ne_fresh found rfl

/-! ## Each kind of call -/

theorem effect_openFile
    {path : CString} {flags : Nat}
    {opened : Except Errno Int}
    (confines : Confines names (.openFile path flags))
    (called : sys.openFile choice path flags = some (opened, later)) :
    Changes names sys later.fs ∧ Opens names sys later := by
  cases opened with
  | error errno =>
      rw [Sys.openFile_eq_error called]
      exact ⟨.same, opens_of_same rfl rfl⟩
  | ok fd =>
      rcases confines with named | ⟨mode, noCreat, noTrunc⟩
      · rcases Sys.openFile_eq_some called with
          ⟨number, ino, fs, _, _, rfl,
            ⟨_, _, rfl, rfl⟩ | ⟨found, rfl | ⟨_, rfl⟩⟩⟩
        · exact ⟨.link path _ named, opens_of_opened fun _ => Or.inr rfl⟩
        · exact
            ⟨.same,
              opens_of_opened fun _ => Or.inl (.name path named found)⟩
        · exact
            ⟨.put ino _ (.name path named found),
              opens_of_opened fun _ => Or.inl (.name path named found)⟩
      · rcases Sys.openFile_eq_ok noCreat noTrunc called with
          ⟨number, ino, _, _, _, rfl⟩
        refine ⟨.same, opens_of_opened ?_⟩
        intro writable
        simp [OpenFile.writable, mode, O_RDONLY, O_WRONLY, O_RDWR]
          at writable

/-- A write goes to a file that can be written. -/
theorem writable_of_write
    {fd : Int} {data : Bytes} {written : Nat}
    (called :
      sys.write platform choice fd data = some (.ok written, later)) :
    ∃ file, sys.proc.fds fd = some file ∧ file.writable = true := by
  unfold Sys.write at called
  split at called
  · cases called
  · cases called
  · rename_i limit file held
    split at called
    · cases called
    · rename_i allowed
      exact ⟨file, held, by simpa using allowed⟩

theorem writable_of_pwrite
    {fd offset : Int} {data : Bytes} {written : Nat}
    (called :
      sys.pwrite platform choice fd data offset = some (.ok written, later)) :
    ∃ file, sys.proc.fds fd = some file ∧ file.writable = true := by
  unfold Sys.pwrite at called
  split at called
  · cases called
  · cases called
  · rename_i limit file held
    split at called
    · cases called
    · rename_i allowed
      exact ⟨file, held, by simpa using allowed⟩

theorem effect_write
    {fd : Int} {data : Bytes}
    {result : Except Errno Nat}
    (called : sys.write platform choice fd data = some (result, later)) :
    Changes names sys later.fs ∧ Opens names sys later := by
  rcases Sys.write_eq_some called with
    ⟨errno, _, rfl⟩ | ⟨limit, file, held, rfl, fs, proc⟩
  · exact ⟨.same, opens_of_same rfl rfl⟩
  · rcases writable_of_write called with ⟨file', held', writable⟩
    rw [held] at held'
    cases held'
    rw [fs]
    exact
      ⟨.put file.ino _ (.file fd file held writable rfl),
        opens_of_moved held proc⟩

theorem effect_pwrite
    {fd offset : Int} {data : Bytes}
    {result : Except Errno Nat}
    (called :
      sys.pwrite platform choice fd data offset = some (result, later)) :
    Changes names sys later.fs ∧ Opens names sys later := by
  rcases Sys.pwrite_eq_some called with
    ⟨errno, _, rfl⟩ | ⟨limit, file, _, held, rfl, fs, proc⟩
  · exact ⟨.same, opens_of_same rfl rfl⟩
  · rcases writable_of_pwrite called with ⟨file', held', writable⟩
    rw [held] at held'
    cases held'
    rw [fs]
    exact
      ⟨.put file.ino _ (.file fd file held writable rfl),
        opens_of_same (by rw [proc]) (by rw [proc])⟩

theorem effect_truncate
    {path : CString} {length : Int}
    {result : Except Errno Unit} (named : names path)
    (called : sys.truncate platform choice path length = some (result, later)) :
    Changes names sys later.fs ∧ Opens names sys later := by
  simp only [Sys.truncate, Sys.refuse] at called
  repeat' split at called
  all_goals cases called
  all_goals try exact ⟨.same, opens_of_same rfl rfl⟩
  rename_i ino found _ _ _
  exact ⟨.put ino _ (.name path named found), opens_of_same rfl rfl⟩

theorem effect_ftruncate
    {fd length : Int}
    {result : Except Errno Unit}
    (called : sys.ftruncate platform choice fd length = some (result, later)) :
    Changes names sys later.fs ∧ Opens names sys later := by
  simp only [Sys.ftruncate, Sys.refuse] at called
  repeat' split at called
  all_goals cases called
  all_goals try exact ⟨.same, opens_of_same rfl rfl⟩
  rename_i file held allowed
  rw [not_or] at allowed
  have writable : file.writable = true := by simpa using allowed.2
  exact
    ⟨.put file.ino _ (.file fd file held writable rfl), opens_of_same rfl rfl⟩

theorem effect_h5fcreate
    {path : CString}
    {h5fd : Option Int} (named : names path)
    (called : sys.h5fcreate choice path = some (h5fd, later)) :
    Changes names sys later.fs ∧ Opens names sys later := by
  rcases Converter.h5fcreate_eq_some called with
    ⟨_, rfl⟩ | ⟨number, ino, fs, _, _, _, _, created, rfl⟩
  · exact ⟨.same, opens_of_same rfl rfl⟩
  · cases created with
    | fresh absent =>
        refine ⟨.link path _ named, opens_of_handle ?_⟩
        rintro entered ⟨⟩ _
        exact Or.inr rfl
    | emptied _ found unlocked =>
        refine ⟨.put ino _ (.name path named found), opens_of_handle ?_⟩
        rintro entered ⟨⟩ _
        exact Or.inl (.name path named found)

theorem effect_h5fopen
    {path : CString} {h5fd : Option Int}
    (called : sys.h5fopen choice path = some (h5fd, later)) :
    Changes names sys later.fs ∧ Opens names sys later := by
  rcases Opening.h5fopen_eq_some called with
    ⟨_, rfl⟩ | ⟨number, ino, image, _, _, _, _, _, rfl⟩
  · exact ⟨.same, opens_of_same rfl rfl⟩
  · refine ⟨.same, opens_of_handle ?_⟩
    rintro entered ⟨⟩ writing
    cases writing

/-- Only a writing handle changes its file when it is closed. -/
theorem changes_released
    {h5fd : Int} {handle : H5Handle}
    (held : sys.proc.handles h5fd = some handle) (success : Bool) :
    Changes names sys (sys.released handle success) := by
  unfold Sys.released
  split
  · rename_i image writing node
    exact .put handle.ino _ (.handle h5fd handle held writing rfl)
  · exact .same

theorem effect_h5fclose
    {h5fd : Int} {success : Bool}
    (called : sys.h5fclose choice h5fd = some (success, later)) :
    Changes names sys later.fs ∧ Opens names sys later := by
  rcases Sys.h5fclose_eq_some called with ⟨_, rfl⟩ | ⟨handle, held, rfl⟩
  · exact ⟨.same, opens_of_same rfl rfl⟩
  · refine ⟨changes_released held _, opens_of_handle ?_⟩
    rintro entered ⟨⟩

/-- A dataset is written through a writing handle. -/
theorem writing_of_h5dwrite
    {h5fd : Int} {name : Dataset} {data : Bytes}
    (called : sys.h5dwrite choice h5fd name data = some (true, later)) :
    ∃ handle, sys.proc.handles h5fd = some handle ∧ handle.writing = true := by
  unfold Sys.h5dwrite at called
  split at called
  · rename_i handle image held stored
    split at called
    · cases called
    · rename_i allowed
      rw [not_or] at allowed
      exact ⟨handle, held, by simpa using allowed.1⟩
  · cases called

theorem effect_h5dwrite
    {h5fd : Int} {name : Dataset} {data : Bytes} {written : Bool}
    (called : sys.h5dwrite choice h5fd name data = some (written, later)) :
    Changes names sys later.fs ∧ Opens names sys later := by
  rcases Sys.h5dwrite_eq_some called with
    ⟨_, rfl⟩ | ⟨rfl, handle, image, held, _, _, rfl⟩
  · exact ⟨.same, opens_of_same rfl rfl⟩
  · rcases writing_of_h5dwrite called with ⟨handle', held', writing⟩
    rw [held] at held'
    cases held'
    exact
      ⟨.put handle.ino _ (.handle h5fd handle held writing rfl),
        opens_of_same rfl rfl⟩

/-- A call that leaves files, descriptors and handles alone. -/
theorem effect_of_same
    (fs : later.fs = sys.fs) (fds : later.proc.fds = sys.proc.fds)
    (handles : later.proc.handles = sys.proc.handles) :
    Changes names sys later.fs ∧ Opens names sys later := by
  rw [fs]
  exact ⟨.same, opens_of_same fds handles⟩

theorem effect_read
    {fd : Int} {count : Nat} {result : Except Errno Bytes}
    (called : sys.read platform choice fd count = some (result, later)) :
    Changes names sys later.fs ∧ Opens names sys later := by
  cases choice with
  | fail errno =>
      cases called
      exact effect_of_same rfl rfl rfl
  | ok limit =>
      cases held : sys.proc.fds fd with
      | none =>
          simp only [Sys.read, held, Sys.refuse] at called
          cases called
          exact effect_of_same rfl rfl rfl
      | some file =>
          simp only [Sys.read, held, Sys.refuse] at called
          repeat' split at called
          all_goals first
            | (cases called; exact effect_of_same rfl rfl rfl)
            | (rcases Option.map_eq_some_iff.mp called with ⟨_, _, answer⟩
               cases answer
               exact ⟨.same, opens_of_moved held rfl⟩)

theorem effect_lseek
    {fd offset : Int} {whence : Whence} {result : Except Errno Nat}
    (called :
      sys.lseek platform choice fd offset whence = some (result, later)) :
    Changes names sys later.fs ∧ Opens names sys later := by
  cases choice with
  | fail errno =>
      cases called
      exact effect_of_same rfl rfl rfl
  | ok number =>
      cases held : sys.proc.fds fd with
      | none =>
          simp only [Sys.lseek, held, Sys.refuse] at called
          cases called
          exact effect_of_same rfl rfl rfl
      | some file =>
          simp only [Sys.lseek, held, Sys.refuse] at called
          repeat' split at called
          all_goals cases called
          all_goals first
            | exact effect_of_same rfl rfl rfl
            | exact ⟨.same, opens_of_moved held rfl⟩

/-- Every confined call changes and opens what the process reaches. -/
theorem effect_of_kernel
    {op : Op} {reply : Reply op}
    (confines : Confines names op)
    (called : kernel platform sys choice op = some (reply, later)) :
    Changes names sys later.fs ∧ Opens names sys later := by
  cases op with
  | stat path =>
      rw [(Sys.stat_eq_some called).1]
      exact effect_of_same rfl rfl rfl
  | openFile path flags => exact effect_openFile confines called
  | close fd =>
      rw [Sys.close_eq_some called]
      exact ⟨.same, opens_of_closed fd⟩
  | read fd count => exact effect_read called
  | pread fd count offset =>
      simp only [kernel, Sys.pread, Sys.refuse] at called
      repeat' split at called
      all_goals first
        | (cases called; exact effect_of_same rfl rfl rfl)
        | (rcases Option.map_eq_some_iff.mp called with ⟨_, _, answer⟩
           cases answer
           exact effect_of_same rfl rfl rfl)
  | write fd data => exact effect_write called
  | pwrite fd data offset => exact effect_pwrite called
  | lseek fd offset whence => exact effect_lseek called
  | truncate path length => exact effect_truncate confines called
  | ftruncate fd length => exact effect_ftruncate called
  | rename old new =>
      simp only [kernel, Sys.rename, Sys.refuse] at called
      repeat' split at called
      all_goals cases called
      all_goals first
        | exact effect_of_same rfl rfl rfl
        | exact
            ⟨.move old new confines.1 confines.2, opens_of_same rfl rfl⟩
  | unlink path =>
      rcases Sys.unlink_eq_some called with
        ⟨errno, _, rfl⟩ | ⟨_, _, _, _, rfl⟩
      · exact effect_of_same rfl rfl rfl
      · exact ⟨.remove path confines, opens_of_same rfl rfl⟩
  | mkdir path =>
      simp only [kernel, Sys.mkdir, Sys.refuse] at called
      repeat' split at called
      all_goals cases called
      all_goals first
        | exact effect_of_same rfl rfl rfl
        | exact ⟨.link path _ confines, opens_of_same rfl rfl⟩
  | getlk fd first length =>
      cases choice
      all_goals
        cases called
        exact effect_of_same rfl rfl rfl
  | h5fcreate path => exact effect_h5fcreate confines called
  | h5fopen path => exact effect_h5fopen called
  | h5fclose h5fd => exact effect_h5fclose called
  | h5dwrite h5fd name data => exact effect_h5dwrite called
  | statfs path =>
      rw [kernel_statfs called]
      exact effect_of_same rfl rfl rfl
  | _ =>
      cases choice
      all_goals
        cases called
        exact effect_of_same rfl rfl rfl

/-- The step lemma. -/
theorem Confined.step
    (confined : Confined names start sys) {op : Op} {reply : Reply op}
    (confines : Confines names op)
    (called : kernel platform sys choice op = some (reply, later)) :
    Confined names start later := by
  rcases effect_of_kernel confines called with ⟨changes, opens⟩
  have oneName := confined.oneName.step (entryStep_of_kernel called)
  exact confined.after oneName changes opens

end Kernel

/-! ## Programs -/

section Programs

variable {names : CString → Prop} {path : CString} {flags : Nat}

theorem confines_of_looks {op : Op} (quiet : Opening.looks op) :
    Confines names op := by
  cases op <;> first
    | exact quiet.elim
    | trivial

theorem confines_of_opens
    {op : Op}
    (reached :
      names path ∨
        (accessMode flags = O_RDONLY ∧ hasCreat flags = false ∧
          hasTrunc flags = false))
    (opening : Opening.opens path flags op) :
    Confines names op := by
  cases op <;> first
    | exact opening.elim
    | trivial
    | skip
  rcases opening with ⟨rfl, rfl⟩
  exact reached

/-- `dzfile_open` of one of the names, or for reading. -/
theorem confines_dzfile_open
    (reached :
      names path ∨
        (accessMode flags = O_RDONLY ∧ hasCreat flags = false ∧
          hasTrunc flags = false)) :
    (Api.dzfile_open path flags).AllCalls (Confines names) :=
  (Opening.opens_dzfile_open path flags).mono fun _ =>
    confines_of_opens reached

theorem confines_dzfile_close (fd : Int) :
    (Api.dzfile_close fd).AllCalls (Confines names) := by
  have closing : (Api.closeFd fd).AllCalls (Confines names) := by
    refine ⟨trivial, fun closed => ?_⟩
    cases closed <;> trivial
  refine ⟨trivial, fun found => ?_⟩
  cases found with
  | none => exact closing
  | some dzfd => exact ⟨trivial, fun _ => ⟨trivial, fun _ => closing⟩⟩

theorem confines_dzfile_write (fd : Int) (buf : Bytes) :
    (Api.dzfile_write fd buf).AllCalls (Confines names) :=
  ⟨trivial, fun result =>
    (Opening.looks_countWritten (Api.returnCount result)).mono
      fun _ => confines_of_looks⟩

end Programs

end DZFile.Confinement
