import DZFile.Cleanup
import DZFile.Library.Shares

/-!
# Threads of one process

The threads of a process share its descriptors and handles.  A thread that
names only numbers it has been given does what a process would do that had
these numbers alone: it gets the same answers, does the same to the files, and
leaves the numbers of the other threads as they are.

The calls are those of a conversion, which closes, reads and writes what it
has opened itself, if the locals it does not initialise stand for no number.
-/

namespace DZFile.Threads

open DZFile.ByteSeq
open DZFile.Interaction
open DZFile.Names
open DZFile.Codec
open DZFile.Image
open DZFile.Kernel
open DZFile.Converter
open DZFile.Cleanup
open DZFile.Shares

/-- A call of a conversion, on numbers of the share. -/
def Holds (mine : Process) : Op → Prop
  | .stat _ => True
  | .openFile _ _ => True
  | .close fd => mine.fds fd ≠ none
  | .read fd _ => mine.fds fd ≠ none
  | .truncate _ _ => True
  | .rename _ _ => True
  | .h5fcreate _ => True
  | .h5fclose h5fd => mine.handles h5fd ≠ none
  | .h5dwrite h5fd _ _ => mine.handles h5fd ≠ none
  | .compress _ _ => True
  | _ => False

/-- The numbers of a thread among those of its process. -/
structure ShareOf (mine proc : Process) : Prop where
  fds : Within mine.fds proc.fds
  handles : Within mine.handles proc.handles

/-- What a thread does to its numbers and to those of its process. -/
structure Takes (mine proc mine' proc' : Process) : Prop where
  fds : Sets mine.fds proc.fds mine'.fds proc'.fds
  handles : Sets mine.handles proc.handles mine'.handles proc'.handles

/-- The call can be made with the share alone, with the same answer. -/
def Restricts
    (platform : Platform) (mine : Process) (choice : Choice) (op : Op)
    (reply : Reply op) (sys later : Sys) : Prop :=
  ∃ mine',
    kernel platform ⟨sys.fs, sys.db, mine⟩ choice op =
        some (reply, ⟨later.fs, later.db, mine'⟩) ∧
      Takes mine sys.proc mine' later.proc

section Calls

variable
    {platform : Platform} {mine : Process} {sys later : Sys}
    {choice : Choice} {path : CString} {fd h5fd : Int}

/-- A call that leaves the tables alone. -/
theorem restricts_of_fs
    {op : Op} {reply : Reply op} {fs : FileSystem}
    (called :
      kernel platform ⟨sys.fs, sys.db, mine⟩ choice op =
        some (reply, ⟨fs, sys.db, mine⟩)) :
    Restricts platform mine choice op reply sys { sys with fs := fs } :=
  ⟨mine, called, .same, .same⟩

/-- A call that changes nothing. -/
theorem restricts_of_same
    {op : Op} {reply : Reply op}
    (called :
      kernel platform ⟨sys.fs, sys.db, mine⟩ choice op =
        some (reply, ⟨sys.fs, sys.db, mine⟩)) :
    Restricts platform mine choice op reply sys sys :=
  restricts_of_fs called

/-- A number of the share is that of the process. -/
theorem ShareOf.file
    (share : ShareOf mine sys.proc) (holds : mine.fds fd ≠ none) :
    ∃ file, mine.fds fd = some file ∧ sys.proc.fds fd = some file := by
  rcases Option.ne_none_iff_exists'.mp holds with ⟨file, held⟩
  exact ⟨file, held, share.fds fd file held⟩

theorem ShareOf.handle
    (share : ShareOf mine sys.proc) (holds : mine.handles h5fd ≠ none) :
    ∃ handle,
      mine.handles h5fd = some handle ∧
        sys.proc.handles h5fd = some handle := by
  rcases Option.ne_none_iff_exists'.mp holds with ⟨handle, held⟩
  exact ⟨handle, held, share.handles h5fd handle held⟩

/-- A descriptor that is the thread's, or free, is set. -/
theorem restricts_of_fd
    {op : Op} {reply : Reply op} {fs : FileSystem} {number : Int}
    {file : Option OpenFile}
    (own : mine.fds number ≠ none ∨ sys.proc.fds number = none)
    (called :
      kernel platform ⟨sys.fs, sys.db, mine⟩ choice op =
        some (reply, ⟨fs, sys.db, mine.setFd number file⟩)) :
    Restricts platform mine choice op reply sys
      { sys with fs := fs, proc := sys.proc.setFd number file } :=
  ⟨mine.setFd number file, called, .entry number file own, .same⟩

theorem restricts_of_handle
    {op : Op} {reply : Reply op} {fs : FileSystem} {number : Int}
    {handle : Option H5Handle}
    (own : mine.handles number ≠ none ∨ sys.proc.handles number = none)
    (called :
      kernel platform ⟨sys.fs, sys.db, mine⟩ choice op =
        some (reply, ⟨fs, sys.db, mine.setHandle number handle⟩)) :
    Restricts platform mine choice op reply sys
      { sys with fs := fs, proc := sys.proc.setHandle number handle } :=
  ⟨mine.setHandle number handle, called, .same, .entry number handle own⟩

theorem restricts_stat
    {found : Except Errno Stat}
    (called : sys.stat platform choice path = some (found, later)) :
    Restricts platform mine choice (.stat path) found sys later := by
  cases (Sys.stat_eq_some called).1
  apply restricts_of_same
  change Sys.stat platform ⟨sys.fs, sys.db, mine⟩ choice path = _
  unfold Sys.stat Sys.refuse at called ⊢
  split at called
  · split at called
    · cases called
    · rename_i notMissing
      cases called
      exact if_neg notMissing
  · split at called
    all_goals
      rename_i found
      cases called
      simp only [found]

theorem restricts_openFile
    (share : ShareOf mine sys.proc) {flags : Nat}
    {opened : Except Errno Int}
    (called : sys.openFile choice path flags = some (opened, later)) :
    Restricts platform mine choice (.openFile path flags) opened sys
      later := by
  rcases choice with number | errno
  · by_cases taken : sys.proc.fds number = none
    · have free := share.fds.free taken
      simp only [Sys.openFile, taken, ne_eq, not_true_eq_false, if_false]
        at called
      cases found : sys.fs.entry path with
      | none =>
          simp only [found] at called
          split at called
          · rename_i creates
            cases called
            apply restricts_of_fd (Or.inr taken)
            simp only [kernel, Sys.openFile, free, found, ne_eq,
              not_true_eq_false, if_false, creates, if_true, Sys.install]
          · rename_i notCreat
            cases called
            apply restricts_of_same
            simp only [kernel, Sys.openFile, free, found, ne_eq,
              not_true_eq_false, if_false, notCreat, Sys.refuse,
              Bool.false_eq_true]
      | some ino =>
          simp only [found] at called
          split at called
          · rename_i exclusive
            cases called
            apply restricts_of_same
            simp only [kernel, Sys.openFile, free, found, ne_eq,
              not_true_eq_false, if_false, exclusive, if_true, Sys.refuse]
          · rename_i notExclusive
            cases node : sys.fs.node ino with
            | directory =>
                simp only [node] at called
                split at called
                · rename_i readOnly
                  cases called
                  apply restricts_of_fd (Or.inr taken)
                  simp only [kernel, Sys.openFile, free, found, node, ne_eq,
                    not_true_eq_false, if_false, notExclusive,
                    Bool.false_eq_true]
                  exact if_pos readOnly
                · rename_i notReadOnly
                  cases called
                  apply restricts_of_same
                  simp only [kernel, Sys.openFile, free, found, node, ne_eq,
                    not_true_eq_false, if_false, notExclusive,
                    Bool.false_eq_true]
                  exact if_neg notReadOnly
            | file content =>
                simp only [node] at called
                cases called
                apply restricts_of_fd (Or.inr taken)
                simp only [kernel, Sys.openFile, free, found, node, ne_eq,
                  not_true_eq_false, if_false, notExclusive,
                  Bool.false_eq_true, Sys.install]
            | image stored =>
                simp only [node] at called
                cases called
                apply restricts_of_fd (Or.inr taken)
                simp only [kernel, Sys.openFile, free, found, node, ne_eq,
                  not_true_eq_false, if_false, notExclusive,
                  Bool.false_eq_true, Sys.install]
    · simp only [Sys.openFile, taken, ne_eq, not_false_eq_true, if_true]
        at called
      cases called
  · cases called
    exact restricts_of_same rfl

theorem restricts_close
    (share : ShareOf mine sys.proc) (holds : mine.fds fd ≠ none)
    {done : Except Errno Unit}
    (called : sys.close choice fd = some (done, later)) :
    Restricts platform mine choice (.close fd) done sys later := by
  rcases share.file holds with ⟨file, held, held'⟩
  simp only [Sys.close, held', Sys.refuse] at called
  cases choice
  all_goals
    cases called
    apply restricts_of_fd (Or.inl holds)
    simp only [kernel, Sys.close, held, Sys.refuse]

theorem restricts_read
    (share : ShareOf mine sys.proc) (holds : mine.fds fd ≠ none)
    {count : Nat} {result : Except Errno Bytes}
    (called : sys.read platform choice fd count = some (result, later)) :
    Restricts platform mine choice (.read fd count) result sys later := by
  rcases share.file holds with ⟨file, held, held'⟩
  rcases choice with limit | errno
  · simp only [Sys.read, held', Sys.refuse] at called
    split at called
    · rename_i unreadable
      cases called
      apply restricts_of_same
      simp only [kernel, Sys.read, held, Sys.refuse]
      exact if_pos unreadable
    · rename_i readable
      cases node : sys.fs.node file.ino with
      | directory =>
          simp only [node] at called
          cases called
          apply restricts_of_same
          simp only [kernel, Sys.read, held, node, Sys.refuse]
          exact if_neg readable
      | file content =>
          simp only [node] at called
          rcases Option.map_eq_some_iff.mp called with ⟨data, moved, answer⟩
          cases answer
          apply restricts_of_fd (Or.inl holds)
          simp only [kernel, Sys.read, held, node]
          rw [if_neg readable, moved]
          rfl
      | image stored =>
          simp only [node] at called
          rcases Option.map_eq_some_iff.mp called with ⟨data, moved, answer⟩
          cases answer
          apply restricts_of_fd (Or.inl holds)
          simp only [kernel, Sys.read, held, node]
          rw [if_neg readable, moved]
          rfl
  · cases called
    exact restricts_of_same rfl

theorem restricts_truncate
    {length : Int} {done : Except Errno Unit}
    (called :
      sys.truncate platform choice path length = some (done, later)) :
    Restricts platform mine choice (.truncate path length) done sys
      later := by
  rcases choice with number | errno
  · cases found : sys.fs.entry path with
    | none =>
        simp only [Sys.truncate, found, Sys.refuse] at called
        cases called
        apply restricts_of_same
        simp only [kernel, Sys.truncate, found, Sys.refuse]
    | some ino =>
        simp only [Sys.truncate, found, Sys.refuse] at called
        split at called
        · rename_i negative
          cases called
          apply restricts_of_same
          simp only [kernel, Sys.truncate, found, Sys.refuse]
          exact if_pos negative
        · rename_i nonnegative
          cases node : sys.fs.node ino with
          | directory =>
              simp only [node] at called
              cases called
              apply restricts_of_same
              simp only [kernel, Sys.truncate, found, node, Sys.refuse]
              exact if_neg nonnegative
          | _ =>
              simp only [node] at called
              cases called
              apply restricts_of_fs
              simp only [kernel, Sys.truncate, found, node]
              exact if_neg nonnegative
  · cases called
    exact restricts_of_same rfl

theorem restricts_rename
    {old new : CString} {done : Except Errno Unit}
    (called : sys.rename choice old new = some (done, later)) :
    Restricts platform mine choice (.rename old new) done sys later := by
  rcases choice with number | errno
  · cases found : sys.fs.entry old with
    | none =>
        simp only [Sys.rename, found, Sys.refuse] at called
        cases called
        apply restricts_of_same
        simp only [kernel, Sys.rename, found, Sys.refuse]
    | some ino =>
        simp only [Sys.rename, found] at called
        split at called
        · rename_i same
          cases called
          apply restricts_of_same
          simp only [kernel, Sys.rename, found]
          exact if_pos same
        · rename_i different
          cases called
          apply restricts_of_fs
          simp only [kernel, Sys.rename, found]
          exact if_neg different
  · cases called
    exact restricts_of_same rfl

theorem restricts_h5fcreate
    (share : ShareOf mine sys.proc) {created : Option Int}
    (called : sys.h5fcreate choice path = some (created, later)) :
    Restricts platform mine choice (.h5fcreate path) created sys later := by
  rcases choice with number | errno
  · by_cases zero : number = 0
    · simp only [Sys.h5fcreate, zero, true_or, if_true, reduceCtorEq]
        at called
    · by_cases taken : sys.proc.handles number = none
      · have free := share.handles.free taken
        simp only [Sys.h5fcreate, zero, taken, ne_eq, not_true_eq_false,
          or_self, if_false] at called
        cases found : sys.fs.entry path with
        | none =>
            simp only [found] at called
            cases called
            apply restricts_of_handle (Or.inr taken)
            simp only [kernel, Sys.h5fcreate, zero, free, found, ne_eq,
              not_true_eq_false, or_self, if_false, Sys.installHandle]
        | some ino =>
            simp only [found] at called
            cases node : sys.fs.node ino with
            | directory =>
                simp only [node] at called
                cases called
                apply restricts_of_same
                simp only [kernel, Sys.h5fcreate, zero, free, found, node,
                  ne_eq, not_true_eq_false, or_self, if_false]
            | file content =>
                simp only [node] at called
                cases called
                apply restricts_of_handle (Or.inr taken)
                simp only [kernel, Sys.h5fcreate, zero, free, found, node,
                  ne_eq, not_true_eq_false, or_self, if_false,
                  Sys.installHandle]
            | image stored =>
                simp only [node] at called
                split at called
                · rename_i locked
                  cases called
                  apply restricts_of_same
                  simp only [kernel, Sys.h5fcreate, zero, free, found, node,
                    ne_eq, not_true_eq_false, or_self, if_false]
                  exact if_pos locked
                · rename_i unlocked
                  cases called
                  apply restricts_of_handle (Or.inr taken)
                  simp only [kernel, Sys.h5fcreate, zero, free, found, node,
                    ne_eq, not_true_eq_false, or_self, if_false]
                  exact if_neg unlocked
      · simp only [Sys.h5fcreate, taken, ne_eq, not_false_eq_true, or_true,
          if_true] at called
        cases called
  · cases called
    exact restricts_of_same rfl

theorem restricts_h5fclose
    (share : ShareOf mine sys.proc) (holds : mine.handles h5fd ≠ none)
    {success : Bool}
    (called : sys.h5fclose choice h5fd = some (success, later)) :
    Restricts platform mine choice (.h5fclose h5fd) success sys later := by
  rcases share.handle holds with ⟨handle, held, held'⟩
  simp only [Sys.h5fclose, held'] at called
  cases called
  apply restricts_of_handle (Or.inl holds)
  simp only [kernel, Sys.h5fclose, held, Sys.released]

theorem restricts_h5dwrite
    (share : ShareOf mine sys.proc) (holds : mine.handles h5fd ≠ none)
    {name : Dataset} {data : Bytes} {written : Bool}
    (called : sys.h5dwrite choice h5fd name data = some (written, later)) :
    Restricts platform mine choice (.h5dwrite h5fd name data) written sys
      later := by
  rcases share.handle holds with ⟨handle, held, held'⟩
  have image :
      Sys.imageOf ⟨sys.fs, sys.db, mine⟩ h5fd = sys.imageOf h5fd := by
    rw [Sys.imageOf, Sys.imageOf, held, held']
  rcases choice with number | errno
  · cases stored : sys.imageOf h5fd with
    | none =>
        simp only [Sys.h5dwrite, held', stored] at called
        cases called
        apply restricts_of_same
        simp only [kernel, Sys.h5dwrite, held, image, stored]
    | some content =>
        simp only [Sys.h5dwrite, held', stored] at called
        split at called
        · rename_i refused
          cases called
          apply restricts_of_same
          simp only [kernel, Sys.h5dwrite, held, image, stored]
          exact if_pos refused
        · rename_i allowed
          cases called
          apply restricts_of_fs
          simp only [kernel, Sys.h5dwrite, held, image, stored]
          exact if_neg allowed
  · cases called
    exact restricts_of_same rfl

/-- Every call of a conversion on numbers of the share. -/
theorem restricts_of_kernel
    (share : ShareOf mine sys.proc) {op : Op} {reply : Reply op}
    (holds : Holds mine op)
    (called : kernel platform sys choice op = some (reply, later)) :
    Restricts platform mine choice op reply sys later := by
  cases op with
  | stat path => exact restricts_stat called
  | openFile path flags => exact restricts_openFile share called
  | close fd => exact restricts_close share holds called
  | read fd count => exact restricts_read share holds called
  | truncate path length => exact restricts_truncate called
  | rename old new => exact restricts_rename called
  | h5fcreate path => exact restricts_h5fcreate share called
  | h5fclose h5fd => exact restricts_h5fclose share holds called
  | h5dwrite h5fd name data => exact restricts_h5dwrite share holds called
  | compress method srcdata =>
      cases choice
      all_goals
        cases called
        exact restricts_of_same rfl
  | _ => exact holds.elim

end Calls

/-! ## Conversions -/

/-- The numbers the record is going to use are those of the thread. -/
def Owns (mine : Process) (c : Convert) : Prop :=
  match c.pc with
  | .statImage => c.srcfd ≤ 0 ∧ c.h5fd ≤ 0
  | .statTemp => c.srcfd ≤ 0 ∧ c.h5fd ≤ 0
  | .openSource => c.srcfd ≤ 0 ∧ c.h5fd ≤ 0
  | .createTemp => mine.fds c.srcfd ≠ none ∧ c.h5fd ≤ 0
  | .closeSource =>
      mine.fds c.srcfd ≠ none ∧
        (0 < c.h5fd → mine.handles c.h5fd ≠ none)
  | .closeImage => mine.handles c.h5fd ≠ none
  | .returned => True
  | _ => mine.fds c.srcfd ≠ none ∧ mine.handles c.h5fd ≠ none

section Conversions

variable
    {platform : Platform} {mine : Process} {sys sys' : Sys} {c c' : Convert}
    {choice : Choice}

theorem owns_of_working
    (inside : working c.pc = true) :
    Owns mine c ↔
      mine.fds c.srcfd ≠ none ∧ mine.handles c.h5fd ≠ none := by
  unfold Owns
  cases place : c.pc <;> first
    | exact Iff.rfl
    | (rw [place] at inside; cases inside)

theorem owns_outImage
    (image : 0 < c.h5fd → mine.handles c.h5fd ≠ none) :
    Owns mine c.outImage := by
  unfold Convert.outImage
  split
  · rename_i positive
    exact image positive
  · exact trivial

theorem owns_out
    (source : 0 < c.srcfd → mine.fds c.srcfd ≠ none)
    (image : 0 < c.h5fd → mine.handles c.h5fd ≠ none) (ret : Int) :
    Owns mine (c.out ret) := by
  unfold Convert.out
  split
  · rename_i positive
    exact ⟨source positive, image⟩
  · exact owns_outImage image

/-- A conversion whose uninitialised locals stand for no number. -/
theorem owns_initial
    (target : Target) (method : Alg) {srcfd h5fd : Int}
    (source : srcfd ≤ 0) (image : h5fd ≤ 0) :
    Owns mine (convert2h5 target method srcfd h5fd) :=
  ⟨source, image⟩

/-- A conversion calls on its own numbers. -/
theorem holds_of_owns
    (owns : Owns mine c) {op : Op} {next : Reply op → Convert}
    (action : c.action platform.libs = .call op next) :
    Holds mine op := by
  unfold Convert.action at action
  unfold Owns at owns
  cases place : c.pc with
  | writeHeader text =>
      rw [place] at action owns
      cases action
      exact owns.2
  | readBlock =>
      rw [place] at action owns
      cases action
      exact owns.1
  | writeBlock buffer dstdata =>
      rw [place] at action owns
      cases action
      exact owns.2
  | closeSource =>
      rw [place] at action owns
      cases action
      exact owns.1
  | closeImage =>
      rw [place] at action owns
      cases action
      exact owns
  | returned =>
      rw [place] at action
      cases action
  | _ =>
      rw [place] at action
      cases action
      trivial

/-- Between the two `open` calls and the way out. -/
theorem owns_of_goesOn
    (owns : Owns sys.proc c) (inside : working c.pc = true)
    (stepped : soloStep platform (sys, c) choice = some (sys', c')) :
    Owns sys'.proc c' := by
  rcases (owns_of_working inside).mp owns with ⟨source, image⟩
  rcases moves_of_step stepped with ⟨read, moves⟩
  rcases tables_of_moves moves inside with ⟨handles, fds⟩
  have source' : sys'.proc.fds c.srcfd ≠ none := by
    rcases fds with same | ⟨file, file', held, moved⟩
    · rw [same]
      exact source
    · rw [moved, Function.update_self]
      exact Option.some_ne_none file'
  have image' : sys'.proc.handles c.h5fd ≠ none := by
    rw [handles]
    exact image
  cases goesOn_of_step inside stepped with
  | on inside' srcfd h5fd =>
      rw [owns_of_working inside', srcfd, h5fd]
      exact ⟨source', image'⟩
  | off earlier ret leaves srcfd h5fd =>
      rw [leaves]
      rw [← srcfd] at source'
      rw [← h5fd] at image'
      exact owns_out (fun _ => source') (fun _ => image') ret

/-- A look that finds its name, or goes on. -/
theorem owns_of_check
    {name : CString} {after : Pc}
    (places :
      (c.pc = .statImage ∧ name = c.target.h5name ∧ after = .statTemp) ∨
        (c.pc = .statTemp ∧ name = c.target.temp ∧ after = .openSource))
    (none_yet : c.srcfd ≤ 0 ∧ c.h5fd ≤ 0)
    (stepped : soloStep platform (sys, c) choice = some (sys', c')) :
    Owns sys'.proc c' := by
  rcases none_yet with ⟨source, image⟩
  rcases checks_of_step places stepped with
    ⟨rfl, ⟨stbuf, _, rfl⟩ | ⟨errno, _, rfl⟩⟩
  · exact
      owns_out (fun positive => by omega) (fun positive => by omega) (-1)
  · rcases places with ⟨_, _, rfl⟩ | ⟨_, _, rfl⟩
    · exact ⟨source, image⟩
    · exact ⟨source, image⟩

/-- What a conversion has opened it keeps until it closes it. -/
theorem Owns.step
    (owns : Owns sys.proc c)
    (stepped : soloStep platform (sys, c) choice = some (sys', c')) :
    Owns sys'.proc c' := by
  by_cases inside : working c.pc = true
  · exact owns_of_goesOn owns inside stepped
  rcases advance_eq_some.mp stepped with
    ⟨op, next, reply, action, called, continued⟩
  unfold Convert.action at action
  unfold Owns at owns
  cases place : c.pc with
  | statImage =>
      rw [place] at owns
      exact owns_of_check (Or.inl ⟨place, rfl, rfl⟩) owns stepped
  | statTemp =>
      rw [place] at owns
      exact owns_of_check (Or.inr ⟨place, rfl, rfl⟩) owns stepped
  | openSource =>
      rw [place] at owns
      rcases opens_of_step place stepped with
        ⟨errno, _, rfl, rfl⟩ | ⟨number, file, _, _, fds, _, rfl⟩
      · apply owns_out
        · intro positive
          change (0 : Int) < -1 at positive
          omega
        · exact fun positive => absurd positive (Int.not_lt.mpr owns.2)
      · refine ⟨?_, owns.2⟩
        rw [fds, Function.update_self]
        exact Option.some_ne_none file
  | createTemp =>
      rw [place] at action owns
      cases action
      rcases h5fcreate_eq_some called with
        ⟨rfl, rfl⟩ | ⟨number, ino, fs, rfl, _, _, _, _, rfl⟩
      · rw [continued]
        apply owns_out
        · exact fun _ => owns.1
        · intro positive
          change (0 : Int) < -1 at positive
          omega
      · have entered :
            (sys.proc.setHandle number (some ⟨ino, true⟩)).handles number ≠
              none := by
          simp [Process.setHandle]
        rw [continued]
        dsimp only
        split
        · apply owns_out
          · exact fun _ => owns.1
          · exact fun _ => entered
        · exact ⟨owns.1, entered⟩
  | closeSource =>
      rw [place] at action owns
      cases action
      rcases Sys.close_eq_some called with rfl
      rw [continued]
      exact owns_outImage owns.2
  | closeImage =>
      rw [place] at action
      cases action
      rw [continued]
      trivial
  | returned =>
      rw [place] at action
      cases action
  | _ => exact (inside (by rw [place]; rfl)).elim

end Conversions

end DZFile.Threads
