import DZFile.Api

/-!
# What `dzfile_open` does

The inversion of a whole run of `dzfile_open`: it is refused, it opens the
visible file of a path without a hidden image, or it opens the hidden image
for reading and the visible file beside it, and enters the pair into the
descriptor map.
-/

namespace DZFile.Opening

open DZFile.Interaction
open DZFile.Names
open DZFile.Image
open DZFile.Metadata
open DZFile.Kernel
open DZFile.Api

/-- How a run of `dzfile_open` ends. -/
inductive Opens (path : CString) (flags : Nat) (sys : Sys) :
    Int → Sys → Prop where
  /-- It returns -1; an image may have been opened and forgotten. -/
  | refused
      {later : Sys} (fs : later.fs = sys.fs)
      (fds : later.proc.fds = sys.proc.fds)
      (h5fdmap : later.proc.h5fdmap = sys.proc.h5fdmap) :
      Opens path flags sys (-1) later
  /-- Without an image the visible file is opened. -/
  | visible
      {later : Sys} (h5name : CString) (db : Db) (choice : Choice)
      (opened : Except Errno Int)
      (built : buildHiddenFile path = some h5name)
      (absent : sys.fs.entry h5name = none)
      (called :
        ({ sys with db := db } : Sys).openFile choice path flags =
          some (opened, later)) :
      Opens path flags sys (returnFd opened) later
  /-- With an image both are opened, for reading only. -/
  | image
      {middle later : Sys} (h5name : CString) (h5fd fd : Int)
      (first second : Choice)
      (built : buildHiddenFile path = some h5name)
      (readOnly : accessMode flags = O_RDONLY)
      (present : sys.fs.entry h5name ≠ none)
      (handle : sys.h5fopen first h5name = some (some h5fd, middle))
      (called : middle.openFile second path flags = some (.ok fd, later)) :
      Opens path flags sys fd
        { later with proc := later.proc.setMap fd (some ⟨fd, h5fd⟩) }

variable {platform : Platform} {sys later : Sys}

/-- `stat` tells a missing name from one that is there. -/
theorem stat_reply
    {choice : Choice} {path : CString} {found : Except Errno Stat}
    (called : sys.stat platform choice path = some (found, later)) :
    later = sys ∧
      (found = .error .ENOENT → sys.fs.entry path = none) ∧
        (∀ stbuf, found = .ok stbuf → sys.fs.entry path ≠ none) := by
  refine ⟨(Sys.stat_eq_some called).1, ?_, ?_⟩
  · rintro rfl
    exact Sys.entry_of_stat_ENOENT called
  · intro stbuf same
    rcases (Sys.stat_eq_some called).2 stbuf same with ⟨ino, entry, _⟩
    simp [entry]

/-- `findhiddenFile` looks and changes nothing. -/
theorem run_findhiddenFile
    {path : CString} {choices : List Choice} {rc : Int}
    (ran :
      (findhiddenFile path).run (kernel platform) sys choices =
        some (rc, later)) :
    later = sys ∧
      ((rc = -1 ∨ rc = 2) ∨
        ∃ h5name, buildHiddenFile path = some h5name ∧
          (rc = 0 ∧ sys.fs.entry h5name = none ∨
            rc = 1 ∧ sys.fs.entry h5name ≠ none)) := by
  unfold findhiddenFile at ran
  cases built : buildHiddenFile path with
  | none =>
      rw [built] at ran
      rcases Prog.run_ret_eq_some.mp ran with ⟨rfl, rfl, rfl⟩
      exact ⟨rfl, Or.inl (Or.inl rfl)⟩
  | some h5name =>
      rw [built] at ran
      rcases Prog.run_call_eq_some.mp ran with
        ⟨choice, rest, found, middle, rfl, called, returned⟩
      rcases stat_reply called with ⟨rfl, missing, present⟩
      cases found with
      | ok stbuf =>
          rcases Prog.run_ret_eq_some.mp returned with ⟨_, rfl, rfl⟩
          refine ⟨rfl, ?_⟩
          split
          · exact Or.inl (Or.inr rfl)
          · exact
              Or.inr ⟨h5name, rfl, Or.inr ⟨rfl, present stbuf rfl⟩⟩
      | error errno =>
          by_cases absent : errno = .ENOENT
          · subst absent
            rcases Prog.run_ret_eq_some.mp returned with ⟨_, rfl, rfl⟩
            exact ⟨rfl, Or.inr ⟨h5name, rfl, Or.inl ⟨rfl, missing rfl⟩⟩⟩
          · have failed :
                (Prog.ret (-1 : Int) : Call Int).run (kernel platform)
                    middle rest =
                  some (rc, later) := by
              cases errno <;> first
                | exact (absent rfl).elim
                | exact returned
            rcases Prog.run_ret_eq_some.mp failed with ⟨_, rfl, rfl⟩
            exact ⟨rfl, Or.inl (Or.inl rfl)⟩

/-- Without an image `findhiddenFile` can return 0. -/
theorem run_findhiddenFile_absent
    {path h5name : CString} (built : buildHiddenFile path = some h5name)
    (absent : sys.fs.entry h5name = none) :
    (findhiddenFile path).run (kernel platform) sys [.ok 0] =
      some (0, sys) := by
  unfold findhiddenFile
  rw [built]
  refine
    Prog.run_call_eq_some.mpr
      ⟨.ok 0, [], .error .ENOENT, sys, rfl, ?_, rfl⟩
  simp [kernel, Sys.stat, FileSystem.lookup, absent, Sys.refuse]

/-- A statement that is executed changes the database only. -/
theorem kernel_sqlite3_exec
    {choice : Choice} {stmt : Stmt} {done : Bool}
    (answered :
      kernel platform sys choice (.sqlite3_exec stmt) = some (done, later)) :
    ∃ db, later = { sys with db := db } := by
  cases choice with
  | ok number =>
      cases answered
      exact ⟨_, rfl⟩
  | fail errno =>
      cases answered
      exact ⟨sys.db, rfl⟩

/-- A call that changes no file. -/
def looks : Op → Prop
  | .stat _ => True
  | .sqlite3_exec _ => True
  | _ => False

/-- It changes the database at most. -/
theorem db_of_looks
    {platform : Platform} {sys later : Sys} {choice : Choice} {op : Op}
    {reply : Reply op} (quiet : looks op)
    (called : kernel platform sys choice op = some (reply, later)) :
    ∃ db, later = { sys with db := db } := by
  cases op with
  | stat path =>
      rw [(stat_reply called).1]
      exact ⟨sys.db, rfl⟩
  | sqlite3_exec stmt => exact kernel_sqlite3_exec called
  | _ => exact quiet.elim

theorem fs_of_looks
    {platform : Platform} {sys later : Sys} {choice : Choice} {op : Op}
    {reply : Reply op} (quiet : looks op)
    (called : kernel platform sys choice op = some (reply, later)) :
    later.fs = sys.fs := by
  rcases db_of_looks quiet called with ⟨db, rfl⟩
  rfl

theorem looks_findhiddenFile (path : CString) :
    (findhiddenFile path).AllCalls looks := by
  unfold findhiddenFile
  cases buildHiddenFile path with
  | none => trivial
  | some h5name =>
      refine ⟨trivial, fun found => ?_⟩
      cases found with
      | ok stbuf => trivial
      | error errno => cases errno <;> trivial

theorem looks_space_update
    (field : Field) (num : Int) (flag : Flag) :
    (space_update field num flag).AllCalls looks :=
  ⟨trivial, fun _ => trivial⟩

theorem looks_fmt_entry_insert (path : CString) :
    (fmt_entry_insert path).AllCalls looks := by
  refine ⟨trivial, fun done => ?_⟩
  cases done with
  | false => trivial
  | true => exact looks_space_update .filenum 1 .ADD_NUM

theorem looks_countWritten (ret : Int) :
    (countWritten ret).AllCalls looks := by
  unfold countWritten
  split
  · exact ⟨trivial, fun _ => trivial⟩
  · trivial

/-- The calls of `dzfile_open`. -/
def opens (path : CString) (flags : Nat) : Op → Prop
  | .openFile name mode => name = path ∧ mode = flags
  | .h5fopen _ => True
  | .malloc => True
  | .add_dzfd _ _ => True
  | op => looks op

theorem opens_of_looks
    {path : CString} {flags : Nat} {op : Op} (quiet : looks op) :
    opens path flags op := by
  cases op <;> first
    | exact quiet
    | exact quiet.elim

theorem opens_openPlain (path : CString) (flags : Nat) :
    (openPlain path flags).AllCalls (opens path flags) := by
  have visible : (openVisible path flags).AllCalls (opens path flags) :=
    ⟨⟨rfl, rfl⟩, fun _ => trivial⟩
  have inserting : (fmt_entry_insert path).AllCalls (opens path flags) :=
    (looks_fmt_entry_insert path).mono fun _ => opens_of_looks
  refine ⟨trivial, ?_⟩
  rintro (errno | stbuf)
  · cases errno with
    | ENOENT => exact inserting.bind fun _ => visible
    | _ => exact visible
  · exact visible

theorem opens_openImage (path : CString) (flags : Nat) :
    (openImage path flags).AllCalls (opens path flags) := by
  unfold openImage
  split
  · trivial
  · cases buildHiddenFile path with
    | none => trivial
    | some h5name =>
        refine ⟨trivial, fun h5fd => ?_⟩
        show
          (if h5fd.getD (-1) ≤ 0 then _ else _ : Call Int).AllCalls _
        split
        · trivial
        · refine ⟨trivial, ?_⟩
          rintro (allocated | allocated)
          · trivial
          · refine ⟨⟨rfl, rfl⟩, fun opened => ?_⟩
            show
              (add_dzfd (returnFd opened) ⟨returnFd opened, h5fd.getD (-1)⟩
                >>= fun _ => Prog.ret (returnFd opened)).AllCalls _
            refine Prog.AllCalls.bind ?_ fun _ => trivial
            unfold add_dzfd
            split
            · trivial
            · exact ⟨trivial, fun _ => trivial⟩

theorem opens_dzfile_open (path : CString) (flags : Nat) :
    (dzfile_open path flags).AllCalls (opens path flags) := by
  unfold dzfile_open
  split
  · trivial
  · split
    · trivial
    · split
      · trivial
      · have looking : (findhiddenFile path).AllCalls (opens path flags) :=
          (looks_findhiddenFile path).mono fun _ => opens_of_looks
        apply looking.bind
        intro isexist
        repeat' split
        · exact opens_openImage path flags
        · trivial
        · trivial
        · exact opens_openPlain path flags

theorem opens_dzfile_creat (path : CString) :
    (dzfile_creat path).AllCalls
      (opens path (O_WRONLY + O_CREAT + O_TRUNC)) := by
  have looking :
      (findhiddenFile path).AllCalls
        (opens path (O_WRONLY + O_CREAT + O_TRUNC)) :=
    (looks_findhiddenFile path).mono fun _ => opens_of_looks
  have inserting :
      (fmt_entry_insert path).AllCalls
        (opens path (O_WRONLY + O_CREAT + O_TRUNC)) :=
    (looks_fmt_entry_insert path).mono fun _ => opens_of_looks
  unfold dzfile_creat
  split
  · trivial
  · split
    · trivial
    · split
      · trivial
      · apply looking.bind
        intro isexist
        repeat' split
        · trivial
        · exact inserting.bind fun _ => ⟨⟨rfl, rfl⟩, fun _ => trivial⟩
        · trivial
        · trivial
        · trivial

/-- Inserting a row changes the database only. -/
theorem run_fmt_entry_insert
    {path : CString} {choices : List Choice} {ret : Int}
    (ran :
      (fmt_entry_insert path).run (kernel platform) sys choices =
        some (ret, later)) :
    ∃ db, later = { sys with db := db } := by
  rcases Prog.run_call_eq_some.mp ran with
    ⟨choice, rest, done, middle, rfl, answered, counted⟩
  rcases kernel_sqlite3_exec answered with ⟨db, rfl⟩
  cases done with
  | false =>
      rcases Prog.run_ret_eq_some.mp counted with ⟨_, _, rfl⟩
      exact ⟨db, rfl⟩
  | true =>
      rcases Prog.run_call_eq_some.mp counted with
        ⟨choice, rest, done, middle, rfl, answered, ended⟩
      rcases kernel_sqlite3_exec answered with ⟨db', rfl⟩
      rcases Prog.run_ret_eq_some.mp ended with ⟨_, _, rfl⟩
      exact ⟨db', rfl⟩

theorem run_openVisible
    {path : CString} {flags : Nat} {choices : List Choice} {ret : Int}
    (ran :
      (openVisible path flags).run (kernel platform) sys choices =
        some (ret, later)) :
    ∃ choice opened,
      sys.openFile choice path flags = some (opened, later) ∧
        ret = returnFd opened := by
  rcases Prog.run_call_eq_some.mp ran with
    ⟨choice, rest, opened, middle, rfl, called, returned⟩
  rcases Prog.run_ret_eq_some.mp returned with ⟨_, rfl, rfl⟩
  exact ⟨choice, opened, called, rfl⟩

theorem run_openPlain
    {path : CString} {flags : Nat} {choices : List Choice} {ret : Int}
    (ran :
      (openPlain path flags).run (kernel platform) sys choices =
        some (ret, later)) :
    ∃ db choice opened,
      ({ sys with db := db } : Sys).openFile choice path flags =
          some (opened, later) ∧
        ret = returnFd opened := by
  rcases Prog.run_call_eq_some.mp ran with
    ⟨choice, rest, found, middle, rfl, called, openRan⟩
  rcases stat_reply called with ⟨rfl, _⟩
  by_cases absent : found = .error .ENOENT
  · subst absent
    change
      (fmt_entry_insert path >>= fun _ => openVisible path flags).run
          (kernel platform) middle rest =
        some (ret, later) at openRan
    rcases Prog.run_bind_eq_some.mp openRan with
      ⟨before, after, _, inserted, rfl, insertRan, visibleRan⟩
    rcases run_fmt_entry_insert insertRan with ⟨db, rfl⟩
    rcases run_openVisible visibleRan with ⟨choice, opened, called, rfl⟩
    exact ⟨db, choice, opened, called, rfl⟩
  · have visibleRan :
        (openVisible path flags).run (kernel platform) middle rest =
          some (ret, later) := by
      cases found with
      | ok stbuf => exact openRan
      | error errno =>
          cases errno <;> first
            | exact (absent rfl).elim
            | exact openRan
    rcases run_openVisible visibleRan with ⟨choice, opened, called, rfl⟩
    exact ⟨middle.db, choice, opened, called, rfl⟩

/-- `H5Fopen` enters a handle and nothing else. -/
theorem h5fopen_eq_some
    {choice : Choice} {path : CString} {h5fd : Option Int}
    (called : sys.h5fopen choice path = some (h5fd, later)) :
    (h5fd = none ∧ later = sys) ∨
      ∃ number : Nat, ∃ ino image,
        h5fd = some (number : Int) ∧ 0 < number ∧
          sys.fs.entry path = some ino ∧
            sys.fs.node ino = .image image ∧ image.writer = false ∧
              later =
                { sys with
                  proc := sys.proc.setHandle number (some ⟨ino, false⟩) } := by
  unfold Sys.h5fopen Sys.installHandle at called
  split at called
  · cases called
    exact Or.inl ⟨rfl, rfl⟩
  · rename_i number
    split at called
    · cases called
    · rename_i allowed
      rw [not_or] at allowed
      split at called
      · cases called
        exact Or.inl ⟨rfl, rfl⟩
      · rename_i ino found
        split at called
        · rename_i image node
          split at called
          · cases called
            exact Or.inl ⟨rfl, rfl⟩
          · rename_i unlocked
            cases called
            exact
              Or.inr
                ⟨number, ino, image, rfl, Nat.pos_of_ne_zero allowed.1, found,
                  node, by simpa using unlocked, rfl⟩
        · cases called
          exact Or.inl ⟨rfl, rfl⟩

theorem run_openImage
    {path h5name : CString} {flags : Nat} {choices : List Choice} {ret : Int}
    (built : buildHiddenFile path = some h5name)
    (present : sys.fs.entry h5name ≠ none)
    (ran :
      (openImage path flags).run (kernel platform) sys choices =
        some (ret, later)) :
    Opens path flags sys ret later := by
  unfold openImage at ran
  split at ran
  · rcases Prog.run_ret_eq_some.mp ran with ⟨_, rfl, rfl⟩
    exact .refused rfl rfl rfl
  · rename_i readOnly
    rw [not_not] at readOnly
    rw [built] at ran
    rcases Prog.run_bind_eq_some.mp ran with
      ⟨first, rest, h5fd, middle, rfl, opening, afterOpen⟩
    rcases Prog.run_call_eq_some.mp opening with
      ⟨choice, more, found, entered, rfl, called, returned⟩
    rcases Prog.run_ret_eq_some.mp returned with ⟨rfl, rfl, rfl⟩
    rcases h5fopen_eq_some called with
      ⟨rfl, rfl⟩ | ⟨number, ino, image, rfl, positive, named, node, _, rfl⟩
    · rcases Prog.run_ret_eq_some.mp afterOpen with ⟨_, rfl, rfl⟩
      exact .refused rfl rfl rfl
    · have open_ : ¬ ((some (number : Int)).getD (-1) ≤ 0) := by
        simp only [Option.getD_some]
        omega
      rw [if_neg open_] at afterOpen
      rcases Prog.run_call_eq_some.mp afterOpen with
        ⟨choice, more, allocated, middle, rfl, answered, allocRan⟩
      have same :
          middle =
            { sys with
              proc := sys.proc.setHandle number (some ⟨ino, false⟩) } := by
        cases choice with
        | ok number =>
            cases answered
            rfl
        | fail errno =>
            cases answered
            rfl
      subst same
      cases allocated with
      | false =>
          rcases Prog.run_ret_eq_some.mp allocRan with ⟨_, rfl, rfl⟩
          exact .refused rfl rfl rfl
      | true =>
          rcases Prog.run_call_eq_some.mp allocRan with
            ⟨choice, more, opened, middle, rfl, visible, mapRan⟩
          change
            (add_dzfd (returnFd opened) ⟨returnFd opened, number⟩ >>=
                fun _ => Prog.ret (returnFd opened)).run
                (kernel platform) middle more =
              some (ret, later) at mapRan
          rcases Prog.run_bind_eq_some.mp mapRan with
            ⟨before, after, _, mapped, rfl, adding, returned⟩
          rcases Prog.run_ret_eq_some.mp returned with ⟨_, rfl, rfl⟩
          cases opened with
          | error errno => simp [add_dzfd] at adding
          | ok fd =>
              unfold add_dzfd at adding
              split at adding
              · simp at adding
              · rcases Prog.run_call_eq_some.mp adding with
                  ⟨_, _, _, _, rfl, added, ended⟩
                rcases Prog.run_ret_eq_some.mp ended with ⟨_, _, rfl⟩
                cases added
                exact
                  .image h5name number fd _ _ built readOnly present called
                    visible

/-- Every run of `dzfile_open` ends in one of the ways of `Opens`. -/
theorem opens_of_run
    {path : CString} {flags : Nat} {choices : List Choice} {ret : Int}
    (ran :
      (dzfile_open path flags).run (kernel platform) sys choices =
        some (ret, later)) :
    Opens path flags sys ret later := by
  unfold dzfile_open at ran
  split at ran
  · rcases Prog.run_ret_eq_some.mp ran with ⟨_, rfl, rfl⟩
    exact .refused rfl rfl rfl
  · cases found : strrchrSlash path with
    | none => simp [found] at ran
    | some bname =>
        simp only [found] at ran
        split at ran
        · rcases Prog.run_ret_eq_some.mp ran with ⟨_, rfl, rfl⟩
          exact .refused rfl rfl rfl
        · rcases Prog.run_bind_eq_some.mp ran with
            ⟨first, rest, rc, middle, rfl, lookupRan, restRan⟩
          rcases run_findhiddenFile lookupRan with ⟨rfl, answers⟩
          rcases answers with
            (rfl | rfl) | ⟨h5name, built, ⟨rfl, absent⟩ | ⟨rfl, present⟩⟩
          · rcases Prog.run_ret_eq_some.mp restRan with ⟨_, rfl, rfl⟩
            exact .refused rfl rfl rfl
          · rcases Prog.run_ret_eq_some.mp restRan with ⟨_, rfl, rfl⟩
            exact .refused rfl rfl rfl
          · rcases run_openPlain restRan with ⟨db, choice, opened, called, rfl⟩
            exact .visible h5name db choice opened built absent called
          · exact run_openImage built present restRan

end DZFile.Opening
