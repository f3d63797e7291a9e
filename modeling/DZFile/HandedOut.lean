import DZFile.DescriptorMap
import DZFile.FileMeta

/-!
# The descriptors that are handed out

Runs of one process that creates, opens, writes and closes files through the
library, makes any other call beside it, and shares the file system with other
processes.  A value that `dzfile_creat` or `dzfile_open` returns belongs to the
file of its path until the process closes it.

`dzfile_creat` returns the numbers `EEXIST` and `EISDIR` themselves when the
hidden name of the path is taken, and these are descriptor numbers like any
others: a write on the result lands in the file that happens to be open there.
`dzfile_open` aborts the process when the last `open` fails beside an image
that it has opened.  In the runs without either, every value handed out is a
descriptor that the call has opened on its path, and a write on it changes no
other file.
-/

namespace DZFile.HandedOut

open DZFile.Codec
open DZFile.Interaction
open DZFile.Transition
open DZFile.Names
open DZFile.Kernel
open DZFile.Api
open DZFile.Opening

/-! ## The process -/

/-- A path with a slash. -/
abbrev Slashed : Type :=
  { path : CString // '/' ∈ path }

/--
The process, and for each value handed out the inode that its path referred to
behind the call; or the process has come to its end.
-/
inductive State where
  | running (sys : Sys) (owner : Int → Option (Option Ino))
  | ended

/-- A process that the library has handed out nothing to. -/
def State.start (sys : Sys) : State :=
  .running sys fun _ => none

/-- What can happen. -/
inductive Label where
  | dzfile_creat (path : Slashed) (choices : List Choice)
  | dzfile_open (path : Slashed) (flags : Nat) (choices : List Choice)
  | dzfile_write (fd : Int) (buf : Bytes) (choices : List Choice)
  | dzfile_close (fd : Int) (choices : List Choice)
  /-- Any other call of the process. -/
  | call (op : Op) (choice : Choice)
  /-- Other processes change the files and the database. -/
  | environment (fs : FileSystem) (db : Metadata.Db)

/-- The state behind a call that returns a descriptor for a path. -/
def handOut
    (owner : Int → Option (Option Ino)) (path : CString)
    (ending : Ending Op Reply Int Sys) : State :=
  match ending.result with
  | none => .ended
  | some ret =>
      .running ending.environment
        (if ret < 0 then owner
          else
            Function.update owner ret
              (some (ending.environment.fs.entry path)))

/-- The values that are still handed out behind a call. -/
def kept (owner : Int → Option (Option Ino)) (op : Op) :
    Int → Option (Option Ino) :=
  match op with
  | .close fd => Function.update owner fd none
  | _ => owner

/-- One event. -/
def step (platform : Platform) : State → Label → Option State
  | .running sys owner, .dzfile_creat path choices =>
      ((Api.dzfile_creat path).execute (kernel platform) sys choices).map
        (handOut owner path)
  | .running sys owner, .dzfile_open path flags choices =>
      ((Api.dzfile_open path flags).execute (kernel platform) sys
          choices).map
        (handOut owner path)
  | .running sys owner, .dzfile_write fd buf choices =>
      ((Api.dzfile_write fd buf).run (kernel platform) sys choices).map
        fun answer => .running answer.2 owner
  | .running sys owner, .dzfile_close fd choices =>
      ((Api.dzfile_close fd).run (kernel platform) sys choices).map
        fun answer => .running answer.2 (kept owner (.close fd))
  | .running sys owner, .call op choice =>
      (kernel platform sys choice op).map
        fun answer => .running answer.2 (kept owner op)
  | .running sys owner, .environment fs db =>
      some (.running { sys with fs := fs, db := db } owner)
  | .ended, _ => none

/-! ## What the caller relies on -/

/-- The call has opened the descriptor, and on the file of the path. -/
def Opened (sys later : Sys) (path : CString) (fd : Int) : Prop :=
  0 ≤ fd ∧ sys.proc.fds fd = none ∧
    ∃ file, later.proc.fds fd = some file ∧
      later.fs.entry path = some file.ino

/-- The call returns, and what it returns is -1 or such a descriptor. -/
def HandsOut
    (sys : Sys) (path : CString) (ending : Ending Op Reply Int Sys) :
    Prop :=
  ∃ ret, ending.result = some ret ∧
    (ret = -1 ∨ Opened sys ending.environment path ret)

/--
A call hands out a descriptor of its own, and a write on a value handed out
changes no file but that of its path.
-/
def Faithful (platform : Platform) : State → Label → Prop
  | .running sys _, .dzfile_creat path choices =>
      ∀ ending,
        (Api.dzfile_creat path).execute (kernel platform) sys choices =
          some ending →
            HandsOut sys path ending
  | .running sys _, .dzfile_open path flags choices =>
      ∀ ending,
        (Api.dzfile_open path flags).execute (kernel platform) sys choices =
          some ending →
            HandsOut sys path ending
  | .running sys owner, .dzfile_write fd buf choices =>
      ∀ target ret later, owner fd = some target →
        (Api.dzfile_write fd buf).run (kernel platform) sys choices =
          some (ret, later) →
            ∀ ino, target ≠ some ino →
              later.fs.node ino = sys.fs.node ino
  | _, _ => True

/--
`dzfile_creat` looks for the hidden name and finds it.
-/
def HiddenTaken
    (sys : Sys) (path : CString) (choices : List Choice) : Prop :=
  (FileMeta.NameCall.dzfile_creat path).refused = false ∧
    (DescriptorMap.imageInode sys path).isSome ∧
      ∃ number, choices.head? = some (.ok number)

/-- An `open` has failed. -/
def isFailedOpen : Sigma Reply → Prop
  | ⟨.openFile _ _, .error _⟩ => True
  | _ => False

/-- An image was opened, and then an `open` has failed. -/
def Halfway (answers : List (Sigma Reply)) : Prop :=
  (∃ answer ∈ answers, DescriptorMap.isHandle answer) ∧
    ∃ answer ∈ answers, isFailedOpen answer

/--
`dzfile_creat` does not find the hidden name taken, and no `open` fails in a
`dzfile_open` that has opened an image.
-/
def Granted (platform : Platform) : State → Label → Prop
  | .running sys _, .dzfile_creat path choices =>
      ¬ HiddenTaken sys path choices
  | .running sys _, .dzfile_open path flags choices =>
      ∀ ending,
        (Api.dzfile_open path flags).execute (kernel platform) sys choices =
          some ending →
            ¬ Halfway ending.answers
  | _, _ => True

/-! ## Creating -/

section Calls

variable {platform : Platform} {sys later : Sys}

/-- An `open` that succeeds opens a descriptor of its own on its path. -/
theorem opened_of_openFile
    {before : Sys} {choice : Choice} {path : CString} {flags : Nat}
    {opened : Except Errno Int} (fds : before.proc.fds = sys.proc.fds)
    (called : before.openFile choice path flags = some (opened, later)) :
    returnFd opened = -1 ∨ Opened sys later path (returnFd opened) := by
  cases opened with
  | error errno => exact Or.inl rfl
  | ok fd =>
      right
      rcases Sys.openFile_eq_some called with
        ⟨number, ino, fs, rfl, free, rfl, there⟩
      rw [fds] at free
      refine ⟨Int.natCast_nonneg number, free, ⟨ino, 0, flags⟩, ?_, ?_⟩
      · exact Function.update_self _ _ _
      · rcases there with ⟨_, _, rfl, rfl⟩ | ⟨found, rfl | ⟨_, rfl⟩⟩
        · exact Function.update_self _ _ _
        · exact found
        · exact found

/-- `stat` succeeds if it is not made to fail and the name is there. -/
theorem stat_succeeds_iff
    {choice : Choice} {path : CString} {found : Except Errno Stat}
    (called : sys.stat platform choice path = some (found, later)) :
    (∃ stbuf, found = .ok stbuf) ↔
      (sys.fs.entry path).isSome ∧ ∃ number, choice = .ok number := by
  cases choice with
  | fail errno =>
      simp only [Sys.stat, Sys.refuse] at called
      split at called
      · cases called
      · cases called
        simp
  | ok number =>
      cases entry : sys.fs.entry path with
      | none =>
          simp only [Sys.stat, FileSystem.lookup, entry, Option.map_none,
            Sys.refuse] at called
          cases called
          simp
      | some ino =>
          simp only [Sys.stat, FileSystem.lookup, entry, Option.map_some]
            at called
          cases node : sys.fs.node ino <;>
            rw [node] at called <;> cases called <;> simp

/-- The lookup finds the hidden name if it is made and the name is there. -/
theorem findhiddenFile_finds_iff
    {path : CString} {choices : List Choice} {rc : Int}
    (ran :
      (findhiddenFile path).run (kernel platform) sys choices =
        some (rc, later))
    (after : List Choice) :
    (rc = 1 ∨ rc = 2) ↔
      (DescriptorMap.imageInode sys path).isSome ∧
        ∃ number, (choices ++ after).head? = some (.ok number) := by
  unfold findhiddenFile at ran
  rw [DescriptorMap.imageInode]
  cases built : buildHiddenFile path with
  | none =>
      rw [built] at ran
      rcases Prog.run_ret_eq_some.mp ran with ⟨_, rfl, _⟩
      simp
  | some h5name =>
      rw [built] at ran
      rcases Prog.run_call_eq_some.mp ran with
        ⟨choice, rest, found, middle, rfl, called, returned⟩
      have succeeds := stat_succeeds_iff called
      have first :
          (∃ number, (choice :: rest ++ after).head? = some (.ok number)) ↔
            ∃ number, choice = .ok number := by
        simp
      rw [Option.bind_some, first, ← succeeds]
      cases found with
      | ok stbuf =>
          rcases Prog.run_ret_eq_some.mp returned with ⟨_, rfl, _⟩
          refine iff_of_true ?_ ⟨stbuf, rfl⟩
          cases stbuf.isDir
          · exact Or.inl rfl
          · exact Or.inr rfl
      | error errno =>
          have negative : rc = 0 ∨ rc = -1 := by
            cases errno <;>
              rcases Prog.run_ret_eq_some.mp returned with ⟨_, rfl, _⟩ <;>
              simp
          refine iff_of_false ?_ (by simp)
          omega

/-- `-1` is always a proper answer. -/
theorem handsOut_minusOne
    {path : CString} {answers : List (Sigma Reply)} :
    HandsOut sys path ⟨some (-1), later, answers⟩ :=
  ⟨-1, rfl, Or.inl rfl⟩

/-- A number that the call has not opened is none. -/
theorem not_handsOut_of_unchanged
    {path : CString} {fd : Int} {answers : List (Sigma Reply)}
    (number : fd ≠ -1) :
    ¬ HandsOut sys path ⟨some fd, sys, answers⟩ := by
  rintro ⟨ret, returned, failed | ⟨_, free, file, held, _⟩⟩
  · cases returned
    exact number failed
  · rw [show sys.proc.fds ret = none from free] at held
    cases held

theorem defined_fmt_entry_insert (path : CString) :
    (fmt_entry_insert path).Defined := by
  intro done
  cases done with
  | false => trivial
  | true => exact fun _ => trivial

/-- The row is inserted, and then the file is created. -/
theorem handsOut_insert_creat
    {path : CString} {choices : List Choice}
    {ending : Ending Op Reply Int Sys}
    (executed :
      (do
        let _ ← fmt_entry_insert path
        creat path).execute (kernel platform) sys choices =
        some ending) :
    HandsOut sys path ending := by
  rcases
    Prog.execute_bind_eq_some (defined_fmt_entry_insert path) executed with
    ⟨before, rest, _, middle, answers, ending, rfl, inserted, created, rfl⟩
  rcases run_fmt_entry_insert (Prog.run_of_execute inserted rfl) with
    ⟨db, rfl⟩
  rcases Prog.execute_call_eq_some.mp created with
    ⟨choice, last, opened, later, ending, rfl, called, returned, rfl⟩
  rcases Prog.execute_ret_eq_some.mp returned with ⟨rfl, rfl⟩
  exact
    ⟨_, rfl,
      opened_of_openFile
        (show ({ sys with db := db } : Sys).proc.fds = sys.proc.fds from rfl)
        called⟩

/--
`dzfile_creat` answers properly unless it finds the hidden name taken.
-/
theorem handsOut_creat_iff
    {path : Slashed} {choices : List Choice}
    {ending : Ending Op Reply Int Sys}
    (executed :
      (Api.dzfile_creat path).execute (kernel platform) sys choices =
        some ending) :
    HandsOut sys path ending ↔ ¬ HiddenTaken sys path choices := by
  have proper :
      ∀ {later answers},
        (FileMeta.NameCall.dzfile_creat path).refused = true →
          (HandsOut sys path ⟨some (-1), later, answers⟩ ↔
            ¬ HiddenTaken sys path choices) := by
    intro later answers refused
    refine iff_of_true handsOut_minusOne ?_
    rintro ⟨admitted, _⟩
    rw [refused] at admitted
    cases admitted
  unfold Api.dzfile_creat at executed
  cases found : strrchrSlash path with
  | none =>
      exact ((strrchrSlash_eq_none_iff path).mp found path.2).elim
  | some bname =>
      rw [found] at executed
      simp only at executed
      split at executed
      · rename_i illegal
        rcases Prog.execute_ret_eq_some.mp executed with ⟨rfl, rfl⟩
        exact
          proper
            (by
              simp [FileMeta.NameCall.refused, FileMeta.hiddenPath, found,
                illegal])
      · rename_i legal
        split at executed
        · rename_i guarded
          rcases Prog.execute_ret_eq_some.mp executed with ⟨rfl, rfl⟩
          exact proper (by simp [FileMeta.NameCall.refused, guarded])
        · rename_i unguarded
          have admitted :
              (FileMeta.NameCall.dzfile_creat path).refused = false := by
            rw [Bool.not_eq_true] at legal unguarded
            simp [FileMeta.NameCall.refused, FileMeta.hiddenPath, found,
              legal, unguarded]
          rcases
            Prog.execute_bind_eq_some
              (DescriptorMap.defined_findhiddenFile path) executed with
            ⟨before, rest, rc, middle, answers, last, rfl, looked, going,
              rfl⟩
          have ran := Prog.run_of_execute looked rfl
          have finds := findhiddenFile_finds_iff ran rest
          have taken :
              HiddenTaken sys path (before ++ rest) ↔ (rc = 1 ∨ rc = 2) :=
            (and_iff_right admitted).trans finds.symm
          rcases run_findhiddenFile ran with ⟨same, answered⟩
          subst same
          rw [taken]
          rcases answered with
            (rfl | rfl) | ⟨h5name, _, ⟨rfl, _⟩ | ⟨rfl, _⟩⟩
          · rcases Prog.execute_ret_eq_some.mp going with ⟨rfl, rfl⟩
            exact iff_of_true handsOut_minusOne (by decide)
          · rcases Prog.execute_ret_eq_some.mp going with ⟨rfl, rfl⟩
            exact
              iff_of_false (not_handsOut_of_unchanged (by decide))
                (by decide)
          · rcases handsOut_insert_creat going with ⟨ret, returned, opened⟩
            exact iff_of_true ⟨ret, returned, opened⟩ (by decide)
          · rcases Prog.execute_ret_eq_some.mp going with ⟨rfl, rfl⟩
            exact
              iff_of_false (not_handsOut_of_unchanged (by decide))
                (by decide)

/-! ## Opening -/

/-- A run that returns answers properly. -/
theorem opened_of_opens
    {path : CString} {flags : Nat} {ret : Int}
    (opens : Opens path flags sys ret later) :
    ret = -1 ∨ Opened sys later path ret := by
  cases opens with
  | refused fs fds h5fdmap => exact Or.inl rfl
  | visible h5name db choice opened built absent called =>
      exact
        opened_of_openFile
          (show ({ sys with db := db } : Sys).proc.fds = sys.proc.fds
            from rfl)
          called
  | @image middle later h5name h5fd fd first second built readOnly present
      handle called =>
      have fds : middle.proc.fds = sys.proc.fds := by
        rcases h5fopen_eq_some handle with
          ⟨_, rfl⟩ | ⟨number, ino, image, _, _, _, _, _, rfl⟩ <;> rfl
      rcases opened_of_openFile fds called with
        failed | ⟨positive, free, file, held, named⟩
      · exact Or.inl failed
      · exact Or.inr ⟨positive, free, file, held, named⟩

/-- Calls that only look open nothing and fail to open nothing. -/
theorem halfway_append_iff
    {before answers : List (Sigma Reply)}
    (quiet : ∀ answer ∈ before, looks answer.1) :
    Halfway (before ++ answers) ↔ Halfway answers := by
  have neutral :
      ∀ answer ∈ before,
        ¬ DescriptorMap.isHandle answer ∧ ¬ isFailedOpen answer := by
    rintro ⟨op, reply⟩ member
    have looking := quiet _ member
    cases op <;> first
      | exact looking.elim
      | exact ⟨id, id⟩
  constructor
  · rintro ⟨⟨first, member, handle⟩, second, member', failed⟩
    refine ⟨⟨first, ?_, handle⟩, second, ?_, failed⟩
    · rcases List.mem_append.mp member with earlier | later
      · exact ((neutral first earlier).1 handle).elim
      · exact later
    · rcases List.mem_append.mp member' with earlier | later
      · exact ((neutral second earlier).2 failed).elim
      · exact later
  · rintro ⟨⟨first, member, handle⟩, second, member', failed⟩
    exact
      ⟨⟨first, List.mem_append_right _ member, handle⟩, second,
        List.mem_append_right _ member', failed⟩

/-- Calls that open no image end in no half-opened one. -/
theorem not_halfway_of_opensNoImage
    {answers : List (Sigma Reply)}
    (calls : ∀ answer ∈ answers, DescriptorMap.opensNoImage answer.1) :
    ¬ Halfway answers := by
  rintro ⟨⟨⟨op, reply⟩, member, handle⟩, _⟩
  have call := calls _ member
  cases op <;> first
    | exact call.elim
    | exact handle.elim

/-- The branch of a path without an image returns. -/
theorem openPlain_aborts_iff
    {path : CString} {flags : Nat} {choices : List Choice}
    {ending : Ending Op Reply Int Sys}
    (executed :
      (openPlain path flags).execute (kernel platform) sys choices =
        some ending) :
    ending.result = none ↔ Halfway ending.answers := by
  rcases
    (DescriptorMap.defined_openPlain path flags).returns executed with
    ⟨ret, returned⟩
  apply iff_of_false
  · rw [returned]
    exact Option.some_ne_none ret
  · exact
      not_halfway_of_opensNoImage
        ((DescriptorMap.opensNoImage_openPlain path flags).answers executed)

/-- What `dzfile_open` does once it has called `H5Fopen`. -/
theorem afterImage_aborts_iff
    {path h5name : CString} {flags : Nat} {choices : List Choice}
    {h5fd : Option Int} {ending : Ending Op Reply Int Sys}
    (executed :
      (if h5fd.getD (-1) ≤ 0 then Prog.ret (-1)
        else do
          let allocated ← perform .malloc
          if allocated then do
            let opened ← perform (.openFile path flags)
            add_dzfd (returnFd opened) ⟨returnFd opened, h5fd.getD (-1)⟩
            return returnFd opened
          else return -1 : Call Int).execute (kernel platform) sys choices =
        some ending) :
    (ending.after ⟨.h5fopen h5name, h5fd⟩).result = none ↔
      Halfway (ending.after ⟨.h5fopen h5name, h5fd⟩).answers := by
  split at executed
  · rcases Prog.execute_ret_eq_some.mp executed with ⟨rfl, rfl⟩
    apply iff_of_false (Option.some_ne_none _)
    rintro ⟨_, answer, member, failed⟩
    rw [List.mem_singleton.mp member] at failed
    exact failed
  · rename_i positive
    cases h5fd with
    | none => exact (positive (by decide)).elim
    | some handle =>
        rcases Prog.execute_call_eq_some.mp executed with
          ⟨first, rest, allocated, middle, later, rfl, _, opening, rfl⟩
        cases allocated with
        | false =>
            rcases Prog.execute_ret_eq_some.mp opening with ⟨rfl, rfl⟩
            apply iff_of_false (Option.some_ne_none _)
            rintro ⟨_, answer, member, failed⟩
            simp only [Ending.after, List.mem_cons, List.not_mem_nil,
              or_false] at member
            rcases member with rfl | rfl <;> exact failed
        | true =>
            rcases Prog.execute_call_eq_some.mp opening with
              ⟨second, rest, opened, entered, last, rfl, called, mapping,
                rfl⟩
            cases opened with
            | error errno =>
                rcases Prog.execute_fault_eq_some.mp mapping with ⟨rfl, rfl⟩
                refine
                  iff_of_true rfl
                    ⟨⟨⟨.h5fopen h5name, some handle⟩, ?_, trivial⟩,
                      ⟨.openFile path flags, .error errno⟩, ?_, trivial⟩
                · exact List.mem_cons_self
                · exact
                    List.mem_cons_of_mem _
                      (List.mem_cons_of_mem _ List.mem_cons_self)
            | ok fd =>
                rcases Sys.openFile_eq_some called with
                  ⟨number, _, _, rfl, _⟩
                have proper : ¬ ((number : Int) = -1) := by omega
                change
                  ((if (number : Int) = -1 then _ else _ : Call Unit) >>=
                      fun _ => Prog.ret (number : Int)).execute
                      (kernel platform) entered rest =
                    some last at mapping
                rw [if_neg proper] at mapping
                rcases Prog.execute_call_eq_some.mp mapping with
                  ⟨third, rest, _, mapped, end_, rfl, _, returned, rfl⟩
                rcases Prog.execute_ret_eq_some.mp returned with ⟨rfl, rfl⟩
                apply iff_of_false (Option.some_ne_none _)
                rintro ⟨_, answer, member, failed⟩
                simp only [Ending.after, List.mem_cons, List.not_mem_nil,
                  or_false] at member
                rcases member with rfl | rfl | rfl | rfl <;> exact failed

/-- The branch of a converted path aborts when its last `open` fails. -/
theorem openImage_aborts_iff
    {path : CString} {flags : Nat} {choices : List Choice}
    {ending : Ending Op Reply Int Sys}
    (executed :
      (openImage path flags).execute (kernel platform) sys choices =
        some ending) :
    ending.result = none ↔ Halfway ending.answers := by
  have nothing : ¬ Halfway [] := not_halfway_of_opensNoImage (by simp)
  unfold openImage at executed
  split at executed
  · rcases Prog.execute_ret_eq_some.mp executed with ⟨rfl, rfl⟩
    exact iff_of_false (Option.some_ne_none _) nothing
  · cases built : buildHiddenFile path with
    | none =>
        rw [built] at executed
        rcases Prog.execute_ret_eq_some.mp executed with ⟨rfl, rfl⟩
        exact iff_of_false (Option.some_ne_none _) nothing
    | some h5name =>
        rw [built] at executed
        rcases Prog.execute_call_eq_some.mp executed with
          ⟨first, rest, h5fd, middle, later, rfl, called, opening, rfl⟩
        exact afterImage_aborts_iff opening

/-- An execution of `dzfile_open` returns unless it stops half way. -/
theorem dzfile_open_aborts_iff
    {path : Slashed} {flags : Nat} {choices : List Choice}
    {ending : Ending Op Reply Int Sys}
    (executed :
      (Api.dzfile_open path flags).execute (kernel platform) sys choices =
        some ending) :
    ending.result = none ↔ Halfway ending.answers := by
  cases DescriptorMap.looked_of_execute executed with
  | slashless unnamed =>
      refine absurd (Or.inr ?_) unnamed
      rw [Option.isSome_iff_ne_none, Ne, strrchrSlash_eq_none_iff, not_not]
      exact path.2
  | refused quiet =>
      have nothing : ¬ Halfway [] := not_halfway_of_opensNoImage (by simp)
      rw [← halfway_append_iff quiet, List.append_nil] at nothing
      exact iff_of_false (Option.some_ne_none _) nothing
  | plain quiet built absent opening =>
      rw [halfway_append_iff quiet]
      exact openPlain_aborts_iff opening
  | image quiet built opening =>
      rw [halfway_append_iff quiet]
      exact openImage_aborts_iff opening

/-- `dzfile_open` answers properly unless it stops half way. -/
theorem handsOut_open_iff
    {path : Slashed} {flags : Nat} {choices : List Choice}
    {ending : Ending Op Reply Int Sys}
    (executed :
      (Api.dzfile_open path flags).execute (kernel platform) sys choices =
        some ending) :
    HandsOut sys path ending ↔ ¬ Halfway ending.answers := by
  rw [← dzfile_open_aborts_iff executed]
  cases returned : ending.result with
  | none =>
      refine iff_of_false ?_ (by simp)
      rintro ⟨ret, same, _⟩
      rw [returned] at same
      cases same
  | some ret =>
      refine iff_of_true ?_ (Option.some_ne_none ret)
      exact
        ⟨ret, returned,
          opened_of_opens
            (opens_of_run (Prog.run_of_execute executed returned))⟩

/-! ## Everything else -/

/-- The descriptor is open on the inode. -/
def Holds (fd : Int) (ino : Ino) (sys : Sys) : Prop :=
  ∃ file, sys.proc.fds fd = some file ∧ file.ino = ino

/-- A call that does not close the descriptor. -/
def spares (fd : Int) : Op → Prop
  | .close other => other ≠ fd
  | _ => True

/-- What a call does to the descriptors, and which call takes one away. -/
inductive FdStep (op : Op) (proc proc' : Process) : Prop where
  | same (fds : proc'.fds = proc.fds)
  | moved
      (fd : Int) (file : OpenFile) (offset : Nat)
      (held : proc.fds fd = some file)
      (fds :
        proc'.fds =
          Function.update proc.fds fd
            (some { file with offset := offset }))
  | opened
      (fd : Int) (file : OpenFile) (free : proc.fds fd = none)
      (fds : proc'.fds = Function.update proc.fds fd (some file))
  | closed
      (fd : Int) (closes : op = .close fd)
      (fds : proc'.fds = Function.update proc.fds fd none)

/-- A read moves the offset behind what it gets. -/
theorem fdStep_of_read
    {choice : Choice} {fd : Int} {count : Nat} {result : Except Errno Bytes}
    (called : sys.read platform choice fd count = some (result, later)) :
    FdStep (.read fd count) sys.proc later.proc := by
  cases choice with
  | fail errno =>
      cases called
      exact .same rfl
  | ok limit =>
      cases held : sys.proc.fds fd with
      | none =>
          simp only [Sys.read, held, Sys.refuse] at called
          cases called
          exact .same rfl
      | some file =>
          simp only [Sys.read, held, Sys.refuse] at called
          repeat' split at called
          all_goals first
            | (cases called; exact .same rfl)
            | (rcases Option.map_eq_some_iff.mp called with ⟨_, _, answer⟩
               cases answer
               exact .moved fd file _ held rfl)

/-- `lseek` moves the offset where it is told. -/
theorem fdStep_of_lseek
    {choice : Choice} {fd offset : Int} {whence : Whence}
    {result : Except Errno Nat}
    (called :
      sys.lseek platform choice fd offset whence = some (result, later)) :
    FdStep (.lseek fd offset whence) sys.proc later.proc := by
  cases choice with
  | fail errno =>
      cases called
      exact .same rfl
  | ok number =>
      cases held : sys.proc.fds fd with
      | none =>
          simp only [Sys.lseek, held, Sys.refuse] at called
          cases called
          exact .same rfl
      | some file =>
          simp only [Sys.lseek, held, Sys.refuse] at called
          repeat' split at called
          all_goals cases called
          all_goals first
            | exact .same rfl
            | exact .moved fd file _ held rfl

/-- Every call is one of these. -/
theorem fdStep_of_kernel
    {choice : Choice} {op : Op} {reply : Reply op}
    (called : kernel platform sys choice op = some (reply, later)) :
    FdStep op sys.proc later.proc := by
  cases op with
  | stat path =>
      rw [(Sys.stat_eq_some called).1]
      exact .same rfl
  | openFile path flags =>
      cases reply with
      | error errno =>
          rw [Sys.openFile_eq_error called]
          exact .same rfl
      | ok fd =>
          rcases Sys.openFile_eq_some called with
            ⟨number, ino, fs, _, free, rfl, _⟩
          exact .opened number _ free rfl
  | close fd =>
      rw [Sys.close_eq_some called]
      exact .closed fd rfl rfl
  | read fd count => exact fdStep_of_read called
  | pread fd count offset =>
      simp only [kernel, Sys.pread, Sys.refuse] at called
      repeat' split at called
      all_goals first
        | (cases called; exact .same rfl)
        | (rcases Option.map_eq_some_iff.mp called with ⟨_, _, answer⟩
           cases answer
           exact .same rfl)
  | write fd data =>
      rcases Sys.write_eq_some called with
        ⟨errno, _, rfl⟩ | ⟨limit, file, held, _, _, proc⟩
      · exact .same rfl
      · exact .moved fd file _ held (congrArg Process.fds proc)
  | pwrite fd data offset =>
      rcases Sys.pwrite_eq_some called with
        ⟨errno, _, rfl⟩ | ⟨limit, file, _, _, _, _, proc⟩
      · exact .same rfl
      · exact .same (by rw [proc])
  | lseek fd offset whence => exact fdStep_of_lseek called
  | truncate path length =>
      simp only [kernel, Sys.truncate, Sys.refuse] at called
      repeat' split at called
      all_goals
        cases called
        exact .same rfl
  | ftruncate fd length =>
      simp only [kernel, Sys.ftruncate, Sys.refuse] at called
      repeat' split at called
      all_goals
        cases called
        exact .same rfl
  | rename old new =>
      simp only [kernel, Sys.rename, Sys.refuse] at called
      repeat' split at called
      all_goals
        cases called
        exact .same rfl
  | unlink path =>
      simp only [kernel, Sys.unlink, Sys.refuse] at called
      repeat' split at called
      all_goals
        cases called
        exact .same rfl
  | mkdir path =>
      simp only [kernel, Sys.mkdir, Sys.refuse] at called
      repeat' split at called
      all_goals
        cases called
        exact .same rfl
  | h5fcreate path =>
      simp only [kernel, Sys.h5fcreate, Sys.installHandle] at called
      repeat' split at called
      all_goals cases called
      all_goals exact .same rfl
  | h5fopen path =>
      simp only [kernel, Sys.h5fopen, Sys.installHandle] at called
      repeat' split at called
      all_goals cases called
      all_goals exact .same rfl
  | h5fclose h5fd =>
      rcases Sys.h5fclose_eq_some called with ⟨_, rfl⟩ | ⟨handle, _, rfl⟩
      · exact .same rfl
      · exact .same rfl
  | h5dwrite h5fd name data =>
      rcases Sys.h5dwrite_eq_some called with
        ⟨_, rfl⟩ | ⟨_, handle, image, _, _, _, rfl⟩
      · exact .same rfl
      · exact .same rfl
  | statfs path =>
      rw [kernel_statfs called]
      exact .same rfl
  | _ =>
      cases choice
      all_goals
        cases called
        exact .same rfl

/-- It stays open on its inode. -/
theorem holds_of_kernel
    {fd : Int} {ino : Ino} {choice : Choice} {op : Op} {reply : Reply op}
    (spared : spares fd op) (held : Holds fd ino sys)
    (called : kernel platform sys choice op = some (reply, later)) :
    Holds fd ino later := by
  rcases held with ⟨file, isOpen, rfl⟩
  cases fdStep_of_kernel called with
  | same fds =>
      exact ⟨file, by rw [fds, isOpen], rfl⟩
  | moved other before offset held fds =>
      by_cases same : fd = other
      · subst same
        rw [isOpen] at held
        cases held
        exact
          ⟨{ file with offset := offset },
            by rw [fds, Function.update_self], rfl⟩
      · exact
          ⟨file, by rw [fds, Function.update_of_ne same, isOpen], rfl⟩
  | opened other entered free fds =>
      have different : fd ≠ other := by
        rintro rfl
        rw [isOpen] at free
        cases free
      exact
        ⟨file, by rw [fds, Function.update_of_ne different, isOpen], rfl⟩
  | closed other closes fds =>
      subst closes
      have different : fd ≠ other := Ne.symm spared
      exact
        ⟨file, by rw [fds, Function.update_of_ne different, isOpen], rfl⟩

/-- It stays open along every program that does not close it. -/
theorem holds_of_run
    {fd : Int} {ino : Ino} {program : Call Int} {choices : List Choice}
    {ret : Int} (spared : program.AllCalls (spares fd))
    (held : Holds fd ino sys)
    (ran :
      program.run (kernel platform) sys choices = some (ret, later)) :
    Holds fd ino later :=
  spared.run_invariant (Holds fd ino)
    (fun _ _ _ _ _ quiet holds called => holds_of_kernel quiet holds called)
    held ran

theorem spares_of_looks {fd : Int} {op : Op} (quiet : looks op) :
    spares fd op := by
  cases op <;> first
    | exact quiet.elim
    | trivial

theorem spares_of_opens
    {fd : Int} {path : CString} {flags : Nat} {op : Op}
    (opening : opens path flags op) :
    spares fd op := by
  cases op <;> first
    | exact opening.elim
    | trivial

theorem spares_dzfile_creat (fd : Int) (path : CString) :
    (Api.dzfile_creat path).AllCalls (spares fd) :=
  (opens_dzfile_creat path).mono fun _ => spares_of_opens

theorem spares_dzfile_write (fd other : Int) (buf : Bytes) :
    (Api.dzfile_write other buf).AllCalls (spares fd) :=
  ⟨trivial, fun result =>
    (looks_countWritten (returnCount result)).mono
      fun _ => spares_of_looks⟩

theorem spares_dzfile_close {fd other : Int} (different : other ≠ fd) :
    (Api.dzfile_close other).AllCalls (spares fd) := by
  have closing : (closeFd other).AllCalls (spares fd) := by
    refine ⟨different, fun closed => ?_⟩
    cases closed <;> trivial
  refine ⟨trivial, fun found => ?_⟩
  cases found with
  | none => exact closing
  | some dzfd => exact ⟨trivial, fun _ => ⟨trivial, fun _ => closing⟩⟩

/-- `dzfile_write` changes no file but the one that is open there. -/
theorem node_of_run_dzfile_write
    {fd : Int} {ino other : Ino} {buf : Bytes} {choices : List Choice}
    {ret : Int} (held : Holds fd ino sys) (different : other ≠ ino)
    (ran :
      (Api.dzfile_write fd buf).run (kernel platform) sys choices =
        some (ret, later)) :
    later.fs.node other = sys.fs.node other := by
  rcases Prog.run_call_eq_some.mp ran with
    ⟨choice, rest, result, middle, rfl, called, counted⟩
  have counting : later.fs = middle.fs :=
    (looks_countWritten (returnCount result)).run_invariant
      (fun sys => sys.fs = middle.fs)
      (fun _ _ _ _ _ quiet same called =>
        (fs_of_looks quiet called).trans same)
      rfl counted
  rw [counting]
  rcases held with ⟨file, isOpen, rfl⟩
  rcases Sys.write_eq_some called with
    ⟨errno, _, rfl⟩ | ⟨limit, file', held, _, written, _⟩
  · rfl
  · rw [isOpen] at held
    cases held
    rw [written]
    exact Function.update_of_ne different _ _

end Calls

/-! ## Whole runs -/

/-- What is handed out is open on the file of its path. -/
def State.Owned : State → Prop
  | .running sys owner =>
      ∀ fd target, owner fd = some target →
        ∃ ino, target = some ino ∧ Holds fd ino sys
  | .ended => True

section Steps

variable {platform : Platform} {sys : Sys}
    {owner : Int → Option (Option Ino)}

/-- A proper answer is one more descriptor that is open on its file. -/
theorem owned_handOut
    {path : CString} {ending : Ending Op Reply Int Sys}
    (owned : (State.running sys owner).Owned)
    (handsOut : HandsOut sys path ending)
    (survives :
      ∀ fd ino, Holds fd ino sys → Holds fd ino ending.environment) :
    (handOut owner path ending).Owned := by
  have before : (State.running ending.environment owner).Owned := by
    intro fd target handed
    rcases owned fd target handed with ⟨ino, same, held⟩
    exact ⟨ino, same, survives fd ino held⟩
  rcases handsOut with ⟨ret, returned, opened⟩
  rw [handOut, returned]
  simp only
  split
  · exact before
  · rename_i positive
    rcases opened with rfl | ⟨_, _, file, held, named⟩
    · exact (positive (by decide)).elim
    · intro fd target handed
      by_cases same : fd = ret
      · subst same
        rw [Function.update_self, Option.some.injEq] at handed
        subst handed
        exact ⟨file.ino, named, file, held, rfl⟩
      · rw [Function.update_of_ne same] at handed
        exact before fd target handed

/-- A value that is given back is handed out no longer. -/
theorem owned_kept
    {later : Sys} {op : Op} (owned : (State.running sys owner).Owned)
    (survives :
      ∀ fd ino, spares fd op → Holds fd ino sys → Holds fd ino later) :
    (State.running later (kept owner op)).Owned := by
  intro fd target handed
  have kept_ : spares fd op ∧ owner fd = some target := by
    cases op with
    | close other =>
        by_cases same : fd = other
        · subst same
          simp [kept] at handed
        · simp only [kept, Function.update_of_ne same] at handed
          exact ⟨Ne.symm same, handed⟩
    | _ => exact ⟨trivial, handed⟩
  rcases owned fd target kept_.2 with ⟨ino, same, held⟩
  exact ⟨ino, same, survives fd ino kept_.1 held⟩

/-- A faithful event keeps it so. -/
theorem owned_of_step
    {state next : State} {label : Label} (owned : state.Owned)
    (faithful : Faithful platform state label)
    (stepped : step platform state label = some next) :
    next.Owned := by
  cases state with
  | ended => cases stepped
  | running sys owner =>
      cases label with
      | dzfile_creat path choices =>
          rcases Option.map_eq_some_iff.mp stepped with
            ⟨ending, executed, rfl⟩
          have handsOut := faithful ending executed
          apply owned_handOut owned handsOut
          rcases handsOut with ⟨ret, returned, _⟩
          intro fd ino held
          exact
            holds_of_run (spares_dzfile_creat fd path) held
              (Prog.run_of_execute executed returned)
      | dzfile_open path flags choices =>
          rcases Option.map_eq_some_iff.mp stepped with
            ⟨ending, executed, rfl⟩
          have handsOut := faithful ending executed
          apply owned_handOut owned handsOut
          rcases handsOut with ⟨ret, returned, _⟩
          intro fd ino held
          exact
            holds_of_run
              ((opens_dzfile_open path flags).mono
                fun _ => spares_of_opens)
              held (Prog.run_of_execute executed returned)
      | dzfile_write fd buf choices =>
          rcases Option.map_eq_some_iff.mp stepped with
            ⟨⟨ret, later⟩, ran, rfl⟩
          intro other target handed
          rcases owned other target handed with ⟨ino, same, held⟩
          exact
            ⟨ino, same,
              holds_of_run (spares_dzfile_write other fd buf) held ran⟩
      | dzfile_close fd choices =>
          rcases Option.map_eq_some_iff.mp stepped with
            ⟨⟨ret, later⟩, ran, rfl⟩
          apply owned_kept owned
          intro other ino different held
          exact holds_of_run (spares_dzfile_close different) held ran
      | call op choice =>
          rcases Option.map_eq_some_iff.mp stepped with
            ⟨⟨reply, later⟩, called, rfl⟩
          apply owned_kept owned
          intro fd ino spared held
          exact holds_of_kernel spared held called
      | environment fs db =>
          cases stepped
          exact owned

/-- One event, while everything handed out is open on its file. -/
theorem faithful_iff_granted
    {state next : State} {label : Label} (owned : state.Owned)
    (stepped : step platform state label = some next) :
    Faithful platform state label ↔ Granted platform state label := by
  cases state with
  | ended => cases stepped
  | running sys owner =>
      cases label with
      | dzfile_creat path choices =>
          rcases Option.map_eq_some_iff.mp stepped with
            ⟨ending, executed, _⟩
          constructor
          · intro faithful
            exact (handsOut_creat_iff executed).mp (faithful ending executed)
          · intro granted ending executed
            exact (handsOut_creat_iff executed).mpr granted
      | dzfile_open path flags choices =>
          exact
            forall_congr' fun ending =>
              imp_congr_right fun executed => handsOut_open_iff executed
      | dzfile_write fd buf choices =>
          refine iff_of_true ?_ trivial
          intro target ret later handed ran other different
          rcases owned fd target handed with ⟨ino, rfl, held⟩
          apply node_of_run_dzfile_write held _ ran
          rintro rfl
          exact different rfl
      | dzfile_close fd choices => exact Iff.rfl
      | call op choice => exact Iff.rfl
      | environment fs db => exact Iff.rfl

end Steps

/-- `/f` is created, written and closed. -/
def createAndWrite : List Label :=
  [.dzfile_creat ⟨['/', 'f'], by decide⟩ [.ok 0, .ok 0, .ok 0, .ok 3],
    .dzfile_write 3 [7] [.ok 1, .ok 0],
    .dzfile_close 3 [.ok 0, .ok 0]]

/-- `/f` is converted, and `/g` is open for writing as number 17. -/
def converted : Sys where
  fs := DescriptorMap.convertedStore.link ['/', 'g'] (.file [])
  db := .empty
  proc := Process.empty.setFd 17 (some ⟨2, 0, O_WRONLY⟩)

end DZFile.HandedOut
