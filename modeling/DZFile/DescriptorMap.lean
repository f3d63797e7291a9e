import DZFile.Opening
import DZFile.Library.Transition

/-!
# The map of converted descriptors

Runs of `dzfile_open` and `dzfile_close` in one process, in which every
underlying call may fail.  `dzfile_open` acquires an HDF5 handle, memory for
the entry, the descriptor of the visible file and the entry of `h5fdmap`, one
after the other.  It gives none of them back: after a failing `malloc` the
handle stays open, and after a failing `open` the entry is made for the
descriptor -1, the deleted key of the map, which aborts the process.

The map is exact throughout a run exactly when neither happens, and no path
without a slash is opened, for which the test of the name dereferences
`NULL + 1`.
-/

namespace DZFile.DescriptorMap

open DZFile.Interaction
open DZFile.Transition
open DZFile.Names
open DZFile.Kernel
open DZFile.Api
open DZFile.Opening

/-! ## The replies of one call -/

/-- `H5Fopen` has given a handle. -/
def isHandle : Sigma Reply → Prop
  | ⟨.h5fopen _, some _⟩ => True
  | _ => False

/-- `malloc` or `open` has failed. -/
def isFailure : Sigma Reply → Prop
  | ⟨.malloc, false⟩ => True
  | ⟨.openFile _ _, .error _⟩ => True
  | _ => False

/-- Neither `malloc` nor `open` fails in a call that got a handle. -/
def Fulfilled (answers : List (Sigma Reply)) : Prop :=
  (∃ answer ∈ answers, isHandle answer) →
    ∀ answer ∈ answers, ¬ isFailure answer

/-- Calls that only look give no handle and fail without consequence. -/
theorem fulfilled_append
    {before answers : List (Sigma Reply)}
    (quiet : ∀ answer ∈ before, looks answer.1) :
    Fulfilled (before ++ answers) ↔ Fulfilled answers := by
  have neutral :
      ∀ answer ∈ before, ¬ isHandle answer ∧ ¬ isFailure answer := by
    rintro ⟨op, reply⟩ member
    have looking := quiet _ member
    cases op <;> first
      | exact looking.elim
      | exact ⟨id, id⟩
  constructor
  · rintro fulfilled ⟨answer, member, handle⟩ other otherMember
    apply fulfilled ⟨answer, List.mem_append_right _ member, handle⟩
    exact List.mem_append_right _ otherMember
  · rintro fulfilled ⟨answer, member, handle⟩ other otherMember failure
    rcases List.mem_append.mp member with member | member
    · exact (neutral answer member).1 handle
    · rcases List.mem_append.mp otherMember with otherMember | otherMember
      · exact (neutral other otherMember).2 failure
      · exact fulfilled ⟨answer, member, handle⟩ other otherMember failure

/-- A call that gives no handle. -/
def opensNoImage : Op → Prop
  | .h5fopen _ => False
  | _ => True

theorem fulfilled_of_opensNoImage
    {answers : List (Sigma Reply)}
    (calls : ∀ answer ∈ answers, opensNoImage answer.1) :
    Fulfilled answers := by
  rintro ⟨⟨op, reply⟩, member, handle⟩
  have call := calls _ member
  cases op <;> first
    | exact call.elim
    | exact handle.elim

/-- The inode of the image of a path, if it has one. -/
def imageInode (sys : Sys) (path : CString) : Option Ino :=
  (buildHiddenFile path).bind sys.fs.entry

/-- The test of the name is passed or does not come. -/
def Named (path : CString) : Prop :=
  match_sysdir path = true ∨ (strrchrSlash path).isSome

/-- How an execution of `dzfile_open` ends. -/
inductive Ends (path : CString) (flags : Nat) (sys : Sys) :
    Ending Op Reply Int Sys → Prop where
  /-- The test of the name dereferences `NULL + 1`. -/
  | slashless
      {answers : List (Sigma Reply)} (unnamed : ¬ Named path) :
      Ends path flags sys ⟨none, sys, answers⟩
  | refused
      {later : Sys} {answers : List (Sigma Reply)}
      (proc : later.proc = sys.proc)
      (fulfilled : Fulfilled answers) :
      Ends path flags sys ⟨some (-1), later, answers⟩
  | visible
      {before later : Sys} {choice : Choice}
      {opened : Except Errno Int} {answers : List (Sigma Reply)}
      (proc : before.proc = sys.proc)
      (plain : imageInode sys path = none)
      (called : before.openFile choice path flags = some (opened, later))
      (fulfilled : Fulfilled answers) :
      Ends path flags sys ⟨some (returnFd opened), later, answers⟩
  | image
      {opened later : Sys} {number : Nat} {ino : Ino} {fd : Int}
      {choice : Choice} {answers : List (Sigma Reply)}
      (converted : imageInode sys path = some ino)
      (free : sys.proc.handles number = none)
      (proc : opened.proc = sys.proc.setHandle number (some ⟨ino, false⟩))
      (called : opened.openFile choice path flags = some (.ok fd, later))
      (fulfilled : Fulfilled answers) :
      Ends path flags sys
        ⟨some fd,
          { later with proc := later.proc.setMap fd (some ⟨fd, number⟩) },
          answers⟩
  /-- `malloc` has failed. -/
  | leaked
      {later : Sys} {number : Nat} {ino : Ino}
      {answers : List (Sigma Reply)}
      (free : sys.proc.handles number = none)
      (proc : later.proc = sys.proc.setHandle number (some ⟨ino, false⟩))
      (unfulfilled : ¬ Fulfilled answers) :
      Ends path flags sys ⟨some (-1), later, answers⟩
  /-- The `open` of the visible file has failed. -/
  | aborted
      {later : Sys} {answers : List (Sigma Reply)}
      (unfulfilled : ¬ Fulfilled answers) :
      Ends path flags sys ⟨none, later, answers⟩

section Executions

variable {platform : Platform} {sys : Sys} {path : CString} {flags : Nat}

/-- Looking first changes nothing about how the call ends. -/
theorem Ends.after
    {result : Option Int} {later : Sys} {before answers : List (Sigma Reply)}
    (quiet : ∀ answer ∈ before, looks answer.1)
    (ends : Ends path flags sys ⟨result, later, answers⟩) :
    Ends path flags sys ⟨result, later, before ++ answers⟩ := by
  cases ends with
  | slashless unnamed => exact .slashless unnamed
  | refused proc fulfilled =>
      exact .refused proc ((fulfilled_append quiet).mpr fulfilled)
  | visible proc plain called fulfilled =>
      exact
        .visible proc plain called ((fulfilled_append quiet).mpr fulfilled)
  | image converted free proc called fulfilled =>
      exact
        .image converted free proc called
          ((fulfilled_append quiet).mpr fulfilled)
  | leaked free proc unfulfilled =>
      exact
        .leaked free proc
          (fun fulfilled =>
            unfulfilled ((fulfilled_append quiet).mp fulfilled))
  | aborted unfulfilled =>
      exact
        .aborted
          (fun fulfilled =>
            unfulfilled ((fulfilled_append quiet).mp fulfilled))

theorem defined_findhiddenFile (path : CString) :
    (findhiddenFile path).Defined := by
  unfold findhiddenFile
  cases buildHiddenFile path with
  | none => trivial
  | some h5name =>
      intro found
      cases found with
      | ok stbuf => trivial
      | error errno => cases errno <;> trivial

theorem defined_openPlain (path : CString) (flags : Nat) :
    (openPlain path flags).Defined := by
  intro found
  have visible : (openVisible path flags).Defined := fun _ => trivial
  cases found with
  | ok stbuf => exact visible
  | error errno =>
      cases errno with
      | ENOENT =>
          intro done
          cases done with
          | false => exact visible
          | true => exact fun _ => visible
      | _ => exact visible

theorem opensNoImage_openPlain (path : CString) (flags : Nat) :
    (openPlain path flags).AllCalls opensNoImage := by
  refine ⟨trivial, fun found => ?_⟩
  have visible : (openVisible path flags).AllCalls opensNoImage :=
    ⟨trivial, fun _ => trivial⟩
  cases found with
  | ok stbuf => exact visible
  | error errno =>
      cases errno with
      | ENOENT =>
          refine ⟨trivial, fun done => ?_⟩
          cases done with
          | false => exact visible
          | true => exact ⟨trivial, fun _ => visible⟩
      | _ => exact visible

theorem ends_openPlain
    {choices : List Choice} {ending : Ending Op Reply Int Sys}
    (plain : imageInode sys path = none)
    (executed :
      (openPlain path flags).execute (kernel platform) sys choices =
        some ending) :
    Ends path flags sys ending := by
  rcases (defined_openPlain path flags).returns executed with
    ⟨ret, returned⟩
  rcases run_openPlain (Prog.run_of_execute executed returned) with
    ⟨db, choice, opened, called, same⟩
  have fulfilled :=
    fulfilled_of_opensNoImage
      ((opensNoImage_openPlain path flags).answers executed)
  rcases ending with ⟨result, later, answers⟩
  subst same
  cases returned
  exact
    .visible (show ({ sys with db := db } : Sys).proc = sys.proc from rfl)
      plain called fulfilled

theorem handle_free_of_h5fopen
    {choice : Choice} {h5name : CString} {h5fd : Int} {later : Sys}
    (called : sys.h5fopen choice h5name = some (some h5fd, later)) :
    sys.proc.handles h5fd = none := by
  unfold Sys.h5fopen Sys.installHandle at called
  cases choice with
  | fail errno => cases called
  | ok number =>
      simp only at called
      split at called
      · cases called
      · rename_i allowed
        rw [not_or, not_not] at allowed
        repeat' split at called
        all_goals cases called
        exact allowed.2

/-- The branch for a converted path, one call after the other. -/
theorem ends_openImage
    {choices : List Choice} {ending : Ending Op Reply Int Sys}
    {h5name : CString} (built : buildHiddenFile path = some h5name)
    (executed :
      (openImage path flags).execute (kernel platform) sys choices =
        some ending) :
    Ends path flags sys ending := by
  unfold openImage at executed
  split at executed
  · rcases Prog.execute_ret_eq_some.mp executed with ⟨rfl, rfl⟩
    exact .refused rfl (fulfilled_of_opensNoImage (by simp))
  · rw [built] at executed
    rcases Prog.execute_call_eq_some.mp executed with
      ⟨first, rest, h5fd, middle, later, rfl, called, opening, rfl⟩
    rcases h5fopen_eq_some called with
      ⟨rfl, rfl⟩ | ⟨number, ino, image, rfl, positive, named, _, _, rfl⟩
    · rcases Prog.execute_ret_eq_some.mp opening with ⟨rfl, rfl⟩
      refine .refused rfl ?_
      rintro ⟨answer, member, handle⟩
      rw [List.mem_singleton.mp member] at handle
      exact handle.elim
    · have free := handle_free_of_h5fopen called
      have converted : imageInode sys path = some ino := by
        simp [imageInode, built, named]
      have isOpen : ¬ ((some (number : Int)).getD (-1) ≤ 0) := by
        simp only [Option.getD_some]
        omega
      have handle :
          ∀ answers,
            ∃ answer ∈
              (⟨.h5fopen h5name, some (number : Int)⟩ : Sigma Reply) ::
                answers,
              isHandle answer :=
        fun answers => ⟨_, List.mem_cons_self, trivial⟩
      change
        (if (some (number : Int)).getD (-1) ≤ 0 then _ else _ :
            Call Int).execute (kernel platform) _ rest =
          some later at opening
      rw [if_neg isOpen] at opening
      rcases Prog.execute_call_eq_some.mp opening with
        ⟨second, rest, allocated, middle, after, rfl, answered, allocated',
          rfl⟩
      have same :
          middle =
            { sys with
              proc := sys.proc.setHandle number (some ⟨ino, false⟩) } := by
        cases second with
        | ok number =>
            cases answered
            rfl
        | fail errno =>
            cases answered
            rfl
      subst same
      cases allocated with
      | false =>
          rcases Prog.execute_ret_eq_some.mp allocated' with ⟨rfl, rfl⟩
          refine .leaked free rfl ?_
          intro fulfilled
          exact
            fulfilled (handle _) _
              (List.mem_cons_of_mem _ List.mem_cons_self) trivial
      | true =>
          rcases Prog.execute_call_eq_some.mp allocated' with
            ⟨third, rest, opened, middle, ending, rfl, visible, mapping,
              rfl⟩
          cases opened with
          | error errno =>
              rcases Prog.execute_fault_eq_some.mp mapping with ⟨rfl, rfl⟩
              refine .aborted ?_
              intro fulfilled
              refine
                fulfilled (handle _) ⟨.openFile path flags, .error errno⟩
                  ?_ trivial
              exact
                List.mem_cons_of_mem _
                  (List.mem_cons_of_mem _ List.mem_cons_self)
          | ok fd =>
              rcases Sys.openFile_eq_some visible with
                ⟨entered, _, _, rfl, _, _, _⟩
              change
                ((if (entered : Int) = -1 then _ else _ : Call Unit) >>=
                    fun _ => Prog.ret (entered : Int)).execute
                    (kernel platform) middle rest =
                  some ending at mapping
              rw [if_neg (by omega)] at mapping
              rcases Prog.execute_call_eq_some.mp mapping with
                ⟨fourth, rest, _, mapped, last, rfl, added, returned, rfl⟩
              rcases Prog.execute_ret_eq_some.mp returned with ⟨rfl, rfl⟩
              cases added
              refine .image converted free rfl visible ?_
              rintro - answer member failure
              simp only [Ending.after, List.mem_cons, List.not_mem_nil,
                or_false] at member
              rcases member with rfl | rfl | rfl | rfl <;> exact failure

/-- An execution of `dzfile_open`, by what the look for an image leads to. -/
inductive Looked
    (platform : Platform) (path : CString) (flags : Nat) (sys : Sys) :
    Ending Op Reply Int Sys → Prop where
  | slashless (unnamed : ¬ Named path) :
      Looked platform path flags sys ⟨none, sys, []⟩
  | refused
      {answers : List (Sigma Reply)}
      (quiet : ∀ answer ∈ answers, looks answer.1) :
      Looked platform path flags sys ⟨some (-1), sys, answers⟩
  | plain
      {answers : List (Sigma Reply)} {later : Ending Op Reply Int Sys}
      {rest : List Choice} {h5name : CString}
      (quiet : ∀ answer ∈ answers, looks answer.1)
      (built : buildHiddenFile path = some h5name)
      (absent : sys.fs.entry h5name = none)
      (opening :
        (openPlain path flags).execute (kernel platform) sys rest =
          some later) :
      Looked platform path flags sys
        ⟨later.result, later.environment, answers ++ later.answers⟩
  | image
      {answers : List (Sigma Reply)} {later : Ending Op Reply Int Sys}
      {rest : List Choice} {h5name : CString}
      (quiet : ∀ answer ∈ answers, looks answer.1)
      (built : buildHiddenFile path = some h5name)
      (opening :
        (openImage path flags).execute (kernel platform) sys rest =
          some later) :
      Looked platform path flags sys
        ⟨later.result, later.environment, answers ++ later.answers⟩

theorem looked_of_execute
    {choices : List Choice} {ending : Ending Op Reply Int Sys}
    (executed :
      (dzfile_open path flags).execute (kernel platform) sys choices =
        some ending) :
    Looked platform path flags sys ending := by
  unfold dzfile_open at executed
  split at executed
  · rcases Prog.execute_ret_eq_some.mp executed with ⟨rfl, rfl⟩
    exact .refused (by simp)
  · rename_i notSysdir
    cases found : strrchrSlash path with
    | none =>
        rw [found] at executed
        rcases Prog.execute_fault_eq_some.mp executed with ⟨rfl, rfl⟩
        refine .slashless ?_
        rintro (sysdir | slash)
        · exact notSysdir sysdir
        · simp [found] at slash
    | some bname =>
        rw [found] at executed
        simp only at executed
        split at executed
        · rcases Prog.execute_ret_eq_some.mp executed with ⟨rfl, rfl⟩
          exact .refused (by simp)
        · rcases
            Prog.execute_bind_eq_some (defined_findhiddenFile path)
              executed with
            ⟨before, rest, rc, middle, answers, later, rfl, looked, opening,
              rfl⟩
          have quiet := (looks_findhiddenFile path).answers looked
          have nothing : answers ++ [] = answers := List.append_nil answers
          rcases run_findhiddenFile (Prog.run_of_execute looked rfl) with
            ⟨same, cases_⟩
          obtain rfl : middle = sys := same
          rcases cases_ with
            (rfl | rfl) | ⟨h5name, built, ⟨rfl, absent⟩ | ⟨rfl, present⟩⟩
          · rcases Prog.execute_ret_eq_some.mp opening with ⟨rfl, rfl⟩
            rw [nothing]
            exact .refused quiet
          · rcases Prog.execute_ret_eq_some.mp opening with ⟨rfl, rfl⟩
            rw [nothing]
            exact .refused quiet
          · exact .plain quiet built absent opening
          · exact .image quiet built opening

/-- Every execution of `dzfile_open` ends in one of the ways of `Ends`. -/
theorem ends_of_execute
    {choices : List Choice} {ending : Ending Op Reply Int Sys}
    (executed :
      (dzfile_open path flags).execute (kernel platform) sys choices =
        some ending) :
    Ends path flags sys ending := by
  cases looked_of_execute executed with
  | slashless unnamed => exact .slashless unnamed
  | refused quiet =>
      have nothing : Fulfilled [] := fulfilled_of_opensNoImage (by simp)
      have fulfilled := (fulfilled_append quiet).mpr nothing
      rw [List.append_nil] at fulfilled
      exact .refused rfl fulfilled
  | plain quiet built absent opening =>
      have unconverted : imageInode sys path = none := by
        simp [imageInode, built, absent]
      exact (ends_openPlain unconverted opening).after quiet
  | image quiet built opening =>
      exact (ends_openImage built opening).after quiet

end Executions

/-! ## Runs -/

/--
The process, and for each descriptor number the image of the file for which
`dzfile_open` returned it last; or the process has come to its end.
-/
inductive State where
  | running (sys : Sys) (origin : Int → Option Ino)
  | ended

/-- A process that has descriptors but no handle and no entry. -/
def State.start
    (fs : FileSystem) (db : Metadata.Db) (fds : Int → Option OpenFile) :
    State :=
  .running ⟨fs, db, ⟨fds, fun _ => none, fun _ => none⟩⟩ fun _ => none

/-- The calls of the program. -/
inductive Label where
  | dzfile_open (path : CString) (flags : Nat) (choices : List Choice)
  | dzfile_close (fd : Int) (choices : List Choice)

/-- The state after `dzfile_open` on a path with the given image. -/
def afterOpen
    (origin : Int → Option Ino) (image : Option Ino)
    (ending : Ending Op Reply Int Sys) : State :=
  match ending.result with
  | none => .ended
  | some fd =>
      .running ending.environment
        (if fd < 0 then origin else Function.update origin fd image)

/-- One call. -/
def step (platform : Platform) : State → Label → Option State
  | .running sys origin, .dzfile_open path flags choices =>
      ((Api.dzfile_open path flags).execute (kernel platform) sys
          choices).map
        (afterOpen origin (imageInode sys path))
  | .running sys origin, .dzfile_close fd choices =>
      ((Api.dzfile_close fd).run (kernel platform) sys choices).map
        fun answer => .running answer.2 origin
  | .ended, _ => none

/-- The map says which open descriptors read from which image. -/
structure Exact (proc : Process) (origin : Int → Option Ino) : Prop where
  /-- The keys are the open descriptors of converted files. -/
  keys :
    ∀ fd,
      (proc.h5fdmap fd).isSome ↔ (proc.fds fd).isSome ∧ (origin fd).isSome
  /-- Each key maps to an open handle of that file's image. -/
  handles :
    ∀ fd dzfd, proc.h5fdmap fd = some dzfd →
      ∃ ino, origin fd = some ino ∧
        proc.handles dzfd.h5fd = some ⟨ino, false⟩
  /-- No other handle is open. -/
  used :
    ∀ h5fd, (proc.handles h5fd).isSome →
      ∃ fd dzfd, proc.h5fdmap fd = some dzfd ∧ dzfd.h5fd = h5fd

/-- The process runs on and its map is exact. -/
def State.Exact : State → Prop
  | .running sys origin => DescriptorMap.Exact sys.proc origin
  | .ended => False

/--
The path has a slash or lies in `.dzs`, and `malloc` and `open` succeed if
`H5Fopen` does.
-/
def Completes (platform : Platform) : State → Label → Prop
  | .running sys _, .dzfile_open path flags choices =>
      Named path ∧
        ∀ ending,
          (Api.dzfile_open path flags).execute (kernel platform) sys
              choices =
            some ending →
              Fulfilled ending.answers
  | _, _ => True

/-- The invariant: no two keys share a handle, and entries know their key. -/
structure Sound (proc : Process) (origin : Int → Option Ino) : Prop
    extends Exact proc origin where
  own : ∀ fd dzfd, proc.h5fdmap fd = some dzfd → dzfd.fd = fd
  apart :
    ∀ first second dzfd dzfd', proc.h5fdmap first = some dzfd →
      proc.h5fdmap second = some dzfd' → dzfd.h5fd = dzfd'.h5fd →
        first = second

section Steps

variable {proc : Process} {origin : Int → Option Ino}

theorem Sound.key_none
    (sound : Sound proc origin) {fd : Int} (closed : proc.fds fd = none) :
    proc.h5fdmap fd = none := by
  rw [← Option.not_isSome_iff_eq_none, sound.keys fd, closed]
  rintro ⟨absent, _⟩
  cases absent

/-- A descriptor that does not belong to a converted file. -/
theorem Sound.setFd
    (sound : Sound proc origin) {fd : Int} {file : Option OpenFile}
    {image : Int → Option Ino}
    (unmapped : proc.h5fdmap fd = none)
    (plain : file = none ∨ image fd = none)
    (others : ∀ other, other ≠ fd → image other = origin other) :
    Sound (proc.setFd fd file) image where
  keys other := by
    by_cases same : other = fd
    · subst same
      simp only [Process.setFd, Function.update_self, unmapped]
      rcases plain with rfl | plain
      · simp
      · simp [plain]
    · simp only [Process.setFd, Function.update_of_ne same, others other same]
      exact sound.keys other
  handles other dzfd mapped := by
    have different : other ≠ fd := by
      rintro rfl
      rw [show proc.h5fdmap other = some dzfd from mapped] at unmapped
      cases unmapped
    rw [others other different]
    exact sound.handles other dzfd mapped
  used := sound.used
  own := sound.own
  apart := sound.apart

/-- A converted file is opened under a free number with a free handle. -/
theorem Sound.openImage
    (sound : Sound proc origin) {fd h5fd : Int} {file : OpenFile} {ino : Ino}
    (freeFd : proc.fds fd = none) (freeHandle : proc.handles h5fd = none) :
    Sound
      (((proc.setHandle h5fd (some ⟨ino, false⟩)).setFd fd
        (some file)).setMap fd (some ⟨fd, h5fd⟩))
      (Function.update origin fd (some ino)) := by
  have unmapped := sound.key_none freeFd
  have other_handle :
      ∀ other dzfd, proc.h5fdmap other = some dzfd → dzfd.h5fd ≠ h5fd := by
    rintro other dzfd mapped rfl
    rcases sound.handles other dzfd mapped with ⟨_, _, held⟩
    rw [freeHandle] at held
    cases held
  constructor
  · constructor
    · intro other
      by_cases same : other = fd
      · subst same
        simp [Process.setMap, Process.setFd]
      · simp only [Process.setMap, Process.setFd, Process.setHandle,
          Function.update_of_ne same]
        exact sound.keys other
    · intro other dzfd mapped
      by_cases same : other = fd
      · subst same
        simp only [Process.setMap, Function.update_self, Option.some.injEq]
          at mapped
        subst mapped
        simp [Process.setMap, Process.setFd, Process.setHandle]
      · simp only [Process.setMap, Process.setFd, Process.setHandle,
          Function.update_of_ne same] at mapped ⊢
        rw [Function.update_of_ne (other_handle other dzfd mapped)]
        exact sound.handles other dzfd mapped
    · intro handle held
      by_cases same : handle = h5fd
      · subst same
        exact ⟨fd, ⟨fd, handle⟩, by simp [Process.setMap], rfl⟩
      · simp only [Process.setMap, Process.setFd, Process.setHandle,
          Function.update_of_ne same] at held
        rcases sound.used handle held with ⟨other, dzfd, mapped, rfl⟩
        refine ⟨other, dzfd, ?_, rfl⟩
        have different : other ≠ fd := by
          rintro rfl
          rw [unmapped] at mapped
          cases mapped
        simpa only [Process.setMap, Process.setFd, Process.setHandle,
          Function.update_of_ne different] using mapped
  · intro other dzfd mapped
    by_cases same : other = fd
    · subst same
      simp only [Process.setMap, Function.update_self, Option.some.injEq]
        at mapped
      rw [← mapped]
    · simp only [Process.setMap, Process.setFd, Process.setHandle,
        Function.update_of_ne same] at mapped
      exact sound.own other dzfd mapped
  · intro first second dzfd dzfd' firstMapped secondMapped shared
    by_cases firstSame : first = fd
    · by_cases secondSame : second = fd
      · rw [firstSame, secondSame]
      · subst firstSame
        simp only [Process.setMap, Process.setFd, Process.setHandle,
          Function.update_self, Function.update_of_ne secondSame,
          Option.some.injEq] at firstMapped secondMapped
        subst firstMapped
        exact (other_handle second dzfd' secondMapped shared.symm).elim
    · by_cases secondSame : second = fd
      · subst secondSame
        simp only [Process.setMap, Process.setFd, Process.setHandle,
          Function.update_self, Function.update_of_ne firstSame,
          Option.some.injEq] at firstMapped secondMapped
        subst secondMapped
        exact (other_handle first dzfd firstMapped shared).elim
      · simp only [Process.setMap, Process.setFd, Process.setHandle,
          Function.update_of_ne firstSame,
          Function.update_of_ne secondSame] at firstMapped secondMapped
        exact
          sound.apart first second dzfd dzfd' firstMapped secondMapped shared

/-- The descriptor of a converted file is closed with its handle. -/
theorem Sound.closeImage
    (sound : Sound proc origin) {fd : Int} {dzfd : Dzfd}
    (mapped : proc.h5fdmap fd = some dzfd) :
    Sound
      (((proc.setHandle dzfd.h5fd none).setMap fd none).setFd fd none)
      origin := by
  have remains :
      ∀ other entry,
        Function.update proc.h5fdmap fd none other = some entry →
          other ≠ fd ∧ proc.h5fdmap other = some entry := by
    intro other entry found
    by_cases same : other = fd
    · subst same
      simp at found
    · rw [Function.update_of_ne same] at found
      exact ⟨same, found⟩
  constructor
  · constructor
    · intro other
      by_cases same : other = fd
      · subst same
        simp [Process.setMap, Process.setFd]
      · simp only [Process.setMap, Process.setFd, Process.setHandle,
          Function.update_of_ne same]
        exact sound.keys other
    · intro other entry found
      rcases remains other entry found with ⟨different, found⟩
      have otherHandle : entry.h5fd ≠ dzfd.h5fd := by
        intro shared
        exact different (sound.apart other fd entry dzfd found mapped shared)
      simp only [Process.setMap, Process.setFd, Process.setHandle,
        Function.update_of_ne otherHandle]
      exact sound.handles other entry found
    · intro handle held
      by_cases same : handle = dzfd.h5fd
      · subst same
        simp [Process.setMap, Process.setFd, Process.setHandle] at held
      · simp only [Process.setMap, Process.setFd, Process.setHandle,
          Function.update_of_ne same] at held
        rcases sound.used handle held with ⟨other, entry, found, rfl⟩
        refine ⟨other, entry, ?_, rfl⟩
        have different : other ≠ fd := by
          rintro rfl
          rw [mapped] at found
          cases found
          exact same rfl
        simpa only [Process.setMap, Process.setFd, Process.setHandle,
          Function.update_of_ne different] using found
  · intro other entry found
    exact sound.own other entry (remains other entry found).2
  · intro first second entry entry' firstFound secondFound shared
    exact
      sound.apart first second entry entry' (remains first entry firstFound).2
        (remains second entry' secondFound).2 shared

end Steps

section Calls

variable {platform : Platform}

theorem run_closeFd
    {sys later : Sys} {fd ret : Int} {choices : List Choice}
    (ran :
      (closeFd fd).run (kernel platform) sys choices = some (ret, later)) :
    later.proc = sys.proc.setFd fd none := by
  rcases Prog.run_call_eq_some.mp ran with
    ⟨choice, rest, closed, middle, rfl, called, returned⟩
  have same := Sys.close_eq_some called
  cases closed with
  | ok done =>
      rcases Prog.run_ret_eq_some.mp returned with ⟨_, _, rfl⟩
      rw [same]
  | error errno =>
      rcases Prog.run_ret_eq_some.mp returned with ⟨_, _, rfl⟩
      rw [same]

/-- What `dzfile_close` does to the tables of the process. -/
theorem run_dzfile_close
    {sys later : Sys} {fd ret : Int} {choices : List Choice}
    (ran :
      (Api.dzfile_close fd).run (kernel platform) sys choices =
        some (ret, later)) :
    (sys.proc.h5fdmap fd = none ∧ later.proc = sys.proc.setFd fd none) ∨
      ∃ dzfd, sys.proc.h5fdmap fd = some dzfd ∧
        later.proc =
          ((sys.proc.setHandle dzfd.h5fd none).setMap dzfd.fd none).setFd fd
            none := by
  rcases Prog.run_call_eq_some.mp ran with
    ⟨choice, rest, found, middle, rfl, looked, closing⟩
  cases looked
  cases mapped : sys.proc.h5fdmap fd with
  | none =>
      rw [mapped] at closing
      exact Or.inl ⟨rfl, run_closeFd closing⟩
  | some dzfd =>
      rw [mapped] at closing
      rcases Prog.run_call_eq_some.mp closing with
        ⟨choice, rest, success, middle, rfl, closed, removing⟩
      rcases Prog.run_call_eq_some.mp removing with
        ⟨choice, rest, done, after, rfl, removed, ended⟩
      cases removed
      refine Or.inr ⟨dzfd, rfl, ?_⟩
      rw [run_closeFd ended]
      rcases Sys.h5fclose_eq_some closed with
        ⟨absent, rfl⟩ | ⟨handle, _, rfl⟩
      · have same :
            middle.proc.setHandle dzfd.h5fd none = middle.proc := by
          rw [Process.setHandle, ← absent, Function.update_eq_self]
        rw [same]
      · rfl

/-- The invariant of the running process. -/
def State.Sound : State → Prop
  | .running sys origin => DescriptorMap.Sound sys.proc origin
  | .ended => False

theorem State.Sound.exact
    {state : State} (sound : state.Sound) : state.Exact := by
  cases state with
  | running sys origin => exact sound.toExact
  | ended => exact sound.elim

/-- A `dzfile_open` whose calls succeed keeps the invariant. -/
theorem sound_afterOpen
    {sys : Sys} {origin : Int → Option Ino} {path : CString} {flags : Nat}
    {ending : Ending Op Reply Int Sys}
    (sound : Sound sys.proc origin) (named : Named path)
    (fulfilled : Fulfilled ending.answers)
    (ends : Ends path flags sys ending) :
    (afterOpen origin (imageInode sys path) ending).Sound := by
  have opened :
      ∀ number : Nat, ¬ ((number : Int) < 0) := by
    intro number
    omega
  cases ends with
  | slashless unnamed => exact (unnamed named).elim
  | refused proc _ =>
      show DescriptorMap.Sound _ _
      rw [proc]
      exact sound
  | @visible before later choice opened_ _ proc plain called _ =>
      cases opened_ with
      | error errno =>
          show DescriptorMap.Sound _ _
          rw [Sys.openFile_eq_error called, proc]
          exact sound
      | ok fd =>
          rcases Sys.openFile_eq_some called with
            ⟨number, ino, fs, rfl, free, rfl, _⟩
          rw [proc] at free
          show DescriptorMap.Sound (before.proc.setFd _ _) (if _ then _ else _)
          rw [returnFd_ok, if_neg (opened number), proc, plain]
          apply sound.setFd (sound.key_none free)
          · exact Or.inr (Function.update_self _ _ _)
          · intro other different
            exact Function.update_of_ne different _ _
  | @image before later number ino fd choice _ converted free proc called _ =>
      rcases Sys.openFile_eq_some called with
        ⟨entered, target, fs, rfl, freeFd, rfl, _⟩
      rw [proc] at freeFd
      show
        DescriptorMap.Sound ((before.proc.setFd _ _).setMap _ _)
          (if _ then _ else _)
      rw [if_neg (opened entered), proc, converted]
      exact sound.openImage freeFd free
  | leaked _ _ unfulfilled => exact (unfulfilled fulfilled).elim
  | aborted unfulfilled => exact (unfulfilled fulfilled).elim

/-- A `dzfile_open` that fails half way leaves a handle or ends the process. -/
theorem not_exact_afterOpen
    {sys : Sys} {origin : Int → Option Ino} {path : CString} {flags : Nat}
    {ending : Ending Op Reply Int Sys}
    (sound : Sound sys.proc origin)
    (failed : ¬ Named path ∨ ¬ Fulfilled ending.answers)
    (fatal : ¬ Named path → ending.result = none)
    (ends : Ends path flags sys ending) :
    ¬ (afterOpen origin (imageInode sys path) ending).Exact := by
  by_cases named : Named path
  · have unfulfilled : ¬ Fulfilled ending.answers := by
      rcases failed with unnamed | unfulfilled
      · exact (unnamed named).elim
      · exact unfulfilled
    cases ends with
    | slashless unnamed => exact (unnamed named).elim
    | refused _ fulfilled => exact (unfulfilled fulfilled).elim
    | visible _ _ _ fulfilled => exact (unfulfilled fulfilled).elim
    | image _ _ _ _ fulfilled => exact (unfulfilled fulfilled).elim
    | aborted _ => exact id
    | @leaked later number ino _ free proc _ =>
        intro exact_
        have held : (later.proc.handles number).isSome := by
          rw [proc]
          simp [Process.setHandle]
        rcases exact_.used number held with ⟨fd, dzfd, mapped, same⟩
        rw [proc] at mapped
        rcases sound.handles fd dzfd mapped with ⟨_, _, reading⟩
        rw [same, free] at reading
        cases reading
  · simp only [afterOpen, fatal named]
    exact id

/-- The test of a name without a slash is fatal. -/
theorem execute_unnamed
    {sys : Sys} {path : CString} {flags : Nat} {choices : List Choice}
    {ending : Ending Op Reply Int Sys}
    (unnamed : ¬ Named path)
    (executed :
      (Api.dzfile_open path flags).execute (kernel platform) sys choices =
        some ending) :
    ending.result = none := by
  rw [Named, not_or, Bool.not_eq_true, Option.not_isSome_iff_eq_none]
    at unnamed
  unfold Api.dzfile_open at executed
  rw [if_neg (by simp [unnamed.1]), unnamed.2] at executed
  rcases Prog.execute_fault_eq_some.mp executed with ⟨rfl, rfl⟩
  rfl

/--
The map is exact throughout a run exactly when every `dzfile_open` of the run
completes what it begins.
-/
theorem exact_throughout_iff_completes
    (platform : Platform) (fs : FileSystem) (db : Metadata.Db)
    (fds : Int → Option OpenFile)
    {labels : List Label} {final : State}
    (ran :
      run (step platform) (.start fs db fds) labels = some final) :
    Throughout (step platform) State.Exact (.start fs db fds) labels ↔
      Along (step platform) (Completes platform) (.start fs db fds)
        labels := by
  apply
    throughout_iff_along State.Sound
      (fun _ sound => sound.exact) ?_ ?_ ?_ ran
  · intro state label next sound completes stepped
    cases state with
    | ended => exact sound.elim
    | running sys origin =>
        cases label with
        | dzfile_open path flags choices =>
            rcases Option.map_eq_some_iff.mp stepped with
              ⟨ending, executed, rfl⟩
            exact
              sound_afterOpen sound completes.1
                (completes.2 ending executed) (ends_of_execute executed)
        | dzfile_close fd choices =>
            rcases Option.map_eq_some_iff.mp stepped with
              ⟨⟨ret, later⟩, closed, rfl⟩
            show DescriptorMap.Sound later.proc origin
            rcases run_dzfile_close closed with
              ⟨unmapped, same⟩ | ⟨dzfd, mapped, same⟩
            · rw [same]
              exact sound.setFd unmapped (Or.inl rfl) (fun _ _ => rfl)
            · rw [same, sound.own fd dzfd mapped]
              exact sound.closeImage mapped
  · intro state label next sound incomplete stepped
    cases state with
    | ended => exact sound.elim
    | running sys origin =>
        cases label with
        | dzfile_close fd choices => exact (incomplete trivial).elim
        | dzfile_open path flags choices =>
            rcases Option.map_eq_some_iff.mp stepped with
              ⟨ending, executed, rfl⟩
            apply not_exact_afterOpen sound
            · by_cases named : Named path
              · right
                intro fulfilled
                apply incomplete
                refine ⟨named, ?_⟩
                intro other otherExecuted
                rw [executed] at otherExecuted
                cases otherExecuted
                exact fulfilled
              · exact Or.inl named
            · intro unnamed
              exact execute_unnamed unnamed executed
            · exact ends_of_execute executed
  · constructor
    · constructor
      · intro fd
        simp
      · intro fd dzfd mapped
        cases mapped
      · intro h5fd held
        cases held
    · intro fd dzfd mapped
      cases mapped
    · intro first second dzfd dzfd' mapped
      cases mapped

end Calls

/-- `/f` with its placeholder and an image. -/
def convertedStore : FileSystem :=
  (Sys.initial.fs.link ['/', 'f'] (.file [0])).link
    ['/', '.', 'f', '.', 'D', 'Z', 'F']
    (.image { Image.H5Image.created with writer := false })

/-- `/f` is opened, and the descriptor is closed again. -/
def openAndClose : List Label :=
  [.dzfile_open ['/', 'f'] O_RDONLY [.ok 0, .ok 1, .ok 0, .ok 3, .ok 0],
    .dzfile_close 3 [.ok 0, .ok 0, .ok 0, .ok 0]]

theorem exact_throughout_iff_completes_openAndClose :
    Throughout (step storingPlatform) State.Exact
        (.start convertedStore .empty fun _ => none) openAndClose ↔
      Along (step storingPlatform) (Completes storingPlatform)
        (.start convertedStore .empty fun _ => none) openAndClose := by
  have ran :
      run (step storingPlatform)
          (.start convertedStore .empty fun _ => none) openAndClose =
        some _ :=
    rfl
  exact exact_throughout_iff_completes _ _ _ _ ran

/-- After a failing `malloc` the handle of the image is open and unmapped. -/
theorem failed_malloc_leaks_handle :
    ¬ ∀ labels final,
        run (step storingPlatform)
            (.start convertedStore .empty fun _ => none) labels =
          some final →
            final.Exact := by
  intro always
  have ran :
      run (step storingPlatform)
          (.start convertedStore .empty fun _ => none)
          [.dzfile_open ['/', 'f'] O_RDONLY [.ok 0, .ok 1, .fail .ENOMEM]] =
        some _ :=
    rfl
  have exact_ := always _ _ ran
  rcases exact_.used 1 rfl with ⟨fd, dzfd, mapped, _⟩
  cases mapped

end DZFile.DescriptorMap
