import DZFile.Contents
import DZFile.GetContent

/-!
# What a get makes of the store

A whole run of `dzfile_get`, whatever its calls return: the visible file of
the destination receives some bytes, or nothing changes.  Opening the
destination empties it, also when it is the source.  If no call is refused and
no transfer is cut short, the bytes are the content the source reads back as
once the destination has been emptied.
-/

namespace DZFile.StoreGet

open DZFile.ByteSeq
open DZFile.Interaction
open DZFile.BoundedCalls
open DZFile.WholeRuns
open DZFile.Names
open DZFile.Codec
open DZFile.Image
open DZFile.Kernel
open DZFile.Api
open DZFile.Opening
open DZFile.Converter
open DZFile.Pread
open DZFile.Get
open DZFile.GetContent
open DZFile.Reaching
open DZFile.Confinement
open DZFile.Contents

/-- The entry after its visible file has received the bytes. -/
def receives (bytes : Bytes) : Option Entry → Option Entry
  | none => some (.plain bytes)
  | some (.plain _) => some (.plain bytes)
  | some (.converted content _) => some (.converted content bytes)
  | some .directory => some .directory

/-! ## Its calls -/

/-- A call that makes, moves or removes no name but by opening it. -/
def Files : Op → Prop
  | .rename _ _ => False
  | .unlink _ => False
  | .mkdir _ => False
  | .h5fcreate _ => False
  | _ => True

/-- A call of a get: it opens the destination and otherwise reads. -/
def Gets (dst_file : CString) (op : Op) : Prop :=
  Confines (· = dst_file) op ∧ Files op

section Calls

variable {dst_file : CString}

theorem files_of_opens
    {path : CString} {flags : Nat} {op : Op} (opening : opens path flags op) :
    Files op := by
  cases op <;> first
    | exact opening.elim
    | trivial

theorem gets_dzfile_open (src_file : CString) :
    (dzfile_open src_file O_RDONLY).AllCalls (Gets dst_file) := by
  apply (opens_dzfile_open src_file O_RDONLY).mono
  intro op opening
  exact
    ⟨confines_of_opens (Or.inr (by decide)) opening, files_of_opens opening⟩

theorem gets_out (fd : Int) : (out fd).AllCalls (Gets dst_file) := by
  have closing : (closeFd fd).AllCalls (Gets dst_file) := by
    refine ⟨⟨trivial, trivial⟩, fun closed => ?_⟩
    cases closed <;> trivial
  unfold out
  split
  · have closes : (dzfile_close fd).AllCalls (Gets dst_file) := by
      refine ⟨⟨trivial, trivial⟩, fun found => ?_⟩
      cases found with
      | none => exact closing
      | some dzfd =>
          exact
            ⟨⟨trivial, trivial⟩, fun _ =>
              ⟨⟨trivial, trivial⟩, fun _ => closing⟩⟩
    exact closes.bind fun _ => trivial
  · trivial

theorem gets_dzfile_pread
    (libs : Libs) (dstlen fd : Int) (count : Nat) (offset : Int) :
    (dzfile_pread libs dstlen fd count offset).AllCalls (Gets dst_file) := by
  refine ⟨⟨trivial, trivial⟩, fun found => ?_⟩
  cases found with
  | none => exact ⟨⟨trivial, trivial⟩, fun _ => trivial⟩
  | some dzfd =>
      show (if dzfd.h5fd ≤ 0 then _ else _ : Call _).AllCalls _
      split
      · trivial
      · refine ⟨⟨trivial, trivial⟩, fun image => ?_⟩
        cases image <;> trivial

theorem gets_copy (libs : Libs) (dstlen : Nat → Int) (transfer : Transfer) :
    (copy libs dstlen transfer).AllCalls (Gets dst_file) := by
  unfold copy
  refine (gets_dzfile_pread _ _ _ _ _).bind fun result => ?_
  cases result with
  | fault => trivial
  | diverges => trivial
  | returned ret copied =>
      show (if wrap32 ret < 0 then _ else _ : GetCall).AllCalls _
      split
      · exact gets_out transfer.fd
      · split
        · exact gets_out transfer.fd
        · refine ⟨⟨trivial, trivial⟩, fun written => ?_⟩
          show
            (if wrap32 (returnCount written) < 0 then _ else _ :
              GetCall).AllCalls _
          split
          · exact gets_out transfer.fd
          · trivial

theorem gets_dzfile_get (src_file : CString) :
    (dzfile_get src_file dst_file).AllCalls (Gets dst_file) := by
  refine ⟨⟨trivial, trivial⟩, fun ret => ?_⟩
  show (if ret < 0 then _ else _ : GetCall).AllCalls _
  split
  · trivial
  · refine (gets_dzfile_open src_file).bind fun fd => ?_
    split
    · trivial
    · exact ⟨⟨Or.inl rfl, trivial⟩, fun _ => trivial⟩

end Calls

/-! ## The visible file of the destination -/

section Filing

variable
    {platform : Platform} {start : FileSystem} {path : CString}
    {sys later : Sys} {choice : Choice}

/--
It is what it was, or a file, and its name stands for what it did; and no
handle can write.
-/
structure Filing (path : CString) (start : FileSystem) (sys : Sys) :
    Prop where
  named :
    ∀ ino, start.entry path = some ino → sys.fs.entry path = some ino
  visible :
    sys.fs.lookup path = start.lookup path ∨
      ∃ bytes, sys.fs.lookup path = some (.file bytes)
  readers :
    ∀ h5fd handle, sys.proc.handles h5fd = some handle →
      handle.writing = false

/-- Another content of a file. -/
theorem Filing.put
    (filing : Filing path start sys) {ino : Ino} {bytes : Bytes}
    (fs : later.fs = sys.fs.put ino (.file bytes))
    (handles : later.proc.handles = sys.proc.handles) :
    Filing path start later where
  named := by
    rw [fs]
    exact filing.named
  visible := by
    rw [fs]
    by_cases named : sys.fs.entry path = some ino
    · exact Or.inr ⟨bytes, lookup_of_entry named (Function.update_self _ _ _)⟩
    · have same :
          (sys.fs.put ino (.file bytes)).lookup path =
            sys.fs.lookup path := by
        unfold FileSystem.lookup
        cases found : sys.fs.entry path with
        | none => simp [found]
        | some other =>
            have different : other ≠ ino := by
              rintro rfl
              exact named found
            simp [found, Function.update_of_ne different]
      rw [same]
      exact filing.visible
  readers := by
    rw [handles]
    exact filing.readers

/-- A new file. -/
theorem Filing.link
    (filing : Filing path start sys) {name : CString}
    (absent : sys.fs.entry name = none)
    (fs : later.fs = sys.fs.link name (.file []))
    (handles : later.proc.handles = sys.proc.handles) :
    Filing path start later where
  named ino found := by
    have here := filing.named ino found
    have other : path ≠ name := by
      rintro rfl
      rw [absent] at here
      cases here
    rw [fs, FileSystem.entry_link, Function.update_of_ne other]
    exact here
  visible := by
    rw [fs]
    by_cases named : path = name
    · subst named
      exact Or.inr ⟨[], by simp [FileSystem.lookup]⟩
    · have same :
          (sys.fs.link name (.file [])).lookup path =
            sys.fs.lookup path := by
        unfold FileSystem.lookup
        cases found : sys.fs.entry path with
        | none => simp [found, Function.update_of_ne named]
        | some ino =>
            simp [found, Function.update_of_ne named,
              Function.update_of_ne (FileSystem.entry_ne_fresh found)]
      rw [same]
      exact filing.visible
  readers := by
    rw [handles]
    exact filing.readers

theorem Filing.same
    (filing : Filing path start sys) (fs : later.fs = sys.fs)
    (handles : later.proc.handles = sys.proc.handles) :
    Filing path start later where
  named := by
    rw [fs]
    exact filing.named
  visible := by
    rw [fs]
    exact filing.visible
  readers := by
    rw [handles]
    exact filing.readers

theorem Filing.openFile
    (filing : Filing path start sys) {name : CString} {flags : Nat}
    {opened : Except Errno Int}
    (called : sys.openFile choice name flags = some (opened, later)) :
    Filing path start later := by
  cases opened with
  | error errno =>
      rw [Sys.openFile_eq_error called]
      exact filing
  | ok fd =>
      rcases Sys.openFile_eq_some called with
        ⟨number, ino, fs, _, _, rfl,
          ⟨absent, _, _, rfl⟩ | ⟨_, rfl | ⟨_, rfl⟩⟩⟩
      · apply filing.link absent
        · rfl
        · rfl
      · exact filing.same rfl rfl
      · exact filing.put rfl rfl

theorem Filing.h5dwrite
    (filing : Filing path start sys) {h5fd : Int} {name : Image.Dataset}
    {data : Bytes} {written : Bool}
    (called : sys.h5dwrite choice h5fd name data = some (written, later)) :
    Filing path start later := by
  rcases Sys.h5dwrite_eq_some called with
    ⟨_, rfl⟩ | ⟨rfl, _⟩
  · exact filing
  · rcases writing_of_h5dwrite called with ⟨handle, held, writing⟩
    rw [filing.readers h5fd handle held] at writing
    cases writing

theorem Filing.h5fclose
    (filing : Filing path start sys) {h5fd : Int} {success : Bool}
    (called : sys.h5fclose choice h5fd = some (success, later)) :
    Filing path start later := by
  rcases Sys.h5fclose_eq_some called with ⟨_, rfl⟩ | ⟨handle, held, rfl⟩
  · exact filing
  · have reading := filing.readers h5fd handle held
    constructor
    · simp only [Sys.released, reading]
      exact filing.named
    · simp only [Sys.released, reading]
      exact filing.visible
    · intro other found isOpen
      by_cases same : other = h5fd
      · subst same
        simp [Process.setHandle] at isOpen
      · simp only [Process.setHandle, Function.update_of_ne same] at isOpen
        exact filing.readers other found isOpen

theorem Filing.h5fopen
    (filing : Filing path start sys) {name : CString} {h5fd : Option Int}
    (called : sys.h5fopen choice name = some (h5fd, later)) :
    Filing path start later := by
  rcases h5fopen_eq_some called with
    ⟨_, rfl⟩ | ⟨number, ino, image, _, _, _, _, _, rfl⟩
  · exact filing
  · refine ⟨filing.named, filing.visible, ?_⟩
    intro other found isOpen
    by_cases same : other = number
    · subst same
      simp only [Process.setHandle, Function.update_self,
        Option.some.injEq] at isOpen
      rw [← isOpen]
    · simp only [Process.setHandle, Function.update_of_ne same] at isOpen
      exact filing.readers other found isOpen

theorem Filing.step
    (filing : Filing path start sys) {op : Op} {reply : Reply op}
    (files : Files op)
    (called : kernel platform sys choice op = some (reply, later)) :
    Filing path start later := by
  cases op with
  | rename old new => exact files.elim
  | unlink name => exact files.elim
  | mkdir name => exact files.elim
  | h5fcreate name => exact files.elim
  | openFile name flags => exact filing.openFile called
  | h5dwrite h5fd name data => exact filing.h5dwrite called
  | h5fclose h5fd => exact filing.h5fclose called
  | h5fopen name => exact filing.h5fopen called
  | stat name =>
      rw [(Sys.stat_eq_some called).1]
      exact filing
  | close fd =>
      rw [Sys.close_eq_some called]
      exact filing.same rfl rfl
  | write fd data =>
      rcases Sys.write_eq_some called with
        ⟨errno, _, rfl⟩ | ⟨limit, file, _, _, fs, proc⟩
      · exact filing
      · exact filing.put fs (by rw [proc, Process.setFd])
  | pwrite fd data offset =>
      rcases Sys.pwrite_eq_some called with
        ⟨errno, _, rfl⟩ | ⟨limit, file, _, _, _, fs, proc⟩
      · exact filing
      · exact filing.put fs (by rw [proc])
  | truncate name length =>
      simp only [kernel, Sys.truncate, Sys.refuse] at called
      repeat' split at called
      all_goals cases called
      all_goals first
        | exact filing
        | exact filing.put rfl rfl
  | ftruncate fd length =>
      simp only [kernel, Sys.ftruncate, Sys.refuse] at called
      repeat' split at called
      all_goals cases called
      all_goals first
        | exact filing
        | exact filing.put rfl rfl
  | read fd count =>
      simp only [kernel, Sys.read, Sys.refuse] at called
      repeat' split at called
      all_goals first
        | (cases called; exact filing)
        | (rcases Option.map_eq_some_iff.mp called with ⟨_, _, answer⟩
           cases answer
           exact filing.same rfl rfl)
  | pread fd count offset =>
      simp only [kernel, Sys.pread, Sys.refuse] at called
      repeat' split at called
      all_goals first
        | (cases called; exact filing)
        | (rcases Option.map_eq_some_iff.mp called with ⟨_, _, answer⟩
           cases answer
           exact filing)
  | lseek fd offset whence =>
      simp only [kernel, Sys.lseek, Sys.refuse] at called
      repeat' split at called
      all_goals
        cases called
        exact filing.same rfl rfl
  | statfs name =>
      rw [kernel_statfs called]
      exact filing
  | _ =>
      cases choice
      all_goals
        cases called
        exact filing.same rfl rfl

end Filing

/-! ## Opening -/

section Opened

variable
    {platform : Platform} {libs : Libs} {src dst : Target} {sys later : Sys}
    {fd : Int} {content : Bytes} {entry : Option Entry} {choice : Choice}

/-- The entry is that of a converted file. -/
def isConverted : Option Entry → Bool
  | some (.converted _ _) => true
  | _ => false

theorem isConverted_receives (bytes : Bytes) (entry : Option Entry) :
    isConverted (receives bytes entry) = isConverted entry := by
  rcases entry with _ | ⟨_ | _ | _⟩ <;> rfl

/-- The source is open: its visible file, or its image. -/
inductive SourceOpen (src : Target) (fd : Int) (sys : Sys) : Bool → Prop where
  | plain (ino : Ino) (named : sys.fs.entry src.path = some ino)
      (held : sys.proc.fds fd = some ⟨ino, 0, O_RDONLY⟩)
      (unmapped : sys.proc.h5fdmap fd = none) :
      SourceOpen src fd sys false
  | converted (dzfd : Dzfd) (ino : Ino)
      (named : sys.fs.entry src.h5name = some ino)
      (mapped : sys.proc.h5fdmap fd = some dzfd) (positive : 0 < dzfd.h5fd)
      (held : sys.proc.handles dzfd.h5fd = some ⟨ino, false⟩) :
      SourceOpen src fd sys true

/-- What an open source delivers is the content of its entry. -/
theorem SourceOpen.source
    (isOpen : SourceOpen src fd sys (isConverted entry))
    (represents : Represents libs sys.fs src entry)
    (holds : entry.bind Entry.content = some content) (dstlen : Nat → Int) :
    Source libs dstlen fd content sys := by
  cases represents with
  | absent missing noImage => cases holds
  | directory found noImage => cases holds
  | plain now found noImage =>
      cases holds
      cases isOpen with
      | plain ino named held unmapped =>
          rcases entry_of_lookup found with ⟨ino', named', node⟩
          rw [named] at named'
          cases named'
          exact .plain ⟨ino, 0, O_RDONLY⟩ unmapped held rfl node
  | converted now placeholder image found stored closed small wellFormed =>
      cases holds
      cases isOpen with
      | converted dzfd ino named mapped positive held =>
          rcases entry_of_lookup stored with ⟨ino', named', node⟩
          rw [named] at named'
          cases named'
          exact
            .image dzfd ⟨ino, false⟩ image mapped positive held node
              fun total => wellFormed (dstlen total)

/-- `dzfile_open` for reading opens what is stored. -/
theorem sourceOpen_of_opens
    (represents : Represents libs sys.fs src entry)
    (unmapped : ∀ fd, sys.proc.h5fdmap fd = none)
    (opens : Opens src.path O_RDONLY sys fd later) (valid : 0 < fd) :
    later.fs = sys.fs ∧ later.proc.fds fd ≠ none ∧
      SourceOpen src fd later (isConverted entry) := by
  cases opens with
  | refused fs fds h5fdmap => cases valid
  | visible h5name db choice opened built absent called =>
      rw [src.built] at built
      cases built
      cases opened with
      | error errno => cases valid
      | ok number =>
          rcases Sys.openFile_eq_ok (by decide) (by decide) called with
            ⟨number, ino, rfl, free, found, rfl⟩
          have plain :
              SourceOpen src number
                { sys with
                  db := db
                  proc :=
                    sys.proc.setFd number (some ⟨ino, 0, O_RDONLY⟩) }
                false :=
            .plain ino found (by simp [Process.setFd]) (unmapped number)
          refine ⟨rfl, by simp [Process.setFd], ?_⟩
          cases represents with
          | converted content placeholder image visible stored =>
              rw [lookup_eq_none_iff.mpr absent] at stored
              cases stored
          | absent missing noImage => exact plain
          | directory visible noImage => exact plain
          | plain content visible noImage => exact plain
  | image h5name h5fd fd first second built readOnly present handle called =>
      rw [src.built] at built
      cases built
      rcases Sys.openFile_eq_ok (by decide) (by decide) called with
        ⟨number, ino, rfl, free, found, rfl⟩
      rcases h5fopen_eq_some handle with
        ⟨none, _⟩ | ⟨slot, imageIno, image, same, positive, named, _, _, rfl⟩
      · cases none
      · cases same
        refine ⟨rfl, by simp [Process.setFd, Process.setMap], ?_⟩
        cases represents with
        | converted content placeholder image' visible stored =>
            exact
              .converted ⟨number, slot⟩ imageIno named
                (by simp [Process.setMap])
                (by simpa using positive)
                (by simp [Process.setMap, Process.setFd, Process.setHandle])
        | absent missing noImage =>
            exact (present (lookup_eq_none_iff.mp noImage)).elim
        | directory visible noImage =>
            exact (present (lookup_eq_none_iff.mp noImage)).elim
        | plain content visible noImage =>
            exact (present (lookup_eq_none_iff.mp noImage)).elim

/-- Opening the destination leaves the source open. -/
theorem SourceOpen.opened
    {converted : Bool} (isOpen : SourceOpen src fd sys converted)
    (held : sys.proc.fds fd ≠ none) {path : CString} {flags : Nat}
    {opened : Except Errno Int}
    (called : sys.openFile choice path flags = some (opened, later)) :
    SourceOpen src fd later converted := by
  cases opened with
  | error errno =>
      rw [Sys.openFile_eq_error called]
      exact isOpen
  | ok number =>
      rcases Sys.openFile_eq_some called with
        ⟨number, ino, fs, _, free, rfl, opens⟩
      have different : fd ≠ number := by
        rintro rfl
        exact held free
      have names :
          ∀ {name : CString} {found : Ino}, sys.fs.entry name = some found →
            fs.entry name = some found := by
        intro name found here
        rcases opens with ⟨absent, _, _, rfl⟩ | ⟨_, rfl | ⟨_, rfl⟩⟩
        · have other : name ≠ path := by
            rintro rfl
            rw [absent] at here
            cases here
          rw [FileSystem.entry_link, Function.update_of_ne other]
          exact here
        · exact here
        · exact here
      cases isOpen with
      | plain ino named reads unmapped =>
          refine .plain ino (names named) ?_ unmapped
          simp only [Process.setFd, Function.update_of_ne different]
          exact reads
      | converted dzfd ino named mapped positive reads =>
          exact .converted dzfd ino (names named) mapped positive reads

/-- A file that can be created and emptied is opened when no one objects. -/
theorem opened_of_granted
    {path : CString} {flags : Nat} {opened : Except Errno Int}
    (creates : hasCreat flags = true) (inclusive : hasExcl flags = false)
    (notDirectory : sys.fs.lookup path ≠ some .directory)
    (granted : choice.fails = false)
    (called : sys.openFile choice path flags = some (opened, later)) :
    ∃ fd, opened = .ok fd := by
  rcases choice with number | errno
  · unfold Sys.openFile Sys.install at called
    split at called
    · rename_i errno' same
      cases same
    · split at called
      · cases called
      · split at called
        · cases called
          exact ⟨_, rfl⟩
        · rename_i ino named
          simp only [creates, inclusive, Bool.and_false, Bool.false_eq_true,
            if_false] at called
          split at called
          · rename_i node
            exact (notDirectory (lookup_of_entry named node)).elim
          · cases called
            exact ⟨_, rfl⟩
  · cases granted

/-- The bytes a destination has received are stored there. -/
theorem represents_receives
    {fs fs' : FileSystem} {bytes : Bytes}
    (represents : Represents libs fs dst entry)
    (notDirectory : entry ≠ some .directory)
    (visible : fs'.lookup dst.path = some (.file bytes))
    (image : fs'.lookup dst.h5name = fs.lookup dst.h5name) :
    Represents libs fs' dst (receives bytes entry) := by
  cases represents with
  | absent missing noImage => exact .plain bytes visible (image.trans noImage)
  | directory found noImage => exact (notDirectory rfl).elim
  | plain content found noImage =>
      exact .plain bytes visible (image.trans noImage)
  | converted content placeholder stored found held closed small wellFormed =>
      exact
        .converted content bytes stored visible (image.trans held) closed
          small wellFormed

end Opened

/-! ## Whole runs -/

/-- The call is not refused, and no transfer is cut short. -/
def unrefused (choice : Choice) (op : Op) : Bool :=
  !choice.fails && granted choice op

section Runs

variable
    {platform : Platform} {dstlen : Nat → Int} {store : Store}
    {fs : FileSystem} {db : Metadata.Db} {src dst : Target}
    {content : Bytes} {ret : Int} {choices : List Choice} {sys : Sys}
    {final : Sys × GetCall}

/-- A get that nothing interferes with, from a process that has just started. -/
abbrev GetRuns
    (platform : Platform) (dstlen : Nat → Int) (sys : Sys)
    (src_file dst_file : CString) (choices : List Choice)
    (final : Sys × GetCall) : Prop :=
  Transition.run (Get.step platform dstlen)
      (sys, dzfile_get src_file dst_file) choices =
    some final

/-- The whole run meets the condition. -/
abbrev Granted
    (platform : Platform) (dstlen : Nat → Int) (sys : Sys)
    (src_file dst_file : CString) (choices : List Choice) : Prop :=
  Transition.Along (Get.step platform dstlen)
    (Meets (fun _ choice op => unrefused choice op = true)
      (copy platform.libs dstlen))
    (sys, dzfile_get src_file dst_file) choices

/-- What every call of a get keeps. -/
def Keeping (dst : CString) (start : FileSystem) (sys : Sys) : Prop :=
  Confined (· = dst) start sys ∧ Filing dst start sys

theorem keeping_step
    {start : FileSystem} {path : CString} (environment : Sys)
    (choice : Choice) (op : Op) (reply : Reply op) (later : Sys)
    (gets : Gets path op) (keeping : Keeping path start environment)
    (called :
      kernel platform environment choice op = some (reply, later)) :
    Keeping path start later :=
  ⟨keeping.1.step gets.1 called, keeping.2.step gets.2 called⟩

theorem keeping_initial (oneName : OneName fs) (path : CString) :
    Keeping path fs ⟨fs, db, .empty⟩ :=
  ⟨confined_initial oneName db,
    ⟨fun _ named => named, Or.inl rfl, fun _ _ held => by cases held⟩⟩

/--
A whole get to a path that is no directory leaves the store as it is, or the
visible file of the destination has received something.
-/
theorem refines_of_get
    (refines : Refines platform.libs fs store)
    (ordinary : Ordinary dst.path)
    (notDirectory : store dst.path ≠ some .directory)
    {src_file : CString}
    (ran :
      GetRuns platform dstlen ⟨fs, db, .empty⟩ src_file dst.path choices
        final) :
    Refines platform.libs final.1.fs store ∨
      ∃ bytes,
        Refines platform.libs final.1.fs
          (store.set dst.path (receives bytes (store dst.path))) := by
  have keeping : Keeping dst.path fs final.1 :=
    run_blocks_invariant (Keeping dst.path fs) keeping_step
      (gets_copy platform.libs dstlen) (gets_dzfile_get src_file)
      (keeping_initial refines.oneName dst.path) ran
  rcases keeping with ⟨confined, filing⟩
  have image : final.1.fs.lookup dst.h5name = fs.lookup dst.h5name :=
    confined.kept dst.h5name dst.h5name_ne_path
  have represents := refines.represents dst ordinary
  rcases filing.visible with same | ⟨bytes, visible⟩
  · left
    have stored := represents.congr same image
    have set :=
      refines.confined ordinary (fun _ named => Or.inl named) confined stored
    rwa [Store.set, Function.update_eq_self] at set
  · right
    refine ⟨bytes, ?_⟩
    apply refines.confined ordinary (fun _ named => Or.inl named) confined
    exact represents_receives represents notDirectory visible image

/-- A get that enters its loop has opened its source and its destination. -/
theorem entered_of_run
    {start : Sys} {src_file dst_file : CString} {place : Transfer ⊕ Int}
    (ran :
      (dzfile_get src_file dst_file).run (kernel platform) start choices =
        some (place, sys)) :
    place = .inr (-1) ∨
      ∃ fd opened middle choice,
        0 < fd ∧ Opens src_file O_RDONLY start fd middle ∧
          middle.openFile choice dst_file (O_WRONLY + O_TRUNC + O_CREAT) =
              some (opened, sys) ∧
            place = .inl ⟨fd, returnFd opened, 0⟩ ∧
              ((dzfile_get src_file dst_file).Along (kernel platform)
                  (fun _ choice op => unrefused choice op = true) start
                  choices →
                choice.fails = false) := by
  unfold dzfile_get at ran ⊢
  rw [Prog.perform_bind] at ran ⊢
  rcases Prog.run_call_eq_some.mp ran with
    ⟨initChoice, rest, ret, initialised, rfl, called, initRan⟩
  have same : initialised = start := by
    cases initChoice with
    | ok number => exact (Prod.mk.inj (Option.some.inj called)).2.symm
    | fail errno => exact (Prod.mk.inj (Option.some.inj called)).2.symm
  subst same
  rw [Prog.along_call_iff called]
  split at initRan
  · rcases Prog.run_ret_eq_some.mp initRan with ⟨_, rfl, _⟩
    exact Or.inl rfl
  · rename_i initialised
    rw [if_neg initialised]
    rcases Prog.run_bind_eq_some.mp initRan with
      ⟨before, after, fd, middle, rfl, openRan, fdRan⟩
    rw [Prog.along_bind_iff openRan]
    split at fdRan
    · rcases Prog.run_ret_eq_some.mp fdRan with ⟨_, rfl, _⟩
      exact Or.inl rfl
    · rename_i notPositive
      rw [if_neg notPositive]
      rw [Prog.perform_bind] at fdRan ⊢
      rcases Prog.run_call_eq_some.mp fdRan with
        ⟨choice, more, opened, later, rfl, answered, endRan⟩
      rcases Prog.run_ret_eq_some.mp endRan with ⟨rfl, rfl, rfl⟩
      refine
        Or.inr
          ⟨fd, opened, middle, choice, Int.not_le.mp notPositive,
            opens_of_run openRan, answered, rfl, ?_⟩
      rintro ⟨_, _, along⟩
      rw [Prog.along_call_iff answered] at along
      have free := along.1
      rw [unrefused, Bool.and_eq_true, Bool.not_eq_true'] at free
      exact free.1

/--
A whole get that returns 0 and is refused nothing delivers the content its
source reads back as once the destination has been emptied.
-/
theorem refines_of_granted
    (refines : Refines platform.libs fs store)
    (ordinary : Ordinary dst.path) (ordinarySource : Ordinary src.path)
    (notDirectory : store dst.path ≠ some .directory)
    (holds :
      (store.set dst.path (receives [] (store dst.path))).content src.path =
        some content)
    (small : content.length < 2147483648)
    (ran :
      GetRuns platform dstlen ⟨fs, db, .empty⟩ src.path dst.path choices
        final)
    (granted :
      Granted platform dstlen ⟨fs, db, .empty⟩ src.path dst.path choices)
    (returned : final.2 = .ret (.inr 0)) :
    Refines platform.libs final.1.fs
      (store.set dst.path (receives content (store dst.path))) := by
  have keeping : Keeping dst.path fs final.1 :=
    run_blocks_invariant (Keeping dst.path fs) keeping_step
      (gets_copy platform.libs dstlen) (gets_dzfile_get src.path)
      (keeping_initial refines.oneName dst.path) ran
  rcases final with ⟨last, program⟩
  cases returned
  rcases run_split ran with
    ⟨before, after, place, sys, rfl, prefixRan, loopRan⟩
  rcases along_split prefixRan granted with ⟨prefixAlong, loopAlong⟩
  rcases entered_of_run prefixRan with
    rfl | ⟨fd, opened, middle, choice, positive, opens, called, rfl, free⟩
  · have ended := run_returned loopRan
    cases ended
  have early : Keeping dst.path fs sys :=
    Prog.AllCalls.run_invariant (Keeping dst.path fs)
      (fun _ _ _ _ _ gets keeping called =>
        keeping_step _ _ _ _ _ gets keeping called)
      (gets_dzfile_get src.path)
      (keeping_initial refines.oneName dst.path) prefixRan
  -- The source is open, and the destination is empty.
  rcases
    sourceOpen_of_opens (refines.represents src ordinarySource)
      (fun _ => rfl) opens positive with
    ⟨sameFs, held, isOpen⟩
  have represents := refines.represents dst ordinary
  have creatable : middle.fs.lookup dst.path ≠ some .directory := by
    rw [sameFs]
    intro directory
    generalize store dst.path = entry at represents notDirectory
    cases represents with
    | absent missing noImage =>
        rw [missing] at directory
        cases directory
    | directory found noImage => exact notDirectory rfl
    | plain content found noImage =>
        rw [found] at directory
        cases directory
    | converted content placeholder image found =>
        rw [found] at directory
        cases directory
  rcases
    opened_of_granted (by decide) (by decide) creatable (free prefixAlong)
      called with
    ⟨dstfd, rfl⟩
  rcases Sys.openFile_emptied (by decide) (by decide) called with
    ⟨ino, named, empty, _⟩
  have emptied :
      Refines platform.libs sys.fs
        (store.set dst.path (receives [] (store dst.path))) := by
    apply refines.confined ordinary (fun _ named => Or.inl named) early.1
    exact
      represents_receives represents notDirectory
        (lookup_of_entry named empty)
        (early.1.kept dst.h5name dst.h5name_ne_path)
  have kind :
      isConverted
          (store.set dst.path (receives [] (store dst.path)) src.path) =
        isConverted (store src.path) := by
    by_cases same : src.path = dst.path
    · rw [same, Store.set_self, isConverted_receives]
    · rw [Store.set_of_ne same]
  have source : Source platform.libs dstlen fd content sys := by
    apply
      SourceOpen.source _ (emptied.represents src ordinarySource) holds
    rw [kind]
    exact isOpen.opened held called
  rcases entered_of_opened called source with ⟨ino', named', entered⟩
  rw [named] at named'
  cases named'
  have calm :
      Transition.Along (Get.step platform dstlen)
        (Meets (fun _ choice op => True → GetContent.granted choice op)
          (copy platform.libs dstlen))
        (sys, .ret (.inl ⟨fd, dstfd, 0⟩)) after := by
    apply loopAlong.mono
    intro state choice met op next action _
    have free : unrefused choice op = true := met op next action
    rw [unrefused, Bool.and_eq_true] at free
    exact free.2
  have bodies :
      ∀ transfer calls now,
        Entered True platform.libs dstlen content ino transfer calls now →
          Copies True platform dstlen content ino
            (copy platform.libs dstlen transfer) calls now := by
    intro transfer calls now entered
    exact copies_copy small entered
  have start :
      Copies True platform dstlen content ino
        (.ret (.inl ⟨fd, dstfd, 0⟩)) (3 * content.length + 6) sys :=
    entered True
  rcases run_within bodies start calm loopRan with ⟨_, _, _, delivered⟩
  have files :
      ∀ transfer,
        (copy platform.libs dstlen transfer).AllCalls Files := by
    intro transfer
    exact
      (gets_copy platform.libs dstlen transfer).mono
        fun _ (gets : Gets dst.path _) => gets.2
  have opening :
      (.ret (.inl ⟨fd, dstfd, 0⟩) : GetCall).AllCalls Files :=
    trivial
  have filing : Filing dst.path sys.fs last :=
    run_blocks_invariant (Filing dst.path sys.fs)
      (fun _ _ _ _ _ files filing called => filing.step files called)
      files opening
      ⟨fun _ named => named, Or.inl rfl, early.2.readers⟩ loopRan
  apply refines.confined ordinary (fun _ named => Or.inl named) keeping.1
  exact
    represents_receives represents notDirectory
      (lookup_of_entry (filing.named ino named) (delivered trivial))
      (keeping.1.kept dst.h5name dst.h5name_ne_path)

end Runs

end DZFile.StoreGet
