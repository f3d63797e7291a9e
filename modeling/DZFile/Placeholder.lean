import DZFile.Conversion
import DZFile.Dstat
import DZFile.Isolation
import DZFile.Sequential
import DZFile.Library.Transition

/-!
# The size of the placeholder

Successful conversions and then any calls of the library by any number of
clients.  A converted file is protected from writers by `dzfile_open` and by
`dzfile_truncate`, each in its own way.  `dzfile_open` looks at the access mode
and not at `O_TRUNC`; `dzfile_truncate` takes an image that it cannot `stat`
for none, and does not know the names of the images themselves.

The placeholders keep their sizes in every run without such a call, and
without a conversion that reads an image or uses up a placeholder.
-/

namespace DZFile.Placeholder

open DZFile.Interaction
open DZFile.Transition
open DZFile.Names
open DZFile.Codec
open DZFile.Image
open DZFile.Metadata
open DZFile.Kernel
open DZFile.Api
open DZFile.Opening
open DZFile.Converter
open DZFile.Staging
open DZFile.Reaching
open DZFile.HiddenNames
open DZFile.Isolation
open DZFile.Sequential
open DZFile.Conversion

/-! ## Conversions and calls -/

/-- A conversion, the process that runs it and what its environment decides. -/
structure Converting where
  proc : Process
  target : Target
  method : Alg
  srcfd : Int
  h5fd : Int
  choices : List Choice

/-- A whole conversion that returns 0. -/
def convert (platform : Platform) (sys : Sys) (label : Converting) :
    Option Sys :=
  (Transition.run (soloStep platform)
      ({ sys with proc := label.proc },
        convert2h5 label.target label.method label.srcfd label.h5fd)
      label.choices).bind fun state =>
    if state.2.pc = .returned ∧ state.2.ret = 0 then some state.1 else none

/-- The functions a client calls. -/
inductive Request where
  | dzfile_open (path : CString) (flags : Nat)
  | dzfile_creat (path : CString)
  | dzfile_truncate (path : CString) (length : Int)
  | dzfile_ftruncate (fd length : Int)
  | dzfile_write (fd : Int) (buf : Bytes)
  | dzfile_close (fd : Int)

def Request.program : Request → Call Int
  | .dzfile_open path flags => Api.dzfile_open path flags
  | .dzfile_creat path => Api.dzfile_creat path
  | .dzfile_truncate path length => Api.dzfile_truncate path length
  | .dzfile_ftruncate fd length => Api.dzfile_ftruncate fd length
  | .dzfile_write fd buf => Api.dzfile_write fd buf
  | .dzfile_close fd => Api.dzfile_close fd

/-- A store and the processes that use it. -/
structure Store where
  fs : FileSystem
  db : Db
  client : Nat → Process

/-- What a client sees. -/
def Store.sys (store : Store) (client : Nat) : Sys :=
  ⟨store.fs, store.db, store.client client⟩

/-- A call of a client and what its environment decides. -/
structure Calling where
  client : Nat
  request : Request
  choices : List Choice

/-- A whole call. -/
def call (platform : Platform) (store : Store) (label : Calling) :
    Option Store :=
  (label.request.program.run (kernel platform) (store.sys label.client)
      label.choices).map fun answer =>
    { fs := answer.2.fs
      db := answer.2.db
      client :=
        Function.update store.client label.client answer.2.proc }

/-- Clients that have opened nothing. -/
def Store.opened (sys : Sys) : Store where
  fs := sys.fs
  db := sys.db
  client _ := .empty

/-! ## The property -/

/-- The visible file has the size of what its image decodes to. -/
structure KeepsSize (platform : Platform) (fs : FileSystem) (target : Target) :
    Prop where
  size :
    ∃ image content placeholder,
      fs.lookup target.h5name = some (.image image) ∧
        Decodes platform.libs image content ∧
          fs.lookup target.path = some (.file placeholder) ∧
            placeholder.length = content.length ∧
              (∀ db proc choices stbuf later,
                (dzfile_stat target.path).run (kernel platform)
                    ⟨fs, db, proc⟩ choices =
                  some (.ok stbuf, later) →
                  stbuf.size = content.length) ∧
                ∀ db proc choices info later,
                  (dzfile_dstat target.path).run (kernel platform)
                      ⟨fs, db, proc⟩ choices =
                    some (some info, later) →
                    info.totalsize = content.length

/-- The placeholders of a store keep their sizes. -/
def AllKeepSize (platform : Platform) (fs : FileSystem) : Prop :=
  ∀ target : Target, fs.entry target.h5name ≠ none →
    KeepsSize platform fs target

/-- The environment grants the call of that number. -/
def Granted (choices : List Choice) (number : Nat) : Prop :=
  ∃ choice, choices[number]? = some choice ∧ choice.fails = false

/-- The conversion neither reads an image nor uses up a placeholder. -/
def Apart (sys : Sys) (label : Converting) : Prop :=
  ¬ IsImageName label.target.path ∧ ¬ Converted sys.fs label.target.temp

/--
A converted file is not opened with `O_RDONLY | O_TRUNC`, its fourth call
granted; nor truncated after its image could not be looked up; and no image is
truncated.
-/
def Careful (store : Store) (label : Calling) : Prop :=
  match label.request with
  | .dzfile_open path flags =>
      Converted store.fs path → accessMode flags = O_RDONLY →
        hasTrunc flags = true → ¬ Granted label.choices 3
  | .dzfile_truncate path length =>
      0 ≤ length →
        (Converted store.fs path → ¬ Granted label.choices 0 →
            ¬ Granted label.choices 1) ∧
          (IsImageName path → store.fs.entry path ≠ none →
            ¬ Granted label.choices 1)
  | _ => True

/-! ## Protected inodes -/

/-- The inode is the placeholder or the image of a converted path. -/
def Guarded (fs : FileSystem) (ino : Ino) : Prop :=
  ∃ target : Target, fs.entry target.h5name ≠ none ∧
    (fs.entry target.path = some ino ∨ fs.entry target.h5name = some ino)

/-- Nothing that belongs to a converted path changes. -/
structure Spared (fs fs' : FileSystem) : Prop where
  oneName : OneName fs → OneName fs'
  images :
    ∀ target : Target, fs'.entry target.h5name = fs.entry target.h5name
  paths :
    ∀ target : Target, fs.entry target.h5name ≠ none →
      fs'.entry target.path = fs.entry target.path
  nodes : ∀ ino, Guarded fs ino → fs'.node ino = fs.node ino

section Spared

variable {libs : Libs} {fs middle fs' : FileSystem}

theorem Spared.refl (fs : FileSystem) : Spared fs fs where
  oneName := id
  images _ := rfl
  paths _ _ := rfl
  nodes _ _ := rfl

/-- The same inodes are guarded. -/
theorem Spared.guarded_iff (spared : Spared fs fs') (ino : Ino) :
    Guarded fs' ino ↔ Guarded fs ino := by
  constructor
  · rintro ⟨target, present, found⟩
    rw [spared.images target] at present found
    rw [spared.paths target present] at found
    exact ⟨target, present, found⟩
  · rintro ⟨target, present, found⟩
    refine ⟨target, ?_, ?_⟩
    · rw [spared.images target]
      exact present
    · rw [spared.images target, spared.paths target present]
      exact found

theorem Spared.trans
    (first : Spared fs middle) (second : Spared middle fs') :
    Spared fs fs' := by
  constructor
  · intro oneName
    exact second.oneName (first.oneName oneName)
  · intro target
    rw [second.images target, first.images target]
  · intro target present
    have present' := present
    rw [← first.images target] at present'
    rw [second.paths target present', first.paths target present]
  · intro ino guarded
    rw [second.nodes ino ((first.guarded_iff ino).mpr guarded),
      first.nodes ino guarded]

/-- A settled store that is spared stays settled. -/
theorem Spared.settled
    (spared : Spared fs fs') (settled : Settled libs fs) :
    Settled libs fs' := by
  refine ⟨spared.oneName settled.oneName, ?_⟩
  intro target present
  rw [spared.images target] at present
  apply (settled.paired target present).transfer
  · exact spared.paths target present
  · exact spared.images target
  · intro ino found
    rw [spared.nodes ino ⟨target, present, found⟩]
    exact .same _

/-- A new file under a name that is no image's. -/
theorem Spared.link
    (settled : Settled libs fs) {path : CString}
    (absent : fs.entry path = none) (plain : ¬ IsImageName path)
    (node : Node) :
    Spared fs (fs.link path node) := by
  constructor
  · intro oneName
    exact oneName.step (.link path rfl)
  · intro target
    refine Function.update_of_ne ?_ _ _
    intro same
    exact plain ⟨target, same⟩
  · intro target present
    refine Function.update_of_ne ?_ _ _
    rintro rfl
    rcases (settled.paired target present).files with ⟨src, _, _, _, _, source, _⟩
    rw [absent] at source
    cases source
  · rintro ino ⟨target, _, found⟩
    have old : ino ≠ fs.fresh := by
      rcases found with found | found
      · exact FileSystem.entry_ne_fresh found
      · exact FileSystem.entry_ne_fresh found
    exact Function.update_of_ne old _ _

/-- A change of an inode that is not guarded. -/
theorem Spared.put
    {ino : Ino} (free : ¬ Guarded fs ino) (node : Node) :
    Spared fs (fs.put ino node) := by
  constructor
  · exact id
  · intro _
    rfl
  · intro _ _
    rfl
  · intro other guarded
    have different : other ≠ ino := by
      rintro rfl
      exact free guarded
    exact node_put_of_ne different

/-- The inode of a plain path is not guarded. -/
theorem not_guarded_of_plain
    (oneName : OneName fs) {path : CString} {ino : Ino}
    (found : fs.entry path = some ino) (unconverted : ¬ Converted fs path)
    (plain : ¬ IsImageName path) :
    ¬ Guarded fs ino := by
  rintro ⟨target, present, named | named⟩
  · exact unconverted ⟨target, oneName _ _ ino named found, present⟩
  · exact plain ⟨target, oneName _ _ ino named found⟩

end Spared

/-! ## Harmless processes -/

/-- No handle of the process writes to an image. -/
def OnlyReads (proc : Process) : Prop :=
  ∀ h5fd handle, proc.handles h5fd = some handle → handle.writing = false

/-- No descriptor writes to a guarded inode. -/
def Unarmed (fs : FileSystem) (fds : Int → Option OpenFile) : Prop :=
  ∀ fd file, fds fd = some file → file.writable = true →
    ¬ Guarded fs file.ino

theorem Unarmed.spared
    {fs fs' : FileSystem} {fds : Int → Option OpenFile}
    (unarmed : Unarmed fs fds) (spared : Spared fs fs') :
    Unarmed fs' fds := by
  intro fd file held writable guarded
  exact
    unarmed fd file held writable ((spared.guarded_iff file.ino).mp guarded)

/-- One more descriptor that cannot write to a guarded inode. -/
theorem Unarmed.update
    {fs : FileSystem} {fds : Int → Option OpenFile}
    (unarmed : Unarmed fs fds) (fd : Int) {entered : Option OpenFile}
    (harmless :
      ∀ file, entered = some file → file.writable = true →
        ¬ Guarded fs file.ino) :
    Unarmed fs (Function.update fds fd entered) := by
  intro other file held writable
  rw [Function.update_apply] at held
  split at held
  · exact harmless file held writable
  · exact unarmed other file held writable

/-- What a call leaves of a store and of the process that makes it. -/
structure Peaceful (fs : FileSystem) (sys : Sys) : Prop where
  spared : Spared fs sys.fs
  unarmed : Unarmed sys.fs sys.proc.fds
  onlyReads : OnlyReads sys.proc

section Calls

variable
    {platform : Platform} {fs : FileSystem} {sys later : Sys}
    {choice : Choice} {op : Op} {reply : Reply op}

/-- The calls that take a descriptor. -/
def byDescriptor : Op → Prop
  | .write _ _ => True
  | .ftruncate _ _ => True
  | .close _ => True
  | .h5fclose _ => True
  | .find_dzfd _ => True
  | .remove_dzfd _ => True
  | .sqlite3_exec _ => True
  | _ => False

/-- A write through a descriptor spares what is guarded. -/
theorem Peaceful.put
    (peaceful : Peaceful fs sys) {fd : Int} {file : OpenFile}
    (held : sys.proc.fds fd = some file) (writable : file.writable = true)
    (node : Node) :
    Peaceful fs { sys with fs := sys.fs.put file.ino node } := by
  have free := peaceful.unarmed fd file held writable
  have spared : Spared sys.fs (sys.fs.put file.ino node) := .put free node
  exact
    ⟨peaceful.spared.trans spared, peaceful.unarmed.spared spared,
      peaceful.onlyReads⟩

/-- A descriptor gives no access to a guarded inode. -/
theorem Peaceful.byDescriptor
    (kind : byDescriptor op) (peaceful : Peaceful fs sys)
    (called : kernel platform sys choice op = some (reply, later)) :
    Peaceful fs later := by
  cases op with
  | write fd data =>
      simp only [kernel, Sys.write, Sys.refuse] at called
      split at called
      · cases called
        exact peaceful
      · cases called
        exact peaceful
      · rename_i limit file held
        split at called
        · cases called
          exact peaceful
        · rename_i writable
          rw [Bool.not_eq_false] at writable
          cases called
          have free := peaceful.unarmed fd file held writable
          have written :=
            peaceful.put held writable
              (.file
                (ByteSeq.overwrite 0
                  ((sys.fs.node file.ino).bytes platform)
                  (sys.landing platform file file.offset)
                  (data.take limit)))
          refine ⟨written.spared, ?_, peaceful.onlyReads⟩
          apply written.unarmed.update
          rintro _ ⟨⟩ _
          exact written.unarmed fd file held writable
  | ftruncate fd length =>
      simp only [kernel, Sys.ftruncate, Sys.refuse] at called
      split at called
      · cases called
        exact peaceful
      · cases called
        exact peaceful
      · rename_i limit file held
        split at called
        · cases called
          exact peaceful
        · rename_i allowed
          rw [not_or, Bool.not_eq_false] at allowed
          cases called
          exact peaceful.put held allowed.2 _
  | close fd =>
      rw [Sys.close_eq_some called]
      refine ⟨peaceful.spared, ?_, peaceful.onlyReads⟩
      apply peaceful.unarmed.update
      rintro _ ⟨⟩
  | h5fclose h5fd =>
      rcases Sys.h5fclose_eq_some called with
        ⟨_, rfl⟩ | ⟨handle, held, rfl⟩
      · exact peaceful
      · have reads := peaceful.onlyReads h5fd handle held
        have same : sys.released handle (!choice.fails) = sys.fs := by
          simp [Sys.released, reads]
        rw [same]
        refine ⟨peaceful.spared, peaceful.unarmed, ?_⟩
        intro other entered found
        simp only [Process.setHandle, Function.update_apply] at found
        split at found
        · cases found
        · exact peaceful.onlyReads other entered found
  | find_dzfd fd =>
      cases called
      exact peaceful
  | remove_dzfd fd =>
      cases called
      exact ⟨peaceful.spared, peaceful.unarmed, peaceful.onlyReads⟩
  | sqlite3_exec stmt =>
      rcases kernel_sqlite3_exec called with ⟨db, rfl⟩
      exact ⟨peaceful.spared, peaceful.unarmed, peaceful.onlyReads⟩
  | _ => exact kind.elim

theorem byDescriptor_countWritten (ret : Int) :
    (countWritten ret).AllCalls byDescriptor := by
  unfold countWritten
  split
  · exact ⟨trivial, fun _ => trivial⟩
  · trivial

theorem byDescriptor_dzfile_write (fd : Int) (buf : Bytes) :
    (Api.dzfile_write fd buf).AllCalls byDescriptor :=
  ⟨trivial, fun result => byDescriptor_countWritten (returnCount result)⟩

theorem byDescriptor_dzfile_ftruncate (fd length : Int) :
    (Api.dzfile_ftruncate fd length).AllCalls byDescriptor :=
  ⟨trivial, fun _ => trivial⟩

theorem byDescriptor_dzfile_close (fd : Int) :
    (Api.dzfile_close fd).AllCalls byDescriptor := by
  have closing : (closeFd fd).AllCalls byDescriptor := by
    refine ⟨trivial, ?_⟩
    rintro (errno | closed) <;> trivial
  refine ⟨trivial, ?_⟩
  rintro (absent | dzfd)
  · exact closing
  · exact ⟨trivial, fun _ => ⟨trivial, fun _ => closing⟩⟩

/-! ## Calls by name -/

/-- `open` on a plain path spares what is guarded. -/
theorem Peaceful.openPlain
    (settled : Settled platform.libs sys.fs) (peaceful : Peaceful fs sys)
    {path : CString} {flags : Nat} {opened : Except Errno Int}
    (unconverted : ¬ Converted sys.fs path) (plain : ¬ IsImageName path)
    (called : sys.openFile choice path flags = some (opened, later)) :
    Peaceful fs later := by
  cases opened with
  | error errno =>
      rw [Sys.openFile_eq_error called]
      exact peaceful
  | ok fd =>
      rcases Sys.openFile_eq_some called with
        ⟨number, ino, after, rfl, free, rfl, outcome⟩
      have found :
          Spared sys.fs after ∧ ¬ Guarded sys.fs ino := by
        rcases outcome with
          ⟨absent, _, rfl, rfl⟩ | ⟨found, rfl | ⟨_, rfl⟩⟩
        · refine ⟨.link settled absent plain _, ?_⟩
          rintro ⟨target, _, named | named⟩
          · exact FileSystem.entry_ne_fresh named rfl
          · exact FileSystem.entry_ne_fresh named rfl
        · exact
            ⟨.refl _,
              not_guarded_of_plain settled.oneName found unconverted plain⟩
        · have free :=
            not_guarded_of_plain settled.oneName found unconverted plain
          exact ⟨.put free _, free⟩
      rcases found with ⟨spared, free⟩
      refine ⟨peaceful.spared.trans spared, ?_, peaceful.onlyReads⟩
      apply (peaceful.unarmed.spared spared).update
      rintro _ ⟨⟩ _ guarded
      exact free ((spared.guarded_iff ino).mp guarded)

/-- `open` for reading alone on a file that is there. -/
theorem Peaceful.openReading
    (peaceful : Peaceful fs sys) {path : CString} {flags : Nat}
    {opened : Except Errno Int} (readOnly : accessMode flags = O_RDONLY)
    (present : sys.fs.entry path ≠ none)
    (keeps : hasTrunc flags = true → choice.fails = true)
    (called : sys.openFile choice path flags = some (opened, later)) :
    Peaceful fs later := by
  cases opened with
  | error errno =>
      rw [Sys.openFile_eq_error called]
      exact peaceful
  | ok fd =>
      have granted : choice.fails = false := by
        cases choice with
        | ok number => rfl
        | fail errno => cases called
      rcases Sys.openFile_eq_some called with
        ⟨number, ino, after, rfl, free, rfl, outcome⟩
      have same : after = sys.fs := by
        rcases outcome with ⟨absent, _⟩ | ⟨_, same | ⟨truncates, _⟩⟩
        · exact (present absent).elim
        · exact same
        · rw [keeps truncates] at granted
          cases granted
      rw [same]
      refine ⟨peaceful.spared, ?_, peaceful.onlyReads⟩
      apply peaceful.unarmed.update
      rintro _ ⟨⟩ writable
      simp [OpenFile.writable, readOnly, O_RDONLY, O_WRONLY, O_RDWR]
        at writable

/-- `findhiddenFile` makes one call, and a granted one finds an image. -/
theorem choices_findhiddenFile
    {target : Target} {choices : List Choice} {rc : Int}
    (ran :
      (findhiddenFile target.path).run (kernel platform) sys choices =
        some (rc, later)) :
    ∃ choice, choices = [choice] ∧
      ∀ image, sys.fs.lookup target.h5name = some (.image image) →
        choice.fails = false → rc = 1 := by
  unfold findhiddenFile at ran
  rw [target.built] at ran
  rcases Prog.run_call_eq_some.mp ran with
    ⟨choice, rest, found, middle, rfl, called, returned⟩
  have last : rest = [] := by
    cases found with
    | ok stbuf => exact (Prog.run_ret_eq_some.mp returned).1
    | error errno =>
        cases errno <;> exact (Prog.run_ret_eq_some.mp returned).1
  subst last
  refine ⟨choice, rfl, ?_⟩
  intro image lookup granted
  cases choice with
  | fail errno => cases granted
  | ok number =>
      simp only [kernel, Sys.stat, lookup] at called
      cases called
      exact (Prog.run_ret_eq_some.mp returned).2.1.symm

/-- A converted path is opened for reading alone. -/
theorem Peaceful.openImage
    (peaceful : Peaceful fs sys) {target : Target} {flags : Nat}
    {choices : List Choice} {ret : Int}
    (present : sys.fs.entry target.path ≠ none)
    (keeps :
      accessMode flags = O_RDONLY → hasTrunc flags = true →
        ¬ Granted choices 2)
    (ran :
      (Api.openImage target.path flags).run (kernel platform) sys choices =
        some (ret, later)) :
    Peaceful fs later := by
  unfold Api.openImage at ran
  split at ran
  · rcases Prog.run_ret_eq_some.mp ran with ⟨_, _, rfl⟩
    exact peaceful
  · rename_i readOnly
    rw [not_not] at readOnly
    rw [target.built] at ran
    rcases Prog.run_bind_eq_some.mp ran with
      ⟨first, rest, h5fd, middle, rfl, opening, afterOpen⟩
    rcases Prog.run_call_eq_some.mp opening with
      ⟨handleChoice, none', found, entered, rfl, called, returned⟩
    rcases Prog.run_ret_eq_some.mp returned with ⟨rfl, rfl, rfl⟩
    have peaceful' : Peaceful fs entered := by
      rcases h5fopen_eq_some called with
        ⟨_, rfl⟩ | ⟨number, ino, image, _, _, _, _, _, rfl⟩
      · exact peaceful
      · refine ⟨peaceful.spared, peaceful.unarmed, ?_⟩
        intro other handle held
        simp only [Process.setHandle, Function.update_apply] at held
        split at held
        · cases held
          rfl
        · exact peaceful.onlyReads other handle held
    have present' : entered.fs.entry target.path ≠ none := by
      rcases h5fopen_eq_some called with
        ⟨_, rfl⟩ | ⟨number, ino, image, _, _, _, _, _, rfl⟩
      · exact present
      · exact present
    split at afterOpen
    · rcases Prog.run_ret_eq_some.mp afterOpen with ⟨_, _, rfl⟩
      exact peaceful'
    · rcases Prog.run_call_eq_some.mp afterOpen with
        ⟨memory, more, allocated, same, rfl, answered, allocRan⟩
      have unchanged : same = entered := by
        cases memory with
        | ok number =>
            cases answered
            rfl
        | fail errno =>
            cases answered
            rfl
      subst unchanged
      cases allocated with
      | false =>
          rcases Prog.run_ret_eq_some.mp allocRan with ⟨_, _, rfl⟩
          exact peaceful'
      | true =>
          rcases Prog.run_call_eq_some.mp allocRan with
            ⟨fileChoice, last, opened, visible, rfl, opens, mapRan⟩
          have refused : hasTrunc flags = true → fileChoice.fails = true := by
            intro truncates
            by_contra granted
            rw [Bool.not_eq_true] at granted
            exact
              keeps readOnly truncates ⟨fileChoice, rfl, granted⟩
          have after :=
            peaceful'.openReading readOnly present' refused opens
          change
            (add_dzfd (returnFd opened) ⟨returnFd opened, found.getD (-1)⟩ >>=
                fun _ => Prog.ret (returnFd opened)).run
                (kernel platform) visible last =
              some (ret, later) at mapRan
          rcases Prog.run_bind_eq_some.mp mapRan with
            ⟨_, _, _, mapped, _, adding, returned⟩
          rcases Prog.run_ret_eq_some.mp returned with ⟨_, _, rfl⟩
          unfold add_dzfd at adding
          split at adding
          · simp at adding
          · rcases Prog.run_call_eq_some.mp adding with
              ⟨_, _, _, _, rfl, added, ended⟩
            rcases Prog.run_ret_eq_some.mp ended with ⟨_, _, rfl⟩
            cases added
            exact ⟨after.spared, after.unarmed, after.onlyReads⟩

/-- A path with an image name is a target. -/
theorem exists_target
    {path h5name : CString} (built : buildHiddenFile path = some h5name) :
    ∃ target : Target, target.path = path ∧ target.h5name = h5name :=
  ⟨⟨path, h5name, built⟩, rfl, rfl⟩

/-- Without an image a path is not converted. -/
theorem not_converted_of_absent
    {path h5name : CString} (built : buildHiddenFile path = some h5name)
    (absent : fs.entry h5name = none) :
    ¬ Converted fs path := by
  rintro ⟨target, rfl, present⟩
  rw [target.built] at built
  cases built
  exact present absent

theorem Peaceful.dzfile_open
    (settled : Settled platform.libs sys.fs) (peaceful : Peaceful fs sys)
    {path : CString} {flags : Nat} {choices : List Choice} {ret : Int}
    (careful :
      Converted sys.fs path → accessMode flags = O_RDONLY →
        hasTrunc flags = true → ¬ Granted choices 3)
    (ran :
      (Api.dzfile_open path flags).run (kernel platform) sys choices =
        some (ret, later)) :
    Peaceful fs later := by
  by_cases plain : IsImageName path
  · rcases plain with ⟨target, rfl⟩
    rw [dzfile_open_of_image] at ran
    rcases Prog.run_ret_eq_some.mp ran with ⟨_, _, rfl⟩
    exact peaceful
  · unfold Api.dzfile_open at ran
    split at ran
    · rcases Prog.run_ret_eq_some.mp ran with ⟨_, _, rfl⟩
      exact peaceful
    · split at ran
      · simp at ran
      · split at ran
        · rcases Prog.run_ret_eq_some.mp ran with ⟨_, _, rfl⟩
          exact peaceful
        · rcases Prog.run_bind_eq_some.mp ran with
            ⟨before, after, rc, middle, rfl, lookupRan, restRan⟩
          rcases run_findhiddenFile lookupRan with ⟨rfl, answers⟩
          rcases answers with
            (rfl | rfl) | ⟨h5name, built, ⟨rfl, absent⟩ | ⟨rfl, present⟩⟩
          · rcases Prog.run_ret_eq_some.mp restRan with ⟨_, _, rfl⟩
            exact peaceful
          · rcases Prog.run_ret_eq_some.mp restRan with ⟨_, _, rfl⟩
            exact peaceful
          · rcases run_openPlain restRan with
              ⟨db, choice, opened, called, _⟩
            have unconverted :=
              not_converted_of_absent built absent
            have peaceful' : Peaceful fs { middle with db := db } :=
              ⟨peaceful.spared, peaceful.unarmed, peaceful.onlyReads⟩
            have settled' :
                Settled platform.libs ({ middle with db := db } : Sys).fs :=
              settled
            exact peaceful'.openPlain settled' unconverted plain called
          · rcases exists_target built with ⟨target, rfl, rfl⟩
            rcases choices_findhiddenFile lookupRan with ⟨choice, rfl, _⟩
            rcases (settled.paired target present).files with
              ⟨src, _, _, _, _, source, _⟩
            refine peaceful.openImage ?_ ?_ restRan
            · intro absent
              rw [source] at absent
              cases absent
            · intro readOnly truncates
              exact careful ⟨target, rfl, present⟩ readOnly truncates

theorem Peaceful.dzfile_creat
    (settled : Settled platform.libs sys.fs) (peaceful : Peaceful fs sys)
    {path : CString} {choices : List Choice} {ret : Int}
    (ran :
      (Api.dzfile_creat path).run (kernel platform) sys choices =
        some (ret, later)) :
    Peaceful fs later := by
  by_cases plain : IsImageName path
  · rcases plain with ⟨target, rfl⟩
    rw [dzfile_creat_of_hidden (slash_mem_h5name target)
      (match_hiddenfile_h5name target [])] at ran
    rcases Prog.run_ret_eq_some.mp ran with ⟨_, _, rfl⟩
    exact peaceful
  · unfold Api.dzfile_creat at ran
    split at ran
    · simp at ran
    · split at ran
      · rcases Prog.run_ret_eq_some.mp ran with ⟨_, _, rfl⟩
        exact peaceful
      · split at ran
        · rcases Prog.run_ret_eq_some.mp ran with ⟨_, _, rfl⟩
          exact peaceful
        · rcases Prog.run_bind_eq_some.mp ran with
            ⟨before, after, rc, middle, rfl, lookupRan, restRan⟩
          rcases run_findhiddenFile lookupRan with ⟨rfl, answers⟩
          rcases answers with
            (rfl | rfl) | ⟨h5name, built, ⟨rfl, absent⟩ | ⟨rfl, present⟩⟩
          · rcases Prog.run_ret_eq_some.mp restRan with ⟨_, _, rfl⟩
            exact peaceful
          · rcases Prog.run_ret_eq_some.mp restRan with ⟨_, _, rfl⟩
            exact peaceful
          · change
              (fmt_entry_insert path >>= fun _ => creat path).run
                  (kernel platform) middle after =
                some (ret, later) at restRan
            rcases Prog.run_bind_eq_some.mp restRan with
              ⟨first, second, _, inserted, rfl, insertRan, creatRan⟩
            rcases run_fmt_entry_insert insertRan with ⟨db, rfl⟩
            rcases Prog.run_call_eq_some.mp creatRan with
              ⟨choice, rest, opened, created, rfl, called, returned⟩
            rcases Prog.run_ret_eq_some.mp returned with ⟨_, _, rfl⟩
            have unconverted :=
              not_converted_of_absent built absent
            have peaceful' : Peaceful fs { middle with db := db } :=
              ⟨peaceful.spared, peaceful.unarmed, peaceful.onlyReads⟩
            have settled' :
                Settled platform.libs ({ middle with db := db } : Sys).fs :=
              settled
            exact peaceful'.openPlain settled' unconverted plain called
          · rcases Prog.run_ret_eq_some.mp restRan with ⟨_, _, rfl⟩
            exact peaceful

/-- `truncate` of a plain path, or one that is refused. -/
theorem Peaceful.truncate
    (settled : Settled platform.libs sys.fs) (peaceful : Peaceful fs sys)
    {path : CString} {length : Int} {done : Except Errno Unit}
    (spares :
      0 ≤ length → choice.fails = false →
        ¬ Converted sys.fs path ∧
          (IsImageName path → sys.fs.entry path = none))
    (called :
      sys.truncate platform choice path length = some (done, later)) :
    Peaceful fs later := by
  unfold Sys.truncate at called
  split at called
  · cases called
    exact peaceful
  · cases called
    exact peaceful
  · rename_i number ino found
    split at called
    · cases called
      exact peaceful
    · rename_i nonneg
      split at called
      · cases called
        exact peaceful
      · cases called
        rcases spares (by omega) rfl with ⟨unconverted, plain⟩
        have notImage : ¬ IsImageName path := by
          intro isImage
          rw [plain isImage] at found
          cases found
        have free :=
          not_guarded_of_plain settled.oneName found unconverted notImage
        have spared : Spared sys.fs (sys.resizeNode platform ino length.toNat) :=
          .put free _
        exact
          ⟨peaceful.spared.trans spared, peaceful.unarmed.spared spared,
            peaceful.onlyReads⟩

theorem Peaceful.dzfile_truncate
    (settled : Settled platform.libs sys.fs) (peaceful : Peaceful fs sys)
    {path : CString} {length : Int} {choices : List Choice} {ret : Int}
    (careful :
      0 ≤ length →
        (Converted sys.fs path → ¬ Granted choices 0 →
            ¬ Granted choices 1) ∧
          (IsImageName path → sys.fs.entry path ≠ none →
            ¬ Granted choices 1))
    (ran :
      (Api.dzfile_truncate path length).run (kernel platform) sys choices =
        some (ret, later)) :
    Peaceful fs later := by
  rcases Prog.run_bind_eq_some.mp ran with
    ⟨before, after, rc, middle, rfl, lookupRan, restRan⟩
  rcases run_findhiddenFile lookupRan with ⟨rfl, _⟩
  split at restRan
  · rcases Prog.run_ret_eq_some.mp restRan with ⟨_, _, rfl⟩
    exact peaceful
  · rename_i notFound
    rcases Prog.run_call_eq_some.mp restRan with
      ⟨choice, rest, done, truncated, rfl, called, returned⟩
    rcases Prog.run_ret_eq_some.mp returned with ⟨_, _, rfl⟩
    refine peaceful.truncate settled ?_ called
    intro nonneg granted
    cases built : buildHiddenFile path with
    | none =>
        constructor
        · rintro ⟨target, rfl, _⟩
          rw [target.built] at built
          cases built
        · rintro ⟨target, rfl⟩
          have slash := slash_mem_h5name target
          rw [← buildHiddenFile_isSome_iff, built] at slash
          cases slash
    | some h5name =>
        rcases exists_target built with ⟨target, rfl, rfl⟩
        rcases choices_findhiddenFile lookupRan with ⟨first, rfl, found⟩
        have second : Granted ([first] ++ choice :: rest) 1 :=
          ⟨choice, rfl, granted⟩
        constructor
        · intro converted
          refine (careful nonneg).1 converted ?_ second
          rintro ⟨_, ⟨⟩, firstGranted⟩
          rcases converted with ⟨other, same, present⟩
          rcases (settled.paired other present).files with
            ⟨_, _, ino, image, _, _, _, named, node, _⟩
          have built' := other.built
          rw [same, target.built] at built'
          refine notFound (found image ?_ firstGranted)
          rw [FileSystem.lookup, Option.some.inj built', named,
            Option.map_some, node]
        · intro isImage
          by_contra present
          exact (careful nonneg).2 isImage present second

end Calls

/-! ## Runs -/

section Runs

variable {platform : Platform}

/-- A settled store whose clients are harmless. -/
structure Kept (libs : Libs) (store : Store) : Prop where
  settled : Settled libs store.fs
  unarmed : ∀ client, Unarmed store.fs (store.client client).fds
  onlyReads : ∀ client, OnlyReads (store.client client)

/-- A careful call leaves what is guarded and stays harmless. -/
theorem peaceful_of_careful
    {store : Store} {label : Calling} {ret : Int} {later : Sys}
    (kept : Kept platform.libs store) (careful : Careful store label)
    (ran :
      label.request.program.run (kernel platform) (store.sys label.client)
          label.choices =
        some (ret, later)) :
    Peaceful store.fs later := by
  have start : Peaceful store.fs (store.sys label.client) :=
    ⟨.refl _, kept.unarmed label.client, kept.onlyReads label.client⟩
  have settled : Settled platform.libs (store.sys label.client).fs :=
    kept.settled
  have descriptors :
      ∀ {program : Call Int}, program.AllCalls byDescriptor →
        program.run (kernel platform) (store.sys label.client)
            label.choices =
          some (ret, later) →
          Peaceful store.fs later := by
    intro program calls programRan
    refine calls.run_invariant (Peaceful store.fs) ?_ start programRan
    intro environment choice op reply next kind peaceful called
    exact peaceful.byDescriptor kind called
  rcases label with ⟨client, request, choices⟩
  cases request with
  | dzfile_open path flags => exact start.dzfile_open settled careful ran
  | dzfile_creat path => exact start.dzfile_creat settled ran
  | dzfile_truncate path length =>
      exact start.dzfile_truncate settled careful ran
  | dzfile_ftruncate fd length =>
      exact descriptors (byDescriptor_dzfile_ftruncate fd length) ran
  | dzfile_write fd buf =>
      exact descriptors (byDescriptor_dzfile_write fd buf) ran
  | dzfile_close fd =>
      exact descriptors (byDescriptor_dzfile_close fd) ran

/-- A careful call keeps the store. -/
theorem Kept.call
    {store later : Store} {label : Calling}
    (kept : Kept platform.libs store) (careful : Careful store label)
    (called : call platform store label = some later) :
    Kept platform.libs later := by
  rcases Option.map_eq_some_iff.mp called with ⟨⟨ret, sys⟩, ran, rfl⟩
  have peaceful := peaceful_of_careful kept careful ran
  constructor
  · exact peaceful.spared.settled kept.settled
  · intro client
    show
      Unarmed sys.fs
        (Function.update store.client label.client sys.proc client).fds
    rw [Function.update_apply]
    split
    · exact peaceful.unarmed
    · exact (kept.unarmed client).spared peaceful.spared
  · intro client
    show
      OnlyReads (Function.update store.client label.client sys.proc client)
    rw [Function.update_apply]
    split
    · exact peaceful.onlyReads
    · exact kept.onlyReads client

/-- A conversion that stays apart keeps the store settled. -/
theorem settled_of_convert
    {sys later : Sys} {label : Converting}
    (settled : Settled platform.libs sys.fs) (apart : Apart sys label)
    (converted : convert platform sys label = some later) :
    Settled platform.libs later.fs := by
  rcases Option.bind_eq_some_iff.mp converted with ⟨state, ran, ended⟩
  split at ended
  · rename_i succeeded
    cases ended
    have settled' :
        Settled platform.libs ({ sys with proc := label.proc } : Sys).fs :=
      settled
    exact settled_of_succeeded settled' apart.1 apart.2 ran succeeded
  · cases ended

/-- In a settled store every placeholder keeps its size. -/
theorem allKeepSize_of_settled
    {fs : FileSystem} (settled : Settled platform.libs fs) :
    AllKeepSize platform fs := by
  intro target present
  rcases (settled.paired target present).files with
    ⟨src, placeholder, ino, image, content, source, srcNode, named, node,
      decodes, size⟩
  have visible : fs.lookup target.path = some (.file placeholder) := by
    rw [FileSystem.lookup, source, Option.map_some, srcNode]
  have hidden : fs.lookup target.h5name = some (.image image) := by
    rw [FileSystem.lookup, named, Option.map_some, node]
  refine
    ⟨image, content, placeholder, hidden, decodes, visible, size, ?_, ?_⟩
  · intro db proc choices stbuf later ran
    rcases Prog.run_call_eq_some.mp ran with
      ⟨choice, rest, found, middle, rfl, called, returned⟩
    rcases Prog.run_ret_eq_some.mp returned with ⟨_, rfl, _⟩
    rcases Dstat.stat_found called with ⟨other, lookup, _, length⟩
    change fs.lookup target.path = some other at lookup
    rw [visible] at lookup
    cases lookup
    exact length.trans size
  · intro db proc choices info later ran
    have total :=
      @Dstat.totalsize_of_file platform ⟨fs, db, proc⟩ later target.path
        placeholder choices info visible ran
    exact total.trans size

/--
After conversions that stay apart and careful calls every placeholder has the
size of the content of its image.
-/
theorem allKeepSize_of_careful
    {sys converted : Sys} {conversions : List Converting}
    {calls : List Calling} {final : Store}
    (reachable : Reachable platform sys.fs)
    (unconverted : ∀ path, ¬ Converted sys.fs path)
    (apart : Along (convert platform) Apart sys conversions)
    (convertRan :
      Transition.run (convert platform) sys conversions = some converted)
    (careful : Along (call platform) Careful (.opened converted) calls)
    (callsRan :
      Transition.run (call platform) (.opened converted) calls =
        some final) :
    AllKeepSize platform final.fs := by
  have start : Settled platform.libs sys.fs := by
    refine ⟨oneName_of_reachable reachable, ?_⟩
    intro target present
    exact (unconverted target.path ⟨target, rfl, present⟩).elim
  have settled : Settled platform.libs converted.fs :=
    Transition.run_invariant_along
      (fun state => Settled platform.libs state.fs)
      (fun _ _ _ => settled_of_convert) start apart convertRan
  have opened : Kept platform.libs (.opened converted) := by
    refine ⟨settled, ?_, ?_⟩
    · intro client fd file held
      cases held
    · intro client h5fd handle held
      cases held
  have kept : Kept platform.libs final :=
    Transition.run_invariant_along (Kept platform.libs)
      (fun _ _ _ => Kept.call) opened careful callsRan
  exact allKeepSize_of_settled kept.settled

end Runs

/-! ## A placeholder that is emptied -/

/-- The calls that create `/f` and write the byte 7 to it. -/
def writesF : List Called :=
  [⟨.empty, .ok 3, .openFile ['/', 'f'] (O_WRONLY + O_CREAT)⟩,
    ⟨Process.empty.setFd 3 (some ⟨0, 0, O_WRONLY + O_CREAT⟩), .ok 1,
      .write 3 [7]⟩]

/-- The store after these calls. -/
def writtenF : Sys where
  fs := (Sys.initial.fs.link ['/', 'f'] (.file [])).put 0 (.file [7])
  db := .empty
  proc := .empty

theorem reachable_writtenF : Reachable storingPlatform writtenF.fs := by
  have ran :
      ∃ sys,
        Transition.run (callStep storingPlatform) Sys.initial writesF =
            some sys ∧
          sys.fs = writtenF.fs :=
    ⟨_, rfl, rfl⟩
  rcases ran with ⟨sys, ran, fs⟩
  exact ⟨writesF, sys, ran, fs⟩

theorem unconverted_writtenF (path : CString) :
    ¬ Converted writtenF.fs path := by
  rintro ⟨target, _, present⟩
  have notF : target.h5name ≠ ['/', 'f'] :=
    h5name_ne_of_not_hidden (by decide) target
  apply present
  simp [writtenF, Sys.initial, Function.update_of_ne notF]

/-- `/f` is converted. -/
def conversionF : List Converting :=
  [⟨.empty, targetF, .DZ_ALG_ZSTD, 0, 0,
      .ok 0 :: .ok 0 :: List.replicate 13 (.ok 1)⟩]

theorem apart_conversionF :
    Along (convert storingPlatform) Apart writtenF conversionF := by
  refine ⟨⟨?_, unconverted_writtenF _⟩, fun _ _ => trivial⟩
  rintro ⟨target, same⟩
  exact h5name_ne_of_not_hidden (by decide) target same

/-- A client opens `/f` for reading, with `O_TRUNC` or without. -/
def opensF (flags : Nat) : List Calling :=
  [⟨0, .dzfile_open ['/', 'f'] flags,
      [.ok 0, .ok 1, .ok 0, .ok 3, .ok 0]⟩]

/-- With `O_TRUNC` the placeholder is empty afterwards. -/
theorem opensF_runs :
    ∃ converted final,
      Transition.run (convert storingPlatform) writtenF conversionF =
          some converted ∧
        Transition.run (call storingPlatform) (.opened converted)
            (opensF O_TRUNC) =
          some final ∧
          final.fs.lookup targetF.path = some (.file []) ∧
            final.fs.lookup targetF.h5name = some (.image imageSeven) := by
  have facts :
      ((Transition.run (convert storingPlatform) writtenF conversionF).bind
          fun converted =>
            (Transition.run (call storingPlatform) (.opened converted)
                (opensF O_TRUNC)).map fun final =>
              (final.fs.lookup targetF.path,
                final.fs.lookup targetF.h5name)) =
        some (some (.file []), some (.image imageSeven)) := by
    decide +kernel
  rcases Option.bind_eq_some_iff.mp facts with ⟨converted, first, mapped⟩
  rcases Option.map_eq_some_iff.mp mapped with ⟨final, second, observed⟩
  simp only [Prod.mk.injEq] at observed
  exact
    ⟨converted, final, first, second, observed.1, observed.2⟩

theorem allKeepSize_of_careful_opensF :
    ∃ converted final,
      Transition.run (convert storingPlatform) writtenF conversionF =
          some converted ∧
        Transition.run (call storingPlatform) (.opened converted)
            (opensF O_RDONLY) =
          some final ∧
          AllKeepSize storingPlatform final.fs := by
  have runs :
      ((Transition.run (convert storingPlatform) writtenF conversionF).bind
          fun converted =>
            Transition.run (call storingPlatform) (.opened converted)
                (opensF O_RDONLY)).isSome := by
    decide +kernel
  rcases Option.isSome_iff_exists.mp runs with ⟨final, ran⟩
  rcases Option.bind_eq_some_iff.mp ran with ⟨converted, first, second⟩
  have careful :
      Along (call storingPlatform) Careful (.opened converted)
        (opensF O_RDONLY) := by
    refine ⟨?_, fun _ _ => trivial⟩
    intro _ _ truncates
    cases truncates
  exact
    ⟨converted, final, first, second,
      allKeepSize_of_careful reachable_writtenF unconverted_writtenF
        apart_conversionF first careful second⟩

/-- A reader that opens with `O_TRUNC` empties the placeholder. -/
theorem truncating_reader_empties_placeholder :
    ¬ ∀ (platform : Platform) (sys converted : Sys)
        (conversions : List Converting) (calls : List Calling)
        (final : Store),
        Reachable platform sys.fs →
          (∀ path, ¬ Converted sys.fs path) →
            Transition.run (convert platform) sys conversions =
                some converted →
              Transition.run (call platform) (.opened converted) calls =
                  some final →
                AllKeepSize platform final.fs := by
  intro claimed
  rcases opensF_runs with
    ⟨converted, final, first, second, visible, hidden⟩
  have sizes :=
    claimed storingPlatform writtenF converted conversionF _ final
      reachable_writtenF unconverted_writtenF first second
  have present : final.fs.entry targetF.h5name ≠ none := by
    intro absent
    rw [FileSystem.lookup, absent] at hidden
    cases hidden
  rcases (sizes targetF present).size with
    ⟨image, content, placeholder, hidden', decodes, visible', size, _⟩
  rw [hidden] at hidden'
  rw [visible] at visible'
  cases hidden'
  cases visible'
  have empty : content = [] := List.length_eq_zero_iff.mp size.symm
  subst empty
  have decoded := decode_of_decodes_storing (by decide) decodes
  revert decoded
  decide +kernel

end DZFile.Placeholder
