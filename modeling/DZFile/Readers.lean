import DZFile.Opening
import DZFile.Publishing
import DZFile.ReadBack
import DZFile.Sequential
import DZFile.Sharing
import DZFile.Library.RelyGuarantee

/-!
# Readers beside a conversion

A client opens a file with `dzfile_open` and reads it with `dzfile_pread` from
any number of threads, while the file is converted; every call of the
environment is a step.  Whether the descriptor stands for the visible file or
for the image is decided once, while the descriptor is opened, and the
converter empties the visible file later.

The opening and each read are programs among other parties.  What the others
do to the client is little: they leave its tables and the inode behind the
path alone, and an image that is there stays.
-/

namespace DZFile.Readers

open DZFile.ByteSeq
open DZFile.Interaction
open DZFile.RelyGuarantee
open DZFile.Transition
open DZFile.Names
open DZFile.Codec
open DZFile.Image
open DZFile.Layout
open DZFile.Kernel
open DZFile.Api
open DZFile.Opening
open DZFile.Converter
open DZFile.Staging
open DZFile.Publishing
open DZFile.ReadBack
open DZFile.Sequential
open DZFile.Sharing

/-! ## The parties -/

/-- A read, and what is still to be done of it. -/
structure Request where
  offset : Nat
  count : Nat
  rest : Call PreadResult

/-- A conversion, a client that opens the path, and its reading threads. -/
structure Reading where
  world : World
  opening : Call Int
  reads : Nat → Option Request
  /-- Every read of the converter so far has filled its buffer. -/
  filled : Bool

/-- Whose turn it is. -/
inductive Label where
  | converter (choice : Choice)
  | opener (choice : Choice)
  /-- A thread calls `dzfile_pread`; `dstlen` is its uninitialised local. -/
  | pread (thread offset count : Nat) (dstlen : Int)
  | reader (thread : Nat) (choice : Choice)

/-- A read of the converter that is not cut short. -/
def fills (c : Convert) (choice : Choice) : Bool :=
  match c.pc, choice with
  | .readBlock, .ok limit => H5_BUFSIZE ≤ limit
  | _, _ => true

/-- The thread has no read under way. -/
def Reading.idle (reading : Reading) (thread : Nat) : Bool :=
  match reading.reads thread with
  | none => true
  | some request => request.rest.returned.isSome

/-- One call of a party. -/
def step (platform : Platform) (reading : Reading) :
    Label → Option Reading
  | .converter choice =>
      (reading.world.convert platform choice).map fun world =>
        { reading with
          world := world
          filled := reading.filled && fills reading.world.c choice }
  | .opener choice =>
      (reading.world.clientStep platform reading.opening choice).map
        fun state =>
          { reading with
            world := state.1
            opening := state.2 }
  | .pread thread offset count dstlen =>
      reading.opening.returned.bind fun fd =>
        if 0 ≤ fd ∧ reading.idle thread = true then
          some
            { reading with
              reads :=
                Function.update reading.reads thread
                  (some
                    ⟨offset, count,
                      dzfile_pread platform.libs dstlen fd count offset⟩) }
        else none
  | .reader thread choice =>
      (reading.reads thread).bind fun request =>
        (reading.world.clientStep platform request.rest choice).map
          fun state =>
            { reading with
              world := state.1
              reads :=
                Function.update reading.reads thread
                  (some { request with rest := state.2 }) }

/-- A client that is about to open the path of a conversion. -/
def Reading.start (world : World) : Reading where
  world := world
  opening := dzfile_open world.c.target.path O_RDONLY
  reads _ := none
  filled := true

/-! ## The property -/

/-- Inside the content a read returns what the content holds there. -/
def Right (content : Bytes) (offset count : Nat) (result : PreadResult) :
    Prop :=
  offset + count ≤ content.length →
    result = .returned count (slice content offset count)

/-- Every read that has returned is right. -/
def AllRight (content : Bytes) (reading : Reading) : Prop :=
  ∀ thread request result,
    reading.reads thread = some request → request.rest = .ret result →
      Right content request.offset request.count result

/--
A read of the visible file is answered in full and finds the content there.  A
read of the image finds blocks that the reader can fetch, one for each chunk.
-/
def Timely (platform : Platform) (content : Bytes) (reading : Reading) :
    Label → Prop
  | .reader thread choice =>
      ∀ request, reading.reads thread = some request →
        request.offset + request.count ≤ content.length →
          match request.rest with
          | .call (.pread _ _ _) _ =>
              (∃ limit, choice = .ok limit ∧ request.count ≤ limit) ∧
                reading.world.fs.lookup reading.world.c.target.path =
                  some (.file content)
          | .call (.h5image _) _ =>
              reading.world.c.method = .DZ_ALG_ZSTD ∧
                reading.filled = true ∧
                  FetchableRange platform.libs content request.offset
                    request.count
          | _ => True
  | _ => True

/-! ## What the client relies on -/

/-- What the others may do to what the client sees. -/
structure Relies (target : Target) (sys later : Sys) : Prop where
  proc : later.proc = sys.proc
  path : later.fs.entry target.path = sys.fs.entry target.path
  image :
    ∀ ino, sys.fs.entry target.h5name = some ino →
      later.fs.entry target.h5name = some ino

theorem Relies.refl (target : Target) (sys : Sys) : Relies target sys sys :=
  ⟨rfl, rfl, fun _ => id⟩

theorem Relies.trans
    {target : Target} (first second third : Sys)
    (before : Relies target first second)
    (after : Relies target second third) :
    Relies target first third where
  proc := after.proc.trans before.proc
  path := after.path.trans before.path
  image ino named := after.image ino (before.image ino named)

/-- A descriptor of the visible file, alone or beside a handle of the image. -/
structure Descriptor (target : Target) (src : Ino) (fd : Int) (sys : Sys) :
    Prop where
  source : sys.fs.entry target.path = some src
  opened :
    ∃ file, sys.proc.fds fd = some file ∧ file.ino = src ∧
      file.readable = true
  mapped :
    sys.proc.h5fdmap fd = none ∨
      ∃ h5fd handle,
        sys.proc.h5fdmap fd = some ⟨fd, h5fd⟩ ∧ 0 < h5fd ∧
          sys.proc.handles h5fd = some handle ∧
            sys.fs.entry target.h5name = some handle.ino

theorem Descriptor.relied
    {target : Target} {src : Ino} {fd : Int} {sys later : Sys}
    (descriptor : Descriptor target src fd sys)
    (relies : Relies target sys later) :
    Descriptor target src fd later := by
  constructor
  · rw [relies.path]
    exact descriptor.source
  · rw [relies.proc]
    exact descriptor.opened
  · rw [relies.proc]
    apply descriptor.mapped.imp_right
    rintro ⟨h5fd, handle, entered, positive, held, named⟩
    exact
      ⟨h5fd, handle, entered, positive, held, relies.image _ named⟩

/-! ## Opening -/

/-- Any answer of the environment. -/
def Answers (platform : Platform) (op : Op) (sys : Sys) (reply : Reply op)
    (later : Sys) : Prop :=
  ∃ choice, kernel platform sys choice op = some (reply, later)

/-- The descriptor `dzfile_open` returns. -/
def Obtained (target : Target) (src : Ino) (fd : Int) (sys : Sys) : Prop :=
  0 ≤ fd → Descriptor target src fd sys

section Opening

variable
    {platform : Platform} {target : Target} {src : Ino} {sys : Sys}

/-- A value other than a descriptor promises nothing. -/
theorem ensures_failed {fd : Int} (negative : fd < 0) :
    Ensures (Relies target) (Answers platform) (Obtained target src)
      (.ret fd) sys := by
  intro later _ nonneg
  omega

/-- The visible file is opened after its image has not been found. -/
theorem ensures_openVisible
    (source : sys.fs.entry target.path = some src)
    (consistent : Consistent sys.proc) :
    Ensures (Relies target) (Answers platform) (Obtained target src)
      (openVisible target.path O_RDONLY) sys := by
  rintro middle relies opened after ⟨choice, called⟩
  cases opened with
  | error errno => exact ensures_failed (by simp)
  | ok fd =>
      rcases Sys.openFile_eq_ok (by decide) (by decide) called with
        ⟨number, ino, rfl, free, found, rfl⟩
      rw [relies.path, source] at found
      cases found
      intro later relies' _
      refine Descriptor.relied ?_ relies'
      constructor
      · rw [← source]
        exact relies.path
      · exact
          ⟨⟨src, 0, O_RDONLY⟩, by simp [Process.setFd], rfl, rfl⟩
      · left
        show middle.proc.h5fdmap number = none
        rw [relies.proc] at free ⊢
        exact consistent _ free

theorem ensures_openPlain
    (source : sys.fs.entry target.path = some src)
    (consistent : Consistent sys.proc) :
    Ensures (Relies target) (Answers platform) (Obtained target src)
      (openPlain target.path O_RDONLY) sys := by
  rintro middle relies found after ⟨choice, called⟩
  rcases stat_reply called with ⟨rfl, missing, _⟩
  have source' : after.fs.entry target.path = some src := by
    rw [relies.path]
    exact source
  have consistent' : Consistent after.proc := by
    rw [relies.proc]
    exact consistent
  have opens := @ensures_openVisible platform target src after source' consistent'
  cases found with
  | ok stbuf => exact opens
  | error errno =>
      by_cases absent : errno = .ENOENT
      · rw [missing (by rw [absent])] at source'
        cases source'
      · cases errno <;> first
          | exact (absent rfl).elim
          | exact opens

/-- The image is opened, and the visible file beside it. -/
theorem ensures_openImage
    (source : sys.fs.entry target.path = some src) :
    Ensures (Relies target) (Answers platform) (Obtained target src)
      (openImage target.path O_RDONLY) sys := by
  unfold openImage
  rw [if_neg (by decide), target.built]
  rintro first relies h5fd opened ⟨choice, called⟩
  have source' : first.fs.entry target.path = some src := by
    rw [relies.path]
    exact source
  rcases h5fopen_eq_some called with
    ⟨rfl, _⟩ | ⟨slot, ino, image, rfl, positive, named, _, _, rfl⟩
  · exact ensures_failed (by decide)
  · have usable : ¬ (slot : Int) ≤ 0 := by omega
    show
      Ensures _ _ _
        (if (slot : Int) ≤ 0 then (return -1 : Call Int) else _) _
    rw [if_neg usable]
    rintro second beforeMalloc allocated kept ⟨_, answered⟩
    have same : kept = second := by
      rename_i memory
      cases memory <;>
        cases answered <;>
        rfl
    subst same
    cases allocated with
    | false => exact ensures_failed (by decide)
    | true =>
        rintro third beforeFile result after ⟨_, called'⟩
        cases result with
        | error errno =>
            show Ensures _ _ _ (add_dzfd (-1) _ >>= _) _
            simp only [add_dzfd, if_true]
            trivial
        | ok fd =>
            rcases Sys.openFile_eq_ok (by decide) (by decide) called' with
              ⟨number, opened, rfl, _, found, rfl⟩
            have path :
                third.fs.entry target.path = some src := by
              rw [beforeFile.path, beforeMalloc.path]
              exact source'
            rw [path] at found
            cases found
            have valid : ¬ (number : Int) = -1 := by omega
            show
              Ensures _ _ _
                (add_dzfd (number : Int) ⟨number, slot⟩ >>= fun _ =>
                  Prog.ret (number : Int)) _
            rw [add_dzfd, if_neg valid]
            rintro fourth beforeMap _ entered ⟨_, added⟩
            cases added
            intro later afterwards _
            refine Descriptor.relied ?_ afterwards
            have handles :
                fourth.proc.handles slot = some ⟨ino, false⟩ := by
              rw [beforeMap.proc]
              show third.proc.handles slot = _
              rw [beforeFile.proc, beforeMalloc.proc]
              simp [Process.setHandle]
            have hidden : fourth.fs.entry target.h5name = some ino :=
              beforeMap.image _
                (beforeFile.image _ (beforeMalloc.image _ named))
            constructor
            · exact beforeMap.path.trans path
            · refine ⟨⟨src, 0, O_RDONLY⟩, ?_, rfl, rfl⟩
              show fourth.proc.fds number = _
              rw [beforeMap.proc]
              simp [Process.setFd]
            · right
              exact
                ⟨slot, ⟨ino, false⟩, by simp [Process.setMap],
                  by omega, handles, hidden⟩

/-- `dzfile_open` returns a descriptor of the path, whatever the others do. -/
theorem ensures_dzfile_open
    (source : sys.fs.entry target.path = some src)
    (consistent : Consistent sys.proc) :
    Ensures (Relies target) (Answers platform) (Obtained target src)
      (dzfile_open target.path O_RDONLY) sys := by
  unfold dzfile_open
  split
  · exact ensures_failed (by decide)
  · split
    · trivial
    · split
      · exact ensures_failed (by decide)
      · refine Ensures.bind (Relies.refl target) ?_
        unfold findhiddenFile
        rw [target.built]
        rintro middle relies found after ⟨choice, called⟩
        rcases stat_reply called with ⟨rfl, _, _⟩
        have finishes :
            ∀ (rc : Int) later, Relies target after later →
              Ensures (Relies target) (Answers platform) (Obtained target src)
                (if rc = 1 then openImage target.path O_RDONLY
                else if rc < 0 then return -1
                else if rc = 2 then return -1
                else openPlain target.path O_RDONLY) later := by
          intro rc later afterwards
          have source' : later.fs.entry target.path = some src := by
            rw [afterwards.path, relies.path]
            exact source
          have consistent' : Consistent later.proc := by
            rw [afterwards.proc, relies.proc]
            exact consistent
          split
          · exact ensures_openImage source'
          · split
            · exact ensures_failed (by decide)
            · split
              · exact ensures_failed (by decide)
              · exact ensures_openPlain source' consistent'
        cases found with
        | ok stbuf =>
            intro later afterwards
            exact finishes _ later afterwards
        | error errno =>
            cases errno <;>
              intro later afterwards <;>
              exact finishes _ later afterwards

end Opening

/-! ## Reading -/

/-- The environment's answers to a timely read. -/
def Supplies
    (platform : Platform) (content : Bytes) (target : Target)
    (offset count : Nat) (op : Op) (sys : Sys) (reply : Reply op)
    (later : Sys) : Prop :=
  ∃ choice,
    kernel platform sys choice op = some (reply, later) ∧
      (offset + count ≤ content.length →
        match op with
        | .pread _ _ _ =>
            (∃ limit, choice = .ok limit ∧ count ≤ limit) ∧
              sys.fs.lookup target.path = some (.file content)
        | .h5image _ =>
            (∀ ino, sys.fs.entry target.h5name = some ino →
                ∃ image, sys.fs.node ino = .image image ∧
                  Holds platform.libs image content) ∧
              FetchableRange platform.libs content offset count
        | _ => True)

section Reading

variable
    {platform : Platform} {content : Bytes} {target : Target} {src : Ino}
    {sys : Sys} {fd : Int}

/-- A read in full of a file that holds the content. -/
theorem pread_in_range
    {file : OpenFile} {limit offset count : Nat} {data : Except Errno Bytes}
    {later : Sys}
    (held : sys.proc.fds fd = some file) (readable : file.readable = true)
    (node : sys.fs.node file.ino = .file content)
    (within : offset + count ≤ content.length) (enough : count ≤ limit)
    (called :
      sys.pread platform (.ok limit) fd count offset = some (data, later)) :
    returnRead data = ((count : Int), slice content offset count) := by
  rw [Sys.pread_file held readable node] at called
  rcases Option.map_eq_some_iff.mp called with ⟨bytes, transferred, answer⟩
  cases answer
  rw [Sys.transfer_inFull enough transferred]
  have length : (slice content offset count).length = count := by
    rw [length_slice]
    omega
  simp [returnRead, length]

/-- A timely read on a descriptor of the path is right. -/
theorem ensures_dzfile_pread
    (descriptor : Descriptor target src fd sys) (dstlen : Int)
    (offset count : Nat) :
    Ensures (Relies target)
      (Supplies platform content target offset count)
      (fun result _ => Right content offset count result)
      (dzfile_pread platform.libs dstlen fd count offset) sys := by
  rintro middle relies found after ⟨choice, called, _⟩
  cases called
  have here := descriptor.relied relies
  rcases here.opened with ⟨file, held, rfl, readable⟩
  rcases here.mapped with unmapped | ⟨h5fd, handle, entered, positive, rest⟩
  · rw [unmapped]
    rintro later relies' data last ⟨limitChoice, called, supplied⟩ final _ within
    rcases supplied within with ⟨⟨limit, rfl, enough⟩, visible⟩
    have held' : later.proc.fds fd = some file := by
      rw [relies'.proc]
      exact held
    have node : later.fs.node file.ino = .file content := by
      rw [FileSystem.lookup, relies'.path, here.source] at visible
      exact Option.some.inj visible
    have range :=
      pread_in_range held' readable node within enough called
    rw [range]
  · rw [entered]
    have usable : ¬ h5fd ≤ 0 := by omega
    show
      Ensures _ _ _
        (if h5fd ≤ 0 then (return .returned (-1) [] : Call PreadResult)
        else _) _
    rw [if_neg usable]
    rcases rest with ⟨held', named⟩
    rintro later relies' seen last ⟨_, called, supplied⟩
    cases called
    have handles : later.proc.handles h5fd = some handle := by
      rw [relies'.proc]
      exact held'
    by_cases within : offset + count ≤ content.length
    · rcases supplied within with ⟨holds, fetchable⟩
      rcases holds handle.ino (relies'.image _ named) with
        ⟨image, node, held⟩
      have behind : later.imageOf h5fd = some image := by
        simp [Sys.imageOf, handles, node]
      rw [behind]
      intro final _ _
      exact h5fd_pread_in_range held dstlen within fetchable
    · cases later.imageOf h5fd with
      | none =>
          intro final _ inside
          exact (within inside).elim
      | some image =>
          intro final _ inside
          exact (within inside).elim

end Reading

/-! ## The invariant -/

/-- The pieces are the content; its chunks, if no read was cut short. -/
def Copied (content : Bytes) (filled : Bool) (pieces : List Bytes) : Prop :=
  pieces.flatten = content ∧ (filled = true → Strided content pieces)

/-- The calls of `dzfile_pread`. -/
def looksUp : Op → Prop
  | .find_dzfd _ => True
  | .pread _ _ _ => True
  | .h5image _ => True
  | _ => False

/-- What holds of the converter and of the image. -/
structure Copying
    (platform : Platform) (content : Bytes) (target : Target) (method : Alg)
    (reading : Reading) (src : Ino) (pieces : List Bytes) : Prop where
  undisturbed :
    Undisturbed platform content reading.world.converterSys reading.world.c
      src pieces
  atWork : reading.world.c.target = target
  withMethod : reading.world.c.method = method
  apart : Apart reading.world.fs target src
  unpublished :
    past reading.world.c.pc = false →
      reading.world.fs.entry target.h5name = none
  image :
    ImageOf platform.libs method reading.world.fs target src
      (Copied content reading.filled)
  strided : reading.filled = true → Strided content pieces

/-- What holds of the client. -/
structure Attending
    (platform : Platform) (content : Bytes) (target : Target)
    (reading : Reading) (src : Ino) : Prop where
  opening :
    Ensures (Relies target) (Answers platform) (Obtained target src)
      reading.opening reading.world.clientSys
  opens : reading.opening.AllCalls (opens target.path O_RDONLY)
  reads :
    ∀ thread request, reading.reads thread = some request →
      Ensures (Relies target)
          (Supplies platform content target request.offset request.count)
          (fun result _ =>
            Right content request.offset request.count result)
          request.rest reading.world.clientSys ∧
        request.rest.AllCalls looksUp
  opened :
    ∀ thread request, reading.reads thread = some request →
      ∃ fd, reading.opening = .ret fd

section Steps

variable
    {platform : Platform} {content : Bytes} {target : Target} {method : Alg}
    {reading : Reading} {src : Ino} {pieces : List Bytes}

/-- The calls of a read change nothing. -/
theorem same_of_looksUp
    {sys later : Sys} {choice : Choice} {op : Op} {reply : Reply op}
    (kind : looksUp op)
    (called : kernel platform sys choice op = some (reply, later)) :
    later = sys := by
  cases op with
  | find_dzfd fd =>
      cases called
      rfl
  | h5image h5fd =>
      cases called
      rfl
  | pread fd count offset =>
      simp only [kernel, Sys.pread, Sys.refuse] at called
      repeat' split at called
      all_goals first
        | (cases called; rfl)
        | (rcases Option.map_eq_some_iff.mp called with ⟨_, _, answer⟩
           cases answer
           rfl)
  | _ => exact kind.elim

theorem looksUp_dzfile_pread
    (libs : Libs) (dstlen : Int) (fd : Int) (count : Nat) (offset : Int) :
    (dzfile_pread libs dstlen fd count offset).AllCalls looksUp := by
  refine ⟨trivial, ?_⟩
  rintro (absent | dzfd)
  · exact ⟨trivial, fun _ => trivial⟩
  · show
      (if dzfd.h5fd ≤ 0 then (return .returned (-1) [] : Call PreadResult)
        else _).AllCalls _
    split
    · trivial
    · refine ⟨trivial, ?_⟩
      rintro (lost | image) <;> trivial

/-- Opening for reading changes no file. -/
theorem fs_of_opens
    {sys later : Sys} {choice : Choice} {path : CString} {op : Op}
    {reply : Reply op} (kind : opens path O_RDONLY op)
    (called : kernel platform sys choice op = some (reply, later)) :
    later.fs = sys.fs := by
  cases op with
  | stat name =>
      have quiet : looks (.stat name) := trivial
      exact fs_of_looks quiet called
  | sqlite3_exec stmt =>
      have quiet : looks (.sqlite3_exec stmt) := trivial
      exact fs_of_looks quiet called
  | openFile name flags =>
      rcases kind with ⟨rfl, rfl⟩
      cases reply with
      | error errno => rw [Sys.openFile_eq_error called]
      | ok fd =>
          rcases Sys.openFile_eq_ok (by decide) (by decide) called with
            ⟨number, ino, _, _, _, rfl⟩
          rfl
  | h5fopen name =>
      rcases h5fopen_eq_some called with
        ⟨_, rfl⟩ | ⟨number, ino, image, _, _, _, _, _, rfl⟩
      · rfl
      · rfl
  | malloc =>
      cases choice <;>
        cases called <;>
        rfl
  | add_dzfd fd dzfd =>
      cases called
      rfl
  | _ => exact kind.elim

/-- A step of the converter keeps the copy and lets the client be. -/
theorem Copying.converter
    (copying : Copying platform content target method reading src pieces)
    {choice : Choice} {sys : Sys} {c : Convert}
    (stepped :
      reading.world.c.step platform reading.world.converterSys choice =
        some (sys, c)) :
    (∃ read,
        Copying platform content target method
          { reading with
            world :=
              { reading.world with
                fs := sys.fs
                db := sys.db
                converter := sys.proc
                c := c }
            filled := reading.filled && fills reading.world.c choice }
          src (pieces ++ read)) ∧
      Relies target reading.world.clientSys
        ⟨sys.fs, sys.db, reading.world.client⟩ := by
  rcases moves_of_step stepped with ⟨read, moves⟩
  rcases Moves.source moves with ⟨sameTarget, sameMethod, sameEntry⟩
  have atWork := copying.atWork
  have source := copying.undisturbed.source
  have stage := copying.undisturbed.stage
  constructor
  · refine ⟨read, ?_⟩
    constructor
    · exact copying.undisturbed.step moves
    · exact sameTarget.trans atWork
    · exact sameMethod.trans copying.withMethod
    · have apart := copying.apart
      rw [← atWork] at apart ⊢
      exact apart.step source moves
    · intro before
      have earlier : past reading.world.c.pc = false := by
        by_contra behind
        rw [Bool.not_eq_false] at behind
        have after := (finishes_of_moves moves behind).1
        change past c.pc = false at before
        rw [before] at after
        cases after
      have unchanged := entry_h5name_of_moves moves (by
        intro _ published
        change past c.pc = false at before
        rw [published] at before
        cases before)
      rw [atWork] at unchanged
      exact unchanged.trans (copying.unpublished earlier)
    · have image := copying.image
      have apart := copying.apart
      have method' := copying.withMethod
      rw [← atWork, ← method'] at image
      rw [← atWork] at apart
      have later :
          ImageOf platform.libs reading.world.c.method sys.fs
            reading.world.c.target src
            (Copied content reading.filled) := by
        refine image.step apart source (fun _ => stage) ?_ moves
        intro place
        refine ⟨?_, copying.strided⟩
        exact copying.undisturbed.copy.whole (by simp [complete, place])
      rw [atWork, method'] at later
      apply later.mono
      rintro stored ⟨flatten, strided⟩
      refine ⟨flatten, fun still => strided ?_⟩
      exact (Bool.and_eq_true_iff.mp still).1
    · intro still
      rcases Bool.and_eq_true_iff.mp still with ⟨filled, full⟩
      refine
        strided_of_moves copying.undisturbed (copying.strided filled)
          (FillsBuffer.fullRead ?_) moves
      intro place limit limited
      change reading.world.c.pc = .readBlock at place
      subst limited
      simpa [fills, place] using full
  · constructor
    · rfl
    · rw [← atWork]
      exact sameEntry
    · intro ino named
      change reading.world.fs.entry target.h5name = some ino at named
      have behind : past reading.world.c.pc = true := by
        by_contra before
        rw [Bool.not_eq_true] at before
        rw [copying.unpublished before] at named
        cases named
      have unchanged := entry_h5name_of_moves moves (by
        intro place
        rw [place] at behind
        cases behind)
      rw [atWork] at unchanged
      exact unchanged.trans named

/-- The state of the client says nothing about the converter's copy. -/
theorem Copying.congr
    (copying : Copying platform content target method reading src pieces)
    {later : Reading}
    (fs : later.world.fs = reading.world.fs)
    (converter : later.world.converter = reading.world.converter)
    (c : later.world.c = reading.world.c)
    (filled : later.filled = reading.filled) :
    Copying platform content target method later src pieces := by
  constructor
  · rw [c]
    exact copying.undisturbed.congr fs converter
  · rw [c]
    exact copying.atWork
  · rw [c]
    exact copying.withMethod
  · rw [fs]
    exact copying.apart
  · rw [c, fs]
    exact copying.unpublished
  · rw [fs, filled]
    exact copying.image
  · rw [filled]
    exact copying.strided

/-- The others leave the client what it relies on. -/
theorem Attending.relied
    (attending : Attending platform content target reading src)
    {later : Reading}
    (relies :
      Relies target reading.world.clientSys later.world.clientSys)
    (opening : later.opening = reading.opening)
    (reads : later.reads = reading.reads) :
    Attending platform content target later src := by
  constructor
  · rw [opening]
    exact attending.opening.relied Relies.trans relies
  · rw [opening]
    exact attending.opens
  · intro thread request held
    rw [reads] at held
    rcases attending.reads thread request held with ⟨ensures, kind⟩
    exact ⟨ensures.relied Relies.trans relies, kind⟩
  · rw [opening, reads]
    exact attending.opened

/-- Before the descriptor is there no thread reads. -/
theorem Attending.opener
    (attending : Attending platform content target reading src)
    {op : Op} {next : Reply op → Call Int} {choice : Choice}
    {reply : Reply op} {sys : Sys}
    (opening : reading.opening = .call op next)
    (called :
      kernel platform reading.world.clientSys choice op =
        some (reply, sys)) :
    Attending platform content target
      { reading with
        world := reading.world.ofClient sys
        opening := next reply }
      src := by
  have unread : ∀ thread request, reading.reads thread ≠ some request := by
    intro thread request held
    rcases attending.opened thread request held with ⟨fd, returned⟩
    rw [opening] at returned
    cases returned
  have ensures := attending.opening
  have kind := attending.opens
  rw [opening] at ensures kind
  constructor
  · exact ensures.called (Relies.refl target) ⟨choice, called⟩
  · exact kind.2 reply
  · intro thread request held
    exact (unread thread request held).elim
  · intro thread request held
    exact (unread thread request held).elim

/-- A thread starts to read on the descriptor. -/
theorem Attending.pread
    (attending : Attending platform content target reading src)
    {fd : Int} (opening : reading.opening = .ret fd) (nonneg : 0 ≤ fd)
    (thread offset count : Nat) (dstlen : Int) :
    Attending platform content target
      { reading with
        reads :=
          Function.update reading.reads thread
            (some
              ⟨offset, count,
                dzfile_pread platform.libs dstlen fd count offset⟩) }
      src := by
  have ensures := attending.opening
  rw [opening] at ensures
  have descriptor := ensures.returned (Relies.refl target) nonneg
  constructor
  · exact attending.opening
  · exact attending.opens
  · intro other request held
    change Function.update reading.reads thread _ other = _ at held
    by_cases same : other = thread
    · subst same
      rw [Function.update_self] at held
      cases held
      constructor
      · exact ensures_dzfile_pread descriptor dstlen offset count
      · exact looksUp_dzfile_pread _ _ _ _ _
    · rw [Function.update_of_ne same] at held
      exact attending.reads other request held
  · intro other request held
    exact ⟨fd, opening⟩

/-- A timely call of a read is answered with the content. -/
theorem Copying.supplies
    (copying : Copying platform content target method reading src pieces)
    {thread : Nat} {request : Request} {op : Op}
    {next : Reply op → Call PreadResult} {choice : Choice}
    {reply : Reply op} {sys : Sys}
    (timely : Timely platform content reading (.reader thread choice))
    (held : reading.reads thread = some request)
    (rest : request.rest = .call op next)
    (called :
      kernel platform reading.world.clientSys choice op =
        some (reply, sys)) :
    Supplies platform content target request.offset request.count op
      reading.world.clientSys reply sys := by
  refine ⟨choice, called, ?_⟩
  intro within
  have supplied := timely request held within
  rw [rest, copying.atWork, copying.withMethod] at supplied
  cases op with
  | pread fd count offset => exact supplied
  | h5image h5fd =>
      rcases supplied with ⟨rfl, filled, fetchable⟩
      refine ⟨?_, fetchable⟩
      intro ino named
      rcases copying.image ino named with
        ⟨image, stored, node, _, written, whole, strided⟩
      exact ⟨image, node, written.holds (strided filled) whole⟩
  | _ => trivial

/-- A timely call of a read brings it on, and changes nothing else. -/
theorem Attending.reader
    (attending : Attending platform content target reading src)
    {thread : Nat} {request : Request} {op : Op}
    {next : Reply op → Call PreadResult} {reply : Reply op}
    (held : reading.reads thread = some request)
    (rest : request.rest = .call op next)
    (supplied :
      Supplies platform content target request.offset request.count op
        reading.world.clientSys reply reading.world.clientSys) :
    Attending platform content target
      { reading with
        reads :=
          Function.update reading.reads thread
            (some { request with rest := next reply }) }
      src := by
  rcases attending.reads thread request held with ⟨ensures, kind⟩
  rw [rest] at ensures kind
  constructor
  · exact attending.opening
  · exact attending.opens
  · intro other others started
    change Function.update reading.reads thread _ other = _ at started
    by_cases same : other = thread
    · subst same
      rw [Function.update_self] at started
      cases started
      constructor
      · exact ensures.called (Relies.refl target) supplied
      · exact kind.2 reply
    · rw [Function.update_of_ne same] at started
      exact attending.reads other others started
  · intro other others started
    exact attending.opened thread request held

end Steps

/-- The invariant of a conversion beside readers. -/
def Serving
    (platform : Platform) (content : Bytes) (target : Target) (method : Alg)
    (src : Ino) (reading : Reading) : Prop :=
  (∃ pieces, Copying platform content target method reading src pieces) ∧
    Attending platform content target reading src

section Runs

variable
    {platform : Platform} {content : Bytes} {target : Target} {method : Alg}
    {src : Ino} {reading later : Reading}

/-- Every timely step keeps the invariant. -/
theorem Serving.step {label : Label}
    (serving : Serving platform content target method src reading)
    (timely : Timely platform content reading label)
    (stepped : step platform reading label = some later) :
    Serving platform content target method src later := by
  rcases serving with ⟨⟨pieces, copying⟩, attending⟩
  cases label with
  | converter choice =>
      rcases Option.map_eq_some_iff.mp stepped with ⟨world, converts, rfl⟩
      rcases Option.map_eq_some_iff.mp converts with
        ⟨⟨sys, c⟩, moved, rfl⟩
      rcases copying.converter moved with ⟨⟨read, copies⟩, relies⟩
      constructor
      · exact ⟨pieces ++ read, copies⟩
      · exact attending.relied relies rfl rfl
  | opener choice =>
      rcases Option.map_eq_some_iff.mp stepped with
        ⟨⟨world, opening'⟩, calls, rfl⟩
      rcases World.clientStep_eq_some calls with
        ⟨op, next, reply, sys, opening, called, rfl, rfl⟩
      have kind := attending.opens
      rw [opening] at kind
      have fs := fs_of_opens kind.1 called
      constructor
      · exact ⟨pieces, copying.congr fs rfl rfl rfl⟩
      · exact attending.opener opening called
  | pread thread offset count dstlen =>
      rcases Option.bind_eq_some_iff.mp stepped with ⟨fd, returned, starts⟩
      have opening := Prog.eq_ret_of_returned returned
      split at starts
      · rename_i nonneg
        cases starts
        constructor
        · exact ⟨pieces, copying.congr rfl rfl rfl rfl⟩
        · exact attending.pread opening nonneg.1 _ _ _ _
      · cases starts
  | reader thread choice =>
      rcases Option.bind_eq_some_iff.mp stepped with
        ⟨request, held, reads⟩
      rcases Option.map_eq_some_iff.mp reads with
        ⟨⟨world, rest'⟩, calls, rfl⟩
      rcases World.clientStep_eq_some calls with
        ⟨op, next, reply, sys, rest, called, rfl, rfl⟩
      have kind := (attending.reads thread request held).2
      rw [rest] at kind
      have supplied := copying.supplies timely held rest called
      have same := same_of_looksUp kind.1 called
      subst same
      constructor
      · exact ⟨pieces, copying.congr rfl rfl rfl rfl⟩
      · exact attending.reader held rest supplied

/-- At the start there is neither a piece nor an image. -/
theorem serving_start
    {world : World} {srcfd h5fd : Int}
    (starts : world.c = convert2h5 target method srcfd h5fd)
    (unconverted : Unconverted world.fs target src content)
    (absent : world.fs.entry target.h5name = none)
    (consistent : Consistent world.client) :
    Serving platform content target method src (.start world) := by
  constructor
  · refine ⟨[], ?_⟩
    constructor
    · show Undisturbed platform content world.converterSys world.c src []
      rw [starts]
      exact undisturbed_initial unconverted method srcfd h5fd
    · show world.c.target = target
      rw [starts]
      rfl
    · show world.c.method = method
      rw [starts]
      rfl
    · constructor
      · exact unconverted.apart
      · intro ino _
        show world.fs.entry target.h5name ≠ some ino
        rw [absent]
        exact nofun
    · intro _
      exact absent
    · intro ino named
      change world.fs.entry target.h5name = some ino at named
      rw [absent] at named
      cases named
    · intro _
      exact strided_nil content
  · have opening :
        (Reading.start world).opening = dzfile_open target.path O_RDONLY := by
      show dzfile_open world.c.target.path O_RDONLY = _
      rw [starts]
      rfl
    constructor
    · rw [opening]
      exact ensures_dzfile_open unconverted.source consistent
    · rw [opening]
      exact opens_dzfile_open _ _
    · intro thread request held
      cases held
    · intro thread request held
      cases held

theorem Serving.allRight
    (serving : Serving platform content target method src reading) :
    AllRight content reading := by
  intro thread request result held returned
  have ensures := (serving.2.reads thread request held).1
  rw [returned] at ensures
  exact ensures.returned (Relies.refl target)

/--
In every run in which each read of the visible file comes before the
truncation and is answered in full, and each read of the image finds blocks
that the converter filled and the reader can fetch, every read is right.
-/
theorem reads_right_of_timely
    {world : World} {srcfd h5fd : Int} {labels : List Label}
    (starts : world.c = convert2h5 target method srcfd h5fd)
    (unconverted : Unconverted world.fs target src content)
    (absent : world.fs.entry target.h5name = none)
    (consistent : Consistent world.client)
    (timely :
      Along (step platform) (Timely platform content) (.start world) labels) :
    Throughout (step platform) (AllRight content) (.start world) labels :=
  throughout_of_along
    (Serving platform content target method src)
    (fun _ serving => serving.allRight)
    (fun _ _ _ serving timely stepped => serving.step timely stepped)
    (serving_start starts unconverted absent consistent)
    timely

end Runs

/-- `/f` holds one byte; its conversion is about to start. -/
def worldF : World :=
  .beside (convert2h5 targetF .DZ_ALG_ZSTD 0 0) (storeF [7])

/-- The client opens `/f` while it has no image. -/
def opensF : List Label :=
  [.opener (.ok 0), .opener (.ok 0), .opener (.ok 3)]

/-- A thread reads the byte. -/
def readsF : List Label :=
  [.pread 0 0 1 0, .reader 0 (.ok 0), .reader 0 (.ok 1)]

/-- The conversion of `/f`. -/
def convertsF : List Label :=
  (.ok 0 :: .ok 0 :: List.replicate 13 (.ok 1)).map .converter

theorem timely_readsF :
    Along (step storingPlatform) (Timely storingPlatform [7])
      (.start worldF) (opensF ++ readsF ++ convertsF) := by
  apply along_cons_of_step trivial rfl
  apply along_cons_of_step trivial rfl
  apply along_cons_of_step trivial rfl
  apply along_cons_of_step trivial rfl
  apply along_cons_of_step ?_ rfl
  · apply along_cons_of_step ?_ rfl
    · apply along_of_forall
      intro state label member
      rcases List.mem_map.mp member with ⟨choice, _, rfl⟩
      trivial
    · intro request held _
      cases held
      exact ⟨⟨1, rfl, by decide⟩, rfl⟩
  · intro request held _
    cases held
    trivial

theorem reads_right_of_timely_readsF :
    Throughout (step storingPlatform) (AllRight [7]) (.start worldF)
      (opensF ++ readsF ++ convertsF) :=
  reads_right_of_timely rfl (unconverted_storeF [7]) rfl
    (fun _ _ => rfl) timely_readsF

/-- A client that opens `/f` before its conversion reads zeros afterwards. -/
theorem reader_sees_truncation :
    ¬ ∀ (platform : Platform) (content : Bytes) (target : Target)
        (method : Alg) (src : Ino) (world : World) (srcfd h5fd : Int)
        (labels : List Label) (final : Reading),
        world.c = convert2h5 target method srcfd h5fd →
          Unconverted world.fs target src content →
            world.fs.entry target.h5name = none →
              Consistent world.client →
                run (step platform) (.start world) labels = some final →
                  AllRight content final := by
  intro claimed
  have reads :
      (run (step storingPlatform) (.start worldF)
            (opensF ++ convertsF ++ readsF)).bind
          (fun final =>
            (final.reads 0).map fun request =>
              (request.offset, request.count, request.rest.returned)) =
        some (0, 1, some (.returned 1 [0])) := by
    decide +kernel
  rcases Option.bind_eq_some_iff.mp reads with ⟨final, ran, observed⟩
  rcases Option.map_eq_some_iff.mp observed with ⟨request, held, result⟩
  simp only [Prod.mk.injEq] at result
  rcases result with ⟨offset, count, returned⟩
  have right :=
    claimed storingPlatform [7] targetF .DZ_ALG_ZSTD 0 worldF 0 0 _ final rfl
      (unconverted_storeF [7]) rfl (fun _ _ => rfl) ran 0 request
  have wrong := right _ held (Prog.eq_ret_of_returned returned)
  rw [offset, count] at wrong
  have zero := wrong (by decide)
  revert zero
  decide

end DZFile.Readers
