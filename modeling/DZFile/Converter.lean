import DZFile.Kernel

/-!
# The converter

`convert2h5` as an activation record: its locals and the place it has reached.
Every call it makes to the environment is one step, so that other threads and
processes can run between any two of them.

`Moves` is the inversion of one step: everything a step can do to the system
and to the record, and the bytes it has read from the source.  No later proof
looks into the kernel or into the program text again.
-/

namespace DZFile.Converter

open DZFile.ByteSeq
open DZFile.Interaction
open DZFile.Names
open DZFile.Codec
open DZFile.Image
open DZFile.Kernel

/-! ## The activation record -/

/--
A path together with the name of its hidden image.  Without a slash in the
path `buildHiddenFile` fails and `convert2h5` returns -1 before any call.
-/
structure Target where
  path : CString
  h5name : CString
  built : buildHiddenFile path = some h5name

namespace Target

/-- `tmp_h5name`. -/
def temp (target : Target) : CString :=
  tempName target.h5name

theorem h5name_ne_path (target : Target) : target.h5name ≠ target.path :=
  buildHiddenFile_ne target.built

theorem temp_ne_path (target : Target) : target.temp ≠ target.path :=
  tempName_ne_path target.built

theorem temp_ne_h5name (target : Target) : target.temp ≠ target.h5name :=
  tempName_ne_image target.h5name

end Target

/-- The next call of `convert2h5`. -/
inductive Pc where
  | statImage
  | statTemp
  | openSource
  | createTemp
  | writeHeader (version : Bytes)
  | readBlock
  | compressBlock (buffer : Bytes)
  | writeBlock (buffer dstdata : Bytes)
  | renameTemp
  | statSource
  | truncateZero
  | truncateSize
  | closeSource
  | closeImage
  | returned
deriving DecidableEq

/-- The locals of `convert2h5`. -/
structure Convert where
  target : Target
  method : Alg
  pc : Pc
  srcfd : Int
  h5fd : Int
  count : Nat
  stSize : Nat
  ret : Int

/-- The text written to the dataset `algorithm`, for the methods that have one. -/
def version (libs : Libs) (method : Alg) : Option Bytes :=
  match method with
  | .DZ_ALG_ZLIB =>
      some ((zlibText ++ [32] ++ libs.zlib.version).takeWhile (· ≠ 0))
  | .DZ_ALG_ZSTD =>
      some ((zstdText ++ [32] ++ libs.zstd.versionString).takeWhile (· ≠ 0))
  | _ => none

/--
The record on entry.  `srcfd` and `h5fd` are the values of the uninitialised
locals, which the label `out` tests on the early exits.
-/
def convert2h5 (target : Target) (method : Alg) (srcfd h5fd : Int) :
    Convert where
  target := target
  method := method
  pc := .statImage
  srcfd := srcfd
  h5fd := h5fd
  count := 0
  stSize := 0
  ret := 0

namespace Convert

/-- The second test of the label `out`. -/
def outImage (c : Convert) : Convert :=
  if 0 < c.h5fd then { c with pc := .closeImage }
  else { c with pc := .returned }

/-- `goto out` with a return value. -/
def out (c : Convert) (ret : Int) : Convert :=
  if 0 < c.srcfd then { c with pc := .closeSource, ret := ret }
  else { c with ret := ret }.outImage

/-- What the record does next. -/
def action (libs : Libs) (c : Convert) : Action Op Reply Convert Int :=
  match c.pc with
  | .statImage =>
      .call (.stat c.target.h5name) fun
        | .ok _ => c.out (-1)
        | .error _ => { c with pc := .statTemp }
  | .statTemp =>
      .call (.stat c.target.temp) fun
        | .ok _ => c.out (-1)
        | .error _ => { c with pc := .openSource }
  | .openSource =>
      .call (.openFile c.target.path O_RDONLY) fun
        | .error _ => { c with srcfd := -1 }.out (-1)
        | .ok fd => { c with srcfd := fd, pc := .createTemp }
  | .createTemp =>
      .call (.h5fcreate c.target.temp) fun
        | none => { c with h5fd := -1 }.out (-1)
        | some h5fd =>
            match version libs c.method with
            | none => { c with h5fd := h5fd }.out (-1)
            | some text => { c with h5fd := h5fd, pc := .writeHeader text }
  | .writeHeader text =>
      .call (.h5dwrite c.h5fd .algorithm text) fun written =>
        if written then { c with pc := .readBlock } else c.out (-1)
  | .readBlock =>
      .call (.read c.srcfd H5_BUFSIZE) fun
        | .error _ => c.out (-1)
        | .ok [] => { c with pc := .renameTemp }
        | .ok buffer => { c with pc := .compressBlock buffer }
  | .compressBlock buffer =>
      .call (.compress c.method buffer) fun
        | none => c.out (-1)
        | some dstdata => { c with pc := .writeBlock buffer dstdata }
  | .writeBlock _ dstdata =>
      .call (.h5dwrite c.h5fd (.block (wrap32 c.count)) dstdata) fun written =>
        let counted := { c with count := c.count + 1 }
        if written then { counted with pc := .readBlock } else counted.out (-1)
  | .renameTemp =>
      .call (.rename c.target.temp c.target.h5name) fun
        | .error _ => c.out (-1)
        | .ok _ => { c with pc := .statSource }
  | .statSource =>
      .call (.stat c.target.path) fun
        | .error _ => c.out (-1)
        | .ok stbuf => { c with stSize := stbuf.size, pc := .truncateZero }
  | .truncateZero =>
      .call (.truncate c.target.path 0) fun
        | .error _ => c.out (-1)
        | .ok _ => { c with pc := .truncateSize }
  | .truncateSize =>
      .call (.truncate c.target.path c.stSize) fun
        | .error _ => c.out (-1)
        | .ok _ => c.out 0
  | .closeSource =>
      .call (.close c.srcfd) fun _ => c.outImage
  | .closeImage =>
      .call (.h5fclose c.h5fd) fun _ => { c with pc := .returned }
  | .returned => .done c.ret

/-- One call of the converter. -/
def step (platform : Platform) (sys : Sys) (c : Convert) (choice : Choice) :
    Option (Sys × Convert) :=
  advance (kernel platform) (action platform.libs) sys c choice

end Convert

/-- One call of a converter that nothing interferes with. -/
def soloStep (platform : Platform) (state : Sys × Convert) (choice : Choice) :
    Option (Sys × Convert) :=
  state.2.step platform state.1 choice

/-- `convert2h5` has returned 0. -/
def Succeeded (c : Convert) : Prop :=
  c.pc = .returned ∧ c.ret = 0

/-! ## Places -/

/-- The converter is on its way out. -/
def Pc.exiting : Pc → Bool
  | .closeSource => true
  | .closeImage => true
  | .returned => true
  | _ => false

/-- The converter has created the temporary file and not yet renamed it. -/
def Pc.building : Pc → Bool
  | .writeHeader _ => true
  | .readBlock => true
  | .compressBlock _ => true
  | .writeBlock _ _ => true
  | .renameTemp => true
  | _ => false

/-- The converter has renamed the temporary file and not yet left. -/
def Pc.publishing : Pc → Bool
  | .statSource => true
  | .truncateZero => true
  | .truncateSize => true
  | _ => false

/-- The converter has not truncated its source. -/
def Pc.intact : Pc → Bool
  | .truncateSize => false
  | .closeSource => false
  | .closeImage => false
  | .returned => false
  | _ => true

/-- What has been read and is not yet stored. -/
def Pc.pending : Pc → List Bytes
  | .compressBlock buffer => [buffer]
  | .writeBlock buffer _ => [buffer]
  | _ => []

namespace Convert

variable (c : Convert) (ret : Int)

@[simp]
theorem target_outImage : c.outImage.target = c.target := by
  unfold outImage
  split <;> rfl

@[simp]
theorem target_out : (c.out ret).target = c.target := by
  unfold out
  split <;> simp

@[simp]
theorem ret_outImage : c.outImage.ret = c.ret := by
  unfold outImage
  split <;> rfl

@[simp]
theorem ret_out : (c.out ret).ret = ret := by
  unfold out
  split <;> simp

@[simp]
theorem h5fd_outImage : c.outImage.h5fd = c.h5fd := by
  unfold outImage
  split <;> rfl

@[simp]
theorem h5fd_out : (c.out ret).h5fd = c.h5fd := by
  unfold out
  split <;> simp

@[simp]
theorem method_outImage : c.outImage.method = c.method := by
  unfold outImage
  split <;> rfl

@[simp]
theorem method_out : (c.out ret).method = c.method := by
  unfold out
  split <;> simp

@[simp]
theorem exiting_outImage : c.outImage.pc.exiting = true := by
  unfold outImage
  split <;> rfl

@[simp]
theorem exiting_out : (c.out ret).pc.exiting = true := by
  unfold out
  split
  · rfl
  · simp

end Convert

/-! ## What a step can do -/

/-- What `H5Fcreate` makes of the name of the temporary file. -/
inductive Created (fs : FileSystem) (temp : CString) :
    Ino → FileSystem → Prop where
  | fresh (absent : fs.entry temp = none) :
      Created fs temp fs.fresh (fs.link temp (.image .created))
  | emptied
      (ino : Ino) (found : fs.entry temp = some ino)
      (unlocked :
        ∀ image, fs.node ino = .image image → image.writer = false) :
      Created fs temp ino (fs.put ino (.image .created))

/--
One step of the converter from `sys` and `c` under a choice, with the bytes it
reads from the source.
-/
inductive Moves
    (platform : Platform) (sys : Sys) (c : Convert) (choice : Choice) :
    List Bytes → Sys → Convert → Prop where
  /-- A look at a name that finds nothing. -/
  | looks
      (next : Pc)
      (places :
        (c.pc = .statImage ∧ next = .statTemp) ∨
          (c.pc = .statTemp ∧ next = .openSource)) :
      Moves platform sys c choice [] sys { c with pc := next }
  /-- A failing call, or a name that should not exist. -/
  | fails
      (earlier : Convert) (inside : c.pc.exiting = false)
      (target : earlier.target = c.target)
      (method : earlier.method = c.method) :
      Moves platform sys c choice [] sys (earlier.out (-1))
  | opens
      (number : Nat) (ino : Ino) (place : c.pc = .openSource)
      (free : sys.proc.fds number = none)
      (found : sys.fs.entry c.target.path = some ino) :
      Moves platform sys c choice []
        { sys with
          proc := sys.proc.setFd number (some ⟨ino, 0, O_RDONLY⟩) }
        { c with srcfd := number, pc := .createTemp }
  | creates
      (number : Nat) (ino : Ino) (fs : FileSystem) (next : Convert)
      (place : c.pc = .createTemp) (granted : choice.fails = false)
      (positive : 0 < number)
      (free : sys.proc.handles number = none)
      (created : Created sys.fs c.target.temp ino fs)
      (continues :
        (∃ text, version platform.libs c.method = some text ∧
            next = { c with h5fd := number, pc := .writeHeader text }) ∨
          next = { c with h5fd := (number : Int) }.out (-1)) :
      Moves platform sys c choice []
        { sys with
          fs := fs
          proc := sys.proc.setHandle number (some ⟨ino, true⟩) }
        next
  | writesHeader
      (text : Bytes) (handle : H5Handle) (image : H5Image)
      (place : c.pc = .writeHeader text)
      (held : sys.proc.handles c.h5fd = some handle)
      (stored : sys.fs.node handle.ino = .image image) :
      Moves platform sys c choice []
        { sys with
          fs :=
            sys.fs.put handle.ino (.image (image.addDataset .algorithm text)) }
        { c with pc := .readBlock }
  | reads
      (buffer : Bytes) (limit : Nat) (file : OpenFile)
      (place : c.pc = .readBlock) (limited : choice = .ok limit)
      (nonempty : buffer ≠ [])
      (held : sys.proc.fds c.srcfd = some file)
      (data :
        buffer =
          slice ((sys.fs.node file.ino).bytes platform) file.offset
            (min limit H5_BUFSIZE)) :
      Moves platform sys c choice [buffer]
        { sys with
          proc :=
            sys.proc.setFd c.srcfd
              (some { file with offset := file.offset + buffer.length }) }
        { c with pc := .compressBlock buffer }
  | meetsEnd
      (file : OpenFile) (place : c.pc = .readBlock)
      (held : sys.proc.fds c.srcfd = some file)
      (ended :
        ((sys.fs.node file.ino).bytes platform).length ≤ file.offset) :
      Moves platform sys c choice [] sys { c with pc := .renameTemp }
  | compresses
      (buffer dstdata : Bytes) (place : c.pc = .compressBlock buffer)
      (compressed :
        compress_data platform.libs c.method buffer = some dstdata) :
      Moves platform sys c choice [] sys { c with pc := .writeBlock buffer dstdata }
  | writesBlock
      (buffer dstdata : Bytes) (handle : H5Handle) (image : H5Image)
      (place : c.pc = .writeBlock buffer dstdata)
      (held : sys.proc.handles c.h5fd = some handle)
      (stored : sys.fs.node handle.ino = .image image)
      (absent : image.dataset (.block (wrap32 c.count)) = none) :
      Moves platform sys c choice []
        { sys with
          fs :=
            sys.fs.put handle.ino
              (.image
                (image.addDataset (.block (wrap32 c.count)) dstdata)) }
        { c with count := c.count + 1, pc := .readBlock }
  | publishes
      (ino : Ino) (place : c.pc = .renameTemp)
      (found : sys.fs.entry c.target.temp = some ino) :
      Moves platform sys c choice []
        { sys with fs := sys.fs.move c.target.temp c.target.h5name }
        { c with pc := .statSource }
  | sizes
      (ino : Ino) (place : c.pc = .statSource)
      (found : sys.fs.entry c.target.path = some ino) :
      Moves platform sys c choice [] sys
        { c with
          stSize := ((sys.fs.node ino).bytes platform).length
          pc := .truncateZero }
  | empties
      (ino : Ino) (place : c.pc = .truncateZero)
      (granted : choice.fails = false)
      (found : sys.fs.entry c.target.path = some ino) :
      Moves platform sys c choice []
        { sys with fs := sys.resizeNode platform ino 0 }
        { c with pc := .truncateSize }
  | regrows
      (ino : Ino) (place : c.pc = .truncateSize)
      (found : sys.fs.entry c.target.path = some ino) :
      Moves platform sys c choice []
        { sys with fs := sys.resizeNode platform ino c.stSize }
        (c.out 0)
  | closesSource (place : c.pc = .closeSource) :
      Moves platform sys c choice []
        { sys with proc := sys.proc.setFd c.srcfd none } c.outImage
  | closesImage
      (handle : H5Handle) (place : c.pc = .closeImage)
      (held : sys.proc.handles c.h5fd = some handle) :
      Moves platform sys c choice []
        { sys with
          fs := sys.released handle (!choice.fails)
          proc := sys.proc.setHandle c.h5fd none }
        { c with pc := .returned }
  | closesNothing
      (place : c.pc = .closeImage)
      (lost : sys.proc.handles c.h5fd = none) :
      Moves platform sys c choice [] sys { c with pc := .returned }

section Inversion

variable
    {platform : Platform} {sys sys' : Sys} {c c' : Convert}
    {choice : Choice}

/-- `H5Fcreate` yields a fresh writing handle or nothing. -/
theorem h5fcreate_eq_some
    {path : CString} {h5fd : Option Int}
    (called : sys.h5fcreate choice path = some (h5fd, sys')) :
    (h5fd = none ∧ sys' = sys) ∨
      ∃ number : Nat, ∃ ino fs,
        h5fd = some (number : Int) ∧ choice.fails = false ∧ 0 < number ∧
          sys.proc.handles number = none ∧
            Created sys.fs path ino fs ∧
              sys' =
                { sys with
                  fs := fs
                  proc := sys.proc.setHandle number (some ⟨ino, true⟩) } := by
  unfold Sys.h5fcreate Sys.installHandle at called
  split at called
  · cases called
    exact Or.inl ⟨rfl, rfl⟩
  · rename_i number
    split at called
    · cases called
    · rename_i allowed
      rw [not_or, not_not] at allowed
      rcases allowed with ⟨positive, free⟩
      have granted : 0 < number := Nat.pos_of_ne_zero positive
      split at called
      · rename_i absent
        cases called
        exact
          Or.inr
            ⟨number, _, _, rfl, rfl, granted, free, .fresh absent, rfl⟩
      · rename_i ino found
        split at called
        · cases called
          exact Or.inl ⟨rfl, rfl⟩
        · rename_i content node
          cases called
          refine
            Or.inr
              ⟨number, _, _, rfl, rfl, granted, free, .emptied ino found ?_, rfl⟩
          intro image isImage
          rw [node] at isImage
          cases isImage
        · rename_i image node
          split at called
          · cases called
            exact Or.inl ⟨rfl, rfl⟩
          · rename_i unlocked
            cases called
            refine
              Or.inr
                ⟨number, _, _, rfl, rfl, granted, free, .emptied ino found ?_,
                  rfl⟩
            intro other isImage
            rw [node] at isImage
            cases isImage
            simpa using unlocked

/-- Every step of the converter is one of the moves. -/
theorem moves_of_step
    (stepped : c.step platform sys choice = some (sys', c')) :
    ∃ read, Moves platform sys c choice read sys' c' := by
  rcases advance_eq_some.mp stepped with ⟨op, next, reply, action, called, rfl⟩
  unfold Convert.action at action
  cases place : c.pc with
  | statImage =>
      rw [place] at action
      cases action
      rcases Sys.stat_eq_some called with ⟨rfl, _⟩
      cases reply with
      | ok stbuf =>
          exact ⟨[], .fails c (by rw [place]; rfl) rfl rfl⟩
      | error errno =>
          exact ⟨[], .looks _ (Or.inl ⟨place, rfl⟩)⟩
  | statTemp =>
      rw [place] at action
      cases action
      rcases Sys.stat_eq_some called with ⟨rfl, _⟩
      cases reply with
      | ok stbuf =>
          exact ⟨[], .fails c (by rw [place]; rfl) rfl rfl⟩
      | error errno =>
          exact ⟨[], .looks _ (Or.inr ⟨place, rfl⟩)⟩
  | openSource =>
      rw [place] at action
      cases action
      cases reply with
      | error errno =>
          rcases Sys.openFile_eq_error called with rfl
          exact
            ⟨[], .fails { c with srcfd := -1 } (by rw [place]; rfl) rfl rfl⟩
      | ok fd =>
          rcases Sys.openFile_eq_ok (by decide) (by decide) called with
            ⟨number, ino, rfl, free, found, rfl⟩
          exact ⟨[], .opens number ino place free found⟩
  | createTemp =>
      rw [place] at action
      cases action
      rcases h5fcreate_eq_some called with
        ⟨rfl, rfl⟩ |
          ⟨number, ino, fs, rfl, granted, positive, free, created, rfl⟩
      · exact
          ⟨[], .fails { c with h5fd := -1 } (by rw [place]; rfl) rfl rfl⟩
      · refine ⟨[], .creates number ino fs _ place granted positive free created ?_⟩
        cases text : version platform.libs c.method with
        | none => exact Or.inr rfl
        | some bytes => exact Or.inl ⟨bytes, rfl, rfl⟩
  | writeHeader text =>
      rw [place] at action
      cases action
      rcases Sys.h5dwrite_eq_some called with
        ⟨rfl, rfl⟩ | ⟨rfl, handle, image, held, stored, _, rfl⟩
      · exact ⟨[], .fails c (by rw [place]; rfl) rfl rfl⟩
      · exact ⟨[], .writesHeader text handle image place held stored⟩
  | readBlock =>
      rw [place] at action
      cases action
      cases reply with
      | error errno =>
          rcases Sys.read_eq_error called with rfl
          exact ⟨[], .fails c (by rw [place]; rfl) rfl rfl⟩
      | ok data =>
          rcases Sys.read_eq_ok H5_BUFSIZE_pos called with
            ⟨limit, file, rfl, held, slice, rfl, ended⟩
          cases data with
          | nil =>
              have same :
                  sys.proc.setFd c.srcfd
                      (some
                        { file with
                          offset := file.offset + ([] : Bytes).length }) =
                    sys.proc := by
                simp only [List.length_nil, Nat.add_zero]
                rw [Process.setFd, ← held, Function.update_eq_self]
              rw [same]
              exact ⟨[], .meetsEnd file place held (ended rfl)⟩
          | cons byte rest =>
              exact
                ⟨[byte :: rest],
                  .reads (byte :: rest) limit file place rfl (by simp) held
                    slice⟩
  | compressBlock buffer =>
      rw [place] at action
      cases action
      rcases Sys.compress_eq_some called with ⟨rfl, rfl⟩ | ⟨compressed, rfl⟩
      · exact ⟨[], .fails c (by rw [place]; rfl) rfl rfl⟩
      · cases reply with
        | none => exact ⟨[], .fails c (by rw [place]; rfl) rfl rfl⟩
        | some dstdata =>
            exact ⟨[], .compresses buffer dstdata place compressed.symm⟩
  | writeBlock buffer dstdata =>
      rw [place] at action
      cases action
      rcases Sys.h5dwrite_eq_some called with
        ⟨rfl, rfl⟩ | ⟨rfl, handle, image, held, stored, absent, rfl⟩
      · exact
          ⟨[],
            .fails { c with count := c.count + 1 } (by rw [place]; rfl) rfl rfl⟩
      · exact
          ⟨[],
            .writesBlock buffer dstdata handle image place held stored absent⟩
  | renameTemp =>
      rw [place] at action
      cases action
      rcases Sys.rename_eq_some c.target.temp_ne_h5name called with
        ⟨errno, rfl, rfl⟩ | ⟨rfl, ino, found, rfl⟩
      · exact ⟨[], .fails c (by rw [place]; rfl) rfl rfl⟩
      · exact ⟨[], .publishes ino place found⟩
  | statSource =>
      rw [place] at action
      cases action
      rcases Sys.stat_eq_some called with ⟨rfl, size⟩
      cases reply with
      | error errno => exact ⟨[], .fails c (by rw [place]; rfl) rfl rfl⟩
      | ok stbuf =>
          rcases size stbuf rfl with ⟨ino, found, length⟩
          simp only [length]
          exact ⟨[], .sizes ino place found⟩
  | truncateZero =>
      rw [place] at action
      cases action
      have emptied :=
        @Sys.truncate_eq_some platform sys sys' choice c.target.path 0 reply
          called
      rcases emptied with
        ⟨errno, rfl, rfl⟩ | ⟨rfl, granted, ino, found, rfl⟩
      · exact ⟨[], .fails c (by rw [place]; rfl) rfl rfl⟩
      · exact ⟨[], .empties ino place granted found⟩
  | truncateSize =>
      rw [place] at action
      cases action
      rcases Sys.truncate_eq_some called with
        ⟨errno, rfl, rfl⟩ | ⟨rfl, granted, ino, found, rfl⟩
      · exact ⟨[], .fails c (by rw [place]; rfl) rfl rfl⟩
      · exact ⟨[], .regrows ino place found⟩
  | closeSource =>
      rw [place] at action
      cases action
      rcases Sys.close_eq_some called with rfl
      exact ⟨[], .closesSource place⟩
  | closeImage =>
      rw [place] at action
      cases action
      rcases Sys.h5fclose_eq_some called with
        ⟨lost, rfl⟩ | ⟨handle, held, rfl⟩
      · exact ⟨[], .closesNothing place lost⟩
      · exact ⟨[], .closesImage handle place held⟩
  | returned =>
      rw [place] at action
      cases action

end Inversion

end DZFile.Converter
