import DZFile.Codec
import Mathlib.Tactic.Ring

/-!
# HDF5 images and their reader

An image is an HDF5 file with one dataset `algorithm` and datasets `block0`,
`block1`, ..., each stored as a fixed-length string.  HDF5 itself is external;
the model keeps the datasets in the order they were written and whether the
last close succeeded, and every access below follows the checks the source
makes around the library calls.

`h5fd_pread` is embedded with its own arithmetic: the block number, the
product `blocknum * H5_BUFSIZE` and `validbytes` are 32-bit, the offsets are
64-bit, and `count - nbread` is unsigned.  A copy that leaves the decoded
block is undefined behaviour, and a pass that copies nothing repeats itself
forever.
-/

namespace DZFile.Image

open DZFile.ByteSeq
open DZFile.Codec

/-- The name of a dataset: `"algorithm"` or `"block%d"`. -/
inductive Dataset where
  | algorithm
  | block (number : Int)
deriving DecidableEq

/-- The data of an entry that is a block. -/
def blockOf : Dataset × Bytes → Option Bytes
  | (.algorithm, _) => none
  | (.block _, data) => some data

/-- An HDF5 file. -/
structure H5Image where
  /-- The datasets in the order they were written. -/
  datasets : List (Dataset × Bytes)
  /-- A handle that may write to the file is open. -/
  writer : Bool
  /-- `H5Fclose` has succeeded on the handle that wrote the file. -/
  closed : Bool
deriving DecidableEq

namespace H5Image

/-- The contents of a dataset. -/
def dataset (image : H5Image) (name : Dataset) : Option Bytes :=
  image.datasets.lookup name

/-- The stored blocks in the order they were written. -/
def blocks (image : H5Image) : List Bytes :=
  image.datasets.filterMap blockOf

/-- A file right after `H5Fcreate`. -/
def created : H5Image where
  datasets := []
  writer := true
  closed := false

/-- Add a dataset. -/
def addDataset (image : H5Image) (name : Dataset) (data : Bytes) : H5Image :=
  { image with datasets := image.datasets ++ [(name, data)] }

@[simp]
theorem blocks_created : created.blocks = [] :=
  rfl

@[simp]
theorem blocks_addDataset_algorithm (image : H5Image) (data : Bytes) :
    (image.addDataset .algorithm data).blocks = image.blocks := by
  simp [addDataset, blocks, blockOf]

@[simp]
theorem blocks_addDataset_block
    (image : H5Image) (number : Int) (data : Bytes) :
    (image.addDataset (.block number) data).blocks =
      image.blocks ++ [data] := by
  simp [addDataset, blocks, blockOf]

/-- The content the blocks decode to, in the order they were written. -/
def decode (libs : Libs) (method : Alg) (image : H5Image) : Option Bytes :=
  (image.blocks.mapM (blockContent libs method)).map List.flatten

end H5Image

/-! ## Access to single datasets -/

/--
`hdf5_readdata`: the whole dataset, if its length as an `int`, converted to
`size_t`, is less than `buflen`.
-/
def hdf5_readdata
    (image : H5Image) (name : Dataset) (buflen : Nat) : Outcome Bytes :=
  match image.dataset name with
  | none => .err
  | some data =>
      let len := wrap32 data.length
      if len < 0 ∨ (buflen : Int) ≤ len then .err
      else if (data.length : Int) = len then .ok data
      else .fault

/-- `hdf5_readstr`: the string up to its first NUL, if it fits. -/
def hdf5_readstr
    (image : H5Image) (name : Dataset) (str_len : Nat) : Option Bytes :=
  match image.dataset name with
  | none => none
  | some data =>
      if str_len ≤ data.length then none
      else some (data.takeWhile (· ≠ 0))

/-- The text before the first space. -/
def firstWord (text : Bytes) : Bytes :=
  text.takeWhile (· ≠ 32)

/-- `"zlib"`, `"zstd"` and `"isal"` as bytes. -/
def zlibText : Bytes := [122, 108, 105, 98]

@[inherit_doc zlibText]
def zstdText : Bytes := [122, 115, 116, 100]

@[inherit_doc zlibText]
def isalText : Bytes := [105, 115, 97, 108]

/-- `getAlgorithm`. -/
def getAlgorithm (image : H5Image) : Alg :=
  match hdf5_readstr image .algorithm 1024 with
  | none => .DZ_ALG_UNKOWN
  | some algorithm =>
      let name := firstWord algorithm
      if name = zlibText then .DZ_ALG_ZLIB
      else if name = zstdText then .DZ_ALG_ZSTD
      else if name = isalText then .DZ_ALG_ISAL
      else .DZ_ALG_UNKOWN

/-! ## The positional reader -/

/-- How a call of `h5fd_pread` ends. -/
inductive PreadResult where
  /-- It returns `ret` having filled the start of the buffer with `buf`. -/
  | returned (ret : Int) (buf : Bytes)
  | fault
  | diverges
deriving DecidableEq

/-- Conversion of an `int` to `size_t`. -/
def toSize (value : Int) : Int :=
  if value < 0 then value + 18446744073709551616 else value

/-- `(int)(curoff / H5_BUFSIZE)`. -/
def blocknum (curoff : Int) : Int :=
  wrap32 (curoff.tdiv H5_BUFSIZE)

/-- `srcp - dstdata`. -/
def srcIndex (curoff : Int) : Int :=
  curoff - wrap32 (blocknum curoff * H5_BUFSIZE)

/-- `validbytes` before it is cut to the request. -/
def validbytes (dstlen curoff : Int) : Int :=
  wrap32 (dstlen - curoff + wrap32 (blocknum curoff * H5_BUFSIZE))

/-- `validbytes` after it has been cut to `count - nbread`. -/
def copyLength (valid : Int) (room : Nat) : Int :=
  if (room : Int) < toSize valid then wrap32 room else valid

/-- What one pass over a decoded block does. -/
inductive Pass where
  /-- No valid byte: the loop is left. -/
  | stop
  /-- Nothing is copied, so the next pass starts in the same state. -/
  | repeats
  /-- The copy leaves the decoded block. -/
  | outside
  | copy (piece : Bytes) (nonempty : piece ≠ [])

/-- The part of the loop body after `decompress_data` has succeeded. -/
def pass (data : Bytes) (curoff : Int) (room : Nat) : Pass :=
  let valid := validbytes data.length curoff
  let length := copyLength valid room
  if valid = 0 then .stop
  else if length = 0 then .repeats
  else if inside :
      0 < length ∧ 0 ≤ srcIndex curoff ∧
        srcIndex curoff + length ≤ data.length then
    .copy (slice data (srcIndex curoff).toNat length.toNat) (by
      intro empty
      have none := congrArg List.length empty
      simp only [length_slice, List.length_nil] at none
      omega)
  else .outside

/--
The loop of `h5fd_pread`.  `buf` is what has been copied so far, so `nbread`
is its length; `dst` and `dstlen` are what `dstdata` and `dstlen` describe.
-/
def h5fd_preadLoop
    (libs : Libs) (image : H5Image) (method : Alg) (count : Nat)
    (dst : Option Nat) (dstlen curoff : Int) (buf : Bytes) : PreadResult :=
  if _more : buf.length < count then
    match hdf5_readdata image (.block (blocknum curoff)) H5_BUFSIZE with
    | .fault => .fault
    | .err => .returned (-1) buf
    | .ok [] => .returned (-1) buf
    | .ok zipdata =>
        match decompress_data libs method dst dstlen zipdata with
        | .fault => .fault
        | .err => .returned (-1) buf
        | .ok data =>
            match pass data curoff (count - buf.length) with
            | .stop => .returned buf.length buf
            | .repeats => .diverges
            | .outside => .fault
            | .copy piece _ =>
                h5fd_preadLoop libs image method count
                  (some data.length) data.length (curoff + piece.length)
                  (buf ++ piece)
  else .returned buf.length buf
termination_by count - buf.length
decreasing_by
  rename_i nonempty
  have positive := List.length_pos_of_ne_nil nonempty
  simp only [List.length_append]
  omega

/--
`h5fd_pread` on an open handle.  `dstlen` is the value of the uninitialised
local of that name.
-/
def h5fd_pread
    (libs : Libs) (image : H5Image) (dstlen : Int)
    (count : Nat) (offset : Int) : PreadResult :=
  if getAlgorithm image = .DZ_ALG_UNKOWN then .returned (-1) []
  else
    h5fd_preadLoop libs image (getAlgorithm image) count
      none dstlen offset []

/-! ## The arithmetic of one pass -/

section Arithmetic

variable (position : Nat)

/-- The 32-bit product is the true one up to a multiple of `2 ^ 32`. -/
theorem exists_product_eq :
    ∃ turns,
      wrap32 (blocknum position * H5_BUFSIZE) =
        (position / H5_BUFSIZE * H5_BUFSIZE : Nat) -
          4294967296 * turns := by
  rcases exists_wrap32_eq ((position / H5_BUFSIZE : Nat) : Int) with
    ⟨first, narrowed⟩
  rcases exists_wrap32_eq (blocknum position * H5_BUFSIZE) with
    ⟨second, wrapped⟩
  refine ⟨first * H5_BUFSIZE + second, ?_⟩
  rw [wrapped, blocknum, ← Int.ofNat_tdiv, narrowed]
  push_cast
  ring

/-- `validbytes` is exact at every offset: the two wraps cancel. -/
theorem validbytes_eq (dstlen : Nat) (short : dstlen ≤ H5_BUFSIZE) :
    validbytes dstlen position =
      (dstlen : Int) - (position % H5_BUFSIZE : Nat) := by
  rcases exists_product_eq position with ⟨turns, product⟩
  have split := Nat.div_add_mod' position H5_BUFSIZE
  have rest := Nat.mod_lt position H5_BUFSIZE_pos
  have stride := H5_BUFSIZE_eq
  have regroup :
      (dstlen : Int) - position +
          ((position / H5_BUFSIZE * H5_BUFSIZE : Nat) -
            4294967296 * turns) =
        (dstlen - (position % H5_BUFSIZE : Nat)) - 4294967296 * turns := by
    omega
  rw [validbytes, product, regroup, wrap32_sub_turns,
    wrap32_eq_self] <;> omega

/-- Below 2 GiB the start of the copy is the offset inside the block. -/
theorem srcIndex_of_small (small : position < 2147483648) :
    srcIndex position = (position % H5_BUFSIZE : Nat) := by
  rcases exists_product_eq position with ⟨turns, product⟩
  have bounds := wrap32_bounds (blocknum position * H5_BUFSIZE)
  have split := Nat.div_add_mod' position H5_BUFSIZE
  have rest := Nat.mod_lt position H5_BUFSIZE_pos
  have stride := H5_BUFSIZE_eq
  rw [srcIndex, product]
  rw [product] at bounds
  omega

/-- From 2 GiB on the start of the copy lies far outside the block. -/
theorem srcIndex_of_large (large : 2147483648 ≤ position) :
    4294967296 ≤ srcIndex position := by
  rcases exists_product_eq position with ⟨turns, product⟩
  have bounds := wrap32_bounds (blocknum position * H5_BUFSIZE)
  have split := Nat.div_add_mod' position H5_BUFSIZE
  have rest := Nat.mod_lt position H5_BUFSIZE_pos
  have aligned :
      2147483648 ≤ position / H5_BUFSIZE * H5_BUFSIZE := by
    have number : 512 ≤ position / H5_BUFSIZE := by
      rw [Nat.le_div_iff_mul_le H5_BUFSIZE_pos, H5_BUFSIZE_eq]
      omega
    calc
      2147483648 = 512 * H5_BUFSIZE := by rw [H5_BUFSIZE_eq]
      _ ≤ position / H5_BUFSIZE * H5_BUFSIZE :=
        Nat.mul_le_mul_right _ number
  rw [srcIndex, product]
  rw [product] at bounds
  omega

end Arithmetic

/-! ## Reads inside the content -/

/-- The `number`-th piece of the content at the fixed stride. -/
def chunk (content : Bytes) (number : Nat) : Bytes :=
  slice content (number * H5_BUFSIZE) H5_BUFSIZE

/--
The image stores the content at the fixed stride: one compressed block for
every chunk, under the chunk's number as an `int`.
-/
structure Holds (libs : Libs) (image : H5Image) (content : Bytes) :
    Prop where
  algorithm : getAlgorithm image = .DZ_ALG_ZSTD
  block :
    ∀ number, number * H5_BUFSIZE < content.length →
      image.dataset (.block (wrap32 number)) =
        some (libs.zstd.compress (chunk content number))

/--
The reader can fetch the chunk: it lies below 2 GiB and its compressed form is
shorter than the reader's buffer.
-/
def Fetchable (libs : Libs) (content : Bytes) (number : Nat) : Prop :=
  number < 512 ∧
    (libs.zstd.compress (chunk content number)).length < H5_BUFSIZE

/-- Every chunk the range touches can be fetched. -/
def FetchableRange
    (libs : Libs) (content : Bytes) (offset count : Nat) : Prop :=
  ∀ position, offset ≤ position → position < offset + count →
    Fetchable libs content (position / H5_BUFSIZE)

theorem length_chunk (content : Bytes) (number : Nat) :
    (chunk content number).length =
      min H5_BUFSIZE (content.length - number * H5_BUFSIZE) := by
  simp [chunk]

theorem div_lt_512_iff (position : Nat) :
    position / H5_BUFSIZE < 512 ↔ position < 2147483648 := by
  rw [Nat.div_lt_iff_lt_mul H5_BUFSIZE_pos, H5_BUFSIZE_eq]

/-- A dataset that is accepted is returned whole. -/
theorem hdf5_readdata_eq_ok
    {image : H5Image} {name : Dataset} {stored data : Bytes} {buflen : Nat}
    (present : image.dataset name = some stored)
    (accepted : hdf5_readdata image name buflen = .ok data) :
    data = stored ∧ stored.length < buflen := by
  simp only [hdf5_readdata, present] at accepted
  split at accepted
  · cases accepted
  · split at accepted
    · cases accepted
      exact ⟨rfl, by omega⟩
    · cases accepted

/-- `hdf5_readdata` accepts exactly the datasets shorter than its buffer. -/
theorem hdf5_readdata_eq_ok_iff
    {image : H5Image} {name : Dataset} {stored : Bytes}
    (present : image.dataset name = some stored) :
    hdf5_readdata image name H5_BUFSIZE = .ok stored ↔
      stored.length < H5_BUFSIZE := by
  constructor
  · intro accepted
    exact (hdf5_readdata_eq_ok present accepted).2
  · intro short
    have stride := H5_BUFSIZE_eq
    have exact32 : wrap32 (stored.length : Int) = stored.length :=
      wrap32_eq_self (by omega) (by omega)
    simp only [hdf5_readdata, present, exact32, if_true]
    exact if_neg (by omega)

/-- A range inside one chunk is the corresponding range of the content. -/
theorem slice_chunk
    (content : Bytes) (position length : Nat)
    (within : position % H5_BUFSIZE + length ≤ H5_BUFSIZE) :
    slice (chunk content (position / H5_BUFSIZE))
        (position % H5_BUFSIZE) length =
      slice content position length := by
  rw [chunk, slice, slice, slice, List.drop_take, List.drop_drop,
    List.take_take, Nat.div_add_mod', Nat.min_eq_left (by omega)]

section Pass

variable {data : Bytes} {position room : Nat}

/-- The length a pass copies from a block that reaches past the offset. -/
theorem copyLength_of_inside
    (short : data.length ≤ H5_BUFSIZE)
    (inside : position % H5_BUFSIZE < data.length) :
    copyLength (validbytes data.length position) room =
      (min room (data.length - position % H5_BUFSIZE) : Nat) := by
  have stride := H5_BUFSIZE_eq
  have nonnegative :
      ¬ (data.length : Int) - (position % H5_BUFSIZE : Nat) < 0 := by
    omega
  rw [validbytes_eq position _ short]
  unfold copyLength toSize
  rw [if_neg nonnegative]
  split
  · rw [wrap32_eq_self] <;> omega
  · omega

/--
Below 2 GiB a pass copies from the offset inside the block to the end of the
block or of the request.
-/
theorem pass_copies
    (small : position < 2147483648) (short : data.length ≤ H5_BUFSIZE)
    (inside : position % H5_BUFSIZE < data.length) (more : 0 < room) :
    ∃ nonempty,
      pass data position room =
        .copy
          (slice data (position % H5_BUFSIZE)
            (min room (data.length - position % H5_BUFSIZE)))
          nonempty := by
  have valid := validbytes_eq position _ short
  have nonempty :
      slice data (position % H5_BUFSIZE)
          (min room (data.length - position % H5_BUFSIZE)) ≠
        [] := by
    intro empty
    have none := congrArg List.length empty
    simp only [length_slice, List.length_nil] at none
    omega
  refine ⟨nonempty, ?_⟩
  have nonzero : validbytes data.length position ≠ 0 := by omega
  simp only [pass, copyLength_of_inside short inside,
    srcIndex_of_small position small, Int.toNat_natCast]
  rw [if_neg nonzero, if_neg (by omega), dif_pos (by omega)]

/-- A block that ends at the offset is the end of the file. -/
theorem pass_stops (ended : data.length = position % H5_BUFSIZE) :
    pass data position room = .stop := by
  have rest := Nat.mod_lt position H5_BUFSIZE_pos
  have valid := validbytes_eq position data.length (by omega)
  have zero : validbytes data.length position = 0 := by omega
  simp only [pass]
  rw [if_pos zero]

/-- From 2 GiB on a pass leaves the decoded block. -/
theorem pass_leaves
    (large : 2147483648 ≤ position) (short : data.length ≤ H5_BUFSIZE)
    (inside : position % H5_BUFSIZE < data.length) (more : 0 < room) :
    pass data position room = .outside := by
  have stride := H5_BUFSIZE_eq
  have far := srcIndex_of_large position large
  have valid := validbytes_eq position _ short
  have nonzero : validbytes data.length position ≠ 0 := by omega
  simp only [pass, copyLength_of_inside short inside]
  rw [if_neg nonzero, if_neg (by omega), dif_neg (by omega)]

/-- Behind the end of a block there is no safe pass. -/
theorem pass_behind
    (behind : data.length < position % H5_BUFSIZE) :
    pass data position room = .outside ∨
      pass data position room = .repeats := by
  have stride := H5_BUFSIZE_eq
  have rest := Nat.mod_lt position H5_BUFSIZE_pos
  have valid := validbytes_eq position data.length (by omega)
  have nonzero : validbytes data.length position ≠ 0 := by omega
  have beyond : (data.length : Int) < srcIndex position := by
    by_cases small : position < 2147483648
    · rw [srcIndex_of_small position small]
      omega
    · have far := srcIndex_of_large position (by omega)
      omega
  simp only [pass]
  rw [if_neg nonzero]
  split
  · exact Or.inr rfl
  · rw [dif_neg (by omega)]
    exact Or.inl rfl

end Pass

section Chunk

variable {content : Bytes} {position room : Nat}

/-- The length a pass over a full chunk copies. -/
def chunkRoom (content : Bytes) (position room : Nat) : Nat :=
  min room
    ((chunk content (position / H5_BUFSIZE)).length - position % H5_BUFSIZE)

/-- The chunk of a position reaches past it. -/
theorem mod_lt_length_chunk (inside : position < content.length) :
    position % H5_BUFSIZE <
      (chunk content (position / H5_BUFSIZE)).length := by
  have split := Nat.div_add_mod' position H5_BUFSIZE
  have rest := Nat.mod_lt position H5_BUFSIZE_pos
  rw [length_chunk]
  generalize position / H5_BUFSIZE * H5_BUFSIZE = base at *
  omega

theorem length_chunk_le (content : Bytes) (number : Nat) :
    (chunk content number).length ≤ H5_BUFSIZE := by
  rw [length_chunk]
  exact Nat.min_le_left _ _

/-- It ends inside the request, the chunk and the content. -/
theorem chunkRoom_spec
    (inside : position < content.length) (more : 0 < room) :
    0 < chunkRoom content position room ∧
      chunkRoom content position room ≤ room ∧
        position % H5_BUFSIZE + chunkRoom content position room ≤
            H5_BUFSIZE ∧
          position + chunkRoom content position room ≤ content.length := by
  have split := Nat.div_add_mod' position H5_BUFSIZE
  have rest := Nat.mod_lt position H5_BUFSIZE_pos
  have dataLength := length_chunk content (position / H5_BUFSIZE)
  unfold chunkRoom
  generalize position / H5_BUFSIZE * H5_BUFSIZE = base at *
  omega

/--
A pass over a full chunk below 2 GiB copies up to the end of the chunk or of
the request.
-/
theorem pass_of_small
    (small : position < 2147483648) (inside : position < content.length)
    (more : 0 < room) :
    ∃ nonempty,
      pass (chunk content (position / H5_BUFSIZE)) position room =
        .copy (slice content position (chunkRoom content position room))
          nonempty := by
  have within := (chunkRoom_spec inside more).2.2.1
  rw [← slice_chunk content position _ within]
  exact
    pass_copies small (length_chunk_le content _)
      (mod_lt_length_chunk inside) more

/-- A pass over a full chunk from 2 GiB on leaves the decoded block. -/
theorem pass_of_large
    (large : 2147483648 ≤ position) (inside : position < content.length)
    (more : 0 < room) :
    pass (chunk content (position / H5_BUFSIZE)) position room =
      .outside :=
  pass_leaves large (length_chunk_le content _) (mod_lt_length_chunk inside)
    more

end Chunk

/-! ## Fetching a block -/

/--
The block of a number as the first pass of `h5fd_pread` gets it: `dstdata` is
`NULL` and `dstlen` has not been set.
-/
def fetch
    (libs : Libs) (image : H5Image) (dstlen number : Int) : Outcome Bytes :=
  match hdf5_readdata image (.block number) H5_BUFSIZE with
  | .fault => .fault
  | .err => .err
  | .ok [] => .err
  | .ok zipdata =>
      decompress_data libs (getAlgorithm image) none dstlen zipdata

/--
A later pass gets its blocks as the first one does: nothing has been decoded
yet, or the method is zstd, which does not look at its output variables.
-/
def Steady
    (image : H5Image) (dstlen : Int) (dst : Option Nat) (current : Int) :
    Prop :=
  (dst = none ∧ current = dstlen) ∨ getAlgorithm image = .DZ_ALG_ZSTD

/-- The rest of `h5fd_pread` once a block has been fetched, or has not. -/
def afterFetch
    (libs : Libs) (image : H5Image) (count : Nat) (curoff : Int)
    (buf : Bytes) : Outcome Bytes → PreadResult
  | .fault => .fault
  | .err => .returned (-1) buf
  | .ok data =>
      match pass data curoff (count - buf.length) with
      | .stop => .returned buf.length buf
      | .repeats => .diverges
      | .outside => .fault
      | .copy piece _ =>
          h5fd_preadLoop libs image (getAlgorithm image) count
            (some data.length) data.length (curoff + piece.length)
            (buf ++ piece)

section Fetch

variable
    {libs : Libs} {image : H5Image} {data buf : Bytes}
    {dstlen current curoff number : Int} {dst : Option Nat} {count : Nat}

/-- Through a `NULL` pointer only zstd returns any bytes. -/
theorem method_of_fetch
    (fetched : fetch libs image dstlen number = .ok data)
    (nonempty : data ≠ []) :
    getAlgorithm image = .DZ_ALG_ZSTD := by
  unfold fetch at fetched
  split at fetched
  · cases fetched
  · cases fetched
  · cases fetched
  · cases method : getAlgorithm image with
    | DZ_ALG_ZSTD => rfl
    | DZ_ALG_ZLIB =>
        rw [method] at fetched
        exact (nonempty (decompressdata_zlib_null fetched)).elim
    | _ =>
        rw [method] at fetched
        cases fetched

/-- A missing block is an error. -/
theorem fetch_of_absent (absent : image.dataset (.block number) = none) :
    fetch libs image dstlen number = .err := by
  simp only [fetch, hdf5_readdata, absent]

/-- A zstd block shorter than the reader's buffer is fetched. -/
theorem fetch_of_zstd
    (algorithm : getAlgorithm image = .DZ_ALG_ZSTD)
    (present :
      image.dataset (.block number) = some (libs.zstd.compress data))
    (short : (libs.zstd.compress data).length < H5_BUFSIZE) :
    fetch libs image dstlen number = .ok data := by
  have decoded := decompress_data_zstd_compress libs none dstlen data
  have frame := libs.zstd.compress_ne_nil data
  have accepted := (hdf5_readdata_eq_ok_iff present).mpr short
  generalize libs.zstd.compress data = zip at decoded frame accepted
  rw [fetch, algorithm, accepted]
  cases zip with
  | nil => exact (frame rfl).elim
  | cons head tail => exact decoded

/-- One pass of the loop. -/
theorem h5fd_preadLoop_eq
    (steady : Steady image dstlen dst current) (more : buf.length < count) :
    h5fd_preadLoop libs image (getAlgorithm image) count dst current curoff
        buf =
      afterFetch libs image count curoff buf
        (fetch libs image dstlen (blocknum curoff)) := by
  have same :
      ∀ zipdata,
        decompress_data libs (getAlgorithm image) dst current zipdata =
          decompress_data libs (getAlgorithm image) none dstlen zipdata := by
    intro zipdata
    rcases steady with ⟨rfl, rfl⟩ | zstd
    · rfl
    · rw [zstd]
      rfl
  rw [h5fd_preadLoop, dif_pos more, fetch]
  cases hdf5_readdata image (.block (blocknum curoff)) H5_BUFSIZE with
  | fault => rfl
  | err => rfl
  | ok zipdata =>
      cases zipdata with
      | nil => rfl
      | cons head tail =>
          simp only [same]
          cases
              decompress_data libs (getAlgorithm image) none dstlen
                (head :: tail) with
          | fault => rfl
          | err => rfl
          | ok data => rfl

end Fetch

section InRange

variable
    {libs : Libs} {image : H5Image} {content buf : Bytes}
    {dstlen current : Int} {dst : Option Nat} {count offset : Nat}

/-- One pass over a chunk of the content below 2 GiB. -/
theorem h5fd_preadLoop_chunk
    {position : Nat}
    (steady : Steady image dstlen dst current) (more : buf.length < count)
    (small : position < 2147483648) (inside : position < content.length)
    (fetched :
      fetch libs image dstlen (blocknum position) =
        .ok (chunk content (position / H5_BUFSIZE))) :
    ∃ dst' current',
      Steady image dstlen dst' current' ∧
        h5fd_preadLoop libs image (getAlgorithm image) count dst current
            position buf =
          h5fd_preadLoop libs image (getAlgorithm image) count dst' current'
            ((position + chunkRoom content position (count - buf.length) :
              Nat) : Int)
            (buf ++
              slice content position
                (chunkRoom content position (count - buf.length))) := by
  have room : 0 < count - buf.length := by omega
  rcases pass_of_small small inside room with ⟨nonempty, passes⟩
  have spec := chunkRoom_spec inside room
  have pieceLength :
      (slice content position
        (chunkRoom content position (count - buf.length))).length =
          chunkRoom content position (count - buf.length) := by
    rw [length_slice]
    omega
  have reaches := mod_lt_length_chunk inside
  have zstd : getAlgorithm image = .DZ_ALG_ZSTD := by
    apply method_of_fetch fetched
    intro empty
    rw [empty] at reaches
    exact Nat.not_lt_zero _ reaches
  refine
    ⟨some (chunk content (position / H5_BUFSIZE)).length,
      (chunk content (position / H5_BUFSIZE)).length, Or.inr zstd, ?_⟩
  rw [h5fd_preadLoop_eq steady more, fetched]
  simp only [afterFetch, passes, pieceLength, Nat.cast_add]

/--
The loop copies the content up to the end of the request, of a block or of
the content.
-/
theorem h5fd_preadLoop_advance
    {dst : Option Nat} {current : Int} {reach done : Nat}
    (fetched :
      ∀ position, offset ≤ position → position < offset + reach →
        position < 2147483648 ∧
          fetch libs image dstlen (blocknum position) =
            .ok (chunk content (position / H5_BUFSIZE)))
    (within : offset + reach ≤ content.length) (le : reach ≤ count)
    (edge :
      reach = count ∨ H5_BUFSIZE ∣ offset + reach ∨
        offset + reach = content.length)
    (steady : Steady image dstlen dst current) (doneLe : done ≤ reach) :
    ∃ dst' current',
      Steady image dstlen dst' current' ∧
        h5fd_preadLoop libs image (getAlgorithm image) count dst current
            ((offset + done : Nat) : Int) (slice content offset done) =
          h5fd_preadLoop libs image (getAlgorithm image) count dst' current'
            ((offset + reach : Nat) : Int) (slice content offset reach) := by
  by_cases more : done < reach
  · have bufLength : (slice content offset done).length = done := by
      rw [length_slice]
      omega
    have here := fetched (offset + done) (by omega) (by omega)
    have spec :=
      chunkRoom_spec (by omega : offset + done < content.length)
        (by omega : 0 < count - done)
    -- no pass goes beyond the edge
    have stays :
        done + chunkRoom content (offset + done) (count - done) ≤ reach := by
      rcases edge with whole | ⟨blocks, aligned⟩ | ended
      · omega
      · have split := Nat.div_add_mod' (offset + done) H5_BUFSIZE
        have before : (offset + done) / H5_BUFSIZE < blocks :=
          Nat.div_lt_of_lt_mul (by omega)
        have next :
            ((offset + done) / H5_BUFSIZE + 1) * H5_BUFSIZE ≤
              H5_BUFSIZE * blocks := by
          rw [Nat.mul_comm H5_BUFSIZE blocks]
          exact Nat.mul_le_mul_right H5_BUFSIZE before
        rw [Nat.add_one_mul] at next
        omega
      · omega
    rcases
      h5fd_preadLoop_chunk steady
        (by omega : (slice content offset done).length < count) here.1
        (by omega : offset + done < content.length) here.2 with
      ⟨dst', current', steady', steps⟩
    rw [bufLength, slice_append_slice, Nat.add_assoc] at steps
    rcases
      h5fd_preadLoop_advance fetched within le edge steady' stays with
      ⟨last, final, steadyLast, rest⟩
    exact ⟨last, final, steadyLast, steps.trans rest⟩
  · obtain rfl : done = reach := by omega
    exact ⟨dst, current, steady, rfl⟩
termination_by reach - done
decreasing_by omega

/-- At the end of the request the loop is left. -/
theorem h5fd_preadLoop_finished (whole : buf.length = count) (curoff : Int) :
    h5fd_preadLoop libs image (getAlgorithm image) count dst current curoff
        buf =
      .returned count buf := by
  rw [h5fd_preadLoop, dif_neg (by omega), whole]

/--
`h5fd_pread` inside the content returns exactly the requested bytes when the
touched blocks lie below 2 GiB and can be fetched.
-/
theorem h5fd_pread_of_fetched
    (known : getAlgorithm image ≠ .DZ_ALG_UNKOWN)
    (within : offset + count ≤ content.length)
    (fetched :
      ∀ position, offset ≤ position → position < offset + count →
        position < 2147483648 ∧
          fetch libs image dstlen (blocknum position) =
            .ok (chunk content (position / H5_BUFSIZE))) :
    h5fd_pread libs image dstlen count offset =
      .returned count (slice content offset count) := by
  have length : (slice content offset count).length = count := by
    rw [length_slice]
    omega
  have start : Steady image dstlen none dstlen := Or.inl ⟨rfl, rfl⟩
  rcases
    h5fd_preadLoop_advance fetched within (Nat.le_refl count) (Or.inl rfl)
      start (Nat.zero_le count) with
    ⟨dst, current, _, steps⟩
  rw [slice_zero, Nat.add_zero] at steps
  rw [h5fd_pread, if_neg known, steps]
  exact h5fd_preadLoop_finished length _

/-- The dataset that the reader looks up for a position of the content. -/
theorem Holds.dataset_blocknum
    (holds : Holds libs image content)
    {position : Nat} (inside : position < content.length) :
    image.dataset (.block (blocknum position)) =
      some (libs.zstd.compress (chunk content (position / H5_BUFSIZE))) := by
  have product := Nat.div_mul_le_self position H5_BUFSIZE
  have stored := holds.block (position / H5_BUFSIZE) (by omega)
  rwa [blocknum, ← Int.ofNat_tdiv]

/-- A chunk whose compressed form is short can be fetched, and no other. -/
theorem Holds.fetch_eq_ok_iff
    (holds : Holds libs image content) (dstlen : Int)
    {position : Nat} (inside : position < content.length) {data : Bytes} :
    fetch libs image dstlen (blocknum position) = .ok data ↔
      data = chunk content (position / H5_BUFSIZE) ∧
        (libs.zstd.compress
          (chunk content (position / H5_BUFSIZE))).length < H5_BUFSIZE := by
  have stored := holds.dataset_blocknum inside
  constructor
  · intro fetched
    have decoded :=
      decompress_data_zstd_compress libs none dstlen
        (chunk content (position / H5_BUFSIZE))
    have frame :=
      libs.zstd.compress_ne_nil (chunk content (position / H5_BUFSIZE))
    generalize libs.zstd.compress (chunk content (position / H5_BUFSIZE)) =
      zip at stored decoded frame ⊢
    rw [fetch, holds.algorithm] at fetched
    cases read : hdf5_readdata image (.block (blocknum position)) H5_BUFSIZE with
    | fault => simp [read] at fetched
    | err => simp [read] at fetched
    | ok zipdata =>
        rcases hdf5_readdata_eq_ok stored read with ⟨rfl, short⟩
        rw [read] at fetched
        cases zipdata with
        | nil => exact (frame rfl).elim
        | cons head tail =>
            simp only [decoded, Outcome.ok.injEq] at fetched
            exact ⟨fetched.symm, short⟩
  · rintro ⟨rfl, short⟩
    exact fetch_of_zstd holds.algorithm stored short

/-- A fetchable chunk of an image lies below 2 GiB and is fetched. -/
theorem Holds.fetched
    (holds : Holds libs image content) (dstlen : Int)
    {position : Nat} (inside : position < content.length)
    (fetchable : Fetchable libs content (position / H5_BUFSIZE)) :
    position < 2147483648 ∧
      fetch libs image dstlen (blocknum position) =
        .ok (chunk content (position / H5_BUFSIZE)) :=
  ⟨(div_lt_512_iff position).mp fetchable.1,
    (holds.fetch_eq_ok_iff dstlen inside).mpr ⟨rfl, fetchable.2⟩⟩

/--
At a position inside the content whose chunk cannot be fetched the loop gives
up.
-/
theorem h5fd_preadLoop_stuck
    (holds : Holds libs image content) {position : Nat}
    (steady : Steady image dstlen dst current) (more : buf.length < count)
    (inside : position < content.length)
    (stuck : ¬ Fetchable libs content (position / H5_BUFSIZE))
    {ret : Int} {result : Bytes}
    (returned :
      h5fd_preadLoop libs image (getAlgorithm image) count dst current
          position buf =
        .returned ret result) :
    ret = -1 := by
  rw [h5fd_preadLoop_eq steady more] at returned
  cases fetched : fetch libs image dstlen (blocknum position) with
  | fault =>
      rw [fetched] at returned
      cases returned
  | err =>
      rw [fetched] at returned
      cases returned
      rfl
  | ok data =>
      rcases (holds.fetch_eq_ok_iff dstlen inside).mp fetched with
        ⟨rfl, short⟩
      have large : 2147483648 ≤ position := by
        by_contra small
        exact stuck ⟨(div_lt_512_iff position).mpr (by omega), short⟩
      have leaves :=
        pass_of_large large inside (by omega : 0 < count - buf.length)
      rw [fetched] at returned
      simp only [afterFetch, leaves] at returned
      cases returned

/-- An in-range read that touches a chunk it cannot fetch fails. -/
theorem h5fd_preadLoop_unfetchable
    {dst : Option Nat} {current : Int} (holds : Holds libs image content)
    (within : offset + count ≤ content.length)
    {bad : Nat} (badInside : bad < offset + count)
    (unfetchable : ¬ Fetchable libs content (bad / H5_BUFSIZE))
    (steady : Steady image dstlen dst current) (done : Nat)
    (ahead : offset + done ≤ bad)
    {ret : Int} {result : Bytes}
    (returned :
      h5fd_preadLoop libs image (getAlgorithm image) count dst current
          ((offset + done : Nat) : Int) (slice content offset done) =
        .returned ret result) :
    ret = -1 := by
  have bufLength : (slice content offset done).length = done := by
    rw [length_slice]
    omega
  by_cases fetchable :
      Fetchable libs content ((offset + done) / H5_BUFSIZE)
  · have here :=
      holds.fetched dstlen (by omega : offset + done < content.length)
        fetchable
    rcases
      h5fd_preadLoop_chunk steady
        (by omega : (slice content offset done).length < count) here.1
        (by omega : offset + done < content.length) here.2 with
      ⟨dst', current', steady', steps⟩
    rcases
      chunkRoom_spec (by omega : offset + done < content.length)
        (by omega : 0 < count - done) with
      ⟨positive, fits, inChunk, ends⟩
    rw [steps, slice_append_slice, bufLength, Nat.add_assoc] at returned
    -- the piece just copied lies in one chunk, so the bad position is beyond
    have beyond :
        offset + done +
            chunkRoom content (offset + done) (count - done) ≤ bad := by
      by_contra inPiece
      have sameChunk :
          bad / H5_BUFSIZE = (offset + done) / H5_BUFSIZE := by
        have split := Nat.div_add_mod' (offset + done) H5_BUFSIZE
        rw [Nat.div_eq_iff H5_BUFSIZE_pos]
        omega
      rw [sameChunk] at unfetchable
      exact unfetchable fetchable
    exact
      h5fd_preadLoop_unfetchable holds within badInside unfetchable
        steady' _ (by omega) returned
  · exact
      h5fd_preadLoop_stuck holds steady (by omega) (by omega) fetchable
        returned
termination_by count - done

/--
`h5fd_pread` inside the content returns exactly the requested bytes when the
touched chunks can be fetched.
-/
theorem h5fd_pread_in_range
    (holds : Holds libs image content)
    (dstlen : Int) {count offset : Nat}
    (within : offset + count ≤ content.length)
    (fetchable : FetchableRange libs content offset count) :
    h5fd_pread libs image dstlen count offset =
      .returned count (slice content offset count) := by
  apply h5fd_pread_of_fetched
  · rw [holds.algorithm]
    decide
  · exact within
  · intro position after before
    exact
      holds.fetched dstlen (by omega) (fetchable position after before)

/-- Otherwise it fails: it returns -1 or leaves the decoded block. -/
theorem h5fd_pread_unfetchable
    (holds : Holds libs image content)
    {dstlen : Int} {count offset : Nat}
    (within : offset + count ≤ content.length)
    (unfetchable : ¬ FetchableRange libs content offset count)
    {ret : Int} {result : Bytes}
    (returned :
      h5fd_pread libs image dstlen count offset = .returned ret result) :
    ret = -1 := by
  simp only [FetchableRange, not_forall] at unfetchable
  rcases unfetchable with ⟨bad, after, before, bad_unfetchable⟩
  have known : getAlgorithm image ≠ .DZ_ALG_UNKOWN := by
    rw [holds.algorithm]
    decide
  rw [h5fd_pread, if_neg known] at returned
  have start : Steady image dstlen none dstlen := Or.inl ⟨rfl, rfl⟩
  have loop :
      h5fd_preadLoop libs image (getAlgorithm image) count none dstlen
          ((offset + 0 : Nat) : Int) (slice content offset 0) =
        .returned ret result := by
    rw [Nat.add_zero, slice_zero]
    exact returned
  exact
    h5fd_preadLoop_unfetchable holds within before bad_unfetchable start 0
      (by omega) loop

end InRange

end DZFile.Image
