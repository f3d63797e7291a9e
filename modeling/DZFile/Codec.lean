import DZFile.Library.ByteSeq
import Mathlib.Algebra.Order.Group.Nat

/-!
# Compression methods

The dispatchers `compress_data` and `decompress_data` and the two codecs
behind them.  The libraries zlib and zstd are parameters: a structure carries
the functions the source calls together with the documented laws it relies on,
so that a lawless codec cannot be supplied.

`Outcome` is the result of a C function that fills a buffer.  Besides success
and an error return it records undefined behaviour: an access through `NULL`
or outside a buffer.
-/

namespace DZFile.Codec

open DZFile.ByteSeq

/-- A byte. -/
abbrev Byte := UInt8

/-- The contents of a buffer or a file. -/
abbrev Bytes := List Byte

/-- `H5_BUFSIZE`: the stride at which a file is cut into datasets. -/
@[irreducible]
def H5_BUFSIZE : Nat := 4194304

theorem H5_BUFSIZE_eq : H5_BUFSIZE = 4194304 := by
  unfold H5_BUFSIZE
  rfl

theorem H5_BUFSIZE_pos : 0 < H5_BUFSIZE := by
  rw [H5_BUFSIZE_eq]
  exact Nat.succ_pos _

/-- The result of a C function that fills a buffer. -/
inductive Outcome (α : Type) where
  | ok (value : α)
  | err
  | fault
deriving DecidableEq

/-- `dz_alg_t`. -/
inductive Alg where
  | DZ_ALG_ZLIB
  | DZ_ALG_ZSTD
  | DZ_ALG_ISAL
  | DZ_ALG_FPGA
  | DZ_ALG_UNKOWN
deriving DecidableEq

/-! ## The libraries -/

/-- The macro `ZSTD_COMPRESSBOUND`, which `ZSTD_compressBound` evaluates. -/
def ZSTD_compressBound (srcSize : Nat) : Nat :=
  srcSize + srcSize / 256 +
    if srcSize < 131072 then (131072 - srcSize) / 2048 else 0

/-- What the source uses of zstd. -/
structure Zstd where
  /-- `ZSTD_compress` at level 6 into a buffer of `ZSTD_compressBound` bytes. -/
  compress : Bytes → Bytes
  /-- `ZSTD_getFrameContentSize`, `none` for its two error values. -/
  frameContentSize : Bytes → Option Nat
  /-- `ZSTD_decompress` into a buffer of the given capacity. -/
  decompress : Nat → Bytes → Option Bytes
  /-- `ZSTD_versionString`, a text such as `"1.5.2"`. -/
  versionString : Bytes
  length_versionString_lt : versionString.length < 1000
  compress_ne_nil : ∀ data, compress data ≠ []
  length_compress_le :
    ∀ data, (compress data).length ≤ ZSTD_compressBound data.length
  frameContentSize_compress :
    ∀ data, frameContentSize (compress data) = some data.length
  decompress_compress :
    ∀ data, decompress data.length (compress data) = some data
  length_decompress_le :
    ∀ capacity frame data,
      decompress capacity frame = some data → data.length ≤ capacity

/-- What the source uses of zlib. -/
structure Zlib where
  /-- `compress` into a buffer of `compressBound` bytes. -/
  compress : Bytes → Bytes
  /-- `uncompress` into a buffer of the given capacity. -/
  uncompress : Nat → Bytes → Option Bytes
  /-- `zlibVersion`. -/
  version : Bytes
  compress_ne_nil : ∀ data, compress data ≠ []
  uncompress_compress :
    ∀ capacity data, data.length ≤ capacity →
      uncompress capacity (compress data) = some data

/-- The libraries the program is linked with. -/
structure Libs where
  zstd : Zstd
  zlib : Zlib

variable (libs : Libs)

/-! ## Compression -/

/--
`compress_data`: the compressed bytes, when the codec finds its memory.  Only
`compressdata_zstd` refuses an empty source.
-/
def compress_data (method : Alg) (srcdata : Bytes) : Option Bytes :=
  match method with
  | .DZ_ALG_ZLIB => some (libs.zlib.compress srcdata)
  | .DZ_ALG_ZSTD =>
      if srcdata = [] then none else some (libs.zstd.compress srcdata)
  | _ => none

/-! ## Decompression -/

/--
`decompressdata_zlib`.  `dst` is the capacity of the buffer `*dstdata` points
to, `none` for `NULL`; `dstlen` is the value of `*dstlen` on entry, which
bounds the output.  The result is copied through `*dstdata`.
-/
def decompressdata_zlib
    (dst : Option Nat) (dstlen : Int) (zipdata : Bytes) : Outcome Bytes :=
  if dstlen ≤ 0 then .err
  else
    match libs.zlib.uncompress dstlen.toNat zipdata with
    | none => .err
    | some data =>
        if data.length ≤ dst.getD 0 then .ok data else .fault

/--
`decompressdata_zstd`.  The output buffer is allocated here, so neither
`*dstdata` nor `*dstlen` is read.
-/
def decompressdata_zstd (zipdata : Bytes) : Outcome Bytes :=
  if zipdata = [] then .err
  else
    match libs.zstd.frameContentSize zipdata with
    | none => .err
    | some dSize =>
        match libs.zstd.decompress dSize zipdata with
        | none => .err
        | some data => .ok data

/-- `decompress_data`. -/
def decompress_data
    (method : Alg) (dst : Option Nat) (dstlen : Int) (zipdata : Bytes) :
    Outcome Bytes :=
  match method with
  | .DZ_ALG_ZLIB => decompressdata_zlib libs dst dstlen zipdata
  | .DZ_ALG_ZSTD => decompressdata_zstd libs zipdata
  | _ => .err

/-- A zstd block reads back, whatever the caller's output variables hold. -/
@[simp]
theorem decompress_data_zstd_compress
    (dst : Option Nat) (dstlen : Int) (data : Bytes) :
    decompress_data libs .DZ_ALG_ZSTD dst dstlen
        (libs.zstd.compress data) =
      .ok data := by
  simp [decompress_data, decompressdata_zstd, libs.zstd.compress_ne_nil,
    libs.zstd.frameContentSize_compress, libs.zstd.decompress_compress]

variable {libs}

/-- Through `NULL` zlib returns no bytes. -/
theorem decompressdata_zlib_null
    {dstlen : Int} {zipdata data : Bytes}
    (decoded : decompressdata_zlib libs none dstlen zipdata = .ok data) :
    data = [] := by
  unfold decompressdata_zlib at decoded
  split at decoded
  · cases decoded
  · split at decoded
    · cases decoded
    · split at decoded
      · rename_i fits
        cases decoded
        exact List.length_eq_zero_iff.mp (Nat.le_zero.mp fits)
      · cases decoded

variable (libs)

/-! ## What a stored block stands for -/

/--
The chunk a stored block decodes to by the library alone, with enough room for
a chunk of the stride.
-/
def blockContent (method : Alg) (block : Bytes) : Option Bytes :=
  match method with
  | .DZ_ALG_ZLIB => libs.zlib.uncompress H5_BUFSIZE block
  | .DZ_ALG_ZSTD =>
      (libs.zstd.frameContentSize block).bind fun size =>
        libs.zstd.decompress size block
  | _ => none

/-- What `compress_data` produces stands for its source. -/
theorem blockContent_of_compress_data
    {method : Alg} {srcdata block : Bytes}
    (compressed : compress_data libs method srcdata = some block)
    (short : srcdata.length ≤ H5_BUFSIZE) :
    blockContent libs method block = some srcdata := by
  cases method with
  | DZ_ALG_ZLIB =>
      simp only [compress_data, Option.some.injEq] at compressed
      subst compressed
      exact libs.zlib.uncompress_compress H5_BUFSIZE srcdata short
  | DZ_ALG_ZSTD =>
      simp only [compress_data] at compressed
      split at compressed
      · cases compressed
      · cases compressed
        simp [blockContent, libs.zstd.frameContentSize_compress,
          libs.zstd.decompress_compress]
  | DZ_ALG_ISAL => simp [compress_data] at compressed
  | DZ_ALG_FPGA => simp [compress_data] at compressed
  | DZ_ALG_UNKOWN => simp [compress_data] at compressed

/-- Compression is injective, as its result can be undone. -/
theorem compress_data_injective
    {method : Alg} {left right block : Bytes}
    (first : compress_data libs method left = some block)
    (second : compress_data libs method right = some block) :
    left = right := by
  cases method with
  | DZ_ALG_ZLIB =>
      simp only [compress_data, Option.some.injEq] at first second
      have room :=
        libs.zlib.uncompress_compress (max left.length right.length)
      have here := room left (Nat.le_max_left _ _)
      have there := room right (Nat.le_max_right _ _)
      rw [first] at here
      rw [second, here] at there
      exact Option.some.inj there
  | DZ_ALG_ZSTD =>
      simp only [compress_data] at first second
      split at first
      · cases first
      · split at second
        · cases second
        · have same :
              libs.zstd.compress left = libs.zstd.compress right :=
            (Option.some.inj first).trans (Option.some.inj second).symm
          have lengths := libs.zstd.frameContentSize_compress left
          rw [same, libs.zstd.frameContentSize_compress] at lengths
          have here := libs.zstd.decompress_compress left
          rw [← Option.some.inj lengths, same,
            libs.zstd.decompress_compress] at here
          exact (Option.some.inj here).symm
  | DZ_ALG_ISAL => cases first
  | DZ_ALG_FPGA => cases first
  | DZ_ALG_UNKOWN => cases first

/-! ## A codec that stores its input -/

/--
A zstd that emits a one-byte header and the input itself, which is how the
library treats incompressible data up to the size of its headers.
-/
def storingZstd : Zstd where
  compress data := 40 :: data
  frameContentSize
    | [] => none
    | _ :: data => some data.length
  decompress
    | _, [] => none
    | capacity, _ :: data =>
        if data.length ≤ capacity then some data else none
  versionString := [49]
  length_versionString_lt := by decide
  compress_ne_nil data := by simp
  length_compress_le data := by
    simp only [List.length_cons, ZSTD_compressBound]
    split <;> omega
  frameContentSize_compress data := rfl
  decompress_compress data := by simp
  length_decompress_le capacity frame data decoded := by
    cases frame with
    | nil => cases decoded
    | cons header rest =>
        simp only at decoded
        split at decoded
        · cases decoded
          assumption
        · cases decoded

/-- A zlib with the same format. -/
def storingZlib : Zlib where
  compress data := 120 :: data
  uncompress
    | _, [] => none
    | capacity, _ :: data =>
        if data.length ≤ capacity then some data else none
  version := [49]
  compress_ne_nil data := by simp
  uncompress_compress capacity data short := by simp [short]

/-- Both libraries, storing their input. -/
def storingLibs : Libs where
  zstd := storingZstd
  zlib := storingZlib

/-! ## A codec that packs zeros -/

/-- A chunk of zeros. -/
def zeroChunk : Bytes :=
  List.replicate H5_BUFSIZE 0

theorem length_zeroChunk : zeroChunk.length = H5_BUFSIZE :=
  List.length_replicate

/-- A zstd that packs a chunk of zeros into one byte and stores the rest. -/
def packingZstd : Zstd where
  compress data := if data = zeroChunk then [41] else 40 :: data
  frameContentSize frame :=
    if frame = [41] then some H5_BUFSIZE else storingZstd.frameContentSize frame
  decompress capacity frame :=
    if frame = [41] then
      if H5_BUFSIZE ≤ capacity then some zeroChunk else none
    else storingZstd.decompress capacity frame
  versionString := storingZstd.versionString
  length_versionString_lt := storingZstd.length_versionString_lt
  compress_ne_nil data := by
    split <;> simp
  length_compress_le data := by
    split
    · rename_i zeros
      have length : data.length = H5_BUFSIZE := by
        rw [zeros, zeroChunk, List.length_replicate]
      rw [length, H5_BUFSIZE_eq]
      decide
    · exact storingZstd.length_compress_le data
  frameContentSize_compress data := by
    split
    · rename_i zeros
      rw [if_pos rfl, zeros, zeroChunk, List.length_replicate]
    · rw [if_neg (by simp)]
      rfl
  decompress_compress data := by
    split
    · rename_i zeros
      rw [if_pos rfl, zeros, zeroChunk, List.length_replicate,
        if_pos (Nat.le_refl _)]
    · rw [if_neg (by simp)]
      exact storingZstd.decompress_compress data
  length_decompress_le capacity frame data decoded := by
    split at decoded
    · split at decoded
      · rename_i fits
        cases decoded
        rw [zeroChunk, List.length_replicate]
        exact fits
      · cases decoded
    · exact storingZstd.length_decompress_le capacity frame data decoded

/-- The libraries with that zstd. -/
def packingLibs : Libs where
  zstd := packingZstd
  zlib := storingZlib

/-- A piece that it makes shorter than the reader's buffer. -/
structure Packs (piece : Bytes) : Prop where
  nonempty : piece ≠ []
  short : (packingZstd.compress piece).length < H5_BUFSIZE

theorem packs_zeroChunk : Packs zeroChunk := by
  have stride := H5_BUFSIZE_eq
  constructor
  · apply List.ne_nil_of_length_pos
    rw [length_zeroChunk]
    exact H5_BUFSIZE_pos
  · simp [packingZstd, stride]

theorem packs_of_short
    {piece : Bytes} (nonempty : piece ≠ [])
    (short : piece.length + 1 < H5_BUFSIZE) : Packs piece := by
  refine ⟨nonempty, ?_⟩
  simp only [packingZstd]
  split
  · rw [List.length_singleton]
    omega
  · exact short

end DZFile.Codec
