import DZFile.Converter

/-!
# Compression methods and their headers

`convert2h5` has a header for zlib and for zstd, and `compress_data` accepts
both.  `getAlgorithm` recognises either header, whatever version it names.

The two decompressors do not agree on who provides the output.
`decompressdata_zstd` allocates it.  `decompressdata_zlib` copies it through
the caller's pointer, up to the length the caller has set; `h5fd_pread` passes
`NULL` and a length it has not set.
-/

namespace DZFile.Methods

open DZFile.Codec
open DZFile.Image
open DZFile.Converter

/-! ## Headers -/

/-- `ZIP_VERSION`: the size of the header buffer. -/
def ZIP_VERSION : Nat := 1024

/-- What `sprintf` writes to the header buffer, for the methods that have one. -/
def header (method : Alg) (versionString : Bytes) : Option Bytes :=
  match method with
  | .DZ_ALG_ZLIB => some (zlibText ++ 32 :: versionString)
  | .DZ_ALG_ZSTD => some (zstdText ++ 32 :: versionString)
  | _ => none

/-- The C string `text` is the header of a method and fits the buffer. -/
structure Header
    (method : Alg) (versionString text : Bytes) : Prop where
  written : header method versionString = some text
  terminated : ∀ byte ∈ versionString, byte ≠ 0
  fits : text.length + 1 ≤ ZIP_VERSION

/-- The header of a conversion names the version of its library. -/
theorem version_eq_header (libs : Libs) (method : Alg) :
    version libs method =
      header method
        ((if method = .DZ_ALG_ZLIB then libs.zlib.version
          else libs.zstd.versionString).takeWhile (· ≠ 0)) := by
  cases method with
  | DZ_ALG_ZLIB => simp [version, header, zlibText]
  | DZ_ALG_ZSTD => simp [version, header, zstdText]
  | _ => rfl

/-- The reader recognises the header of a method. -/
theorem getAlgorithm_of_header
    {method : Alg} {versionString text : Bytes} {image : H5Image}
    (written : header method versionString = some text)
    (fits : text.length < ZIP_VERSION)
    (stored : image.dataset .algorithm = some text) :
    getAlgorithm image = method := by
  have short : ¬ 1024 ≤ text.length := Nat.not_le.mpr fits
  cases method with
  | DZ_ALG_ZLIB =>
      cases written
      have name :
          firstWord
              ((zlibText ++ 32 :: versionString).takeWhile (· ≠ 0)) =
            zlibText := by
        simp [firstWord, zlibText]
      simp only [getAlgorithm, hdf5_readstr, stored, if_neg short, name,
        if_true]
  | DZ_ALG_ZSTD =>
      cases written
      have name :
          firstWord
              ((zstdText ++ 32 :: versionString).takeWhile (· ≠ 0)) =
            zstdText := by
        simp [firstWord, zstdText]
      simp only [getAlgorithm, hdf5_readstr, stored, if_neg short, name]
      rfl
  | DZ_ALG_ISAL => cases written
  | DZ_ALG_FPGA => cases written
  | DZ_ALG_UNKOWN => cases written

/-! ## Blocks -/

/--
The reader recognises the method from the header and gets the chunk out of its
block, with the output variables of its first pass.
-/
structure Agrees
    (libs : Libs) (method : Alg) (text block chunk : Bytes) (dstlen : Int) :
    Prop where
  recognised :
    ∀ image : H5Image, image.dataset .algorithm = some text →
      getAlgorithm image = method
  decompressed : decompress_data libs method none dstlen block = .ok chunk

variable {libs : Libs}

/--
For every method with a header, every version, chunk and value of `dstlen`:
writer and reader agree if and only if the method is zstd.
-/
theorem agrees_iff_zstd
    {method : Alg} {versionString text block chunk : Bytes}
    (headed : Header method versionString text) (nonempty : chunk ≠ [])
    (compressed : compress_data libs method chunk = some block)
    (dstlen : Int) :
    Agrees libs method text block chunk dstlen ↔
      method = .DZ_ALG_ZSTD := by
  constructor
  · intro agrees
    have written := headed.written
    cases method with
    | DZ_ALG_ZSTD => rfl
    | DZ_ALG_ZLIB =>
        exact (nonempty (decompressdata_zlib_null agrees.decompressed)).elim
    | DZ_ALG_ISAL => cases written
    | DZ_ALG_FPGA => cases written
    | DZ_ALG_UNKOWN => cases written
  · rintro rfl
    constructor
    · intro image stored
      exact getAlgorithm_of_header headed.written headed.fits stored
    · simp only [compress_data, if_neg nonempty, Option.some.injEq]
        at compressed
      rw [← compressed]
      exact decompress_data_zstd_compress libs none dstlen chunk

theorem agrees_iff_zstd_sevenZstd :
    Agrees storingLibs .DZ_ALG_ZSTD (zstdText ++ [32, 49]) [40, 7] [7] 0 ↔
      Alg.DZ_ALG_ZSTD = .DZ_ALG_ZSTD :=
  agrees_iff_zstd
    { written := rfl
      terminated := List.forall_mem_singleton.mpr (by decide)
      fits := by decide }
    (by decide) rfl 0

/-- A block of zlib is copied through `NULL`. -/
theorem zlib_block_not_read_back :
    ¬ ∀ (libs : Libs) (method : Alg)
        (versionString text block chunk : Bytes) (dstlen : Int),
        Header method versionString text → chunk ≠ [] →
          chunk.length ≤ H5_BUFSIZE →
            compress_data libs method chunk = some block →
              Agrees libs method text block chunk dstlen := by
  intro claimed
  have agrees :=
    claimed storingLibs .DZ_ALG_ZLIB [49] (zlibText ++ [32, 49]) [120, 7] [7]
      1
      { written := rfl
        terminated := List.forall_mem_singleton.mpr (by decide)
        fits := by decide }
      (by decide) (by rw [H5_BUFSIZE_eq]; decide) rfl
  have decoded := agrees.decompressed
  cases decoded

end DZFile.Methods
