import DZFile.Layout

/-!
# The positional reader on well-formed images

`h5fd_preadIn` is `h5fd_pread` on the object its caller passes: every copy is
checked against the object's end as well.  It fills the start of the object
with what `h5fd_pread` reads and leaves the rest of it alone.

On an image that stores a content in readable blocks, reads inside the content
are exact below 2 GiB.  The end of the file is recorded nowhere: a read that
goes beyond it is short only if the last block is, for otherwise the loop asks
for a block that does not exist and reports an error.  From 2 GiB on the
product of the block number and the stride wraps, and `srcp` leaves the block.
-/

namespace DZFile.Pread

open DZFile.ByteSeq
open DZFile.Codec
open DZFile.Image
open DZFile.Layout

/-! ## The caller's buffer -/

/--
The loop of `h5fd_pread`.  `buf` is the whole object the caller passes, and a
copy beyond its end is undefined.
-/
def h5fd_preadLoopIn
    (libs : Libs) (image : H5Image) (method : Alg) (count : Nat)
    (dst : Option Nat) (dstlen curoff : Int) (buf : Bytes) (nbread : Nat) :
    PreadResult :=
  if _more : nbread < count then
    match hdf5_readdata image (.block (blocknum curoff)) H5_BUFSIZE with
    | .fault => .fault
    | .err => .returned (-1) buf
    | .ok [] => .returned (-1) buf
    | .ok zipdata =>
        match decompress_data libs method dst dstlen zipdata with
        | .fault => .fault
        | .err => .returned (-1) buf
        | .ok data =>
            match pass data curoff (count - nbread) with
            | .stop => .returned nbread buf
            | .repeats => .diverges
            | .outside => .fault
            | .copy piece _ =>
                if nbread + piece.length ≤ buf.length then
                  h5fd_preadLoopIn libs image method count
                    (some data.length) data.length (curoff + piece.length)
                    (overwrite 0 buf nbread piece) (nbread + piece.length)
                else .fault
  else .returned nbread buf
termination_by count - nbread
decreasing_by
  rename_i nonempty _
  have positive := List.length_pos_of_ne_nil nonempty
  omega

/-- `h5fd_pread` on the object `buf`; the result holds the object afterwards. -/
def h5fd_preadIn
    (libs : Libs) (image : H5Image) (dstlen : Int) (buf : Bytes)
    (count : Nat) (offset : Int) : PreadResult :=
  if getAlgorithm image = .DZ_ALG_UNKOWN then .returned (-1) buf
  else
    h5fd_preadLoopIn libs image (getAlgorithm image) count
      none dstlen offset buf 0

/-- A result that fills the start of an object. -/
def into (buf : Bytes) : PreadResult → PreadResult
  | .returned ret copied => .returned ret (copied ++ buf.drop copied.length)
  | .fault => .fault
  | .diverges => .diverges

/-- A pass copies no more than is still asked for. -/
theorem length_le_of_pass
    {data piece : Bytes} {curoff : Int} {room : Nat} {nonempty : piece ≠ []}
    (passes : pass data curoff room = .copy piece nonempty) :
    piece.length ≤ room := by
  have bound : ∀ valid : Int, copyLength valid room ≤ room := by
    intro valid
    have narrowed : wrap32 (room : Int) ≤ room := by
      unfold wrap32
      omega
    unfold copyLength
    split
    · exact narrowed
    · rename_i le
      unfold toSize at le
      split at le <;> omega
  simp only [Image.pass] at passes
  split at passes
  · cases passes
  · split at passes
    · cases passes
    · split at passes
      · cases passes
        have le := bound (validbytes data.length curoff)
        rw [length_slice]
        omega
      · cases passes

/-- The loop on the object fills its start with what the loop reads. -/
theorem h5fd_preadLoopIn_eq
    (libs : Libs) (image : H5Image) (method : Alg) {count : Nat} {buf : Bytes}
    (enough : count ≤ buf.length) (dst : Option Nat) (dstlen curoff : Int)
    (copied : Bytes) :
    h5fd_preadLoopIn libs image method count dst dstlen curoff
        (copied ++ buf.drop copied.length) copied.length =
      into buf
        (h5fd_preadLoop libs image method count dst dstlen curoff copied) := by
  rw [h5fd_preadLoopIn, h5fd_preadLoop]
  by_cases more : copied.length < count
  · rw [dif_pos more, dif_pos more]
    cases hdf5_readdata image (.block (blocknum curoff)) H5_BUFSIZE with
    | fault => rfl
    | err => rfl
    | ok zipdata =>
        cases zipdata with
        | nil => rfl
        | cons head tail =>
            simp only
            cases decompress_data libs method dst dstlen (head :: tail) with
            | fault => rfl
            | err => rfl
            | ok data =>
                simp only
                cases passes : pass data curoff (count - copied.length) with
                | stop => rfl
                | repeats => rfl
                | outside => rfl
                | copy piece nonempty =>
                    have short := length_le_of_pass passes
                    have positive := List.length_pos_of_ne_nil nonempty
                    have fits :
                        copied.length + piece.length ≤
                          (copied ++ buf.drop copied.length).length := by
                      rw [List.length_append, List.length_drop]
                      omega
                    simp only
                    rw [if_pos fits, overwrite_continue, ← List.length_append]
                    exact
                      h5fd_preadLoopIn_eq libs image method enough _ _ _
                        (copied ++ piece)
  · rw [dif_neg more, dif_neg more]
    rfl
termination_by count - copied.length
decreasing_by
  rw [List.length_append]
  omega

/--
`h5fd_pread` fills the start of the caller's object, if the object has room
for the request, and never writes beyond the request.
-/
theorem h5fd_preadIn_eq
    (libs : Libs) (image : H5Image) (dstlen : Int) {buf : Bytes}
    {count : Nat} (enough : count ≤ buf.length) (offset : Int) :
    h5fd_preadIn libs image dstlen buf count offset =
      into buf (h5fd_pread libs image dstlen count offset) := by
  unfold h5fd_preadIn h5fd_pread
  split
  · rfl
  · exact h5fd_preadLoopIn_eq libs image _ enough none dstlen offset []

/-! ## Well-formed images -/

/--
The blocks of the image decode to the chunks of the content, and the reader
can fetch each of them.
-/
structure Readable
    (libs : Libs) (image : H5Image) (dstlen : Int) (content : Bytes) :
    Prop where
  algorithm : getAlgorithm image ≠ .DZ_ALG_UNKOWN
  fetched :
    ∀ number : Nat, number * H5_BUFSIZE < content.length →
      fetch libs image dstlen number = .ok (chunk content number)

/-- There is no block behind the content. -/
structure WellFormed
    (libs : Libs) (image : H5Image) (dstlen : Int) (content : Bytes) :
    Prop extends Readable libs image dstlen content where
  ended :
    ∀ number : Nat, content.length ≤ number * H5_BUFSIZE →
      image.dataset (.block number) = none

section Reads

variable
    {libs : Libs} {image : H5Image} {content buf : Bytes}
    {dstlen : Int} {count offset : Nat}

/-- The block number of an offset as long as it fits an `int`. -/
theorem blocknum_eq
    {position : Nat} (fits : position / H5_BUFSIZE < 2147483648) :
    blocknum position = (position / H5_BUFSIZE : Nat) := by
  rw [blocknum, ← Int.ofNat_tdiv]
  generalize position / H5_BUFSIZE = number at fits ⊢
  exact wrap32_eq_self (by omega) (by omega)

/-- The chunk of a position is fetched. -/
theorem Readable.fetch_blocknum
    (readable : Readable libs image dstlen content) {position : Nat}
    (fits : position / H5_BUFSIZE < 2147483648)
    (inside : position < content.length) :
    fetch libs image dstlen (blocknum position) =
      .ok (chunk content (position / H5_BUFSIZE)) := by
  have product := Nat.div_mul_le_self position H5_BUFSIZE
  rw [blocknum_eq fits]
  exact readable.fetched _ (by omega)

/-- A position below 2 GiB has a block number that fits an `int`. -/
theorem div_lt_of_small
    {position : Nat} (small : position < 2147483648) :
    position / H5_BUFSIZE < 2147483648 := by
  have le := Nat.div_le_self position H5_BUFSIZE
  omega

theorem Readable.fetch_small
    (readable : Readable libs image dstlen content) {position : Nat}
    (small : position < 2147483648) (inside : position < content.length) :
    position < 2147483648 ∧
      fetch libs image dstlen (blocknum position) =
        .ok (chunk content (position / H5_BUFSIZE)) :=
  ⟨small, readable.fetch_blocknum (div_lt_of_small small) inside⟩

/-- An image with the layout of the chunks is well formed if they are short. -/
theorem wellFormed_of_layout
    {text : Bytes} {pieces : List Bytes}
    (algorithm : getAlgorithm image = .DZ_ALG_ZSTD)
    (datasets : image.datasets = layout libs .DZ_ALG_ZSTD text pieces)
    (distinct : (image.datasets.map Prod.fst).Nodup)
    (strided : Strided content pieces) (whole : pieces.flatten = content)
    (nonempty : ∀ piece ∈ pieces, piece ≠ [])
    (short :
      ∀ piece ∈ pieces, (libs.zstd.compress piece).length < H5_BUFSIZE)
    (numbered : pieces.length ≤ 2147483648) :
    WellFormed libs image dstlen content := by
  have holds : Holds libs image content := by
    refine ⟨algorithm, ?_⟩
    intro number inside
    have found :=
      dataset_of_layout datasets distinct (strided.getElem? whole inside)
    rwa [block_zstd (chunk_ne_nil inside)] at found
  constructor
  · constructor
    · rw [algorithm]
      decide
    · intro number inside
      have here := strided.getElem? whole inside
      have bound := (List.getElem?_eq_some_iff.mp here).1
      have start : number * H5_BUFSIZE / H5_BUFSIZE = number :=
        Nat.mul_div_cancel number H5_BUFSIZE_pos
      have packed := short _ (List.mem_of_getElem? here)
      have fetched :=
        (holds.fetch_eq_ok_iff dstlen inside).mpr
          ⟨rfl, by rw [start]; exact packed⟩
      rw [blocknum_eq (by omega), start] at fetched
      exact fetched
  · intro number behind
    exact absent_of_layout datasets strided nonempty numbered behind

/-! ### Files made of pieces -/

/-- The image of the pieces, stored by the codec that packs zeros. -/
def packedImage (pieces : List Bytes) : H5Image where
  datasets :=
    layout packingLibs .DZ_ALG_ZSTD [122, 115, 116, 100, 32, 49] pieces
  writer := false
  closed := true

/-- Each of its blocks is fetched. -/
theorem fetch_packedImage
    (dstlen : Int) {pieces : List Bytes}
    (packs : ∀ piece ∈ pieces, Packs piece)
    (numbered : pieces.length ≤ 2147483648)
    {number : Nat} {piece : Bytes} (found : pieces[number]? = some piece) :
    fetch packingLibs (packedImage pieces) dstlen number = .ok piece := by
  have bound := (List.getElem?_eq_some_iff.mp found).1
  have here := packs piece (List.mem_of_getElem? found)
  have present :
      (packedImage pieces).dataset (.block (wrap32 (number : Int))) =
        some (block packingLibs .DZ_ALG_ZSTD piece) :=
    dataset_of_layout rfl (nodup_layout numbered) found
  rw [wrap32_eq_self (by omega) (by omega), block_zstd here.nonempty] at present
  exact fetch_of_zstd rfl present here.short

theorem wellFormed_packedImage
    (dstlen : Int) {pieces : List Bytes}
    (strided : Strided pieces.flatten pieces)
    (packs : ∀ piece ∈ pieces, Packs piece)
    (numbered : pieces.length ≤ 2147483648) :
    WellFormed packingLibs (packedImage pieces) dstlen pieces.flatten :=
  wellFormed_of_layout rfl rfl (nodup_layout numbered) strided rfl
    (fun piece member => (packs piece member).nonempty)
    (fun piece member => (packs piece member).short) numbered

theorem wellFormed_threeChunks (dstlen : Int) :
    WellFormed packingLibs (packedImage threeChunks) dstlen
      threeChunks.flatten := by
  refine wellFormed_packedImage dstlen strided_threeChunks ?_ (by decide)
  intro piece member
  simp only [threeChunks, List.mem_cons, List.not_mem_nil, or_false] at member
  rcases member with rfl | rfl | rfl
  · exact packs_zeroChunk
  · exact packs_zeroChunk
  · exact packs_of_short (by simp) (by rw [H5_BUFSIZE_eq]; decide)

theorem wellFormed_zeroChunks
    (dstlen : Int) {number : Nat} (numbered : number ≤ 2147483648) :
    WellFormed packingLibs (packedImage (List.replicate number zeroChunk))
      dstlen (List.replicate (number * H5_BUFSIZE) 0) := by
  have whole :
      (List.replicate number zeroChunk).flatten =
        List.replicate (number * H5_BUFSIZE) (0 : Byte) := by
    rw [zeroChunk, List.flatten_replicate_replicate]
  rw [← whole]
  apply wellFormed_packedImage
  · clear whole numbered
    induction number with
    | zero => exact strided_nil _
    | succ number strided => exact strided_cons length_zeroChunk strided
  · intro piece member
    rw [List.eq_of_mem_replicate member]
    exact packs_zeroChunk
  · rw [List.length_replicate]
    exact numbered

/-- Reads inside the content and below 2 GiB are exact. -/
theorem Readable.pread
    (readable : Readable libs image dstlen content)
    (small : count = 0 ∨ offset + count ≤ 2147483648)
    (within : offset + count ≤ content.length) :
    h5fd_pread libs image dstlen count offset =
      .returned count (slice content offset count) := by
  apply h5fd_pread_of_fetched readable.algorithm within
  intro position after before
  exact readable.fetch_small (by omega) (by omega)

/--
For every image that stores the content in readable blocks, a read inside the
content returns the requested bytes in the first `count` bytes of the buffer,
and leaves the rest of the buffer as it was.
-/
theorem in_range_reads_exact
    (readable : Readable libs image dstlen content)
    (small : content.length < 2147483648)
    (within : offset + count ≤ content.length)
    (enough : count ≤ buf.length) :
    h5fd_preadIn libs image dstlen buf count offset =
      .returned count (slice content offset count ++ buf.drop count) := by
  have length : (slice content offset count).length = count := by
    rw [length_slice]
    omega
  rw [h5fd_preadIn_eq libs image dstlen enough,
    readable.pread (Or.inr (by omega)) within, into, length]

/-- A read that starts in the first block and ends in the third. -/
theorem in_range_reads_exact_acrossBlocks :
    h5fd_preadIn packingLibs (packedImage threeChunks) 0
        (List.replicate (H5_BUFSIZE + 5) 1) (H5_BUFSIZE + 3)
        (H5_BUFSIZE - 1 : Nat) =
      .returned (H5_BUFSIZE + 3 : Nat)
        (List.replicate (H5_BUFSIZE + 1) 0 ++ [7, 8] ++ [1, 1]) := by
  have stride := H5_BUFSIZE_eq
  have length := length_flatten_threeChunks
  have requested :
      slice threeChunks.flatten (H5_BUFSIZE - 1) (H5_BUFSIZE + 3) =
        List.replicate (H5_BUFSIZE + 1) 0 ++ [7, 8] := by
    have zeros : 2 * H5_BUFSIZE - (H5_BUFSIZE - 1) = H5_BUFSIZE + 1 := by
      omega
    have rest : H5_BUFSIZE + 3 - (H5_BUFSIZE + 1) = 2 := by omega
    rw [slice, drop_threeChunks (by omega), zeros, List.take_append,
      List.take_replicate, List.length_replicate, rest,
      Nat.min_eq_right (by omega)]
    rfl
  have untouched :
      (List.replicate (H5_BUFSIZE + 5) (1 : Byte)).drop (H5_BUFSIZE + 3) =
        [1, 1] := by
    rw [List.drop_replicate, Nat.add_sub_add_left]
    rfl
  rw [← requested, ← untouched]
  exact
    in_range_reads_exact (wellFormed_threeChunks 0).toReadable (by omega)
      (by omega) (by rw [List.length_replicate]; omega)

/-! ## The end of the file -/

/-- Behind the content the reader finds the end of a short last block. -/
theorem WellFormed.preadLoop_end
    (wellFormed : WellFormed libs image dstlen content)
    (small : content.length < 2147483648)
    {dst : Option Nat} {current : Int}
    (steady : Steady image dstlen dst current) (more : buf.length < count) :
    h5fd_preadLoop libs image (getAlgorithm image) count dst current
        (content.length : Int) buf =
      .returned
        (if H5_BUFSIZE ∣ content.length then -1 else (buf.length : Int))
        buf := by
  have fits := div_lt_of_small small
  rw [h5fd_preadLoop_eq steady more, blocknum_eq fits]
  by_cases aligned : H5_BUFSIZE ∣ content.length
  · have absent :
        image.dataset (.block ((content.length / H5_BUFSIZE : Nat) : Int)) =
          none := by
      apply wellFormed.ended
      exact Nat.le_of_eq (Nat.div_mul_cancel aligned).symm
    rw [fetch_of_absent absent, if_pos aligned]
    rfl
  · have split := Nat.div_add_mod' content.length H5_BUFSIZE
    have rest : 0 < content.length % H5_BUFSIZE :=
      Nat.pos_of_ne_zero fun none => aligned (Nat.dvd_of_mod_eq_zero none)
    have last : content.length / H5_BUFSIZE * H5_BUFSIZE < content.length := by
      omega
    have stride := Nat.mod_lt content.length H5_BUFSIZE_pos
    have ended :
        (chunk content (content.length / H5_BUFSIZE)).length =
          content.length % H5_BUFSIZE := by
      rw [length_chunk]
      omega
    rw [wellFormed.fetched _ last, if_neg aligned]
    simp only [afterFetch, pass_stops ended]

/-- A read that goes beyond the content comes to its end. -/
theorem WellFormed.pread_beyond
    (wellFormed : WellFormed libs image dstlen content)
    (small : content.length < 2147483648)
    (inside : offset ≤ content.length)
    (beyond : content.length < offset + count) :
    h5fd_pread libs image dstlen count offset =
      .returned
        (if H5_BUFSIZE ∣ content.length then -1
          else ((content.length - offset : Nat) : Int))
        (content.drop offset) := by
  have whole : offset + (content.length - offset) = content.length := by omega
  have tail :
      slice content offset (content.length - offset) =
        content.drop offset := by
    rw [slice, ← List.length_drop, List.take_length]
  have start : Steady image dstlen none dstlen := Or.inl ⟨rfl, rfl⟩
  have fetched :
      ∀ position, offset ≤ position →
        position < offset + (content.length - offset) →
          position < 2147483648 ∧
            fetch libs image dstlen (blocknum position) =
              .ok (chunk content (position / H5_BUFSIZE)) := by
    intro position _ before
    exact wellFormed.fetch_small (by omega) (by omega)
  rcases
    h5fd_preadLoop_advance fetched (Nat.le_of_eq whole) (by omega : _ ≤ count)
      (Or.inr (Or.inr whole)) start (Nat.zero_le _) with
    ⟨dst, current, steady, steps⟩
  rw [slice_zero, Nat.add_zero, whole, tail] at steps
  have more : (content.drop offset).length < count := by
    rw [List.length_drop]
    omega
  rw [h5fd_pread, if_neg wellFormed.algorithm, steps,
    wellFormed.preadLoop_end small steady more, List.length_drop]

/--
A read that reaches the end of the file returns what there is, exactly when
the length of the file is not a multiple of the stride.
-/
theorem reads_at_end_short_iff
    (wellFormed : WellFormed libs image dstlen content)
    (small : content.length < 2147483648)
    (inside : offset ≤ content.length)
    (beyond : content.length < offset + count)
    (enough : count ≤ buf.length) :
    h5fd_preadIn libs image dstlen buf count offset =
        .returned ((content.length - offset : Nat) : Int)
          (content.drop offset ++ buf.drop (content.length - offset)) ↔
      ¬ H5_BUFSIZE ∣ content.length := by
  rw [h5fd_preadIn_eq libs image dstlen enough,
    wellFormed.pread_beyond small inside beyond, into, List.length_drop]
  constructor
  · intro short aligned
    rw [if_pos aligned] at short
    injection short with failed
    omega
  · intro unaligned
    rw [if_neg unaligned]

/-- The last read of three chunks is short, that of two full ones fails. -/
theorem reads_at_end_short_iff_severalBlocks :
    h5fd_preadIn packingLibs (packedImage threeChunks) 0
          (List.replicate 12 1) 10 (2 * H5_BUFSIZE - 1 : Nat) =
        .returned (4 : Nat) ([0, 7, 8, 9] ++ List.replicate 8 1) ∧
      h5fd_preadIn packingLibs (packedImage (List.replicate 2 zeroChunk)) 0
          (List.replicate 12 1) 10 (2 * H5_BUFSIZE - 1 : Nat) ≠
        .returned (1 : Nat) ([0] ++ List.replicate 11 1) := by
  have stride := H5_BUFSIZE_eq
  constructor
  · have length := length_flatten_threeChunks
    have inside : 2 * H5_BUFSIZE - 1 ≤ threeChunks.flatten.length := by omega
    have beyond :
        threeChunks.flatten.length < 2 * H5_BUFSIZE - 1 + 10 := by
      omega
    have left : threeChunks.flatten.length - (2 * H5_BUFSIZE - 1) = 4 := by
      omega
    have one : 2 * H5_BUFSIZE - (2 * H5_BUFSIZE - 1) = 1 := by omega
    have short :=
      (reads_at_end_short_iff (wellFormed_threeChunks 0) (by omega) inside
        beyond (by decide : 10 ≤ (List.replicate 12 (1 : Byte)).length)).mpr
        (by rw [length, stride]; omega)
    rw [left, drop_threeChunks (by omega), one] at short
    exact short
  · have length :
        (List.replicate (2 * H5_BUFSIZE) (0 : Byte)).length =
          2 * H5_BUFSIZE :=
      List.length_replicate
    generalize same :
      List.replicate (2 * H5_BUFSIZE) (0 : Byte) = content at length
    have wellFormed :
        WellFormed packingLibs (packedImage (List.replicate 2 zeroChunk)) 0
          content := by
      rw [← same]
      exact wellFormed_zeroChunks 0 (by decide)
    have inside : 2 * H5_BUFSIZE - 1 ≤ content.length := by omega
    have beyond : content.length < 2 * H5_BUFSIZE - 1 + 10 := by omega
    have left : content.length - (2 * H5_BUFSIZE - 1) = 1 := by omega
    have tail : content.drop (2 * H5_BUFSIZE - 1) = [0] := by
      rw [← same, List.drop_replicate, Nat.sub_sub_self (by omega)]
      rfl
    have agree :=
      reads_at_end_short_iff wellFormed (by omega) inside beyond
        (by decide : 10 ≤ (List.replicate 12 (1 : Byte)).length)
    rw [left, tail] at agree
    intro short
    apply agree.mp short
    rw [length]
    exact Nat.dvd_mul_left _ _

theorem wellFormed_noChunks (dstlen : Int) :
    WellFormed packingLibs (packedImage []) dstlen [] :=
  wellFormed_packedImage dstlen (strided_nil []) (by simp) (by decide)

/-- A read at the end of the empty file returns -1. -/
theorem read_at_end_fails :
    ¬ ∀ (libs : Libs) (image : H5Image) (dstlen : Int) (content buf : Bytes)
        (offset count : Nat),
        WellFormed libs image dstlen content →
          content.length < 2147483648 →
            offset ≤ content.length → content.length < offset + count →
              count ≤ buf.length →
                h5fd_preadIn libs image dstlen buf count offset =
                  .returned ((content.length - offset : Nat) : Int)
                    (content.drop offset ++
                      buf.drop (content.length - offset)) := by
  intro claimed
  have short :=
    claimed packingLibs (packedImage []) 0 [] [0] 0 1 (wellFormed_noChunks 0)
      (by decide) (by decide) (by decide) (by decide)
  rw [h5fd_preadIn_eq packingLibs (packedImage []) 0 (by decide),
    (wellFormed_noChunks 0).pread_beyond (by decide) (by decide)
      (by decide)] at short
  change
    PreadResult.returned (if H5_BUFSIZE ∣ 0 then -1 else _) _ = _ at short
  rw [if_pos (Nat.dvd_zero H5_BUFSIZE)] at short
  injection short with failed
  cases failed

/-! ## Files of any size -/

/-- From 2 GiB on the loop leaves the block it has decoded. -/
theorem Readable.preadLoop_large
    (readable : Readable libs image dstlen content)
    (numbered : content.length ≤ 2147483648 * H5_BUFSIZE)
    {dst : Option Nat} {current : Int} {position : Nat}
    (steady : Steady image dstlen dst current) (more : buf.length < count)
    (large : 2147483648 ≤ position) (inside : position < content.length) :
    h5fd_preadLoop libs image (getAlgorithm image) count dst current position
        buf =
      .fault := by
  have fits : position / H5_BUFSIZE < 2147483648 := by
    rw [Nat.div_lt_iff_lt_mul H5_BUFSIZE_pos]
    omega
  have leaves :=
    pass_of_large large inside (by omega : 0 < count - buf.length)
  rw [h5fd_preadLoop_eq steady more, readable.fetch_blocknum fits inside]
  simp only [afterFetch, leaves]

/-- A read that touches a byte from 2 GiB on leaves a decoded block. -/
theorem Readable.pread_large
    (readable : Readable libs image dstlen content)
    (numbered : content.length ≤ 2147483648 * H5_BUFSIZE)
    (within : offset + count ≤ content.length)
    (nonzero : count ≠ 0) (large : 2147483648 < offset + count) :
    h5fd_pread libs image dstlen count offset = .fault := by
  have start : Steady image dstlen none dstlen := Or.inl ⟨rfl, rfl⟩
  have more : ([] : Bytes).length < count := Nat.pos_of_ne_zero nonzero
  rw [h5fd_pread, if_neg readable.algorithm]
  by_cases far : 2147483648 ≤ offset
  · exact
      readable.preadLoop_large numbered start more far (by omega)
  · have whole : offset + (2147483648 - offset) = 2147483648 := by omega
    have aligned : H5_BUFSIZE ∣ offset + (2147483648 - offset) := by
      rw [whole, H5_BUFSIZE_eq]
      decide
    have fetched :
        ∀ position, offset ≤ position →
          position < offset + (2147483648 - offset) →
            position < 2147483648 ∧
              fetch libs image dstlen (blocknum position) =
                .ok (chunk content (position / H5_BUFSIZE)) := by
      intro position _ before
      exact readable.fetch_small (by omega) (by omega)
    rcases
      h5fd_preadLoop_advance fetched (by omega) (by omega : _ ≤ count)
        (Or.inr (Or.inl aligned)) start (Nat.zero_le _) with
      ⟨dst, current, steady, steps⟩
    rw [slice_zero, Nat.add_zero, whole] at steps
    have length :
        (slice content offset (2147483648 - offset)).length < count := by
      rw [length_slice]
      omega
    rw [steps]
    exact
      readable.preadLoop_large numbered steady length (Nat.le_refl _)
        (by omega)

/--
At an offset of the image both pointer computations are right exactly below
2 GiB, and a read inside the content is right exactly if it asks for nothing
or ends at 2 GiB or before.
-/
theorem arithmetic_right_iff
    (readable : Readable libs image dstlen content)
    (numbered : content.length ≤ 2147483648 * H5_BUFSIZE) :
    (∀ curoff < content.length, ∀ length ≤ H5_BUFSIZE,
      (srcIndex curoff = (curoff % H5_BUFSIZE : Nat) ∧
          validbytes length curoff =
            (length : Int) - (curoff % H5_BUFSIZE : Nat)) ↔
        curoff < 2147483648) ∧
      ∀ (offset count : Nat) (buf : Bytes),
        offset + count ≤ content.length → count ≤ buf.length →
          (h5fd_preadIn libs image dstlen buf count offset =
              .returned count
                (slice content offset count ++ buf.drop count) ↔
            count = 0 ∨ offset + count ≤ 2147483648) := by
  constructor
  · intro curoff inside length short
    constructor
    · rintro ⟨start, _⟩
      by_contra large
      have far := srcIndex_of_large curoff (by omega)
      have rest := Nat.mod_lt curoff H5_BUFSIZE_pos
      have stride := H5_BUFSIZE_eq
      omega
    · intro small
      exact ⟨srcIndex_of_small curoff small, validbytes_eq curoff length short⟩
  · intro offset count buf within enough
    have filled : (slice content offset count).length = count := by
      rw [length_slice]
      omega
    rw [h5fd_preadIn_eq libs image dstlen enough]
    constructor
    · intro right
      by_contra large
      rw [not_or] at large
      rw [readable.pread_large numbered within large.1 (by omega)] at right
      cases right
    · intro small
      rw [readable.pread small within, into, filled]

/-- A file of 513 zero chunks, read up to 2 GiB and one byte further. -/
theorem arithmetic_right_iff_zeroChunks :
    srcIndex (2147483647 : Nat) = (2147483647 % H5_BUFSIZE : Nat) ∧
      ¬ (srcIndex (2147483648 : Nat) = (2147483648 % H5_BUFSIZE : Nat) ∧
          validbytes H5_BUFSIZE (2147483648 : Nat) =
            (H5_BUFSIZE : Int) - (2147483648 % H5_BUFSIZE : Nat)) ∧
        h5fd_preadIn packingLibs
            (packedImage (List.replicate 513 zeroChunk)) 0 [1, 1, 1] 2
            (2147483646 : Nat) =
          .returned (2 : Nat) [0, 0, 1] ∧
          h5fd_preadIn packingLibs
              (packedImage (List.replicate 513 zeroChunk)) 0 [1, 1, 1] 3
              (2147483646 : Nat) ≠
            .returned (3 : Nat) [0, 0, 0] := by
  have stride := H5_BUFSIZE_eq
  have length :
      (List.replicate (513 * H5_BUFSIZE) (0 : Byte)).length =
        513 * H5_BUFSIZE :=
    List.length_replicate
  rcases
    arithmetic_right_iff
      (wellFormed_zeroChunks 0 (by decide : 513 ≤ 2147483648)).toReadable
      (by omega) with
    ⟨pointers, reads⟩
  have zeros (count : Nat) (within : 2147483646 + count ≤ 513 * H5_BUFSIZE) :
      slice (List.replicate (513 * H5_BUFSIZE) (0 : Byte)) 2147483646 count =
        List.replicate count 0 := by
    rw [slice_replicate, Nat.min_eq_left (by omega)]
  refine ⟨?_, ?_, ?_, ?_⟩
  · exact
      ((pointers 2147483647 (by omega) 0 (Nat.zero_le _)).mpr (by decide)).1
  · intro right
    have small :=
      (pointers 2147483648 (by omega) H5_BUFSIZE (Nat.le_refl _)).mp right
    exact absurd small (by decide)
  · have right :=
      (reads 2147483646 2 [1, 1, 1] (by omega) (by decide)).mpr
        (Or.inr (by decide))
    rw [zeros 2 (by omega)] at right
    exact right
  · intro right
    have small :=
      (reads 2147483646 3 [1, 1, 1] (by omega) (by decide)).mp
        (by rw [zeros 3 (by omega)]; exact right)
    exact absurd small (by decide)

end Reads

/-- At 2 GiB `srcp` lies 4 GiB behind the start of the block. -/
theorem start_wrong_from_2GiB :
    ¬ ∀ (libs : Libs) (image : H5Image) (dstlen : Int) (content : Bytes),
        Readable libs image dstlen content →
          content.length ≤ 2147483648 * H5_BUFSIZE →
            (∀ curoff < content.length, ∀ length ≤ H5_BUFSIZE,
              srcIndex (curoff : Nat) = (curoff % H5_BUFSIZE : Nat) ∧
                validbytes (length : Nat) (curoff : Nat) =
                  (length : Int) - (curoff % H5_BUFSIZE : Nat)) ∧
              ∀ (offset count : Nat) (buf : Bytes),
                offset + count ≤ content.length → count ≤ buf.length →
                  h5fd_preadIn libs image dstlen buf count offset =
                    .returned count
                      (slice content offset count ++ buf.drop count) := by
  intro claimed
  have stride := H5_BUFSIZE_eq
  have right :=
    claimed packingLibs (packedImage (List.replicate 513 zeroChunk)) 0 _
      (wellFormed_zeroChunks 0 (by decide)).toReadable
      (by rw [List.length_replicate]; omega)
  have start :=
    (right.1 2147483648 (by rw [List.length_replicate]; omega) 0
      (Nat.zero_le _)).1
  have far := srcIndex_of_large 2147483648 (Nat.le_refl _)
  have rest := Nat.mod_lt 2147483648 H5_BUFSIZE_pos
  omega

end DZFile.Pread
