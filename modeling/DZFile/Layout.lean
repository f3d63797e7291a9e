import DZFile.Image
import Mathlib.Data.List.Induction

/-!
# The datasets of an image

What the converter writes for a list of pieces read from a source: the header,
then one compressed block for each piece under consecutive numbers.  Decoding
such an image gives the pieces back; if the pieces are the chunks of a content
at the fixed stride, the image holds the content for the positional reader.
-/

namespace DZFile.Layout

open DZFile.ByteSeq
open DZFile.Codec
open DZFile.Image

variable (libs : Libs) (method : Alg)

/-- A piece that is read by one call and accepted by the codec. -/
structure Storable (piece : Bytes) : Prop where
  nonempty : piece ≠ []
  short : piece.length ≤ H5_BUFSIZE
  compressed : (compress_data libs method piece).isSome

/-- The block stored for a piece. -/
def block (piece : Bytes) : Bytes :=
  (compress_data libs method piece).getD []

/-- The datasets of the pieces, numbered from `first` on. -/
def blockEntries : Nat → List Bytes → List (Dataset × Bytes)
  | _, [] => []
  | first, piece :: rest =>
      (.block (wrap32 first), block libs method piece) ::
        blockEntries (first + 1) rest

/-- All datasets of an image. -/
def layout (text : Bytes) (pieces : List Bytes) : List (Dataset × Bytes) :=
  (.algorithm, text) :: blockEntries libs method 0 pieces

variable {libs method}

theorem compress_data_eq_block
    {piece : Bytes} (storable : Storable libs method piece) :
    compress_data libs method piece = some (block libs method piece) := by
  rcases Option.isSome_iff_exists.mp storable.compressed with ⟨data, compressed⟩
  rw [block, compressed, Option.getD_some]

theorem block_of_compress_data
    {piece data : Bytes}
    (compressed : compress_data libs method piece = some data) :
    block libs method piece = data := by
  rw [block, compressed, Option.getD_some]

theorem blockEntries_append
    (first : Nat) (pieces : List Bytes) (piece : Bytes) :
    blockEntries libs method first (pieces ++ [piece]) =
      blockEntries libs method first pieces ++
        [(.block (wrap32 ((first + pieces.length : Nat) : Int)),
          block libs method piece)] := by
  induction pieces generalizing first with
  | nil => rfl
  | cons head rest induction =>
      rw [List.cons_append, blockEntries, induction, blockEntries,
        List.cons_append, List.length_cons]
      have position : first + 1 + rest.length = first + (rest.length + 1) := by
        omega
      rw [position]

/-- Storing one more piece adds the next dataset. -/
theorem layout_append (text : Bytes) (pieces : List Bytes) (piece : Bytes) :
    layout libs method text (pieces ++ [piece]) =
      layout libs method text pieces ++
        [(.block (wrap32 (pieces.length : Int)),
          block libs method piece)] := by
  rw [layout, blockEntries_append, Nat.zero_add, layout, List.cons_append]

/-- The stored blocks in order. -/
theorem filterMap_blockEntries (first : Nat) (pieces : List Bytes) :
    (blockEntries libs method first pieces).filterMap blockOf =
      pieces.map (block libs method) := by
  induction pieces generalizing first with
  | nil => rfl
  | cons piece rest induction =>
      simp only [blockEntries, List.filterMap_cons, blockOf, induction,
        List.map_cons]

/-- An image with this layout decodes to the pieces in order. -/
theorem decode_of_layout
    {image : H5Image} {text : Bytes} {pieces : List Bytes}
    (datasets : image.datasets = layout libs method text pieces)
    (storable : ∀ piece ∈ pieces, Storable libs method piece) :
    image.decode libs method = some pieces.flatten := by
  have blocks : image.blocks = pieces.map (block libs method) := by
    rw [H5Image.blocks, datasets, layout, List.filterMap_cons_none rfl,
      filterMap_blockEntries]
  have decoded :
      (pieces.map (block libs method)).mapM (blockContent libs method) =
        some pieces := by
    clear blocks datasets
    induction pieces with
    | nil => rfl
    | cons piece rest induction =>
        have head := storable piece List.mem_cons_self
        rw [List.map_cons, List.mapM_cons,
          blockContent_of_compress_data libs (compress_data_eq_block head)
            head.short,
          induction fun other member =>
            storable other (List.mem_cons_of_mem _ member)]
        rfl
  rw [H5Image.decode, blocks, decoded, Option.map_some]

/-! ## Access by number -/

/-- With distinct names every entry is found under its name. -/
theorem lookup_of_mem
    {entries : List (Dataset × Bytes)} {name : Dataset} {data : Bytes}
    (distinct : (entries.map Prod.fst).Nodup)
    (member : (name, data) ∈ entries) :
    entries.lookup name = some data := by
  induction entries with
  | nil => cases member
  | cons entry rest induction =>
      rcases entry with ⟨other, stored⟩
      rw [List.map_cons, List.nodup_cons] at distinct
      rcases List.mem_cons.mp member with same | later
      · cases same
        exact List.lookup_cons_self
      · have different : name ≠ other := by
          rintro rfl
          exact distinct.1 (List.mem_map.mpr ⟨(name, data), later, rfl⟩)
        rw [List.lookup_cons, beq_false_of_ne different]
        exact induction distinct.2 later

theorem mem_blockEntries
    {pieces : List Bytes} {number : Nat} {piece : Bytes} (first : Nat)
    (found : pieces[number]? = some piece) :
    (Dataset.block (wrap32 ((first + number : Nat) : Int)),
        block libs method piece) ∈
      blockEntries libs method first pieces := by
  induction pieces generalizing first number with
  | nil => cases found
  | cons head rest induction =>
      cases number with
      | zero =>
          cases found
          exact List.mem_cons_self
      | succ number =>
          have later := induction (first + 1) found
          rw [Nat.add_right_comm, Nat.add_assoc] at later
          exact List.mem_cons_of_mem _ later

/-- Each block is found under its number. -/
theorem dataset_of_layout
    {image : H5Image} {text : Bytes} {pieces : List Bytes}
    (datasets : image.datasets = layout libs method text pieces)
    (distinct : (image.datasets.map Prod.fst).Nodup)
    {number : Nat} {piece : Bytes} (found : pieces[number]? = some piece) :
    image.dataset (.block (wrap32 (number : Int))) =
      some (block libs method piece) := by
  have member :
      (Dataset.block (wrap32 ((0 + number : Nat) : Int)),
          block libs method piece) ∈
        blockEntries libs method 0 pieces :=
    mem_blockEntries 0 found
  rw [Nat.zero_add] at member
  refine lookup_of_mem distinct ?_
  rw [datasets]
  exact List.mem_cons_of_mem _ member

/-- Every block is one of the numbered pieces. -/
theorem exists_of_mem_blockEntries
    {pieces : List Bytes} {first : Nat} {name : Dataset} {data : Bytes}
    (member : (name, data) ∈ blockEntries libs method first pieces) :
    ∃ number piece,
      pieces[number]? = some piece ∧
        name = .block (wrap32 ((first + number : Nat) : Int)) ∧
          data = block libs method piece := by
  induction pieces generalizing first with
  | nil => cases member
  | cons head rest induction =>
      rcases List.mem_cons.mp member with same | later
      · cases same
        exact ⟨0, head, rfl, rfl, rfl⟩
      · rcases induction later with ⟨number, piece, found, named, stored⟩
        refine ⟨number + 1, piece, found, ?_, stored⟩
        rw [named]
        have position : first + 1 + number = first + (number + 1) := by omega
        rw [position]

theorem mem_of_lookup
    {entries : List (Dataset × Bytes)} {name : Dataset} {data : Bytes}
    (found : entries.lookup name = some data) :
    (name, data) ∈ entries := by
  induction entries with
  | nil => cases found
  | cons entry rest induction =>
      rcases entry with ⟨other, stored⟩
      rw [List.lookup_cons] at found
      by_cases same : name = other
      · subst same
        rw [beq_self_eq_true] at found
        cases found
        exact List.mem_cons_self
      · rw [beq_false_of_ne same] at found
        exact List.mem_cons_of_mem _ (induction found)

/-- As long as the numbers fit an `int` the names are distinct. -/
theorem nodup_blockEntries
    {pieces : List Bytes} {first : Nat}
    (numbered : first + pieces.length ≤ 2147483648) :
    ((blockEntries libs method first pieces).map Prod.fst).Nodup := by
  induction pieces generalizing first with
  | nil => exact List.nodup_nil
  | cons piece rest induction =>
      rw [List.length_cons] at numbered
      rw [blockEntries, List.map_cons, List.nodup_cons]
      constructor
      · intro repeated
        rcases List.mem_map.mp repeated with ⟨⟨name, data⟩, member, same⟩
        rcases exists_of_mem_blockEntries member with
          ⟨number, other, found, rfl, _⟩
        have bound := (List.getElem?_eq_some_iff.mp found).1
        have equal := Dataset.block.inj same
        rw [wrap32_eq_self (by omega) (by omega),
          wrap32_eq_self (by omega) (by omega)] at equal
        omega
      · exact induction (by omega)

/-- So are those of the whole image. -/
theorem nodup_layout
    {text : Bytes} {pieces : List Bytes}
    (numbered : pieces.length ≤ 2147483648) :
    ((layout libs method text pieces).map Prod.fst).Nodup := by
  rw [layout, List.map_cons, List.nodup_cons]
  constructor
  · intro repeated
    rcases List.mem_map.mp repeated with ⟨⟨name, data⟩, member, same⟩
    rcases exists_of_mem_blockEntries member with ⟨number, other, _, rfl, _⟩
    cases same
  · exact nodup_blockEntries (by omega)

/-- A dataset that is a block is the block of a piece. -/
theorem piece_of_dataset
    {image : H5Image} {text : Bytes} {pieces : List Bytes}
    (datasets : image.datasets = layout libs method text pieces)
    {name : Int} {data : Bytes}
    (found : image.dataset (.block name) = some data) :
    ∃ number : Nat, ∃ piece,
      pieces[number]? = some piece ∧ name = wrap32 (number : Int) ∧
        data = block libs method piece := by
  have member := mem_of_lookup found
  rw [datasets, layout, List.mem_cons] at member
  rcases member with header | later
  · cases header
  · rcases exists_of_mem_blockEntries later with
      ⟨number, piece, here, named, stored⟩
    rw [Nat.zero_add] at named
    exact ⟨number, piece, here, Dataset.block.inj named, stored⟩

/-! ## Chunks at the fixed stride -/

/-- The pieces are the chunks of the content, in order. -/
def Strided (content : Bytes) (pieces : List Bytes) : Prop :=
  ∀ number piece, pieces[number]? = some piece → piece = chunk content number

theorem strided_nil (content : Bytes) : Strided content [] := by
  intro number piece found
  cases found

theorem Strided.of_append
    {content : Bytes} {pieces : List Bytes} {piece : Bytes}
    (strided : Strided content (pieces ++ [piece])) :
    Strided content pieces ∧ piece = chunk content pieces.length := by
  constructor
  · intro number other found
    refine strided number other ?_
    rw [List.getElem?_append_left]
    · exact found
    · exact (List.getElem?_eq_some_iff.mp found).1
  · exact strided pieces.length piece (by simp)

/-- The chunks concatenate to the start of the content. -/
theorem Strided.flatten
    {content : Bytes} {pieces : List Bytes}
    (strided : Strided content pieces) :
    pieces.flatten = content.take (pieces.length * H5_BUFSIZE) := by
  induction pieces using List.reverseRecOn with
  | nil => simp
  | append_singleton pieces piece induction =>
      rcases strided.of_append with ⟨earlier, rfl⟩
      rw [List.flatten_append, List.flatten_singleton, induction earlier,
        chunk, take_append_slice, List.length_append, List.length_singleton,
        Nat.succ_mul]

/-- A read that fills its buffer, up to the end, reads the next chunk. -/
theorem Strided.read
    {content : Bytes} {pieces : List Bytes} {buffer : Bytes}
    (strided : Strided content pieces)
    (data : buffer = slice content pieces.flatten.length H5_BUFSIZE)
    (nonempty : buffer ≠ []) :
    Strided content (pieces ++ [buffer]) := by
  have start : pieces.flatten.length = pieces.length * H5_BUFSIZE := by
    have lengths := congrArg List.length strided.flatten
    rw [List.length_take] at lengths
    have positive := List.length_pos_of_ne_nil nonempty
    rw [data, length_slice] at positive
    omega
  intro number piece found
  by_cases earlier : number < pieces.length
  · rw [List.getElem?_append_left earlier] at found
    exact strided number piece found
  · have last : number = pieces.length := by
      have bound := (List.getElem?_eq_some_iff.mp found).1
      rw [List.length_append, List.length_singleton] at bound
      omega
    subst last
    rw [List.getElem?_append_right (Nat.le_refl _), Nat.sub_self] at found
    cases found
    rw [data, start, chunk]

/-- When they make up the content, every chunk is among the pieces. -/
theorem Strided.getElem?
    {content : Bytes} {pieces : List Bytes}
    (strided : Strided content pieces) (whole : pieces.flatten = content)
    {number : Nat} (inside : number * H5_BUFSIZE < content.length) :
    pieces[number]? = some (chunk content number) := by
  have lengths := congrArg List.length strided.flatten
  rw [whole, List.length_take] at lengths
  have bound : number < pieces.length :=
    Nat.lt_of_mul_lt_mul_right (a := H5_BUFSIZE) (by omega)
  have found := List.getElem?_eq_getElem bound
  rw [found, strided number _ found]

/-- A content of at most one chunk is its only piece. -/
theorem strided_single {content : Bytes} (short : content.length ≤ H5_BUFSIZE) :
    Strided content [content] := by
  intro number piece found
  cases number with
  | zero =>
      cases found
      rw [chunk, slice, Nat.zero_mul, List.drop_zero,
        List.take_of_length_le short]
  | succ number => cases found

/-- A full chunk in front of a content is its first piece. -/
theorem strided_cons
    {content head : Bytes} {pieces : List Bytes}
    (full : head.length = H5_BUFSIZE) (strided : Strided content pieces) :
    Strided (head ++ content) (head :: pieces) := by
  intro number piece found
  cases number with
  | zero =>
      cases found
      rw [chunk, slice, Nat.zero_mul, List.drop_zero, ← full, List.take_left]
  | succ number =>
      rw [List.getElem?_cons_succ] at found
      rw [strided number piece found, chunk, chunk, slice, slice, Nat.succ_mul,
        Nat.add_comm, ← full, List.drop_length_add_append]

/-- There is no block behind the chunks of the content. -/
theorem absent_of_layout
    {image : H5Image} {text content : Bytes} {pieces : List Bytes}
    (datasets : image.datasets = layout libs method text pieces)
    (strided : Strided content pieces)
    (nonempty : ∀ piece ∈ pieces, piece ≠ [])
    (numbered : pieces.length ≤ 2147483648)
    {number : Nat} (behind : content.length ≤ number * H5_BUFSIZE) :
    image.dataset (.block (number : Int)) = none := by
  by_contra present
  rcases Option.ne_none_iff_exists'.mp present with ⟨data, found⟩
  rcases piece_of_dataset datasets found with ⟨other, piece, here, named, _⟩
  have bound := (List.getElem?_eq_some_iff.mp here).1
  have positive :=
    List.length_pos_of_ne_nil (nonempty piece (List.mem_of_getElem? here))
  rw [strided other piece here, length_chunk] at positive
  rw [wrap32_eq_self (by omega) (by omega)] at named
  obtain rfl : number = other := by omega
  omega

/-- Each piece starts inside the content. -/
theorem Strided.inside
    {content : Bytes} {pieces : List Bytes}
    (strided : Strided content pieces)
    (nonempty : ∀ piece ∈ pieces, piece ≠ [])
    {number : Nat} (bound : number < pieces.length) :
    number * H5_BUFSIZE < content.length := by
  have here := List.getElem?_eq_getElem bound
  have positive :=
    List.length_pos_of_ne_nil (nonempty _ (List.getElem_mem bound))
  rw [strided number _ here, length_chunk] at positive
  omega

theorem chunk_ne_nil
    {content : Bytes} {number : Nat}
    (inside : number * H5_BUFSIZE < content.length) :
    chunk content number ≠ [] := by
  intro empty
  have none := congrArg List.length empty
  rw [length_chunk, List.length_nil] at none
  have positive := H5_BUFSIZE_pos
  omega

/-- The block of a chunk is its compressed form. -/
theorem block_zstd {piece : Bytes} (nonempty : piece ≠ []) :
    block libs .DZ_ALG_ZSTD piece = libs.zstd.compress piece := by
  rw [block, compress_data, if_neg nonempty, Option.getD_some]

/-! ## Three chunks -/

/-- Two chunks of zeros and a short one. -/
def threeChunks : List Bytes :=
  [zeroChunk, zeroChunk, [7, 8, 9]]

theorem strided_threeChunks : Strided threeChunks.flatten threeChunks :=
  strided_cons length_zeroChunk
    (strided_cons length_zeroChunk
      (strided_single (by rw [H5_BUFSIZE_eq]; decide)))

/-- Its bytes: zeros up to the short chunk. -/
theorem flatten_threeChunks :
    threeChunks.flatten = List.replicate (2 * H5_BUFSIZE) 0 ++ [7, 8, 9] := by
  rw [Nat.two_mul, ← List.replicate_append_replicate, List.append_assoc]
  rfl

theorem length_flatten_threeChunks :
    threeChunks.flatten.length = 2 * H5_BUFSIZE + 3 := by
  rw [flatten_threeChunks, List.length_append, List.length_replicate]
  rfl

theorem drop_threeChunks {offset : Nat} (within : offset ≤ 2 * H5_BUFSIZE) :
    threeChunks.flatten.drop offset =
      List.replicate (2 * H5_BUFSIZE - offset) 0 ++ [7, 8, 9] := by
  rw [flatten_threeChunks, List.drop_append_of_le_length, List.drop_replicate]
  rw [List.length_replicate]
  exact within

end DZFile.Layout
