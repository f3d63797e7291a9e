import DZFile.Staging
import DZFile.Library.Transition

/-!
# Reading back a converted file

A converter runs alone, its reads fill the buffer up to the end of the file,
and it returns 0.  The blocks it has written are the chunks of the content, so
decompressing them gives the content back; but `hdf5_readdata` takes only
datasets that are shorter than its buffer, while the writer stores a block of
any length.
-/

namespace DZFile.ReadBack

open DZFile.ByteSeq
open DZFile.Codec
open DZFile.Image
open DZFile.Layout
open DZFile.Kernel
open DZFile.Converter
open DZFile.Staging

/-- A read of the source that is not cut short. -/
def FillsBuffer (state : Sys × Convert) (choice : Choice) : Prop :=
  state.2.pc = .readBlock →
    ∀ limit, choice = .ok limit → H5_BUFSIZE ≤ limit

/-- A read of the source that returns a chunk or all that is left. -/
def FullRead
    (platform : Platform) (state : Sys × Convert) (choice : Choice) : Prop :=
  state.2.pc = .readBlock →
    ∀ limit file,
      choice = .ok limit → state.1.proc.fds state.2.srcfd = some file →
        min H5_BUFSIZE
            (((state.1.fs.node file.ino).bytes platform).length -
              file.offset) ≤
          limit

theorem FillsBuffer.fullRead
    {platform : Platform} {state : Sys × Convert} {choice : Choice}
    (fills : FillsBuffer state choice) :
    FullRead platform state choice := by
  intro place limit file limited _
  have large := fills place limit limited
  omega

/--
The reader accepts every block and decompresses it to its chunk, there is a
block for every chunk, and the blocks decode to the content.
-/
structure ReadsBack (libs : Libs) (image : H5Image) (content : Bytes) :
    Prop where
  accepted :
    ∀ name stored, image.dataset (.block name) = some stored →
      ∃ number : Nat,
        name = number ∧
          hdf5_readdata image (.block name) H5_BUFSIZE = .ok stored ∧
            ∀ dst dstlen,
              decompress_data libs .DZ_ALG_ZSTD dst dstlen stored =
                .ok (chunk content number)
  present :
    ∀ number : Nat, number * H5_BUFSIZE < content.length →
      (image.dataset (.block number)).isSome
  whole : image.decode libs .DZ_ALG_ZSTD = some content

/-- Every chunk compresses to less than the reader's buffer. -/
def AllShort (libs : Libs) (content : Bytes) : Prop :=
  ∀ number, number * H5_BUFSIZE < content.length →
    (libs.zstd.compress (chunk content number)).length < H5_BUFSIZE

variable {platform : Platform} {libs : Libs} {content : Bytes}

/-- Below 2 GiB the number of a chunk is its own `int`. -/
theorem wrap32_number
    (small : content.length < 2147483648)
    {number : Nat} (inside : number * H5_BUFSIZE < content.length) :
    wrap32 (number : Int) = number := by
  have positive := H5_BUFSIZE_pos
  have bound : number ≤ number * H5_BUFSIZE :=
    Nat.le_mul_of_pos_right number positive
  exact wrap32_eq_self (by omega) (by omega)

/-- A strided image reads back exactly when all its blocks are short. -/
theorem readsBack_iff_of_written
    {image : H5Image} {pieces : List Bytes}
    (written : Written libs .DZ_ALG_ZSTD image pieces)
    (strided : Strided content pieces) (whole : pieces.flatten = content)
    (small : content.length < 2147483648) :
    ReadsBack libs image content ↔ AllShort libs content := by
  rcases written.header with ⟨text, _, datasets⟩
  have stored :
      ∀ number, number * H5_BUFSIZE < content.length →
        image.dataset (.block (number : Int)) =
          some (libs.zstd.compress (chunk content number)) := by
    intro number inside
    have found :=
      dataset_of_layout datasets written.distinct
        (strided.getElem? whole inside)
    rw [wrap32_number small inside, block_zstd (chunk_ne_nil inside)] at found
    exact found
  constructor
  · intro readsBack number inside
    rcases readsBack.accepted number _ (stored number inside) with
      ⟨_, _, accepted, _⟩
    exact (hdf5_readdata_eq_ok_iff (stored number inside)).mp accepted
  · intro allShort
    refine ⟨?_, ?_, ?_⟩
    · intro name data found
      rcases piece_of_dataset datasets found with
        ⟨number, piece, here, named, _⟩
      have inside : number * H5_BUFSIZE < content.length := by
        have nonempty :=
          (written.storable piece (List.mem_of_getElem? here)).nonempty
        rw [strided number piece here] at nonempty
        by_contra beyond
        have empty : (chunk content number).length = 0 := by
          rw [length_chunk]
          omega
        exact nonempty (List.length_eq_zero_iff.mp empty)
      rw [wrap32_number small inside] at named
      subst named
      rw [stored number inside] at found
      cases found
      exact
        ⟨number, rfl,
          (hdf5_readdata_eq_ok_iff (stored number inside)).mpr
            (allShort number inside),
          fun dst dstlen => decompress_data_zstd_compress libs dst dstlen _⟩
    · intro number inside
      rw [stored number inside]
      rfl
    · rw [decode_of_layout datasets written.storable, whole]

/-! ## Runs -/

/-- What holds along a run whose reads fill their buffers. -/
structure Faithful
    (platform : Platform) (content : Bytes) (target : Target) (method : Alg)
    (state : Sys × Convert) (src : Ino) (pieces : List Bytes) : Prop where
  undisturbed :
    Undisturbed platform content state.1 state.2 src pieces
  strided : Strided content pieces
  target : state.2.target = target
  method : state.2.method = method

/-- A full read reads the next chunk. -/
theorem strided_of_moves
    {sys sys' : Sys} {c c' : Convert} {src : Ino} {choice : Choice}
    {pieces read : List Bytes}
    (undisturbed : Undisturbed platform content sys c src pieces)
    (strided : Strided content pieces)
    (full : FullRead platform (sys, c) choice)
    (moves : Moves platform sys c choice read sys' c') :
    Strided content (pieces ++ read) := by
  cases moves with
  | reads buffer limit file place limited nonempty held data =>
      rcases undisturbed.node with ⟨now, node, untouched⟩
      have stage := undisturbed.stage
      simp only [Stage, place] at stage
      rcases stage with ⟨ino, image, building⟩
      rcases building.reading file held with ⟨here, offset⟩
      have bytes : (sys.fs.node file.ino).bytes platform = content := by
        rw [here, node, Node.bytes, untouched (by rw [place]; rfl)]
      have most := full place limit file limited held
      rw [bytes, offset] at data
      rw [bytes, offset] at most
      apply strided.read _ nonempty
      rw [data]
      exact slice_congr_count (by omega)
  | _ =>
      rw [List.append_nil]
      exact strided

theorem Faithful.step
    {target : Target} {method : Alg} {state next : Sys × Convert} {src : Ino}
    {pieces : List Bytes} {choice : Choice}
    (faithful : Faithful platform content target method state src pieces)
    (full : FullRead platform state choice)
    (stepped : soloStep platform state choice = some next) :
    ∃ read,
      Faithful platform content target method next src (pieces ++ read) := by
  rcases moves_of_step stepped with ⟨read, moves⟩
  rcases Moves.source moves with ⟨sameTarget, sameMethod, _⟩
  refine ⟨read, ?_⟩
  exact
    { undisturbed := faithful.undisturbed.step moves
      strided :=
        strided_of_moves faithful.undisturbed faithful.strided full moves
      target := sameTarget.trans faithful.target
      method := sameMethod.trans faithful.method }

/-- Full reads go on storing the chunks. -/
theorem faithful_of_fullRead
    {target : Target} {method : Alg} {src : Ino}
    (state : Sys × Convert) (choice : Choice) (next : Sys × Convert)
    (sound :
      ∃ pieces, Faithful platform content target method state src pieces)
    (full : FullRead platform state choice)
    (stepped : soloStep platform state choice = some next) :
    ∃ pieces, Faithful platform content target method next src pieces := by
  rcases sound with ⟨pieces, faithful⟩
  rcases faithful.step full stepped with ⟨read, later⟩
  exact ⟨pieces ++ read, later⟩

theorem faithful_initial
    {sys : Sys} {src : Ino} {target : Target}
    (unconverted : Unconverted sys.fs target src content)
    (method : Alg) (srcfd h5fd : Int) :
    Faithful platform content target method
      (sys, convert2h5 target method srcfd h5fd) src [] where
  undisturbed := undisturbed_initial unconverted method srcfd h5fd
  strided := strided_nil content
  target := rfl
  method := rfl

/-- A conversion that returned 0 has stored all it has read. -/
theorem image_of_succeeded
    {final : Sys × Convert} {src : Ino} {pieces : List Bytes}
    (undisturbed :
      Undisturbed platform content final.1 final.2 src pieces)
    (succeeded : Succeeded final.2) :
    ∃ image,
      final.1.fs.lookup final.2.target.h5name = some (.image image) ∧
        Written platform.libs final.2.method image pieces ∧
          pieces.flatten = content := by
  rcases succeeded with ⟨place, zero⟩
  have stage := undisturbed.stage
  simp only [Stage, place] at stage
  rcases stage zero with ⟨ino, image, named, node, _, written⟩
  refine ⟨image, ?_, written, ?_⟩
  · rw [FileSystem.lookup, named, Option.map_some, node]
  · exact undisturbed.copy.whole (by simp [complete, place, zero])

/-- With full reads it has stored the chunks of the content. -/
theorem chunks_of_succeeded
    {sys : Sys} {src : Ino} {target : Target} {method : Alg}
    {srcfd h5fd : Int}
    (unconverted : Unconverted sys.fs target src content)
    {choices : List Choice} {final : Sys × Convert}
    (full :
      Transition.Along (soloStep platform) (FullRead platform)
        (sys, convert2h5 target method srcfd h5fd) choices)
    (ran :
      Transition.run (soloStep platform)
          (sys, convert2h5 target method srcfd h5fd) choices =
        some final)
    (succeeded : Succeeded final.2) :
    ∃ image pieces,
      final.1.fs.lookup target.h5name = some (.image image) ∧
        Written platform.libs method image pieces ∧
          Strided content pieces ∧ pieces.flatten = content := by
  have reached :
      ∃ pieces, Faithful platform content target method final src pieces := by
    apply
      Transition.run_invariant_along
        (fun state =>
          ∃ pieces, Faithful platform content target method state src pieces)
        _ _ full ran
    · exact faithful_of_fullRead
    · exact ⟨[], faithful_initial unconverted method srcfd h5fd⟩
  rcases reached with ⟨pieces, faithful⟩
  rcases image_of_succeeded faithful.undisturbed succeeded with
    ⟨image, found, written, whole⟩
  rw [faithful.target] at found
  rw [faithful.method] at written
  exact ⟨image, pieces, found, written, faithful.strided, whole⟩

/-! ## Conversions of one and of two chunks -/

/-- A call that succeeds, with a number not in use and as many bytes as asked. -/
def granted : Choice :=
  .ok 4194304

theorem along_fillsBuffer
    (platform : Platform) (state : Sys × Convert) (steps : Nat) :
    Transition.Along (soloStep platform) FillsBuffer state
      (List.replicate steps granted) := by
  refine Transition.along_of_forall ?_
  intro state label member _ limit same
  rw [List.eq_of_mem_replicate member] at same
  cases same
  exact Nat.le_of_eq H5_BUFSIZE_eq

/-- A read that starts inside the file fills its buffer up to the end. -/
theorem soloStep_reads
    {sys : Sys} {c : Convert} (file : OpenFile) {byte : Byte} {rest : Bytes}
    (place : c.pc = .readBlock)
    (held : sys.proc.fds c.srcfd = some file)
    (readable : file.readable = true)
    (node : sys.fs.node file.ino = .file content)
    (next : slice content file.offset H5_BUFSIZE = byte :: rest) :
    soloStep platform (sys, c) granted =
      some
        ({ sys with
            proc :=
              sys.proc.setFd c.srcfd
                (some
                  { file with
                    offset := file.offset + (byte :: rest).length }) },
          { c with pc := .compressBlock (byte :: rest) }) := by
  have stride := H5_BUFSIZE_eq
  have transferred :
      Sys.transfer content file.offset H5_BUFSIZE 4194304 =
        some (byte :: rest) := by
    rw [Sys.transfer, if_neg (by omega), Nat.min_eq_right (by omega), next]
  simp only [soloStep, Convert.step, Interaction.advance, Convert.action,
    place, granted, kernel, Sys.read, held, readable, node, Node.bytes,
    transferred]
  rfl

/-- A read at the end of the file. -/
theorem soloStep_meetsEnd
    {sys : Sys} {c : Convert} {file : OpenFile}
    (place : c.pc = .readBlock)
    (held : sys.proc.fds c.srcfd = some file)
    (readable : file.readable = true)
    (node : sys.fs.node file.ino = .file content)
    (ended : content.length ≤ file.offset) :
    soloStep platform (sys, c) granted =
      some
        ({ sys with proc := sys.proc.setFd c.srcfd (some file) },
          { c with pc := .renameTemp }) := by
  have transferred :
      Sys.transfer content file.offset H5_BUFSIZE 4194304 = some [] := by
    simp [Sys.transfer, slice_of_length_le ended]
  simp only [soloStep, Convert.step, Interaction.advance, Convert.action,
    place, granted, kernel, Sys.read, held, readable, node, Node.bytes,
    transferred]
  rfl

/-- The blocks of an image that has no second one yet. -/
theorem no_second_block (text data : Bytes) :
    [(Dataset.algorithm, text), (.block (wrap32 (0 : Nat)), data)].lookup
        (.block (wrap32 (1 : Nat))) =
      none := by
  have later :
      (Dataset.block (wrap32 (1 : Nat)) == .block (wrap32 (0 : Nat))) =
        false := by
    decide
  rw [List.lookup_cons, List.lookup_cons, later]
  rfl

/-- A block that is stored under a name not in use. -/
theorem soloStep_stores
    {sys : Sys} {c : Convert} (ino : Ino) (image : H5Image)
    {buffer dstdata : Bytes}
    (place : c.pc = .writeBlock buffer dstdata)
    (held : sys.proc.handles c.h5fd = some ⟨ino, true⟩)
    (node : sys.fs.node ino = .image image)
    (absent : image.dataset (.block (wrap32 c.count)) = none) :
    soloStep platform (sys, c) granted =
      some
        ({ sys with
            fs :=
              sys.fs.put ino
                (.image
                  (image.addDataset (.block (wrap32 c.count)) dstdata)) },
          { c with count := c.count + 1, pc := .readBlock }) := by
  have present : sys.imageOf c.h5fd = some image := by
    rw [Sys.imageOf, held, Option.bind_some, node]
  simp [soloStep, Convert.step, Interaction.advance, Convert.action, place,
    granted, kernel, Sys.h5dwrite, held, present, absent]

/-- A file of one chunk is converted. -/
theorem converts_single_chunk
    {byte : Byte} {rest : Bytes} (fits : (byte :: rest).length ≤ H5_BUFSIZE) :
    ∃ final,
      Transition.run (soloStep storingPlatform)
          (storeF (byte :: rest), convert2h5 targetF .DZ_ALG_ZSTD 0 0)
          (List.replicate 15 granted) =
        some final ∧ Succeeded final.2 := by
  have whole : slice (byte :: rest) 0 H5_BUFSIZE = byte :: rest :=
    List.take_of_length_le fits
  refine
    ⟨_, Transition.run_append (List.replicate 5 granted) rfl
      (Transition.run_cons_eq_some.mpr
        ⟨_, soloStep_reads ⟨0, 0, 0⟩ rfl rfl rfl rfl whole,
          Transition.run_append (List.replicate 2 granted) rfl
            (Transition.run_cons_eq_some.mpr
              ⟨_, soloStep_meetsEnd rfl rfl rfl rfl
                  (Nat.le_of_eq (Nat.zero_add _).symm),
                rfl⟩)⟩), ?_⟩
  exact ⟨rfl, rfl⟩

/-- So is a file of two chunks. -/
theorem converts_two_chunks
    (platform : Platform) {first second : Bytes}
    (full : first.length = H5_BUFSIZE) (more : second ≠ [])
    (fits : second.length ≤ H5_BUFSIZE) :
    ∃ final,
      Transition.run (soloStep platform)
          (storeF (first ++ second), convert2h5 targetF .DZ_ALG_ZSTD 0 0)
          (List.replicate 18 granted) =
        some final ∧ Succeeded final.2 := by
  have positive := H5_BUFSIZE_pos
  have start : slice (first ++ second) 0 H5_BUFSIZE = first := by
    rw [slice, List.drop_zero, ← full, List.take_left]
  have next :
      slice (first ++ second) (0 + first.length) H5_BUFSIZE = second := by
    rw [slice, Nat.zero_add, List.drop_left, List.take_of_length_le fits]
  have ended :
      (first ++ second).length ≤ 0 + first.length + second.length := by
    rw [List.length_append]
    omega
  rcases List.exists_cons_of_length_pos (by omega : 0 < first.length) with
    ⟨byte, rest, rfl⟩
  rcases List.exists_cons_of_ne_nil more with ⟨byte', rest', rfl⟩
  generalize (byte :: rest) ++ (byte' :: rest') = content at start next ended
  refine
    ⟨_, Transition.run_append (List.replicate 5 granted) rfl
      (Transition.run_cons_eq_some.mpr
        ⟨_, soloStep_reads ⟨0, 0, 0⟩ rfl rfl rfl rfl start,
          Transition.run_append (List.replicate 2 granted) rfl
            (Transition.run_cons_eq_some.mpr
              ⟨_, soloStep_reads ⟨0, 0 + (byte :: rest).length, 0⟩
                  rfl rfl rfl rfl next,
                Transition.run_append [granted] rfl
                  (Transition.run_cons_eq_some.mpr
                    ⟨_, soloStep_stores _ _ rfl rfl rfl
                        (no_second_block _ _),
                      Transition.run_cons_eq_some.mpr
                        ⟨_, soloStep_meetsEnd rfl rfl rfl rfl ended,
                          rfl⟩⟩)⟩)⟩),
      ?_⟩
  exact ⟨rfl, rfl⟩

/-- A chunk of zeros and a short one. -/
theorem strided_twoChunks :
    Strided (zeroChunk ++ [7, 8, 9]) [zeroChunk, [7, 8, 9]] :=
  strided_cons length_zeroChunk
    (strided_single (by rw [H5_BUFSIZE_eq]; decide))

theorem allShort_twoChunks : AllShort packingLibs (zeroChunk ++ [7, 8, 9]) := by
  intro number inside
  have member :=
    List.mem_of_getElem? (strided_twoChunks.getElem? rfl inside)
  simp only [List.mem_cons, List.not_mem_nil, or_false] at member
  rcases member with first | second
  · rw [first]
    exact packs_zeroChunk.short
  · rw [second]
    exact (packs_of_short (by simp) (by rw [H5_BUFSIZE_eq]; decide)).short

/-! ## The condition -/

/--
After a conversion that returned 0 the hidden image reads back as the content
if and only if every chunk compresses to less than the reader's buffer.
-/
theorem readsBack_iff_allShort
    {sys : Sys} {src : Ino} {target : Target} {srcfd h5fd : Int}
    (unconverted : Unconverted sys.fs target src content)
    (small : content.length < 2147483648)
    {choices : List Choice} {final : Sys × Convert}
    (fills :
      Transition.Along (soloStep platform) FillsBuffer
        (sys, convert2h5 target .DZ_ALG_ZSTD srcfd h5fd) choices)
    (ran :
      Transition.run (soloStep platform)
          (sys, convert2h5 target .DZ_ALG_ZSTD srcfd h5fd) choices =
        some final)
    (succeeded : Succeeded final.2) :
    ∃ image,
      final.1.fs.lookup target.h5name = some (.image image) ∧
        (ReadsBack platform.libs image content ↔
          AllShort platform.libs content) := by
  rcases
    chunks_of_succeeded unconverted
      (fills.mono fun _ _ => FillsBuffer.fullRead) ran succeeded with
    ⟨image, pieces, found, written, strided, whole⟩
  exact
    ⟨image, found, readsBack_iff_of_written written strided whole small⟩

theorem readsBack_iff_allShort_twoChunks :
    ∃ final image,
      Transition.run (soloStep packingPlatform)
          (storeF (zeroChunk ++ [7, 8, 9]),
            convert2h5 targetF .DZ_ALG_ZSTD 0 0)
          (List.replicate 18 granted) =
        some final ∧
        final.1.fs.lookup targetF.h5name = some (.image image) ∧
          ReadsBack packingLibs image (zeroChunk ++ [7, 8, 9]) := by
  have small : (zeroChunk ++ [7, 8, 9]).length < 2147483648 := by
    rw [List.length_append, length_zeroChunk, H5_BUFSIZE_eq]
    decide
  rcases
    converts_two_chunks packingPlatform length_zeroChunk
      (by simp : ([7, 8, 9] : Bytes) ≠ [])
      (by rw [H5_BUFSIZE_eq]; decide) with
    ⟨final, ran, succeeded⟩
  rcases
    readsBack_iff_allShort (unconverted_storeF _) small
      (along_fillsBuffer _ _ _) ran succeeded with
    ⟨image, found, agree⟩
  exact ⟨final, image, ran, found, agree.mpr allShort_twoChunks⟩

/-- A full chunk that does not compress is converted and cannot be read. -/
theorem full_chunk_not_read_back :
    ¬ ∀ (platform : Platform) (target : Target) (srcfd h5fd : Int) (sys : Sys)
        (src : Ino) (content : Bytes) (choices : List Choice)
        (final : Sys × Convert),
        Unconverted sys.fs target src content →
          content.length < 2147483648 →
            Transition.Along (soloStep platform) FillsBuffer
                (sys, convert2h5 target .DZ_ALG_ZSTD srcfd h5fd) choices →
              Transition.run (soloStep platform)
                  (sys, convert2h5 target .DZ_ALG_ZSTD srcfd h5fd) choices =
                some final →
                Succeeded final.2 →
                  ∃ image,
                    final.1.fs.lookup target.h5name = some (.image image) ∧
                      ReadsBack platform.libs image content := by
  intro claimed
  have stride := H5_BUFSIZE_eq
  have full :
      (7 :: List.replicate (H5_BUFSIZE - 1) (7 : Byte)).length =
        H5_BUFSIZE := by
    rw [List.length_cons, List.length_replicate]
    omega
  generalize List.replicate (H5_BUFSIZE - 1) (7 : Byte) = rest at full
  have unconverted := unconverted_storeF (7 :: rest)
  have fills :=
    along_fillsBuffer storingPlatform
      (storeF (7 :: rest), convert2h5 targetF .DZ_ALG_ZSTD 0 0) 15
  rcases converts_single_chunk (Nat.le_of_eq full) with ⟨final, ran, succeeded⟩
  rcases
    chunks_of_succeeded unconverted
      (fills.mono fun _ _ => FillsBuffer.fullRead) ran succeeded with
    ⟨image, pieces, found, written, strided, whole⟩
  rcases
    claimed _ _ _ _ _ _ _ _ _ unconverted (by omega) fills ran succeeded with
    ⟨other, found', readsBack⟩
  rw [found] at found'
  cases found'
  have short :=
    (readsBack_iff_of_written written strided whole (by omega)).mp readsBack 0
      (by omega)
  have first : chunk (7 :: rest) 0 = 7 :: rest := by
    rw [chunk, Nat.zero_mul, ← full, slice_full]
  rw [first] at short
  change (40 :: 7 :: rest).length < H5_BUFSIZE at short
  rw [List.length_cons] at short
  omega

end DZFile.ReadBack
