import DZFile.ReadBack

/-!
# Block boundaries

`convert2h5` stores one block for each `read`, and the reader finds a byte by
dividing its offset by the fixed stride.  The two agree if every read returns
a whole chunk, or all that is left; the first read that is cut short shifts
all later blocks, and no later read can make up for it.

The number of a block is an `int`, so there is also a limit to the number of
blocks that have names.
-/

namespace DZFile.Boundaries

open DZFile.ByteSeq
open DZFile.Codec
open DZFile.Image
open DZFile.Layout
open DZFile.Kernel
open DZFile.Converter
open DZFile.Staging
open DZFile.ReadBack

/-! ## The layout -/

/--
The layout the positional reader addresses: block `number` is the compression
of the content from `number * H5_BUFSIZE` on, up to the next block or the end
of the content, and there are no other blocks.
-/
structure FixedBoundaries
    (libs : Libs) (method : Alg) (image : H5Image) (content : Bytes) :
    Prop where
  present :
    ∀ number : Nat, number * H5_BUFSIZE < content.length →
      ∃ stored,
        image.dataset (.block (number : Int)) = some stored ∧
          compress_data libs method (chunk content number) = some stored
  absent :
    ∀ number : Nat, content.length ≤ number * H5_BUFSIZE →
      image.dataset (.block (number : Int)) = none

variable {platform : Platform} {libs : Libs} {method : Alg} {content : Bytes}

/-- Pieces that are the chunks of the content have fixed boundaries. -/
theorem fixedBoundaries_of_strided
    {image : H5Image} {pieces : List Bytes}
    (written : Written libs method image pieces)
    (strided : Strided content pieces) (whole : pieces.flatten = content)
    (numbered : content.length ≤ 2147483648 * H5_BUFSIZE) :
    FixedBoundaries libs method image content := by
  rcases written.header with ⟨text, _, datasets⟩
  have nonempty : ∀ piece ∈ pieces, piece ≠ [] :=
    fun piece member => (written.storable piece member).nonempty
  constructor
  · intro number inside
    have small : number < 2147483648 :=
      Nat.lt_of_mul_lt_mul_right (a := H5_BUFSIZE) (by omega)
    have here := strided.getElem? whole inside
    have found := dataset_of_layout datasets written.distinct here
    rw [wrap32_eq_self (by omega) (by omega)] at found
    refine ⟨_, found, ?_⟩
    exact
      compress_data_eq_block
        (written.storable _ (List.mem_of_getElem? here))
  · intro number behind
    apply absent_of_layout datasets strided nonempty _ behind
    by_contra many
    have inside := strided.inside nonempty (Nat.lt_of_not_le many)
    omega

/-- Fixed boundaries tell what each piece is. -/
theorem strided_of_fixedBoundaries
    {image : H5Image} {pieces : List Bytes}
    (written : Written libs method image pieces)
    (whole : pieces.flatten = content)
    (fixed : FixedBoundaries libs method image content) :
    Strided content pieces ∧
      content.length ≤ 2147483648 * H5_BUFSIZE := by
  rcases written.header with ⟨text, _, datasets⟩
  have numbered : content.length ≤ 2147483648 * H5_BUFSIZE := by
    by_contra large
    rcases fixed.present 2147483648 (by omega) with ⟨stored, found, _⟩
    rcases piece_of_dataset datasets found with ⟨number, _, _, named, _⟩
    have bounds := wrap32_bounds (number : Int)
    omega
  refine ⟨?_, numbered⟩
  intro number
  induction number using Nat.strong_induction_on with
  | _ number earlier =>
      intro piece here
      have bound := (List.getElem?_eq_some_iff.mp here).1
      have storable := written.storable piece (List.mem_of_getElem? here)
      have before : Strided content (pieces.take number) := by
        intro other front found
        rw [List.getElem?_take] at found
        split at found
        · rename_i less
          exact earlier other less front found
        · cases found
      -- what is in front of the piece is not all of the content
      have inside : number * H5_BUFSIZE < content.length := by
        by_contra behind
        have front : (pieces.take number).flatten = content := by
          have shape := before.flatten
          rw [List.length_take, Nat.min_eq_left (Nat.le_of_lt bound)] at shape
          rw [shape]
          exact List.take_of_length_le (Nat.le_of_not_lt behind)
        have positive := List.length_pos_of_ne_nil storable.nonempty
        have rest : pieces.drop number = piece :: pieces.drop (number + 1) := by
          rw [List.drop_eq_getElem_cons bound]
          rw [List.getElem?_eq_getElem bound, Option.some.injEq] at here
          rw [here]
        have lengths := congrArg List.length whole
        rw [← List.take_append_drop number pieces, List.flatten_append, front,
          rest, List.flatten_cons, List.length_append,
          List.length_append] at lengths
        omega
      rcases fixed.present number inside with ⟨stored, found, compressed⟩
      have small : number < 2147483648 :=
        Nat.lt_of_mul_lt_mul_right (a := H5_BUFSIZE) (by omega)
      have other := dataset_of_layout datasets written.distinct here
      rw [wrap32_eq_self (by omega) (by omega), found] at other
      have same := compress_data_eq_block storable
      rw [← Option.some.inj other] at same
      exact compress_data_injective libs same compressed

/-! ## Runs -/

/-- A read that is not full makes a piece that is not the next chunk. -/
theorem not_strided_of_moves
    {sys sys' : Sys} {c c' : Convert} {src : Ino} {choice : Choice}
    {pieces read : List Bytes}
    (undisturbed : Undisturbed platform content sys c src pieces)
    (short : ¬ FullRead platform (sys, c) choice)
    (moves : Moves platform sys c choice read sys' c') :
    ¬ Strided content (pieces ++ read) ∨
      (c'.pc.exiting = true ∧ c'.ret = -1) := by
  simp only [FullRead, not_forall, Nat.not_le, exists_prop] at short
  rcases short with ⟨place, limit, file, limited, held, less⟩
  change c.pc = .readBlock at place
  change sys.proc.fds c.srcfd = some file at held
  have stage := undisturbed.stage
  simp only [Stage, place] at stage
  rcases stage with ⟨ino, image, building⟩
  rcases building.reading file held with ⟨here, offset⟩
  rcases undisturbed.node with ⟨now, node, untouched⟩
  have bytes : (sys.fs.node file.ino).bytes platform = content := by
    rw [here, node, Node.bytes, untouched (by rw [place]; rfl)]
  change limit < min H5_BUFSIZE
    (((sys.fs.node file.ino).bytes platform).length - file.offset) at less
  rw [bytes, offset] at less
  cases moves with
  | fails earlier inside target method =>
      apply Or.inr
      simp
  | reads buffer limit' file' place' limited' nonempty held' data =>
      apply Or.inl
      intro strided
      rcases strided.of_append with ⟨earlier, last⟩
      rw [held] at held'
      cases held'
      rw [limited] at limited'
      cases limited'
      have front := congrArg List.length earlier.flatten
      have taken := congrArg List.length data
      have chunked := congrArg List.length last
      rw [List.length_take] at front
      rw [bytes, offset, length_slice] at taken
      rw [length_chunk] at chunked
      omega
  | meetsEnd file' place' held' ended =>
      rw [held] at held'
      cases held'
      rw [bytes, offset] at ended
      omega
  | _ => simp_all

/-- A converter whose pieces are not chunks, or that returns -1. -/
def Shifted
    (platform : Platform) (content : Bytes) (target : Target) (method : Alg)
    (src : Ino) (state : Sys × Convert) : Prop :=
  (∃ pieces,
    Undisturbed platform content state.1 state.2 src pieces ∧
      ¬ Strided content pieces ∧
        state.2.target = target ∧ state.2.method = method) ∨
    (state.2.pc.exiting = true ∧ state.2.ret = -1)

/-- No later read makes up for a shift. -/
theorem Shifted.step
    {target : Target} {method : Alg} {src : Ino} {state next : Sys × Convert}
    {choice : Choice}
    (shifted : Shifted platform content target method src state)
    (stepped : soloStep platform state choice = some next) :
    Shifted platform content target method src next := by
  rcases moves_of_step stepped with ⟨read, moves⟩
  rcases shifted with
    ⟨pieces, undisturbed, notStrided, sameTarget, sameMethod⟩ |
      ⟨exiting, failed⟩
  · rcases Moves.source moves with ⟨target', method', _⟩
    apply Or.inl
    refine ⟨pieces ++ read, undisturbed.step moves, ?_,
      target'.trans sameTarget, method'.trans sameMethod⟩
    intro strided
    apply notStrided
    intro number piece found
    apply strided number piece
    rw [List.getElem?_append_left (List.getElem?_eq_some_iff.mp found).1]
    exact found
  · rcases leaving_of_moves moves exiting with ⟨exiting', same⟩
    exact Or.inr ⟨exiting', same.trans failed⟩

/-- The first read that is cut short shifts the blocks. -/
theorem shifted_of_shortRead
    {target : Target} {method : Alg} {src : Ino}
    (state : Sys × Convert) (choice : Choice) (next : Sys × Convert)
    (sound :
      ∃ pieces, Faithful platform content target method state src pieces)
    (short : ¬ FullRead platform state choice)
    (stepped : soloStep platform state choice = some next) :
    Shifted platform content target method src next := by
  rcases sound with ⟨pieces, faithful⟩
  rcases moves_of_step stepped with ⟨read, moves⟩
  rcases Moves.source moves with ⟨target', method', _⟩
  rcases not_strided_of_moves faithful.undisturbed short moves with
    shifted | failed
  · exact
      Or.inl
        ⟨pieces ++ read, faithful.undisturbed.step moves, shifted,
          target'.trans faithful.target, method'.trans faithful.method⟩
  · exact Or.inr failed

/--
The image that a successful conversion leaves has fixed boundaries if and only
if each of its reads returned a whole chunk, or all that was left, and the
number of the last block is an `int`.
-/
theorem fixed_iff_fullReads
    {sys : Sys} {src : Ino} {target : Target} {method : Alg}
    {srcfd h5fd : Int}
    (unconverted : Unconverted sys.fs target src content)
    {choices : List Choice} {final : Sys × Convert}
    (ran :
      Transition.run (soloStep platform)
          (sys, convert2h5 target method srcfd h5fd) choices =
        some final)
    (succeeded : Succeeded final.2) :
    ∃ image,
      final.1.fs.lookup target.h5name = some (.image image) ∧
        (FixedBoundaries platform.libs method image content ↔
          Transition.Along (soloStep platform) (FullRead platform)
              (sys, convert2h5 target method srcfd h5fd) choices ∧
            content.length ≤ 2147483648 * H5_BUFSIZE) := by
  have start :
      ∃ pieces,
        Faithful platform content target method
          (sys, convert2h5 target method srcfd h5fd) src pieces :=
    ⟨[], faithful_initial unconverted method srcfd h5fd⟩
  rcases
    Transition.run_exact faithful_of_fullRead shifted_of_shortRead
      (fun _ _ _ => Shifted.step) start ran with
    ⟨along, pieces, faithful⟩ | ⟨cut, broken⟩
  · rcases image_of_succeeded faithful.undisturbed succeeded with
      ⟨image, found, written, whole⟩
    rw [faithful.target] at found
    rw [faithful.method] at written
    refine ⟨image, found, ?_⟩
    constructor
    · intro fixed
      exact ⟨along, (strided_of_fixedBoundaries written whole fixed).2⟩
    · rintro ⟨_, numbered⟩
      exact
        fixedBoundaries_of_strided written faithful.strided whole numbered
  · rcases broken with
      ⟨pieces, undisturbed, notStrided, sameTarget, sameMethod⟩ |
        ⟨_, failed⟩
    · rcases image_of_succeeded undisturbed succeeded with
        ⟨image, found, written, whole⟩
      rw [sameTarget] at found
      rw [sameMethod] at written
      refine ⟨image, found, ?_⟩
      constructor
      · intro fixed
        exact
          absurd (strided_of_fixedBoundaries written whole fixed).1 notStrided
      · rintro ⟨along, _⟩
        exact absurd along cut
    · rw [succeeded.2] at failed
      cases failed

theorem fixed_iff_fullReads_twoChunks :
    ∃ final image,
      Transition.run (soloStep packingPlatform)
          (storeF (zeroChunk ++ [7, 8, 9]),
            convert2h5 targetF .DZ_ALG_ZSTD 0 0)
          (List.replicate 18 granted) =
        some final ∧
        final.1.fs.lookup targetF.h5name = some (.image image) ∧
          FixedBoundaries packingLibs .DZ_ALG_ZSTD image
            (zeroChunk ++ [7, 8, 9]) := by
  have stride := H5_BUFSIZE_eq
  have numbered :
      (zeroChunk ++ [7, 8, 9]).length ≤ 2147483648 * H5_BUFSIZE := by
    rw [List.length_append, length_zeroChunk, stride]
    decide
  rcases
    converts_two_chunks packingPlatform length_zeroChunk
      (by simp : ([7, 8, 9] : Bytes) ≠ []) (by rw [stride]; decide) with
    ⟨final, ran, succeeded⟩
  rcases fixed_iff_fullReads (unconverted_storeF _) ran succeeded with
    ⟨image, found, agree⟩
  refine ⟨final, image, ran, found, agree.mpr ⟨?_, numbered⟩⟩
  exact
    (along_fillsBuffer _ _ _).mono fun _ _ => FillsBuffer.fullRead

/-- Two blocks of one byte each. -/
def twoBlocks : H5Image where
  datasets :=
    [(.algorithm, [122, 115, 116, 100, 32, 49]), (.block 0, [40, 1]),
      (.block 1, [40, 2])]
  writer := false
  closed := true

/-- Two bytes read one at a time make two blocks. -/
theorem short_read_shifts_blocks :
    ¬ ∀ (platform : Platform) (target : Target) (method : Alg)
        (srcfd h5fd : Int) (sys : Sys) (src : Ino) (content : Bytes)
        (choices : List Choice) (final : Sys × Convert),
        Unconverted sys.fs target src content →
          Transition.run (soloStep platform)
              (sys, convert2h5 target method srcfd h5fd) choices =
            some final →
            Succeeded final.2 →
              ∃ image,
                final.1.fs.lookup target.h5name = some (.image image) ∧
                  FixedBoundaries platform.libs method image content := by
  intro claimed
  have facts :
      (Transition.run (soloStep storingPlatform)
          (storeF [1, 2], convert2h5 targetF .DZ_ALG_ZSTD 0 0)
          (List.replicate 18 (.ok 1))).map
        (fun final =>
          (final.2.pc, final.2.ret, final.1.fs.lookup targetF.h5name)) =
        some (.returned, 0, some (.image twoBlocks)) := by
    decide +kernel
  rcases Option.map_eq_some_iff.mp facts with ⟨final, ran, observed⟩
  simp only [Prod.mk.injEq] at observed
  rcases observed with ⟨place, zero, published⟩
  rcases claimed _ _ _ _ _ _ _ _ _ _ (unconverted_storeF [1, 2]) ran
      ⟨place, zero⟩ with ⟨image, found, fixed⟩
  rw [published] at found
  cases found
  rcases fixed.present 0 (by rw [Nat.zero_mul]; decide) with
    ⟨stored, first, compressed⟩
  have whole : chunk [1, 2] 0 = ([1, 2] : Bytes) := by
    rw [chunk, slice, Nat.zero_mul, List.drop_zero]
    apply List.take_of_length_le
    rw [H5_BUFSIZE_eq]
    decide
  rw [whole] at compressed
  cases first
  cases compressed

end DZFile.Boundaries
