import DZFile.Pread

/-!
# Reading damaged images

Any dataset of the image may be missing, and a block may decode to any length
up to the stride.  `h5fd_pread` keeps the number of valid bytes in an `int` and
compares it with an unsigned count: when the offset lies behind the end of the
block the number is negative, passes for a huge one, and the copy starts
outside the block.  A block that is shorter than the stride ends the loop
otherwise, and full blocks are safe up to 2 GiB.

So a read is safe exactly when all blocks it comes to are harmless, which only
depends on what fetching each of them gives.
-/

namespace DZFile.Damaged

open DZFile.ByteSeq
open DZFile.Codec
open DZFile.Image
open DZFile.Layout
open DZFile.Pread

/-! ## The blocks a read comes to -/

/--
A read of the bytes from `offset` to `stop` comes to the block: the block
starts before `stop`, and all blocks in front of it are full.
-/
structure Reached
    (libs : Libs) (image : H5Image) (dstlen : Int)
    (offset stop number : Nat) : Prop where
  nonempty : offset < stop
  first : offset / H5_BUFSIZE ≤ number
  before : number * H5_BUFSIZE < stop
  full :
    ∀ earlier, offset / H5_BUFSIZE ≤ earlier → earlier < number →
      ∃ data,
        fetch libs image dstlen (earlier : Nat) = .ok data ∧
          data.length = H5_BUFSIZE

/--
Fetching the block is defined; the block that holds the offset does not end
before it, and a block behind 2 GiB is empty.
-/
structure Harmless
    (libs : Libs) (image : H5Image) (dstlen : Int) (offset number : Nat) :
    Prop where
  fetched : fetch libs image dstlen (number : Nat) ≠ .fault
  first :
    ∀ data, fetch libs image dstlen (number : Nat) = .ok data →
      number = offset / H5_BUFSIZE → offset % H5_BUFSIZE ≤ data.length
  far :
    ∀ data, fetch libs image dstlen (number : Nat) = .ok data →
      512 ≤ number → data = []

/-- All blocks the read comes to are harmless. -/
def AllHarmless
    (libs : Libs) (image : H5Image) (dstlen : Int) (offset stop : Nat) :
    Prop :=
  ∀ number, Reached libs image dstlen offset stop number →
    Harmless libs image dstlen offset number

/-- No present block decodes to more than the stride. -/
def BlocksFit (libs : Libs) (image : H5Image) (dstlen : Int) : Prop :=
  ∀ (number : Nat) (data : Bytes),
    fetch libs image dstlen number = .ok data → data.length ≤ H5_BUFSIZE

section Blocks

variable
    {libs : Libs} {image : H5Image} {dstlen : Int} {offset stop : Nat}

/-- The read comes to the block that holds its offset. -/
theorem reached_first (nonempty : offset < stop) :
    Reached libs image dstlen offset stop (offset / H5_BUFSIZE) where
  nonempty := nonempty
  first := Nat.le_refl _
  before := Nat.lt_of_le_of_lt (Nat.div_mul_le_self _ _) nonempty
  full := by
    intro earlier after before
    omega

/-- Behind a block that is not full, or that holds the end, it comes to none. -/
theorem allHarmless_of_last
    (harmless : Harmless libs image dstlen offset (offset / H5_BUFSIZE))
    (last :
      (∀ data, fetch libs image dstlen (offset / H5_BUFSIZE : Nat) = .ok data →
          data.length ≠ H5_BUFSIZE) ∨
        stop ≤ (offset / H5_BUFSIZE + 1) * H5_BUFSIZE) :
    AllHarmless libs image dstlen offset stop := by
  intro number reached
  by_cases same : number = offset / H5_BUFSIZE
  · rw [same]
    exact harmless
  · have later : offset / H5_BUFSIZE < number :=
      Nat.lt_of_le_of_ne reached.first (Ne.symm same)
    rcases last with short | ended
    · rcases reached.full _ (Nat.le_refl _) later with ⟨data, fetched, full⟩
      exact (short data fetched full).elim
    · have beyond :
          (offset / H5_BUFSIZE + 1) * H5_BUFSIZE ≤ number * H5_BUFSIZE :=
        Nat.mul_le_mul_right _ later
      have before := reached.before
      omega

/-- Behind a full block the read goes on at the start of the next. -/
theorem allHarmless_next
    {data : Bytes}
    (fetched :
      fetch libs image dstlen (offset / H5_BUFSIZE : Nat) = .ok data)
    (full : data.length = H5_BUFSIZE)
    (harmless : Harmless libs image dstlen offset (offset / H5_BUFSIZE))
    (nonempty : offset < stop) :
    AllHarmless libs image dstlen offset stop ↔
      AllHarmless libs image dstlen ((offset / H5_BUFSIZE + 1) * H5_BUFSIZE)
        stop := by
  have number_next :
      (offset / H5_BUFSIZE + 1) * H5_BUFSIZE / H5_BUFSIZE =
        offset / H5_BUFSIZE + 1 :=
    Nat.mul_div_cancel _ H5_BUFSIZE_pos
  have start_next :
      (offset / H5_BUFSIZE + 1) * H5_BUFSIZE % H5_BUFSIZE = 0 :=
    Nat.mul_mod_left _ _
  constructor
  · intro all number reached
    have after := reached.first
    rw [number_next] at after
    have here : Harmless libs image dstlen offset number := by
      apply all
      constructor
      · exact nonempty
      · omega
      · exact reached.before
      · intro earlier from_ before
        by_cases same : earlier = offset / H5_BUFSIZE
        · rw [same]
          exact ⟨data, fetched, full⟩
        · apply reached.full earlier _ before
          rw [number_next]
          omega
    constructor
    · exact here.fetched
    · intro other _ _
      rw [start_next]
      exact Nat.zero_le _
    · exact here.far
  · intro all number reached
    by_cases same : number = offset / H5_BUFSIZE
    · rw [same]
      exact harmless
    · have after := reached.first
      have product :
          (offset / H5_BUFSIZE + 1) * H5_BUFSIZE ≤ number * H5_BUFSIZE :=
        Nat.mul_le_mul_right _ (by omega)
      have before := reached.before
      have here :
          Harmless libs image dstlen
            ((offset / H5_BUFSIZE + 1) * H5_BUFSIZE) number := by
        apply all
        constructor
        · omega
        · rw [number_next]
          omega
        · exact before
        · intro earlier from_ ahead
          rw [number_next] at from_
          exact reached.full earlier (by omega) ahead
      constructor
      · exact here.fetched
      · intro other _ first
        exact (same first).elim
      · exact here.far

/-! ## The loop -/

/-- The result is a return. -/
def Returns (result : PreadResult) : Prop :=
  ∃ ret buf, result = .returned ret buf

theorem returns_returned (ret : Int) (buf : Bytes) :
    Returns (.returned ret buf) :=
  ⟨ret, buf, rfl⟩

theorem not_returns_fault : ¬ Returns .fault := by
  rintro ⟨ret, buf, same⟩
  cases same

theorem not_returns_diverges : ¬ Returns .diverges := by
  rintro ⟨ret, buf, same⟩
  cases same

variable {buf : Bytes} {count position : Nat}

/-- A pass over a block that ends before the position does not return. -/
theorem not_returns_behind
    {data : Bytes} (behind : data.length < position % H5_BUFSIZE) :
    ¬ Returns (afterFetch libs image count position buf (.ok data)) := by
  rcases
    (pass_behind behind :
      pass data position (count - buf.length) = .outside ∨ _) with
    outside | repeats
  · simp only [afterFetch, outside]
    exact not_returns_fault
  · simp only [afterFetch, repeats]
    exact not_returns_diverges

/-- A block that cannot be fetched is harmless. -/
theorem harmless_of_err
    {number : Nat} (fetched : fetch libs image dstlen number = .err) :
    Harmless libs image dstlen offset number := by
  constructor
  · rw [fetched]
    intro same
    cases same
  · intro data here
    rw [fetched] at here
    cases here
  · intro data here
    rw [fetched] at here
    cases here

/-- So is one that reaches the offset, if it lies below 2 GiB or is empty. -/
theorem harmless_of_ok
    {data : Bytes}
    (fetched : fetch libs image dstlen (offset / H5_BUFSIZE : Nat) = .ok data)
    (within : offset % H5_BUFSIZE ≤ data.length)
    (near : offset < 2147483648 ∨ data = []) :
    Harmless libs image dstlen offset (offset / H5_BUFSIZE) := by
  constructor
  · rw [fetched]
    intro same
    cases same
  · intro other here _
    rw [fetched] at here
    cases here
    exact within
  · intro other here far
    rw [fetched] at here
    cases here
    rcases near with small | empty
    · have close := (div_lt_512_iff offset).mpr small
      omega
    · exact empty

/-- A block that is not full and reaches the offset is the last. -/
theorem allHarmless_of_short
    {data : Bytes}
    (fetched : fetch libs image dstlen (offset / H5_BUFSIZE : Nat) = .ok data)
    (within : offset % H5_BUFSIZE ≤ data.length)
    (near : offset < 2147483648 ∨ data = [])
    (short : data.length ≠ H5_BUFSIZE) (stop : Nat) :
    AllHarmless libs image dstlen offset stop := by
  apply allHarmless_of_last (harmless_of_ok fetched within near)
  left
  intro other here
  rw [fetched] at here
  cases here
  exact short

/-- A pass that copies, given what the loop does from where it goes on. -/
theorem returns_iff_of_copies
    (blocksFit : BlocksFit libs image dstlen)
    {position : Nat} {buf data : Bytes} (more : buf.length < count)
    (fetched :
      fetch libs image dstlen (position / H5_BUFSIZE : Nat) = .ok data)
    (inside : position % H5_BUFSIZE < data.length)
    (small : position < 2147483648)
    (goesOn :
      ∀ (later : Nat) (filled : Bytes),
        later ≤ 2147483648 → buf.length < filled.length →
          (Returns
              (h5fd_preadLoop libs image (getAlgorithm image) count
                (some data.length) data.length later filled) ↔
            AllHarmless libs image dstlen later
              (later + (count - filled.length)))) :
    Returns (afterFetch libs image count position buf (.ok data)) ↔
      AllHarmless libs image dstlen position
        (position + (count - buf.length)) := by
  have rest := Nat.mod_lt position H5_BUFSIZE_pos
  have split := Nat.div_add_mod' position H5_BUFSIZE
  have next := Nat.add_one_mul (position / H5_BUFSIZE) H5_BUFSIZE
  have short := blocksFit _ data fetched
  have harmless := harmless_of_ok fetched (Nat.le_of_lt inside) (Or.inl small)
  have edge : (position / H5_BUFSIZE + 1) * H5_BUFSIZE ≤ 2147483648 := by
    have block := (div_lt_512_iff position).mpr small
    calc
      (position / H5_BUFSIZE + 1) * H5_BUFSIZE ≤ 512 * H5_BUFSIZE :=
        Nat.mul_le_mul_right _ block
      _ = 2147483648 := by rw [H5_BUFSIZE_eq]
  rcases
    pass_copies small short inside (by omega : 0 < count - buf.length) with
    ⟨nonempty, passes⟩
  have pieceLength :
      (slice data (position % H5_BUFSIZE)
        (min (count - buf.length)
          (data.length - position % H5_BUFSIZE))).length =
        min (count - buf.length)
          (data.length - position % H5_BUFSIZE) := by
    rw [length_slice]
    omega
  simp only [afterFetch, passes, pieceLength]
  have later :=
    goesOn
      (position +
        min (count - buf.length) (data.length - position % H5_BUFSIZE))
      (buf ++
        slice data (position % H5_BUFSIZE)
          (min (count - buf.length)
            (data.length - position % H5_BUFSIZE)))
      (by omega) (by rw [List.length_append]; omega)
  rw [List.length_append, pieceLength] at later
  rw [← Nat.cast_add, later]
  by_cases ends : count - buf.length ≤ data.length - position % H5_BUFSIZE
  · -- the request ends inside the block
    apply iff_of_true
    · intro number reached
      have more' := reached.nonempty
      omega
    · exact allHarmless_of_last harmless (Or.inr (by omega))
  · rw [Nat.min_eq_right (by omega)] at *
    have stop :
        position + (data.length - position % H5_BUFSIZE) +
            (count -
              (buf.length + (data.length - position % H5_BUFSIZE))) =
          position + (count - buf.length) := by
      omega
    rw [stop]
    by_cases full : data.length = H5_BUFSIZE
    · have start :
          position + (data.length - position % H5_BUFSIZE) =
            (position / H5_BUFSIZE + 1) * H5_BUFSIZE := by
        omega
      rw [start]
      exact (allHarmless_next fetched full harmless (by omega)).symm
    · -- the block ends in front of its edge, and with it the file
      have sameBlock :
          (position + (data.length - position % H5_BUFSIZE)) / H5_BUFSIZE =
            position / H5_BUFSIZE := by
        rw [Nat.div_eq_iff H5_BUFSIZE_pos]
        omega
      have atEnd :
          (position + (data.length - position % H5_BUFSIZE)) % H5_BUFSIZE =
            data.length := by
        have split' :=
          Nat.div_add_mod'
            (position + (data.length - position % H5_BUFSIZE)) H5_BUFSIZE
        rw [sameBlock] at split'
        omega
      apply iff_of_true
      · have again := fetched
        rw [← sameBlock] at again
        exact
          allHarmless_of_short again (Nat.le_of_eq atEnd) (Or.inl (by omega))
            full _
      · exact
          allHarmless_of_short fetched (Nat.le_of_lt inside) (Or.inl small)
            full _

/-- From a position up to 2 GiB the loop returns exactly on harmless blocks. -/
theorem preadLoop_returns_iff
    (blocksFit : BlocksFit libs image dstlen)
    {dst : Option Nat} {current : Int} {position : Nat} {buf : Bytes}
    (steady : Steady image dstlen dst current)
    (near : position ≤ 2147483648) :
    Returns
        (h5fd_preadLoop libs image (getAlgorithm image) count dst current
          position buf) ↔
      AllHarmless libs image dstlen position
        (position + (count - buf.length)) := by
  by_cases more : buf.length < count
  · have number : position / H5_BUFSIZE ≤ 512 := by
      have le := Nat.div_le_div_right (c := H5_BUFSIZE) near
      rw [H5_BUFSIZE_eq] at le ⊢
      omega
    have reached :
        Reached libs image dstlen position (position + (count - buf.length))
          (position / H5_BUFSIZE) :=
      reached_first (by omega)
    rw [h5fd_preadLoop_eq steady more, blocknum_eq (by omega)]
    cases fetched : fetch libs image dstlen (position / H5_BUFSIZE : Nat) with
    | fault =>
        apply iff_of_false not_returns_fault
        intro all
        exact (all _ reached).fetched fetched
    | err =>
        apply iff_of_true (returns_returned _ _)
        apply allHarmless_of_last (harmless_of_err fetched)
        left
        intro data here
        rw [fetched] at here
        cases here
    | ok data =>
        have rest := Nat.mod_lt position H5_BUFSIZE_pos
        have split := Nat.div_add_mod' position H5_BUFSIZE
        have next := Nat.add_one_mul (position / H5_BUFSIZE) H5_BUFSIZE
        have short := blocksFit _ data fetched
        rcases Nat.lt_trichotomy data.length (position % H5_BUFSIZE) with
          behind | ended | inside
        · apply iff_of_false (not_returns_behind behind)
          intro all
          have within := (all _ reached).first data fetched rfl
          omega
        · apply iff_of_true
          · simp only [afterFetch, pass_stops ended]
            exact returns_returned _ _
          · have small : position < 2147483648 ∨ data = [] := by
              by_cases small : position < 2147483648
              · exact Or.inl small
              · obtain rfl : position = 2147483648 := by omega
                right
                apply List.length_eq_zero_iff.mp
                rw [ended, H5_BUFSIZE_eq]
            exact
              allHarmless_of_short fetched (Nat.le_of_eq ended.symm) small
                (by omega) _
        · have zstd : getAlgorithm image = .DZ_ALG_ZSTD :=
            method_of_fetch fetched (List.ne_nil_of_length_pos (by omega))
          rcases Nat.lt_or_eq_of_le near with small | far
          · exact
              returns_iff_of_copies blocksFit more fetched inside small
                fun later filled close longer =>
                  preadLoop_returns_iff blocksFit (Or.inr zstd) close
          · apply iff_of_false
            · have leaves :=
                pass_leaves (Nat.le_of_eq far.symm) short inside
                  (by omega : 0 < count - buf.length)
              simp only [afterFetch, leaves]
              exact not_returns_fault
            · intro all
              have far512 : 512 ≤ position / H5_BUFSIZE := by
                rw [far, H5_BUFSIZE_eq]
              rw [(all _ reached).far data fetched far512] at inside
              exact Nat.not_lt_zero _ inside
  · apply iff_of_true
    · rw [h5fd_preadLoop, dif_neg more]
      exact returns_returned _ _
    · intro number reached
      have nonempty := reached.nonempty
      omega
termination_by count - buf.length

/-! ## Safe reads -/

/--
On a buffer of exactly the requested size every copy stays inside the decoded
block and inside the buffer, and the loop ends.
-/
def Safe
    (libs : Libs) (image : H5Image) (dstlen : Int) (count offset : Nat) :
    Prop :=
  ∀ buf : Bytes, buf.length = count →
    Returns (h5fd_preadIn libs image dstlen buf count offset)

/-- Filling a buffer keeps what the result is. -/
theorem returns_into_iff (buf : Bytes) (result : PreadResult) :
    Returns (into buf result) ↔ Returns result := by
  cases result with
  | returned ret copied =>
      exact iff_of_true (returns_returned _ _) (returns_returned _ _)
  | fault => exact Iff.rfl
  | diverges => exact Iff.rfl

theorem safe_iff_returns (count : Nat) :
    Safe libs image dstlen count offset ↔
      Returns (h5fd_pread libs image dstlen count offset) := by
  constructor
  · intro safe
    have here := safe (List.replicate count 0) List.length_replicate
    rw [h5fd_preadIn_eq libs image dstlen
      (Nat.le_of_eq List.length_replicate.symm)] at here
    exact (returns_into_iff _ _).mp here
  · intro returns buf length
    rw [h5fd_preadIn_eq libs image dstlen (Nat.le_of_eq length.symm)]
    exact (returns_into_iff _ _).mpr returns

/-! ### Images whose blocks fit -/

/-- The blocks of a well-formed image are no longer than the stride. -/
theorem blocksFit_of_wellFormed
    {content : Bytes} (wellFormed : WellFormed libs image dstlen content) :
    BlocksFit libs image dstlen := by
  intro number data fetched
  by_cases inside : number * H5_BUFSIZE < content.length
  · rw [wellFormed.fetched number inside] at fetched
    cases fetched
    exact length_chunk_le content number
  · rw [fetch_of_absent (wellFormed.ended number (by omega))] at fetched
    cases fetched

/-- Pieces no longer than the stride make blocks that are no longer either. -/
theorem blocksFit_packedImage
    (dstlen : Int) {pieces : List Bytes}
    (packs : ∀ piece ∈ pieces, Packs piece)
    (numbered : pieces.length ≤ 2147483648)
    (fit : ∀ piece ∈ pieces, piece.length ≤ H5_BUFSIZE) :
    BlocksFit packingLibs (packedImage pieces) dstlen := by
  intro number data fetched
  cases present : (packedImage pieces).dataset (.block (number : Int)) with
  | none =>
      rw [fetch_of_absent present] at fetched
      cases fetched
  | some stored =>
      rcases piece_of_dataset rfl present with ⟨other, piece, found, named, _⟩
      have bound := (List.getElem?_eq_some_iff.mp found).1
      rw [wrap32_eq_self (by omega) (by omega)] at named
      rw [named, fetch_packedImage dstlen packs numbered found] at fetched
      cases fetched
      exact fit _ (List.mem_of_getElem? found)

/-- Three blocks of which the middle one has been cut to a byte. -/
def cutBlocks : List Bytes :=
  [zeroChunk, [7], [8, 9]]

theorem packs_cutBlocks : ∀ piece ∈ cutBlocks, Packs piece := by
  intro piece member
  simp only [cutBlocks, List.mem_cons, List.not_mem_nil, or_false] at member
  rcases member with rfl | rfl | rfl
  · exact packs_zeroChunk
  · exact packs_of_short (by simp) (by rw [H5_BUFSIZE_eq]; decide)
  · exact packs_of_short (by simp) (by rw [H5_BUFSIZE_eq]; decide)

theorem blocksFit_cutBlocks :
    BlocksFit packingLibs (packedImage cutBlocks) 0 := by
  refine blocksFit_packedImage 0 packs_cutBlocks (by decide) ?_
  have stride := H5_BUFSIZE_eq
  intro piece member
  simp only [cutBlocks, List.mem_cons, List.not_mem_nil, or_false] at member
  rcases member with rfl | rfl | rfl
  · exact Nat.le_of_eq length_zeroChunk
  · rw [List.length_singleton]
    omega
  · rw [List.length_cons, List.length_singleton]
    omega

/-! ### The condition -/

/--
For every image, a read from an offset below 2 GiB is safe if and only if the
image names no method or all blocks the read comes to are harmless.
-/
theorem safe_iff_allHarmless
    (blocksFit : BlocksFit libs image dstlen) (small : offset < 2147483648) :
    Safe libs image dstlen count offset ↔
      getAlgorithm image = .DZ_ALG_UNKOWN ∨
        AllHarmless libs image dstlen offset (offset + count) := by
  rw [safe_iff_returns, h5fd_pread]
  by_cases unknown : getAlgorithm image = .DZ_ALG_UNKOWN
  · rw [if_pos unknown]
    exact iff_of_true (returns_returned _ _) (Or.inl unknown)
  · have start : Steady image dstlen none dstlen := Or.inl ⟨rfl, rfl⟩
    rw [if_neg unknown,
      preadLoop_returns_iff blocksFit start (Nat.le_of_lt small),
      List.length_nil, Nat.sub_zero]
    constructor
    · intro all
      exact Or.inr all
    · intro either
      exact either.resolve_left unknown

/-- A read into the cut block is safe, one that starts behind its end is not. -/
theorem safe_iff_allHarmless_cutBlocks :
    Safe packingLibs (packedImage cutBlocks) 0 10 (H5_BUFSIZE - 1) ∧
      ¬ Safe packingLibs (packedImage cutBlocks) 0 1 (H5_BUFSIZE + 5) := by
  have stride := H5_BUFSIZE_eq
  have first :
      fetch packingLibs (packedImage cutBlocks) 0 (0 : Nat) = .ok zeroChunk :=
    fetch_packedImage 0 packs_cutBlocks (by decide) rfl
  have second :
      fetch packingLibs (packedImage cutBlocks) 0 (1 : Nat) = .ok [7] :=
    fetch_packedImage 0 packs_cutBlocks (by decide) rfl
  constructor
  · apply (safe_iff_allHarmless blocksFit_cutBlocks (by omega)).mpr
    right
    have number : (H5_BUFSIZE - 1) / H5_BUFSIZE = 0 := by rw [stride]
    have next : (0 + 1) * H5_BUFSIZE / H5_BUFSIZE = 1 := by rw [stride]
    have start : (0 + 1) * H5_BUFSIZE % H5_BUFSIZE = 0 := by rw [stride]
    have rest : (H5_BUFSIZE - 1) % H5_BUFSIZE = H5_BUFSIZE - 1 := by
      rw [stride]
    have harmless :
        Harmless packingLibs (packedImage cutBlocks) 0 (H5_BUFSIZE - 1)
          ((H5_BUFSIZE - 1) / H5_BUFSIZE) := by
      apply harmless_of_ok
      · rw [number]
        exact first
      · rw [rest, length_zeroChunk]
        omega
      · left
        omega
    rw [allHarmless_next (by rw [number]; exact first) length_zeroChunk
      harmless (by omega), number]
    refine allHarmless_of_short (by rw [next]; exact second) ?_ ?_ ?_ _
    · rw [start]
      exact Nat.zero_le _
    · left
      omega
    · rw [List.length_singleton]
      omega
  · intro safe
    have number : (H5_BUFSIZE + 5) / H5_BUFSIZE = 1 := by rw [stride]
    have rest : (H5_BUFSIZE + 5) % H5_BUFSIZE = 5 := by rw [stride]
    rcases (safe_iff_allHarmless blocksFit_cutBlocks (by omega)).mp safe with
      unknown | harmless
    · cases unknown
    · have within :=
        (harmless _ (reached_first (by omega))).first [7]
          (by rw [number]; exact second) rfl
      rw [rest] at within
      exact absurd within (by decide)

/-- The block decodes to one byte, and the read starts at offset 5. -/
theorem read_behind_block_faults :
    ¬ ∀ (libs : Libs) (image : H5Image) (dstlen : Int) (count offset : Nat),
        BlocksFit libs image dstlen → offset < 2147483648 →
          Safe libs image dstlen count offset := by
  intro claimed
  have stride := H5_BUFSIZE_eq
  have packs : ∀ piece ∈ [[(7 : Byte)]], Packs piece := by
    intro piece member
    rw [List.mem_singleton.mp member]
    exact packs_of_short (by simp) (by rw [stride]; decide)
  have blocksFit :
      BlocksFit packingLibs (packedImage [[(7 : Byte)]]) 0 := by
    refine blocksFit_packedImage 0 packs (by decide) ?_
    intro piece member
    rw [List.mem_singleton.mp member, List.length_singleton]
    omega
  have safe :=
    claimed packingLibs (packedImage [[7]]) 0 1 5 blocksFit (by decide)
  have fetched :
      fetch packingLibs (packedImage [[7]]) 0 (5 / H5_BUFSIZE : Nat) =
        .ok [7] := by
    have number : 5 / H5_BUFSIZE = 0 := by rw [stride]
    rw [number]
    exact fetch_packedImage 0 packs (by decide) rfl
  have start : Steady (packedImage [[7]]) 0 none 0 := Or.inl ⟨rfl, rfl⟩
  have known : getAlgorithm (packedImage [[7]]) ≠ .DZ_ALG_UNKOWN := by
    intro unknown
    cases unknown
  rw [safe_iff_returns, h5fd_pread, if_neg known,
    h5fd_preadLoop_eq start (by decide),
    blocknum_eq (div_lt_of_small (by decide)), fetched] at safe
  exact not_returns_behind (by rw [H5_BUFSIZE_eq]; decide) safe

end Blocks

end DZFile.Damaged
