import Mathlib.Data.List.Basic
import Mathlib.Tactic.Ring

/-!
# Positional access to finite sequences

The operations by which a file is read and written: `slice` reads a range,
`overwrite` writes one (a gap before it is filled), `resize` cuts or extends
to a length.  Their laws are given through lengths and through `getElem?`, so
that a claim about a file position reduces to a claim about list indices.

The last section fixes the conversion to a 32-bit signed integer.
-/

namespace DZFile.ByteSeq

variable {α : Type}

/-! ## Reading a range -/

/-- At most `count` elements from position `offset` on. -/
def slice (data : List α) (offset count : Nat) : List α :=
  (data.drop offset).take count

@[simp]
theorem length_slice (data : List α) (offset count : Nat) :
    (slice data offset count).length = min count (data.length - offset) := by
  simp [slice]

@[simp]
theorem slice_zero (data : List α) (offset : Nat) :
    slice data offset 0 = [] := by
  simp [slice]

theorem slice_of_length_le
    {data : List α} {offset : Nat} (beyond : data.length ≤ offset)
    (count : Nat) :
    slice data offset count = [] := by
  simp [slice, List.drop_eq_nil_of_le beyond]

theorem slice_full (data : List α) :
    slice data 0 data.length = data := by
  simp [slice]

theorem getElem?_slice
    (data : List α) (offset count index : Nat) :
    (slice data offset count)[index]? =
      if index < count then data[offset + index]? else none := by
  simp [slice, List.getElem?_take]

/-- Two consecutive ranges make one. -/
theorem slice_append_slice
    (data : List α) (offset first second : Nat) :
    slice data offset first ++ slice data (offset + first) second =
      slice data offset (first + second) := by
  simp [slice, List.take_add]

theorem take_append_slice
    (data : List α) (offset count : Nat) :
    data.take offset ++ slice data offset count =
      data.take (offset + count) := by
  simp [slice, List.take_add]

/-- A range depends only on what the sequence holds from its start on. -/
theorem slice_congr
    {left right : List α} {offset : Nat}
    (same : left.drop offset = right.drop offset) (count : Nat) :
    slice left offset count = slice right offset count := by
  rw [slice, slice, same]

/-- Reading fewer elements gives a prefix. -/
theorem take_slice_min
    (data : List α) (offset count fewer : Nat) :
    (slice data offset count).take fewer =
      slice data offset (min fewer count) := by
  rw [slice, slice, List.take_take]

/-- Behind the end of the sequence the count makes no difference. -/
theorem slice_congr_count
    {data : List α} {offset left right : Nat}
    (same : min left (data.length - offset) = min right (data.length - offset)) :
    slice data offset left = slice data offset right := by
  rw [slice, slice, List.take_eq_take_iff, List.length_drop]
  exact same

/-- A range is the range of its own length. -/
theorem slice_length_slice (data : List α) (offset count : Nat) :
    slice data offset (slice data offset count).length =
      slice data offset count := by
  apply slice_congr_count
  rw [length_slice]
  omega

/-! ## Writing a range -/

/--
Write `patch` at `offset`.  A gap between the end of the data and the offset
is filled; an empty patch writes nothing, wherever the offset lies.
-/
def overwrite
    (fill : α) (data : List α) (offset : Nat) (patch : List α) : List α :=
  if patch = [] then data
  else
    data.take offset ++ List.replicate (offset - data.length) fill ++
      patch ++ data.drop (offset + patch.length)

@[simp]
theorem overwrite_nil (fill : α) (data : List α) (offset : Nat) :
    overwrite fill data offset [] = data := by
  simp [overwrite]

/-- A written position holds the written element. -/
theorem getElem?_overwrite_inside
    (fill : α) (data : List α) (offset : Nat) (patch : List α)
    {position : Nat} (after : offset ≤ position)
    (before : position < offset + patch.length) :
    (overwrite fill data offset patch)[position]? =
      patch[position - offset]? := by
  have nonempty : patch ≠ [] := by
    rintro rfl
    simp at before
    omega
  have headLength :
      (data.take offset ++
        List.replicate (offset - data.length) fill).length = offset := by
    simp only [List.length_append, List.length_take, List.length_replicate]
    omega
  rw [overwrite, if_neg nonempty, List.append_assoc,
    List.getElem?_append_right (by omega), headLength,
    List.getElem?_append_left (by omega)]

/-- A position after the written range keeps its element. -/
theorem getElem?_overwrite_after
    (fill : α) (data : List α) (offset : Nat) (patch : List α)
    {position : Nat} (after : offset + patch.length ≤ position) :
    (overwrite fill data offset patch)[position]? = data[position]? := by
  by_cases empty : patch = []
  · simp [empty]
  · have headLength :
        (data.take offset ++
          List.replicate (offset - data.length) fill ++ patch).length =
            offset + patch.length := by
      simp only [List.length_append, List.length_take,
        List.length_replicate]
      omega
    rw [overwrite, if_neg empty,
      List.getElem?_append_right (by omega), headLength,
      List.getElem?_drop]
    congr 1
    omega

/-- A position before the written range that existed keeps its element. -/
theorem getElem?_overwrite_before
    (fill : α) (data : List α) (offset : Nat) (patch : List α)
    {position : Nat} (before : position < offset)
    (existed : position < data.length) :
    (overwrite fill data offset patch)[position]? = data[position]? := by
  by_cases empty : patch = []
  · simp [empty]
  · rw [overwrite, if_neg empty, List.append_assoc, List.append_assoc,
      List.getElem?_append_left (by simp; omega),
      List.getElem?_take_of_lt before]

/-- Continuing a write where the previous one ended. -/
theorem overwrite_continue
    (fill : α) (done old patch : List α) :
    overwrite fill (done ++ old.drop done.length) done.length patch =
      (done ++ patch) ++ old.drop (done ++ patch).length := by
  by_cases empty : patch = []
  · simp [empty]
  · have noGap :
        done.length - (done ++ old.drop done.length).length = 0 := by
      simp
    have tail :
        (done ++ old.drop done.length).drop
            (done.length + patch.length) =
          old.drop (done ++ patch).length := by
      rw [List.drop_append]
      simp [List.drop_drop]
    rw [overwrite, if_neg empty, noGap, tail]
    simp

/-- A write at the end appends. -/
theorem overwrite_atEnd (fill : α) (data patch : List α) :
    overwrite fill data data.length patch = data ++ patch := by
  simpa using overwrite_continue fill data [] patch

/-- A write appends exactly if it starts at the end. -/
theorem overwrite_eq_append_iff
    (fill : α) (data : List α) (offset : Nat) {patch : List α}
    (nonempty : patch ≠ []) :
    overwrite fill data offset patch = data ++ patch ↔
      offset = data.length := by
  constructor
  · intro same
    have lengths := congrArg List.length same
    have positive := List.length_pos_iff.mpr nonempty
    simp only [overwrite, if_neg nonempty, List.length_append,
      List.length_take, List.length_replicate, List.length_drop] at lengths
    omega
  · rintro rfl
    exact overwrite_atEnd fill data patch

/-- Writing the range behind a prefix gives a longer prefix. -/
theorem overwrite_take
    (fill : α) (data : List α) {offset : Nat} (within : offset ≤ data.length)
    (count : Nat) :
    overwrite fill (data.take offset) offset (slice data offset count) =
      data.take (offset + count) := by
  have appended :=
    overwrite_atEnd fill (data.take offset) (slice data offset count)
  rw [List.length_take, Nat.min_eq_left within] at appended
  rw [appended, take_append_slice]

/-! ## Changing the length -/

/-- Cut the sequence to `length`, or extend it to `length` with `fill`. -/
def resize (fill : α) (data : List α) (length : Nat) : List α :=
  data.take length ++ List.replicate (length - data.length) fill

@[simp]
theorem length_resize (fill : α) (data : List α) (length : Nat) :
    (resize fill data length).length = length := by
  simp only [resize, List.length_append, List.length_take,
    List.length_replicate]
  omega

@[simp]
theorem resize_zero (fill : α) (data : List α) :
    resize fill data 0 = [] := by
  simp [resize]

@[simp]
theorem resize_nil (fill : α) (length : Nat) :
    resize fill [] length = List.replicate length fill := by
  simp [resize]

theorem slice_replicate
    (fill : α) (length offset count : Nat) :
    slice (List.replicate length fill) offset count =
      List.replicate (min count (length - offset)) fill := by
  simp [slice]

/-! ## 32-bit signed arithmetic -/

/-- The value of an integer after conversion to a 32-bit signed type. -/
def wrap32 (value : Int) : Int :=
  (value + 2147483648) % 4294967296 - 2147483648

theorem wrap32_eq_self
    {value : Int} (low : -2147483648 ≤ value) (high : value < 2147483648) :
    wrap32 value = value := by
  unfold wrap32
  omega

theorem wrap32_bounds (value : Int) :
    -2147483648 ≤ wrap32 value ∧ wrap32 value < 2147483648 := by
  unfold wrap32
  omega

/-- Conversion changes a value by a multiple of `2 ^ 32`. -/
theorem exists_wrap32_eq (value : Int) :
    ∃ turns, wrap32 value = value - 4294967296 * turns :=
  ⟨(value + 2147483648) / 4294967296, by unfold wrap32; omega⟩

theorem wrap32_sub_turns (value turns : Int) :
    wrap32 (value - 4294967296 * turns) = wrap32 value := by
  unfold wrap32
  omega

end DZFile.ByteSeq
