import DZFile.Library.ByteSeq
import Mathlib.Data.List.Infix
import Mathlib.Data.List.TakeWhile

/-!
# Transfers in pieces

A range that is read into, or written from, several buffers one after the
other.  `parts` cuts a sequence into consecutive parts of given lengths.  A
loop that stops at the first transfer of nothing gets as far as `untilEmpty`:
it cannot tell the end of the sequence from a buffer without room.  It misses
nothing exactly if what there is to transfer fits into the buffers in front of
the first empty one.
-/

namespace DZFile.Scatter

open DZFile.ByteSeq

variable {α : Type}

/-- Consecutive parts of the given lengths; at the end they are short. -/
def parts : List Nat → List α → List (List α)
  | [], _ => []
  | length :: lengths, data =>
      data.take length :: parts lengths (data.drop length)

/-- The pieces in front of the first empty one. -/
def untilEmpty (pieces : List (List α)) : List (List α) :=
  pieces.takeWhile fun piece => !piece.isEmpty

/-- The room in front of the first buffer without any. -/
def asked (lengths : List Nat) : Nat :=
  (lengths.takeWhile fun length => length != 0).sum

@[simp]
theorem untilEmpty_nil : untilEmpty ([] : List (List α)) = [] :=
  rfl

@[simp]
theorem untilEmpty_nil_cons (pieces : List (List α)) :
    untilEmpty ([] :: pieces) = [] :=
  rfl

theorem untilEmpty_cons
    {piece : List α} (nonempty : piece ≠ []) (pieces : List (List α)) :
    untilEmpty (piece :: pieces) = piece :: untilEmpty pieces :=
  List.takeWhile_cons_of_pos (by simpa using nonempty)

@[simp]
theorem asked_nil : asked [] = 0 :=
  rfl

@[simp]
theorem asked_zero_cons (lengths : List Nat) : asked (0 :: lengths) = 0 :=
  rfl

theorem asked_cons
    {length : Nat} (positive : length ≠ 0) (lengths : List Nat) :
    asked (length :: lengths) = length + asked lengths := by
  rw [asked, List.takeWhile_cons_of_pos (by simpa using positive),
    List.sum_cons, asked]

/-- No more is asked for than there is room. -/
theorem asked_le_sum (lengths : List Nat) : asked lengths ≤ lengths.sum := by
  induction lengths with
  | nil => exact Nat.le_refl 0
  | cons length lengths induction =>
      by_cases zero : length = 0
      · subst zero
        exact Nat.zero_le _
      · rw [asked_cons zero, List.sum_cons]
        exact Nat.add_le_add_left induction length

/-! ## Reading -/

/-- Behind what was taken there is what was left. -/
theorem drop_length_take (data : List α) (length : Nat) :
    data.drop (data.take length).length = data.drop length := by
  rw [List.length_take]
  rcases Nat.le_total length data.length with within | beyond
  · rw [Nat.min_eq_left within]
  · rw [Nat.min_eq_right beyond, List.drop_length,
      List.drop_eq_nil_of_le beyond]

/-- The parts make up the start of the sequence. -/
theorem flatten_parts (lengths : List Nat) (data : List α) :
    (parts lengths data).flatten = data.take lengths.sum := by
  induction lengths generalizing data with
  | nil => rfl
  | cons length lengths induction =>
      rw [parts, List.flatten_cons, induction, List.sum_cons, List.take_add]

/-- What is behind their end makes no difference to the parts. -/
theorem parts_take_sum (lengths : List Nat) (data : List α) :
    parts lengths (data.take lengths.sum) = parts lengths data := by
  induction lengths generalizing data with
  | nil => rfl
  | cons length lengths induction =>
      have tail :
          (data.take (length + lengths.sum)).drop length =
            (data.drop length).take lengths.sum := by
        rw [List.drop_take, Nat.add_sub_cancel_left]
      rw [List.sum_cons, parts, parts, tail, induction, List.take_take,
        Nat.min_eq_left (Nat.le_add_right length lengths.sum)]

/-- A part without elements ends the transfer. -/
theorem untilEmpty_parts_stop
    {length : Nat} {lengths : List Nat} {data : List α}
    (empty : data.take length = []) :
    untilEmpty (parts (length :: lengths) data) = [] := by
  rw [parts, empty, untilEmpty_nil_cons]

/-- Behind any other part it goes on. -/
theorem untilEmpty_parts_cons
    {length : Nat} {lengths : List Nat} {data : List α}
    (nonempty : data.take length ≠ []) :
    untilEmpty (parts (length :: lengths) data) =
      data.take length :: untilEmpty (parts lengths (data.drop length)) := by
  rw [parts, untilEmpty_cons nonempty]

theorem ne_zero_of_take_ne_nil
    {length : Nat} {data : List α} (nonempty : data.take length ≠ []) :
    length ≠ 0 := by
  rintro rfl
  exact nonempty List.take_zero

/-- The loop transfers what the buffers in front of an empty one can hold. -/
theorem flatten_untilEmpty_parts (lengths : List Nat) (data : List α) :
    (untilEmpty (parts lengths data)).flatten = data.take (asked lengths) := by
  induction lengths generalizing data with
  | nil => rfl
  | cons length lengths induction =>
      by_cases empty : data.take length = []
      · rw [untilEmpty_parts_stop empty]
        rcases List.take_eq_nil_iff.mp empty with rfl | rfl
        · rfl
        · rw [List.take_nil, List.flatten_nil]
      · have positive := ne_zero_of_take_ne_nil empty
        rw [untilEmpty_parts_cons empty, asked_cons positive,
          List.flatten_cons, induction, List.take_add]

/-- Each buffer gets its part if the empty ones come too late to matter. -/
theorem getElem?_untilEmpty_parts
    {lengths : List Nat} {data : List α}
    (enough : min lengths.sum data.length ≤ asked lengths) (index : Nat) :
    (untilEmpty (parts lengths data))[index]?.getD [] =
      (parts lengths data)[index]?.getD [] := by
  induction lengths generalizing data index with
  | nil => rfl
  | cons length lengths induction =>
      by_cases empty : data.take length = []
      · have nothing : min (length :: lengths).sum data.length = 0 := by
          rcases List.take_eq_nil_iff.mp empty with rfl | rfl
          · exact Nat.le_zero.mp enough
          · exact Nat.min_zero _
        have all : ∀ piece ∈ parts (length :: lengths) data, piece = [] := by
          apply List.flatten_eq_nil_iff.mp
          rw [flatten_parts, List.take_eq_nil_iff]
          rcases Nat.min_eq_zero_iff.mp nothing with zero | zero
          · exact Or.inl zero
          · exact Or.inr (List.length_eq_zero_iff.mp zero)
        rw [untilEmpty_parts_stop empty]
        cases found : (parts (length :: lengths) data)[index]? with
        | none => rfl
        | some piece =>
            exact (all piece (List.mem_of_getElem? found)).symm
      · have positive := ne_zero_of_take_ne_nil empty
        rw [untilEmpty_parts_cons empty, parts]
        cases index with
        | zero => rfl
        | succ index =>
            rw [List.getElem?_cons_succ, List.getElem?_cons_succ]
            apply induction
            rw [asked_cons positive, List.sum_cons] at enough
            rw [List.length_drop]
            omega

/-! ## Writing -/

/-- The buffers in front of an empty one hold what is asked of them. -/
theorem length_flatten_untilEmpty (pieces : List (List α)) :
    (untilEmpty pieces).flatten.length = asked (pieces.map List.length) := by
  induction pieces with
  | nil => rfl
  | cons piece pieces induction =>
      by_cases empty : piece = []
      · subst empty
        rfl
      · have positive : piece.length ≠ 0 := by
          simpa using empty
        rw [untilEmpty_cons empty, List.map_cons, asked_cons positive,
          List.flatten_cons, List.length_append, induction]

/-- If they hold as much as all of them, they hold the same. -/
theorem flatten_untilEmpty_eq
    {pieces : List (List α)}
    (all : (pieces.map List.length).sum ≤ asked (pieces.map List.length)) :
    (untilEmpty pieces).flatten = pieces.flatten := by
  have isPrefix : (untilEmpty pieces).flatten <+: pieces.flatten :=
    List.IsPrefix.flatten (List.takeWhile_prefix _)
  apply isPrefix.eq_of_length
  rw [length_flatten_untilEmpty, List.length_flatten]
  exact Nat.le_antisymm (asked_le_sum _) all

/-- Two writes one behind the other are one. -/
theorem overwrite_append
    (fill : α) (data : List α) (offset : Nat) (first second : List α) :
    overwrite fill (overwrite fill data offset first)
        (offset + first.length) second =
      overwrite fill data offset (first ++ second) := by
  by_cases empty : first = []
  · subst empty
    rw [overwrite_nil, List.length_nil, Nat.add_zero, List.nil_append]
  · have written :
        overwrite fill data offset first =
          (data.take offset ++
              List.replicate (offset - data.length) fill ++ first) ++
            data.drop (offset + first.length) := by
      rw [overwrite, if_neg empty]
    have end_ :
        (data.take offset ++
            List.replicate (offset - data.length) fill ++ first).length =
          offset + first.length := by
      simp only [List.length_append, List.length_take,
        List.length_replicate]
      omega
    have both : first ++ second ≠ [] := by
      simp [empty]
    have behind :
        ((data.take offset ++
            List.replicate (offset - data.length) fill ++ first) ++
          second).length = offset + (first ++ second).length := by
      rw [List.length_append, end_, List.length_append, Nat.add_assoc]
    rw [written, ← end_, overwrite_continue, behind, overwrite, if_neg both,
      List.append_assoc _ first second]

end DZFile.Scatter
