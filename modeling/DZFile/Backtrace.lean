import DZFile.Names
import DZFile.Library.ByteSeq
import DZFile.Library.CBuffer
import DZFile.Library.Contracts

/-!
# Formatting a backtrace

In its trace mode `_dz_msg` lets `_dz_msg_backtrace` print the names of the
calling functions into a buffer of its stack, one `snprintf` behind the other.
The room that is left is kept in `strsize`; the next position is computed from
it and from `savstrsize`, an `int` that holds the size of the buffer.

`PRINT_SIZE_CHECK` is to stop the printing when the buffer is full.  It
compares the room with what `snprintf` would have printed by an unsigned
subtraction, which is zero only when the two are equal.  A name that is cut
makes the room wrap around, and the next name is printed behind the buffer.
-/

namespace DZFile.Backtrace

open DZFile.Interaction
open DZFile.Contracts
open DZFile.ByteSeq
open DZFile.CBuffer
open DZFile.Names

/-! ## The calls of `snprintf` -/

/-- The greatest `int`. -/
def INT_MAX : Nat := 2147483647

/--
A call of `snprintf`: its position as an offset from the start of the buffer,
its limit, and the output that the format makes of its arguments.
-/
structure Snprintf where
  start : Int
  limit : Nat
  output : CString

/--
The length of the whole output, however much of it the limit leaves.  An
output whose length is no `int` is reported as a failure.
-/
def Snprintf.ret (call : Snprintf) : Int :=
  if call.output.length ≤ INT_MAX then call.output.length else -1

/-- The call on the buffer; a position in front of it is undefined. -/
def kernel : Kernel Snprintf (fun _ => Int) (List Char) Unit :=
  fun callstr _ call =>
    if 0 ≤ call.start then
      (snprintf callstr call.start.toNat call.limit call.output).map
        fun later => (call.ret, later)
    else none

/-- A program that prints into the buffer. -/
abbrev Printing : Type :=
  Prog Snprintf (fun _ => Int) Int

/-! ## The formatter -/

/-- `strsize - ret`, which converts both to `size_t`. -/
def sizeLeft (strsize : Nat) (ret : Int) : Nat :=
  ((strsize - ret) % 2 ^ 64).toNat

/--
`PRINT_SIZE_CHECK(ret, out, strsize)` in front of the rest of the function,
which gets the new `strsize`.  All that is left to do at `out` is to return
`ret`.
-/
def PRINT_SIZE_CHECK
    (ret : Int) (strsize : Nat) (rest : Nat → Printing) : Printing :=
  if ret < 0 then return ret
  else if 0 < sizeLeft strsize ret then rest (sizeLeft strsize ret)
  else return 0

/-- The output of `"-->%s "`. -/
def frame (symbol : CString) : CString :=
  ['-', '-', '>'] ++ symbol ++ [' ']

/-- The loop from the index below `count` down to 0, and what follows it. -/
def printFrames (callingfn : List CString) (savstrsize : Int) :
    Nat → Nat → Printing
  | 0, strsize => do
      let ret ← .perform ⟨savstrsize - strsize, strsize, [')']⟩
      PRINT_SIZE_CHECK ret strsize fun _ => return ret
  | i + 1, strsize =>
      match callingfn[i]? with
      | none => .fault
      | some symbol => do
          let ret ← .perform ⟨savstrsize - strsize, strsize, frame symbol⟩
          PRINT_SIZE_CHECK ret strsize fun strsize =>
            printFrames callingfn savstrsize i strsize

/--
The functions of `execinfo.h`.  An address is given by the string that
describes it.
-/
structure Execinfo where
  /-- The addresses that `backtrace` stores under a limit. -/
  backtrace : Int → List CString
  /-- Whether `backtrace_symbols` gets the memory for its result. -/
  allocates : Bool

/-- One string for each address, or `NULL`. -/
def Execinfo.backtrace_symbols
    (execinfo : Execinfo) (buffer : List CString) : Option (List CString) :=
  if execinfo.allocates then some buffer else none

/--
`callingfn` behind its tests; nothing where `_dz_msg_backtrace` has gone to
`out`.
-/
def Execinfo.callingfn (execinfo : Execinfo) (stacksize : Int) :
    Option (List CString) :=
  if stacksize < 3 then none
  else
    let array :=
      execinfo.backtrace (if stacksize ≤ 200 then stacksize else 200)
    let size : Int := array.length
    if size - 3 < 0 then none
    else if size ≠ 0 then execinfo.backtrace_symbols (array.drop 2)
    else none

/-- `_dz_msg_backtrace(stacksize, callstr, strsize)`. -/
def dz_msg_backtrace
    (execinfo : Execinfo) (stacksize : Int) (strsize : Nat) : Printing :=
  let savstrsize := wrap32 strsize
  match execinfo.callingfn stacksize with
  | none => return -1
  | some callingfn => do
      let ret ← .perform ⟨0, strsize, ['(']⟩
      PRINT_SIZE_CHECK ret strsize fun strsize =>
        printFrames callingfn savstrsize callingfn.length strsize

/-! ## The contract -/

/-- The call starts inside the buffer and is limited to the rest of it. -/
def Inside (strsize : Nat) (_ : List Char) (_ : Unit) (call : Snprintf) :
    Prop :=
  0 ≤ call.start ∧ call.start < strsize ∧ call.start + call.limit ≤ strsize

/--
Every call is inside the buffer, which keeps its size, and is terminated if it
was.
-/
def NeverOverruns
    (program : Printing) (strsize : Nat) (callstr : List Char) : Prop :=
  Completes kernel (Inside strsize)
    (fun _ later => later.length = strsize ∧ (nul ∈ callstr → nul ∈ later))
    program callstr

/-- What is printed, one output behind the other. -/
def pieces (callingfn : List CString) : List CString :=
  ['('] :: (callingfn.reverse.map frame ++ [[')']])

/--
No output that starts in the room goes beyond it, those apart whose length is
no `int`.
-/
def NoneCut (room : Nat) (outputs : List CString) : Prop :=
  ∀ before output after,
    outputs = before ++ output :: after →
      before.flatten.length < room →
        (before ++ [output]).flatten.length ≤ room ∨
          INT_MAX < output.length

/-- The buffer holds of a text what fits into it. -/
def Holds (strsize : Nat) (text buffer : List Char) : Prop :=
  buffer.length = strsize ∧
    ∃ rest, buffer = text.take (strsize - 1) ++ nul :: rest

theorem length_frame (symbol : CString) :
    (frame symbol).length = symbol.length + 4 := by
  simp only [frame, List.length_append, List.length_cons, List.length_nil]
  omega

/-! ### Outputs that are cut -/

theorem noneCut_zero (outputs : List CString) : NoneCut 0 outputs :=
  fun _ _ _ _ starts => absurd starts (Nat.not_lt_zero _)

theorem noneCut_nil (room : Nat) : NoneCut room [] := by
  intro before output after parts
  simp at parts

/-- The first output, and the others in what it leaves. -/
theorem noneCut_cons_iff
    {room : Nat} (positive : 0 < room)
    (output : CString) (outputs : List CString) :
    NoneCut room (output :: outputs) ↔
      (output.length ≤ room ∨ INT_MAX < output.length) ∧
        NoneCut (room - output.length) outputs := by
  constructor
  · intro none
    refine ⟨by simpa using none [] output outputs rfl positive, ?_⟩
    rintro before cut after rfl starts
    have whole := none (output :: before) cut after rfl
    simp only [List.cons_append, List.flatten_cons, List.length_append]
      at whole
    rcases whole (by omega) with fits | long
    · exact Or.inl (by omega)
    · exact Or.inr long
  · rintro ⟨first, others⟩ before cut after parts starts
    cases before with
    | nil =>
        cases parts
        simpa using first
    | cons head before =>
        rw [List.cons_append, List.cons.injEq] at parts
        rcases parts with ⟨rfl, parts⟩
        simp only [List.flatten_cons, List.length_append] at starts
        rcases others before cut after parts (by omega) with fits | long
        · refine Or.inl ?_
          simp only [List.cons_append, List.flatten_cons,
            List.length_append]
          omega
        · exact Or.inr long

/-- Whether an output is cut can be tested. -/
instance decidableNoneCut :
    (room : Nat) → (outputs : List CString) → Decidable (NoneCut room outputs)
  | room, [] => isTrue (noneCut_nil room)
  | room, output :: outputs =>
      if full : room = 0 then
        isTrue (full ▸ noneCut_zero _)
      else
        have := decidableNoneCut (room - output.length) outputs
        decidable_of_iff _
          (noneCut_cons_iff (Nat.pos_of_ne_zero full) output outputs).symm

/-! ### The check -/

section Check

variable {strsize length : Nat} {rest : Nat → Printing}

/-- An `int` that is not negative is a `size_t`. -/
theorem isSize_of_isInt {value : Nat} (isInt : value ≤ INT_MAX) :
    value < 2 ^ 64 := by
  rw [INT_MAX] at isInt
  omega

/-- While there is room left the printing goes on. -/
theorem PRINT_SIZE_CHECK_of_lt
    (fits : length < strsize) (isSize : strsize < 2 ^ 64) :
    PRINT_SIZE_CHECK length strsize rest = rest (strsize - length) := by
  have left : sizeLeft strsize length = strsize - length := by
    rw [sizeLeft]
    omega
  rw [PRINT_SIZE_CHECK, left, if_neg (by omega), if_pos (by omega)]

/-- When it is used up exactly the printing stops. -/
theorem PRINT_SIZE_CHECK_self :
    PRINT_SIZE_CHECK length length rest = .ret 0 := by
  have left : sizeLeft length length = 0 := by
    simp [sizeLeft]
  rw [PRINT_SIZE_CHECK, left, if_neg (by omega), if_neg (Nat.lt_irrefl 0)]
  rfl

/-- A longer output makes the room wrap around. -/
theorem PRINT_SIZE_CHECK_of_gt
    (cut : strsize < length) (isInt : length ≤ INT_MAX) :
    PRINT_SIZE_CHECK length strsize rest =
      rest (strsize + 2 ^ 64 - length) := by
  have isSize := isSize_of_isInt isInt
  have left : sizeLeft strsize length = strsize + 2 ^ 64 - length := by
    rw [sizeLeft]
    omega
  rw [PRINT_SIZE_CHECK, left, if_neg (by omega), if_pos (by omega)]

/--
What is cut off an output is as far as the next one starts behind the buffer:
the machine adds addresses modulo `2 ^ 64`.
-/
theorem position_of_cut
    {size : Nat} (inside : strsize ≤ size) (isInt : size ≤ INT_MAX)
    (cut : strsize < length) (lengthIsInt : length ≤ INT_MAX) :
    ((size : Int) - sizeLeft strsize length) % 2 ^ 64 =
      size + (length - strsize : Nat) := by
  rw [INT_MAX] at isInt lengthIsInt
  rw [sizeLeft]
  omega

/-- A failure stops the printing. -/
theorem PRINT_SIZE_CHECK_failed :
    PRINT_SIZE_CHECK (-1) strsize rest = .ret (-1) := by
  rw [PRINT_SIZE_CHECK, if_pos (by omega)]
  rfl

end Check

/-! ### One output behind the others -/

section Output

variable
    {strsize : Nat} {printed left output text : List Char} {start : Int}
    {post : Int → List Char → Prop}

/-- A call that starts behind what is printed and is limited to the rest. -/
theorem kernel_eq
    (printed : List Char) (output : CString)
    (room : left ≠ []) (place : start = printed.length) :
    kernel (printed ++ left) () ⟨start, left.length, output⟩ =
      some
        (Snprintf.ret ⟨start, left.length, output⟩,
          printed ++ output.take (left.length - 1) ++
            nul :: left.drop
              ((output.take (left.length - 1)).length + 1)) := by
  subst place
  rw [kernel, if_pos (Int.natCast_nonneg _), Int.toNat_natCast,
    snprintf_eq printed room]
  rfl

/-- The buffer holds the text when the room is used up. -/
theorem holds_of_full
    (total : printed.length + left.length = strsize) (room : left ≠ [])
    (full : left.length ≤ output.length) (more : List Char) :
    Holds strsize (printed ++ (output ++ more))
      (printed ++ output.take (left.length - 1) ++
        nul :: left.drop ((output.take (left.length - 1)).length + 1)) := by
  have positive := List.length_pos_of_ne_nil room
  have cut : (output.take (left.length - 1)).length = left.length - 1 := by
    rw [List.length_take]
    omega
  have fits :
      (printed ++ (output ++ more)).take (strsize - 1) =
        printed ++ output.take (left.length - 1) := by
    have split : strsize - 1 = printed.length + (left.length - 1) := by
      omega
    rw [split, List.take_length_add_append, List.take_append_of_le_length]
    omega
  refine ⟨?_, _, by rw [fits]⟩
  simp only [List.length_append, List.length_cons, List.length_drop, cut]
  omega

/-- The buffer holds the text when it ends in the room. -/
theorem holds_of_end
    {behind : List Char}
    (total : text.length + (nul :: behind).length = strsize) :
    Holds strsize text (text ++ nul :: behind) := by
  rw [List.length_cons] at total
  refine ⟨?_, behind, ?_⟩
  · rw [List.length_append, List.length_cons]
    exact total
  · rw [List.take_of_length_le (by omega)]

/--
A call of `snprintf` and its check meet a contract exactly when the output is
not cut and, where there is room left, the rest of the function meets it.
-/
theorem completes_output_iff
    (rest : Int → Nat → Printing) {more : List CString}
    (small : strsize ≤ INT_MAX)
    (total : printed.length + left.length = strsize) (room : left ≠ [])
    (place : start = printed.length)
    (ends :
      ∀ ret buffer,
        Holds strsize (printed ++ (output ++ more.flatten)) buffer →
          post ret buffer)
    (beyond :
      left.length < output.length → ∀ ret size buffer, strsize < size →
        ¬ Completes kernel (Inside strsize) post (rest ret size) buffer)
    (goesOn :
      ∀ behind,
        (printed ++ output).length + (nul :: behind).length = strsize →
          (Completes kernel (Inside strsize) post
              (rest output.length (nul :: behind).length)
              (printed ++ output ++ nul :: behind) ↔
            NoneCut (nul :: behind).length more)) :
    Completes kernel (Inside strsize) post
        (.call ⟨start, left.length, output⟩ fun ret =>
          PRINT_SIZE_CHECK ret left.length (rest ret))
        (printed ++ left) ↔
      NoneCut left.length (output :: more) := by
  have positive := List.length_pos_of_ne_nil room
  have inside :
      Inside strsize (printed ++ left) () ⟨start, left.length, output⟩ := by
    simp only [Inside]
    omega
  rw [completes_call_of_answer (kernel_eq printed output room place) inside,
    noneCut_cons_iff positive, Snprintf.ret]
  by_cases isInt : output.length ≤ INT_MAX
  · rw [if_pos isInt]
    rcases Nat.lt_trichotomy output.length left.length with
      fits | same | cut
    · -- There is room left behind the output.
      have whole : output.take (left.length - 1) = output :=
        List.take_of_length_le (by omega)
      have isSize : left.length < 2 ^ 64 := isSize_of_isInt (by omega)
      have behind :
          left.length - output.length =
            (nul :: left.drop (output.length + 1)).length := by
        rw [List.length_cons, List.length_drop]
        omega
      rw [PRINT_SIZE_CHECK_of_lt fits isSize, whole, behind, goesOn]
      · exact (and_iff_right (Or.inl fits.le)).symm
      · rw [← behind, List.length_append]
        omega
    · -- The output fills the room.
      have ended :=
        ends 0 _ (holds_of_full total room same.ge more.flatten)
      rw [same, PRINT_SIZE_CHECK_self, completes_ret_iff, Nat.sub_self]
      exact
        iff_of_true ended ⟨Or.inl (Nat.le_refl _), noneCut_zero more⟩
    · -- The output is cut, and what comes next is outside.
      have wraps : strsize < left.length + 2 ^ 64 - output.length := by
        rw [INT_MAX] at isInt small
        omega
      rw [PRINT_SIZE_CHECK_of_gt cut isInt]
      refine iff_of_false (beyond cut _ _ _ wraps) ?_
      rintro ⟨fits | long, _⟩
      · omega
      · omega
  · -- The length is no `int`, and the call is the last one.
    have long : INT_MAX < output.length := by omega
    have full : left.length ≤ output.length := by omega
    have ended := ends (-1) _ (holds_of_full total room full more.flatten)
    have used : left.length - output.length = 0 := by omega
    rw [if_neg isInt, PRINT_SIZE_CHECK_failed, completes_ret_iff, used]
    exact iff_of_true ended ⟨Or.inr long, noneCut_zero more⟩

end Output

/-! ### The whole trace -/

section Trace

variable
    {callingfn : List CString} {strsize : Nat} {savstrsize : Int}
    {post : Int → List Char → Prop}

/-- With more room than the buffer has the next call starts in front of it. -/
theorem not_completes_printFrames
    {size : Nat} (past : savstrsize < size) (count : Nat)
    (buffer : List Char) :
    ¬ Completes kernel (Inside strsize) post
        (printFrames callingfn savstrsize count size) buffer := by
  have outside : ∀ output choice,
      ¬ Inside strsize buffer choice ⟨savstrsize - size, size, output⟩ := by
    rintro output choice ⟨starts, _⟩
    simp only at starts
    omega
  cases count with
  | zero => exact not_completes_of_not_pre (outside _)
  | succ i =>
      rw [printFrames]
      split
      · exact not_completes_fault
      · exact not_completes_of_not_pre (outside _)

/--
The loop and the closing parenthesis, behind what has been printed.  The
induction is on the frames that are left.
-/
theorem completes_printFrames_iff
    (small : strsize ≤ INT_MAX)
    {count : Nat} (within : count ≤ callingfn.length)
    {printed left : List Char}
    (total : printed.length + left.length = strsize) (room : left ≠ [])
    (ends :
      ∀ ret buffer,
        Holds strsize
            (printed ++
              ((callingfn.take count).reverse.map frame ++
                [[')']]).flatten)
            buffer →
          post ret buffer) :
    Completes kernel (Inside strsize) post
        (printFrames callingfn strsize count left.length)
        (printed ++ left) ↔
      NoneCut left.length
        ((callingfn.take count).reverse.map frame ++ [[')']]) := by
  have place : (strsize : Int) - left.length = printed.length := by
    omega
  have positive := List.length_pos_of_ne_nil room
  induction count generalizing printed left with
  | zero =>
      simp only [List.take_zero, List.reverse_nil, List.map_nil,
        List.nil_append] at ends ⊢
      refine
        completes_output_iff (fun ret _ => .ret ret) small total room place
          ends ?_ ?_
      · intro cut
        exact absurd cut (Nat.not_lt.mpr positive)
      · intro behind total'
        rw [completes_ret_iff]
        refine iff_of_true (ends _ _ ?_) (noneCut_nil _)
        simpa using holds_of_end total'
  | succ i induction =>
      have found : callingfn[i]? = some callingfn[i] :=
        List.getElem?_eq_getElem within
      have next :
          (callingfn.take (i + 1)).reverse.map frame ++ [[')']] =
            frame callingfn[i] ::
              ((callingfn.take i).reverse.map frame ++ [[')']]) := by
        rw [List.take_succ_eq_append_getElem within, List.reverse_append]
        rfl
      rw [printFrames, found, next]
      rw [next] at ends
      refine
        completes_output_iff
          (fun _ size => printFrames callingfn strsize i size)
          small total room place ends ?_ ?_
      · intro _ _ size buffer past
        exact not_completes_printFrames (by omega) i buffer
      · intro behind total'
        refine
          induction (Nat.le_of_succ_le within) total' (by simp) ?_ ?_
            (by simp)
        · simpa only [List.flatten_cons, List.append_assoc] using ends
        · rw [← total', Nat.cast_add, Int.add_sub_cancel]

/-- The trace of the symbols, in a buffer of any size and content. -/
theorem completes_trace_iff
    {execinfo : Execinfo} {stacksize : Int} {callstr : List Char}
    (found : execinfo.callingfn stacksize = some callingfn)
    (allocated : callstr.length = strsize) (positive : 1 ≤ strsize)
    (isSize : strsize < 2 ^ 64)
    (ends :
      ∀ ret buffer,
        Holds strsize (pieces callingfn).flatten buffer →
          post ret buffer) :
    Completes kernel (Inside strsize) post
        (dz_msg_backtrace execinfo stacksize strsize) callstr ↔
      strsize ≤ INT_MAX ∧ NoneCut strsize (pieces callingfn) := by
  have room : callstr ≠ [] := by
    rintro rfl
    rw [List.length_nil] at allocated
    omega
  subst allocated
  simp only [dz_msg_backtrace, found]
  by_cases small : callstr.length ≤ INT_MAX
  · have saved : wrap32 callstr.length = callstr.length := by
      rw [INT_MAX] at small
      exact wrap32_eq_self (by omega) (by omega)
    rw [and_iff_right small, saved]
    have total : ([] : List Char).length + callstr.length = callstr.length :=
      Nat.zero_add _
    refine
      completes_output_iff
        (fun _ size =>
          printFrames callingfn callstr.length callingfn.length size)
        small total room rfl ends ?_ ?_
    · intro _ _ size buffer past
      exact not_completes_printFrames (by omega) _ buffer
    · intro behind total'
      have whole : callingfn.take callingfn.length = callingfn :=
        List.take_length
      have loop :=
        completes_printFrames_iff small (Nat.le_refl _) total' (by simp)
          (by rw [whole]; exact ends)
      rw [whole] at loop
      exact loop
  · -- `savstrsize` has lost bits of the size.
    refine iff_of_false ?_ fun condition => small condition.1
    have inside :
        Inside callstr.length callstr () ⟨0, callstr.length, ['(']⟩ := by
      simp only [Inside]
      omega
    have ret : Snprintf.ret ⟨0, callstr.length, ['(']⟩ = (1 : Nat) :=
      rfl
    have more : 1 < callstr.length := by
      rw [INT_MAX] at small
      omega
    have past : wrap32 callstr.length < (callstr.length - 1 : Nat) := by
      rcases exists_wrap32_eq callstr.length with ⟨turns, wrapped⟩
      have bounds := wrap32_bounds callstr.length
      rw [INT_MAX] at small
      omega
    have answered := kernel_eq [] ['('] room (Eq.refl 0)
    rw [List.nil_append] at answered
    rw [Prog.perform_bind, completes_call_of_answer answered inside, ret,
      PRINT_SIZE_CHECK_of_lt more isSize]
    exact not_completes_printFrames past _ _

/-- Where there is nothing to print the buffer is left as it is. -/
theorem completes_nothing_iff
    {execinfo : Execinfo} {stacksize : Int} {callstr : List Char}
    (nothing : execinfo.callingfn stacksize = none) :
    Completes kernel (Inside strsize) post
        (dz_msg_backtrace execinfo stacksize strsize) callstr ↔
      post (-1) callstr := by
  rw [dz_msg_backtrace, nothing]
  exact completes_ret_iff

end Trace

/-- A buffer that holds a text is terminated. -/
theorem Holds.terminated
    {strsize : Nat} {text buffer : List Char}
    (holds : Holds strsize text buffer) :
    buffer.length = strsize ∧ nul ∈ buffer := by
  rcases holds with ⟨size, rest, rfl⟩
  exact ⟨size, by simp⟩

/-- What is left of a text without NUL is the string in the buffer. -/
theorem Holds.text_eq
    {strsize : Nat} {string buffer : List Char}
    (holds : Holds strsize string buffer) (terminated : nul ∉ string) :
    text buffer = some (string.take (strsize - 1)) := by
  rcases holds with ⟨_, rest, rfl⟩
  exact
    text_append (fun member => terminated (List.mem_of_mem_take member)) rest

/-- Nothing that is printed of strings contains a NUL. -/
theorem nul_not_mem_pieces
    {callingfn : List CString}
    (strings : ∀ symbol ∈ callingfn, nul ∉ symbol) :
    nul ∉ (pieces callingfn).flatten := by
  intro member
  rcases List.mem_flatten.mp member with ⟨output, printed, inside⟩
  simp only [pieces, List.mem_cons, List.mem_append, List.mem_map,
    List.mem_reverse, List.not_mem_nil, or_false] at printed
  rcases printed with rfl | ⟨symbol, called, rfl⟩ | rfl
  · exact absurd inside (by decide)
  · simp only [frame, List.mem_append] at inside
    rcases inside with (arrow | within) | blank
    · exact absurd arrow (by decide)
    · exact strings symbol called within
    · exact absurd blank (by decide)
  · exact absurd inside (by decide)

/-- Where no name is cut the buffer gets the trace as far as there is room. -/
theorem trace_text
    {execinfo : Execinfo} {stacksize : Int} {strsize : Nat}
    {callingfn : List CString} {callstr : List Char}
    (found : execinfo.callingfn stacksize = some callingfn)
    (strings : ∀ symbol ∈ callingfn, nul ∉ symbol)
    (allocated : callstr.length = strsize) (positive : 1 ≤ strsize)
    (isInt : strsize ≤ INT_MAX)
    (noneCut : NoneCut strsize (pieces callingfn)) :
    Completes kernel (Inside strsize)
      (fun _ later =>
        text later = some ((pieces callingfn).flatten.take (strsize - 1)))
      (dz_msg_backtrace execinfo stacksize strsize) callstr := by
  have isSize := isSize_of_isInt isInt
  apply (completes_trace_iff found allocated positive isSize ?_).mpr
  · exact ⟨isInt, noneCut⟩
  · intro ret buffer holds
    exact holds.text_eq (nul_not_mem_pieces strings)

/-- A buffer that the trace and its NUL fill. -/
example :
    (dz_msg_backtrace ⟨fun _ => [[], [], ['f']], true⟩ 5 8).run kernel
        (List.replicate 8 'x') [(), (), ()] =
      some (1, '(' :: frame ['f'] ++ [')', nul]) := by
  decide

/-- The condition on the symbols that are printed. -/
theorem neverOverruns_trace_iff
    {execinfo : Execinfo} {stacksize : Int} {strsize : Nat}
    {callingfn : List CString} {callstr : List Char}
    (found : execinfo.callingfn stacksize = some callingfn)
    (allocated : callstr.length = strsize) (positive : 1 ≤ strsize)
    (isSize : strsize < 2 ^ 64) :
    NeverOverruns (dz_msg_backtrace execinfo stacksize strsize) strsize
        callstr ↔
      strsize ≤ INT_MAX ∧ NoneCut strsize (pieces callingfn) := by
  apply completes_trace_iff found allocated positive isSize
  intro ret buffer holds
  exact ⟨holds.terminated.1, fun _ => holds.terminated.2⟩

/--
The formatter stays inside its buffer exactly if there is nothing to print, or
the size of the buffer is an `int` and no name is cut at its end.
-/
theorem neverOverruns_iff
    (execinfo : Execinfo) (stacksize : Int)
    {strsize : Nat} {callstr : List Char}
    (allocated : callstr.length = strsize) (positive : 1 ≤ strsize)
    (isSize : strsize < 2 ^ 64) :
    NeverOverruns (dz_msg_backtrace execinfo stacksize strsize) strsize
        callstr ↔
      ∀ callingfn, execinfo.callingfn stacksize = some callingfn →
        strsize ≤ INT_MAX ∧ NoneCut strsize (pieces callingfn) := by
  cases found : execinfo.callingfn stacksize with
  | none =>
      rw [NeverOverruns, completes_nothing_iff found]
      refine iff_of_true ⟨allocated, id⟩ ?_
      intro callingfn impossible
      cases impossible
  | some callingfn =>
      rw [neverOverruns_trace_iff found allocated positive isSize]
      constructor
      · intro condition other same
        cases same
        exact condition
      · intro condition
        exact condition callingfn rfl

/-- The trace of three functions, in a buffer with and without room for it. -/
theorem neverOverruns_threeFrames :
    NeverOverruns
        (dz_msg_backtrace
          ⟨fun _ => [[], [], ['f'], ['g', 'h'], ['m', 'a', 'i', 'n']], true⟩
          5 32)
        32 (List.replicate 32 nul) ∧
      ¬ NeverOverruns
          (dz_msg_backtrace
            ⟨fun _ => [[], [], ['f'], ['g', 'h'], ['m', 'a', 'i', 'n']], true⟩
            5 16)
          16 (List.replicate 16 nul) := by
  rw [neverOverruns_iff _ _ List.length_replicate (by decide) (by decide),
    neverOverruns_iff _ _ List.length_replicate (by decide) (by decide)]
  constructor
  · intro callingfn found
    cases found
    decide
  · intro fits
    exact absurd (fits _ rfl) (by decide)

/-- `DZ_LOG_BACKTRACE_DEPTH`. -/
def DZ_LOG_BACKTRACE_DEPTH : Int := 5

/-- `DZ_LOG_BACKTRACE_SIZE`. -/
def DZ_LOG_BACKTRACE_SIZE : Nat := 4096

/-- Five frames, of which the outermost has a name of 4092 characters. -/
def longName : Execinfo :=
  ⟨fun _ => [['f'], ['f'], ['f'], ['f'], List.replicate 4092 'f'], true⟩

/-- With the sizes that `_dz_msg` passes, that name is cut. -/
theorem longName_overruns :
    ¬ ∀ (execinfo : Execinfo) (stacksize : Int) (strsize : Nat)
        (callstr : List Char),
      callstr.length = strsize → 1 ≤ strsize → strsize < 2 ^ 64 →
        NeverOverruns (dz_msg_backtrace execinfo stacksize strsize) strsize
          callstr := by
  intro always
  have found :
      longName.callingfn DZ_LOG_BACKTRACE_DEPTH =
        some [['f'], ['f'], List.replicate 4092 'f'] :=
    rfl
  have allocated :
      (List.replicate DZ_LOG_BACKTRACE_SIZE nul).length =
        DZ_LOG_BACKTRACE_SIZE :=
    List.length_replicate
  have contained :=
    always longName DZ_LOG_BACKTRACE_DEPTH DZ_LOG_BACKTRACE_SIZE _ allocated
      (by decide) (by decide)
  rcases
    (neverOverruns_trace_iff found allocated (by decide) (by decide)).mp
      contained with
    ⟨_, noneCut⟩
  have length : (frame (List.replicate 4092 'f')).length = 4096 := by
    rw [length_frame, List.length_replicate]
  rcases noneCut [['(']] _ _ rfl (by decide) with fits | long
  · rw [List.singleton_append, List.flatten_cons, List.length_append,
      List.flatten_singleton, length] at fits
    exact absurd fits (by decide)
  · rw [length] at long
    exact absurd long (by decide)

end DZFile.Backtrace
