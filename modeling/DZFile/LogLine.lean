import DZFile.Api
import DZFile.Statements
import DZFile.Library.CBuffer

/-!
# Lines of the log

`_dz_msg` of `dz-common.c`.  A message above the level of the log is dropped.
Any other is formed in `prtbuf` on the stack by two calls: `snprintf` makes
the header, and `vsnprintf` the message, at the end of what the header has
become and with the room that is left.  One `write` hands the string to the
log.

Whatever the lengths of the header and of the message, and whatever the stack
held before, the two calls stay inside the buffer, and the line is what fits
of both texts.
-/

namespace DZFile.LogLine

open DZFile.Interaction
open DZFile.CBuffer
open DZFile.Names
open DZFile.Codec
open DZFile.Kernel
open DZFile.Api
open DZFile.Statements

/-! ## Levels -/

/-- `dz_loglevel_t`. -/
inductive LogLevel where
  | DZ_LOG_NONE | DZ_LOG_EMERG | DZ_LOG_ALERT | DZ_LOG_CRITICAL
  | DZ_LOG_ERROR | DZ_LOG_WARNING | DZ_LOG_NOTICE | DZ_LOG_INFO
  | DZ_LOG_DEBUG | DZ_LOG_TRACE
deriving DecidableEq

/-- The number of the enumerator. -/
def LogLevel.toNat : LogLevel → Nat
  | .DZ_LOG_NONE => 0
  | .DZ_LOG_EMERG => 1
  | .DZ_LOG_ALERT => 2
  | .DZ_LOG_CRITICAL => 3
  | .DZ_LOG_ERROR => 4
  | .DZ_LOG_WARNING => 5
  | .DZ_LOG_NOTICE => 6
  | .DZ_LOG_INFO => 7
  | .DZ_LOG_DEBUG => 8
  | .DZ_LOG_TRACE => 9

/-- `_dz_log_char`. -/
def dz_log_char : LogLevel → Char
  | .DZ_LOG_NONE => 'N'
  | .DZ_LOG_EMERG => 'E'
  | .DZ_LOG_ALERT => 'A'
  | .DZ_LOG_CRITICAL => 'C'
  | .DZ_LOG_ERROR => 'E'
  | .DZ_LOG_WARNING => 'W'
  | .DZ_LOG_NOTICE => 'T'
  | .DZ_LOG_INFO => 'I'
  | .DZ_LOG_DEBUG => 'D'
  | .DZ_LOG_TRACE => 'R'

/-- The fields of `struct dzfile_priv` that logging reads. -/
structure Priv where
  loglevel : LogLevel
  logfd : Int

/-- `skip_logging`; without `priv` nothing is skipped. -/
def skip_logging (priv : Option Priv) (level : LogLevel) : Bool :=
  match priv with
  | none => false
  | some priv =>
      level = .DZ_LOG_NONE || decide (priv.loglevel.toNat < level.toNat)

/-! ## Texts -/

/-- The output of `%<width>d`. -/
def printSpaced (width : Nat) (num : Int) : CString :=
  List.replicate (width - (printSigned num).length) ' ' ++ printSigned num

/-- The output of `%0<width>d`: the zeros stand behind the sign. -/
def printZeroed (width : Nat) (num : Int) : CString :=
  if num < 0 then
    '-' :: (List.replicate (width - (printSigned num).length) '0' ++
      Nat.toDigits 10 num.natAbs)
  else
    List.replicate (width - (printSigned num).length) '0' ++ printSigned num

/-- The broken-down time of `localtime`. -/
structure Tm where
  tm_year : Int
  tm_mon : Int
  tm_mday : Int
  tm_hour : Int
  tm_min : Int
  tm_sec : Int

/-- `gettimeofday` and `localtime`. -/
structure Clock where
  tv_usec : Int
  tm : Tm

/-- The arguments of `_dz_msg`, the variable ones as the text they make. -/
structure Message where
  file : CString
  function : CString
  line : Int
  level : LogLevel
  errnum : Int
  output : CString
  file_terminated : nul ∉ file
  function_terminated : nul ∉ function
  output_terminated : nul ∉ output

/--
The parts of the output of
`"[%4d-%02d-%02d %02d:%02d:%02d.%06d] %c [%s:%d:%s] %d-"`.
-/
def Message.parts (message : Message) (clock : Clock) : List CString :=
  [['['], printSpaced 4 (clock.tm.tm_year + 1900), ['-'],
    printZeroed 2 (clock.tm.tm_mon + 1), ['-'],
    printZeroed 2 clock.tm.tm_mday, [' '],
    printZeroed 2 clock.tm.tm_hour, [':'],
    printZeroed 2 clock.tm.tm_min, [':'],
    printZeroed 2 clock.tm.tm_sec, ['.'],
    printZeroed 6 clock.tv_usec, [']', ' '],
    [dz_log_char message.level], [' ', '['], message.file, [':'],
    printSigned message.line, [':'], message.function, [']', ' '],
    printSigned message.errnum, ['-']]

/-- What the first call prints. -/
def Message.header (message : Message) (clock : Clock) : CString :=
  (message.parts clock).flatten

/-! ## The function -/

/-- `DZ_LOGBUFSZ`. -/
def DZ_LOGBUFSZ : Nat := 2048

/-- The buffer on the stack, which nothing has initialised. -/
structure PrtBuf where
  chars : List Char
  length_chars : chars.length = DZ_LOGBUFSZ

/-- The two calls that form the message, and the string they leave. -/
def form (prtbuf : PrtBuf) (header output : CString) : Option CString := do
  let begun ← snprintf prtbuf.chars 0 DZ_LOGBUFSZ header
  let used ← strlen begun 0
  let formed ← snprintf begun used (DZ_LOGBUFSZ - used) output
  text formed

/-- A string as the bytes of its characters. -/
def bytesOf (string : CString) : Bytes :=
  string.map fun char => UInt8.ofNat char.toNat

/--
`_dz_msg` without its trace mode.  There is no clock where `gettimeofday`
fails.
-/
def dz_msg
    (priv : Option Priv) (message : Message) (clock : Option Clock)
    (prtbuf : PrtBuf) : Call Int :=
  match priv with
  | none => return -1
  | some priv =>
      if skip_logging (some priv) message.level then return 0
      else
        match clock with
        | none => return -1
        | some clock =>
            match form prtbuf (message.header clock) message.output with
            | none => .fault
            | some line => do
                let written ← perform (.write priv.logfd (bytesOf line))
                return returnCount written

/-! ## What is written -/

/-- The digits of a number are no terminators. -/
theorem nul_not_mem_toDigits (num : Nat) : nul ∉ Nat.toDigits 10 num := by
  intro member
  exact
    absurd (Nat.isDigit_of_mem_toDigits (by omega) (by omega) member)
      (by decide)

theorem nul_not_mem_printSigned (num : Int) : nul ∉ printSigned num := by
  intro member
  rw [printSigned] at member
  split_ifs at member
  · rcases List.mem_cons.mp member with same | later
    · exact absurd same (by decide)
    · exact nul_not_mem_toDigits _ later
  · exact nul_not_mem_toDigits _ member

theorem nul_not_mem_replicate
    (count : Nat) {char : Char} (other : nul ≠ char) :
    nul ∉ List.replicate count char :=
  fun member => other (List.eq_of_mem_replicate member)

theorem nul_not_mem_printSpaced (width : Nat) (num : Int) :
    nul ∉ printSpaced width num := by
  intro member
  rcases List.mem_append.mp member with fill | digits
  · exact nul_not_mem_replicate _ (by decide) fill
  · exact nul_not_mem_printSigned _ digits

theorem nul_not_mem_printZeroed (width : Nat) (num : Int) :
    nul ∉ printZeroed width num := by
  have fills :
      ∀ count : Nat, nul ∉ List.replicate count '0' :=
    fun count => nul_not_mem_replicate count (by decide)
  intro member
  rw [printZeroed] at member
  split_ifs at member
  · rcases List.mem_cons.mp member with same | later
    · exact absurd same (by decide)
    · rcases List.mem_append.mp later with fill | digits
      · exact fills _ fill
      · exact nul_not_mem_toDigits _ digits
  · rcases List.mem_append.mp member with fill | digits
    · exact fills _ fill
    · exact nul_not_mem_printSigned _ digits

theorem Message.header_terminated (message : Message) (clock : Clock) :
    nul ∉ message.header clock := by
  have level : nul ∉ [dz_log_char message.level] := by
    cases message.level <;> decide
  have free : ∀ part ∈ message.parts clock, nul ∉ part := by
    simp only [parts, List.forall_mem_cons, nul_not_mem_printSpaced,
      nul_not_mem_printZeroed, nul_not_mem_printSigned,
      message.file_terminated, message.function_terminated, level,
      not_false_eq_true, true_and]
    decide
  intro member
  rcases List.mem_flatten.mp member with ⟨part, listed, inside⟩
  exact free part listed inside

/-- The line of a message: what the buffer takes of its header and its text. -/
def Message.text (message : Message) (clock : Clock) : CString :=
  (message.header clock ++ message.output).take (DZ_LOGBUFSZ - 1)

/-- The two calls stay inside the buffer and leave what fits of both texts. -/
theorem form_eq
    (prtbuf : PrtBuf) {header output : CString}
    (header_terminated : nul ∉ header) (output_terminated : nul ∉ output) :
    form prtbuf header output =
      some ((header ++ output).take (DZ_LOGBUFSZ - 1)) := by
  have positive : 0 < DZ_LOGBUFSZ := by decide
  rcases prtbuf with ⟨chars, size⟩
  have room : chars ≠ [] := by
    rintro rfl
    rw [List.length_nil] at size
    omega
  -- The header, cut to the buffer.
  have first := snprintf_eq [] room header
  rw [List.nil_append, List.length_nil, size, List.nil_append] at first
  have cut : nul ∉ header.take (DZ_LOGBUFSZ - 1) := fun member =>
    header_terminated (List.mem_of_mem_take member)
  generalize begun :
    chars.drop ((header.take (DZ_LOGBUFSZ - 1)).length + 1) = rest at first
  have used := strlen_append [] cut rest
  rw [List.nil_append, List.length_nil] at used
  -- The message, cut to the rest of it.
  have shorter : (header.take (DZ_LOGBUFSZ - 1)).length ≤ DZ_LOGBUFSZ - 1 := by
    rw [List.length_take]
    exact Nat.min_le_left _ _
  have left :
      (nul :: rest).length =
        DZ_LOGBUFSZ - (header.take (DZ_LOGBUFSZ - 1)).length := by
    rw [List.length_cons, ← begun, List.length_drop, size]
    omega
  have second :=
    snprintf_eq (header.take (DZ_LOGBUFSZ - 1))
      (List.cons_ne_nil nul rest) output
  rw [left] at second
  have whole :
      header.take (DZ_LOGBUFSZ - 1) ++
          output.take
            (DZ_LOGBUFSZ - (header.take (DZ_LOGBUFSZ - 1)).length - 1) =
        (header ++ output).take (DZ_LOGBUFSZ - 1) := by
    rw [List.take_append, List.length_take]
    congr 2
    omega
  rw [whole] at second
  have free : nul ∉ (header ++ output).take (DZ_LOGBUFSZ - 1) := by
    intro member
    rcases List.mem_append.mp (List.mem_of_mem_take member) with
      inHeader | inOutput
    · exact header_terminated inHeader
    · exact output_terminated inOutput
  simp only [form, first, used, second, Option.bind_eq_bind,
    Option.bind_some]
  exact text_append free _

/--
A message is dropped by its level alone; otherwise it is written in one piece
as what fits of its header and its text, and the buffer is never left.
-/
theorem dz_msg_writes_line
    (priv : Priv) (message : Message) (clock : Clock) (prtbuf : PrtBuf) :
    dz_msg (some priv) message (some clock) prtbuf =
      if message.level = .DZ_LOG_NONE ∨
          priv.loglevel.toNat < message.level.toNat then
        return 0
      else do
        let written ←
          perform (.write priv.logfd (bytesOf (message.text clock)))
        return returnCount written := by
  have formed :=
    form_eq prtbuf (message.header_terminated clock)
      message.output_terminated
  simp only [dz_msg, formed, skip_logging, Bool.or_eq_true,
    decide_eq_true_eq]
  rfl

end DZFile.LogLine
