import Mathlib.Data.List.Basic

/-!
# Strings in allocated memory

An allocated object is the list of its characters, and its length is the size
that was asked for.  The functions of `string.h`, and `snprintf`, either
change such an object in place or leave it; leaving it is undefined behaviour,
which is `none`.

The rules say what each function does to an object that holds a string: the
text, its terminating NUL and whatever memory follows.
-/

namespace DZFile.CBuffer

/-- The terminating character. -/
def nul : Char := Char.ofNat 0

/-- The string that starts at the beginning of the object. -/
def text (buffer : List Char) : Option (List Char) :=
  if nul ∈ buffer then some (buffer.takeWhile (· ≠ nul)) else none

/-- Write characters from an offset on. -/
def store (buffer : List Char) (offset : Nat) (data : List Char) :
    Option (List Char) :=
  if offset + data.length ≤ buffer.length then
    some
      (buffer.take offset ++ data ++ buffer.drop (offset + data.length))
  else none

/-- `strcpy(buffer, source)`. -/
def strcpy (buffer source : List Char) : Option (List Char) :=
  store buffer 0 (source ++ [nul])

/-- `memcpy(buffer + offset, source, source length)`. -/
def memcpy (buffer : List Char) (offset : Nat) (source : List Char) :
    Option (List Char) :=
  store buffer offset source

/-- `memmove(buffer + target, buffer + origin, count)`. -/
def memmove (buffer : List Char) (target origin count : Nat) :
    Option (List Char) :=
  if origin + count ≤ buffer.length then
    store buffer target ((buffer.drop origin).take count)
  else none

/-- `strlen(buffer + offset)`. -/
def strlen (buffer : List Char) (offset : Nat) : Option Nat :=
  (text (buffer.drop offset)).map List.length

/-- `strcat(buffer, source)`. -/
def strcat (buffer source : List Char) : Option (List Char) := do
  let length ← strlen buffer 0
  store buffer length (source ++ [nul])

/--
`snprintf(buffer + offset, limit, ...)` of a format that makes this output:
what the limit leaves of it and a NUL, nothing for a limit of zero.
-/
def snprintf (buffer : List Char) (offset limit : Nat) (output : List Char) :
    Option (List Char) :=
  match limit with
  | 0 => some buffer
  | limit + 1 => store buffer offset (output.take limit ++ [nul])

/-! ## What they do to a string -/

/-- The text in front of the first NUL. -/
theorem text_append {string : List Char} (terminated : nul ∉ string)
    (rest : List Char) :
    text (string ++ nul :: rest) = some string := by
  have present : nul ∈ string ++ nul :: rest := by simp
  have whole : ∀ char ∈ string, decide (char ≠ nul) = true := by
    intro char member
    simpa using ne_of_mem_of_not_mem member terminated
  rw [text, if_pos present, List.takeWhile_append_of_pos whole,
    List.takeWhile_cons_of_neg (by simp), List.append_nil]

/-- A write that covers a known part of the object. -/
theorem store_append
    (before old rest data : List Char) (same : old.length = data.length) :
    store (before ++ old ++ rest) before.length data =
      some (before ++ data ++ rest) := by
  have room :
      before.length + data.length ≤ (before ++ old ++ rest).length := by
    simp only [List.length_append]
    omega
  have kept : (before ++ old ++ rest).take before.length = before := by
    rw [List.append_assoc, List.take_left']
    rfl
  have left :
      (before ++ old ++ rest).drop (before.length + data.length) = rest := by
    rw [← same, List.drop_left' (by simp)]
  rw [store, if_pos room, kept, left]

/-- Any object with room can be split where a write begins and ends. -/
theorem exists_split
    (buffer : List Char) (size : Nat) (room : size ≤ buffer.length) :
    ∃ old rest, buffer = old ++ rest ∧ old.length = size :=
  ⟨buffer.take size, buffer.drop size, (List.take_append_drop size buffer).symm,
    by simp [room]⟩

/-- A copied string starts the object and leaves the memory behind it. -/
theorem strcpy_eq
    (old rest source : List Char) (same : old.length = source.length + 1) :
    strcpy (old ++ rest) source = some (source ++ nul :: rest) := by
  have written :=
    store_append [] old rest (source ++ [nul]) (by simp [same])
  simpa [strcpy] using written

/-- The length of the end of a string. -/
theorem strlen_append
    (before : List Char) {string : List Char} (terminated : nul ∉ string)
    (rest : List Char) :
    strlen (before ++ string ++ nul :: rest) before.length =
      some string.length := by
  rw [strlen, List.append_assoc, List.drop_left' rfl,
    text_append terminated rest]
  rfl

/-- The end of a string, its NUL included, moves one place up. -/
theorem memmove_up
    (before string : List Char) (next : Char) (rest : List Char) :
    memmove (before ++ string ++ nul :: next :: rest) (before.length + 1)
        before.length (string.length + 1) =
      some
        (before ++ (string ++ nul :: next :: rest).take 1 ++ string ++
          nul :: rest) := by
  have inside :
      before.length + (string.length + 1) ≤
        (before ++ string ++ nul :: next :: rest).length := by
    simp only [List.length_append, List.length_cons]
    omega
  have moved :
      ((before ++ string ++ nul :: next :: rest).drop before.length).take
          (string.length + 1) =
        string ++ [nul] := by
    have whole :
        string ++ nul :: next :: rest =
          (string ++ [nul]) ++ next :: rest := by
      simp
    rw [List.append_assoc, List.drop_left' rfl, whole,
      List.take_left' (by simp)]
  rw [memmove, if_pos inside, moved]
  cases string with
  | nil =>
      have written :=
        store_append (before ++ [nul]) [next] rest [nul] rfl
      simpa using written
  | cons first later =>
      have written :=
        store_append (before ++ [first]) (later ++ [nul, next]) rest
          (first :: later ++ [nul]) (by simp)
      simpa using written

/-- Text appended to a string takes the place of the memory behind it. -/
theorem strcat_eq
    {string : List Char} (terminated : nul ∉ string)
    (old rest source : List Char) (same : old.length = source.length) :
    strcat (string ++ nul :: (old ++ rest)) source =
      some (string ++ source ++ nul :: rest) := by
  have measured := strlen_append [] terminated (old ++ rest)
  simp only [List.nil_append, List.length_nil] at measured
  have written :=
    store_append string (nul :: old) rest (source ++ [nul]) (by simp [same])
  rw [strcat, measured]
  simpa using written

/-- Output with a limit that reaches to the end of the object stays in it. -/
theorem snprintf_eq
    (before : List Char) {old : List Char} (room : old ≠ [])
    (output : List Char) :
    snprintf (before ++ old) before.length old.length output =
      some
        (before ++ output.take (old.length - 1) ++
          nul :: old.drop ((output.take (old.length - 1)).length + 1)) := by
  cases old with
  | nil => exact absurd rfl room
  | cons char later =>
      let cut := output.take later.length
      have fits : cut.length + 1 ≤ (char :: later).length := by
        simp only [cut, List.length_take, List.length_cons]
        omega
      have written :=
        store_append before ((char :: later).take (cut.length + 1))
          ((char :: later).drop (cut.length + 1)) (cut ++ [nul])
          (by rw [List.length_take, Nat.min_eq_left fits, List.length_append]
              rfl)
      rw [List.append_assoc, List.take_append_drop] at written
      rw [List.length_cons, Nat.add_sub_cancel, snprintf, written]
      simp [cut]

end DZFile.CBuffer
