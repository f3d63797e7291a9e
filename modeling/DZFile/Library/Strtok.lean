import DZFile.Library.CBuffer

/-!
# Tokens of a string in memory

`strtok` of `string.h`: it skips the delimiters its saved place points at,
overwrites the delimiter that ends the token with a NUL and saves the place
behind it.  A call depends on the memory alone, so what it returns is an
offset, and the token is the text that starts there.

`firstToken` is the same step on the text that is left.  The rules relate the
two: a call finds a token exactly when the text has one, and afterwards the
saved place starts the text behind it.
-/

namespace DZFile.Strtok

open DZFile.CBuffer

/-! ## The functions -/

/-- `strspn(buffer + offset, …)` for a set of characters. -/
def strspn (among : Char → Bool) (buffer : List Char) (offset : Nat) :
    Option Nat :=
  (text (buffer.drop offset)).map fun string =>
    (string.takeWhile among).length

/-- `strcspn(buffer + offset, …)`. -/
def strcspn (among : Char → Bool) (buffer : List Char) (offset : Nat) :
    Option Nat :=
  strspn (fun char => !among char) buffer offset

/-- The memory `strtok` works in and the place it has saved. -/
structure Scanner where
  buffer : List Char
  saved : Nat
deriving DecidableEq

/-- `strtok(NULL, …)`; the first call finds the start of the buffer saved. -/
def strtok (delim : Char → Bool) (scanner : Scanner) :
    Option (Option Nat × Scanner) := do
  let leading ← strspn delim scanner.buffer scanner.saved
  let start := scanner.saved + leading
  if scanner.buffer[start]? = some nul then
    return (none, ⟨scanner.buffer, start⟩)
  else do
    let length ← strcspn delim scanner.buffer start
    let stop := start + length
    if scanner.buffer[stop]? = some nul then
      return (some start, ⟨scanner.buffer, stop⟩)
    else do
      let cut ← store scanner.buffer stop [nul]
      return (some start, ⟨cut, stop + 1⟩)

/-- The first token of a text and what is left behind the one delimiter. -/
def firstToken (delim : Char → Bool) (string : List Char) :
    Option (List Char × List Char) :=
  let start := string.dropWhile delim
  if start = [] then none
  else
    some
      (start.takeWhile fun char => !delim char,
        (start.dropWhile fun char => !delim char).drop 1)

/-! ## The rules -/

section Rules

variable
    {delim : Char → Bool} {string : List Char}
    (before rest : List Char)

theorem strspn_eq (among : Char → Bool) (terminated : nul ∉ string) :
    strspn among (before ++ string ++ nul :: rest) before.length =
      some (string.takeWhile among).length := by
  rw [strspn, List.append_assoc, List.drop_left' rfl,
    text_append terminated rest]
  rfl

theorem strcspn_eq (among : Char → Bool) (terminated : nul ∉ string) :
    strcspn among (before ++ string ++ nul :: rest) before.length =
      some (string.takeWhile fun char => !among char).length :=
  strspn_eq before rest (fun char => !among char) terminated

/-- The character behind a text is its NUL. -/
theorem getElem?_end :
    (before ++ string ++ nul :: rest)[before.length + string.length]? =
      some nul := by
  rw [← List.length_append, List.getElem?_append_right (Nat.le_refl _)]
  simp

/-- A text of delimiters has no token, and the place saved is its end. -/
theorem strtok_none
    (terminated : nul ∉ string) (none_left : firstToken delim string = none) :
    strtok delim ⟨before ++ string ++ nul :: rest, before.length⟩ =
      some
        (none,
          ⟨before ++ string ++ nul :: rest,
            before.length + string.length⟩) := by
  have allDelimiters : string.dropWhile delim = [] := by
    by_contra left
    simp [firstToken, left] at none_left
  have whole : string.takeWhile delim = string := by
    have split := List.takeWhile_append_dropWhile (p := delim) (l := string)
    rwa [allDelimiters, List.append_nil] at split
  rw [strtok]
  simp only [strspn_eq before rest delim terminated, whole,
    Option.bind_eq_bind, Option.bind_some, getElem?_end before rest,
    if_true]
  rfl

/-- A text with a token: what is skipped, the token and what ends it. -/
theorem exists_parts
    {token left : List Char}
    (found : firstToken delim string = some (token, left)) :
    ∃ skip tail,
      string = skip ++ (token ++ tail) ∧
        string.takeWhile delim = skip ∧
          (token ++ tail).takeWhile (fun char => !delim char) = token ∧
            token ++ tail ≠ [] ∧ left = tail.drop 1 := by
  have nonempty : string.dropWhile delim ≠ [] := by
    intro ended
    simp [firstToken, ended] at found
  rw [firstToken, if_neg nonempty, Option.some.injEq, Prod.mk.injEq] at found
  have tokenSplit :=
    List.takeWhile_append_dropWhile (p := fun char => !delim char)
      (l := string.dropWhile delim)
  rw [found.1] at tokenSplit
  refine
    ⟨string.takeWhile delim,
      (string.dropWhile delim).dropWhile (fun char => !delim char),
      ?_, rfl, ?_, ?_, found.2.symm⟩
  · rw [tokenSplit, List.takeWhile_append_dropWhile]
  · rw [tokenSplit]
    exact found.1
  · rw [tokenSplit]
    exact nonempty

/--
A token is found where it starts; the text behind it is saved, and it has
been given a NUL of its own.
-/
theorem strtok_some
    {token left : List Char}
    (terminated : nul ∉ string)
    (found : firstToken delim string = some (token, left)) :
    ∃ start passed,
      strtok delim ⟨before ++ string ++ nul :: rest, before.length⟩ =
          some (some start, ⟨passed ++ left ++ nul :: rest, passed.length⟩) ∧
        text ((passed ++ left ++ nul :: rest).drop start) = some token := by
  rcases exists_parts found with
    ⟨skip, tail, rfl, skipEq, tokenEq, nonempty, rfl⟩
  have tokenFree : nul ∉ token := by
    intro member
    apply terminated
    simp [member]
  have skipLength := strspn_eq before rest delim terminated
  rw [skipEq] at skipLength
  have regroup :
      before ++ (skip ++ (token ++ tail)) ++ nul :: rest =
        (before ++ skip) ++ (token ++ tail) ++ nul :: rest := by
    simp only [List.append_assoc]
  rw [regroup] at skipLength ⊢
  have behind : nul ∉ token ++ tail := by
    intro member
    exact terminated (List.mem_append_right skip member)
  have tokenLength := strcspn_eq (before ++ skip) rest delim behind
  rw [tokenEq, List.length_append] at tokenLength
  have notEnded :
      ((before ++ skip) ++ (token ++ tail) ++ nul :: rest)[
          before.length + skip.length]? ≠ some nul := by
    intro isNul
    rw [← List.length_append, List.append_assoc,
      List.getElem?_append_right (Nat.le_refl _), Nat.sub_self,
      List.getElem?_append_left (List.length_pos_of_ne_nil nonempty)] at isNul
    exact behind (List.mem_of_getElem? isNul)
  refine ⟨before.length + skip.length, ?_⟩
  rw [strtok]
  simp only [skipLength, tokenLength, Option.bind_eq_bind, Option.bind_some,
    notEnded, if_false]
  -- the token ends with the text, or at a delimiter that becomes its NUL
  cases tail with
  | nil =>
      have ended :
          (before ++ skip ++ token ++ nul :: rest)[
              (before ++ skip).length + token.length]? =
            some nul :=
        getElem?_end (before ++ skip) rest
      simp only [List.length_append] at ended
      refine ⟨before ++ skip ++ token, ?_, ?_⟩
      · simp only [List.append_nil, ended, if_true, List.drop_nil,
          List.length_append]
        rfl
      · rw [← List.length_append, List.drop_nil, List.append_nil,
          List.append_assoc (before ++ skip), List.drop_left' rfl,
          text_append tokenFree rest]
  | cons char later =>
      have other : char ≠ nul := by
        rintro rfl
        apply behind
        simp
      have regroup :
          before ++ skip ++ (token ++ char :: later) ++ nul :: rest =
            (before ++ skip ++ token) ++ [char] ++ (later ++ nul :: rest) := by
        simp
      have place :
          ((before ++ skip ++ token) ++ [char] ++ (later ++ nul :: rest))[
              (before ++ skip ++ token).length]? ≠ some nul := by
        simpa using other
      have cut :=
        store_append (before ++ skip ++ token) [char] (later ++ nul :: rest)
          [nul] rfl
      simp only [List.length_append] at place cut
      refine ⟨before ++ skip ++ token ++ [nul], ?_, ?_⟩
      · rw [regroup]
        simp only [place, if_false, cut, Option.bind_some]
        simp [Nat.add_assoc]
      · have afterToken :
            before ++ skip ++ token ++ [nul] ++ (char :: later).drop 1 ++
                nul :: rest =
              (before ++ skip) ++ (token ++ nul :: (later ++ nul :: rest)) := by
          simp
        rw [afterToken, ← List.length_append, List.drop_left' rfl,
          text_append tokenFree]

end Rules

end DZFile.Strtok
