import DZFile.Walker
import DZFile.Library.ByteSeq

/-!
# The blacklist

`match_extension` takes a list of extensions apart at its semicolons and
compares each with the extension of a file.  The loop works on positions and
carries the string `exts` from one round to the next; an entry that a
semicolon ends is cut after its last dot, an empty one repeats what `exts`
holds, and the last entry is taken as it stands.

So an entry with a dot means something else at the end of the list than in
front of it, and a list that starts with a semicolon has the empty extension
on it.  Apart from these two the list means what it says.
-/

namespace DZFile.Blacklist

open DZFile.ByteSeq
open DZFile.Names
open DZFile.Walker

/-! ## The loop -/

/-- `text.find(char, start)`. -/
def find (text : CString) (char : Char) (start : Nat) : Option Nat :=
  ((text.drop start).idxOf? char).map (start + ·)

/-- What `exts` holds after an entry from `start` to `stop`. -/
def cutEntry (extensions exts : CString) (start stop : Nat) : CString :=
  if stop ≠ start then
    let piece := slice extensions start (stop - start)
    (afterLastDot piece).getD piece
  else exts

/--
The loop that fills `extension_list`; nothing when it does not end within the
rounds given.
-/
def extensionLoop (extensions : CString) :
    Nat → Nat → CString → List CString → Option (List CString)
  | 0, _, _, _ => none
  | rounds + 1, start, exts, extension_list =>
      match find extensions ';' start with
      | some stop =>
          let exts := cutEntry extensions exts start stop
          extensionLoop extensions rounds (stop + 1) exts
            (extension_list ++ [exts])
      | none =>
          let exts := extensions.drop start
          if exts = [] then some extension_list
          else some (extension_list ++ [exts])

/-- `match_extension` with its loop. -/
def match_extensionIn (filename extensions : CString) : Option Bool := do
  let extension_list ←
    extensionLoop extensions (extensions.length + 1) 0 [] []
  match afterLastDot filename with
  | none => return false
  | some ext => return extension_list.contains ext

/-- A text is split at the first semicolon. -/
theorem exists_split_of_idxOf?
    {text : CString} {char : Char} {index : Nat}
    (found : text.idxOf? char = some index) :
    ∃ piece rest,
      text = piece ++ char :: rest ∧ char ∉ piece ∧ piece.length = index := by
  rcases List.idxOf?_eq_some_iff.mp found with ⟨inside, here, before⟩
  refine ⟨text.take index, text.drop (index + 1), ?_, ?_, ?_⟩
  · rw [← here, ← List.drop_eq_getElem_cons inside, List.take_append_drop]
  · intro member
    rcases List.mem_iff_getElem.mp member with ⟨place, bound, same⟩
    rw [List.getElem_take] at same
    rw [List.length_take] at bound
    exact before place (by omega) same
  · rw [List.length_take]
    omega

/-- An entry that others follow is cut, or repeats the one before it. -/
theorem extensionList_cons
    (exts piece : CString) {rest : List CString} (more : rest ≠ []) :
    extensionList exts (piece :: rest) =
      (if piece = [] then exts else (afterLastDot piece).getD piece) ::
        extensionList
          (if piece = [] then exts else (afterLastDot piece).getD piece)
          rest := by
  cases rest with
  | nil => exact (more rfl).elim
  | cons next later => rfl

/-- From any position on the loop adds what the pieces of the rest give. -/
theorem extensionLoop_eq
    {rounds : Nat} {extensions : CString} {start : Nat}
    (enough : (extensions.drop start).length < rounds)
    (exts : CString) (extension_list : List CString) :
    extensionLoop extensions rounds start exts extension_list =
      some
        (extension_list ++
          extensionList exts ((extensions.drop start).splitOn ';')) := by
  induction rounds generalizing start exts extension_list with
  | zero => omega
  | succ rounds induction =>
      rw [extensionLoop, find]
      cases found : (extensions.drop start).idxOf? ';' with
      | none =>
          have whole :=
            List.splitOn_eq_singleton (List.idxOf?_eq_none_iff.mp found)
          simp only [Option.map_none, whole, extensionList]
          split_ifs <;> simp
      | some index =>
          rcases exists_split_of_idxOf? found with
            ⟨piece, rest, split, free, rfl⟩
          have taken :
              slice extensions start (start + piece.length - start) =
                piece := by
            rw [slice, split, Nat.add_sub_cancel_left, List.take_left' rfl]
          have left :
              extensions.drop (start + piece.length + 1) = rest := by
            rw [Nat.add_assoc, ← List.drop_drop, split, List.drop_append]
            simp
          have cut :
              cutEntry extensions exts start (start + piece.length) =
                if piece = [] then exts
                else (afterLastDot piece).getD piece := by
            rw [cutEntry, taken]
            cases piece <;> simp
          have shorter : (extensions.drop (start + piece.length + 1)).length <
              rounds := by
            rw [split, List.length_append, List.length_cons] at enough
            rw [left]
            omega
          have pieces := List.splitOn_append_cons_self_of_not_mem free rest
          have more := List.splitOn_ne_nil ';' rest
          simp only [Option.map_some, induction shorter, left, cut, split,
            pieces, extensionList_cons exts piece more]
          simp

/-- The loop ends, and computes what the model of the walker takes from it. -/
theorem match_extensionIn_eq (filename extensions : CString) :
    match_extensionIn filename extensions =
      some (match_extension filename extensions) := by
  have filled :=
    extensionLoop_eq (Nat.lt_add_one (extensions.drop 0).length) [] []
  rw [List.drop_zero] at filled
  rw [match_extensionIn, filled, match_extension]
  cases afterLastDot filename with
  | none => rfl
  | some ext =>
      exact
        congrArg some
          (List.contains_eq_mem ext (extensionList [] (extensions.splitOn ';')))

/-! ## What the list means -/

/-- The entries between the semicolons. -/
def entries (extensions : CString) : List CString :=
  extensions.splitOn ';'

/-- What an entry names: the text after its last dot, or all of it. -/
def named (entry : CString) : CString :=
  (afterLastDot entry).getD entry

/-- The extension of the file is named by an entry that is not empty. -/
def Listed (filename extensions : CString) : Prop :=
  ∃ ext, afterLastDot filename = some ext ∧
    ∃ entry ∈ entries extensions, entry ≠ [] ∧ named entry = ext

/-- The extension is named by an entry that a semicolon ends. -/
def ListedBefore (ext extensions : CString) : Prop :=
  ∃ entry ∈ (entries extensions).dropLast, entry ≠ [] ∧ named entry = ext

/-- The entry behind the last semicolon. -/
def lastEntry (extensions : CString) : CString :=
  (entries extensions).getLastD []

/-- The entries are those that a semicolon ends, and the last. -/
theorem entries_eq (extensions : CString) :
    entries extensions =
      (entries extensions).dropLast ++ [lastEntry extensions] := by
  have some_entry : entries extensions ≠ [] :=
    List.splitOn_ne_nil ';' extensions
  have last : lastEntry extensions = (entries extensions).getLast some_entry := by
    rw [lastEntry, List.getLastD_eq_getLast?,
      List.getLast?_eq_some_getLast some_entry]
    rfl
  rw [last, List.dropLast_append_getLast]

/-- What the loop has put on the list for entries of any kind. -/
theorem mem_extensionList_iff
    (before : List CString) (exts last ext : CString) :
    ext ∈ extensionList exts (before ++ [last]) ↔
      (∃ entry ∈ before, entry ≠ [] ∧ named entry = ext) ∨
        (before.head? = some [] ∧ ext = exts) ∨
          (last ≠ [] ∧ ext = last) := by
  induction before generalizing exts with
  | nil =>
      rw [List.nil_append, extensionList]
      split_ifs with empty <;> simp [empty]
  | cons entry before induction =>
      rw [List.cons_append, extensionList_cons exts entry (by simp),
        List.mem_cons, induction]
      rw [List.exists_mem_cons_iff, List.head?_cons, Option.some.injEq]
      generalize (∃ entry ∈ before, entry ≠ [] ∧ named entry = ext) = others
      by_cases empty : entry = []
      · simp only [empty, if_true, ne_eq, not_true_eq_false, false_and,
          false_or, true_and]
        tauto
      · simp only [empty, if_false, ne_eq, not_false_eq_true, true_and,
          false_and, false_or, named, eq_comm (a := ext)]
        tauto

/-! ## When the two agree -/

theorem afterLastDot_eq_none_iff (text : CString) :
    afterLastDot text = none ↔ '.' ∉ text := by
  induction text with
  | nil => simp [afterLastDot]
  | cons char rest induction =>
      rw [afterLastDot]
      cases later : afterLastDot rest with
      | none =>
          have noDot := induction.mp later
          simp [noDot, eq_comm]
      | some ext =>
          have dot : '.' ∈ rest := by
            by_contra noDot
            rw [induction.mpr noDot] at later
            cases later
          simp [dot]

/-- The text after the last dot has no dot. -/
theorem dot_not_mem_of_afterLastDot
    {text ext : CString} (found : afterLastDot text = some ext) :
    '.' ∉ ext ∧ '.' ∈ text := by
  induction text generalizing ext with
  | nil => simp [afterLastDot] at found
  | cons char rest induction =>
      rw [afterLastDot] at found
      cases later : afterLastDot rest with
      | some other =>
          rw [later] at found
          cases found
          exact
            ⟨(induction later).1, List.mem_cons_of_mem char (induction later).2⟩
      | none =>
          rw [later] at found
          by_cases dot : char = '.'
          · simp only [dot, if_true, Option.some.injEq] at found
            rw [← found, dot]
            exact
              ⟨(afterLastDot_eq_none_iff rest).mp later, List.mem_cons_self⟩
          · simp [dot] at found

/-- The first entry is empty where the list starts with a semicolon. -/
theorem head?_entries_iff (extensions : CString) :
    (entries extensions).dropLast.head? = some [] ↔
      extensions.head? = some ';' := by
  cases extensions with
  | nil => simp [entries]
  | cons char rest =>
      rcases List.exists_cons_of_ne_nil (List.splitOn_ne_nil ';' rest) with
        ⟨first, others, split⟩
      rw [entries, List.splitOn_cons_eq_if_modifyHead, split]
      by_cases semicolon : char = ';'
      · simp [semicolon]
      · cases others <;> simp [semicolon]

/--
An extension that only the last entry names, and names with a dot, is missed.
-/
def MissedAtEnd (filename extensions : CString) : Prop :=
  ∃ ext, afterLastDot filename = some ext ∧
    afterLastDot (lastEntry extensions) = some ext ∧
      ¬ ListedBefore ext extensions ∧
        ¬ (extensions.head? = some ';' ∧ ext = [])

/--
A file that ends with a dot is taken for listed where the list starts with a
semicolon.
-/
def TakenForEmpty (filename extensions : CString) : Prop :=
  afterLastDot filename = some [] ∧ extensions.head? = some ';' ∧
    ¬ ListedBefore [] extensions ∧
      afterLastDot (lastEntry extensions) ≠ some []

/-- What the code decides about the extension of a file. -/
theorem match_extension_iff
    {filename ext : CString} (found : afterLastDot filename = some ext)
    (extensions : CString) :
    match_extension filename extensions = true ↔
      ListedBefore ext extensions ∨
        (extensions.head? = some ';' ∧ ext = []) ∨
          (lastEntry extensions ≠ [] ∧ ext = lastEntry extensions) := by
  have whole := entries_eq extensions
  rw [entries] at whole
  rw [match_extension, found]
  simp only [decide_eq_true_eq]
  rw [whole, ← entries, mem_extensionList_iff, head?_entries_iff]
  rfl

/-- What the list means for the extension of a file. -/
theorem listed_iff
    {filename ext : CString} (found : afterLastDot filename = some ext)
    (extensions : CString) :
    Listed filename extensions ↔
      ListedBefore ext extensions ∨
        (lastEntry extensions ≠ [] ∧ named (lastEntry extensions) = ext) := by
  have member : ∀ entry,
      entry ∈ entries extensions ↔
        entry ∈ (entries extensions).dropLast ∨
          entry = lastEntry extensions := by
    intro entry
    conv_lhs => rw [entries_eq extensions]
    rw [List.mem_append, List.mem_singleton]
  rw [Listed, found, ListedBefore]
  simp only [Option.some.injEq, exists_eq_left', member, or_and_right,
    exists_or, exists_eq_left]

/-- The code decides what the list means, but for the two exceptions. -/
theorem match_extension_iff_listed_iff (filename extensions : CString) :
    (match_extension filename extensions = true ↔
        Listed filename extensions) ↔
      ¬ MissedAtEnd filename extensions ∧
        ¬ TakenForEmpty filename extensions := by
  cases found : afterLastDot filename with
  | none =>
      simp [match_extension, Listed, MissedAtEnd, TakenForEmpty, found]
  | some ext =>
      have noDot := (dot_not_mem_of_afterLastDot found).1
      rw [match_extension_iff found, listed_iff found, MissedAtEnd,
        TakenForEmpty, found]
      simp only [Option.some.injEq, exists_eq_left']
      cases last : afterLastDot (lastEntry extensions) with
      | none =>
          -- the last entry names itself, and it is not empty
          have whole : named (lastEntry extensions) = lastEntry extensions := by
            rw [named, last]
            rfl
          rw [whole, eq_comm (a := lastEntry extensions) (b := ext)]
          by_cases empty : ext = []
          · subst empty
            simp only [reduceCtorEq, false_and, not_false_eq_true, true_and,
              and_true, ne_eq, eq_comm (a := ([] : CString))]
            tauto
          · simp [empty]
      | some lastExt =>
          -- the last entry has a dot, so the code cannot find it
          have nonempty : lastEntry extensions ≠ [] := by
            intro empty
            rw [empty] at last
            cases last
          have meant : named (lastEntry extensions) = lastExt := by
            rw [named, last]
            rfl
          have different : ext ≠ lastEntry extensions := by
            rintro rfl
            exact noDot (dot_not_mem_of_afterLastDot last).2
          simp only [meant, nonempty, different, ne_eq, not_false_eq_true,
            true_and, and_false, or_false, Option.some.injEq]
          by_cases empty : ext = []
          · subst empty
            tauto
          · simp only [empty, and_false, or_false, false_and,
              not_false_eq_true, and_true]
            tauto

/-- The loop ends with the answer the list means. -/
def MeansList (filename extensions : CString) : Prop :=
  ∃ result, match_extensionIn filename extensions = some result ∧
    (result = true ↔ Listed filename extensions)

theorem meansList_iff (filename extensions : CString) :
    MeansList filename extensions ↔
      ¬ MissedAtEnd filename extensions ∧
        ¬ TakenForEmpty filename extensions := by
  rw [← match_extension_iff_listed_iff, MeansList, match_extensionIn_eq]
  simp

/-- Lists with the same entries mean the same. -/
theorem listed_congr
    {extensions other : CString}
    (same : ∀ entry, entry ≠ [] →
      (entry ∈ entries extensions ↔ entry ∈ entries other))
    (filename : CString) :
    Listed filename extensions ↔ Listed filename other := by
  constructor
  · rintro ⟨ext, found, entry, member, nonempty, meant⟩
    exact
      ⟨ext, found, entry, (same entry nonempty).mp member, nonempty, meant⟩
  · rintro ⟨ext, found, entry, member, nonempty, meant⟩
    exact
      ⟨ext, found, entry, (same entry nonempty).mpr member, nonempty, meant⟩

/--
The list means what it lists unless only its last entry, written with a dot,
names the extension, or the list starts with a semicolon and the file ends
with a dot.  Where it does for two lists, neither the order nor the number of
their entries makes a difference, nor do empty ones.
-/
theorem blacklist_means_entries_iff (filename extensions : CString) :
    (MeansList filename extensions ↔
        ¬ MissedAtEnd filename extensions ∧
          ¬ TakenForEmpty filename extensions) ∧
      ∀ other,
        (∀ entry, entry ≠ [] →
          (entry ∈ entries extensions ↔ entry ∈ entries other)) →
        ¬ MissedAtEnd filename extensions ∧
            ¬ TakenForEmpty filename extensions →
          ¬ MissedAtEnd filename other ∧ ¬ TakenForEmpty filename other →
            match_extensionIn filename extensions =
              match_extensionIn filename other := by
  refine ⟨meansList_iff filename extensions, ?_⟩
  intro other same first second
  rcases (meansList_iff filename extensions).mpr first with
    ⟨result, decided, means⟩
  rcases (meansList_iff filename other).mpr second with
    ⟨otherResult, otherDecided, otherMeans⟩
  have agree : result = otherResult := by
    rw [Bool.eq_iff_iff, means, otherMeans]
    exact listed_congr same filename
  rw [decided, otherDecided, agree]

/-- The last entry of the shipped configuration matches no file. -/
theorem shipped_blacklist_misses_bz2 :
    ¬ ∀ filename extensions, MeansList filename extensions := by
  intro always
  rcases
    always "/d/a.bz2".toList "*.gz;*.rar;*.h5;*.jpg;*.z7;*.bz2".toList with
    ⟨result, decided, means⟩
  have missed :
      match_extensionIn "/d/a.bz2".toList
          "*.gz;*.rar;*.h5;*.jpg;*.z7;*.bz2".toList =
        some false := by
    decide
  have listed :
      Listed "/d/a.bz2".toList
        "*.gz;*.rar;*.h5;*.jpg;*.z7;*.bz2".toList :=
    ⟨"bz2".toList, by decide, "*.bz2".toList, by decide, by decide, by decide⟩
  rw [decided] at missed
  cases missed
  exact absurd (means.mpr listed) (by decide)

end DZFile.Blacklist
