import DZFile.Walker
import DZFile.Library.CBuffer

/-!
# The names of images and temporary files

`buildHiddenFile` edits a copy of the path in memory it has allocated for the
purpose; `buildHiddenFileIn` is that function on the memory itself, with every
access checked.  It computes the name `buildHiddenFile` stands for and uses the
memory up to its last byte.

A hidden name keeps the path's directory and wraps its last component, so the
path can be read off it again.  An image's name and a temporary file's name
never meet, and the recogniser knows both.
-/

namespace DZFile.HiddenNames

open DZFile.Interaction
open DZFile.Names
open DZFile.Kernel
open DZFile.Converter
open DZFile.Walker
open DZFile.CBuffer

/-! ## The two names of a path -/

/-- The part of a path up to its last slash. -/
def directory (path : CString) : CString :=
  match strrchrSlash path with
  | none => []
  | some base => path.take (path.length - base.length)

theorem directory_append
    (dir : CString) {base : CString} (noSlash : '/' ∉ base) :
    directory (dir ++ '/' :: base) = dir ++ ['/'] := by
  have cut : (dir ++ '/' :: base).length - base.length = dir.length + 1 := by
    simp only [List.length_append, List.length_cons]
    omega
  rw [directory, strrchrSlash_append dir noSlash]
  simp only [cut]
  rw [List.take_append, List.take_of_length_le (Nat.le_succ dir.length)]
  simp

theorem buildHiddenFile_append
    (dir : CString) {base : CString} (noSlash : '/' ∉ base) :
    buildHiddenFile (dir ++ '/' :: base) =
      some (dir ++ '/' :: '.' :: (base ++ dotDZF)) := by
  have kept := directory_append dir noSlash
  rw [directory, strrchrSlash_append dir noSlash] at kept
  simp only at kept
  rw [buildHiddenFile, strrchrSlash_append dir noSlash, Option.map_some, kept]
  simp

/-- A path, its image and its temporary file differ in their last component. -/
theorem exists_parts (target : Target) :
    ∃ dir base, '/' ∉ base ∧
      target.path = dir ++ '/' :: base ∧
        target.h5name = dir ++ '/' :: '.' :: (base ++ dotDZF) ∧
          target.temp = dir ++ '/' :: '.' :: (base ++ dotDZF ++ dotTmp) := by
  rcases Option.map_eq_some_iff.mp target.built with ⟨base, found, _⟩
  rcases strrchrSlash_eq_some found with ⟨dir, split, noSlash⟩
  have name := target.built
  rw [split, buildHiddenFile_append dir noSlash, Option.some.injEq] at name
  exact
    ⟨dir, base, noSlash, split, name.symm,
      by simp [Target.temp, tempName, ← name]⟩

/-- A hidden component has no slash when the component it hides has none. -/
theorem slash_not_mem_hidden {base : CString} (noSlash : '/' ∉ base) :
    '/' ∉ '.' :: (base ++ dotDZF) ∧
      '/' ∉ '.' :: (base ++ dotDZF ++ dotTmp) := by
  simp [noSlash, dotDZF, dotTmp]

/-- Paths are equal when their last components and what precedes them are. -/
theorem append_slash_injective
    {dir dir' base base' : CString} (noSlash : '/' ∉ base)
    (noSlash' : '/' ∉ base')
    (same : dir ++ '/' :: base = dir' ++ '/' :: base') :
    dir = dir' ∧ base = base' := by
  have bases := congrArg strrchrSlash same
  rw [strrchrSlash_append dir noSlash, strrchrSlash_append dir' noSlash',
    Option.some.injEq] at bases
  subst bases
  exact ⟨List.append_cancel_right same, rfl⟩

/-- Different paths have different images. -/
theorem h5name_injective
    {p q : Target} (same : p.h5name = q.h5name) : p.path = q.path := by
  rcases exists_parts p with ⟨dir, base, noSlash, path, image, _⟩
  rcases exists_parts q with ⟨dir', base', noSlash', path', image', _⟩
  rw [image, image'] at same
  rcases
    append_slash_injective (slash_not_mem_hidden noSlash).1
      (slash_not_mem_hidden noSlash').1 same with
    ⟨rfl, sameBase⟩
  rw [path, path', List.append_cancel_right (List.cons.inj sameBase).2]

/-- Different paths have different temporary files. -/
theorem temp_injective
    {p q : Target} (same : p.temp = q.temp) : p.path = q.path :=
  h5name_injective (List.append_cancel_right same)

/-- No image is a temporary file: the last characters differ. -/
theorem h5name_ne_temp (p q : Target) : p.h5name ≠ q.temp := by
  intro same
  rcases exists_parts p with ⟨dir, base, _, _, image, _⟩
  have lasts := congrArg List.getLast? same
  rw [image, Target.temp, tempName] at lasts
  simp [dotDZF, dotTmp, List.getLast?_append, List.getLast?_cons] at lasts

theorem directory_h5name (target : Target) :
    directory target.h5name = directory target.path := by
  rcases exists_parts target with ⟨dir, base, noSlash, path, image, _⟩
  rw [path, image, directory_append dir noSlash,
    directory_append dir (slash_not_mem_hidden noSlash).1]

theorem directory_temp (target : Target) :
    directory target.temp = directory target.path := by
  rcases exists_parts target with ⟨dir, base, noSlash, path, _, temp⟩
  rw [path, temp, directory_append dir noSlash,
    directory_append dir (slash_not_mem_hidden noSlash).2]

/-! ## The recogniser -/

/-- A dot name of at least four characters with one of the two endings. -/
theorem match_hiddenfile_of_suffix
    {before dir base : CString} (noSlash : '/' ∉ '.' :: base)
    (long : 3 ≤ base.length)
    (ending :
      dotDZF <:+ dir ++ '/' :: '.' :: base ∨
        dotDZF ++ dotTmp <:+ dir ++ '/' :: '.' :: base) :
    match_hiddenfile before (dir ++ '/' :: '.' :: base) = true := by
  unfold match_hiddenfile
  rw [strrchrSlash_append dir noSlash]
  simp only [Option.getD_some]
  split
  · rfl
  · have anywhere :
        dotDZF ++ dotTmp <:+ dir ++ '/' :: '.' :: base →
          dotDZF ++ dotTmp <:+ before ++ (dir ++ '/' :: '.' :: base) :=
      fun suffix => suffix.trans (List.suffix_append _ _)
    simp only [List.length_cons, List.head?_cons, beq_self_eq_true,
      Bool.and_true, Bool.and_eq_true, decide_eq_true_eq, Bool.or_eq_true,
      List.isSuffixOf_iff_suffix]
    exact ⟨by omega, ending.imp_right anywhere⟩

/-- The recogniser knows an image. -/
theorem match_hiddenfile_h5name (target : Target) (before : CString) :
    match_hiddenfile before target.h5name = true := by
  rcases exists_parts target with ⟨dir, base, noSlash, _, image, _⟩
  rw [image]
  exact
    match_hiddenfile_of_suffix (slash_not_mem_hidden noSlash).1
      (by simp [dotDZF]) (Or.inl ⟨dir ++ '/' :: '.' :: base, by simp⟩)

/-- A name the recogniser does not know is no image's. -/
theorem h5name_ne_of_not_hidden
    {name : CString} (unknown : match_hiddenfile [] name = false)
    (target : Target) :
    target.h5name ≠ name := by
  rintro rfl
  rw [match_hiddenfile_h5name target []] at unknown
  cases unknown

/-- The recogniser knows a temporary file. -/
theorem match_hiddenfile_temp (target : Target) (before : CString) :
    match_hiddenfile before target.temp = true := by
  rcases exists_parts target with ⟨dir, base, noSlash, _, _, temp⟩
  rw [temp]
  exact
    match_hiddenfile_of_suffix (slash_not_mem_hidden noSlash).2
      (by simp [dotDZF]; omega) (Or.inr ⟨dir ++ '/' :: '.' :: base, by simp⟩)

/-- `process_file` returns at once from a name the recogniser knows. -/
theorem process_file_of_hidden
    (policy : Policy) {path : CString}
    (hidden : match_hiddenfile [] path = true) :
    process_file policy path = .ret none := by
  simp [process_file, hidden]

/-! ## In memory -/

/--
`buildHiddenFile` on the memory `malloc` has returned: copy the path, find its
last component, move that up by one, put a dot in its place and append the
ending.
-/
def buildHiddenFileIn (new_filepath : List Char) (filepath : CString) :
    Option (List Char) := do
  let copied ← strcpy new_filepath filepath
  let string ← text copied
  let base ← strrchrSlash string
  let filename := string.length - base.length
  let length ← strlen copied filename
  let moved ← memmove copied (filename + 1) filename (length + 1)
  let dotted ← memcpy moved filename ['.']
  strcat dotted dotDZF

/--
In memory of `strlen(filepath) + 6` bytes the function stays inside and leaves
no byte of what was there.
-/
theorem buildHiddenFileIn_eq
    (target : Target) (terminated : nul ∉ target.path)
    {new_filepath : List Char}
    (allocated : new_filepath.length = target.path.length + 6) :
    buildHiddenFileIn new_filepath target.path =
      some (target.h5name ++ [nul]) := by
  rcases exists_parts target with ⟨dir, base, noSlash, path, image, _⟩
  rw [path] at terminated allocated ⊢
  rw [image]
  have baseTerminated : nul ∉ base := by
    intro member
    exact terminated (by simp [member])
  have dottedTerminated : nul ∉ dir ++ '/' :: '.' :: base := by
    simp only [List.mem_append, List.mem_cons, not_or] at terminated ⊢
    exact
      ⟨terminated.1, terminated.2.1, by decide, terminated.2.2⟩
  -- The memory is the copied path with its NUL, and five bytes more.
  rcases
    exists_split new_filepath ((dir ++ '/' :: base).length + 1) (by omega) with
    ⟨old, more, rfl, oldLength⟩
  have moreLength : more.length = 5 := by
    rw [List.length_append] at allocated
    omega
  rcases List.exists_cons_of_length_pos (by omega : 0 < more.length) with
    ⟨next, four, rfl⟩
  have fourLength : four.length = dotDZF.length := by
    simpa [dotDZF] using moreLength
  have offset :
      (dir ++ '/' :: base).length - base.length =
        (dir ++ ['/']).length := by
    simp only [List.length_append, List.length_cons, List.length_nil]
    omega
  have regroup :
      dir ++ '/' :: base ++ nul :: next :: four =
        (dir ++ ['/']) ++ base ++ nul :: next :: four := by
    simp
  have string := text_append terminated (next :: four)
  rw [regroup] at string
  have measured :=
    strlen_append (dir ++ ['/']) baseTerminated (next :: four)
  have moved := memmove_up (dir ++ ['/']) base next four
  have first : ((base ++ nul :: next :: four).take 1).length = 1 := by
    cases base <;> rfl
  have dotted :=
    store_append (dir ++ ['/'])
      ((base ++ nul :: next :: four).take 1) (base ++ nul :: four) ['.'] first
  have appended :=
    strcat_eq dottedTerminated four [] dotDZF fourLength
  simp only [buildHiddenFileIn, strcpy_eq old _ _ oldLength, regroup, string,
    strrchrSlash_append dir noSlash, offset, measured, moved, bind,
    Option.bind_some, memcpy]
  rw [List.append_assoc _ base, dotted]
  simpa using appended

/--
The names of images and of temporary files determine the path and never
meet; both stay in its directory; the recogniser, and with it `process_file`,
stops at both; and the memory for an image's name is filled exactly.
-/
theorem hidden_names_distinct_and_recognised (p q : Target) :
    (p.h5name = q.h5name → p.path = q.path) ∧
      (p.temp = q.temp → p.path = q.path) ∧
        p.h5name ≠ q.temp ∧
          directory p.h5name = directory p.path ∧
            directory p.temp = directory p.path ∧
              (∀ before,
                match_hiddenfile before p.h5name = true ∧
                  match_hiddenfile before p.temp = true) ∧
                (∀ policy,
                  process_file policy p.h5name = .ret none ∧
                    process_file policy p.temp = .ret none) ∧
                  (nul ∉ p.path → ∀ new_filepath : List Char,
                    new_filepath.length = p.path.length + 6 →
                      buildHiddenFileIn new_filepath p.path =
                          some (p.h5name ++ [nul]) ∧
                        (p.h5name ++ [nul]).length = p.path.length + 6) := by
  refine
    ⟨h5name_injective, temp_injective, h5name_ne_temp p q,
      directory_h5name p, directory_temp p, ?_, ?_, ?_⟩
  · intro before
    exact ⟨match_hiddenfile_h5name p before, match_hiddenfile_temp p before⟩
  · intro policy
    exact
      ⟨process_file_of_hidden policy (match_hiddenfile_h5name p []),
        process_file_of_hidden policy (match_hiddenfile_temp p [])⟩
  · intro terminated new_filepath allocated
    refine ⟨buildHiddenFileIn_eq p terminated allocated, ?_⟩
    rw [List.length_append, length_buildHiddenFile p.built]
    rfl

end DZFile.HiddenNames
