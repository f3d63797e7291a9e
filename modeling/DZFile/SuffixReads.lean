import DZFile.Names

/-!
# Where the suffix tests read

The tests for hidden names compare the end of a path with `.DZF` or
`.DZF.tmp`, at an offset that is computed from the length of the last
component.  Here every comparison is made at its offset in the string and has
no result when it would start outside.  `dzfile_creat` and `dzfile_open`
subtract 4 without looking at the length, `match_hiddenfile` looks for a
length of 4 and subtracts 8 as well, so a short dot name is read in the
directory that precedes it, and in front of the string where that is short
too.
-/

namespace DZFile.SuffixReads

open DZFile.Names

/-! ## The tests, offset by offset -/

/--
`strcmp(path + offset, literal) == 0`; nothing when the first position it
reads is not one of the string or its NUL.
-/
def strcmpAt (path : CString) (offset : Int) (literal : CString) :
    Option Bool :=
  if 0 ≤ offset ∧ offset ≤ path.length then
    some (path.drop offset.toNat == literal)
  else none

/--
The test `bname[0] == '.' && strcmp(bname + strlen(bname) - 4, ".DZF") == 0`
of `dzfile_creat` and `dzfile_open`.
-/
def illegalNameIn (path : CString) : Option Bool := do
  let bname ← strrchrSlash path
  let start : Int := path.length - bname.length
  if bname.head? = some '.' then
    strcmpAt path (start + bname.length - 4) dotDZF
  else return false

/-- `match_hiddenfile(path) == 1`. -/
def match_hiddenfileIn (path : CString) : Option Bool :=
  let filename := (strrchrSlash path).getD path
  let start : Int := path.length - filename.length
  if filename = ['.'] ∨ filename = ['.', '.'] then return true
  else if 4 ≤ filename.length ∧ filename.head? = some '.' then do
    let isImage ← strcmpAt path (start + filename.length - 4) dotDZF
    if isImage then return true
    else strcmpAt path (start + filename.length - 8) (dotDZF ++ dotTmp)
  else return false

/-- The tests by which `dzfile_creat` refuses a name. -/
def dzfile_creatTests (filename : CString) : Option Bool := do
  let illegal ← illegalNameIn filename
  if illegal then return true
  else if match_sysdir filename then return true
  else match_hiddenfileIn filename

/-- The tests by which `dzfile_open` refuses a name. -/
def dzfile_openTests (filename : CString) : Option Bool :=
  if match_sysdir filename then return true
  else illegalNameIn filename

/-! ## Comparing the end of a string -/

/-- A comparison with the end stays inside if the string is long enough. -/
theorem strcmpAt_end
    (path literal : CString) (offset : Int)
    (atEnd : offset = path.length - literal.length) :
    strcmpAt path offset literal =
      if literal.length ≤ path.length then some (literal.isSuffixOf path)
      else none := by
  subst atEnd
  by_cases fits : literal.length ≤ path.length
  · have place :
        ((path.length : Int) - literal.length).toNat =
          path.length - literal.length := by
      omega
    have agree :
        (path.drop (path.length - literal.length) == literal) =
          literal.isSuffixOf path := by
      rw [Bool.eq_iff_iff, beq_iff_eq, List.isSuffixOf_iff_suffix,
        List.suffix_iff_eq_drop, eq_comm]
    rw [strcmpAt, if_pos (by omega), if_pos fits, place, agree]
  · rw [strcmpAt, if_neg (by omega), if_neg fits]

section Tests

variable {path base : CString}

theorem illegalNameIn_eq (found : strrchrSlash path = some base) :
    illegalNameIn path =
      if base.head? = some '.' then
        if 4 ≤ path.length then some (dotDZF.isSuffixOf path) else none
      else some false := by
  have compared :=
    strcmpAt_end path dotDZF
      ((path.length : Int) - base.length + base.length - 4)
      (by simp [dotDZF])
  simp only [illegalNameIn, found, Option.bind_eq_bind, Option.bind_some,
    compared]
  rfl

theorem match_hiddenfileIn_eq (found : strrchrSlash path = some base) :
    match_hiddenfileIn path =
      if base = ['.'] ∨ base = ['.', '.'] then some true
      else if 4 ≤ base.length ∧ base.head? = some '.' then
        if dotDZF.isSuffixOf path then some true
        else if 8 ≤ path.length then
          some ((dotDZF ++ dotTmp).isSuffixOf path)
        else none
      else some false := by
  have first :=
    strcmpAt_end path dotDZF
      ((path.length : Int) - base.length + base.length - 4)
      (by simp [dotDZF])
  have second :=
    strcmpAt_end path (dotDZF ++ dotTmp)
      ((path.length : Int) - base.length + base.length - 8)
      (by simp [dotDZF, dotTmp])
  simp only [match_hiddenfileIn, found, Option.getD_some, first, second]
  by_cases long : 4 ≤ base.length ∧ base.head? = some '.'
  · have shorter := length_strrchrSlash_lt found
    have fits : dotDZF.length ≤ path.length := by
      simp only [dotDZF, List.length_cons, List.length_nil]
      omega
    rw [if_pos fits]
    simp only [long, and_self, if_true, Option.bind_eq_bind,
      Option.bind_some]
    rfl
  · simp only [long, if_false]
    rfl

/-- What the test of a path decides when it stays inside. -/
theorem illegalNameIn_agrees
    (found : strrchrSlash path = some base) {result : Bool}
    (inside : illegalNameIn path = some result) :
    illegalName path base = result := by
  rw [illegalNameIn_eq found] at inside
  rw [illegalName]
  split_ifs at inside with dot long
  · simpa [dot] using inside
  · have other : (base.head? == some '.') = false :=
      beq_eq_false_iff_ne.mpr dot
    simpa [other] using inside

/-- A suffix that fits into the end of a string is a suffix of that end. -/
theorem isSuffixOf_append
    {suffix : CString} (before : CString)
    (fits : suffix.length ≤ path.length) :
    suffix.isSuffixOf (before ++ path) = suffix.isSuffixOf path := by
  rw [Bool.eq_iff_iff, List.isSuffixOf_iff_suffix,
    List.isSuffixOf_iff_suffix]
  constructor
  · intro ending
    exact
      List.suffix_of_suffix_length_le ending (List.suffix_append before path)
        fits
  · intro ending
    exact ending.trans (List.suffix_append before path)

/-- What `match_hiddenfile` decides when it stays inside. -/
theorem match_hiddenfileIn_agrees
    (found : strrchrSlash path = some base) {result : Bool}
    (inside : match_hiddenfileIn path = some result) (before : CString) :
    match_hiddenfile before path = result := by
  rw [match_hiddenfileIn_eq found] at inside
  simp only [match_hiddenfile, found, Option.getD_some]
  by_cases dots : base = ['.'] ∨ base = ['.', '.']
  · simpa only [dots, if_true, Option.some.injEq] using inside
  · simp only [dots, if_false] at inside ⊢
    by_cases tested : 4 ≤ base.length ∧ base.head? = some '.'
    · simp only [tested, and_self, if_true] at inside
      simp only [tested, decide_true, beq_self_eq_true, Bool.true_and]
      by_cases image : dotDZF.isSuffixOf path = true
      · simpa [image] using inside
      · by_cases long : 8 ≤ path.length
        · have fits : (dotDZF ++ dotTmp).length ≤ path.length := by
            simpa [dotDZF, dotTmp] using long
          have same := isSuffixOf_append before fits
          rw [if_neg image, if_pos long, Option.some.injEq] at inside
          rw [same, inside]
          simp [image]
        · simp [image, long] at inside
    · rw [if_neg tested, Option.some.injEq] at inside
      rw [← inside, Bool.and_eq_false_iff, Bool.and_eq_false_iff,
        decide_eq_false_iff_not, beq_eq_false_iff_ne]
      exact Or.inl (not_and_or.mp tested)

/-! ## When all positions are inside -/

theorem illegalNameIn_isSome_iff (found : strrchrSlash path = some base) :
    (illegalNameIn path).isSome ↔
      (base.head? = some '.' → 4 ≤ path.length) := by
  rw [illegalNameIn_eq found]
  split_ifs with dot long
  · simp [long]
  · simp [long, dot]
  · simp [dot]

theorem match_hiddenfileIn_isSome_iff
    (found : strrchrSlash path = some base) :
    (match_hiddenfileIn path).isSome ↔
      (base.head? = some '.' → 4 ≤ base.length →
        ¬ dotDZF <:+ path → 8 ≤ path.length) := by
  rw [match_hiddenfileIn_eq found, ← List.isSuffixOf_iff_suffix]
  split_ifs with dots tested image long
  · have short : ¬ 4 ≤ base.length := by
      rcases dots with rfl | rfl <;> simp
    simp [short]
  · simp [image]
  · simp [long]
  · simp [tested, image, long]
  · rw [Option.isSome_some]
    exact iff_of_true rfl fun dot long => absurd ⟨long, dot⟩ tested

/-- The last component, where it starts with a dot, is long enough. -/
def RoomForSuffix (path base : CString) : Prop :=
  base.head? = some '.' →
    4 ≤ path.length ∧
      (4 ≤ base.length → ¬ dotDZF <:+ path → 8 ≤ path.length)

/--
The tests of the three functions read inside the path exactly when its last
component starts with something else than a dot, or four characters precede
the end and, for a name of four or more that does not end in `.DZF`, eight.
-/
theorem suffix_tests_inside_iff
    (path base : CString) (found : strrchrSlash path = some base) :
    ((dzfile_creatTests path).isSome ∧ (dzfile_openTests path).isSome ∧
        (match_hiddenfileIn path).isSome) ↔
      RoomForSuffix path base := by
  have room :
      RoomForSuffix path base ↔
        (illegalNameIn path).isSome ∧ (match_hiddenfileIn path).isSome := by
    rw [illegalNameIn_isSome_iff found, match_hiddenfileIn_isSome_iff found,
      RoomForSuffix]
    exact imp_and
  rw [room]
  constructor
  · rintro ⟨creat, _, hidden⟩
    refine ⟨?_, hidden⟩
    cases inside : illegalNameIn path with
    | none => simp [dzfile_creatTests, inside] at creat
    | some illegal => rfl
  · rintro ⟨illegal, hidden⟩
    refine ⟨?_, ?_, hidden⟩
    · rcases Option.isSome_iff_exists.mp illegal with ⟨result, inside⟩
      simp only [dzfile_creatTests, inside, Option.bind_eq_bind,
        Option.bind_some]
      split_ifs with refused protectedPath
      · rfl
      · rfl
      · exact hidden
    · rw [dzfile_openTests]
      split_ifs with protectedPath
      · rfl
      · exact illegal

/-- A dot name of eight characters leaves room for both suffixes. -/
theorem suffix_tests_inside_profile :
    (dzfile_creatTests "/.profile".toList).isSome ∧
      (dzfile_openTests "/.profile".toList).isSome ∧
        (match_hiddenfileIn "/.profile".toList).isSome := by
  rw [suffix_tests_inside_iff "/.profile".toList ".profile".toList
    (by decide)]
  intro _
  exact ⟨by decide, fun _ _ => by decide⟩

/-- For the file `.a` of the root directory the test starts before the path. -/
theorem suffix_tests_leave_short_path :
    ¬ ∀ path base,
      strrchrSlash path = some base → base ≠ [] →
        (dzfile_creatTests path).isSome ∧ (dzfile_openTests path).isSome ∧
          (match_hiddenfileIn path).isSome := by
  intro always
  have inside :=
    (always "/.a".toList ".a".toList (by decide) (by decide)).1
  exact absurd inside (by decide)

end Tests

end DZFile.SuffixReads
