import Mathlib.Data.List.Basic

/-!
# Path names

The string functions of `dz-common.c` which decide what a path is: the name of
the hidden image that belongs to it, the name of the temporary file the
converter writes, the protected directory `.dzs`, and the hidden names
themselves.

A C string is the list of its characters before the terminating NUL.  Where
the source looks at a fixed distance from the end of a string the model
compares a suffix of the memory that ends there, so that a look before the
start of the last component sees the characters which precede it.
-/

namespace DZFile.Names

/-- A C string without its terminating NUL. -/
abbrev CString := List Char

/-- The literal `".DZF"`. -/
def dotDZF : CString := ['.', 'D', 'Z', 'F']

/-- The literal `".tmp"`. -/
def dotTmp : CString := ['.', 't', 'm', 'p']

/-- The literal `".dzs"`. -/
def dotDzs : CString := ['.', 'd', 'z', 's']

/-- The text after the last slash, `strrchr(path, '/') + 1`. -/
def strrchrSlash : CString → Option CString
  | [] => none
  | char :: rest =>
      match strrchrSlash rest with
      | some base => some base
      | none => if char = '/' then some rest else none

/-- `strrchr(path, '/') != NULL` exactly when the path contains a slash. -/
theorem strrchrSlash_eq_none_iff (path : CString) :
    strrchrSlash path = none ↔ '/' ∉ path := by
  induction path with
  | nil => simp [strrchrSlash]
  | cons char rest induction =>
      rw [strrchrSlash]
      cases later : strrchrSlash rest with
      | none =>
          have noSlash := induction.mp later
          by_cases slash : char = '/'
          · simp [slash]
          · simp [slash, noSlash, Ne.symm slash]
      | some base =>
          have hasSlash : '/' ∈ rest := by
            by_contra noSlash
            rw [induction.mpr noSlash] at later
            cases later
          simp [hasSlash]

theorem length_strrchrSlash_lt
    {path base : CString} (found : strrchrSlash path = some base) :
    base.length < path.length := by
  induction path generalizing base with
  | nil => simp [strrchrSlash] at found
  | cons char rest induction =>
      rw [strrchrSlash] at found
      cases later : strrchrSlash rest with
      | none =>
          rw [later] at found
          by_cases slash : char = '/'
          · simp only [slash, if_true, Option.some.injEq] at found
            subst found
            simp
          · simp [slash] at found
      | some base' =>
          rw [later] at found
          simp only [Option.some.injEq] at found
          subst found
          have shorter := induction later
          simp only [List.length_cons]
          omega

/-- The text after the last slash is the end of the path. -/
theorem strrchrSlash_eq_some
    {path base : CString} (found : strrchrSlash path = some base) :
    ∃ dir, path = dir ++ '/' :: base ∧ '/' ∉ base := by
  induction path generalizing base with
  | nil => simp [strrchrSlash] at found
  | cons char rest induction =>
      rw [strrchrSlash] at found
      cases later : strrchrSlash rest with
      | none =>
          rw [later] at found
          by_cases slash : char = '/'
          · simp only [slash, if_true, Option.some.injEq] at found
            subst found
            exact
              ⟨[], by rw [slash]; rfl,
                (strrchrSlash_eq_none_iff rest).mp later⟩
          · simp [slash] at found
      | some base' =>
          rw [later] at found
          cases found
          rcases induction later with ⟨dir, rfl, noSlash⟩
          exact ⟨char :: dir, rfl, noSlash⟩

theorem strrchrSlash_append
    (dir : CString) {base : CString} (noSlash : '/' ∉ base) :
    strrchrSlash (dir ++ '/' :: base) = some base := by
  induction dir with
  | nil =>
      simp [strrchrSlash, (strrchrSlash_eq_none_iff base).mpr noSlash]
  | cons char dir induction =>
      simp [strrchrSlash, induction]

/-! ## The hidden image and the temporary file -/

/--
`buildHiddenFile`: a dot before the last component and `.DZF` after it; no
name for a path without a slash.
-/
def buildHiddenFile (filepath : CString) : Option CString :=
  (strrchrSlash filepath).map fun filename =>
    filepath.take (filepath.length - filename.length) ++
      ['.'] ++ filename ++ dotDZF

/-- `sprintf(tmp_h5name, "%s.tmp", h5name)`. -/
def tempName (h5name : CString) : CString :=
  h5name ++ dotTmp

theorem buildHiddenFile_isSome_iff (path : CString) :
    (buildHiddenFile path).isSome ↔ '/' ∈ path := by
  rw [buildHiddenFile, Option.isSome_map, Option.isSome_iff_ne_none,
    Ne, strrchrSlash_eq_none_iff, not_not]

/-- The image name is five characters longer than the path. -/
theorem length_buildHiddenFile
    {path h5name : CString} (built : buildHiddenFile path = some h5name) :
    h5name.length = path.length + 5 := by
  rcases Option.map_eq_some_iff.mp built with ⟨filename, found, rfl⟩
  have shorter := length_strrchrSlash_lt found
  simp only [List.length_append, List.length_take, List.length_cons,
    List.length_nil, dotDZF]
  omega

@[simp]
theorem length_tempName (h5name : CString) :
    (tempName h5name).length = h5name.length + 4 := by
  simp [tempName, dotTmp]

theorem buildHiddenFile_ne
    {path h5name : CString} (built : buildHiddenFile path = some h5name) :
    h5name ≠ path := by
  intro equal
  have longer := length_buildHiddenFile built
  rw [equal] at longer
  omega

theorem tempName_ne_image (h5name : CString) :
    tempName h5name ≠ h5name := by
  intro equal
  have longer := length_tempName h5name
  rw [equal] at longer
  omega

theorem tempName_ne_path
    {path h5name : CString} (built : buildHiddenFile path = some h5name) :
    tempName h5name ≠ path := by
  intro equal
  have imageLength := length_buildHiddenFile built
  have tempLength := length_tempName h5name
  rw [equal] at tempLength
  omega

/-! ## Protected and hidden names -/

/--
One call of `strtok(_, "/")`: the next token and the text its cursor is left
at, past the slash that ended the token.
-/
def strtokSlash (text : CString) : Option (CString × CString) :=
  let start := text.dropWhile (· == '/')
  if start = [] then none
  else
    some (start.takeWhile (· != '/'), (start.dropWhile (· != '/')).drop 1)

/-- The token loop of `match_sysdir`; every token uses up a character. -/
def matchSysdirLoop : Nat → CString → Bool
  | 0, _ => false
  | fuel + 1, text =>
      match strtokSlash text with
      | none => false
      | some (token, rest) =>
          if token = dotDzs then true else matchSysdirLoop fuel rest

/-- `match_sysdir(path) == 1`. -/
def match_sysdir (path : CString) : Bool :=
  matchSysdirLoop (path.length + 1) path

/--
`match_hiddenfile(path) == 1`.  `before` is the memory in front of the string:
for a name of four to seven characters the second comparison starts there.
-/
def match_hiddenfile (before path : CString) : Bool :=
  let filename := (strrchrSlash path).getD path
  if filename = ['.'] ∨ filename = ['.', '.'] then true
  else
    decide (4 ≤ filename.length) && filename.head? == some '.' &&
      (dotDZF.isSuffixOf path ||
        (dotDZF ++ dotTmp).isSuffixOf (before ++ path))

/--
The filter `bname[0] == '.' && strcmp(bname + strlen(bname) - 4, ".DZF") == 0`
of `dzfile_creat` and `dzfile_open`.
-/
def illegalName (path bname : CString) : Bool :=
  bname.head? == some '.' && dotDZF.isSuffixOf path

/-- The name of a hidden image is one that the filter refuses. -/
theorem illegalName_buildHiddenFile
    {path h5name : CString} (built : buildHiddenFile path = some h5name) :
    ∃ base, strrchrSlash h5name = some base ∧
      illegalName h5name base = true := by
  rcases Option.map_eq_some_iff.mp built with ⟨filename, found, rfl⟩
  rcases strrchrSlash_eq_some found with ⟨dir, rfl, noSlash⟩
  have cut :
      (dir ++ '/' :: filename).length - filename.length = dir.length + 1 := by
    simp only [List.length_append, List.length_cons]
    omega
  have split :
      (dir ++ '/' :: filename).take (dir.length + 1) ++ ['.'] ++ filename ++
          dotDZF =
        dir ++ '/' :: ('.' :: (filename ++ dotDZF)) := by
    rw [List.take_append, List.take_of_length_le (Nat.le_succ dir.length)]
    simp
  have hiddenNoSlash : '/' ∉ '.' :: (filename ++ dotDZF) := by
    simp [noSlash, dotDZF]
  rw [cut, split]
  refine ⟨_, strrchrSlash_append dir hiddenNoSlash, ?_⟩
  have suffix : dotDZF <:+ dir ++ '/' :: '.' :: (filename ++ dotDZF) :=
    ⟨dir ++ '/' :: '.' :: filename, by simp⟩
  simp [illegalName, suffix]

example : match_sysdir ['/', 'd', '/', '/', '.', 'd', 'z', 's'] = true := by
  decide

example :
    buildHiddenFile ['/', 'd', '/', 'f'] =
      some ['/', 'd', '/', '.', 'f', '.', 'D', 'Z', 'F'] := by
  decide

end DZFile.Names
