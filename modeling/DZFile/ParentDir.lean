import DZFile.Library.FileTree
import DZFile.Protection
import Mathlib.Data.List.DropRight

/-!
# The parent directory of the log file

`make_parent_dir` makes the directory a file is to be created in.  It looks
whether the parent is there, tries to make it, and when that fails because a
directory above is missing it calls itself for the parent and tries once more.

That gives a directory wherever names are missing one inside the other.  There
are two exceptions.  A parent that exists is taken for a directory without a
look at what it is.  And behind a missing name the second try fails for `.`
and `..`, which are there as soon as their directory is, so the whole call
fails although the parent may exist by then.
-/

namespace DZFile.ParentDir

open DZFile.FileTree
open DZFile.Names
open DZFile.Protection

/-! ## `dirname` -/

/-- A character is a slash. -/
def isSlash (char : Char) : Bool :=
  char == '/'

/-- The root as `dirname` writes it: two slashes stay two. -/
def rootOf (slashes : CString) : CString :=
  if slashes.length = 2 then ['/', '/'] else ['/']

/-- `dirname` of the C library. -/
def dirname (path : CString) : CString :=
  let body := path.rdropWhile isSlash
  let head := body.rdropWhile fun char => !isSlash char
  let dir := head.rdropWhile isSlash
  if body = [] then if path = [] then ['.'] else rootOf path
  else if head = [] then ['.']
  else if dir = [] then rootOf head
  else dir

example : dirname "/var/log/dzfile/dzfile".toList = "/var/log/dzfile".toList := by
  decide

/-! ## Components of strings -/

/-- Slashes alone make no component. -/
theorem components_of_slashes
    {slashes : CString} (all : ∀ char ∈ slashes, isSlash char = true) :
    components slashes = [] := by
  induction slashes with
  | nil => exact components_nil
  | cons char rest induction =>
      rcases List.forall_mem_cons.mp all with ⟨slash, all⟩
      rw [isSlash, beq_iff_eq] at slash
      rw [slash, components_slash_cons, induction all]

theorem components_of_noSlash
    {base : CString} (nonempty : base ≠ [])
    (noSlash : ∀ char ∈ base, isSlash char = false) :
    components base = [base] := by
  apply components_of_not_mem nonempty
  intro member
  have slash := noSlash '/' member
  cases slash

/-- Slashes at the end make no difference. -/
theorem components_rdropWhile (path : CString) :
    components (path.rdropWhile isSlash) = components path := by
  induction path using List.reverseRecOn with
  | nil => rfl
  | append_singleton before char induction =>
      by_cases slash : isSlash char = true
      · rw [List.rdropWhile_concat_pos isSlash before char slash, induction]
        rw [isSlash, beq_iff_eq] at slash
        rw [slash, components_append_slash, components_nil, List.append_nil]
      · rw [List.rdropWhile_concat_neg isSlash before char slash]

/-- What remains when slashes are cut off does not end in one. -/
theorem getLast?_rdropWhile_isSlash (path : CString) :
    (path.rdropWhile isSlash).getLast? ≠ some '/' := by
  intro ends
  have nonempty : path.rdropWhile isSlash ≠ [] := by
    intro empty
    rw [empty] at ends
    cases ends
  have last := List.rdropWhile_last_not isSlash path nonempty
  rw [List.getLast?_eq_some_getLast nonempty, Option.some.injEq] at ends
  rw [ends] at last
  exact last rfl

/-- The text behind the last slash of a path that does not end in one. -/
theorem components_rtakeWhile
    {body : CString} (nonempty : body ≠ [])
    (noSlash : body.getLast? ≠ some '/') :
    components (body.rtakeWhile fun char => !isSlash char) =
      [body.rtakeWhile fun char => !isSlash char] := by
  apply components_of_noSlash
  · rw [ne_eq, List.rtakeWhile_eq_nil_iff, not_forall]
    refine ⟨nonempty, ?_⟩
    rw [List.getLast?_eq_some_getLast nonempty, ne_eq,
      Option.some.injEq] at noSlash
    simpa [isSlash] using noSlash
  · intro char member
    simpa using List.mem_rtakeWhile_imp member

/-- In front of the last component there is nothing, or a slash. -/
theorem components_head_append
    {head base : CString}
    (ends : head = [] ∨ head.getLast? = some '/') :
    components (head ++ base) = components head ++ components base := by
  rcases ends with rfl | slash
  · rw [components_nil]
    rfl
  · rcases List.getLast?_eq_some_iff.mp slash with ⟨front, rfl⟩
    rw [List.append_assoc, List.singleton_append, components_append_slash,
      components_append_slash front [], components_nil, List.append_nil]

/-- The part of a path up to a slash ends in one. -/
theorem head_ends_in_slash (body : CString) :
    body.rdropWhile (fun char => !isSlash char) = [] ∨
      (body.rdropWhile fun char => !isSlash char).getLast? = some '/' := by
  by_cases empty : body.rdropWhile (fun char => !isSlash char) = []
  · exact Or.inl empty
  · have last :=
      List.rdropWhile_last_not (fun char => !isSlash char) body empty
    right
    rw [List.getLast?_eq_some_getLast empty]
    simpa [isSlash] using last

theorem head?_of_prefix
    {before path : CString} (isPrefix : before <+: path)
    (nonempty : before ≠ []) :
    before.head? = path.head? := by
  rcases isPrefix with ⟨rest, rfl⟩
  exact (List.head?_append_of_ne_nil before nonempty).symm

/-! ## What `dirname` returns -/

theorem rootOf_cases (slashes : CString) :
    rootOf slashes = ['/'] ∨ rootOf slashes = ['/', '/'] := by
  rw [rootOf]
  split_ifs
  · exact Or.inr rfl
  · exact Or.inl rfl

/-- A path of slashes is the root, and the empty one is the current directory. -/
theorem dirname_of_slashes
    {path : CString} (slashes : ∀ char ∈ path, isSlash char = true) :
    (components path).dropLast = [] ∧
      (dirname path = ['.'] ∧ path.head? ≠ some '/' ∨
        (dirname path = ['/'] ∨ dirname path = ['/', '/']) ∧
          path.head? = some '/') := by
  refine ⟨by rw [components_of_slashes slashes]; rfl, ?_⟩
  unfold dirname
  dsimp only
  rw [if_pos (List.rdropWhile_eq_nil_iff.mpr slashes)]
  by_cases nothing : path = []
  · subst nothing
    exact Or.inl ⟨rfl, by simp⟩
  · rw [if_neg nothing]
    rcases List.exists_cons_of_ne_nil nothing with ⟨char, rest, rfl⟩
    have slash := slashes char List.mem_cons_self
    rw [isSlash, beq_iff_eq] at slash
    refine Or.inr ⟨rootOf_cases _, ?_⟩
    rw [slash]
    rfl

/--
`dirname` returns `.` for a single relative component and for nothing, one of
the names of the root where the path has nothing below it but one component,
and otherwise a shorter path with all components but the last.
-/
theorem dirname_cases (path : CString) :
    (dirname path = ['.'] ∧ path.head? ≠ some '/' ∧
        (components path).dropLast = []) ∨
      ((dirname path = ['/'] ∨ dirname path = ['/', '/']) ∧
        path.head? = some '/' ∧ (components path).dropLast = []) ∨
      (components (dirname path) = (components path).dropLast ∧
        (dirname path).head? = path.head? ∧ dirname path ≠ [] ∧
          (dirname path).getLast? ≠ some '/' ∧
            (dirname path).length < path.length) := by
  by_cases empty : path.rdropWhile isSlash = []
  · rcases dirname_of_slashes (List.rdropWhile_eq_nil_iff.mp empty) with
      ⟨front, ⟨same, relative⟩ | ⟨same, absolute⟩⟩
    · exact Or.inl ⟨same, relative, front⟩
    · exact Or.inr (Or.inl ⟨same, absolute, front⟩)
  · have bodyPrefix := List.rdropWhile_prefix isSlash (l := path)
    have bodyComponents := components_rdropWhile path
    have bodyEnds := getLast?_rdropWhile_isSlash path
    unfold dirname
    generalize path.rdropWhile isSlash = body at *
    dsimp only
    rw [if_neg empty]
    have split :=
      List.rdropWhile_append_rtakeWhile (p := fun char => !isSlash char)
        (l := body)
    have last := components_rtakeWhile empty bodyEnds
    have headEnds := head_ends_in_slash body
    have baseFree : ∀ char ∈ body.rtakeWhile (fun char => !isSlash char),
        isSlash char = false := by
      intro char member
      simpa using List.mem_rtakeWhile_imp member
    generalize body.rdropWhile (fun char => !isSlash char) = head at *
    generalize body.rtakeWhile (fun char => !isSlash char) = base at *
    have whole : components path = components head ++ [base] := by
      rw [← bodyComponents, ← split, components_head_append headEnds, last]
    have front : (components path).dropLast = components head := by
      rw [whole, List.dropLast_concat]
    by_cases single : head = []
    · rw [if_pos single]
      refine Or.inl ⟨rfl, ?_, by rw [front, single, components_nil]⟩
      rw [← head?_of_prefix bodyPrefix empty]
      intro slash
      rw [single, List.nil_append] at split
      rw [← split] at slash
      have free := baseFree '/' (List.mem_of_mem_head? slash)
      cases free
    · rw [if_neg single]
      have headPrefix : head <+: path :=
        List.IsPrefix.trans ⟨base, split⟩ bodyPrefix
      have dirPrefix := List.rdropWhile_prefix isSlash (l := head)
      have dirEnds := getLast?_rdropWhile_isSlash head
      have dirComponents := components_rdropWhile head
      have dirNil := List.rdropWhile_eq_nil_iff (p := isSlash) (l := head)
      generalize head.rdropWhile isSlash = dir at *
      by_cases root : dir = []
      · rw [if_pos root]
        rw [root, components_nil] at dirComponents
        refine Or.inr (Or.inl ⟨rootOf_cases _, ?_, ?_⟩)
        · rw [← head?_of_prefix headPrefix single]
          rcases List.exists_cons_of_ne_nil single with ⟨char, rest, rfl⟩
          have slash := dirNil.mp root char List.mem_cons_self
          rw [isSlash, beq_iff_eq] at slash
          rw [slash]
          rfl
        · rw [front, ← dirComponents]
      · rw [if_neg root]
        have shorter : dir.length < head.length := by
          apply lt_of_le_of_ne dirPrefix.length_le
          intro same
          have equal := dirPrefix.eq_of_length same
          rw [equal] at dirEnds
          exact dirEnds (headEnds.resolve_left single)
        refine
          Or.inr (Or.inr ⟨by rw [front, dirComponents], ?_, root, dirEnds, ?_⟩)
        · exact head?_of_prefix (dirPrefix.trans headPrefix) root
        · exact lt_of_lt_of_le shorter headPrefix.length_le

/-! ## The calls -/

/-- A component of a path string. -/
def component (name : CString) : Component CString :=
  if name = ['.'] then .here
  else if name = ['.', '.'] then .up
  else .name name

/-- The components of a path. -/
def parts (path : CString) : List (Component CString) :=
  (components path).map component

/-- The tree and the directory the process is in. -/
structure World where
  tree : FileTree.Tree CString
  cwd : List CString
  isDir : tree.kinds cwd = some .directory

namespace World

/-- Where the walk of a path starts. -/
def origin (world : World) (path : CString) : List CString :=
  if path.head? = some '/' then [] else world.cwd

/-- A slash at the end of a path stands for the directory itself. -/
def trailing (path : CString) : List (Component CString) :=
  if path.getLast? = some '/' then [.here] else []

/-- `lstat`, as far as its result is looked at. -/
def lstat (world : World) (path : CString) : Except Failure Kind :=
  if path = [] then .error .missing
  else
    lookup world.tree.kinds (world.origin path) (parts path ++ trailing path)

/-- `mkdir`. -/
def mkdir (world : World) (path : CString) : Except Failure World :=
  if path = [] then .error .missing
  else
    match made : world.tree.mkdir (world.origin path) (parts path) with
    | .ok later => .ok ⟨later, world.cwd, Tree.mkdir_kept made world.isDir⟩
    | .error failure => .error failure

end World

section Lookup

variable {world : World} {path : CString}

theorem origin_isDir (world : World) (path : CString) :
    world.tree.kinds (world.origin path) = some .directory := by
  rw [World.origin]
  split_ifs
  · exact world.tree.root
  · exact world.isDir

theorem origin_present (world : World) (path : CString) :
    world.tree.kinds (world.origin path) ≠ none := by
  rw [origin_isDir]
  exact Option.some_ne_none _

/-- A path without a slash at its end is looked up component by component. -/
theorem lstat_eq
    (nonempty : path ≠ []) (noSlash : path.getLast? ≠ some '/') :
    world.lstat path =
      lookup world.tree.kinds (world.origin path) (parts path) := by
  rw [World.lstat, if_neg nonempty, World.trailing, if_neg noSlash,
    List.append_nil]

/-- The names `dirname` has for the root and for the current directory. -/
theorem lstat_of_fixed
    (fixed : path = ['.'] ∨ path = ['/'] ∨ path = ['/', '/']) :
    world.lstat path = .ok .directory := by
  have onlyHere : parts path ++ World.trailing path = [.here] := by
    rcases fixed with rfl | rfl | rfl <;> decide
  have nonempty : path ≠ [] := by
    rcases fixed with rfl | rfl | rfl <;> simp
  rw [World.lstat, if_neg nonempty, onlyHere, lookup, walk, step,
    if_pos (origin_isDir world path)]
  show (world.tree.kinds (world.origin path)).elim _ _ = _
  rw [origin_isDir]
  rfl

end Lookup

/--
What `dirname` returns is shorter unless it is one of the names that are
always there.
-/
theorem dirname_shorter
    {world : World} {path : CString}
    (missing : world.lstat (dirname path) = .error .missing) :
    (dirname path).length < path.length := by
  rcases dirname_cases path with
    ⟨same, _⟩ | ⟨same | same, _⟩ | ⟨_, _, _, _, shorter⟩
  · rw [lstat_of_fixed (Or.inl same)] at missing
    cases missing
  · rw [lstat_of_fixed (Or.inr (Or.inl same))] at missing
    cases missing
  · rw [lstat_of_fixed (Or.inr (Or.inr same))] at missing
    cases missing
  · exact shorter

/-! ## The function -/

/-- `make_parent_dir`: what it returns and what it leaves. -/
def make_parent_dir (world : World) (path : CString) : Int × World :=
  match found : world.lstat (dirname path) with
  | .ok _ => (0, world)
  | .error .missing =>
      match world.mkdir (dirname path) with
      | .ok later => (0, later)
      | .error .missing =>
          let (rc, later) := make_parent_dir world (dirname path)
          if rc = 0 then
            match later.mkdir (dirname path) with
            | .ok last => (0, last)
            | .error _ => (-1, later)
          else (-1, later)
      | .error .alreadyThere => (0, world)
      | .error .notDirectory => (-1, world)
  | .error _ => (-1, world)
termination_by path.length
decreasing_by exact dirname_shorter found

/-! ## One level -/

section Level

variable {world : World} {path : CString}

/-- The path `dirname` returns is looked up component by component. -/
theorem lstat_dirname (world : World) (path : CString) :
    world.lstat (dirname path) =
      lookup world.tree.kinds (world.origin (dirname path))
        (parts (dirname path)) := by
  rcases dirname_cases path with
    ⟨same, _⟩ | ⟨same | same, _⟩ | ⟨_, _, nonempty, noSlash, _⟩
  · rw [lstat_eq (by simp [same]) (by simp [same])]
  · rw [lstat_of_fixed (Or.inr (Or.inl same)), same]
    show _ = lookup world.tree.kinds [] []
    simp [lookup, walk, Except.bind, world.tree.root]
  · rw [lstat_of_fixed (Or.inr (Or.inr same)), same]
    show _ = lookup world.tree.kinds [] []
    simp [lookup, walk, Except.bind, world.tree.root]
  · exact lstat_eq nonempty noSlash

theorem dirname_ne_nil (path : CString) : dirname path ≠ [] := by
  rcases dirname_cases path with
    ⟨same, _⟩ | ⟨same | same, _⟩ | ⟨_, _, nonempty, _⟩
  · simp [same]
  · simp [same]
  · simp [same]
  · exact nonempty

/-- Where the walk to a parent fails, `dirname` returns that parent. -/
theorem parts_dirname
    {before : List (Component CString)} {last : Component CString}
    {failure : Failure}
    (split : parts path = before ++ [last])
    (failed :
      walk world.tree.kinds (world.origin path) before = .error failure) :
    parts (dirname path) = before ∧
      ∀ other : World,
        other.origin (dirname path) = other.origin path := by
  have front : ((components path).dropLast).map component = before := by
    have cut : (before ++ [last]).dropLast = before := List.dropLast_concat
    rw [← cut, ← split, parts, List.map_dropLast]
  have notEmpty : (components path).dropLast ≠ [] := by
    intro empty
    rw [empty] at front
    rw [← front] at failed
    cases failed
  rcases dirname_cases path with
    ⟨_, _, empty⟩ | ⟨_, _, empty⟩ | ⟨whole, sameHead, _⟩
  · exact (notEmpty empty).elim
  · exact (notEmpty empty).elim
  · refine ⟨by rw [parts, whole, front], fun other => ?_⟩
    rw [World.origin, World.origin, sameHead]

theorem mkdir_of_ok
    {later : FileTree.Tree CString} (nonempty : path ≠ [])
    (made : world.tree.mkdir (world.origin path) (parts path) = .ok later) :
    ∃ isDir, world.mkdir path = .ok ⟨later, world.cwd, isDir⟩ := by
  refine ⟨Tree.mkdir_kept made world.isDir, ?_⟩
  rw [World.mkdir, if_neg nonempty]
  split
  · rename_i other made'
    rw [made] at made'
    cases made'
    rfl
  · rename_i failure failed
    rw [made] at failed
    cases failed

theorem mkdir_of_error
    {failure : Failure} (nonempty : path ≠ [])
    (failed :
      world.tree.mkdir (world.origin path) (parts path) = .error failure) :
    world.mkdir path = .error failure := by
  rw [World.mkdir, if_neg nonempty]
  split
  · rename_i later made
    rw [failed] at made
    cases made
  · rename_i other failed'
    rw [failed] at failed'
    cases failed'
    rfl

/-- The parent is there, whatever it is. -/
theorem make_parent_dir_of_present
    {kind : Kind} (found : world.lstat (dirname path) = .ok kind) :
    make_parent_dir world path = (0, world) := by
  rw [make_parent_dir]
  split
  · rfl
  · rename_i missing
    rw [found] at missing
    cases missing
  · rename_i failed
    rw [found] at failed
    cases failed

/-- The walk to the parent fails, and not because a name is missing. -/
theorem make_parent_dir_of_refused
    {failure : Failure} (found : world.lstat (dirname path) = .error failure)
    (other : failure ≠ .missing) :
    make_parent_dir world path = (-1, world) := by
  rw [make_parent_dir]
  split
  · rename_i present
    rw [found] at present
    cases present
  · rename_i missing
    rw [found] at missing
    cases missing
    exact (other rfl).elim
  · rfl

/-- The parent is all that is missing. -/
theorem make_parent_dir_of_made
    {later : World}
    (missing : world.lstat (dirname path) = .error .missing)
    (made : world.mkdir (dirname path) = .ok later) :
    make_parent_dir world path = (0, later) := by
  rw [make_parent_dir]
  split
  · rename_i present
    rw [missing] at present
    cases present
  · simp only [made]
  · rename_i other failed
    rw [missing] at failed
    cases failed
    exact (other rfl).elim

/-- The parent cannot be made, and not because a name is missing. -/
theorem make_parent_dir_of_tried
    {failure : Failure} (missing : world.lstat (dirname path) = .error .missing)
    (failed : world.mkdir (dirname path) = .error failure)
    (other : failure ≠ .missing) :
    make_parent_dir world path =
      (if failure = .alreadyThere then 0 else -1, world) := by
  rw [make_parent_dir]
  split
  · rename_i present
    rw [missing] at present
    cases present
  · cases failure with
    | missing => exact (other rfl).elim
    | notDirectory => simp only [failed]; rfl
    | alreadyThere => simp only [failed]; rfl
  · rename_i same failed'
    rw [missing] at failed'
    cases failed'
    exact (same rfl).elim

/-- More than the parent is missing. -/
theorem make_parent_dir_of_deeper
    (missing : world.lstat (dirname path) = .error .missing)
    (deeper : world.mkdir (dirname path) = .error .missing) :
    (∀ rc later, make_parent_dir world (dirname path) = (rc, later) →
        rc ≠ 0 → make_parent_dir world path = (-1, later)) ∧
      ∀ later, make_parent_dir world (dirname path) = (0, later) →
        (∀ last, later.mkdir (dirname path) = .ok last →
            make_parent_dir world path = (0, last)) ∧
          ∀ failure, later.mkdir (dirname path) = .error failure →
            make_parent_dir world path = (-1, later) := by
  rw [make_parent_dir.eq_def world path]
  split
  · rename_i present
    rw [missing] at present
    cases present
  · simp only [deeper]
    constructor
    · intro rc later inner failed
      rw [inner]
      exact if_neg failed
    · intro later inner
      rw [inner]
      constructor
      · intro last made
        simp only [made, if_true]
      · intro failure failed
        simp only [failed, if_true]
  · rename_i other failed
    rw [missing] at failed
    cases failed
    exact (other rfl).elim

end Level

/-! ## All levels -/

/--
The names of the gap have been made; the call succeeds if nothing else was
behind them.
-/
def Filled
    (world : World) (hole : Gap CString) (result : Int × World) : Prop :=
  result.1 = (if hole.rest = [] then 0 else -1) ∧
    result.2.tree.kinds = fill world.tree.kinds hole ∧
      result.2.cwd = world.cwd

/-- The gap in front of the parent of a path. -/
def parentGap (world : World) (path : CString) : Option (Gap CString) :=
  gap world.tree.kinds (world.origin (dirname path)) (parts (dirname path))

theorem lstat_missing_iff (world : World) (path : CString) :
    world.lstat (dirname path) = .error .missing ↔
      (parentGap world path).isSome := by
  rw [lstat_dirname, lookup_eq_error_iff (origin_present world _), parentGap,
    gap_isSome_iff]

/-- One more name behind a filled gap. -/
theorem fill_extend_name
    (kinds : Kinds CString) {hole : Gap CString} (name : CString)
    (noRest : hole.rest = []) :
    fill kinds (hole.extend (.name name)) =
      Function.update (fill kinds hole)
        (hole.location ++ hole.names ++ [name]) (some .directory) := by
  simp only [fill, Gap.extend, noRest, if_true, leadingNames,
    chain_append, chain, withDirectories_append_singleton]

/-- What is no name does not lengthen the names of a gap. -/
theorem fill_extend_rest
    (kinds : Kinds CString) {hole : Gap CString}
    {last : Component CString}
    (noName : hole.rest = [] → last = .here ∨ last = .up) :
    fill kinds (hole.extend last) = fill kinds hole ∧
      (hole.extend last).rest ≠ [] := by
  by_cases noRest : hole.rest = []
  · rcases noName noRest with rfl | rfl <;>
      simp [fill, Gap.extend, noRest, leadingNames, behindNames]
  · simp [fill, Gap.extend, noRest]

/--
Behind a filled gap the second try makes a name, and fails for `.` and `..`.
-/
theorem second_try
    {world later : World} {path : CString} {inner : Gap CString}
    {before : List (Component CString)} {last : Component CString}
    (nonempty : path ≠ []) (split : parts path = before ++ [last])
    (found :
      gap world.tree.kinds (world.origin path) before = some inner)
    (noRest : inner.rest = [])
    (filled : later.tree.kinds = fill world.tree.kinds inner)
    (sameCwd : later.cwd = world.cwd) :
    (∃ name final, last = .name name ∧ later.mkdir path = .ok final ∧
        final.tree.kinds = fill world.tree.kinds (inner.extend last) ∧
          final.cwd = world.cwd) ∨
      ((last = .here ∨ last = .up) ∧
        later.mkdir path = .error .alreadyThere) := by
  have sameOrigin : later.origin path = world.origin path := by
    rw [World.origin, World.origin, sameCwd]
  rcases walk_fill found with ⟨walked, isDir⟩
  rw [noRest, ← filled, ← sameOrigin] at walked
  rw [← filled] at isDir
  have reached :
      walk later.tree.kinds (later.origin path) before =
        .ok (inner.location ++ inner.names) :=
    walked
  cases last with
  | name name =>
      have absent := fill_absent found name
      rw [← filled] at absent
      have made := Tree.mkdir_of_absent reached isDir absent
      rw [← split] at made
      rcases mkdir_of_ok nonempty made with ⟨stillDir, making⟩
      refine Or.inl ⟨name, _, rfl, making, ?_, sameCwd⟩
      rw [fill_extend_name world.tree.kinds name noRest, ← filled]
      rfl
  | here =>
      have failed := Tree.mkdir_of_dot reached isDir (Or.inl rfl)
      rw [← split] at failed
      exact Or.inr ⟨Or.inl rfl, mkdir_of_error nonempty failed⟩
  | up =>
      have failed := Tree.mkdir_of_dot reached isDir (Or.inr rfl)
      rw [← split] at failed
      exact Or.inr ⟨Or.inr rfl, mkdir_of_error nonempty failed⟩

/-- The last component alone is missing, and is made. -/
theorem fills_of_reached
    {world : World} {path : CString} {hole : Gap CString}
    {before : List (Component CString)} {last : Component CString}
    {parent : List CString}
    (missing : world.lstat (dirname path) = .error .missing)
    (split : parts (dirname path) = before ++ [last])
    (walked :
      walk world.tree.kinds (world.origin (dirname path)) before =
        .ok parent)
    (lastMissing : step world.tree.kinds parent last = .error .missing)
    (found : parentGap world path = some hole) :
    Filled world hole (make_parent_dir world path) := by
  rw [parentGap, split, gap_of_last walked lastMissing] at found
  rcases exists_name_of_missing lastMissing with ⟨name, rfl, isDir, absent⟩
  have made := Tree.mkdir_of_absent walked isDir absent
  rw [← split] at made
  rcases mkdir_of_ok (dirname_ne_nil path) made with ⟨stillDir, making⟩
  rw [make_parent_dir_of_made missing making]
  cases found
  refine ⟨rfl, ?_, rfl⟩
  have single :=
    withDirectories_append_singleton world.tree.kinds [] (parent ++ [name])
  rw [withDirectories_nil] at single
  exact single.symm

/-- A component that makes no name ends the call with an error. -/
theorem filled_of_stuck
    {world later : World} {inner : Gap CString} {last : Component CString}
    (noName : inner.rest = [] → last = .here ∨ last = .up)
    (kindsEq : later.tree.kinds = fill world.tree.kinds inner)
    (cwdEq : later.cwd = world.cwd) :
    Filled world (inner.extend last) (-1, later) := by
  have same := fill_extend_rest world.tree.kinds noName
  refine ⟨?_, ?_, cwdEq⟩
  · rw [if_neg same.2]
  · rw [same.1]
    exact kindsEq

/--
More than the last component is missing: the call for the parent fills the gap
up to there, and the second try goes one component further.
-/
theorem fills_of_deeper
    {world : World} {path : CString} {inner : Gap CString}
    {before : List (Component CString)} {last : Component CString}
    (missing : world.lstat (dirname path) = .error .missing)
    (split : parts (dirname path) = before ++ [last])
    (walked :
      walk world.tree.kinds (world.origin (dirname path)) before =
        .error .missing)
    (found :
      gap world.tree.kinds (world.origin (dirname path)) before =
        some inner)
    (filled : Filled world inner (make_parent_dir world (dirname path))) :
    Filled world (inner.extend last) (make_parent_dir world path) := by
  have nonempty := dirname_ne_nil path
  have deeper :=
    mkdir_of_error nonempty (split ▸ Tree.mkdir_of_walk_error last walked)
  have steps := make_parent_dir_of_deeper missing deeper
  rcases called : make_parent_dir world (dirname path) with ⟨rc, later⟩
  rw [called] at filled
  rcases filled with ⟨rcEq, kindsEq, cwdEq⟩
  dsimp only at rcEq kindsEq cwdEq
  by_cases noRest : inner.rest = []
  · rw [if_pos noRest] at rcEq
    subst rcEq
    rcases second_try nonempty split found noRest kindsEq cwdEq with
      ⟨name, final, rfl, made, finalKinds, finalCwd⟩ | ⟨dot, failed⟩
    · rw [(steps.2 later called).1 final made]
      refine ⟨?_, finalKinds, finalCwd⟩
      rw [Gap.extend, noRest]
      rfl
    · rw [(steps.2 later called).2 _ failed]
      exact filled_of_stuck (fun _ => dot) kindsEq cwdEq
  · rw [if_neg noRest] at rcEq
    subst rcEq
    rw [steps.1 _ later called (by decide)]
    exact
      filled_of_stuck (fun empty => absurd empty noRest) kindsEq cwdEq

/-- The names of the gap are made one inside the other. -/
theorem make_parent_dir_fills
    {world : World} {path : CString} {hole : Gap CString}
    (found : parentGap world path = some hole) :
    Filled world hole (make_parent_dir world path) := by
  induction size : path.length using Nat.strong_induction_on
    generalizing path hole with
  | _ size induction =>
  subst size
  have missing : world.lstat (dirname path) = .error .missing := by
    rw [lstat_missing_iff, found]
    rfl
  rcases List.eq_nil_or_concat (parts (dirname path)) with
    empty | ⟨before, last, split⟩
  · rw [parentGap, empty] at found
    cases found
  rw [List.concat_eq_append] at split
  have whole :
      walk world.tree.kinds (world.origin (dirname path)) (before ++ [last]) =
        .error .missing := by
    rw [← gap_isSome_iff, ← split]
    rw [parentGap] at found
    rw [found]
    rfl
  rw [walk_append_singleton] at whole
  cases walked :
    walk world.tree.kinds (world.origin (dirname path)) before with
  | ok parent =>
      rw [walked] at whole
      exact fills_of_reached missing split walked whole found
  | error failure =>
      rw [walked] at whole
      cases whole
      rcases Option.isSome_iff_exists.mp ((gap_isSome_iff before).mpr walked)
        with ⟨inner, foundInner⟩
      have grown := gap_append_singleton foundInner last
      rw [← split] at grown
      rw [parentGap, grown] at found
      cases found
      rcases parts_dirname split walked with ⟨innerParts, sameOrigin⟩
      have innerGap : parentGap world (dirname path) = some inner := by
        rw [parentGap, innerParts, sameOrigin]
        exact foundInner
      have filled :=
        induction (dirname path).length (dirname_shorter missing) innerGap rfl
      exact fills_of_deeper missing split walked foundInner filled

/-! ## What the call delivers -/

/-- The path is looked up and a directory is found. -/
def IsDirectory (world : World) (path : CString) : Prop :=
  world.lstat path = .ok .directory

/-- A place the directory part of a path leads through. -/
def Ancestor (world : World) (path : CString) (place : List CString) : Prop :=
  ∃ front, front <+: parts (dirname path) ∧
    walk world.tree.kinds (world.origin (dirname path)) front = .ok place

/--
The call returns 0 exactly if the parent is a directory afterwards; what was
there is as it was, and what is new is a directory above the path.
-/
def Delivers (world : World) (path : CString) : Prop :=
  let result := make_parent_dir world path
  (result.1 = 0 ↔ IsDirectory result.2 (dirname path)) ∧
    (∀ place kind, world.tree.kinds place = some kind →
      result.2.tree.kinds place = some kind) ∧
      ∀ place, world.tree.kinds place = none →
        result.2.tree.kinds place ≠ none →
          result.2.tree.kinds place = some .directory ∧
            Ancestor result.2 path place

/--
Behind the names that are missing comes `.` or `..`, and from there the rest
of the parent's path leads to a directory.
-/
def DotsBehindGap (world : World) (path : CString) : Prop :=
  ∃ hole, parentGap world path = some hole ∧ hole.rest ≠ [] ∧
    lookup (fill world.tree.kinds hole) (hole.location ++ hole.names)
        hole.rest =
      .ok .directory

/-- A call that changes nothing delivers what it says it has found. -/
theorem delivers_of_unchanged
    {world : World} {path : CString} {ret : Int}
    (unchanged : make_parent_dir world path = (ret, world)) :
    Delivers world path ↔ (ret = 0 ↔ IsDirectory world (dirname path)) := by
  rw [Delivers, unchanged]
  constructor
  · exact fun delivers => delivers.1
  · intro found
    exact
      ⟨found, fun _ _ present => present,
        fun _ absent present => absurd absent present⟩

/-- A call that has filled a gap. -/
theorem delivers_of_gap
    {world : World} {path : CString} {hole : Gap CString}
    (found : parentGap world path = some hole) :
    Delivers world path ↔ ¬ DotsBehindGap world path := by
  have filled := make_parent_dir_fills found
  have behind : DotsBehindGap world path ↔
      hole.rest ≠ [] ∧
        lookup (fill world.tree.kinds hole) (hole.location ++ hole.names)
            hole.rest =
          .ok .directory := by
    simp [DotsBehindGap, found]
  rw [behind, Delivers]
  generalize make_parent_dir world path = result at filled
  rcases result with ⟨ret, later⟩
  rcases filled with ⟨retEq, kindsEq, cwdEq⟩
  dsimp only at retEq kindsEq cwdEq ⊢
  have sameOrigin :
      later.origin (dirname path) = world.origin (dirname path) := by
    rw [World.origin, World.origin, cwdEq]
  rcases walk_fill found with ⟨walked, isDir⟩
  have looked :
      IsDirectory later (dirname path) ↔
        lookup (fill world.tree.kinds hole) (hole.location ++ hole.names)
            hole.rest =
          .ok .directory := by
    rw [IsDirectory, lstat_dirname, sameOrigin, kindsEq, lookup, lookup,
      walked]
  have kept : ∀ place kind, world.tree.kinds place = some kind →
      later.tree.kinds place = some kind := by
    rw [kindsEq]
    exact fill_kept found
  have added : ∀ place, world.tree.kinds place = none →
      later.tree.kinds place ≠ none →
        later.tree.kinds place = some .directory ∧
          Ancestor later path place := by
    intro place absent present
    rw [kindsEq] at present ⊢
    have new : place ∈ chain hole.location hole.names := by
      by_contra outside
      rw [fill, withDirectories, if_neg outside] at present
      exact present absent
    rw [Ancestor, sameOrigin, kindsEq]
    exact ⟨if_pos new, walk_to_filled found new⟩
  rw [looked, and_iff_left ⟨kept, added⟩, retEq]
  by_cases noRest : hole.rest = []
  · rw [if_pos noRest, noRest]
    have here :
        lookup (fill world.tree.kinds hole) (hole.location ++ hole.names) [] =
          .ok .directory := by
      simp [lookup, walk, Except.bind, isDir]
    simp [here]
  · rw [if_neg noRest]
    simp [noRest]

/--
`make_parent_dir` delivers unless the parent exists as a file, or `.` or `..`
behind a missing name leads to a directory.
-/
theorem delivers_iff (world : World) (path : CString) :
    Delivers world path ↔
      world.lstat (dirname path) ≠ .ok .file ∧
        ¬ DotsBehindGap world path := by
  have noGap : world.lstat (dirname path) ≠ .error .missing →
      ¬ DotsBehindGap world path := by
    rintro present ⟨hole, found, _⟩
    apply present
    rw [lstat_missing_iff, found]
    rfl
  cases looked : world.lstat (dirname path) with
  | ok kind =>
      rw [delivers_of_unchanged (make_parent_dir_of_present looked),
        IsDirectory, looked]
      rw [looked] at noGap
      cases kind with
      | directory => simp [noGap]
      | file => simp
  | error failure =>
      cases failure with
      | missing =>
          rcases Option.isSome_iff_exists.mp
            ((lstat_missing_iff world path).mp looked) with ⟨hole, found⟩
          rw [delivers_of_gap found]
          simp
      | notDirectory =>
          rw [delivers_of_unchanged (make_parent_dir_of_refused looked nofun),
            IsDirectory, looked]
          rw [looked] at noGap
          simp [noGap]
      | alreadyThere =>
          rw [lstat_dirname,
            lookup_eq_error_iff (origin_present world _)] at looked
          exact (walk_ne_alreadyThere _ looked).elim

/-- A tree with one regular file `/f`. -/
def oneFile : FileTree.Tree CString where
  kinds location :=
    if location = [] then some .directory
    else if location = [['f']] then some .file
    else none
  root := rfl
  parent := by
    intro location name present
    by_cases inRoot : location = []
    · rw [if_pos inRoot]
    · rw [if_neg (by simp), if_neg] at present
      · exact (present rfl).elim
      · intro same
        have short := congrArg List.length same
        rw [List.length_append, List.length_singleton] at short
        exact inRoot (List.length_eq_zero_iff.mp (by simpa using short))

/-- The parent of `/f/g` exists, but it is no directory. -/
theorem file_taken_for_parent :
    ¬ ∀ world path, Delivers world path := by
  intro always
  have delivers := always ⟨oneFile, [], rfl⟩ "/f/g".toList
  have isFile :
      World.lstat ⟨oneFile, [], rfl⟩ (dirname "/f/g".toList) = .ok .file := by
    decide
  rw [delivers_of_unchanged (make_parent_dir_of_present isFile),
    IsDirectory, isFile] at delivers
  exact absurd delivers (by decide)

end DZFile.ParentDir
