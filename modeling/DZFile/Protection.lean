import DZFile.Opening
import Mathlib.Data.List.TakeWhile

/-!
# The protected directory

`match_sysdir` scans a path for the component `.dzs`.  The scan is exact, and
four of the five functions that change the file system by name make it before
they do anything else.  `dzfile_truncate` does not make it, and `dzfile_creat`
looks for the last slash of the path first.
-/

namespace DZFile.Protection

open DZFile.Interaction
open DZFile.Names
open DZFile.Kernel
open DZFile.Api
open DZFile.Opening

/-! ## The scan -/

/-- The components of a path; runs of slashes separate once. -/
def components (path : CString) : List CString :=
  (path.splitOn '/').filter (· ≠ [])

theorem components_slash_cons (path : CString) :
    components ('/' :: path) = components path := by
  have split := List.splitOn_append_cons_self (a := '/') [] path
  simp only [List.nil_append, List.splitOn_nil] at split
  simp [components, split]

/-- A slash separates the components in front of it from those behind. -/
theorem components_append_slash (before after : CString) :
    components (before ++ '/' :: after) =
      components before ++ components after := by
  rw [components, List.splitOn_append_cons_self, List.filter_append]
  rfl

theorem components_nil : components [] = [] := by
  simp [components]

/-- A text without a slash is a component. -/
theorem components_of_not_mem
    {base : CString} (nonempty : base ≠ []) (noSlash : '/' ∉ base) :
    components base = [base] := by
  simp [components, List.splitOn_eq_singleton noSlash, nonempty]

/-- Leading slashes separate nothing. -/
theorem components_dropWhile (path : CString) :
    components (path.dropWhile (· == '/')) = components path := by
  induction path with
  | nil => rfl
  | cons char rest induction =>
      by_cases slash : char = '/'
      · subst slash
        rw [List.dropWhile_cons_of_pos (by simp), induction,
          components_slash_cons]
      · rw [List.dropWhile_cons_of_neg (by simpa using slash)]

/-- A path that starts with a component goes on with the others. -/
theorem components_eq_cons
    {path : CString} (nonempty : path ≠ []) (noSlash : path.head? ≠ some '/') :
    components path =
      path.takeWhile (· != '/') ::
        components ((path.dropWhile (· != '/')).drop 1) := by
  have split := List.takeWhile_append_dropWhile (p := (· != '/')) (l := path)
  have component : '/' ∉ path.takeWhile (· != '/') := by
    intro member
    simpa using List.mem_takeWhile_imp member
  have first : path.takeWhile (· != '/') ≠ [] := by
    cases path with
    | nil => exact (nonempty rfl).elim
    | cons char rest =>
        have other : char ≠ '/' := by simpa using noSlash
        simp [other]
  cases rest : path.dropWhile (· != '/') with
  | nil =>
      rw [rest, List.append_nil] at split
      have whole := List.splitOn_eq_singleton component
      rw [split] at whole first ⊢
      simp [components, whole, first]
  | cons char later =>
      have slash : char = '/' := by
        have head := List.head?_dropWhile_not (fun c => c != '/') path
        rw [rest] at head
        simpa using head
      subst slash
      rw [rest] at split
      have parts :=
        List.splitOn_append_cons_self_of_not_mem component later
      rw [split] at parts
      simp only [components, parts, List.drop_succ_cons, List.drop_zero]
      rw [List.filter_cons_of_pos (by simpa using first)]

/-- With enough fuel the loop finds the component wherever it stands. -/
theorem matchSysdirLoop_eq_true_iff
    {fuel : Nat} {path : CString} (enough : path.length < fuel) :
    matchSysdirLoop fuel path = true ↔ dotDzs ∈ components path := by
  induction fuel generalizing path with
  | zero => omega
  | succ fuel induction =>
      rw [matchSysdirLoop, strtokSlash, ← components_dropWhile]
      by_cases ended : path.dropWhile (· == '/') = []
      · simp [ended, components]
      · have noSlash : (path.dropWhile (· == '/')).head? ≠ some '/' := by
          have head := List.head?_dropWhile_not (fun c => c == '/') path
          intro slash
          rw [slash] at head
          simp at head
        have shorter :
            (((path.dropWhile (· == '/')).dropWhile (· != '/')).drop 1).length <
              fuel := by
          have first :=
            (List.dropWhile_suffix (l := path) (· == '/')).length_le
          have second :=
            (List.dropWhile_suffix (l := path.dropWhile (· == '/'))
              (· != '/')).length_le
          have positive := List.length_pos_of_ne_nil ended
          simp only [List.length_drop]
          omega
        rw [if_neg ended, components_eq_cons ended noSlash]
        simp only [List.mem_cons]
        split
        · rename_i found
          simp [found]
        · rename_i other
          rw [induction shorter]
          simp [Ne.symm other]

/-- `match_sysdir` is exact. -/
theorem match_sysdir_eq_true_iff (path : CString) :
    match_sysdir path = true ↔ dotDzs ∈ components path :=
  matchSysdirLoop_eq_true_iff (Nat.lt_succ_self path.length)

/-! ## The functions that change names -/

/-- The functions that take a path and can change the file system. -/
inductive PathCall where
  | dzfile_creat
  | dzfile_open (flags : Nat)
  | dzfile_unlink
  | dzfile_mkdir
  | dzfile_truncate (length : Int)
deriving DecidableEq

/-- The program of a call on a path. -/
def PathCall.program (path : CString) : PathCall → Call Int
  | .dzfile_creat => Api.dzfile_creat path
  | .dzfile_open flags => Api.dzfile_open path flags
  | .dzfile_unlink => Api.dzfile_unlink path
  | .dzfile_mkdir => Api.dzfile_mkdir path
  | .dzfile_truncate length => Api.dzfile_truncate path length

/--
The call returns, and however it is executed it returns -1 with the file
system as it was.
-/
def Refused (platform : Platform) (sys : Sys) (program : Call Int) : Prop :=
  (∃ choices ret later,
      program.run (kernel platform) sys choices = some (ret, later)) ∧
    ∀ choices ret later,
      program.run (kernel platform) sys choices = some (ret, later) →
        ret = -1 ∧ later.fs = sys.fs

/--
What keeps the call from a path in the protected directory: a slash for
`dzfile_creat`, and for `dzfile_truncate` that there is nothing to cut.
-/
def Kept (fs : FileSystem) (path : CString) : PathCall → Prop
  | .dzfile_creat => '/' ∈ path
  | .dzfile_truncate length =>
      length < 0 ∨ fs.lookup path = none ∨
        fs.lookup path = some .directory
  | _ => True

section Calls

variable {platform : Platform} {sys : Sys} {path : CString}

/-- A program that returns -1 without a call is refused. -/
theorem refused_ret : Refused platform sys (.ret (-1)) := by
  refine ⟨⟨[], -1, sys, rfl⟩, ?_⟩
  intro choices ret later ran
  rcases Prog.run_ret_eq_some.mp ran with ⟨_, rfl, rfl⟩
  exact ⟨rfl, rfl⟩

/-- `dzfile_creat` on a protected path that has a slash. -/
theorem dzfile_creat_of_sysdir
    (sysdir : match_sysdir path = true) (slash : '/' ∈ path) :
    dzfile_creat path = .ret (-1) := by
  unfold dzfile_creat
  cases found : strrchrSlash path with
  | none => exact ((strrchrSlash_eq_none_iff path).mp found slash).elim
  | some bname =>
      simp only [sysdir, Bool.true_or, if_true]
      split <;> rfl

/-- `findhiddenFile` can always be refused an answer. -/
theorem exists_run_findhiddenFile
    (platform : Platform) (sys : Sys) (path : CString) :
    ∃ choices,
      (findhiddenFile path).run (kernel platform) sys choices =
        some (-1, sys) := by
  unfold findhiddenFile
  cases buildHiddenFile path with
  | none => exact ⟨[], rfl⟩
  | some h5name => exact ⟨[.fail .EACCES], rfl⟩

/-- An execution of `dzfile_truncate` that gets past the look for an image. -/
theorem run_dzfile_truncate
    {length : Int} {done : Except Errno Unit} {later : Sys}
    (called : sys.truncate platform (.ok 0) path length = some (done, later)) :
    ∃ choices,
      (dzfile_truncate path length).run (kernel platform) sys choices =
        some (returnStatus done, later) := by
  rcases exists_run_findhiddenFile platform sys path with ⟨choices, looked⟩
  refine ⟨choices ++ [.ok 0], Prog.run_bind_eq_some.mpr ?_⟩
  refine ⟨choices, [.ok 0], -1, sys, rfl, looked, ?_⟩
  exact
    Prog.run_call_eq_some.mpr ⟨.ok 0, [], done, later, rfl, called, rfl⟩

/-- What `truncate` does when there is nothing to cut. -/
theorem truncate_of_nothing
    {length : Int}
    (nothing :
      length < 0 ∨ sys.fs.lookup path = none ∨
        sys.fs.lookup path = some .directory)
    {choice : Choice} {done : Except Errno Unit} {later : Sys}
    (called : sys.truncate platform choice path length = some (done, later)) :
    (∃ errno, done = .error errno) ∧ later = sys := by
  unfold Sys.truncate at called
  split at called
  · cases called
    exact ⟨⟨_, rfl⟩, rfl⟩
  · cases called
    exact ⟨⟨_, rfl⟩, rfl⟩
  · rename_i ino found
    split at called
    · cases called
      exact ⟨⟨_, rfl⟩, rfl⟩
    · rename_i nonneg
      split at called
      · cases called
        exact ⟨⟨_, rfl⟩, rfl⟩
      · rename_i regular
        simp only [FileSystem.lookup, found, Option.map_some,
          Option.some.injEq, reduceCtorEq, false_or] at nothing
        rcases nothing with negative | directory
        · exact (nonneg negative).elim
        · exact (regular directory).elim

/-- `truncate` on a regular file succeeds if nothing refuses it. -/
theorem truncate_of_regular
    (platform : Platform) {length : Int}
    (something :
      ¬ (length < 0 ∨ sys.fs.lookup path = none ∨
        sys.fs.lookup path = some .directory)) :
    ∃ ino, sys.fs.entry path = some ino ∧
      sys.truncate platform (.ok 0) path length =
        some
          (.ok (), { sys with fs := sys.resizeNode platform ino length.toNat }) := by
  rw [not_or, not_or] at something
  rcases something with ⟨nonneg, present, regular⟩
  cases found : sys.fs.entry path with
  | none => exact (present (by simp [FileSystem.lookup, found])).elim
  | some ino =>
      refine ⟨ino, rfl, ?_⟩
      simp only [FileSystem.lookup, found, Option.map_some,
        Option.some.injEq] at regular
      simp only [Sys.truncate, found, if_neg nonneg]

/-- Without something to cut `dzfile_truncate` is refused. -/
theorem refused_dzfile_truncate
    {length : Int}
    (nothing :
      length < 0 ∨ sys.fs.lookup path = none ∨
        sys.fs.lookup path = some .directory) :
    Refused platform sys (dzfile_truncate path length) := by
  constructor
  · cases answer : sys.truncate platform (.ok 0) path length with
    | none =>
        unfold Sys.truncate Sys.refuse at answer
        repeat' split at answer
        all_goals cases answer
    | some outcome =>
        rcases run_dzfile_truncate answer with ⟨choices, ran⟩
        exact ⟨choices, _, _, ran⟩
  · intro choices ret later ran
    rcases Prog.run_bind_eq_some.mp ran with
      ⟨before, after, rc, middle, rfl, looked, rest⟩
    rcases run_findhiddenFile looked with ⟨rfl, _⟩
    split at rest
    · rcases Prog.run_ret_eq_some.mp rest with ⟨_, rfl, rfl⟩
      exact ⟨rfl, rfl⟩
    · rcases Prog.run_call_eq_some.mp rest with
        ⟨choice, more, done, later, rfl, called, returned⟩
      rcases Prog.run_ret_eq_some.mp returned with ⟨_, rfl, rfl⟩
      rcases truncate_of_nothing nothing called with ⟨⟨errno, rfl⟩, rfl⟩
      exact ⟨rfl, rfl⟩

/--
On a path with the component `.dzs` a call is refused in every execution
exactly when it is `dzfile_open`, `dzfile_unlink` or `dzfile_mkdir`, or
`dzfile_creat` with a slash in the path, or `dzfile_truncate` with nothing to
cut.
-/
theorem refused_iff_kept
    (protects : dotDzs ∈ components path) (call : PathCall) :
    Refused platform sys (call.program path) ↔ Kept sys.fs path call := by
  have sysdir := (match_sysdir_eq_true_iff path).mpr protects
  cases call with
  | dzfile_creat =>
      constructor
      · rintro ⟨⟨choices, ret, later, ran⟩, _⟩
        by_contra noSlash
        have none := (strrchrSlash_eq_none_iff path).mpr noSlash
        simp [PathCall.program, dzfile_creat, none] at ran
      · intro slash
        rw [PathCall.program, dzfile_creat_of_sysdir sysdir slash]
        exact refused_ret
  | dzfile_open flags =>
      refine iff_of_true ?_ trivial
      simpa [PathCall.program, dzfile_open, sysdir] using refused_ret
  | dzfile_unlink =>
      refine iff_of_true ?_ trivial
      simpa [PathCall.program, dzfile_unlink, sysdir] using refused_ret
  | dzfile_mkdir =>
      refine iff_of_true ?_ trivial
      simpa [PathCall.program, dzfile_mkdir, sysdir] using refused_ret
  | dzfile_truncate length =>
      refine ⟨?_, refused_dzfile_truncate⟩
      rintro ⟨_, always⟩
      by_contra something
      rcases truncate_of_regular platform something with ⟨ino, _, cut⟩
      rcases run_dzfile_truncate cut with ⟨choices, ran⟩
      exact absurd (always choices _ _ ran).1 (by simp)

end Calls

/-- `/d/.dzs/meta.db`. -/
def metaDb : CString :=
  ['/', 'd', '/', '.', 'd', 'z', 's', '/', 'm', 'e', 't', 'a', '.', 'd', 'b']

theorem refused_iff_kept_mkdir :
    dotDzs ∈ components metaDb ∧
      (Refused storingPlatform Sys.initial
          (PathCall.dzfile_mkdir.program metaDb) ↔
        Kept Sys.initial.fs metaDb .dzfile_mkdir) :=
  ⟨by decide, refused_iff_kept (by decide) .dzfile_mkdir⟩

/-- A store whose database file holds one byte. -/
def withDatabase : Sys :=
  { Sys.initial with fs := Sys.initial.fs.link metaDb (.file [7]) }

/-- `dzfile_truncate` empties the database. -/
theorem truncate_reaches_database :
    ¬ ∀ (platform : Platform) (sys : Sys) (path : CString) (call : PathCall),
        dotDzs ∈ components path →
          Refused platform sys (call.program path) := by
  intro claimed
  have refused :=
    claimed storingPlatform withDatabase metaDb (.dzfile_truncate 0)
      (by decide)
  have emptied :
      ∃ later,
        ((PathCall.dzfile_truncate 0).program metaDb).run
            (kernel storingPlatform) withDatabase [.ok 0, .ok 0] =
          some (0, later) :=
    ⟨_, rfl⟩
  rcases emptied with ⟨later, ran⟩
  exact absurd (refused.2 _ _ _ ran).1 (by decide)

end DZFile.Protection
