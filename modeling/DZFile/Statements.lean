import DZFile.Api
import DZFile.Library.CBuffer
import DZFile.Library.Sql

/-!
# The texts of the statements

`fmt_entry_insert` and `fmt_entry_delete` format the statement they execute
with `sprintf` into an array of 1024 bytes on the stack.  The array holds the
template, the path and, for an insert, the time that `%d` prints; nothing on
the way from `dzfile_creat` and `dzfile_open` looks at the length of the path.
-/

namespace DZFile.Statements

open DZFile.ByteSeq
open DZFile.CBuffer
open DZFile.Sql
open DZFile.Interaction
open DZFile.Names
open DZFile.Metadata
open DZFile.Kernel
open DZFile.Api

/-! ## Formatting -/

/-- An `int` printed by `%d`. -/
def printSigned (num : Int) : CString :=
  if num < 0 then '-' :: Nat.toDigits 10 num.natAbs
  else Nat.toDigits 10 num.natAbs

/-- `insert_stmt` up to the path; its line is continued inside the literal. -/
def insertHead : CString :=
  "INSERT INTO filemeta(path, ctime) ".toList ++ List.replicate 20 ' ' ++
    "VALUES(".toList ++ [quote]

/-- `insert_stmt` between the path and the time. -/
def insertMiddle : CString :=
  quote :: ", ".toList

/--
What `sprintf` makes of `insert_stmt`.  The time is a `time_t` of which `%d`
takes the lower half.
-/
def insertText (path : CString) (insert_time : Int) : CString :=
  insertHead ++ path ++ insertMiddle ++ printSigned (wrap32 insert_time) ++
    ");".toList

/-- `delete_stmt` up to the path. -/
def deleteHead : CString :=
  "DELETE FROM filemeta where path=".toList ++ [quote]

/-- What `sprintf` makes of `delete_stmt`. -/
def deleteText (path : CString) : CString :=
  deleteHead ++ path ++ quote :: ";".toList

/-- The size of the array `sql`. -/
def sqlSize : Nat := 1024

/-- `sprintf(sql, insert_stmt, path, insert_time)`. -/
def insertSql (sql : List Char) (path : CString) (insert_time : Int) :
    Option (List Char) :=
  strcpy sql (insertText path insert_time)

/-- `sprintf(sql, delete_stmt, path)`. -/
def deleteSql (sql : List Char) (path : CString) : Option (List Char) :=
  strcpy sql (deleteText path)

/-! ## Lengths -/

theorem length_insertText (path : CString) (insert_time : Int) :
    (insertText path insert_time).length =
      67 + path.length + (printSigned (wrap32 insert_time)).length := by
  have head : insertHead.length = 62 := by decide
  have middle : insertMiddle.length = 3 := by decide
  simp only [insertText, List.length_append, head, middle]
  simp
  omega

theorem length_deleteText (path : CString) :
    (deleteText path).length = 35 + path.length := by
  have head : deleteHead.length = 33 := by decide
  simp only [deleteText, List.length_append, List.length_cons, head]
  simp
  omega

/-- A string is copied inside an object exactly when it fits with its NUL. -/
theorem strcpy_isSome_iff (buffer source : List Char) :
    (strcpy buffer source).isSome ↔ source.length + 1 ≤ buffer.length := by
  rw [strcpy, store]
  split_ifs with room <;> simpa using room

/-- The time takes one to eleven characters. -/
theorem length_printSigned_wrap32 (num : Int) :
    0 < (printSigned (wrap32 num)).length ∧
      (printSigned (wrap32 num)).length ≤ 11 := by
  have bounds := wrap32_bounds num
  have digits : (Nat.toDigits 10 (wrap32 num).natAbs).length ≤ 10 := by
    rw [Nat.length_toDigits_le_iff (by omega) (by omega)]
    omega
  have positive :=
    Nat.length_toDigits_pos (b := 10) (n := (wrap32 num).natAbs)
  rw [printSigned]
  split_ifs
  · rw [List.length_cons]
    omega
  · omega

/-! ## What the callers guarantee -/

/-- The array `sql` of the function, whatever it holds, has room for both. -/
def BuffersSuffice (path : CString) (insert_time : Int) : Prop :=
  ∀ sql : List Char, sql.length = sqlSize →
    (insertSql sql path insert_time).isSome ∧ (deleteSql sql path).isSome

/--
In some run of `dzfile_creat` or `dzfile_open` the path reaches
`fmt_entry_insert`.
-/
def PassedOn (path : CString) : Prop :=
  ∃ platform sys choices program ending,
    (program = dzfile_creat path ∨ ∃ flags, program = dzfile_open path flags) ∧
      program.execute (kernel platform) sys choices = some ending ∧
        ∃ done, ⟨.sqlite3_exec (.insertFilemeta path), done⟩ ∈ ending.answers

/-- A new path that the name tests let through is passed on. -/
theorem passedOn_of_creat
    {path base : CString} (found : strrchrSlash path = some base)
    (legal : illegalName path base = false)
    (outside : match_sysdir path = false)
    (visible : match_hiddenfile [] path = false) :
    PassedOn path := by
  have slash : '/' ∈ path := by
    rcases strrchrSlash_eq_some found with ⟨dir, rfl, _⟩
    simp
  rcases
    Option.isSome_iff_exists.mp ((buildHiddenFile_isSome_iff path).mpr slash)
    with ⟨h5name, built⟩
  have executed :
      (dzfile_creat path).execute (kernel storingPlatform) Sys.initial
          [.ok 0, .fail .EPERM, .fail .EPERM] =
        some
          ⟨some (-1), Sys.initial,
            [⟨.stat h5name, .error .ENOENT⟩,
              ⟨.sqlite3_exec (.insertFilemeta path), false⟩,
              ⟨.openFile path (O_WRONLY + O_CREAT + O_TRUNC),
                .error .EPERM⟩]⟩ := by
    simp only [dzfile_creat, found, legal, outside, visible, findhiddenFile,
      built]
    rfl
  exact
    ⟨storingPlatform, Sys.initial, _, _, _, Or.inl rfl, executed, false,
      by simp⟩

/-- The insert leaves 956 characters for the path and the time. -/
theorem length_le_of_buffersSuffice
    {path : CString} {insert_time : Int}
    (suffice_ : BuffersSuffice path insert_time) :
    path.length + (printSigned (wrap32 insert_time)).length ≤ 956 := by
  have room :=
    (suffice_ (List.replicate sqlSize nul) List.length_replicate).1
  rw [insertSql, strcpy_isSome_iff, length_insertText,
    List.length_replicate, sqlSize] at room
  omega

/-- The delete has room for what the insert has room for. -/
theorem buffersSuffice_of_length_le
    {path : CString} {insert_time : Int}
    (short :
      path.length + (printSigned (wrap32 insert_time)).length ≤ 956) :
    BuffersSuffice path insert_time := by
  have positive := (length_printSigned_wrap32 insert_time).1
  intro sql size
  rw [insertSql, deleteSql, strcpy_isSome_iff, strcpy_isSome_iff,
    length_insertText, length_deleteText, size, sqlSize]
  omega

/--
The statements of a path fit into their arrays exactly when the path and the
printed time have 956 characters at most.
-/
theorem buffersSuffice_iff (path : CString) (insert_time : Int) :
    BuffersSuffice path insert_time ↔
      path.length + (printSigned (wrap32 insert_time)).length ≤ 956 :=
  ⟨length_le_of_buffersSuffice, buffersSuffice_of_length_le⟩

/-- Four directories with names of 250 characters. -/
def deepPath : CString :=
  (List.replicate 4 ('/' :: List.replicate 250 'a')).flatten

/-- Such a path is passed on, and at no time is there room for it. -/
theorem deepPath_overflows :
    ¬ ∀ path insert_time,
      nul ∉ path → path.length < 4096 → PassedOn path →
        BuffersSuffice path insert_time := by
  intro always
  have found : strrchrSlash deepPath = some (List.replicate 250 'a') := by
    decide +kernel
  have passed : PassedOn deepPath :=
    passedOn_of_creat found (by decide +kernel) (by decide +kernel)
      (by decide +kernel)
  have fits :=
    length_le_of_buffersSuffice
      (always deepPath 0 (by decide +kernel) (by decide +kernel) passed)
  have long : deepPath.length = 1004 := by decide +kernel
  omega

end DZFile.Statements
