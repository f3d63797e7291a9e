import DZFile.Names

/-!
# The metadata database

The tables of `meta.sql` as far as the modelled functions use them: the paths
of `filemeta`, one row for each element, and the counters of the single row of
`space`.  The statements are those `dz-sqlite-ifce.c` formats, and executing
one is what SQLite does when the statement succeeds.

A statement about a row carries the path that SQLite reads from its text.
`fmt_entry_insert` prints its argument between quotes into `sql[1024]`; what
SQLite reads there is the argument if it holds no quote and the text fits, and
results about other arguments are stated over the text.
-/

namespace DZFile.Metadata

open DZFile.Names

/-- A column of the table `space`. -/
inductive Field where
  | writtenbytes
  | diskbytes
  | filenum
deriving DecidableEq

/-- The `flag` argument of `space_update`. -/
inductive Flag where
  | SUB_NUM
  | ADD_NUM
deriving DecidableEq

/-- The contents of the database. -/
structure Db where
  filemeta : List CString
  space : Field → Int

/-- A database right after `meta.sql`. -/
def Db.empty : Db where
  filemeta := []
  space _ := 0

/-- The statements the source executes. -/
inductive Stmt where
  /-- `INSERT INTO filemeta(path, ctime) VALUES('%s', %d);` -/
  | insertFilemeta (path : CString)
  /-- `DELETE FROM filemeta where path='%s';` -/
  | deleteFilemeta (path : CString)
  /-- `update space set %s = %s %c %llu;` -/
  | updateSpace (field : Field) (flag : Flag) (num : Nat)
deriving DecidableEq

/-- A `ssize_t` printed by `%llu`. -/
def printUnsigned (num : Int) : Nat :=
  (if num < 0 then num + 18446744073709551616 else num).toNat

theorem printUnsigned_of_nonneg {num : Int} (nonneg : 0 ≤ num) :
    (printUnsigned num : Int) = num := by
  rw [printUnsigned, if_neg (by omega)]
  omega

/-- The effect of a statement that succeeds, by the path read from its text. -/
def Stmt.exec (db : Db) : Stmt → Db
  | .insertFilemeta path => { db with filemeta := db.filemeta ++ [path] }
  | .deleteFilemeta path =>
      { db with filemeta := db.filemeta.filter (· ≠ path) }
  | .updateSpace field flag num =>
      { db with
        space := fun other =>
          if other = field then
            match flag with
            | .SUB_NUM => db.space field - num
            | .ADD_NUM => db.space field + num
          else db.space other }

@[simp]
theorem filemeta_exec_updateSpace
    (db : Db) (field : Field) (flag : Flag) (num : Nat) :
    (Stmt.exec db (.updateSpace field flag num)).filemeta = db.filemeta :=
  rfl

@[simp]
theorem space_exec_insertFilemeta
    (db : Db) (path : CString) (field : Field) :
    (Stmt.exec db (.insertFilemeta path)).space field = db.space field :=
  rfl

end DZFile.Metadata
