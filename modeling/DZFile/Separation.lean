import DZFile.Confinement

/-!
# A process cannot tell what it does not look at

Two environments in which a process has opened the same files, and in which
the names it looks at refer to the same files, though their inodes may have
other numbers.  A call gets the same answer in both, and leaves both alike:
which inode is the next free one, what the other names refer to, and what the
database holds, decides nothing.
-/

namespace DZFile.Separation

open DZFile.ByteSeq
open DZFile.Interaction
open DZFile.Names
open DZFile.Codec
open DZFile.Image
open DZFile.Kernel
open DZFile.Confinement

/-- Whatever the call looks at by name has one of the names. -/
def Sees (names : CString → Prop) : Op → Prop
  | .stat path => names path
  | .openFile path _ => names path
  | .truncate path _ => names path
  | .rename old new => names old ∧ names new
  | .unlink path => names path
  | .mkdir path => names path
  | .h5fcreate path => names path
  | .h5fopen path => names path
  | .statfs path => names path
  | .sqlite3_get_table => False
  | _ => True

/-- Descriptions of one file, at the same position. -/
structure SameFile (linked : Ino → Ino → Prop) (file other : OpenFile) :
    Prop where
  ino : linked file.ino other.ino
  offset : file.offset = other.offset
  flags : file.flags = other.flags

/-- Handles of one image. -/
structure SameHandle (linked : Ino → Ino → Prop) (handle other : H5Handle) :
    Prop where
  ino : linked handle.ino other.ino
  writing : handle.writing = other.writing

/-- The two environments are alike, up to the numbers of the inodes. -/
structure Alike
    (names : CString → Prop) (linked : Ino → Ino → Prop) (sys other : Sys) :
    Prop where
  unique : ∀ {i j k l}, linked i j → linked k l → (i = k ↔ j = l)
  old : ∀ {i j}, linked i j → i < sys.fs.fresh ∧ j < other.fs.fresh
  node : ∀ {i j}, linked i j → sys.fs.node i = other.fs.node j
  entry :
    ∀ name, names name →
      Option.Rel linked (sys.fs.entry name) (other.fs.entry name)
  file :
    ∀ fd, Option.Rel (SameFile linked) (sys.proc.fds fd) (other.proc.fds fd)
  handle :
    ∀ h5fd,
      Option.Rel (SameHandle linked) (sys.proc.handles h5fd)
        (other.proc.handles h5fd)
  map : sys.proc.h5fdmap = other.proc.h5fdmap

/-- A process that has opened nothing is alike in one environment and it. -/
theorem alike_initial
    (names : CString → Prop) (fs : FileSystem) (db other : Metadata.Db) :
    Alike names (fun i j => i = j ∧ ∃ name, names name ∧ fs.entry name = some i)
      ⟨fs, db, .empty⟩ ⟨fs, other, .empty⟩ where
  unique := by
    rintro i j k l ⟨rfl, _⟩ ⟨rfl, _⟩
    exact Iff.rfl
  old := by
    rintro i j ⟨rfl, name, _, found⟩
    exact ⟨fs.entry_lt name i found, fs.entry_lt name i found⟩
  node := by
    rintro i j ⟨rfl, _⟩
    rfl
  entry name named := by
    cases found : fs.entry name with
    | none => exact .none
    | some ino => exact .some ⟨rfl, name, named, found⟩
  file _ := .none
  handle _ := .none
  map := rfl

section Rules

variable
    {names : CString → Prop} {linked : Ino → Ino → Prop} {sys other : Sys}
    {i j : Ino} {path : CString} {fd h5fd : Int}

/-! ## What the process finds -/

/-- A name refers to nothing in both, or to one file. -/
theorem Alike.entries
    (alike : Alike names linked sys other) (named : names path) :
    (sys.fs.entry path = none ∧ other.fs.entry path = none) ∨
      ∃ i j, sys.fs.entry path = some i ∧ other.fs.entry path = some j ∧
        linked i j := by
  have rel := alike.entry path named
  generalize sys.fs.entry path = left at rel
  generalize other.fs.entry path = right at rel
  cases rel with
  | none => exact Or.inl ⟨rfl, rfl⟩
  | some pair => exact Or.inr ⟨_, _, rfl, rfl, pair⟩

theorem Alike.lookup
    (alike : Alike names linked sys other) (named : names path) :
    sys.fs.lookup path = other.fs.lookup path := by
  rw [FileSystem.lookup, FileSystem.lookup]
  rcases alike.entries named with ⟨left, right⟩ | ⟨i, j, left, right, pair⟩
  · rw [left, right]
    rfl
  · rw [left, right, Option.map_some, Option.map_some, alike.node pair]

/-- A number is free in both, or stands for one file. -/
theorem Alike.files (alike : Alike names linked sys other) (fd : Int) :
    (sys.proc.fds fd = none ∧ other.proc.fds fd = none) ∨
      ∃ file file', sys.proc.fds fd = some file ∧
        other.proc.fds fd = some file' ∧ SameFile linked file file' := by
  have rel := alike.file fd
  generalize sys.proc.fds fd = left at rel
  generalize other.proc.fds fd = right at rel
  cases rel with
  | none => exact Or.inl ⟨rfl, rfl⟩
  | some pair => exact Or.inr ⟨_, _, rfl, rfl, pair⟩

theorem Alike.handles (alike : Alike names linked sys other) (h5fd : Int) :
    (sys.proc.handles h5fd = none ∧ other.proc.handles h5fd = none) ∨
      ∃ handle handle', sys.proc.handles h5fd = some handle ∧
        other.proc.handles h5fd = some handle' ∧
          SameHandle linked handle handle' := by
  have rel := alike.handle h5fd
  generalize sys.proc.handles h5fd = left at rel
  generalize other.proc.handles h5fd = right at rel
  cases rel with
  | none => exact Or.inl ⟨rfl, rfl⟩
  | some pair => exact Or.inr ⟨_, _, rfl, rfl, pair⟩

/-! ## What the process does -/

/-- The database is no part of it. -/
theorem Alike.db
    (alike : Alike names linked sys other) (db db' : Metadata.Db) :
    Alike names linked { sys with db := db } { other with db := db' } :=
  ⟨alike.unique, alike.old, alike.node, alike.entry, alike.file,
    alike.handle, alike.map⟩

/-- A file is given another content. -/
theorem Alike.put
    (alike : Alike names linked sys other) (pair : linked i j)
    (node : Node) :
    Alike names linked { sys with fs := sys.fs.put i node }
      { other with fs := other.fs.put j node } where
  unique := alike.unique
  old := alike.old
  node := by
    intro k l pair'
    simp only [FileSystem.node_put, Function.update_apply]
    by_cases same : k = i
    · rw [if_pos same, if_pos ((alike.unique pair' pair).mp same)]
    · rw [if_neg same, if_neg (mt (alike.unique pair' pair).mpr same)]
      exact alike.node pair'
  entry := alike.entry
  file := alike.file
  handle := alike.handle
  map := alike.map

/-- A name is taken away. -/
theorem Alike.remove
    (alike : Alike names linked sys other) (path : CString) :
    Alike names linked { sys with fs := sys.fs.remove path }
      { other with fs := other.fs.remove path } where
  unique := alike.unique
  old := alike.old
  node := alike.node
  entry name named := by
    simp only [FileSystem.entry_remove, Function.update_apply]
    split
    · exact .none
    · exact alike.entry name named
  file := alike.file
  handle := alike.handle
  map := alike.map

/-- A file is given another name. -/
theorem Alike.move
    (alike : Alike names linked sys other) {old new : CString}
    (named : names old) :
    Alike names linked { sys with fs := sys.fs.move old new }
      { other with fs := other.fs.move old new } where
  unique := alike.unique
  old := alike.old
  node := alike.node
  entry name named' := by
    simp only [FileSystem.entry_move, Function.update_apply]
    split
    · exact alike.entry old named
    · split
      · exact .none
      · exact alike.entry name named'
  file := alike.file
  handle := alike.handle
  map := alike.map

/-- The pairs with one of two new files. -/
def withFresh (linked : Ino → Ino → Prop) (sys other : Sys) (i j : Ino) :
    Prop :=
  linked i j ∨ (i = sys.fs.fresh ∧ j = other.fs.fresh)

theorem SameFile.withFresh
    {file file' : OpenFile} (same : SameFile linked file file') :
    SameFile (Separation.withFresh linked sys other) file file' :=
  ⟨Or.inl same.ino, same.offset, same.flags⟩

theorem SameHandle.withFresh
    {handle handle' : H5Handle} (same : SameHandle linked handle handle') :
    SameHandle (Separation.withFresh linked sys other) handle handle' :=
  ⟨Or.inl same.ino, same.writing⟩

theorem rel_mono
    {α β : Type} {r s : α → β → Prop} (weakens : ∀ a b, r a b → s a b)
    {left : Option α} {right : Option β} (rel : Option.Rel r left right) :
    Option.Rel s left right := by
  cases rel with
  | none => exact .none
  | some pair => exact .some (weakens _ _ pair)

/-- A file is created. -/
theorem Alike.link
    (alike : Alike names linked sys other) (path : CString) (node : Node) :
    Alike names (withFresh linked sys other)
      { sys with fs := sys.fs.link path node }
      { other with fs := other.fs.link path node } where
  unique := by
    rintro i j k l (first | ⟨rfl, rfl⟩) (second | ⟨rfl, rfl⟩)
    · exact alike.unique first second
    · have before := alike.old first
      constructor
      · rintro rfl
        exact absurd before.1 (Nat.lt_irrefl _)
      · rintro rfl
        exact absurd before.2 (Nat.lt_irrefl _)
    · have before := alike.old second
      constructor
      · rintro rfl
        exact absurd before.1 (Nat.lt_irrefl _)
      · rintro rfl
        exact absurd before.2 (Nat.lt_irrefl _)
    · exact ⟨fun _ => rfl, fun _ => rfl⟩
  old := by
    rintro i j (pair | ⟨rfl, rfl⟩)
    · have before := alike.old pair
      exact ⟨Nat.lt_succ_of_lt before.1, Nat.lt_succ_of_lt before.2⟩
    · exact ⟨Nat.lt_succ_self _, Nat.lt_succ_self _⟩
  node := by
    rintro i j (pair | ⟨rfl, rfl⟩)
    · have before := alike.old pair
      simp only [FileSystem.node_link]
      rw [Function.update_of_ne (Nat.ne_of_lt before.1),
        Function.update_of_ne (Nat.ne_of_lt before.2)]
      exact alike.node pair
    · simp
  entry name named := by
    simp only [FileSystem.entry_link, Function.update_apply]
    split
    · exact .some (Or.inr ⟨rfl, rfl⟩)
    · exact rel_mono (fun _ _ pair => Or.inl pair) (alike.entry name named)
  file fd := rel_mono (fun _ _ same => same.withFresh) (alike.file fd)
  handle h5fd :=
    rel_mono (fun _ _ same => same.withFresh) (alike.handle h5fd)
  map := alike.map

/-- A number comes to stand for a file, or for none. -/
theorem Alike.setFd
    (alike : Alike names linked sys other) (number : Int)
    {file file' : Option OpenFile}
    (same : Option.Rel (SameFile linked) file file') :
    Alike names linked { sys with proc := sys.proc.setFd number file }
      { other with proc := other.proc.setFd number file' } where
  unique := alike.unique
  old := alike.old
  node := alike.node
  entry := alike.entry
  file fd := by
    simp only [Process.setFd, Function.update_apply]
    split
    · exact same
    · exact alike.file fd
  handle := alike.handle
  map := alike.map

theorem Alike.setHandle
    (alike : Alike names linked sys other) (number : Int)
    {handle handle' : Option H5Handle}
    (same : Option.Rel (SameHandle linked) handle handle') :
    Alike names linked { sys with proc := sys.proc.setHandle number handle }
      { other with proc := other.proc.setHandle number handle' } where
  unique := alike.unique
  old := alike.old
  node := alike.node
  entry := alike.entry
  file := alike.file
  handle h5fd := by
    simp only [Process.setHandle, Function.update_apply]
    split
    · exact same
    · exact alike.handle h5fd
  map := alike.map

theorem Alike.setMap
    (alike : Alike names linked sys other) (fd : Int) (dzfd : Option Dzfd) :
    Alike names linked { sys with proc := sys.proc.setMap fd dzfd }
      { other with proc := other.proc.setMap fd dzfd } where
  unique := alike.unique
  old := alike.old
  node := alike.node
  entry := alike.entry
  file := alike.file
  handle := alike.handle
  map := by
    simp only [Process.setMap]
    rw [alike.map]

end Rules

/-! ## Calls -/

/-- The call can be made in the other environment, with the same answer. -/
def Follows
    (platform : Platform) (names : CString → Prop)
    (linked : Ino → Ino → Prop) (choice : Choice) (op : Op)
    (reply : Reply op) (sys later other : Sys) : Prop :=
  ∃ linked' other',
    kernel platform other choice op = some (reply, other') ∧
      Alike names linked' later other' ∧
        ∀ i j, linked' i j → linked i j ∨ i = sys.fs.fresh

section Calls

variable
    {platform : Platform} {names : CString → Prop}
    {linked : Ino → Ino → Prop} {sys later other : Sys} {choice : Choice}
    {path : CString} {fd h5fd : Int}

/-- A call that pairs no new files. -/
theorem follows_of_alike
    {op : Op} {reply : Reply op} {other' : Sys}
    (called : kernel platform other choice op = some (reply, other'))
    (alike : Alike names linked later other') :
    Follows platform names linked choice op reply sys later other :=
  ⟨linked, other', called, alike, fun _ _ pair => Or.inl pair⟩

theorem Alike.stat
    (alike : Alike names linked sys other) (named : names path)
    {found : Except Errno Stat}
    (called : sys.stat platform choice path = some (found, later)) :
    Follows platform names linked choice (.stat path) found sys later
      other := by
  have same := alike.lookup named
  cases (Sys.stat_eq_some called).1
  apply follows_of_alike _ alike
  change other.stat platform choice path = _
  unfold Sys.stat Sys.refuse at called ⊢
  rw [← same]
  split at called
  · split at called
    · cases called
    · rename_i notMissing
      cases called
      rw [if_neg notMissing]
  · split at called
    · cases called
      rfl
    · cases called
      rfl
    · cases called
      rfl

/-- An inode is entered under a free number. -/
theorem Alike.install
    (alike : Alike names linked sys other) (number : Nat) (flags : Nat)
    {i j : Ino} (pair : linked i j) :
    Alike names linked
      { sys with proc := sys.proc.setFd number (some ⟨i, 0, flags⟩) }
      { other with proc := other.proc.setFd number (some ⟨j, 0, flags⟩) } :=
  alike.setFd number (.some ⟨pair, rfl, rfl⟩)

/-- A file that is there is opened, and emptied if that is asked for. -/
theorem Alike.reopen
    (alike : Alike names linked sys other) {number flags : Nat} {i j : Ino}
    {opened : Except Errno Int} (pair : linked i j)
    (step :
      kernel platform other (.ok number) (.openFile path flags) =
        other.install number j flags
          (if hasTrunc flags then other.fs.put j (.file []) else other.fs))
    (called :
      sys.install number i flags
          (if hasTrunc flags then sys.fs.put i (.file []) else sys.fs) =
        some (opened, later)) :
    Follows platform names linked (.ok number) (.openFile path flags) opened
      sys later other := by
  cases called
  apply follows_of_alike step
  split
  · exact (alike.put pair (.file [])).install number flags pair
  · exact alike.install number flags pair

theorem Alike.openFile
    (alike : Alike names linked sys other) (named : names path)
    {flags : Nat} {opened : Except Errno Int}
    (called : sys.openFile choice path flags = some (opened, later)) :
    Follows platform names linked choice (.openFile path flags) opened sys
      later other := by
  rcases choice with number | errno
  · rcases alike.files number with
      ⟨free, free'⟩ | ⟨file, file', held, _⟩
    · rcases alike.entries named with
        ⟨absent, absent'⟩ | ⟨i, j, found, found', pair⟩
      · simp only [Sys.openFile, free, absent, ne_eq, not_true_eq_false,
          if_false] at called
        split at called
        · rename_i creates
          cases called
          refine
            ⟨withFresh linked sys other, _, ?_,
              (alike.link path (.file [])).install number flags
                (Or.inr ⟨rfl, rfl⟩), ?_⟩
          · simp only [kernel, Sys.openFile, free', absent', ne_eq,
              not_true_eq_false, if_false, creates, if_true, Sys.install]
          · rintro i j (pair | ⟨rfl, _⟩)
            · exact Or.inl pair
            · exact Or.inr rfl
        · rename_i notCreat
          cases called
          apply follows_of_alike _ alike
          simp only [kernel, Sys.openFile, free', absent', ne_eq,
            not_true_eq_false, if_false, notCreat, Sys.refuse,
            Bool.false_eq_true]
      · have node := alike.node pair
        simp only [Sys.openFile, free, found, ne_eq, not_true_eq_false,
          if_false] at called
        split at called
        · rename_i exclusive
          cases called
          apply follows_of_alike _ alike
          simp only [kernel, Sys.openFile, free', found', ne_eq,
            not_true_eq_false, if_false, exclusive, if_true, Sys.refuse]
        · rename_i notExclusive
          cases content : sys.fs.node i with
          | directory =>
              rw [content] at node
              simp only [content] at called
              split at called
              · rename_i readOnly
                cases called
                apply follows_of_alike _ (alike.install number flags pair)
                simp only [kernel, Sys.openFile, free', found', ne_eq,
                  not_true_eq_false, if_false, notExclusive,
                  Bool.false_eq_true, ← node]
                exact if_pos readOnly
              · rename_i notReadOnly
                cases called
                apply follows_of_alike _ alike
                simp only [kernel, Sys.openFile, free', found', ne_eq,
                  not_true_eq_false, if_false, notExclusive,
                  Bool.false_eq_true, ← node]
                exact if_neg notReadOnly
          | file bytes =>
              rw [content] at node
              simp only [content] at called
              apply alike.reopen pair _ called
              simp only [kernel, Sys.openFile, free', found', ne_eq,
                not_true_eq_false, if_false, notExclusive,
                Bool.false_eq_true, ← node]
          | image stored =>
              rw [content] at node
              simp only [content] at called
              apply alike.reopen pair _ called
              simp only [kernel, Sys.openFile, free', found', ne_eq,
                not_true_eq_false, if_false, notExclusive,
                Bool.false_eq_true, ← node]
    · simp only [Sys.openFile, held, ne_eq, reduceCtorEq,
        not_false_eq_true, if_true] at called
  · cases called
    exact follows_of_alike rfl alike

theorem Alike.close
    (alike : Alike names linked sys other) {done : Except Errno Unit}
    (called : sys.close choice fd = some (done, later)) :
    Follows platform names linked choice (.close fd) done sys later other := by
  rcases alike.files fd with ⟨free, free'⟩ | ⟨file, file', held, held', same⟩
  · simp only [Sys.close, free, Sys.refuse] at called
    cases called
    apply follows_of_alike _ alike
    simp only [kernel, Sys.close, free', Sys.refuse]
  · simp only [Sys.close, held] at called
    rcases choice with number | errno
    · cases called
      apply follows_of_alike _ (alike.setFd fd .none)
      simp only [kernel, Sys.close, held']
    · cases called
      apply follows_of_alike _ (alike.setFd fd .none)
      simp only [kernel, Sys.close, held', Sys.refuse]

theorem SameFile.readable
    {file file' : OpenFile} (same : SameFile linked file file') :
    file'.readable = file.readable := by
  rw [OpenFile.readable, OpenFile.readable, same.flags]

theorem SameFile.writable
    {file file' : OpenFile} (same : SameFile linked file file') :
    file'.writable = file.writable := by
  rw [OpenFile.writable, OpenFile.writable, same.flags]

theorem SameFile.moved
    {file file' : OpenFile} (same : SameFile linked file file')
    (offset : Nat) :
    SameFile linked { file with offset := offset }
      { file' with offset := offset } :=
  ⟨same.ino, rfl, same.flags⟩

theorem Alike.read
    (alike : Alike names linked sys other) {count : Nat}
    {result : Except Errno Bytes}
    (called : sys.read platform choice fd count = some (result, later)) :
    Follows platform names linked choice (.read fd count) result sys later
      other := by
  rcases choice with limit | errno
  · rcases alike.files fd with
      ⟨free, free'⟩ | ⟨file, file', held, held', same⟩
    · simp only [Sys.read, free, Sys.refuse] at called
      cases called
      apply follows_of_alike _ alike
      simp only [kernel, Sys.read, free', Sys.refuse]
    · have node := alike.node same.ino
      simp only [Sys.read, held] at called
      split at called
      · rename_i unreadable
        cases called
        apply follows_of_alike _ alike
        simp only [kernel, Sys.read, held', same.readable]
        exact if_pos unreadable
      · rename_i readable
        split at called
        · rename_i directory
          cases called
          apply follows_of_alike _ alike
          rw [directory] at node
          simp only [kernel, Sys.read, held', same.readable, ← node]
          exact if_neg readable
        · rename_i regular
          rcases Option.map_eq_some_iff.mp called with
            ⟨data, moved, answer⟩
          cases answer
          apply follows_of_alike _ (alike.setFd fd (.some (same.moved _)))
          simp only [kernel, Sys.read, held', same.readable, ← node,
            ← same.offset]
          rw [if_neg readable, moved]
          rfl
  · cases called
    exact follows_of_alike rfl alike

/-- A call whose answer is the same, and which leaves both as they are. -/
theorem follows_of_map
    (alike : Alike names linked sys other) {op : Op} {reply : Reply op}
    (still : ∀ reply later,
      kernel platform sys choice op = some (reply, later) → later = sys)
    (same :
      kernel platform other choice op =
        (kernel platform sys choice op).map fun answer => (answer.1, other))
    (called : kernel platform sys choice op = some (reply, later)) :
    Follows platform names linked choice op reply sys later other := by
  cases still reply later called
  apply follows_of_alike _ alike
  rw [same, called]
  rfl

theorem Alike.pread
    (alike : Alike names linked sys other) {count : Nat} {offset : Int}
    {result : Except Errno Bytes}
    (called :
      sys.pread platform choice fd count offset = some (result, later)) :
    Follows platform names linked choice (.pread fd count offset) result sys
      later other := by
  change kernel platform sys choice (.pread fd count offset) = _ at called
  apply follows_of_map alike _ _ called
  · intro reply later called
    simp only [kernel, Sys.pread, Sys.refuse] at called
    repeat' split at called
    all_goals first
      | (cases called; rfl)
      | (rcases Option.map_eq_some_iff.mp called with ⟨_, _, answer⟩
         cases answer
         rfl)
  · rcases choice with limit | errno
    · rcases alike.files fd with
        ⟨free, free'⟩ | ⟨file, file', held, held', same⟩
      · simp only [kernel, Sys.pread, free, free', Sys.refuse]
        rfl
      · simp only [kernel, Sys.pread, held, held', same.readable,
          alike.node same.ino, Sys.refuse]
        split_ifs
        · rfl
        · rfl
        · cases other.fs.node file'.ino with
          | directory => rfl
          | file content => simp only [Option.map_map]; rfl
          | image stored => simp only [Option.map_map]; rfl
    · rfl

/-- A descriptor of the same file writes the same. -/
theorem Alike.writeAt
    (alike : Alike names linked sys other) {file file' : OpenFile}
    (same : SameFile linked file file') (position limit : Nat)
    (data : Bytes) :
    Alike names linked
      { sys with fs := sys.writeAt platform file position limit data }
      { other with
        fs := other.writeAt platform file' position limit data } := by
  rw [Sys.writeAt, Sys.writeAt, alike.node same.ino]
  exact alike.put same.ino _

theorem Alike.landing
    (alike : Alike names linked sys other) {file file' : OpenFile}
    (same : SameFile linked file file') (position : Nat) :
    other.landing platform file' position =
      sys.landing platform file position := by
  rw [Sys.landing, Sys.landing, alike.node same.ino, same.flags]

theorem Alike.write
    (alike : Alike names linked sys other) {data : Bytes}
    {result : Except Errno Nat}
    (called : sys.write platform choice fd data = some (result, later)) :
    Follows platform names linked choice (.write fd data) result sys later
      other := by
  rcases choice with limit | errno
  · rcases alike.files fd with
      ⟨free, free'⟩ | ⟨file, file', held, held', same⟩
    · simp only [Sys.write, free, Sys.refuse] at called
      cases called
      apply follows_of_alike _ alike
      simp only [kernel, Sys.write, free', Sys.refuse]
    · simp only [Sys.write, held] at called
      split at called
      · rename_i unwritable
        cases called
        apply follows_of_alike _ alike
        simp only [kernel, Sys.write, held', same.writable, unwritable,
          if_true, Sys.refuse]
      · rename_i writable
        cases called
        apply follows_of_alike _
          ((alike.writeAt same
            (sys.landing platform file file.offset) limit data).setFd fd
              (.some (same.moved _)))
        simp only [kernel, Sys.write, held', same.writable]
        rw [if_neg writable, ← same.offset, alike.landing same]
  · cases called
    exact follows_of_alike rfl alike

theorem Alike.pwrite
    (alike : Alike names linked sys other) {data : Bytes} {offset : Int}
    {result : Except Errno Nat}
    (called :
      sys.pwrite platform choice fd data offset = some (result, later)) :
    Follows platform names linked choice (.pwrite fd data offset) result sys
      later other := by
  rcases choice with limit | errno
  · rcases alike.files fd with
      ⟨free, free'⟩ | ⟨file, file', held, held', same⟩
    · simp only [Sys.pwrite, free, Sys.refuse] at called
      cases called
      apply follows_of_alike _ alike
      simp only [kernel, Sys.pwrite, free', Sys.refuse]
    · have step :
          kernel platform other (.ok limit) (.pwrite fd data offset) =
            if file.writable = false then other.refuse .EBADF
            else if offset < 0 then other.refuse .EINVAL
            else
              some
                (.ok (min limit data.length),
                  { other with
                    fs :=
                      other.writeAt platform file'
                        (sys.landing platform file offset.toNat) limit
                        data }) := by
        simp only [kernel, Sys.pwrite, held', same.writable,
          alike.landing same]
      simp only [Sys.pwrite, held] at called
      split at called
      · rename_i unwritable
        cases called
        exact follows_of_alike (step.trans (if_pos unwritable)) alike
      · rename_i writable
        rw [if_neg writable] at step
        split at called
        · rename_i negative
          cases called
          exact follows_of_alike (step.trans (if_pos negative)) alike
        · rename_i nonnegative
          cases called
          exact
            follows_of_alike (step.trans (if_neg nonnegative))
              (alike.writeAt same _ _ _)
  · cases called
    exact follows_of_alike rfl alike

theorem Alike.lseek
    (alike : Alike names linked sys other) {offset : Int} {whence : Whence}
    {result : Except Errno Nat}
    (called :
      sys.lseek platform choice fd offset whence = some (result, later)) :
    Follows platform names linked choice (.lseek fd offset whence) result sys
      later other := by
  rcases choice with number | errno
  · rcases alike.files fd with
      ⟨free, free'⟩ | ⟨file, file', held, held', same⟩
    · simp only [Sys.lseek, free, Sys.refuse] at called
      cases called
      apply follows_of_alike _ alike
      simp only [kernel, Sys.lseek, free', Sys.refuse]
    · have node := alike.node same.ino
      have offset' := same.offset
      cases whence
      all_goals
        simp only [Sys.lseek, held] at called
        split at called
        · rename_i negative
          cases called
          apply follows_of_alike _ alike
          simp only [kernel, Sys.lseek, held', ← node, ← offset']
          rw [if_pos negative]
          rfl
        · rename_i nonnegative
          cases called
          apply follows_of_alike _ (alike.setFd fd (.some (same.moved _)))
          simp only [kernel, Sys.lseek, held', ← node, ← offset']
          rw [if_neg nonnegative]
  · cases called
    exact follows_of_alike rfl alike

/-- The same file is cut or extended. -/
theorem Alike.resizeNode
    (alike : Alike names linked sys other) {i j : Ino} (pair : linked i j)
    (length : Nat) :
    Alike names linked
      { sys with fs := sys.resizeNode platform i length }
      { other with fs := other.resizeNode platform j length } := by
  rw [Sys.resizeNode, Sys.resizeNode, alike.node pair]
  exact alike.put pair _

theorem Alike.truncate
    (alike : Alike names linked sys other) (named : names path)
    {length : Int} {done : Except Errno Unit}
    (called :
      sys.truncate platform choice path length = some (done, later)) :
    Follows platform names linked choice (.truncate path length) done sys
      later other := by
  rcases choice with number | errno
  · rcases alike.entries named with
      ⟨absent, absent'⟩ | ⟨i, j, found, found', pair⟩
    · simp only [Sys.truncate, absent, Sys.refuse] at called
      cases called
      apply follows_of_alike _ alike
      simp only [kernel, Sys.truncate, absent', Sys.refuse]
    · have node := alike.node pair
      simp only [Sys.truncate, found] at called
      split at called
      · rename_i negative
        cases called
        apply follows_of_alike _ alike
        simp only [kernel, Sys.truncate, found', negative, if_true]
        rfl
      · rename_i nonnegative
        split at called
        · rename_i directory
          cases called
          apply follows_of_alike _ alike
          simp only [kernel, Sys.truncate, found', ← node, directory]
          rw [if_neg nonnegative]
          rfl
        · cases called
          apply follows_of_alike _ (alike.resizeNode pair _)
          simp only [kernel, Sys.truncate, found', ← node]
          rw [if_neg nonnegative]
  · cases called
    exact follows_of_alike rfl alike

theorem Alike.ftruncate
    (alike : Alike names linked sys other) {length : Int}
    {done : Except Errno Unit}
    (called :
      sys.ftruncate platform choice fd length = some (done, later)) :
    Follows platform names linked choice (.ftruncate fd length) done sys
      later other := by
  rcases choice with number | errno
  · rcases alike.files fd with
      ⟨free, free'⟩ | ⟨file, file', held, held', same⟩
    · simp only [Sys.ftruncate, free, Sys.refuse] at called
      cases called
      apply follows_of_alike _ alike
      simp only [kernel, Sys.ftruncate, free', Sys.refuse]
    · simp only [Sys.ftruncate, held] at called
      split at called
      · rename_i refused
        cases called
        apply follows_of_alike _ alike
        simp only [kernel, Sys.ftruncate, held', same.writable]
        rw [if_pos refused]
        rfl
      · rename_i allowed
        cases called
        apply follows_of_alike _ (alike.resizeNode same.ino _)
        simp only [kernel, Sys.ftruncate, held', same.writable]
        rw [if_neg allowed]
  · cases called
    exact follows_of_alike rfl alike

theorem Alike.rename
    (alike : Alike names linked sys other) {old new : CString}
    (named : names old) {done : Except Errno Unit}
    (called : sys.rename choice old new = some (done, later)) :
    Follows platform names linked choice (.rename old new) done sys later
      other := by
  rcases choice with number | errno
  · rcases alike.entries named with
      ⟨absent, absent'⟩ | ⟨i, j, found, found', pair⟩
    · simp only [Sys.rename, absent, Sys.refuse] at called
      cases called
      apply follows_of_alike _ alike
      simp only [kernel, Sys.rename, absent', Sys.refuse]
    · simp only [Sys.rename, found] at called
      split at called
      · rename_i same
        cases called
        apply follows_of_alike _ alike
        simp only [kernel, Sys.rename, found']
        rw [if_pos same]
      · rename_i different
        cases called
        apply follows_of_alike _ (alike.move named)
        simp only [kernel, Sys.rename, found']
        rw [if_neg different]
  · cases called
    exact follows_of_alike rfl alike

theorem Alike.unlink
    (alike : Alike names linked sys other) (named : names path)
    {removed : Except Errno Unit}
    (called : sys.unlink choice path = some (removed, later)) :
    Follows platform names linked choice (.unlink path) removed sys later
      other := by
  have same := alike.lookup named
  rcases choice with number | errno
  · simp only [Sys.unlink] at called
    split at called
    · rename_i wrong
      cases wrong
    · rename_i missing
      cases called
      apply follows_of_alike _ alike
      simp only [kernel, Sys.unlink, ← same, missing, Sys.refuse]
    · rename_i directory
      cases called
      apply follows_of_alike _ alike
      simp only [kernel, Sys.unlink, ← same, directory, Sys.refuse]
    · rename_i node regular found
      cases called
      apply follows_of_alike _ (alike.remove path)
      simp only [kernel, Sys.unlink, ← same, found]
  · cases called
    exact follows_of_alike rfl alike

theorem Alike.mkdir
    (alike : Alike names linked sys other) (named : names path)
    {made : Except Errno Unit}
    (called : sys.mkdir choice path = some (made, later)) :
    Follows platform names linked choice (.mkdir path) made sys later
      other := by
  rcases choice with number | errno
  · rcases alike.entries named with
      ⟨absent, absent'⟩ | ⟨i, j, found, found', pair⟩
    · simp only [Sys.mkdir, absent] at called
      cases called
      refine
        ⟨withFresh linked sys other, _, ?_, alike.link path .directory, ?_⟩
      · simp only [kernel, Sys.mkdir, absent']
      · rintro i j (pair | ⟨rfl, _⟩)
        · exact Or.inl pair
        · exact Or.inr rfl
    · simp only [Sys.mkdir, found, Sys.refuse] at called
      cases called
      apply follows_of_alike _ alike
      simp only [kernel, Sys.mkdir, found', Sys.refuse]
  · cases called
    exact follows_of_alike rfl alike

/-- A handle is entered under a free number. -/
theorem Alike.installHandle
    (alike : Alike names linked sys other) (number : Nat) (writing : Bool)
    {i j : Ino} (pair : linked i j) :
    Alike names linked
      { sys with
        proc := sys.proc.setHandle number (some ⟨i, writing⟩) }
      { other with
        proc := other.proc.setHandle number (some ⟨j, writing⟩) } :=
  alike.setHandle number (.some ⟨pair, rfl⟩)

theorem Alike.h5fcreate
    (alike : Alike names linked sys other) (named : names path)
    {created : Option Int}
    (called : sys.h5fcreate choice path = some (created, later)) :
    Follows platform names linked choice (.h5fcreate path) created sys later
      other := by
  rcases choice with number | errno
  · by_cases zero : number = 0
    · simp only [Sys.h5fcreate, zero, true_or, if_true, reduceCtorEq]
        at called
    · rcases alike.handles number with
        ⟨free, free'⟩ | ⟨handle, handle', held, _⟩
      · rcases alike.entries named with
          ⟨absent, absent'⟩ | ⟨i, j, found, found', pair⟩
        · simp only [Sys.h5fcreate, zero, free, absent, ne_eq,
            not_true_eq_false, or_self, if_false] at called
          cases called
          refine
            ⟨withFresh linked sys other, _, ?_,
              (alike.link path (.image .created)).installHandle number true
                (Or.inr ⟨rfl, rfl⟩), ?_⟩
          · simp only [kernel, Sys.h5fcreate, zero, free', absent', ne_eq,
              not_true_eq_false, or_self, if_false, Sys.installHandle]
          · rintro i j (pair | ⟨rfl, _⟩)
            · exact Or.inl pair
            · exact Or.inr rfl
        · have emptied :=
            (alike.put pair (.image .created)).installHandle number true pair
          have node := alike.node pair
          simp only [Sys.h5fcreate, zero, free, found, ne_eq,
            not_true_eq_false, or_self, if_false] at called
          cases content : sys.fs.node i with
          | directory =>
              rw [content] at node
              simp only [content] at called
              cases called
              apply follows_of_alike _ alike
              simp only [kernel, Sys.h5fcreate, zero, free', found', ne_eq,
                not_true_eq_false, or_self, if_false, ← node]
          | file bytes =>
              rw [content] at node
              simp only [content] at called
              cases called
              apply follows_of_alike _ emptied
              simp only [kernel, Sys.h5fcreate, zero, free', found', ne_eq,
                not_true_eq_false, or_self, if_false, ← node,
                Sys.installHandle]
          | image stored =>
              rw [content] at node
              simp only [content] at called
              split at called
              · rename_i locked
                cases called
                apply follows_of_alike _ alike
                simp only [kernel, Sys.h5fcreate, zero, free', found', ne_eq,
                  not_true_eq_false, or_self, if_false, ← node]
                exact if_pos locked
              · rename_i unlocked
                cases called
                apply follows_of_alike _ emptied
                simp only [kernel, Sys.h5fcreate, zero, free', found', ne_eq,
                  not_true_eq_false, or_self, if_false, ← node]
                exact if_neg unlocked
      · simp only [Sys.h5fcreate, held, ne_eq, reduceCtorEq,
          not_false_eq_true, or_true, if_true] at called
  · cases called
    exact follows_of_alike rfl alike

theorem Alike.h5fopen
    (alike : Alike names linked sys other) (named : names path)
    {opened : Option Int}
    (called : sys.h5fopen choice path = some (opened, later)) :
    Follows platform names linked choice (.h5fopen path) opened sys later
      other := by
  rcases choice with number | errno
  · by_cases zero : number = 0
    · simp only [Sys.h5fopen, zero, true_or, if_true, reduceCtorEq]
        at called
    · rcases alike.handles number with
        ⟨free, free'⟩ | ⟨handle, handle', held, _⟩
      · rcases alike.entries named with
          ⟨absent, absent'⟩ | ⟨i, j, found, found', pair⟩
        · simp only [Sys.h5fopen, zero, free, absent, ne_eq,
            not_true_eq_false, or_self, if_false] at called
          cases called
          apply follows_of_alike _ alike
          simp only [kernel, Sys.h5fopen, zero, free', absent', ne_eq,
            not_true_eq_false, or_self, if_false]
        · have node := alike.node pair
          simp only [Sys.h5fopen, zero, free, found, ne_eq,
            not_true_eq_false, or_self, if_false] at called
          cases content : sys.fs.node i with
          | directory =>
              rw [content] at node
              simp only [content] at called
              cases called
              apply follows_of_alike _ alike
              simp only [kernel, Sys.h5fopen, zero, free', found', ne_eq,
                not_true_eq_false, or_self, if_false, ← node]
          | file bytes =>
              rw [content] at node
              simp only [content] at called
              cases called
              apply follows_of_alike _ alike
              simp only [kernel, Sys.h5fopen, zero, free', found', ne_eq,
                not_true_eq_false, or_self, if_false, ← node]
          | image stored =>
              rw [content] at node
              simp only [content] at called
              split at called
              · rename_i locked
                cases called
                apply follows_of_alike _ alike
                simp only [kernel, Sys.h5fopen, zero, free', found', ne_eq,
                  not_true_eq_false, or_self, if_false, ← node]
                exact if_pos locked
              · rename_i unlocked
                cases called
                apply follows_of_alike _
                  (alike.installHandle number false pair)
                simp only [kernel, Sys.h5fopen, zero, free', found', ne_eq,
                  not_true_eq_false, or_self, if_false, ← node]
                exact if_neg unlocked
      · simp only [Sys.h5fopen, held, ne_eq, reduceCtorEq,
          not_false_eq_true, or_true, if_true] at called
  · cases called
    exact follows_of_alike rfl alike

/-- Closing a writing handle marks the same image. -/
theorem Alike.released
    (alike : Alike names linked sys other) {handle handle' : H5Handle}
    (same : SameHandle linked handle handle') (success : Bool) :
    Alike names linked { sys with fs := sys.released handle success }
      { other with fs := other.released handle' success } := by
  rw [Sys.released, Sys.released, same.writing, alike.node same.ino]
  split
  · exact alike.put same.ino _
  · exact alike

theorem Alike.h5fclose
    (alike : Alike names linked sys other) {success : Bool}
    (called : sys.h5fclose choice h5fd = some (success, later)) :
    Follows platform names linked choice (.h5fclose h5fd) success sys later
      other := by
  rcases alike.handles h5fd with
    ⟨free, free'⟩ | ⟨handle, handle', held, held', same⟩
  · simp only [Sys.h5fclose, free] at called
    cases called
    apply follows_of_alike _ alike
    simp only [kernel, Sys.h5fclose, free']
  · simp only [Sys.h5fclose, held] at called
    cases called
    apply follows_of_alike _
      ((alike.released same _).setHandle h5fd .none)
    simp only [kernel, Sys.h5fclose, held']

/-- A handle of the same image shows the same. -/
theorem Alike.imageOf
    (alike : Alike names linked sys other) (h5fd : Int) :
    other.imageOf h5fd = sys.imageOf h5fd := by
  rw [Sys.imageOf, Sys.imageOf]
  rcases alike.handles h5fd with
    ⟨free, free'⟩ | ⟨handle, handle', held, held', same⟩
  · rw [free, free']
    rfl
  · rw [held, held', Option.bind_some, Option.bind_some,
      alike.node same.ino]

theorem Alike.h5dwrite
    (alike : Alike names linked sys other) {name : Dataset} {data : Bytes}
    {written : Bool}
    (called : sys.h5dwrite choice h5fd name data = some (written, later)) :
    Follows platform names linked choice (.h5dwrite h5fd name data) written
      sys later other := by
  rcases choice with number | errno
  · rcases alike.handles h5fd with
      ⟨free, free'⟩ | ⟨handle, handle', held, held', same⟩
    · simp only [Sys.h5dwrite, free] at called
      cases called
      apply follows_of_alike _ alike
      simp only [kernel, Sys.h5dwrite, free']
    · have image := alike.imageOf h5fd
      cases stored : sys.imageOf h5fd with
      | none =>
          simp only [Sys.h5dwrite, held, stored] at called
          cases called
          apply follows_of_alike _ alike
          simp only [kernel, Sys.h5dwrite, held', image, stored]
      | some content =>
          simp only [Sys.h5dwrite, held, stored] at called
          split at called
          · rename_i refused
            cases called
            apply follows_of_alike _ alike
            simp only [kernel, Sys.h5dwrite, held', image, stored,
              ← same.writing]
            rw [if_pos refused]
          · rename_i allowed
            cases called
            apply follows_of_alike _ (alike.put same.ino _)
            simp only [kernel, Sys.h5dwrite, held', image, stored,
              ← same.writing]
            rw [if_neg allowed]
  · cases called
    exact follows_of_alike rfl alike

theorem Alike.statfs
    (alike : Alike names linked sys other) (named : names path)
    {found : Except Errno Unit}
    (called : kernel platform sys choice (.statfs path) = some (found, later)) :
    Follows platform names linked choice (.statfs path) found sys later
      other := by
  rcases choice with number | errno
  · rcases alike.entries named with
      ⟨absent, absent'⟩ | ⟨i, j, found, found', pair⟩
    · simp only [kernel, absent, Sys.refuse] at called
      cases called
      apply follows_of_alike _ alike
      simp only [kernel, absent', Sys.refuse]
    · simp only [kernel, found] at called
      cases called
      apply follows_of_alike _ alike
      simp only [kernel, found']
  · cases called
    exact follows_of_alike rfl alike

/-- Every call that looks at no other name. -/
theorem Alike.kernel
    (alike : Alike names linked sys other) {op : Op} {reply : Reply op}
    (sees : Sees names op)
    (called : kernel platform sys choice op = some (reply, later)) :
    Follows platform names linked choice op reply sys later other := by
  cases op with
  | stat path => exact alike.stat sees called
  | openFile path flags => exact alike.openFile sees called
  | close fd => exact alike.close called
  | read fd count => exact alike.read called
  | pread fd count offset => exact alike.pread called
  | write fd data => exact alike.write called
  | pwrite fd data offset => exact alike.pwrite called
  | lseek fd offset whence => exact alike.lseek called
  | truncate path length => exact alike.truncate sees called
  | ftruncate fd length => exact alike.ftruncate called
  | rename old new => exact alike.rename sees.1 called
  | unlink path => exact alike.unlink sees called
  | mkdir path => exact alike.mkdir sees called
  | h5fcreate path => exact alike.h5fcreate sees called
  | h5fopen path => exact alike.h5fopen sees called
  | h5fclose h5fd => exact alike.h5fclose called
  | h5dwrite h5fd name data => exact alike.h5dwrite called
  | h5image h5fd =>
      cases called
      apply follows_of_alike _ alike
      rw [← alike.imageOf h5fd]
      rfl
  | sqlite3_exec stmt =>
      cases choice
      · cases called
        exact follows_of_alike rfl (alike.db _ _)
      · cases called
        exact follows_of_alike rfl alike
  | sqlite3_get_table => exact sees.elim
  | statfs path => exact alike.statfs sees called
  | add_dzfd fd dzfd =>
      cases called
      exact follows_of_alike rfl (alike.setMap fd _)
  | remove_dzfd fd =>
      cases called
      exact follows_of_alike rfl (alike.setMap fd _)
  | find_dzfd fd =>
      cases called
      apply follows_of_alike _ alike
      rw [alike.map]
      rfl
  | _ =>
      cases choice
      all_goals
        cases called
        exact follows_of_alike rfl alike

end Calls

end DZFile.Separation
