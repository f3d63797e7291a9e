import DZFile.Image
import DZFile.Metadata
import DZFile.Library.Interaction
import Mathlib.Logic.Function.Basic

/-!
# The environment of the program

Everything the modelled functions call: the file system and descriptors of one
process, the HDF5 library's files and handles, the database, the descriptor
map of `sparsehash-map.cc` and `malloc`.  A call is an operation `Op`; the
function `kernel` answers it according to a `Choice`, which says whether the
call fails and, where the environment is free, with what descriptor number or
after how many bytes it succeeds.  `kernel` is `none` for a choice the
environment cannot make, such as a descriptor number in use.

Names and inodes are kept apart, since the program renames and removes files
that others hold open.  A path is identified with its string: two strings are
two places, so paths are taken as normalised, and a result about other
spellings of one place needs their resolution.  Symbolic links and permissions
are not modelled: `stat` and `lstat` agree, and a refusal is a choice.
-/

namespace DZFile.Kernel

open DZFile.ByteSeq
open DZFile.Names
open DZFile.Codec
open DZFile.Image
open DZFile.Metadata
open DZFile.Interaction

/-! ## Files -/

/-- The error numbers the source names or that a refusal may carry. -/
inductive Errno where
  | EPERM | ENOENT | EIO | EBADF | ENOMEM | EACCES | EEXIST | ENOTDIR
  | EISDIR | EINVAL | ENOSPC | ENOTSUP
deriving DecidableEq

/-- The number behind the macro. -/
def Errno.code : Errno → Int
  | .EPERM => 1
  | .ENOENT => 2
  | Errno.EIO => 5
  | .EBADF => 9
  | .ENOMEM => 12
  | .EACCES => 13
  | .EEXIST => 17
  | .ENOTDIR => 20
  | .EISDIR => 21
  | .EINVAL => 22
  | .ENOSPC => 28
  | .ENOTSUP => 95

/-- The number of an inode. -/
abbrev Ino := Nat

/-- What an inode holds. -/
inductive Node where
  | file (content : Bytes)
  | image (stored : H5Image)
  | directory
deriving DecidableEq

/-- The libraries, and the bytes HDF5 lays an image out in. -/
structure Platform where
  libs : Libs
  h5bytes : H5Image → Bytes

/-- The bytes a plain read of the inode sees. -/
def Node.bytes (platform : Platform) (node : Node) : Bytes :=
  match node with
  | .file content => content
  | .image stored => platform.h5bytes stored
  | .directory => []

/-- Names and inodes; every name refers to an inode in use. -/
structure FileSystem where
  entry : CString → Option Ino
  node : Ino → Node
  fresh : Ino
  entry_lt : ∀ path ino, entry path = some ino → ino < fresh

namespace FileSystem

/-- The inode a name refers to. -/
def lookup (fs : FileSystem) (path : CString) : Option Node :=
  (fs.entry path).map fs.node

/-- Give a name a new inode. -/
def link (fs : FileSystem) (path : CString) (node : Node) : FileSystem where
  entry := Function.update fs.entry path (some fs.fresh)
  node := Function.update fs.node fs.fresh node
  fresh := fs.fresh + 1
  entry_lt := by
    intro other ino found
    by_cases same : other = path
    · subst same
      simp only [Function.update_self, Option.some.injEq] at found
      subst found
      exact Nat.lt_succ_self fs.fresh
    · rw [Function.update_of_ne same] at found
      exact Nat.lt_succ_of_lt (fs.entry_lt other ino found)

/-- Change what an inode holds. -/
def put (fs : FileSystem) (ino : Ino) (node : Node) : FileSystem :=
  { fs with node := Function.update fs.node ino node }

/-- Take a name away. -/
def remove (fs : FileSystem) (path : CString) : FileSystem where
  entry := Function.update fs.entry path none
  node := fs.node
  fresh := fs.fresh
  entry_lt := by
    intro other ino found
    by_cases same : other = path
    · subst same
      simp at found
    · rw [Function.update_of_ne same] at found
      exact fs.entry_lt other ino found

/-- Move the inode of the name `old` to the name `new`. -/
def move (fs : FileSystem) (old new : CString) : FileSystem where
  entry :=
    Function.update (Function.update fs.entry old none) new (fs.entry old)
  node := fs.node
  fresh := fs.fresh
  entry_lt := by
    intro other ino found
    by_cases isNew : other = new
    · subst isNew
      simp only [Function.update_self] at found
      exact fs.entry_lt old ino found
    · rw [Function.update_of_ne isNew] at found
      by_cases isOld : other = old
      · subst isOld
        simp at found
      · rw [Function.update_of_ne isOld] at found
        exact fs.entry_lt other ino found

section Lemmas

variable (fs : FileSystem) (path old new : CString) (ino : Ino) (node : Node)

@[simp]
theorem entry_link :
    (fs.link path node).entry =
      Function.update fs.entry path (some fs.fresh) :=
  rfl

@[simp]
theorem node_link :
    (fs.link path node).node = Function.update fs.node fs.fresh node :=
  rfl

@[simp]
theorem entry_put : (fs.put ino node).entry = fs.entry :=
  rfl

@[simp]
theorem node_put :
    (fs.put ino node).node = Function.update fs.node ino node :=
  rfl

@[simp]
theorem entry_remove :
    (fs.remove path).entry = Function.update fs.entry path none :=
  rfl

@[simp]
theorem node_remove : (fs.remove path).node = fs.node :=
  rfl

@[simp]
theorem entry_move :
    (fs.move old new).entry =
      Function.update (Function.update fs.entry old none) new
        (fs.entry old) :=
  rfl

@[simp]
theorem node_move : (fs.move old new).node = fs.node :=
  rfl

@[simp]
theorem fresh_link : (fs.link path node).fresh = fs.fresh + 1 :=
  rfl

@[simp]
theorem fresh_put : (fs.put ino node).fresh = fs.fresh :=
  rfl

/-- A named inode is not the next free one. -/
theorem entry_ne_fresh
    {fs : FileSystem} {path : CString} {ino : Ino}
    (found : fs.entry path = some ino) :
    ino ≠ fs.fresh :=
  Nat.ne_of_lt (fs.entry_lt path ino found)

end Lemmas

end FileSystem

/-! ## Descriptors and handles -/

/-- `O_ACCMODE`, `O_WRONLY` and the flag bits of `open`. -/
def O_RDONLY : Nat := 0

@[inherit_doc O_RDONLY]
def O_WRONLY : Nat := 1

@[inherit_doc O_RDONLY]
def O_RDWR : Nat := 2

@[inherit_doc O_RDONLY]
def O_CREAT : Nat := 64

@[inherit_doc O_RDONLY]
def O_TRUNC : Nat := 512

/-- `flags & O_ACCMODE`. -/
def accessMode (flags : Nat) : Nat := flags % 4

/-- `flags & O_CREAT`. -/
def hasCreat (flags : Nat) : Bool := flags.testBit 6

/-- `flags & O_EXCL`. -/
def hasExcl (flags : Nat) : Bool := flags.testBit 7

/-- `flags & O_TRUNC`. -/
def hasTrunc (flags : Nat) : Bool := flags.testBit 9

/-- `flags & O_APPEND`. -/
def hasAppend (flags : Nat) : Bool := flags.testBit 10

/-- An open file description. -/
structure OpenFile where
  ino : Ino
  offset : Nat
  flags : Nat
deriving DecidableEq

/-- The access mode allows reading. -/
def OpenFile.readable (file : OpenFile) : Bool :=
  accessMode file.flags = O_RDONLY ∨ accessMode file.flags = O_RDWR

/-- The access mode allows writing. -/
def OpenFile.writable (file : OpenFile) : Bool :=
  accessMode file.flags = O_WRONLY ∨ accessMode file.flags = O_RDWR

/-- An open HDF5 file handle. -/
structure H5Handle where
  ino : Ino
  writing : Bool
deriving DecidableEq

/-- The fields of `dzfd_t` the program reads. -/
structure Dzfd where
  fd : Int
  h5fd : Int
deriving DecidableEq

/-- The tables of one process. -/
structure Process where
  fds : Int → Option OpenFile
  handles : Int → Option H5Handle
  h5fdmap : Int → Option Dzfd

/-- A process that has opened nothing. -/
def Process.empty : Process where
  fds _ := none
  handles _ := none
  h5fdmap _ := none

namespace Process

/-- Enter a descriptor. -/
def setFd (proc : Process) (fd : Int) (file : Option OpenFile) : Process :=
  { proc with fds := Function.update proc.fds fd file }

/-- Enter a handle. -/
def setHandle
    (proc : Process) (h5fd : Int) (handle : Option H5Handle) : Process :=
  { proc with handles := Function.update proc.handles h5fd handle }

/-- Enter an element of `h5fdmap`. -/
def setMap (proc : Process) (fd : Int) (dzfd : Option Dzfd) : Process :=
  { proc with h5fdmap := Function.update proc.h5fdmap fd dzfd }

@[simp]
theorem fds_setHandle
    (proc : Process) (h5fd : Int) (handle : Option H5Handle) :
    (proc.setHandle h5fd handle).fds = proc.fds :=
  rfl

@[simp]
theorem handles_setFd
    (proc : Process) (fd : Int) (file : Option OpenFile) :
    (proc.setFd fd file).handles = proc.handles :=
  rfl

end Process

/-- What one process sees: the shared file system and database, and itself. -/
structure Sys where
  fs : FileSystem
  db : Db
  proc : Process

/-! ## Operations -/

/-- The fields of `struct stat` the program reads. -/
structure Stat where
  isDir : Bool
  size : Nat
deriving DecidableEq

/-- The `whence` argument of `lseek`. -/
inductive Whence where
  | SEEK_SET | SEEK_CUR | SEEK_END
deriving DecidableEq

/-- The calls the program makes. -/
inductive Op where
  | stat (path : CString)
  | openFile (path : CString) (flags : Nat)
  | close (fd : Int)
  | read (fd : Int) (count : Nat)
  | pread (fd : Int) (count : Nat) (offset : Int)
  | write (fd : Int) (data : Bytes)
  | pwrite (fd : Int) (data : Bytes) (offset : Int)
  | lseek (fd : Int) (offset : Int) (whence : Whence)
  | truncate (path : CString) (length : Int)
  | ftruncate (fd : Int) (length : Int)
  | rename (old new : CString)
  | unlink (path : CString)
  | mkdir (path : CString)
  /-- `fcntl(F_GETLK)` and `fcntl(F_SETLK)` for a write lock. -/
  | getlk (fd : Int) (start length : Nat)
  | setlk (fd : Int) (start length : Nat)
  /-- `H5Fcreate(H5F_ACC_TRUNC)` and `H5Fopen(H5F_ACC_RDONLY)`. -/
  | h5fcreate (path : CString)
  | h5fopen (path : CString)
  | h5fclose (h5fd : Int)
  /-- `H5Dcreate` and `H5Dwrite` of one fixed-length string. -/
  | h5dwrite (h5fd : Int) (name : Dataset) (data : Bytes)
  /-- The datasets seen through a handle. -/
  | h5image (h5fd : Int)
  | compress (method : Alg) (srcdata : Bytes)
  | sqlite3_exec (stmt : Stmt)
  /-- `sqlite3_get_table` of the counters of `space`. -/
  | sqlite3_get_table
  /-- `statfs`, of which only the success decides anything. -/
  | statfs (path : CString)
  | malloc
  /-- The three functions of `sparsehash-map.cc`. -/
  | add_dzfd (fd : Int) (dzfd : Dzfd)
  | remove_dzfd (fd : Int)
  | find_dzfd (fd : Int)
  /-- `dzfile_init`, of which only the result is used. -/
  | dzfile_init
deriving DecidableEq

/-- What each call returns. -/
@[reducible]
def Reply : Op → Type
  | .stat _ => Except Errno Stat
  | .openFile _ _ => Except Errno Int
  | .close _ => Except Errno Unit
  | .read _ _ => Except Errno Bytes
  | .pread _ _ _ => Except Errno Bytes
  | .write _ _ => Except Errno Nat
  | .pwrite _ _ _ => Except Errno Nat
  | .lseek _ _ _ => Except Errno Nat
  | .truncate _ _ => Except Errno Unit
  | .ftruncate _ _ => Except Errno Unit
  | .rename _ _ => Except Errno Unit
  | .unlink _ => Except Errno Unit
  | .mkdir _ => Except Errno Unit
  | .getlk _ _ _ => Except Errno Bool
  | .setlk _ _ _ => Except Errno Unit
  | .h5fcreate _ => Option Int
  | .h5fopen _ => Option Int
  | .h5fclose _ => Bool
  | .h5dwrite _ _ _ => Bool
  | .h5image _ => Option H5Image
  | .compress _ _ => Option Bytes
  | .sqlite3_exec _ => Bool
  | .sqlite3_get_table => Option (List (Field → Int))
  | .statfs _ => Except Errno Unit
  | .malloc => Bool
  | .add_dzfd _ _ => Unit
  | .remove_dzfd _ => Unit
  | .find_dzfd _ => Option Dzfd
  | .dzfile_init => Int

/-- A program without loops over these calls. -/
abbrev Call := Prog Op Reply

/--
What the environment decides about a call: that it fails, or that it succeeds
with the given new descriptor or handle, or after at most so many bytes.
-/
inductive Choice where
  | ok (number : Nat)
  | fail (errno : Errno)
deriving DecidableEq

/-- The choice makes the call fail. -/
def Choice.fails : Choice → Bool
  | .ok _ => false
  | .fail _ => true

namespace Sys

variable (platform : Platform) (sys : Sys)

/-- A failing call leaves everything as it is. -/
def refuse {α : Type} (errno : Errno) : Option (Except Errno α × Sys) :=
  some (.error errno, sys)

/-- `stat`; `ENOENT` is only reported for a missing name. -/
def stat (choice : Choice) (path : CString) :
    Option (Except Errno Stat × Sys) :=
  match choice with
  | .fail errno => if errno = .ENOENT then none else sys.refuse errno
  | .ok _ =>
      match sys.fs.lookup path with
      | none => sys.refuse .ENOENT
      | some .directory => some (.ok ⟨true, 0⟩, sys)
      | some node => some (.ok ⟨false, (node.bytes platform).length⟩, sys)

/-- Enter a descriptor for an inode under a free number. -/
def install (number : Nat) (ino : Ino) (flags : Nat) (fs : FileSystem) :
    Option (Except Errno Int × Sys) :=
  some
    (.ok number,
      { sys with
        fs := fs
        proc := sys.proc.setFd number (some ⟨ino, 0, flags⟩) })

/-- `open`. -/
def openFile (choice : Choice) (path : CString) (flags : Nat) :
    Option (Except Errno Int × Sys) :=
  match choice with
  | .fail errno => sys.refuse errno
  | .ok number =>
      if sys.proc.fds number ≠ none then none
      else
        match sys.fs.entry path with
        | none =>
            if hasCreat flags then
              sys.install number sys.fs.fresh flags
                (sys.fs.link path (.file []))
            else sys.refuse .ENOENT
        | some ino =>
            if hasCreat flags && hasExcl flags then sys.refuse .EEXIST
            else
              match sys.fs.node ino with
              | .directory =>
                  if accessMode flags = O_RDONLY && !hasCreat flags then
                    sys.install number ino flags sys.fs
                  else sys.refuse .EISDIR
              | _ =>
                  sys.install number ino flags
                    (if hasTrunc flags then sys.fs.put ino (.file [])
                      else sys.fs)

/-- `close`; the number is free afterwards even when it reports an error. -/
def close (choice : Choice) (fd : Int) : Option (Except Errno Unit × Sys) :=
  match sys.proc.fds fd with
  | none => sys.refuse .EBADF
  | some _ =>
      let closed := { sys with proc := sys.proc.setFd fd none }
      match choice with
      | .fail errno => closed.refuse errno
      | .ok _ => some (.ok (), closed)

/--
The bytes a read of `count` at `offset` transfers: any positive number up to
what there is, and none only when there is none.
-/
def transfer (content : Bytes) (offset count limit : Nat) : Option Bytes :=
  if limit = 0 ∧ slice content offset count ≠ [] then none
  else some (slice content offset (min limit count))

/-- `read`. -/
def read (choice : Choice) (fd : Int) (count : Nat) :
    Option (Except Errno Bytes × Sys) :=
  match choice, sys.proc.fds fd with
  | .fail errno, _ => sys.refuse errno
  | .ok _, none => sys.refuse .EBADF
  | .ok limit, some file =>
      if file.readable = false then sys.refuse .EBADF
      else
        match sys.fs.node file.ino with
        | .directory => sys.refuse .EISDIR
        | node =>
            (transfer (node.bytes platform) file.offset count limit).map
              fun data =>
                (.ok data,
                  { sys with
                    proc :=
                      sys.proc.setFd fd
                        (some
                          { file with
                            offset := file.offset + data.length }) })

/-- `pread`. -/
def pread (choice : Choice) (fd : Int) (count : Nat) (offset : Int) :
    Option (Except Errno Bytes × Sys) :=
  match choice, sys.proc.fds fd with
  | .fail errno, _ => sys.refuse errno
  | .ok _, none => sys.refuse .EBADF
  | .ok limit, some file =>
      if file.readable = false then sys.refuse .EBADF
      else if offset < 0 then sys.refuse .EINVAL
      else
        match sys.fs.node file.ino with
        | .directory => sys.refuse .EISDIR
        | node =>
            (transfer (node.bytes platform) offset.toNat count limit).map
              fun data => (.ok data, sys)

/-- Write the start of `data` at a position of an open file. -/
def writeAt (file : OpenFile) (position limit : Nat) (data : Bytes) :
    FileSystem :=
  sys.fs.put file.ino
    (.file
      (overwrite 0 ((sys.fs.node file.ino).bytes platform) position
        (data.take limit)))

/-- Where a write that asks for `position` lands. -/
def landing (file : OpenFile) (position : Nat) : Nat :=
  if hasAppend file.flags then
    ((sys.fs.node file.ino).bytes platform).length
  else position

/-- `write`; a write may be short. -/
def write (choice : Choice) (fd : Int) (data : Bytes) :
    Option (Except Errno Nat × Sys) :=
  match choice, sys.proc.fds fd with
  | .fail errno, _ => sys.refuse errno
  | .ok _, none => sys.refuse .EBADF
  | .ok limit, some file =>
      if file.writable = false then sys.refuse .EBADF
      else
        let position := sys.landing platform file file.offset
        some
          (.ok (min limit data.length),
            { sys with
              fs := sys.writeAt platform file position limit data
              proc :=
                sys.proc.setFd fd
                  (some
                    { file with
                      offset := position + min limit data.length }) })

/-- `pwrite`; Linux appends when the descriptor was opened with `O_APPEND`. -/
def pwrite (choice : Choice) (fd : Int) (data : Bytes) (offset : Int) :
    Option (Except Errno Nat × Sys) :=
  match choice, sys.proc.fds fd with
  | .fail errno, _ => sys.refuse errno
  | .ok _, none => sys.refuse .EBADF
  | .ok limit, some file =>
      if file.writable = false then sys.refuse .EBADF
      else if offset < 0 then sys.refuse .EINVAL
      else
        some
          (.ok (min limit data.length),
            { sys with
              fs :=
                sys.writeAt platform file
                  (sys.landing platform file offset.toNat) limit data })

/-- `lseek`. -/
def lseek (choice : Choice) (fd : Int) (offset : Int) (whence : Whence) :
    Option (Except Errno Nat × Sys) :=
  match choice, sys.proc.fds fd with
  | .fail errno, _ => sys.refuse errno
  | .ok _, none => sys.refuse .EBADF
  | .ok _, some file =>
      let base : Nat :=
        match whence with
        | .SEEK_SET => 0
        | .SEEK_CUR => file.offset
        | .SEEK_END => ((sys.fs.node file.ino).bytes platform).length
      if base + offset < 0 then sys.refuse .EINVAL
      else
        some
          (.ok (base + offset).toNat,
            { sys with
              proc :=
                sys.proc.setFd fd
                  (some { file with offset := (base + offset).toNat }) })

/-- Cut or extend an inode. -/
def resizeNode (ino : Ino) (length : Nat) : FileSystem :=
  sys.fs.put ino
    (.file (resize 0 ((sys.fs.node ino).bytes platform) length))

/-- `truncate`. -/
def truncate (choice : Choice) (path : CString) (length : Int) :
    Option (Except Errno Unit × Sys) :=
  match choice, sys.fs.entry path with
  | .fail errno, _ => sys.refuse errno
  | .ok _, none => sys.refuse .ENOENT
  | .ok _, some ino =>
      if length < 0 then sys.refuse .EINVAL
      else
        match sys.fs.node ino with
        | .directory => sys.refuse .EISDIR
        | _ =>
            some
              (.ok (),
                { sys with fs := sys.resizeNode platform ino length.toNat })

/-- `ftruncate`. -/
def ftruncate (choice : Choice) (fd : Int) (length : Int) :
    Option (Except Errno Unit × Sys) :=
  match choice, sys.proc.fds fd with
  | .fail errno, _ => sys.refuse errno
  | .ok _, none => sys.refuse .EBADF
  | .ok _, some file =>
      if length < 0 ∨ file.writable = false then sys.refuse .EINVAL
      else
        some
          (.ok (),
            { sys with
              fs := sys.resizeNode platform file.ino length.toNat })

/-- `rename`. -/
def rename (choice : Choice) (old new : CString) :
    Option (Except Errno Unit × Sys) :=
  match choice, sys.fs.entry old with
  | .fail errno, _ => sys.refuse errno
  | .ok _, none => sys.refuse .ENOENT
  | .ok _, some _ =>
      if old = new then some (.ok (), sys)
      else some (.ok (), { sys with fs := sys.fs.move old new })

/-- `unlink`. -/
def unlink (choice : Choice) (path : CString) :
    Option (Except Errno Unit × Sys) :=
  match choice, sys.fs.lookup path with
  | .fail errno, _ => sys.refuse errno
  | .ok _, none => sys.refuse .ENOENT
  | .ok _, some .directory => sys.refuse .EISDIR
  | .ok _, some _ =>
      some (.ok (), { sys with fs := sys.fs.remove path })

/-- `mkdir`. -/
def mkdir (choice : Choice) (path : CString) :
    Option (Except Errno Unit × Sys) :=
  match choice, sys.fs.entry path with
  | .fail errno, _ => sys.refuse errno
  | .ok _, some _ => sys.refuse .EEXIST
  | .ok _, none =>
      some (.ok (), { sys with fs := sys.fs.link path .directory })

/-! ### HDF5 -/

/-- Enter a handle for an inode under a free positive number. -/
def installHandle
    (number : Nat) (handle : H5Handle) (fs : FileSystem) :
    Option (Option Int × Sys) :=
  some
    (some (number : Int),
      { sys with
        fs := fs
        proc := sys.proc.setHandle number (some handle) })

/--
`H5Fcreate`.  An existing file is emptied in place, unless a writing handle
holds its lock.
-/
def h5fcreate (choice : Choice) (path : CString) :
    Option (Option Int × Sys) :=
  match choice with
  | .fail _ => some (none, sys)
  | .ok number =>
      if number = 0 ∨ sys.proc.handles number ≠ none then none
      else
        match sys.fs.entry path with
        | none =>
            sys.installHandle number ⟨sys.fs.fresh, true⟩
              (sys.fs.link path (.image .created))
        | some ino =>
            match sys.fs.node ino with
            | .directory => some (none, sys)
            | .file _ =>
                sys.installHandle number ⟨ino, true⟩
                  (sys.fs.put ino (.image .created))
            | .image image =>
                if image.writer then some (none, sys)
                else
                  sys.installHandle number ⟨ino, true⟩
                    (sys.fs.put ino (.image .created))

/-- `H5Fopen` for reading, which a writing handle locks out. -/
def h5fopen (choice : Choice) (path : CString) :
    Option (Option Int × Sys) :=
  match choice with
  | .fail _ => some (none, sys)
  | .ok number =>
      if number = 0 ∨ sys.proc.handles number ≠ none then none
      else
        match sys.fs.entry path with
        | none => some (none, sys)
        | some ino =>
            match sys.fs.node ino with
            | .image image =>
                if image.writer then some (none, sys)
                else sys.installHandle number ⟨ino, false⟩ sys.fs
            | _ => some (none, sys)

/-- The file system after a handle has been closed. -/
def released (handle : H5Handle) (success : Bool) : FileSystem :=
  match handle.writing, sys.fs.node handle.ino with
  | true, .image image =>
      sys.fs.put handle.ino
        (.image { image with writer := false, closed := success })
  | _, _ => sys.fs

/-- `H5Fclose`; the handle is gone even when the flush fails. -/
def h5fclose (choice : Choice) (h5fd : Int) : Option (Bool × Sys) :=
  match sys.proc.handles h5fd with
  | none => some (false, sys)
  | some handle =>
      let success :=
        match choice with
        | .ok _ => true
        | .fail _ => false
      some
        (success,
          { sys with
            fs := sys.released handle success
            proc := sys.proc.setHandle h5fd none })

/-- The image behind a handle. -/
def imageOf (h5fd : Int) : Option H5Image :=
  (sys.proc.handles h5fd).bind fun handle =>
    match sys.fs.node handle.ino with
    | .image image => some image
    | _ => none

/-- Writing a dataset; a name that exists is refused. -/
def h5dwrite (choice : Choice) (h5fd : Int) (name : Dataset) (data : Bytes) :
    Option (Bool × Sys) :=
  match choice, sys.proc.handles h5fd, sys.imageOf h5fd with
  | .ok _, some handle, some image =>
      if handle.writing = false ∨ image.dataset name ≠ none then
        some (false, sys)
      else
        some
          (true,
            { sys with
              fs :=
                sys.fs.put handle.ino
                  (.image (image.addDataset name data)) })
  | _, _, _ => some (false, sys)

/-! ### What a call can do -/

section Answers

variable {platform : Platform} {sys sys' : Sys} {choice : Choice}

theorem stat_eq_some
    {path : CString} {found : Except Errno Stat}
    (called : sys.stat platform choice path = some (found, sys')) :
    sys' = sys ∧
      ∀ stbuf, found = .ok stbuf →
        ∃ ino, sys.fs.entry path = some ino ∧
          stbuf.size = ((sys.fs.node ino).bytes platform).length := by
  unfold stat at called
  cases choice with
  | fail errno =>
      simp only [refuse] at called
      split at called
      · cases called
      · cases called
        exact ⟨rfl, by simp⟩
  | ok number =>
      cases entry : sys.fs.entry path with
      | none =>
          simp only [FileSystem.lookup, entry, Option.map_none, refuse]
            at called
          cases called
          exact ⟨rfl, by simp⟩
      | some ino =>
          simp only [FileSystem.lookup, entry, Option.map_some] at called
          cases node : sys.fs.node ino with
          | directory =>
              rw [node] at called
              cases called
              exact ⟨rfl, by simp [Node.bytes, node]⟩
          | file content =>
              rw [node] at called
              cases called
              exact ⟨rfl, by simp [node]⟩
          | image stored =>
              rw [node] at called
              cases called
              exact ⟨rfl, by simp [node]⟩

/-- `ENOENT` is only reported for a missing name. -/
theorem entry_of_stat_ENOENT
    {path : CString}
    (called : sys.stat platform choice path = some (.error .ENOENT, sys')) :
    sys.fs.entry path = none := by
  cases entry : sys.fs.entry path with
  | none => rfl
  | some ino =>
      cases choice with
      | fail errno =>
          simp only [stat, refuse] at called
          split at called
          · cases called
          · rename_i other
            cases called
            exact (other rfl).elim
      | ok number =>
          simp only [stat, FileSystem.lookup, entry, Option.map_some] at called
          cases node : sys.fs.node ino <;>
            rw [node] at called <;> cases called

theorem h5dwrite_eq_some
    {h5fd : Int} {name : Dataset} {data : Bytes} {written : Bool}
    (called : sys.h5dwrite choice h5fd name data = some (written, sys')) :
    (written = false ∧ sys' = sys) ∨
      (written = true ∧
        ∃ handle image,
          sys.proc.handles h5fd = some handle ∧
            sys.fs.node handle.ino = .image image ∧
              image.dataset name = none ∧
                sys' =
                  { sys with
                    fs :=
                      sys.fs.put handle.ino
                        (.image (image.addDataset name data)) }) := by
  unfold h5dwrite at called
  split at called
  · rename_i handle image held stored
    split at called
    · cases called
      exact Or.inl ⟨rfl, rfl⟩
    · rename_i allowed
      rw [not_or, not_not] at allowed
      cases called
      refine Or.inr ⟨rfl, handle, image, held, ?_, allowed.2, rfl⟩
      unfold imageOf at stored
      rw [held, Option.bind_some] at stored
      split at stored
      · rename_i node
        cases stored
        exact node
      · cases stored
  · cases called
    exact Or.inl ⟨rfl, rfl⟩

/-- A write changes the inode behind its descriptor, and only when it succeeds. -/
theorem write_eq_some
    {fd : Int} {data : Bytes} {result : Except Errno Nat}
    (called : sys.write platform choice fd data = some (result, sys')) :
    (∃ errno, result = .error errno ∧ sys' = sys) ∨
      ∃ limit file,
        sys.proc.fds fd = some file ∧
          result = .ok (min limit data.length) ∧
            sys'.fs =
              sys.writeAt platform file
                (sys.landing platform file file.offset) limit data ∧
              sys'.proc =
                sys.proc.setFd fd
                  (some
                    { file with
                      offset :=
                        sys.landing platform file file.offset +
                          min limit data.length }) := by
  unfold write at called
  split at called
  · cases called
    exact Or.inl ⟨_, rfl, rfl⟩
  · cases called
    exact Or.inl ⟨_, rfl, rfl⟩
  · rename_i limit file held
    split at called
    · cases called
      exact Or.inl ⟨_, rfl, rfl⟩
    · cases called
      exact Or.inr ⟨limit, file, held, rfl, rfl, rfl⟩

@[inherit_doc write_eq_some]
theorem pwrite_eq_some
    {fd : Int} {data : Bytes} {offset : Int} {result : Except Errno Nat}
    (called :
      sys.pwrite platform choice fd data offset = some (result, sys')) :
    (∃ errno, result = .error errno ∧ sys' = sys) ∨
      ∃ limit file,
        choice = .ok limit ∧ sys.proc.fds fd = some file ∧
          result = .ok (min limit data.length) ∧
            sys'.fs =
              sys.writeAt platform file
                (sys.landing platform file offset.toNat) limit data ∧
              sys'.proc = sys.proc := by
  unfold pwrite at called
  split at called
  · cases called
    exact Or.inl ⟨_, rfl, rfl⟩
  · cases called
    exact Or.inl ⟨_, rfl, rfl⟩
  · rename_i limit file held
    split at called
    · cases called
      exact Or.inl ⟨_, rfl, rfl⟩
    · split at called
      · cases called
        exact Or.inl ⟨_, rfl, rfl⟩
      · cases called
        exact Or.inr ⟨limit, file, rfl, held, rfl, rfl, rfl⟩

/-- A write that the system grants, on a descriptor that is not appending. -/
theorem pwrite_granted
    {fd : Int} {file : OpenFile} (held : sys.proc.fds fd = some file)
    (writable : file.writable = true)
    (limit offset : Nat) (data : Bytes) :
    sys.pwrite platform (.ok limit) fd data (offset : Int) =
      some
        (.ok (min limit data.length),
          { sys with
            fs :=
              sys.writeAt platform file (sys.landing platform file offset)
                limit data }) := by
  have nonnegative : ¬ (offset : Int) < 0 := by omega
  simp only [pwrite, held, writable, Bool.true_eq_false, if_false,
    nonnegative, Int.toNat_natCast]

theorem truncate_eq_some
    {path : CString} {length : Nat} {done : Except Errno Unit}
    (called :
      sys.truncate platform choice path length = some (done, sys')) :
    (∃ errno, done = .error errno ∧ sys' = sys) ∨
      (done = .ok () ∧ choice.fails = false ∧
        ∃ ino, sys.fs.entry path = some ino ∧
          sys' = { sys with fs := sys.resizeNode platform ino length }) := by
  unfold truncate at called
  split at called
  · cases called
    exact Or.inl ⟨_, rfl, rfl⟩
  · cases called
    exact Or.inl ⟨_, rfl, rfl⟩
  · rename_i ino found
    split at called
    · cases called
      exact Or.inl ⟨_, rfl, rfl⟩
    · split at called
      · cases called
        exact Or.inl ⟨_, rfl, rfl⟩
      · cases called
        exact Or.inr ⟨rfl, rfl, ino, found, by simp⟩

/-- A transfer that is not cut short is the whole range. -/
theorem transfer_inFull
    {content bytes : Bytes} {offset count limit : Nat}
    (enough : count ≤ limit)
    (transferred : transfer content offset count limit = some bytes) :
    bytes = slice content offset count := by
  unfold transfer at transferred
  split at transferred
  · cases transferred
  · rw [Nat.min_eq_right enough] at transferred
    cases transferred
    rfl

/-- The whole range can be transferred. -/
theorem transfer_all (content : Bytes) (offset count : Nat) :
    transfer content offset count count =
      some (slice content offset count) := by
  have allowed : ¬ (count = 0 ∧ slice content offset count ≠ []) := by
    rintro ⟨rfl, more⟩
    exact more (slice_zero content offset)
  rw [transfer, if_neg allowed, Nat.min_self]

/-- `pread` on a regular file. -/
theorem pread_file
    {fd : Int} {file : OpenFile} {content : Bytes}
    (held : sys.proc.fds fd = some file) (readable : file.readable = true)
    (node : sys.fs.node file.ino = .file content)
    (limit count offset : Nat) :
    sys.pread platform (.ok limit) fd count (offset : Int) =
      (transfer content offset count limit).map
        fun data => (.ok data, sys) := by
  have nonnegative : ¬ (offset : Int) < 0 := by omega
  simp only [pread, held, readable, Bool.true_eq_false, if_false,
    nonnegative, node, Node.bytes, Int.toNat_natCast]

/-- A read of the source returns a slice, and nothing only at its end. -/
theorem read_eq_ok
    {fd : Int} {count : Nat} {data : Bytes} (positive : 0 < count)
    (called : sys.read platform choice fd count = some (.ok data, sys')) :
    ∃ limit file,
      choice = .ok limit ∧
        sys.proc.fds fd = some file ∧
          data =
            slice ((sys.fs.node file.ino).bytes platform) file.offset
              (min limit count) ∧
            sys' =
              { sys with
                proc :=
                  sys.proc.setFd fd
                    (some { file with offset := file.offset + data.length }) } ∧
              (data = [] →
                ((sys.fs.node file.ino).bytes platform).length ≤
                  file.offset) := by
  unfold read at called
  split at called
  · cases called
  · cases called
  · rename_i limit file held
    split at called
    · cases called
    · split at called
      · cases called
      · rcases Option.map_eq_some_iff.mp called with
          ⟨data', transferred, answer⟩
        cases answer
        unfold transfer at transferred
        split at transferred
        · cases transferred
        · rename_i allowed
          cases transferred
          refine ⟨limit, file, rfl, held, rfl, rfl, ?_⟩
          intro empty
          have lengths := congrArg List.length empty
          simp only [length_slice, List.length_nil] at lengths
          by_cases nothing : limit = 0
          · have ended :
                slice ((sys.fs.node file.ino).bytes platform)
                  file.offset count = [] := by
              by_contra more
              exact allowed ⟨nothing, more⟩
            have none := congrArg List.length ended
            simp only [length_slice, List.length_nil] at none
            omega
          · omega

/-- A failing read changes nothing. -/
theorem read_eq_error
    {fd : Int} {count : Nat} {errno : Errno}
    (called : sys.read platform choice fd count = some (.error errno, sys')) :
    sys' = sys := by
  unfold read at called
  split at called
  · cases called
    rfl
  · cases called
    rfl
  · split at called
    · cases called
      rfl
    · split at called
      · cases called
        rfl
      · rcases Option.map_eq_some_iff.mp called with ⟨data, _, answer⟩
        cases answer

/-- A refused `open` changes nothing. -/
theorem openFile_eq_error
    {path : CString} {flags : Nat} {errno : Errno}
    (called : sys.openFile choice path flags = some (.error errno, sys')) :
    sys' = sys := by
  unfold openFile refuse at called
  repeat' split at called
  all_goals cases called
  all_goals rfl

/-- An `open` that succeeds enters a descriptor for a new or an existing file. -/
theorem openFile_eq_some
    {path : CString} {flags : Nat} {fd : Int}
    (called : sys.openFile choice path flags = some (.ok fd, sys')) :
    ∃ number : Nat, ∃ ino fs,
      fd = number ∧ sys.proc.fds number = none ∧
        sys' =
          { sys with
            fs := fs
            proc := sys.proc.setFd number (some ⟨ino, 0, flags⟩) } ∧
          ((sys.fs.entry path = none ∧ hasCreat flags = true ∧
              ino = sys.fs.fresh ∧ fs = sys.fs.link path (.file [])) ∨
            (sys.fs.entry path = some ino ∧
              (fs = sys.fs ∨
                hasTrunc flags = true ∧ fs = sys.fs.put ino (.file [])))) := by
  unfold openFile refuse at called
  split at called
  · cases called
  · rename_i number
    split at called
    · cases called
    · rename_i free
      rw [not_not] at free
      split at called
      · rename_i absent
        split at called
        · rename_i creates
          cases called
          exact
            ⟨number, _, _, rfl, free, rfl,
              Or.inl ⟨absent, creates, rfl, rfl⟩⟩
        · cases called
      · rename_i ino found
        split at called
        · cases called
        · split at called
          · split at called
            · cases called
              exact
                ⟨number, _, _, rfl, free, rfl, Or.inr ⟨found, Or.inl rfl⟩⟩
            · cases called
          · cases called
            refine ⟨number, _, _, rfl, free, rfl, Or.inr ⟨found, ?_⟩⟩
            split
            · rename_i truncates
              exact Or.inr ⟨truncates, rfl⟩
            · exact Or.inl rfl

/-- An `open` that creates and truncates finds an empty file. -/
theorem openFile_emptied
    {path : CString} {flags : Nat} {fd : Int}
    (creates : hasCreat flags = true) (truncates : hasTrunc flags = true)
    (called : sys.openFile choice path flags = some (.ok fd, sys')) :
    ∃ ino,
      sys'.fs.entry path = some ino ∧ sys'.fs.node ino = .file [] ∧
        sys'.proc.fds fd = some ⟨ino, 0, flags⟩ := by
  unfold openFile install refuse at called
  simp only [creates, truncates, if_true, Bool.not_true, Bool.and_false,
    Bool.false_eq_true, if_false] at called
  split at called
  · cases called
  · split at called
    · cases called
    · split at called
      · cases called
        exact
          ⟨sys.fs.fresh, by simp, by simp, Function.update_self _ _ _⟩
      · rename_i ino found
        split at called
        · cases called
        · split at called
          · cases called
          · cases called
            exact ⟨ino, found, by simp, Function.update_self _ _ _⟩

/-- A plain `open` for reading enters a descriptor and nothing else. -/
theorem openFile_eq_ok
    {path : CString} {flags : Nat} {fd : Int}
    (noCreat : hasCreat flags = false) (noTrunc : hasTrunc flags = false)
    (called : sys.openFile choice path flags = some (.ok fd, sys')) :
    ∃ number : Nat, ∃ ino,
      fd = number ∧ sys.proc.fds number = none ∧
        sys.fs.entry path = some ino ∧
          sys' =
            { sys with
              proc := sys.proc.setFd number (some ⟨ino, 0, flags⟩) } := by
  rcases openFile_eq_some called with
    ⟨number, ino, fs, rfl, free, rfl, created | ⟨found, same | emptied⟩⟩
  · rw [noCreat] at created
    cases created.2.1
  · exact ⟨number, ino, rfl, free, found, by rw [same]⟩
  · rw [noTrunc] at emptied
    cases emptied.1

/-- A `rename` to another name moves the entry. -/
theorem rename_eq_some
    {old new : CString} {done : Except Errno Unit} (different : old ≠ new)
    (called : sys.rename choice old new = some (done, sys')) :
    (∃ errno, done = .error errno ∧ sys' = sys) ∨
      (done = .ok () ∧
        ∃ ino, sys.fs.entry old = some ino ∧
          sys' = { sys with fs := sys.fs.move old new }) := by
  unfold rename at called
  split at called
  · cases called
    exact Or.inl ⟨_, rfl, rfl⟩
  · cases called
    exact Or.inl ⟨_, rfl, rfl⟩
  · rename_i ino found
    rw [if_neg different] at called
    cases called
    exact Or.inr ⟨rfl, ino, found, rfl⟩

/-- An `unlink` removes the name of a file or changes nothing. -/
theorem unlink_eq_some
    {path : CString} {removed : Except Errno Unit}
    (called : sys.unlink choice path = some (removed, sys')) :
    (∃ errno, removed = .error errno ∧ sys' = sys) ∨
      (removed = .ok () ∧ choice.fails = false ∧
        sys.fs.lookup path ≠ none ∧
          sys.fs.lookup path ≠ some .directory ∧
            sys' = { sys with fs := sys.fs.remove path }) := by
  unfold unlink at called
  split at called
  · cases called
    exact Or.inl ⟨_, rfl, rfl⟩
  · cases called
    exact Or.inl ⟨_, rfl, rfl⟩
  · cases called
    exact Or.inl ⟨_, rfl, rfl⟩
  · rename_i node other found
    cases called
    refine Or.inr ⟨rfl, rfl, ?_, ?_, rfl⟩
    · rw [found]
      exact Option.some_ne_none node
    · rw [found]
      intro directory
      exact other (Option.some.inj directory)

/-- A `close` takes the descriptor away if there is one. -/
theorem close_eq_some
    {fd : Int} {done : Except Errno Unit}
    (called : sys.close choice fd = some (done, sys')) :
    sys' = { sys with proc := sys.proc.setFd fd none } := by
  unfold close at called
  split at called
  · rename_i closed
    cases called
    have same : sys.proc.setFd fd none = sys.proc := by
      rw [Process.setFd, ← closed, Function.update_eq_self]
    rw [same]
  · cases choice with
    | ok number =>
        cases called
        rfl
    | fail errno =>
        cases called
        rfl

theorem h5fclose_eq_some
    {h5fd : Int} {success : Bool}
    (called : sys.h5fclose choice h5fd = some (success, sys')) :
    (sys.proc.handles h5fd = none ∧ sys' = sys) ∨
      ∃ handle, sys.proc.handles h5fd = some handle ∧
        sys' =
          { sys with
            fs := sys.released handle (!choice.fails)
            proc := sys.proc.setHandle h5fd none } := by
  unfold h5fclose at called
  split at called
  · rename_i closed
    cases called
    exact Or.inl ⟨closed, rfl⟩
  · rename_i handle held
    cases choice with
    | ok number =>
        cases called
        exact Or.inr ⟨handle, held, rfl⟩
    | fail errno =>
        cases called
        exact Or.inr ⟨handle, held, rfl⟩

end Answers

end Sys

/-! ## Execution -/

/-- The answer to one call. -/
def kernel (platform : Platform) :
    Interaction.Kernel Op Reply Sys Choice :=
  fun sys choice op =>
    match op with
    | .stat path => sys.stat platform choice path
    | .openFile path flags => sys.openFile choice path flags
    | .close fd => sys.close choice fd
    | .read fd count => sys.read platform choice fd count
    | .pread fd count offset => sys.pread platform choice fd count offset
    | .write fd data => sys.write platform choice fd data
    | .pwrite fd data offset => sys.pwrite platform choice fd data offset
    | .lseek fd offset whence => sys.lseek platform choice fd offset whence
    | .truncate path length => sys.truncate platform choice path length
    | .ftruncate fd length => sys.ftruncate platform choice fd length
    | .rename old new => sys.rename choice old new
    | .unlink path => sys.unlink choice path
    | .mkdir path => sys.mkdir choice path
    | .getlk _ _ _ =>
        match choice with
        | .fail errno => some (.error errno, sys)
        | .ok number => some (.ok (decide (0 < number)), sys)
    | .setlk _ _ _ =>
        match choice with
        | .fail errno => some (.error errno, sys)
        | .ok _ => some (.ok (), sys)
    | .h5fcreate path => sys.h5fcreate choice path
    | .h5fopen path => sys.h5fopen choice path
    | .h5fclose h5fd => sys.h5fclose choice h5fd
    | .h5dwrite h5fd name data => sys.h5dwrite choice h5fd name data
    | .h5image h5fd => some (sys.imageOf h5fd, sys)
    | .compress method srcdata =>
        match choice with
        | .fail _ => some (none, sys)
        | .ok _ => some (compress_data platform.libs method srcdata, sys)
    | .sqlite3_exec stmt =>
        match choice with
        | .fail _ => some (false, sys)
        | .ok _ => some (true, { sys with db := stmt.exec sys.db })
    | .sqlite3_get_table =>
        match choice with
        | .fail _ => some (none, sys)
        | .ok _ => some (some [sys.db.space], sys)
    | .statfs path =>
        match choice, sys.fs.entry path with
        | .fail errno, _ => sys.refuse errno
        | .ok _, none => sys.refuse .ENOENT
        | .ok _, some _ => some (.ok (), sys)
    | .malloc =>
        match choice with
        | .fail _ => some (false, sys)
        | .ok _ => some (true, sys)
    | .add_dzfd fd dzfd =>
        some ((), { sys with proc := sys.proc.setMap fd (some dzfd) })
    | .remove_dzfd fd =>
        some ((), { sys with proc := sys.proc.setMap fd none })
    | .find_dzfd fd => some (sys.proc.h5fdmap fd, sys)
    | .dzfile_init =>
        match choice with
        | .fail _ => some ((-1 : Int), sys)
        | .ok _ => some ((0 : Int), sys)

/-- A statement that succeeds has its effect on the database only. -/
theorem kernel_sqlite3_exec_ok
    {platform : Platform} {sys later : Sys} {number : Nat} {stmt : Stmt}
    {done : Reply (.sqlite3_exec stmt)}
    (answered :
      kernel platform sys (.ok number) (.sqlite3_exec stmt) =
        some (done, later)) :
    done = true ∧ later = { sys with db := stmt.exec sys.db } := by
  cases answered
  exact ⟨rfl, rfl⟩

/-- `statfs` changes nothing. -/
theorem kernel_statfs
    {platform : Platform} {sys later : Sys} {choice : Choice}
    {path : CString} {done : Reply (.statfs path)}
    (answered :
      kernel platform sys choice (.statfs path) = some (done, later)) :
    later = sys := by
  simp only [kernel, Sys.refuse] at answered
  split at answered
  all_goals
    cases answered
    rfl

/-- A codec gives its result or no memory. -/
theorem Sys.compress_eq_some
    {platform : Platform} {sys sys' : Sys} {choice : Choice}
    {method : Alg} {srcdata : Bytes} {dstdata : Option Bytes}
    (called :
      kernel platform sys choice (.compress method srcdata) =
        some (dstdata, sys')) :
    (dstdata = none ∧ sys' = sys) ∨
      (dstdata = compress_data platform.libs method srcdata ∧
        sys' = sys) := by
  cases choice with
  | ok number =>
      cases called
      exact Or.inr ⟨rfl, rfl⟩
  | fail errno =>
      cases called
      exact Or.inl ⟨rfl, rfl⟩

/-- Every call can be refused. -/
theorem answered_of_fail (platform : Platform) (sys : Sys) (op : Op) :
    ∃ reply later,
      kernel platform sys (.fail .EACCES) op = some (reply, later) := by
  cases op with
  | close fd =>
      simp only [kernel, Sys.close]
      split <;> exact ⟨_, _, rfl⟩
  | h5fclose h5fd =>
      simp only [kernel, Sys.h5fclose]
      split <;> exact ⟨_, _, rfl⟩
  | _ => exact ⟨_, _, rfl⟩

/-- Perform a call. -/
abbrev perform (op : Op) : Call (Reply op) :=
  Prog.perform op

/-- The libraries that store their input; an image's own bytes are not read. -/
def storingPlatform : Platform where
  libs := storingLibs
  h5bytes _ := []

/-- The platform of the codec that packs zeros. -/
def packingPlatform : Platform where
  libs := packingLibs
  h5bytes _ := []

/-- The empty store. -/
def Sys.initial : Sys where
  fs :=
    { entry := fun _ => none
      node := fun _ => .directory
      fresh := 0
      entry_lt := by simp }
  db := .empty
  proc := .empty

end DZFile.Kernel
