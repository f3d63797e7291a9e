import DZFile.Kernel

/-!
# The library functions

The functions of `dzfile-api.c` and the counter functions of
`dz-sqlite-ifce.c` they use, as programs over the calls of the environment.
Return values are those of the source; a non-null path, a logger and an open
database are taken for granted, and `dz_notifymq`, whose result is ignored and
which changes nothing the program reads, is left out.
-/

namespace DZFile.Api

open DZFile.Interaction
open DZFile.Names
open DZFile.Codec
open DZFile.Image
open DZFile.Metadata
open DZFile.Kernel

/-! ## Counters and rows -/

/-- `space_update`. -/
def space_update (field : Field) (num : Int) (flag : Flag) : Call Int := do
  let done ←
    perform (.sqlite3_exec (.updateSpace field flag (printUnsigned num)))
  return if done then 0 else -1

/-- `add_writtenbytes`. -/
def add_writtenbytes (nbytes : Int) : Call Int :=
  space_update .writtenbytes nbytes .ADD_NUM

/-- `sub_writtenbytes`. -/
def sub_writtenbytes (nbytes : Int) : Call Int :=
  space_update .writtenbytes nbytes .SUB_NUM

/-- `add_diskbytes`. -/
def add_diskbytes (nbytes : Int) : Call Int :=
  space_update .diskbytes nbytes .ADD_NUM

/-- `sub_diskbytes`. -/
def sub_diskbytes (nbytes : Int) : Call Int :=
  space_update .diskbytes nbytes .SUB_NUM

/-- `add_filenum`. -/
def add_filenum (num : Int) : Call Int :=
  space_update .filenum num .ADD_NUM

/-- `sub_filenum`. -/
def sub_filenum (num : Int) : Call Int :=
  space_update .filenum num .SUB_NUM

/-- `fmt_entry_insert`. -/
def fmt_entry_insert (path : CString) : Call Int := do
  let done ← perform (.sqlite3_exec (.insertFilemeta path))
  if done then add_filenum 1 else return -1

/-- `fmt_entry_delete`. -/
def fmt_entry_delete (path : CString) : Call Int := do
  let done ← perform (.sqlite3_exec (.deleteFilemeta path))
  if done then sub_filenum 1 else return -1

/-- `get_space_entry`: the row, or nothing for -1. -/
def get_space_entry : Call (Option (Field → Int)) := do
  let azresult ← perform .sqlite3_get_table
  match azresult with
  | none => return none
  | some [] => return none
  | some (spentry :: _) => return some spentry

/-! ## Hidden images -/

/--
`findhiddenFile`: 1 for an image, 0 for none, 2 for a directory of that name
and -1 for an error.
-/
def findhiddenFile (filename : CString) : Call Int :=
  match buildHiddenFile filename with
  | none => return -1
  | some hiddenFile => do
      let found ← perform (.stat hiddenFile)
      match found with
      | .error .ENOENT => return 0
      | .error _ => return -1
      | .ok stbuf => return if stbuf.isDir then 2 else 1

/-- `hdf5_open(path, H5_READ)`. -/
def hdf5_open (path : CString) : Call Int := do
  let h5fd ← perform (.h5fopen path)
  return h5fd.getD (-1)

/--
`add_dzfd`.  The key -1 is the map's deleted key, whose insertion is an
assertion failure in the map.
-/
def add_dzfd (fd : Int) (dzfd : Dzfd) : Call Unit :=
  if fd = -1 then .fault else perform (.add_dzfd fd dzfd)

/-! ## Creating and opening -/

/-- A descriptor, or -1. -/
def returnFd (opened : Except Errno Int) : Int :=
  match opened with
  | .ok fd => fd
  | .error _ => -1

@[simp]
theorem returnFd_ok (fd : Int) : returnFd (.ok fd) = fd :=
  rfl

@[simp]
theorem returnFd_error (errno : Errno) : returnFd (.error errno) = -1 :=
  rfl

/-- `creat`. -/
def creat (filename : CString) : Call Int := do
  let opened ←
    perform (.openFile filename (O_WRONLY + O_CREAT + O_TRUNC))
  return returnFd opened

/--
`dzfile_creat`.  Without a slash in the path the first test dereferences
`NULL + 1`.
-/
def dzfile_creat (filename : CString) : Call Int :=
  match strrchrSlash filename with
  | none => .fault
  | some bname =>
      if illegalName filename bname then return -1
      else if match_sysdir filename || match_hiddenfile [] filename then
        return -1
      else do
        let isexist ← findhiddenFile filename
        if isexist = -1 then return -1
        else if isexist = 0 then do
          let _ ← fmt_entry_insert filename
          creat filename
        else if isexist = 1 then return Errno.EEXIST.code
        else if isexist = 2 then return Errno.EISDIR.code
        else .fault

/-- The branch of `dzfile_open` for a path that has a hidden image. -/
def openImage (filename : CString) (flags : Nat) : Call Int :=
  if accessMode flags ≠ O_RDONLY then return -1
  else
    match buildHiddenFile filename with
    | none => return -1
    | some hiddenFile => do
        let h5fd ← hdf5_open hiddenFile
        if h5fd ≤ 0 then return -1
        else do
          let allocated ← perform .malloc
          if allocated then do
            let opened ← perform (.openFile filename flags)
            add_dzfd (returnFd opened) ⟨returnFd opened, h5fd⟩
            return returnFd opened
          else return -1

/-- The last call of the branch of `dzfile_open` for a plain path. -/
def openVisible (filename : CString) (flags : Nat) : Call Int := do
  let opened ← perform (.openFile filename flags)
  return returnFd opened

/-- The branch of `dzfile_open` for a path without a hidden image. -/
def openPlain (filename : CString) (flags : Nat) : Call Int := do
  let found ← perform (.stat filename)
  match found with
  | .error .ENOENT => do
      let _ ← fmt_entry_insert filename
      openVisible filename flags
  | _ => openVisible filename flags

/-- `dzfile_open`. -/
def dzfile_open (filename : CString) (flags : Nat) : Call Int :=
  if match_sysdir filename then return -1
  else
    match strrchrSlash filename with
    | none => .fault
    | some bname =>
        if illegalName filename bname then return -1
        else do
          let isexist ← findhiddenFile filename
          if isexist = 1 then openImage filename flags
          else if isexist < 0 then return -1
          else if isexist = 2 then return -1
          else openPlain filename flags

/-- The last call of `dzfile_close`. -/
def closeFd (fd : Int) : Call Int := do
  let closed ← perform (.close fd)
  match closed with
  | .ok _ => return 0
  | .error _ => return -1

/-- `dzfile_close`. -/
def dzfile_close (fd : Int) : Call Int := do
  let found ← perform (.find_dzfd fd)
  match found with
  | some dzfd => do
      let _ ← perform (.h5fclose dzfd.h5fd)
      let _ ← perform (.remove_dzfd dzfd.fd)
      closeFd fd
  | none => closeFd fd

/-! ## Writing -/

/-- A byte count, or -1. -/
def returnCount (result : Except Errno Nat) : Int :=
  match result with
  | .ok count => count
  | .error _ => -1

@[simp]
theorem returnCount_ok (count : Nat) : returnCount (.ok count) = count :=
  rfl

@[simp]
theorem returnCount_error (errno : Errno) : returnCount (.error errno) = -1 :=
  rfl

/-- Add a positive amount to the counter and return it. -/
def countWritten (ret : Int) : Call Int :=
  if 0 < ret then do
    let _ ← add_writtenbytes ret
    return ret
  else return ret

/-- A scalar write whose bytes are added to the counter. -/
def accounted (underlying : Call (Except Errno Nat)) : Call Int := do
  let result ← underlying
  countWritten (returnCount result)

/-- `dzfile_write`. -/
def dzfile_write (fd : Int) (buf : Bytes) : Call Int :=
  accounted (perform (.write fd buf))

/-- `dzfile_pwrite`. -/
def dzfile_pwrite (fd : Int) (buf : Bytes) (offset : Int) : Call Int :=
  accounted (perform (.pwrite fd buf offset))

/-- The loop of the vectored writes over their scalar counterpart. -/
def vectorLoop (scalar : Bytes → Int → Call Int) :
    List Bytes → Int → Int → Call Int
  | [], count, _ => countWritten count
  | buf :: iov, count, offset => do
      let nbwrite ← scalar buf offset
      if nbwrite < 0 then return -1
      else if nbwrite = 0 then countWritten count
      else vectorLoop scalar iov (count + nbwrite) (offset + nbwrite)

/-- `dzfile_writev`, which keeps no offset of its own. -/
def dzfile_writev (fd : Int) (iov : List Bytes) : Call Int :=
  vectorLoop (fun buf _ => dzfile_write fd buf) iov 0 0

/-- `dzfile_pwritev`. -/
def dzfile_pwritev (fd : Int) (iov : List Bytes) (offset : Int) : Call Int :=
  vectorLoop (fun buf offset => dzfile_pwrite fd buf offset) iov 0 offset

/-! ## Reading -/

/-- The return value of a read and the bytes it left in the buffer. -/
def returnRead (result : Except Errno Bytes) : Int × Bytes :=
  match result with
  | .ok data => (data.length, data)
  | .error _ => (-1, [])

/-- `dzfile_read`. -/
def dzfile_read (fd : Int) (count : Nat) : Call (Int × Bytes) := do
  let result ← perform (.read fd count)
  return returnRead result

/--
`dzfile_pread`.  `dstlen` is the value of the uninitialised local of
`h5fd_pread`.
-/
def dzfile_pread
    (libs : Libs) (dstlen : Int) (fd : Int) (count : Nat) (offset : Int) :
    Call PreadResult := do
  let found ← perform (.find_dzfd fd)
  match found with
  | some dzfd =>
      if dzfd.h5fd ≤ 0 then return .returned (-1) []
      else do
        let image ← perform (.h5image dzfd.h5fd)
        match image with
        | none => return .returned (-1) []
        | some image => return h5fd_pread libs image dstlen count offset
  | none => do
      let result ← perform (.pread fd count offset)
      return .returned (returnRead result).1 (returnRead result).2

/-- The loop of `dzfile_readv`; one piece for each buffer that was filled. -/
def readvLoop (fd : Int) :
    List Nat → Int → List Bytes → Call (Int × List Bytes)
  | [], count, pieces => return (count, pieces)
  | length :: iov, count, pieces => do
      let (nbread, data) ← dzfile_read fd length
      if nbread < 0 then return (nbread, pieces)
      else if nbread = 0 then return (count, pieces)
      else readvLoop fd iov (count + nbread) (pieces ++ [data])

/-- `dzfile_readv`. -/
def dzfile_readv (fd : Int) (iov : List Nat) : Call (Int × List Bytes) :=
  readvLoop fd iov 0 []

/-- How `dzfile_preadv` ends; one piece for each buffer that was filled. -/
inductive PreadvResult where
  | returned (ret : Int) (pieces : List Bytes)
  | fault
  | diverges
deriving DecidableEq

/-- The loop of `dzfile_preadv` over its scalar counterpart. -/
def preadvLoop (scalar : Nat → Int → Call PreadResult) :
    List Nat → Int → Int → List Bytes → Call PreadvResult
  | [], count, _, pieces => return .returned count pieces
  | length :: iov, count, offset, pieces => do
      let result ← scalar length offset
      match result with
      | .fault => return .fault
      | .diverges => return .diverges
      | .returned nbread data =>
          if nbread < 0 then return .returned nbread (pieces ++ [data])
          else if nbread = 0 then return .returned count pieces
          else
            preadvLoop scalar iov (count + nbread) (offset + nbread)
              (pieces ++ [data])

/--
`dzfile_preadv`.  Every call of `h5fd_pread` has a local of its own; as the
offset grows from call to call, `dstlen` can give each its own value.
-/
def dzfile_preadv
    (libs : Libs) (dstlen : Int → Int) (fd : Int) (iov : List Nat)
    (offset : Int) : Call PreadvResult :=
  preadvLoop
    (fun length offset => dzfile_pread libs (dstlen offset) fd length offset)
    iov 0 offset []

/-- `dzfile_lseek`. -/
def dzfile_lseek (fd : Int) (offset : Int) (whence : Whence) : Call Int := do
  let result ← perform (.lseek fd offset whence)
  return returnCount result

/-! ## Sizes and directories -/

/-- `dzfile_stat`. -/
def dzfile_stat (filename : CString) : Call (Except Errno Stat) :=
  perform (.stat filename)

/-- 0, or -1. -/
def returnStatus (done : Except Errno Unit) : Int :=
  match done with
  | .ok _ => 0
  | .error _ => -1

@[simp]
theorem returnStatus_ok (done : Unit) : returnStatus (.ok done) = 0 :=
  rfl

@[simp]
theorem returnStatus_error (errno : Errno) :
    returnStatus (.error errno) = -1 :=
  rfl

/-- The call of `truncate` in `dzfile_truncate`. -/
def truncateVisible (path : CString) (length : Int) : Call Int := do
  let done ← perform (.truncate path length)
  return returnStatus done

/-- `dzfile_truncate`. -/
def dzfile_truncate (path : CString) (length : Int) : Call Int := do
  let isexist ← findhiddenFile path
  if isexist = 1 then return -1 else truncateVisible path length

/-- `dzfile_ftruncate`. -/
def dzfile_ftruncate (fd length : Int) : Call Int := do
  let done ← perform (.ftruncate fd length)
  return returnStatus done

/-- `dzfile_mkdir`. -/
def dzfile_mkdir (pathname : CString) : Call Int :=
  if match_sysdir pathname then return -1
  else do
    let done ← perform (.mkdir pathname)
    return returnStatus done

/-- A signed number stored in a `uint64_t`. -/
def toUint64 (num : Int) : Nat :=
  (num % 18446744073709551616).toNat

/-- The fields of `dzfile_dinfo` that do not come from `statfs`. -/
structure Dinfo where
  filenum : Nat
  totalsize : Nat
  disksize : Nat
  comratio : Nat
deriving DecidableEq

/-- `dzfile_dstat` once it knows the size of the image. -/
def dstatImage (totalsize disksize : Nat) : Call (Option Dinfo) :=
  if disksize = 0 then .fault
  else return some ⟨1, totalsize, disksize, totalsize / disksize⟩

/-- `dzfile_dstat` for a file. -/
def dstatFile (path : CString) (stbuf : Stat) : Call (Option Dinfo) := do
  let isexist ← findhiddenFile path
  if isexist = 1 then
    match buildHiddenFile path with
    | none => return none
    | some hiddenFile => do
        let found ← perform (.stat hiddenFile)
        match found with
        | .error _ => return none
        | .ok image => dstatImage stbuf.size image.size
  else return some ⟨1, stbuf.size, stbuf.size, 1⟩

/-- `dzfile_dstat` once it has the counters. -/
def dstatCounted
    (path : CString) (spentry : Field → Int) : Call (Option Dinfo) := do
  let found ← perform (.stat path)
  match found with
  | .error _ => return none
  | .ok stbuf =>
      if stbuf.isDir then
        return some
          ⟨toUint64 (spentry .filenum), toUint64 (spentry .writtenbytes),
            toUint64 (spentry .diskbytes), 1⟩
      else dstatFile path stbuf

/-- `dzfile_dstat`: what it reports, or nothing for -1. -/
def dzfile_dstat (path : CString) : Call (Option Dinfo) := do
  let fsbuf ← perform (.statfs path)
  match fsbuf with
  | .error _ => return none
  | .ok _ => do
      let spentry ← get_space_entry
      match spentry with
      | none => return none
      | some spentry => dstatCounted path spentry

/-! ## Deleting -/

/-- `dzfile_unlink` after `unlink(filename)` has succeeded. -/
def unlinkAccount (filename : CString) : Call Int := do
  let found ← perform (.stat filename)
  match found with
  | .error _ => return -1
  | .ok stbuf => do
      let _ ← sub_writtenbytes stbuf.size
      return 0

/-- `dzfile_unlink` from `unlink(filename)` on. -/
def unlinkVisible (filename : CString) : Call Int := do
  let removed ← perform (.unlink filename)
  match removed with
  | .error _ => return -1
  | .ok _ => unlinkAccount filename

/-- `dzfile_unlink` from `unlink(hiddenFile)` on. -/
def unlinkHidden
    (filename hiddenFile : CString) (stbuf : Stat) : Call Int := do
  let removed ← perform (.unlink hiddenFile)
  match removed with
  | .error _ => return -1
  | .ok _ => do
      let _ ← sub_diskbytes stbuf.size
      unlinkVisible filename

/-- The branch of `dzfile_unlink` for a path that has a hidden image. -/
def unlinkImage (filename : CString) : Call Int :=
  match buildHiddenFile filename with
  | none => .fault
  | some hiddenFile => do
      let found ← perform (.stat hiddenFile)
      match found with
      | .error _ => return -1
      | .ok stbuf => unlinkHidden filename hiddenFile stbuf

/-- `dzfile_unlink`. -/
def dzfile_unlink (filename : CString) : Call Int :=
  if match_sysdir filename then return -1
  else do
    let rc ← findhiddenFile filename
    if rc = 1 then unlinkImage filename else unlinkVisible filename

end DZFile.Api
