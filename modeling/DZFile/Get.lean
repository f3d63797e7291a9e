import DZFile.Api

/-!
# Getting a file

`dzfile_get` of `dzfile-get.c`.  Its loop asks for `BUFLEN` bytes at a time
until a read returns nothing or fails, and writes what it got at the same
offset of the destination.  Both ends of the loop go through `out`, which
closes the source and returns 0; the destination stays open.

The result of `fstat` is not used, and the two globals that the performance
monitor reads decide nothing here.
-/

namespace DZFile.Get

open DZFile.ByteSeq
open DZFile.Interaction
open DZFile.Names
open DZFile.Codec
open DZFile.Image
open DZFile.Kernel
open DZFile.Api

/-- The size of the buffer. -/
def BUFLEN : Nat := 524288

/-- The locals of `dzfile_get` and the global `total_bytes`. -/
structure Transfer where
  fd : Int
  dstfd : Int
  total_bytes : Nat

/-- A stretch of `dzfile_get` between two rounds of its loop. -/
abbrev GetCall := Call (Transfer ⊕ Int)

/-- The label `out`. -/
def out (fd : Int) : GetCall :=
  if 0 < fd then do
    let _ ← dzfile_close fd
    return .inr 0
  else return .inr 0

/-- `dzfile_get` up to its loop. -/
def dzfile_get (src_file dst_file : CString) : GetCall := do
  let ret ← perform .dzfile_init
  if ret < 0 then return .inr (-1)
  else do
    let fd ← dzfile_open src_file O_RDONLY
    if fd ≤ 0 then return .inr (-1)
    else do
      let opened ←
        perform (.openFile dst_file (O_WRONLY + O_TRUNC + O_CREAT))
      return .inl ⟨fd, returnFd opened, 0⟩

/-- The buffer after `memset` and a read into its start. -/
def filled (copied : Bytes) : Bytes :=
  copied ++ List.replicate (BUFLEN - copied.length) 0

/-- The loop body from `pwrite` on. -/
def writeChunk (transfer : Transfer) (buf : Bytes) (nbread : Nat) :
    GetCall := do
  let written ←
    perform (.pwrite transfer.dstfd (buf.take nbread) transfer.total_bytes)
  let nbwrite := wrap32 (returnCount written)
  if nbwrite < 0 then out transfer.fd
  else
    return .inl
      { transfer with total_bytes := transfer.total_bytes + nbread }

/--
The loop body.  `dstlen` gives, for the call at each offset, the value of the
uninitialised local of `h5fd_pread`; a call that does not return has no next
step.
-/
def copy (libs : Libs) (dstlen : Nat → Int) (transfer : Transfer) :
    GetCall := do
  let result ←
    dzfile_pread libs (dstlen transfer.total_bytes) transfer.fd BUFLEN
      transfer.total_bytes
  match result with
  | .returned ret copied =>
      let nbread := wrap32 ret
      if nbread < 0 then out transfer.fd
      else if nbread = 0 then out transfer.fd
      else writeChunk transfer (filled copied) nbread.toNat
  | .fault => .fault
  | .diverges => .fault

/-- The next call of a get. -/
def action (libs : Libs) (dstlen : Nat → Int) :
    GetCall → Action Op Reply GetCall Int :=
  Prog.blockAction (copy libs dstlen)

/-- One call of a get that nothing interferes with. -/
def step
    (platform : Platform) (dstlen : Nat → Int) (state : Sys × GetCall)
    (choice : Choice) : Option (Sys × GetCall) :=
  advance (kernel platform) (action platform.libs dstlen) state.1 state.2
    choice

end DZFile.Get
