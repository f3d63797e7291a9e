import DZFile.Api

/-!
# Putting a file

`dzfile_put` of `dzfile-put.c` with `dzfile_lockw`.  Each chunk of the source
is read, its range of the destination is locked and the chunk is written at
the descriptor's position.  Every exit after the sources have been opened goes
through `out`, which closes both descriptors and returns 0.
-/

namespace DZFile.Put

open DZFile.ByteSeq
open DZFile.Interaction
open DZFile.Names
open DZFile.Codec
open DZFile.Kernel
open DZFile.Api

/-- The size of a chunk and of its lock. -/
def BUFLEN : Nat := 524288

/-- The locals of `dzfile_put` and the global `total_bytes`. -/
structure Transfer where
  fd : Int
  dstfd : Int
  total_bytes : Nat

/-- The loops: the copy loop, and the loop of `dzfile_lockw`. -/
inductive Loop where
  | copy (transfer : Transfer)
  | lockw (transfer : Transfer) (buf : Bytes)

/-- A stretch of `dzfile_put` between two rounds of a loop. -/
abbrev PutCall := Call (Loop ⊕ Int)

/-- The last lines of `out`. -/
def closeSource (fd : Int) : PutCall :=
  if 0 < fd then do
    let _ ← perform (.close fd)
    return .inr 0
  else return .inr 0

/-- The label `out`. -/
def out (fd dstfd : Int) : PutCall :=
  if 0 < dstfd then do
    let _ ← dzfile_close dstfd
    closeSource fd
  else closeSource fd

/-- `dzfile_put` up to its loop. -/
def dzfile_put (src_file dst_file : CString) : PutCall := do
  let opened ← perform (.openFile src_file O_RDONLY)
  if returnFd opened ≤ 0 then return .inr (-1)
  else do
    let ret ← perform .dzfile_init
    if ret < 0 then return .inr (-1)
    else do
      let dstfd ← dzfile_open dst_file (O_WRONLY + O_CREAT)
      if dstfd < 0 then out (returnFd opened) dstfd
      else return .inl (.copy ⟨returnFd opened, dstfd, 0⟩)

/-- The loop body up to the lock. -/
def copy (transfer : Transfer) : PutCall := do
  let nbread ← perform (.read transfer.fd BUFLEN)
  match nbread with
  | .error _ => out transfer.fd transfer.dstfd
  | .ok [] => out transfer.fd transfer.dstfd
  | .ok buf => return .inl (.lockw transfer buf)

/-- The loop body from the write on. -/
def writeChunk (transfer : Transfer) (buf : Bytes) : PutCall := do
  let nbwrite ← dzfile_write transfer.dstfd buf
  if nbwrite < 0 then out transfer.fd transfer.dstfd
  else
    return .inl
      (.copy
        { transfer with total_bytes := transfer.total_bytes + buf.length })

/--
`dzfile_lockw` and what follows it: the test is repeated until no other
process holds the range.
-/
def lockw (transfer : Transfer) (buf : Bytes) : PutCall := do
  let tested ←
    perform (.getlk transfer.dstfd transfer.total_bytes BUFLEN)
  match tested with
  | .error _ => out transfer.fd transfer.dstfd
  | .ok false => return .inl (.lockw transfer buf)
  | .ok true => do
      let locked ←
        perform (.setlk transfer.dstfd transfer.total_bytes BUFLEN)
      match locked with
      | .error _ => out transfer.fd transfer.dstfd
      | .ok _ => writeChunk transfer buf

/-- The body of each loop. -/
def body : Loop → PutCall
  | .copy transfer => copy transfer
  | .lockw transfer buf => lockw transfer buf

/-- The next call of a put. -/
def action : PutCall → Action Op Reply PutCall Int :=
  Prog.blockAction body

end DZFile.Put
