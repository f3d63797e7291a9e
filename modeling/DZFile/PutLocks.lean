import DZFile.Put
import DZFile.Opening
import DZFile.Library.RangeLocks
import DZFile.Library.Transition

/-!
# The locks of concurrent puts

Any number of processes, each of which runs one `dzfile_put` with a source of
its own and the same destination.  They share the file system, the database
and the table of `fcntl` locks.

A put locks the first `BUFLEN` bytes of the destination before its first write
and gives no lock back before it closes a descriptor.  So whoever has written
and not yet closed the destination holds the lock of the first chunk, whoever
is about to write holds it too, and there is one such lock.
-/

namespace DZFile.PutLocks

open DZFile.Interaction
open DZFile.Transition
open DZFile.RangeLocks
open DZFile.Names
open DZFile.Codec
open DZFile.Kernel
open DZFile.Api
open DZFile.Opening
open DZFile.Put

/-! ## Processes -/

/-- A lock on a range of a file, owned by a process. -/
abbrev FileLock := RangeLock Ino Nat

/-- What a process sees, and the locks of all processes. -/
structure Env where
  sys : Sys
  locks : List FileLock

/-- The locks after a process has closed a descriptor. -/
def Env.released (env : Env) (pid : Nat) (fd : Int) : List FileLock :=
  match env.sys.proc.fds fd with
  | none => env.locks
  | some file => release env.locks pid file.ino

/-- The kernel with the lock table, for one process. -/
def lockKernel (platform : Platform) (pid : Nat) :
    Interaction.Kernel Op Reply Env Choice :=
  fun env choice op =>
    match op with
    | .getlk fd start length =>
        match choice, env.sys.proc.fds fd with
        | .fail errno, _ => some (.error errno, env)
        | .ok _, none => some (.error .EBADF, env)
        | .ok _, some file =>
            some (.ok (grantable env.locks ⟨file.ino, pid, start, length⟩), env)
    | .setlk fd start length =>
        match choice, env.sys.proc.fds fd with
        | .fail errno, _ => some (.error errno, env)
        | .ok _, none => some (.error .EBADF, env)
        | .ok _, some file =>
            let lock : FileLock := ⟨file.ino, pid, start, length⟩
            if file.writable = false then some (.error .EBADF, env)
            else if grantable env.locks lock then
              some (.ok (), ⟨env.sys, lock :: env.locks⟩)
            else some (.error .EACCES, env)
    | .close fd =>
        (kernel platform env.sys choice (.close fd)).map fun answer =>
          (answer.1, ⟨answer.2, env.released pid fd⟩)
    | op =>
        (kernel platform env.sys choice op).map fun answer =>
          (answer.1, ⟨answer.2, env.locks⟩)

/--
A process: its tables, where its put is, and the descriptor through which it
has written and which it has not closed.
-/
structure Party where
  proc : Process
  program : PutCall
  writing : Option Int

/-- The processes and what they share. -/
structure World where
  fs : FileSystem
  db : Metadata.Db
  locks : List FileLock
  party : Nat → Party

/-- A process makes its next call, or it is killed. -/
inductive Label where
  | step (pid : Nat) (choice : Choice)
  | exit (pid : Nat)

/-- The descriptor a process has written through, after one more call. -/
def nextWriting (writing : Option Int) : (op : Op) → Reply op → Option Int
  | .write fd _, .ok (_ + 1) => some fd
  | .close fd, _ => if writing = some fd then none else writing
  | _, _ => writing

/-- The world after a call of one process. -/
def World.after (world : World) (pid : Nat) (env : Env)
    (program : PutCall) (writing : Option Int) : World :=
  ⟨env.sys.fs, env.sys.db, env.locks,
    Function.update world.party pid ⟨env.sys.proc, program, writing⟩⟩

/-- What one process sees. -/
def World.env (world : World) (pid : Nat) : Env :=
  ⟨⟨world.fs, world.db, (world.party pid).proc⟩, world.locks⟩

/-- One step. -/
def step (platform : Platform) (world : World) : Label → Option World
  | .step pid choice =>
      match action (world.party pid).program with
      | .done _ => none
      | .fault => none
      | .call op next =>
          (lockKernel platform pid (world.env pid) choice op).map
            fun answer =>
              world.after pid answer.2 (next answer.1)
                (nextWriting (world.party pid).writing op answer.1)
  | .exit pid =>
      some
        (world.after pid
          ⟨⟨world.fs, world.db, .empty⟩, releaseAll world.locks pid⟩
          (.ret (.inr (-1))) none)

/-- Before any process has made a call. -/
def World.start
    (fs : FileSystem) (db : Metadata.Db)
    (src_file : Nat → CString) (dst_file : CString) : World where
  fs := fs
  db := db
  locks := []
  party pid := ⟨.empty, dzfile_put (src_file pid) dst_file, none⟩

/-- The put has returned. -/
def Returned (program : PutCall) : Prop :=
  ∃ ret, program = .ret (.inr ret)

/-- The process has written to the destination and has not closed it. -/
def Party.Inside (party : Party) : Prop :=
  party.writing.isSome ∧ ¬ Returned party.program

/-- The next call of the process is a write. -/
def Party.Writes (party : Party) : Prop :=
  ∃ fd buf next, action party.program = .call (.write fd buf) next

/-! ## The discipline of the program -/

/-- The calls of a put that neither write, nor lock, nor close. -/
def harmless (dst_file : CString) : Op → Prop
  | .stat _ => True
  | .openFile path flags =>
      path = dst_file ∨ (accessMode flags = O_RDONLY ∧ hasCreat flags = false)
  | .read _ _ => True
  | .getlk _ _ _ => True
  | .h5fopen _ => True
  | .h5fclose _ => True
  | .sqlite3_exec _ => True
  | .malloc => True
  | .add_dzfd _ _ => True
  | .remove_dzfd _ => True
  | .find_dzfd _ => True
  | .dzfile_init => True
  | _ => False

/--
Holding the first chunk or not, and having written through the given
descriptor, the program writes only while it holds the chunk and through that
descriptor, and after a close it neither writes again nor leaves that
descriptor open.
-/
def LocksFirst (dst_file : CString) :
    Prop → Option Int → PutCall → Prop
  | held, written, .ret (.inl (.copy transfer)) =>
      (held ∨ transfer.total_bytes = 0) ∧
        (written = none ∨ written = some transfer.dstfd)
  | held, written, .ret (.inl (.lockw transfer _)) =>
      (held ∨ transfer.total_bytes = 0) ∧
        (written = none ∨ written = some transfer.dstfd)
  | _, _, .ret (.inr _) => True
  | _, _, .fault => True
  | held, written, .call (.write fd _) next =>
      held ∧ (written = none ∨ written = some fd) ∧
        ∀ reply, LocksFirst dst_file held (some fd) (next reply)
  | held, written, .call (.setlk _ start length) next =>
      (∀ errno, LocksFirst dst_file held written (next (.error errno))) ∧
        LocksFirst dst_file (held ∨ (start = 0 ∧ length = BUFLEN)) written
          (next (.ok ()))
  | _, written, .call (.close fd) next =>
      ∀ reply,
        (written = none ∨ written = some fd ∨ Returned (next reply)) ∧
          LocksFirst dst_file False none (next reply)
  | held, written, .call op next =>
      harmless dst_file op ∧
        ∀ reply, LocksFirst dst_file held written (next reply)

section Discipline

variable {dst_file : CString}

theorem locksFirst_call
    {held : Prop} {written : Option Int} {op : Op}
    {next : Reply op → PutCall} (quiet : harmless dst_file op) :
    LocksFirst dst_file held written (.call op next) ↔
      ∀ reply, LocksFirst dst_file held written (next reply) := by
  cases op <;> first
    | exact quiet.elim
    | exact and_iff_right quiet

/-- More locks and less written ask for less. -/
theorem LocksFirst.mono
    {held held' : Prop} {written written' : Option Int} {program : PutCall}
    (locks : LocksFirst dst_file held written program)
    (more : held → held') (less : written' = none ∨ written' = written) :
    LocksFirst dst_file held' written' program := by
  induction program generalizing held held' written written' with
  | ret jump =>
      rcases jump with (transfer | ⟨transfer, buf⟩) | ret
      · rcases locks with ⟨first, through⟩
        refine ⟨first.imp_left more, ?_⟩
        rcases less with rfl | rfl
        · exact Or.inl rfl
        · exact through
      · rcases locks with ⟨first, through⟩
        refine ⟨first.imp_left more, ?_⟩
        rcases less with rfl | rfl
        · exact Or.inl rfl
        · exact through
      · trivial
  | fault => trivial
  | call op next induction =>
      cases op with
      | write fd data =>
          rcases locks with ⟨first, through, rest⟩
          refine ⟨more first, ?_, fun reply => ?_⟩
          · rcases less with rfl | rfl
            · exact Or.inl rfl
            · exact through
          · exact induction reply (rest reply) more (Or.inr rfl)
      | setlk fd start length =>
          rcases locks with ⟨refused, granted⟩
          refine ⟨fun errno => ?_, ?_⟩
          · exact induction (.error errno) (refused errno) more less
          · exact induction (.ok ()) granted (Or.imp_left more) less
      | close fd =>
          intro reply
          rcases locks reply with ⟨through, rest⟩
          refine ⟨?_, rest⟩
          rcases less with rfl | rfl
          · exact Or.inl rfl
          · exact through
      | _ =>
          rcases locks with ⟨quiet, rest⟩
          exact ⟨quiet, fun reply => induction reply (rest reply) more less⟩

/-- Harmless calls first. -/
theorem LocksFirst.bind
    {α : Type} {held : Prop} {written : Option Int} {first : Call α}
    {rest : α → PutCall} (calls : first.AllCalls (harmless dst_file))
    (after : ∀ value, LocksFirst dst_file held written (rest value)) :
    LocksFirst dst_file held written (first >>= rest) := by
  induction first with
  | ret value => exact after value
  | fault => trivial
  | call op next induction =>
      exact
        (locksFirst_call calls.1).mpr fun reply =>
          induction reply (calls.2 reply)

theorem locksFirst_closeSource
    {held : Prop} {written : Option Int} (fd : Int) :
    LocksFirst dst_file held written (closeSource fd) := by
  unfold closeSource
  split
  · intro reply
    exact ⟨Or.inr (Or.inr ⟨0, rfl⟩), trivial⟩
  · trivial

/-- On the way out the destination is closed first. -/
theorem locksFirst_out
    {held : Prop} {written : Option Int} {fd dstfd : Int}
    (through : written = none ∨ written = some dstfd) :
    LocksFirst dst_file held written (out fd dstfd) := by
  have closing :
      LocksFirst dst_file held written
        (closeFd dstfd >>= fun _ => closeSource fd) := by
    intro reply
    refine ⟨?_, ?_⟩
    · rcases through with none | same
      · exact Or.inl none
      · exact Or.inr (Or.inl same)
    · cases reply <;> exact locksFirst_closeSource fd
  unfold out
  split
  · refine ⟨trivial, fun found => ?_⟩
    cases found with
    | none => exact closing
    | some dzfd => exact ⟨trivial, fun _ => ⟨trivial, fun _ => closing⟩⟩
  · exact locksFirst_closeSource fd

theorem locksFirst_writeChunk
    {held : Prop} {written : Option Int} {transfer : Transfer} {buf : Bytes}
    (first : held)
    (through : written = none ∨ written = some transfer.dstfd) :
    LocksFirst dst_file held written (writeChunk transfer buf) := by
  refine ⟨first, through, fun reply => ?_⟩
  have counted :
      ∀ ret : Int,
        LocksFirst dst_file held (some transfer.dstfd)
          (countWritten ret >>= fun nbwrite =>
            if nbwrite < 0 then out transfer.fd transfer.dstfd
            else
              Prog.ret
                (.inl
                  (.copy
                    { transfer with
                      total_bytes :=
                        transfer.total_bytes + buf.length }))) := by
    intro ret
    apply LocksFirst.bind
    · unfold countWritten
      split
      · exact ⟨trivial, fun _ => trivial⟩
      · trivial
    · intro nbwrite
      split
      · exact locksFirst_out (Or.inr rfl)
      · exact ⟨Or.inl first, Or.inr rfl⟩
  exact counted (returnCount reply)

/-- A loop keeps the discipline. -/
theorem locksFirst_body
    {held : Prop} {written : Option Int} {loop : Loop}
    (locks : LocksFirst dst_file held written (.ret (.inl loop))) :
    LocksFirst dst_file held written (body loop) := by
  cases loop with
  | copy transfer =>
      refine ⟨trivial, ?_⟩
      rintro (errno | buf)
      · exact locksFirst_out locks.2
      · cases buf with
        | nil => exact locksFirst_out locks.2
        | cons byte rest => exact locks
  | lockw transfer buf =>
      refine ⟨trivial, ?_⟩
      rintro (errno | tested)
      · exact locksFirst_out locks.2
      · cases tested with
        | false => exact locks
        | true =>
            constructor
            · intro errno
              exact locksFirst_out locks.2
            · apply locksFirst_writeChunk
              · rcases locks.1 with held | start
                · exact Or.inl held
                · exact Or.inr ⟨start, rfl⟩
              · exact locks.2

/-- A put begins without the lock. -/
theorem locksFirst_dzfile_put (src_file : CString) :
    LocksFirst dst_file False none (dzfile_put src_file dst_file) := by
  refine ⟨Or.inr ⟨rfl, rfl⟩, fun opened => ?_⟩
  show LocksFirst dst_file False none (if returnFd opened ≤ 0 then _ else _)
  split
  · trivial
  · refine ⟨trivial, fun ret => ?_⟩
    show LocksFirst dst_file False none (if ret < 0 then _ else _)
    split
    · trivial
    · apply LocksFirst.bind
      · apply (opens_dzfile_open dst_file (O_WRONLY + O_CREAT)).mono
        intro op opening
        cases op <;> first
          | exact opening.elim
          | trivial
          | exact Or.inl opening.1
      · intro dstfd
        split
        · exact locksFirst_out (Or.inl rfl)
        · exact ⟨Or.inr rfl, Or.inl rfl⟩

/-- The next call of a program that keeps the discipline. -/
theorem locksFirst_of_action
    {held : Prop} {written : Option Int} {program : PutCall} {op : Op}
    {next : Reply op → PutCall}
    (locks : LocksFirst dst_file held written program)
    (calls : action program = .call op next) :
    LocksFirst dst_file held written (.call op next) := by
  cases program with
  | fault => cases calls
  | call other following =>
      cases calls
      exact locks
  | ret jump =>
      rcases jump with loop | ret
      · have bodyLocks := locksFirst_body locks
        simp only [action, Prog.blockAction] at calls
        split at calls
        · rename_i other following begins
          cases calls
          rw [begins] at bodyLocks
          exact bodyLocks
        · cases calls
      · cases calls

end Discipline

/-! ## What a call changes -/

/-- Descriptors for writing refer to the destination. -/
def Attached (dst_file : CString) (sys : Sys) : Prop :=
  ∀ fd file, sys.proc.fds fd = some file → file.writable = true →
    sys.fs.entry dst_file = some file.ino

/-- The destination keeps its inode and descriptors stay attached to it. -/
structure Keeps (dst_file : CString) (sys later : Sys) : Prop where
  entry :
    ∀ ino, sys.fs.entry dst_file = some ino →
      later.fs.entry dst_file = some ino
  attached : Attached dst_file sys → Attached dst_file later

section Calls

variable
    {platform : Platform} {dst_file : CString} {sys later : Sys}
    {choice : Choice}

/-- Names and descriptors are as before. -/
theorem Keeps.of_same
    (entry : later.fs.entry = sys.fs.entry)
    (fds : later.proc.fds = sys.proc.fds) :
    Keeps dst_file sys later where
  entry ino found := by rw [entry, found]
  attached attached fd file held writable := by
    rw [fds] at held
    rw [entry]
    exact attached fd file held writable

/-- A descriptor is moved or closed. -/
theorem Keeps.of_setFd
    {fd : Int} {file : Option OpenFile}
    (entry : later.fs.entry = sys.fs.entry)
    (proc : later.proc = sys.proc.setFd fd file)
    (moved :
      ∀ after, file = some after →
        ∃ before, sys.proc.fds fd = some before ∧
          before.ino = after.ino ∧ before.writable = after.writable) :
    Keeps dst_file sys later where
  entry ino found := by rw [entry, found]
  attached attached other held found writable := by
    rw [entry]
    rw [proc] at found
    by_cases same : other = fd
    · subst same
      simp only [Process.setFd, Function.update_self] at found
      rcases moved held found with ⟨before, opened, ino, mode⟩
      rw [← ino]
      exact attached other before opened (mode.trans writable)
    · simp only [Process.setFd, Function.update_of_ne same] at found
      exact attached other held found writable

theorem keeps_openFile
    {path : CString} {flags : Nat} {opened : Except Errno Int}
    (named :
      path = dst_file ∨ (accessMode flags = O_RDONLY ∧ hasCreat flags = false))
    (called : sys.openFile choice path flags = some (opened, later)) :
    Keeps dst_file sys later := by
  cases opened with
  | error errno =>
      rw [Sys.openFile_eq_error called]
      exact .of_same rfl rfl
  | ok fd =>
      rcases Sys.openFile_eq_some called with
        ⟨number, ino, fs, _, _, rfl, ⟨absent, creates, rfl, rfl⟩ |
          ⟨found, kept⟩⟩
      · -- The file is created, so it is the destination.
        have same : path = dst_file := by
          rcases named with same | ⟨_, noCreat⟩
          · exact same
          · rw [noCreat] at creates
            cases creates
        subst same
        constructor
        · intro other present
          rw [absent] at present
          cases present
        · intro attached other file held writable
          by_cases new : other = number
          · subst new
            simp only [Process.setFd, Function.update_self,
              Option.some.injEq] at held
            subst held
            simp
          · simp only [Process.setFd, Function.update_of_ne new] at held
            have present := attached other file held writable
            rw [absent] at present
            cases present
      · have entry : fs.entry = sys.fs.entry := by
          rcases kept with rfl | ⟨_, rfl⟩ <;> rfl
        constructor
        · intro other present
          rw [← present, ← entry]
        · intro attached other file held writable
          show fs.entry dst_file = some file.ino
          rw [entry]
          by_cases new : other = number
          · subst new
            simp only [Process.setFd, Function.update_self,
              Option.some.injEq] at held
            subst held
            rcases named with rfl | ⟨readOnly, _⟩
            · exact found
            · simp [OpenFile.writable, readOnly, O_RDONLY, O_WRONLY, O_RDWR]
                at writable
          · simp only [Process.setFd, Function.update_of_ne new] at held
            exact attached other file held writable

theorem keeps_read
    {fd : Int} {count : Nat} {result : Except Errno Bytes}
    (called : sys.read platform choice fd count = some (result, later)) :
    Keeps dst_file sys later := by
  simp only [Sys.read, Sys.refuse] at called
  repeat' split at called
  all_goals first
    | (cases called
       exact .of_same rfl rfl)
    | skip
  all_goals
    rename_i limit file held _ _ _
    rcases Option.map_eq_some_iff.mp called with ⟨data, _, answer⟩
    cases answer
    have moved :
        ∀ after : OpenFile,
          some { file with offset := file.offset + data.length } =
              some after →
            ∃ before, sys.proc.fds fd = some before ∧
              before.ino = after.ino ∧
                before.writable = after.writable := by
      rintro after ⟨⟩
      exact ⟨file, held, rfl, rfl⟩
    exact .of_setFd rfl rfl moved

/-- Harmless calls, writes and closes keep the destination. -/
theorem keeps_of_kernel
    {op : Op} {reply : Reply op}
    (kind :
      harmless dst_file op ∨
        (∃ fd data, op = .write fd data) ∨ ∃ fd, op = .close fd)
    (called : kernel platform sys choice op = some (reply, later)) :
    Keeps dst_file sys later := by
  rcases kind with quiet | ⟨fd, data, rfl⟩ | ⟨fd, rfl⟩
  · cases op with
    | stat path =>
        rw [(Sys.stat_eq_some called).1]
        exact .of_same rfl rfl
    | openFile path flags => exact keeps_openFile quiet called
    | read fd count => exact keeps_read called
    | h5fopen path =>
        rcases h5fopen_eq_some called with
          ⟨_, rfl⟩ | ⟨_, _, _, _, _, _, _, _, rfl⟩
        · exact .of_same rfl rfl
        · exact .of_same rfl rfl
    | h5fclose h5fd =>
        rcases Sys.h5fclose_eq_some called with ⟨_, rfl⟩ | ⟨handle, _, rfl⟩
        · exact .of_same rfl rfl
        · apply Keeps.of_same
          · simp only [Sys.released]
            split <;> rfl
          · rfl
    | getlk fd start length =>
        cases choice <;>
          (cases called
           exact .of_same rfl rfl)
    | sqlite3_exec stmt =>
        cases choice <;>
          (cases called
           exact .of_same rfl rfl)
    | malloc =>
        cases choice <;>
          (cases called
           exact .of_same rfl rfl)
    | dzfile_init =>
        cases choice <;>
          (cases called
           exact .of_same rfl rfl)
    | add_dzfd fd dzfd =>
        cases called
        exact .of_same rfl rfl
    | remove_dzfd fd =>
        cases called
        exact .of_same rfl rfl
    | find_dzfd fd =>
        cases called
        exact .of_same rfl rfl
    | _ => exact quiet.elim
  · rcases Sys.write_eq_some called with
      ⟨errno, _, rfl⟩ | ⟨limit, file, held, _, fs, proc⟩
    · exact .of_same rfl rfl
    · apply Keeps.of_setFd (by rw [fs]; rfl) proc
      rintro after ⟨⟩
      exact ⟨file, held, rfl, rfl⟩
  · have same := Sys.close_eq_some called
    apply Keeps.of_setFd (by rw [same]) (by rw [same])
    rintro after ⟨⟩

/-- A harmless call keeps the destination and the locks. -/
theorem lockKernel_harmless
    {pid : Nat} {env after : Env} {op : Op} {reply : Reply op}
    (quiet : harmless dst_file op)
    (called : lockKernel platform pid env choice op = some (reply, after)) :
    Keeps dst_file env.sys after.sys ∧ after.locks = env.locks := by
  cases op with
  | getlk fd start length =>
      simp only [lockKernel] at called
      split at called
      all_goals
        cases called
        exact ⟨.of_same rfl rfl, rfl⟩
  | write fd data => exact quiet.elim
  | setlk fd start length => exact quiet.elim
  | close fd => exact quiet.elim
  | _ =>
      simp only [lockKernel, Option.map_eq_some_iff] at called
      rcases called with ⟨answer, answered, same⟩
      cases same
      exact ⟨keeps_of_kernel (Or.inl quiet) answered, rfl⟩

theorem nextWriting_harmless
    {writing : Option Int} {op : Op} {reply : Reply op}
    (quiet : harmless dst_file op) :
    nextWriting writing op reply = writing := by
  cases op <;> first
    | rfl
    | exact quiet.elim

end Calls

/-! ## Runs -/

/-- The process holds the first chunk of the destination. -/
def Holds
    (dst_file : CString) (fs : FileSystem) (locks : List FileLock)
    (pid : Nat) : Prop :=
  ∃ ino, fs.entry dst_file = some ino ∧ ⟨ino, pid, 0, BUFLEN⟩ ∈ locks

/-- The invariant. -/
structure World.Sound (dst_file : CString) (world : World) : Prop where
  attached :
    ∀ pid, Attached dst_file (world.env pid).sys
  exclusive : Exclusive world.locks
  disciplined :
    ∀ pid,
      LocksFirst dst_file (Holds dst_file world.fs world.locks pid)
        (world.party pid).writing (world.party pid).program
  inside :
    ∀ pid, (world.party pid).Inside →
      Holds dst_file world.fs world.locks pid

section Runs

variable {platform : Platform} {dst_file : CString} {world : World}

/-- A process changes the locks of nobody else. -/
theorem World.Sound.after
    (sound : world.Sound dst_file) {pid : Nat} {env : Env}
    {program : PutCall} {writing : Option Int}
    (keeps : Keeps dst_file (world.env pid).sys env.sys)
    (exclusive : Exclusive env.locks)
    (others : ∀ lock ∈ world.locks, lock.owner ≠ pid → lock ∈ env.locks)
    (disciplined :
      LocksFirst dst_file (Holds dst_file env.sys.fs env.locks pid) writing
        program)
    (inside :
      (Party.mk env.sys.proc program writing).Inside →
        Holds dst_file env.sys.fs env.locks pid) :
    (world.after pid env program writing).Sound dst_file := by
  have holds :
      ∀ other, other ≠ pid → Holds dst_file world.fs world.locks other →
        Holds dst_file env.sys.fs env.locks other := by
    rintro other different ⟨ino, found, member⟩
    exact ⟨ino, keeps.entry ino found, others _ member different⟩
  constructor
  · intro other
    by_cases same : other = pid
    · subst same
      have attached := keeps.attached (sound.attached other)
      simpa only [World.env, World.after, Function.update_self] using attached
    · intro fd file held writable
      simp only [World.env, World.after, Function.update_of_ne same]
        at held ⊢
      exact
        keeps.entry file.ino (sound.attached other fd file held writable)
  · exact exclusive
  · intro other
    by_cases same : other = pid
    · subst same
      simpa only [World.after, Function.update_self] using disciplined
    · simp only [World.after, Function.update_of_ne same]
      exact
        (sound.disciplined other).mono (holds other same) (Or.inr rfl)
  · intro other isInside
    by_cases same : other = pid
    · subst same
      simp only [World.after, Function.update_self] at isInside
      exact inside isInside
    · simp only [World.after, Function.update_of_ne same] at isInside
      exact holds other same (sound.inside other isInside)

/-- A call that leaves the locks alone. -/
theorem World.Sound.call
    (sound : world.Sound dst_file) {pid : Nat} {env : Env} {op : Op}
    {next : Reply op → PutCall} {reply : Reply op} {writing : Option Int}
    (calls : action (world.party pid).program = .call op next)
    (keeps : Keeps dst_file (world.env pid).sys env.sys)
    (locks : env.locks = world.locks)
    (rest :
      LocksFirst dst_file (Holds dst_file world.fs world.locks pid) writing
        (next reply))
    (wrote :
      writing.isSome → (world.party pid).writing.isSome ∨
        Holds dst_file world.fs world.locks pid) :
    (world.after pid env (next reply) writing).Sound dst_file := by
  have holds :
      Holds dst_file world.fs world.locks pid →
        Holds dst_file env.sys.fs env.locks pid := by
    rintro ⟨ino, found, member⟩
    rw [locks]
    exact ⟨ino, keeps.entry ino found, member⟩
  have running : ¬ Returned (world.party pid).program := by
    rintro ⟨ret, returned⟩
    rw [returned] at calls
    cases calls
  apply sound.after keeps
  · rw [locks]
    exact sound.exclusive
  · intro lock member _
    rw [locks]
    exact member
  · exact rest.mono holds (Or.inr rfl)
  · rintro ⟨isWriting, _⟩
    rcases wrote isWriting with before | held
    · exact holds (sound.inside pid ⟨before, running⟩)
    · exact holds held

/-- A write, which only the holder of the first chunk makes. -/
theorem World.Sound.write
    (sound : world.Sound dst_file) {pid : Nat} {choice : Choice} {fd : Int}
    {buf : Bytes} {next : Reply (.write fd buf) → PutCall}
    {reply : Reply (.write fd buf)} {env : Env}
    (calls : action (world.party pid).program = .call (.write fd buf) next)
    (called :
      lockKernel platform pid (world.env pid) choice (.write fd buf) =
        some (reply, env)) :
    (world.after pid env (next reply)
      (nextWriting (world.party pid).writing (.write fd buf) reply)).Sound
        dst_file := by
  rcases locksFirst_of_action (sound.disciplined pid) calls with
    ⟨held, through, rest⟩
  rcases Option.map_eq_some_iff.mp called with
    ⟨⟨reply, sys⟩, answered, answer⟩
  cases answer
  apply sound.call calls
  · exact keeps_of_kernel (Or.inr (Or.inl ⟨fd, buf, rfl⟩)) answered
  · rfl
  · apply (rest reply).mono id
    rcases reply with errno | _ | count
    · exact through
    · exact through
    · exact Or.inr rfl
  · intro _
    exact Or.inr held

/-- A lock that is set or refused. -/
theorem World.Sound.setlk
    (sound : world.Sound dst_file) {pid : Nat} {choice : Choice} {fd : Int}
    {start length : Nat} {next : Reply (.setlk fd start length) → PutCall}
    {reply : Reply (.setlk fd start length)} {env : Env}
    (calls :
      action (world.party pid).program = .call (.setlk fd start length) next)
    (called :
      lockKernel platform pid (world.env pid) choice
          (.setlk fd start length) =
        some (reply, env)) :
    (world.after pid env (next reply) (world.party pid).writing).Sound
      dst_file := by
  rcases locksFirst_of_action (sound.disciplined pid) calls with
    ⟨refused, granted⟩
  have refusal :
      ∀ errno : Errno,
        (world.after pid (world.env pid) (next (.error errno))
          (world.party pid).writing).Sound dst_file := by
    intro errno
    exact
      sound.call calls (.of_same rfl rfl) rfl (refused errno) Or.inl
  simp only [lockKernel] at called
  split at called
  · cases called
    exact refusal _
  · cases called
    exact refusal _
  · rename_i number file held
    split at called
    · cases called
      exact refusal _
    · rename_i writable
      split at called
      · rename_i free
        cases called
        have running : ¬ Returned (world.party pid).program := by
          rintro ⟨ret, returned⟩
          rw [returned] at calls
          cases calls
        have entry : world.fs.entry dst_file = some file.ino :=
          sound.attached pid fd file held (by simpa using writable)
        have kept :
            Holds dst_file world.fs world.locks pid ∨
                (start = 0 ∧ length = BUFLEN) →
              Holds dst_file world.fs
                (⟨file.ino, pid, start, length⟩ :: world.locks) pid := by
          rintro (⟨ino, found, member⟩ | ⟨rfl, rfl⟩)
          · exact ⟨ino, found, List.mem_cons_of_mem _ member⟩
          · exact ⟨file.ino, entry, List.mem_cons_self⟩
        apply sound.after
        · exact .of_same rfl rfl
        · exact sound.exclusive.grant free
        · intro lock member _
          exact List.mem_cons_of_mem _ member
        · exact granted.mono kept (Or.inr rfl)
        · rintro ⟨isWriting, _⟩
          exact kept (Or.inl (sound.inside pid ⟨isWriting, running⟩))
      · cases called
        exact refusal _

/-- A close, after which the program does not write. -/
theorem World.Sound.close
    (sound : world.Sound dst_file) {pid : Nat} {choice : Choice} {fd : Int}
    {next : Reply (.close fd) → PutCall} {reply : Reply (.close fd)}
    {env : Env}
    (calls : action (world.party pid).program = .call (.close fd) next)
    (called :
      lockKernel platform pid (world.env pid) choice (.close fd) =
        some (reply, env)) :
    (world.after pid env (next reply)
      (nextWriting (world.party pid).writing (.close fd) reply)).Sound
        dst_file := by
  have locks := locksFirst_of_action (sound.disciplined pid) calls
  rcases locks reply with ⟨through, rest⟩
  rcases Option.map_eq_some_iff.mp called with
    ⟨⟨reply, sys⟩, answered, answer⟩
  cases answer
  have writing :
      nextWriting (world.party pid).writing (.close fd) reply = none ∨
        Returned (next reply) := by
    simp only [nextWriting]
    rcases through with none | same | returned
    · left
      rw [none]
      simp
    · left
      rw [if_pos same]
    · exact Or.inr returned
  apply sound.after
  · exact keeps_of_kernel (Or.inr (Or.inr ⟨fd, rfl⟩)) answered
  · simp only [Env.released]
    split
    · exact sound.exclusive
    · exact sound.exclusive.filter _
  · intro lock member other
    simp only [Env.released]
    split
    · exact member
    · exact mem_release_of_ne member other
  · rcases writing with none | ⟨ret, returned⟩
    · rw [none]
      exact rest.mono False.elim (Or.inl rfl)
    · rw [returned]
      trivial
  · rintro ⟨isWriting, running⟩
    rcases writing with none | returned
    · rw [none] at isWriting
      cases isWriting
    · exact (running returned).elim

/-- Every step keeps the invariant. -/
theorem World.Sound.step
    {next : World} {label : Label} (sound : world.Sound dst_file)
    (stepped : PutLocks.step platform world label = some next) :
    next.Sound dst_file := by
  cases label with
  | exit pid =>
      cases stepped
      apply sound.after
      · constructor
        · exact fun _ found => found
        · intro _ fd file held
          cases held
      · exact sound.exclusive.filter _
      · exact fun lock member other => mem_releaseAll_of_ne member other
      · trivial
      · rintro ⟨isWriting, _⟩
        cases isWriting
  | step pid choice =>
      simp only [PutLocks.step] at stepped
      split at stepped
      · cases stepped
      · cases stepped
      · rename_i op following calls
        rcases Option.map_eq_some_iff.mp stepped with
          ⟨⟨reply, env⟩, called, rfl⟩
        have locks := locksFirst_of_action (sound.disciplined pid) calls
        have otherwise (quiet : harmless dst_file op) :
            (world.after pid env (following reply)
              (nextWriting (world.party pid).writing op reply)).Sound
                dst_file := by
          rw [nextWriting_harmless quiet]
          rcases lockKernel_harmless quiet called with ⟨keeps, same⟩
          exact
            sound.call calls keeps same
              ((locksFirst_call quiet).mp locks reply) Or.inl
        cases op with
        | write fd data => exact sound.write calls called
        | setlk fd start length => exact sound.setlk calls called
        | close fd => exact sound.close calls called
        | _ => exact otherwise locks.1

/-- Whoever writes while a put has written and not closed is that put. -/
theorem writers_serialised
    (platform : Platform) (fs : FileSystem) (db : Metadata.Db)
    (src_file : Nat → CString) (dst_file : CString)
    {labels : List Label} {world : World}
    (ran :
      run (step platform) (.start fs db src_file dst_file) labels =
        some world)
    {first second : Nat} (inside : (world.party first).Inside)
    (writes : (world.party second).Writes) :
    second = first := by
  have start : (World.start fs db src_file dst_file).Sound dst_file := by
    constructor
    · intro pid fd file held
      cases held
    · intro lock member
      cases member
    · intro pid
      apply (locksFirst_dzfile_put (src_file pid)).mono False.elim
      exact Or.inl rfl
    · rintro pid ⟨isWriting, _⟩
      cases isWriting
  have sound :=
    run_invariant (World.Sound dst_file)
      (fun _ _ _ sound stepped => sound.step stepped) start ran
  rcases writes with ⟨fd, buf, next, calls⟩
  rcases (locksFirst_of_action (sound.disciplined second) calls).1 with
    ⟨ino, found, secondHolds⟩
  rcases sound.inside first inside with ⟨ino', found', firstHolds⟩
  rw [found] at found'
  cases found'
  have positive : 0 < 0 + BUFLEN := by decide
  exact
    sound.exclusive _ secondHolds _ firstHolds ⟨rfl, positive, positive⟩

end Runs

/-- `/s` holds two bytes. -/
def storeS : FileSystem :=
  Sys.initial.fs.link ['/', 's'] (.file [7, 8])

/-- Process 0 puts `/s` to `/d` byte by byte; it is about to write again. -/
def twoChunks : List Label :=
  [.ok 3, .ok 0, .ok 0, .ok 0, .ok 0, .ok 0, .ok 4, .ok 1, .ok 0, .ok 0,
    .ok 1, .ok 0, .ok 1, .ok 0, .ok 0].map (.step 0)

theorem writers_serialised_twoChunks :
    ∃ world,
      run (step storingPlatform)
            (.start storeS .empty (fun _ => ['/', 's']) ['/', 'd'])
            twoChunks =
          some world ∧
        (world.party 0).Inside ∧ (world.party 0).Writes ∧
          ∀ second, (world.party second).Writes → second = 0 := by
  have ran :
      ∃ world,
        run (step storingPlatform)
              (.start storeS .empty (fun _ => ['/', 's']) ['/', 'd'])
              twoChunks =
            some world ∧
          (world.party 0).Inside ∧ (world.party 0).Writes := by
    refine ⟨_, rfl, ⟨rfl, ?_⟩, ⟨4, [8], _, rfl⟩⟩
    rintro ⟨ret, returned⟩
    cases returned
  rcases ran with ⟨world, ran, inside, writes⟩
  refine ⟨world, ran, inside, writes, ?_⟩
  intro second secondWrites
  exact writers_serialised _ _ _ _ _ ran inside secondWrites

end DZFile.PutLocks
