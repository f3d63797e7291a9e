import DZFile.Put
import DZFile.Sequential
import DZFile.Library.RelyGuarantee
import DZFile.Library.Transition

/-!
# The content a put leaves behind

One `dzfile_put` and whatever its calls return: short reads and writes, locks
that are held by others, and failures.  Almost every way through it ends in
`return 0`, so what the destination reads back as afterwards depends on what
the calls returned, and on what the destination held before.

The step lemma is one condition for each of the two loops: the destination
holds what has been accepted so far, over what it held before.
-/

namespace DZFile.PutContent

open DZFile.ByteSeq
open DZFile.Interaction
open DZFile.RelyGuarantee
open DZFile.Transition
open DZFile.Names
open DZFile.Codec
open DZFile.Image
open DZFile.Kernel
open DZFile.Api
open DZFile.Opening
open DZFile.Sequential
open DZFile.Put

/-! ## What a path reads back as -/

/-- A read inside the content returns it; a read past its end finds nothing. -/
def Finds
    (content : Bytes) (offset count : Nat) (result : PreadResult) : Prop :=
  (offset + count ≤ content.length →
      result = .returned count (slice content offset count)) ∧
    (content.length ≤ offset →
      ∀ ret buf, result = .returned ret buf → ret ≤ 0)

/-- No call is refused, and none is cut short. -/
def InFull (count : Nat) (choices : List Choice) : Prop :=
  ∀ choice ∈ choices, ∃ limit, choice = .ok limit ∧ count ≤ limit

/--
The content a path reads back as: it can be opened, and whoever opens it for
reading and is not refused finds the content.
-/
structure LogicalContent
    (platform : Platform) (fs : FileSystem) (path : CString)
    (content : Bytes) : Prop where
  opens :
    ∃ db choices fd later,
      (dzfile_open path O_RDONLY).run (kernel platform) ⟨fs, db, .empty⟩
          choices =
        some (fd, later) ∧ 0 ≤ fd
  reads :
    ∀ db client choices fd later,
      Consistent client →
        (dzfile_open path O_RDONLY).run (kernel platform) ⟨fs, db, client⟩
            choices =
          some (fd, later) →
        0 ≤ fd →
          ∀ dstlen (offset : Nat) count answers result last,
            InFull count answers →
              (dzfile_pread platform.libs dstlen fd count offset).run
                  (kernel platform) later answers =
                some (result, last) →
              Finds content offset count result

/-- `dzfile_open` lets the name through. -/
def Admits (path : CString) : Prop :=
  match_sysdir path = false ∧
    ∃ bname, strrchrSlash path = some bname ∧ illegalName path bname = false

/-- A path without an image, and what its file holds. -/
structure Plain (fs : FileSystem) (path : CString) (now : Bytes) : Prop where
  admitted : Admits path
  built : (buildHiddenFile path).isSome
  unconverted :
    ∀ h5name, buildHiddenFile path = some h5name → fs.entry h5name = none
  holds : ∃ ino, fs.entry path = some ino ∧ fs.node ino = .file now

section ReadingBack

variable
    {platform : Platform} {fs : FileSystem} {path : CString}
    {now content : Bytes}

/-- A read in full of a plain file. -/
theorem run_dzfile_pread_inFull
    {sys last : Sys} {fd dstlen : Int} {offset count : Nat}
    {answers : List Choice} {result : PreadResult} {file : OpenFile}
    (held : sys.proc.fds fd = some file) (readable : file.readable = true)
    (node : sys.fs.node file.ino = .file now)
    (unmapped : sys.proc.h5fdmap fd = none)
    (inFull : InFull count answers)
    (ran :
      (dzfile_pread platform.libs dstlen fd count offset).run
          (kernel platform) sys answers =
        some (result, last)) :
    result =
      .returned (slice now offset count).length (slice now offset count) := by
  rcases Prog.run_call_eq_some.mp ran with
    ⟨first, rest, found, middle, rfl, looked, after⟩
  simp only [kernel, unmapped] at looked
  cases looked
  rcases Prog.run_call_eq_some.mp after with
    ⟨second, more, data, later, rfl, called, returned⟩
  rcases Prog.run_ret_eq_some.mp returned with ⟨_, rfl, _⟩
  rcases inFull second (by simp) with ⟨limit, rfl, enough⟩
  change sys.pread platform (.ok limit) fd count offset = _ at called
  rw [Sys.pread_file held readable node] at called
  rcases Option.map_eq_some_iff.mp called with ⟨bytes, transferred, answer⟩
  cases answer
  rw [Sys.transfer_inFull enough transferred]
  rfl

/-- A read in full of a plain file is possible. -/
theorem runs_dzfile_pread
    {sys : Sys} {fd : Int} {file : OpenFile}
    (held : sys.proc.fds fd = some file) (readable : file.readable = true)
    (node : sys.fs.node file.ino = .file now)
    (unmapped : sys.proc.h5fdmap fd = none) (dstlen : Int)
    (offset count : Nat) :
    ∃ result,
      (dzfile_pread platform.libs dstlen fd count offset).run
          (kernel platform) sys [.ok count, .ok count] =
        some (result, sys) := by
  refine
    ⟨.returned (slice now offset count).length (slice now offset count), ?_⟩
  apply Prog.run_call_eq_some.mpr
  refine ⟨.ok count, [.ok count], none, sys, rfl, ?_, ?_⟩
  · simp only [kernel, unmapped]
  · apply Prog.run_call_eq_some.mpr
    refine
      ⟨.ok count, [], .ok (slice now offset count), sys, rfl, ?_, rfl⟩
    show sys.pread platform (.ok count) fd count offset = _
    rw [Sys.pread_file held readable node, Sys.transfer_all]
    rfl

/-- A plain path can be opened. -/
theorem Plain.opens (plain : Plain fs path now) (db : Metadata.Db) :
    ∃ fd later,
      (dzfile_open path O_RDONLY).run (kernel platform) ⟨fs, db, .empty⟩
          [.ok 0, .ok 0, .ok 3] =
        some (fd, later) ∧ 0 ≤ fd := by
  rcases plain.admitted with ⟨notSystem, bname, slash, legal⟩
  rcases Option.isSome_iff_exists.mp plain.built with ⟨h5name, built⟩
  rcases plain.holds with ⟨ino, named, node⟩
  have absent := plain.unconverted h5name built
  refine
    ⟨(3 : Nat),
      ⟨fs, db, Process.empty.setFd (3 : Nat) (some ⟨ino, 0, O_RDONLY⟩)⟩, ?_,
      by decide⟩
  simp only [dzfile_open, notSystem, Bool.false_eq_true, if_false, slash,
    legal]
  apply Prog.run_bind_eq_some.mpr
  refine ⟨[.ok 0], [.ok 0, .ok 3], 0, ⟨fs, db, .empty⟩, rfl, ?_, ?_⟩
  · simp only [findhiddenFile, built]
    apply Prog.run_call_eq_some.mpr
    refine ⟨.ok 0, [], .error .ENOENT, ⟨fs, db, .empty⟩, rfl, ?_, rfl⟩
    simp [kernel, Sys.stat, FileSystem.lookup, absent, Sys.refuse]
  · show (openPlain path O_RDONLY).run _ _ _ = _
    apply Prog.run_call_eq_some.mpr
    refine
      ⟨.ok 0, [.ok 3], .ok ⟨false, now.length⟩, ⟨fs, db, .empty⟩, rfl, ?_, ?_⟩
    · simp [kernel, Sys.stat, FileSystem.lookup, named, node, Node.bytes]
    · apply Prog.run_call_eq_some.mpr
      refine ⟨.ok 3, [], .ok (3 : Nat), _, rfl, ?_, rfl⟩
      have notCreat : hasCreat O_RDONLY = false := by decide
      have notTrunc : hasTrunc O_RDONLY = false := by decide
      simp only [kernel, Sys.openFile, Process.empty, named, node,
        notCreat, notTrunc, Sys.install, ne_eq, not_true_eq_false, if_false,
        Bool.false_and, Bool.false_eq_true]

/-- What opens a plain path reads its file. -/
theorem Plain.reader
    (plain : Plain fs path now) {db : Metadata.Db} {client : Process}
    {choices : List Choice} {fd : Int} {later : Sys}
    (consistent : Consistent client)
    (opened :
      (dzfile_open path O_RDONLY).run (kernel platform) ⟨fs, db, client⟩
          choices =
        some (fd, later))
    (valid : 0 ≤ fd) :
    Reader platform.libs fd now false later := by
  rcases plain.holds with ⟨ino, named, node⟩
  have stored : Stored platform.libs fs path now false :=
    .plain ino named node plain.unconverted
  exact reader_of_opens stored consistent (opens_of_run opened) valid

/-- A plain path reads back as the content of its file. -/
theorem Plain.reads
    (plain : Plain fs path now) {db : Metadata.Db} {client : Process}
    {choices : List Choice} {fd : Int} {later : Sys}
    (consistent : Consistent client)
    (opened :
      (dzfile_open path O_RDONLY).run (kernel platform) ⟨fs, db, client⟩
          choices =
        some (fd, later))
    (valid : 0 ≤ fd) {dstlen : Int} {offset count : Nat}
    {answers : List Choice} {result : PreadResult} {last : Sys}
    (inFull : InFull count answers)
    (ran :
      (dzfile_pread platform.libs dstlen fd count offset).run
          (kernel platform) later answers =
        some (result, last)) :
    result =
      .returned (slice now offset count).length (slice now offset count) := by
  rcases plain.reader consistent opened valid with
    ⟨⟨file, held, readable, node⟩, unmapped⟩
  exact run_dzfile_pread_inFull held readable node unmapped inFull ran

/-- A plain path reads back as one content, that of its file. -/
theorem logicalContent_iff_of_plain (plain : Plain fs path now) :
    LogicalContent platform fs path content ↔ now = content := by
  constructor
  · intro logical
    rcases @Plain.opens platform fs path now plain .empty with
      ⟨fd, later, opened, valid⟩
    have consistent : Consistent Process.empty := fun _ _ => rfl
    have finds :
        ∀ offset count : Nat,
          Finds content offset count
            (.returned (slice now offset count).length
              (slice now offset count)) := by
      intro offset count
      rcases plain.reader consistent opened valid with
        ⟨⟨file, held, readable, node⟩, unmapped⟩
      rcases @runs_dzfile_pread platform now later fd file held readable node
          unmapped 0 offset count with ⟨result, ran⟩
      have inFull : InFull count [.ok count, .ok count] := by
        intro choice member
        rcases List.mem_cons.mp member with rfl | member
        · exact ⟨count, rfl, le_rfl⟩
        · exact ⟨count, List.mem_singleton.mp member, le_rfl⟩
      have same := plain.reads consistent opened valid inFull ran
      rw [← same]
      exact
        logical.reads _ _ _ fd later consistent opened valid 0 offset count _
          result later inFull ran
    have whole := (finds 0 content.length).1 (by omega)
    have ends := (finds content.length 1).2 le_rfl _ _ rfl
    rw [length_slice] at ends
    simp only [PreadResult.returned.injEq, slice, List.drop_zero] at whole
    have covered : now.length ≤ content.length := by omega
    rw [List.take_of_length_le covered] at whole
    exact whole.2.trans (List.take_of_length_le le_rfl)
  · rintro rfl
    constructor
    · rcases @Plain.opens platform fs path now plain .empty with
        ⟨fd, later, opened, valid⟩
      exact ⟨_, _, fd, later, opened, valid⟩
    · intro db client choices fd later consistent opened valid dstlen offset
        count answers result last inFull ran
      have result_ :=
        plain.reads consistent opened valid inFull ran
      rw [result_]
      constructor
      · intro within
        have length : (slice now offset count).length = count := by
          rw [length_slice]
          omega
        rw [length]
      · intro beyond ret buf returned
        rw [slice_of_length_le beyond] at returned
        cases returned
        decide

end ReadingBack

/-! ## What the calls return -/

/--
The bytes the writes have taken: of each chunk read from the content as many
as its write took.
-/
def laid (content : Bytes) : List Nat → List Nat → Bytes
  | read :: reads, written :: writes =>
      content.take (min written read) ++ laid (content.drop read) reads writes
  | _, _ => []

/-- One more chunk, and what its write took. -/
theorem laid_concat
    (content : Bytes) {reads writes : List Nat} (read written : Nat)
    (paired : reads.length = writes.length) :
    laid content (reads ++ [read]) (writes ++ [written]) =
      laid content reads writes ++
        slice content reads.sum (min written read) := by
  induction reads generalizing content writes with
  | nil =>
      cases writes with
      | nil => simp [laid, slice]
      | cons written' writes => cases paired
  | cons read' reads induction =>
      cases writes with
      | nil => cases paired
      | cons written' writes =>
          have paired' : reads.length = writes.length := by
            simpa using paired
          simp only [List.cons_append, laid, List.sum_cons, List.append_assoc]
          rw [induction (content.drop read') paired']
          simp only [slice, List.drop_drop]

/-- A chunk without a write adds nothing. -/
theorem laid_unwritten
    (content : Bytes) {reads writes : List Nat} (read : Nat)
    (paired : reads.length = writes.length) :
    laid content (reads ++ [read]) writes = laid content reads writes := by
  induction reads generalizing content writes with
  | nil =>
      cases writes with
      | nil => rfl
      | cons written writes => cases paired
  | cons read' reads induction =>
      cases writes with
      | nil => cases paired
      | cons written writes =>
          have paired' : reads.length = writes.length := by
            simpa using paired
          simp only [List.cons_append, laid]
          rw [induction (content.drop read') paired']

/-- The writes do not overtake the reads. -/
theorem length_laid_le
    (content : Bytes) (reads writes : List Nat) :
    (laid content reads writes).length ≤ reads.sum := by
  induction reads generalizing content writes with
  | nil => simp [laid]
  | cons read reads induction =>
      cases writes with
      | nil => simp [laid]
      | cons written writes =>
          have rest := induction (content.drop read) writes
          simp only [laid, List.length_append, List.length_take,
            List.sum_cons]
          omega

/-- What the destination holds after the writes. -/
def overlaid (content old : Bytes) (reads writes : List Nat) : Bytes :=
  laid content reads writes ++
    old.drop (laid content reads writes).length

/-- Past what was laid over it a content is unchanged. -/
theorem drop_overlaid
    {content piece : Bytes} {position : Nat}
    (behind : piece.length ≤ position) :
    (piece ++ content.drop piece.length).drop position =
      content.drop position := by
  rw [List.drop_append, List.drop_eq_nil_of_le behind, List.nil_append,
    List.drop_drop]
  congr 1
  omega

/-- What the calls of a put have returned so far. -/
structure Results where
  /-- The destination has been opened. -/
  opened : Bool
  /-- How many bytes each read returned. -/
  reads : List Nat
  /-- How many bytes each write took. -/
  writes : List Nat

/-- One more result. -/
def Results.after (results : Results) : (op : Op) → Reply op → Results
  | .openFile _ flags, .ok _ =>
      if flags = O_RDONLY then results else { results with opened := true }
  | .read _ _, .ok data =>
      { results with reads := results.reads ++ [data.length] }
  | .write _ _, .ok written =>
      { results with writes := results.writes ++ [written] }
  | _, _ => results

/-- The kernel, with the results noted. -/
def noting (platform : Platform) :
    Interaction.Kernel Op Reply (Sys × Results) Choice :=
  fun state choice op =>
    (kernel platform state.1 choice op).map fun answer =>
      (answer.1, (answer.2, state.2.after op answer.1))

/-- One call of a put. -/
def step (platform : Platform) (state : (Sys × Results) × PutCall)
    (choice : Choice) : Option ((Sys × Results) × PutCall) :=
  advance (noting platform) Put.action state.1 state.2 choice

/-- A put that has not made a call. -/
def start (sys : Sys) (src_file dst_file : CString) :
    (Sys × Results) × PutCall :=
  ((sys, ⟨false, [], []⟩), dzfile_put src_file dst_file)

/-- Any answer of the environment. -/
def Answers
    (platform : Platform) (op : Op) (state : Sys × Results)
    (reply : Reply op) (later : Sys × Results) : Prop :=
  ∃ choice, noting platform state choice op = some (reply, later)

theorem answers_kernel
    {platform : Platform} {op : Op} {state later : Sys × Results}
    {reply : Reply op} (answered : Answers platform op state reply later) :
    (∃ choice, kernel platform state.1 choice op = some (reply, later.1)) ∧
      later.2 = state.2.after op reply := by
  rcases answered with ⟨choice, noted⟩
  rcases Option.map_eq_some_iff.mp noted with ⟨⟨reply', sys⟩, called, same⟩
  cases same
  exact ⟨⟨choice, called⟩, rfl⟩

/-! ## The conditions of the loops -/

/-- What holds while the content is copied. -/
structure Copying
    (platform : Platform) (content old : Bytes) (dst_file : CString)
    (transfer : Transfer) (src dst : Ino) (reads writes : List Nat)
    (sys : Sys) : Prop where
  admitted : Admits dst_file
  built : (buildHiddenFile dst_file).isSome
  unconverted :
    ∀ h5name, buildHiddenFile dst_file = some h5name →
      sys.fs.entry h5name = none
  named : sys.fs.entry dst_file = some dst
  node : sys.fs.node dst = .file (overlaid content old reads writes)
  destination :
    sys.proc.fds transfer.dstfd =
      some ⟨dst, (laid content reads writes).length, O_WRONLY + O_CREAT⟩
  unmapped : sys.proc.h5fdmap transfer.dstfd = none
  source : sys.proc.fds transfer.fd = some ⟨src, reads.sum, O_RDONLY⟩
  rest :
    ((sys.fs.node src).bytes platform).drop reads.sum =
      content.drop reads.sum
  /-- The source may be the destination. -/
  same : src = dst → old = content

/-- The condition of each loop. -/
def Entered
    (platform : Platform) (content old : Bytes) (dst_file : CString) :
    Loop → Sys × Results → Prop
  | .copy transfer, (sys, results) =>
      results.opened = true ∧
        results.reads.length = results.writes.length ∧
          ∃ src dst,
            Copying platform content old dst_file transfer src dst
              results.reads results.writes sys
  | .lockw transfer buf, (sys, results) =>
      results.opened = true ∧
        ∃ before,
          results.reads = before ++ [buf.length] ∧
            before.length = results.writes.length ∧
              buf = slice content before.sum buf.length ∧
                ∃ src dst,
                  Copying platform content old dst_file transfer src dst
                    results.reads results.writes sys

/-- What is there when a put returns. -/
def Outcome
    (content old : Bytes) (dst_file : CString) (start : FileSystem)
    (state : Sys × Results) : Prop :=
  if state.2.opened then
    Plain state.1.fs dst_file
      (overlaid content old state.2.reads state.2.writes)
  else state.1.fs = start

/-- A put that returns 0 leaves an outcome. -/
def Returns
    (content old : Bytes) (dst_file : CString) (start : FileSystem)
    (ret : Int) (state : Sys × Results) : Prop :=
  ret = 0 → Outcome content old dst_file start state

section Steps

variable
    {platform : Platform} {content old : Bytes} {dst_file : CString}
    {fs : FileSystem} {transfer : Transfer} {src dst : Ino}
    {reads writes : List Nat} {sys later : Sys}

theorem Copying.plain
    (copying :
      Copying platform content old dst_file transfer src dst reads writes
        sys) :
    Plain sys.fs dst_file (overlaid content old reads writes) where
  admitted := copying.admitted
  built := copying.built
  unconverted := copying.unconverted
  holds := ⟨dst, copying.named, copying.node⟩

theorem Copying.fd_ne_dstfd
    (copying :
      Copying platform content old dst_file transfer src dst reads writes
        sys) :
    transfer.fd ≠ transfer.dstfd := by
  intro same
  have source := copying.source
  rw [same, copying.destination] at source
  have flags := congrArg OpenFile.flags (Option.some.inj source)
  have different : O_WRONLY + O_CREAT ≠ O_RDONLY := by decide
  exact different flags

/-- The counters do not matter. -/
theorem Copying.recorded
    (copying :
      Copying platform content old dst_file transfer src dst reads writes
        sys)
    (db : Metadata.Db) :
    Copying platform content old dst_file transfer src dst reads writes
      ⟨sys.fs, db, sys.proc⟩ :=
  { copying with }

theorem Copying.transferred
    (copying :
      Copying platform content old dst_file transfer src dst reads writes
        sys)
    (total_bytes : Nat) :
    Copying platform content old dst_file
      { transfer with total_bytes := total_bytes } src dst reads writes sys :=
  { copying with }

/-- A read moves the source descriptor. -/
theorem Copying.read
    (copying :
      Copying platform content old dst_file transfer src dst reads writes
        sys)
    (paired : reads.length = writes.length)
    {choice : Choice} {data : Bytes}
    (called :
      sys.read platform choice transfer.fd BUFLEN =
        some (.ok data, later)) :
    Copying platform content old dst_file transfer src dst
        (reads ++ [data.length]) writes later ∧
      data = slice content reads.sum data.length := by
  rcases Sys.read_eq_ok (by decide) called with
    ⟨limit, file, _, held, data', rfl, _⟩
  rw [copying.source] at held
  cases held
  have rest := slice_congr copying.rest (min limit BUFLEN)
  have piece : data = slice content reads.sum data.length := by
    rw [data', rest, slice_length_slice]
  have unwritten := laid_unwritten content data.length paired
  refine ⟨?_, piece⟩
  constructor
  · exact copying.admitted
  · exact copying.built
  · exact copying.unconverted
  · exact copying.named
  · rw [overlaid, unwritten]
    exact copying.node
  · rw [unwritten]
    show Function.update sys.proc.fds transfer.fd _ transfer.dstfd = _
    rw [Function.update_of_ne copying.fd_ne_dstfd.symm]
    exact copying.destination
  · exact copying.unmapped
  · simp [Process.setFd]
  · have further := congrArg (List.drop data.length) copying.rest
    rw [List.drop_drop, List.drop_drop] at further
    simpa using further
  · exact copying.same

/-- A write puts its bytes where the previous one ended. -/
theorem Copying.write
    {buf : Bytes}
    (copying :
      Copying platform content old dst_file transfer src dst
        (reads ++ [buf.length]) writes sys)
    (paired : reads.length = writes.length)
    (piece : buf = slice content reads.sum buf.length)
    {choice : Choice} {written : Nat}
    (called :
      sys.write platform choice transfer.dstfd buf =
        some (.ok written, later)) :
    Copying platform content old dst_file transfer src dst
      (reads ++ [buf.length]) (writes ++ [written]) later := by
  rcases Sys.write_eq_some called with
    ⟨errno, failed, _⟩ | ⟨limit, file, held, result, fs', proc'⟩
  · cases failed
  · cases result
    have destination := copying.destination
    have node := copying.node
    have unwritten := laid_unwritten content buf.length paired
    have taken :
        laid content (reads ++ [buf.length])
            (writes ++ [min limit buf.length]) =
          laid content reads writes ++ buf.take limit := by
      rw [laid_concat content _ _ paired, piece, take_slice_min]
      congr 2
      rw [← piece]
      omega
    rw [unwritten] at destination
    rw [overlaid, unwritten] at node
    rw [destination] at held
    cases held
    have position :
        sys.landing platform
            ⟨dst, (laid content reads writes).length, O_WRONLY + O_CREAT⟩
            (laid content reads writes).length =
          (laid content reads writes).length := by
      have notAppend : hasAppend (O_WRONLY + O_CREAT) = false := by decide
      simp [Sys.landing, notAppend]
    rw [position] at fs' proc'
    simp only [Sys.writeAt, node, Node.bytes, overwrite_continue] at fs'
    rw [← taken] at fs'
    have fd_ne := copying.fd_ne_dstfd
    constructor
    · exact copying.admitted
    · exact copying.built
    · intro h5name built
      rw [fs']
      exact copying.unconverted h5name built
    · rw [fs']
      exact copying.named
    · rw [fs']
      simp [overlaid]
    · rw [proc', taken]
      simp [Process.setFd]
    · rw [proc']
      exact copying.unmapped
    · rw [proc']
      show Function.update sys.proc.fds transfer.dstfd _ transfer.fd = _
      rw [Function.update_of_ne fd_ne]
      exact copying.source
    · rw [fs']
      by_cases same : src = dst
      · subst same
        have behind :=
          length_laid_le content (reads ++ [buf.length])
            (writes ++ [min limit buf.length])
        rw [FileSystem.node_put, Function.update_self, copying.same rfl]
        exact drop_overlaid behind
      · rw [FileSystem.node_put, Function.update_of_ne same]
        exact copying.rest
    · exact copying.same

/-! ## The blocks -/

/-- The condition of a stretch of the put. -/
abbrev Holding
    (platform : Platform) (content old : Bytes) (dst_file : CString)
    (fs : FileSystem) (program : PutCall) (state : Sys × Results) : Prop :=
  Ensures Eq (Answers platform)
    (Sum.elim (Entered platform content old dst_file)
      (Returns content old dst_file fs))
    program state

theorem holding_closeSource
    {fd : Int} {state : Sys × Results}
    (outcome : Outcome content old dst_file fs state) :
    Holding platform content old dst_file fs (closeSource fd) state := by
  unfold closeSource
  split
  · rintro _ rfl done after answered _ rfl _
    rcases answers_kernel answered with ⟨⟨choice, called⟩, results⟩
    rw [Outcome, results, Sys.close_eq_some called]
    exact outcome
  · rintro _ rfl _
    exact outcome

/-- Both descriptors are closed. -/
theorem holding_out
    {fd dstfd : Int} {state : Sys × Results}
    (unmapped : 0 < dstfd → state.1.proc.h5fdmap dstfd = none)
    (outcome : Outcome content old dst_file fs state) :
    Holding platform content old dst_file fs (out fd dstfd) state := by
  unfold out
  split
  · rename_i positive
    rintro _ rfl found after answered
    rcases answers_kernel answered with ⟨⟨choice, looked⟩, results⟩
    have absent := unmapped positive
    rcases after with ⟨sys, noted⟩
    simp only [kernel, absent] at looked
    cases looked
    subst results
    rintro _ rfl done closed answered'
    rcases answers_kernel answered' with ⟨⟨choice', called⟩, results'⟩
    have outcome' : Outcome content old dst_file fs closed := by
      rw [Outcome, results', Sys.close_eq_some called]
      exact outcome
    cases done with
    | ok done => exact holding_closeSource outcome'
    | error errno => exact holding_closeSource outcome'
  · exact holding_closeSource outcome

theorem outcome_of_copying
    {results : Results} (opened : results.opened = true)
    (copying :
      Copying platform content old dst_file transfer src dst results.reads
        results.writes sys) :
    Outcome content old dst_file fs (sys, results) := by
  rw [Outcome, if_pos opened]
  exact copying.plain

/-- The counter of written bytes is in the database. -/
theorem holding_countWritten
    {ret : Int} {rest : Int → PutCall} {results : Results}
    (counted :
      ∀ db,
        Holding platform content old dst_file fs (rest ret)
          (⟨sys.fs, db, sys.proc⟩, results)) :
    Holding platform content old dst_file fs (countWritten ret >>= rest)
      (sys, results) := by
  unfold countWritten
  split
  · rintro _ rfl done ⟨later, noted⟩ answered
    rcases answers_kernel answered with ⟨⟨choice, called⟩, same⟩
    change noted = results at same
    subst same
    rcases kernel_sqlite3_exec called with ⟨db, unchanged⟩
    change later = _ at unchanged
    subst unchanged
    exact counted db
  · exact counted sys.db

/-- The body of the copy loop. -/
theorem holding_copy
    {state : Sys × Results}
    (entered : Entered platform content old dst_file (.copy transfer) state) :
    Holding platform content old dst_file fs (copy transfer) state := by
  rcases state with ⟨sys, results⟩
  rcases entered with ⟨opened, paired, src, dst, copying⟩
  rintro _ rfl data ⟨later, noted⟩ answered
  rcases answers_kernel answered with ⟨⟨choice, called⟩, same⟩
  change noted = _ at same
  subst same
  cases data with
  | error errno =>
      have unchanged := Sys.read_eq_error called
      change later = sys at unchanged
      subst unchanged
      exact
        holding_out (fun _ => copying.unmapped)
          (outcome_of_copying opened copying)
  | ok data =>
      rcases copying.read paired called with ⟨reads, piece⟩
      cases data with
      | nil =>
          exact
            holding_out (fun _ => reads.unmapped)
              (outcome_of_copying opened reads)
      | cons byte rest =>
          rintro _ rfl
          exact
            ⟨opened, results.reads, rfl, paired, piece, src, dst, reads⟩

/-- The body from the write on. -/
theorem holding_writeChunk
    {buf : Bytes} {state : Sys × Results}
    (entered :
      Entered platform content old dst_file (.lockw transfer buf) state) :
    Holding platform content old dst_file fs (writeChunk transfer buf)
      state := by
  rcases state with ⟨sys, results⟩
  rcases entered with ⟨opened, before, reads, paired, piece, src, dst, copying⟩
  rintro _ rfl result ⟨later, noted⟩ answered
  rcases answers_kernel answered with ⟨⟨choice, called⟩, same⟩
  change noted = _ at same
  subst same
  apply holding_countWritten
  intro db
  cases result with
  | error errno =>
      have unchanged : later = sys := by
        rcases Sys.write_eq_some called with
          ⟨_, _, unchanged⟩ | ⟨_, _, _, written, _⟩
        · exact unchanged
        · cases written
      subst unchanged
      have recorded := copying.recorded db
      exact
        holding_out (fun _ => recorded.unmapped)
          (outcome_of_copying opened recorded)
  | ok written =>
      have valid : ¬ (written : Int) < 0 := by omega
      show
        Holding platform content old dst_file fs
          (if (written : Int) < 0 then out transfer.fd transfer.dstfd
          else _) _
      rw [if_neg valid]
      rw [reads] at copying
      have writes := (copying.write paired piece called).recorded db
      rw [← reads] at writes
      have paired' :
          results.reads.length = (results.writes ++ [written]).length := by
        simp [reads, paired]
      rintro _ rfl
      refine ⟨opened, paired', src, dst, ?_⟩
      exact writes.transferred _

/-- The body of the loop of `dzfile_lockw`. -/
theorem holding_lockw
    {buf : Bytes} {state : Sys × Results}
    (entered :
      Entered platform content old dst_file (.lockw transfer buf) state) :
    Holding platform content old dst_file fs (lockw transfer buf) state := by
  rcases state with ⟨sys, results⟩
  rcases entered with ⟨opened, before, reads, paired, piece, src, dst, copying⟩
  have leaves :
      Holding platform content old dst_file fs
        (out transfer.fd transfer.dstfd) (sys, results) :=
    holding_out (fun _ => copying.unmapped)
      (outcome_of_copying opened copying)
  rintro _ rfl tested ⟨later, noted⟩ answered
  rcases answers_kernel answered with ⟨⟨choice, called⟩, same⟩
  change noted = results at same
  subst same
  have unchanged : later = sys := by
    cases choice <;>
      cases called <;>
      rfl
  subst unchanged
  cases tested with
  | error errno => exact leaves
  | ok free =>
      cases free with
      | false =>
          rintro _ rfl
          exact ⟨opened, before, reads, paired, piece, src, dst, copying⟩
      | true =>
          rintro _ rfl locked ⟨last, noted'⟩ answered'
          rcases answers_kernel answered' with ⟨⟨choice', called'⟩, same'⟩
          change noted' = noted at same'
          subst same'
          have unchanged' : last = later := by
            cases choice' <;>
              cases called' <;>
              rfl
          subst unchanged'
          cases locked with
          | error errno => exact leaves
          | ok done =>
              apply holding_writeChunk
              exact ⟨opened, before, reads, paired, piece, src, dst, copying⟩

theorem holding_body
    {loop : Loop} {state : Sys × Results}
    (entered : Entered platform content old dst_file loop state) :
    Holding platform content old dst_file fs (body loop) state := by
  cases loop with
  | copy transfer => exact holding_copy entered
  | lockw transfer buf => exact holding_lockw entered

end Steps

/-! ## Opening -/

/-- What the destination holds before; nothing if it does not exist. -/
def Prior (fs : FileSystem) (path : CString) (old : Bytes) : Prop :=
  (fs.entry path = none ∧ old = []) ∨
    ∃ ino, fs.entry path = some ino ∧ fs.node ino = .file old

/-- The source is open, and nothing has been done to the destination. -/
structure Ready
    (content old : Bytes) (dst_file : CString) (fs : FileSystem) (fd : Int)
    (src : Ino) (sys : Sys) : Prop where
  unchanged : sys.fs = fs
  source : sys.proc.fds fd = some ⟨src, 0, O_RDONLY⟩
  named : src ≠ fs.fresh
  node : fs.node src = .file content
  prior : Prior fs dst_file old
  consistent : Consistent sys.proc

/-- The value `dzfile_open` returns, and what is there then. -/
def Obtained
    (platform : Platform) (content old : Bytes) (dst_file : CString)
    (fs : FileSystem) (fd dstfd : Int) (state : Sys × Results) : Prop :=
  (dstfd < 0 ∧ Outcome content old dst_file fs state) ∨
    (0 ≤ dstfd ∧
      Entered platform content old dst_file (.copy ⟨fd, dstfd, 0⟩) state)

section Opening

variable
    {platform : Platform} {content old : Bytes} {dst_file h5name : CString}
    {fs : FileSystem} {fd : Int} {src : Ino} {sys : Sys}

/-- The flags of the destination. -/
theorem flags_destination :
    accessMode (O_WRONLY + O_CREAT) ≠ O_RDONLY ∧
      hasTrunc (O_WRONLY + O_CREAT) = false ∧
        O_WRONLY + O_CREAT ≠ O_RDONLY := by
  decide

theorem Ready.recorded
    (ready : Ready content old dst_file fs fd src sys) (db : Metadata.Db) :
    Ready content old dst_file fs fd src ⟨sys.fs, db, sys.proc⟩ :=
  { ready with }

/-- Nothing has been opened, so nothing has changed. -/
theorem Ready.refused
    (ready : Ready content old dst_file fs fd src sys) {dstfd : Int}
    (negative : dstfd < 0) :
    Obtained platform content old dst_file fs fd dstfd
      (sys, ⟨false, [], []⟩) :=
  Or.inl ⟨negative, ready.unchanged⟩

/-- The destination is created or opened, and holds what it held. -/
theorem Ready.copying
    (ready : Ready content old dst_file fs fd src sys)
    (admitted : Admits dst_file)
    (built : buildHiddenFile dst_file = some h5name)
    (absent : fs.entry h5name = none)
    {choice : Choice} {dstfd : Int} {later : Sys}
    (called :
      sys.openFile choice dst_file (O_WRONLY + O_CREAT) =
        some (.ok dstfd, later)) :
    0 ≤ dstfd ∧
      ∃ dst,
        Copying platform content old dst_file ⟨fd, dstfd, 0⟩ src dst [] []
          later := by
  rcases Sys.openFile_eq_some called with
    ⟨number, dst, fs', rfl, free, rfl, opens⟩
  have different : (number : Int) ≠ fd := by
    rintro rfl
    rw [ready.source] at free
    cases free
  have unmapped := ready.consistent _ free
  have unchanged := ready.unchanged
  subst unchanged
  have untouched :
      ∀ fs' : FileSystem,
        fs'.node src = sys.fs.node src →
          ((fs'.node src).bytes platform).drop 0 = content.drop 0 := by
    intro fs' same
    rw [same, ready.node]
    rfl
  have empty : overlaid content old [] [] = old := by
    simp [overlaid, laid]
  refine ⟨by omega, dst, ?_⟩
  rcases opens with ⟨missing, _, rfl, rfl⟩ | ⟨found, rfl | ⟨truncates, _⟩⟩
  · have nothing : old = [] := by
      rcases ready.prior with ⟨_, nothing⟩ | ⟨ino, found, _⟩
      · exact nothing
      · rw [missing] at found
        cases found
    subst nothing
    constructor
    · exact admitted
    · exact Option.isSome_iff_exists.mpr ⟨h5name, built⟩
    · intro other built'
      rw [built] at built'
      cases built'
      rw [FileSystem.entry_link,
        Function.update_of_ne (buildHiddenFile_ne built)]
      exact absent
    · simp
    · rw [empty]
      simp
    · simp [Process.setFd, laid]
    · exact unmapped
    · show Function.update sys.proc.fds (number : Int) _ fd = _
      rw [Function.update_of_ne different.symm]
      exact ready.source
    · apply untouched
      rw [FileSystem.node_link, Function.update_of_ne ready.named]
    · intro same
      exact (ready.named same).elim
  · rcases ready.prior with ⟨missing, _⟩ | ⟨ino, found', holds⟩
    · rw [missing] at found
      cases found
    rw [found] at found'
    cases found'
    constructor
    · exact admitted
    · exact Option.isSome_iff_exists.mpr ⟨h5name, built⟩
    · intro other built'
      rw [built] at built'
      cases built'
      exact absent
    · exact found
    · rw [empty]
      exact holds
    · simp [Process.setFd, laid]
    · exact unmapped
    · show Function.update sys.proc.fds (number : Int) _ fd = _
      rw [Function.update_of_ne different.symm]
      exact ready.source
    · exact untouched _ rfl
    · intro same
      subst same
      have node := ready.node
      rw [holds] at node
      cases node
      rfl
  · rw [flags_destination.2.1] at truncates
    cases truncates

theorem ensures_openVisible
    (ready : Ready content old dst_file fs fd src sys)
    (admitted : Admits dst_file)
    (built : buildHiddenFile dst_file = some h5name)
    (absent : fs.entry h5name = none) :
    Ensures Eq (Answers platform)
      (Obtained platform content old dst_file fs fd)
      (openVisible dst_file (O_WRONLY + O_CREAT))
      (sys, ⟨false, [], []⟩) := by
  rintro _ rfl opened ⟨later, noted⟩ answered
  rcases answers_kernel answered with ⟨⟨choice, called⟩, same⟩
  change noted = _ at same
  subst same
  rintro _ rfl
  cases opened with
  | error errno =>
      have unchanged := Sys.openFile_eq_error called
      change later = sys at unchanged
      subst unchanged
      exact ready.refused (by simp)
  | ok dstfd =>
      rcases ready.copying admitted built absent called with
        ⟨nonneg, dst, copying⟩
      right
      refine ⟨nonneg, ?_⟩
      rw [Results.after, if_neg flags_destination.2.2]
      exact ⟨rfl, rfl, src, dst, copying⟩

theorem ensures_openPlain
    (ready : Ready content old dst_file fs fd src sys)
    (admitted : Admits dst_file)
    (built : buildHiddenFile dst_file = some h5name)
    (absent : fs.entry h5name = none) :
    Ensures Eq (Answers platform)
      (Obtained platform content old dst_file fs fd)
      (openPlain dst_file (O_WRONLY + O_CREAT))
      (sys, ⟨false, [], []⟩) := by
  have opens :=
    @ensures_openVisible platform content old dst_file h5name fs fd src sys
      ready admitted built absent
  rintro _ rfl found ⟨later, noted⟩ answered
  rcases answers_kernel answered with ⟨⟨choice, called⟩, same⟩
  change noted = _ at same
  subst same
  rcases stat_reply called with ⟨unchanged, _, _⟩
  change later = sys at unchanged
  subst unchanged
  have inserts :
      Ensures Eq (Answers platform)
        (Obtained platform content old dst_file fs fd)
        (fmt_entry_insert dst_file >>= fun _ =>
          openVisible dst_file (O_WRONLY + O_CREAT))
        (later, ⟨false, [], []⟩) := by
    rintro _ rfl done ⟨sys', noted'⟩ answered'
    rcases answers_kernel answered' with ⟨⟨choice', called'⟩, same'⟩
    change noted' = _ at same'
    subst same'
    rcases kernel_sqlite3_exec called' with ⟨db, recorded⟩
    change sys' = _ at recorded
    subst recorded
    cases done with
    | false =>
        exact
          ensures_openVisible (ready.recorded db) admitted built absent
    | true =>
        rintro _ rfl counted ⟨sys'', noted''⟩ answered''
        rcases answers_kernel answered'' with ⟨⟨choice'', called''⟩, same''⟩
        change noted'' = _ at same''
        subst same''
        rcases kernel_sqlite3_exec called'' with ⟨db', recorded'⟩
        change sys'' = _ at recorded'
        subst recorded'
        exact
          ensures_openVisible (ready.recorded db') admitted built absent
  cases found with
  | ok stbuf => exact opens
  | error errno => cases errno <;> first
      | exact inserts
      | exact opens

/-- The condition of the first stretch. -/
theorem ensures_dzfile_open
    (ready : Ready content old dst_file fs fd src sys) :
    Ensures Eq (Answers platform)
      (Obtained platform content old dst_file fs fd)
      (dzfile_open dst_file (O_WRONLY + O_CREAT))
      (sys, ⟨false, [], []⟩) := by
  have refused :
      ∀ dstfd : Int, dstfd < 0 →
        Ensures Eq (Answers platform)
          (Obtained platform content old dst_file fs fd) (.ret dstfd)
          (sys, ⟨false, [], []⟩) := by
    rintro dstfd negative _ rfl
    exact ready.refused negative
  unfold dzfile_open
  split
  · exact refused (-1) (by decide)
  · rename_i notSystem
    split
    · trivial
    · rename_i bname slash
      split
      · exact refused (-1) (by decide)
      · rename_i legal
        have admitted : Admits dst_file :=
          ⟨Bool.eq_false_of_not_eq_true notSystem, bname, slash,
            Bool.eq_false_of_not_eq_true legal⟩
        refine Ensures.bind (fun _ => rfl) ?_
        unfold findhiddenFile
        split
        · rintro _ rfl
          exact refused (-1) (by decide)
        · rename_i h5name built
          rintro _ rfl found ⟨later, noted⟩ answered
          rcases answers_kernel answered with ⟨⟨choice, called⟩, same⟩
          change noted = _ at same
          subst same
          rcases stat_reply called with ⟨unchanged, missing, _⟩
          change later = sys at unchanged
          subst unchanged
          cases found with
          | ok stbuf =>
              rintro _ rfl
              cases stbuf.isDir with
              | true => exact refused (-1) (by decide)
              | false => exact refused (-1) (by decide)
          | error errno =>
              by_cases absent : errno = .ENOENT
              · subst absent
                rintro _ rfl
                have entry := missing rfl
                change later.fs.entry h5name = none at entry
                rw [ready.unchanged] at entry
                exact ensures_openPlain ready admitted built entry
              · cases errno <;> first
                  | exact (absent rfl).elim
                  | (rintro _ rfl
                     exact refused (-1) (by decide))

/-- The condition of the whole put. -/
theorem holding_dzfile_put
    {src_file : CString}
    (source : sys.fs.entry src_file = some src)
    (node : sys.fs.node src = .file content)
    (prior : Prior sys.fs dst_file old)
    (consistent : Consistent sys.proc) :
    Holding platform content old dst_file sys.fs
      (dzfile_put src_file dst_file) (sys, ⟨false, [], []⟩) := by
  have failed :
      ∀ state,
        Holding platform content old dst_file sys.fs (.ret (.inr (-1)))
          state := by
    rintro state _ rfl zero
    cases zero
  rintro _ rfl opened ⟨first, noted⟩ answered
  rcases answers_kernel answered with ⟨⟨choice, called⟩, same⟩
  cases opened with
  | error errno => exact failed _
  | ok fd =>
      rcases Sys.openFile_eq_ok (by decide) (by decide) called with
        ⟨number, ino, rfl, free, found, opens⟩
      change noted = ⟨false, [], []⟩ at same
      change first = _ at opens
      change sys.fs.entry src_file = some ino at found
      subst same
      subst opens
      rw [source] at found
      cases found
      have ready :
          Ready content old dst_file sys.fs number src
            { sys with
              proc := sys.proc.setFd number (some ⟨src, 0, O_RDONLY⟩) } := by
        constructor
        · rfl
        · simp [Process.setFd]
        · exact FileSystem.entry_ne_fresh source
        · exact node
        · exact prior
        · intro other closed
          apply consistent other
          by_cases same : other = number
          · subst same
            exact free
          · simpa [Process.setFd, Function.update_of_ne same] using closed
      show
        Holding platform content old dst_file sys.fs
          (if (number : Int) ≤ 0 then .ret (.inr (-1)) else _) _
      split
      · exact failed _
      · rintro _ rfl ret ⟨second, noted⟩ answered'
        rcases answers_kernel answered' with ⟨⟨choice', called'⟩, same'⟩
        change noted = _ at same'
        subst same'
        have unchanged :
            second =
              { sys with
                proc :=
                  sys.proc.setFd number (some ⟨src, 0, O_RDONLY⟩) } := by
          cases choice' <;>
            cases called' <;>
            rfl
        subst unchanged
        show
          Holding platform content old dst_file sys.fs
            (if ret < 0 then .ret (.inr (-1)) else _) _
        split
        · exact failed _
        · refine Ensures.bind (fun _ => rfl) ?_
          refine (ensures_dzfile_open ready).mono ?_
          intro dstfd state obtained
          rcases obtained with ⟨negative, outcome⟩ | ⟨nonneg, entered⟩
          · rw [if_pos negative]
            exact
              holding_out (fun positive => by omega) outcome
          · rw [if_neg (by omega)]
            rintro _ rfl
            exact entered

end Opening

/-! ## The content afterwards -/

/--
The writes took a prefix of the content, and beyond it the destination held
the rest already.
-/
def Delivers (content old : Bytes) (results : Results) : Prop :=
  laid content results.reads results.writes <+: content ∧
    old.drop (laid content results.reads results.writes).length =
      content.drop (laid content results.reads results.writes).length

theorem overlaid_eq_iff_delivers
    {content old : Bytes} {results : Results} :
    overlaid content old results.reads results.writes = content ↔
      Delivers content old results := by
  constructor
  · intro same
    constructor
    · exact ⟨_, same⟩
    · have dropped :=
        congrArg
          (List.drop (laid content results.reads results.writes).length) same
      rwa [overlaid, List.drop_left] at dropped
  · rintro ⟨⟨rest, appended⟩, agrees⟩
    have dropped :=
      congrArg
        (List.drop (laid content results.reads results.writes).length)
        appended
    rw [List.drop_left] at dropped
    rw [overlaid, agrees, ← dropped]
    exact appended

/-- Chunks that were written in full are the content up to their end. -/
theorem laid_full (content : Bytes) (reads : List Nat) :
    laid content reads reads = content.take reads.sum := by
  induction reads generalizing content with
  | nil => simp [laid]
  | cons read reads induction =>
      rw [laid, induction, Nat.min_self, List.sum_cons, List.take_add]

/--
A put whose writes took every chunk in full, up to the end of the source,
delivers the content to a destination that was no longer.
-/
theorem delivers_of_full
    {content old : Bytes} {results : Results}
    (full : results.writes = results.reads)
    (ended : content.length ≤ results.reads.sum)
    (shorter : old.length ≤ content.length) :
    Delivers content old results := by
  have whole : laid content results.reads results.writes = content := by
    rw [full, laid_full]
    exact List.take_of_length_le ended
  constructor
  · refine ⟨[], ?_⟩
    rw [List.append_nil]
    exact whole
  · rw [whole, List.drop_eq_nil_of_le shorter, List.drop_length]

section Runs

variable
    {platform : Platform} {content old : Bytes} {src_file dst_file : CString}
    {sys : Sys} {choices : List Choice}
    {final : (Sys × Results) × PutCall}

/-- Every run keeps the condition of its program. -/
theorem outcome_of_run
    (source : sys.fs.lookup src_file = some (.file content))
    (prior : Prior sys.fs dst_file old)
    (consistent : Consistent sys.proc)
    (ran :
      run (step platform) (start sys src_file dst_file) choices =
        some final)
    (succeeded : final.2 = .ret (.inr 0)) :
    Outcome content old dst_file sys.fs final.1 := by
  rcases Option.map_eq_some_iff.mp source with ⟨src, named, node⟩
  have holding :
      Holding platform content old dst_file sys.fs final.2 final.1 := by
    apply
      run_invariant
        (fun state : (Sys × Results) × PutCall =>
          Holding platform content old dst_file sys.fs state.2 state.1)
        ?_ ?_ ran
    · rintro ⟨state, program⟩ choice ⟨next, rest⟩ holding stepped
      rcases advance_eq_some.mp stepped with
        ⟨op, continuation, reply, action, called, rfl⟩
      exact
        Ensures.block (fun _ => rfl)
          (fun _ _ entered => holding_body entered) action holding
          ⟨choice, called⟩
    · exact holding_dzfile_put named node prior consistent
  rw [succeeded] at holding
  exact holding.returned (fun _ => rfl) rfl

/--
A put that returned 0 has left the content exactly if it obtained a descriptor
of the destination and delivered the content, or obtained none and the
destination read back as the content before.
-/
theorem content_after_put_iff
    (source : sys.fs.lookup src_file = some (.file content))
    (prior : Prior sys.fs dst_file old)
    (consistent : Consistent sys.proc)
    (ran :
      run (step platform) (start sys src_file dst_file) choices =
        some final)
    (succeeded : final.2 = .ret (.inr 0)) :
    LogicalContent platform final.1.1.fs dst_file content ↔
      if final.1.2.opened then Delivers content old final.1.2
      else LogicalContent platform sys.fs dst_file content := by
  have outcome := outcome_of_run source prior consistent ran succeeded
  cases opened : final.1.2.opened with
  | true =>
      rw [Outcome, if_pos opened] at outcome
      rw [if_pos rfl, ← overlaid_eq_iff_delivers]
      exact logicalContent_iff_of_plain outcome
  | false =>
      rw [Outcome, if_neg (by simp [opened])] at outcome
      rw [if_neg (by simp), outcome]

end Runs

/-- `/s` holds two bytes, and `/d` does not exist. -/
def storeS : Sys :=
  { Sys.initial with
    fs := Sys.initial.fs.link ['/', 's'] (.file [7, 8]) }

/-- `/s` is put to `/d`; the only write takes so many bytes. -/
def putsS (written : Nat) : List Choice :=
  [.ok 3, .ok 0, .ok 0, .ok 0, .ok 0, .ok 0, .ok 4, .ok 2, .ok 1, .ok 0,
    .ok written, .ok 0, .ok 2, .ok 0, .ok 0, .ok 0]

theorem content_after_put_iff_putsS :
    ∃ final,
      run (step storingPlatform) (start storeS ['/', 's'] ['/', 'd'])
            (putsS 2) =
          some final ∧
        (LogicalContent storingPlatform final.1.1.fs ['/', 'd'] [7, 8] ↔
          if final.1.2.opened then Delivers [7, 8] [] final.1.2
          else
            LogicalContent storingPlatform storeS.fs ['/', 'd'] [7, 8]) := by
  have runs :
      ∃ final,
        run (step storingPlatform) (start storeS ['/', 's'] ['/', 'd'])
              (putsS 2) =
            some final ∧
          final.2 = .ret (.inr 0) :=
    ⟨_, rfl, rfl⟩
  rcases runs with ⟨final, ran, succeeded⟩
  have prior : Prior storeS.fs ['/', 'd'] [] := Or.inl ⟨rfl, rfl⟩
  exact
    ⟨final, ran,
      content_after_put_iff rfl prior (fun _ _ => rfl) ran succeeded⟩

/-- After a short write the put goes on with the next chunk and returns 0. -/
theorem short_write_loses_content :
    ¬ ∀ (platform : Platform) (content old : Bytes)
        (src_file dst_file : CString) (sys : Sys) (choices : List Choice)
        (final : (Sys × Results) × PutCall),
        sys.fs.lookup src_file = some (.file content) →
          Prior sys.fs dst_file old →
            Consistent sys.proc →
              run (step platform) (start sys src_file dst_file) choices =
                  some final →
                final.2 = .ret (.inr 0) →
                  LogicalContent platform final.1.1.fs dst_file content := by
  intro claimed
  have runs :
      ∃ final,
        run (step storingPlatform) (start storeS ['/', 's'] ['/', 'd'])
              (putsS 1) =
            some final ∧
          final.2 = .ret (.inr 0) ∧
            final.1.1.fs.entry ['/', 'd'] = some 1 ∧
              final.1.1.fs.node 1 = .file [7] ∧
                final.1.1.fs.entry ['/', '.', 'd', '.', 'D', 'Z', 'F'] =
                  none :=
    ⟨_, rfl, rfl, rfl, rfl, rfl⟩
  rcases runs with ⟨final, ran, succeeded, named, node, absent⟩
  have built :
      buildHiddenFile ['/', 'd'] = some ['/', '.', 'd', '.', 'D', 'Z', 'F'] :=
    rfl
  have plain : Plain final.1.1.fs ['/', 'd'] [7] := by
    constructor
    · exact ⟨rfl, _, rfl, rfl⟩
    · rfl
    · intro h5name built'
      rw [built] at built'
      cases built'
      exact absent
    · exact ⟨1, named, node⟩
  have prior : Prior storeS.fs ['/', 'd'] [] := Or.inl ⟨rfl, rfl⟩
  have logical :=
    claimed storingPlatform [7, 8] [] ['/', 's'] ['/', 'd'] storeS _ final rfl
      prior (fun _ _ => rfl) ran succeeded
  have same := (logicalContent_iff_of_plain plain).mp logical
  cases same

end DZFile.PutContent
