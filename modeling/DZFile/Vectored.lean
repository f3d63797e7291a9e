import DZFile.Opening
import DZFile.Library.Scatter

/-!
# Vectored transfers

`dzfile_preadv`, `dzfile_readv`, `dzfile_pwritev` and `dzfile_writev` call
their scalar counterparts for one buffer after the other and stop behind the
first call that transfers nothing.  That is the end of the file or a buffer of
length zero, and the loops do not look which.  So a vectored call does what
the scalar call does on all the buffers together exactly if the transfer is
complete before the first buffer of length zero.

The calls of both are taken to be served in full: a read is short only at the
end of the file, and no call fails.
-/

namespace DZFile.Vectored

open DZFile.ByteSeq
open DZFile.Scatter
open DZFile.Interaction
open DZFile.Codec
open DZFile.Image
open DZFile.Kernel
open DZFile.Api
open DZFile.Opening

/-! ## The calls of a loop -/

/--
Every scalar call that a loop over the buffers makes is good.  The loop goes on
behind a call that has moved it forward.
-/
def EachCall
    {ε ρ : Type} (platform : Platform) (scalar : ε → Int → Call ρ)
    (moved : ρ → Int) (good : Sys → ε → Int → ρ → Prop) :
    Sys → List Choice → List ε → Int → Prop
  | _, _, [], _ => True
  | sys, choices, buffer :: iov, offset =>
      ∀ before after result later, choices = before ++ after →
        (scalar buffer offset).run (kernel platform) sys before =
            some (result, later) →
          good sys buffer offset result ∧
            (0 < moved result →
              EachCall platform scalar moved good later after iov
                (offset + moved result))

/-- How far a positional read gets. -/
def movedBy : PreadResult → Int
  | .returned ret _ => ret
  | _ => 0

@[simp]
theorem movedBy_returned (ret : Int) (data : Bytes) :
    movedBy (.returned ret data) = ret :=
  rfl

/-- What a file holds from an offset on. -/
def remaining (body : Bytes) (offset : Int) : Bytes :=
  if offset < 0 then [] else body.drop offset.toNat

/-- What a descriptor has still to read. -/
def unread (platform : Platform) (sys : Sys) (fd : Int) : Bytes :=
  match sys.proc.fds fd with
  | none => []
  | some file =>
      ((sys.fs.node file.ino).bytes platform).drop file.offset

/-- The read gets all it asks for, or all there is. -/
def Served (rest : Bytes) (length : Nat) (ret : Int) (data : Bytes) : Prop :=
  data = rest.take length ∧ ret = data.length

/-- `Served`, of a positional read that returns. -/
def ServedPread (rest : Bytes) (length : Nat) (result : PreadResult) : Prop :=
  ∃ ret data, result = .returned ret data ∧ Served rest length ret data

/-- Every call that `dzfile_readv` makes gets what there is. -/
def ServedReads (platform : Platform) (fd : Int) :
    Sys → List Choice → List Nat → Int → Prop :=
  EachCall platform (fun length _ => dzfile_read fd length) Prod.fst
    fun sys length _ result =>
      Served (unread platform sys fd) length result.1 result.2

/-- The write takes all it is given. -/
def Taken (buf : Bytes) (ret : Int) : Prop :=
  ret = buf.length

/-- The test of the loops behind a call that has moved something. -/
theorem test_of_pos
    {α : Type} {moved : Nat} (positive : 0 < moved)
    (failed ended further : α) :
    (if (moved : Int) < 0 then failed
      else if (moved : Int) = 0 then ended
      else further) = further := by
  rw [if_neg (by omega), if_neg (by omega)]

/-! ## What is compared -/

/-- What a transfer returns, what its buffers hold, and the files behind it. -/
structure Outcome where
  ret : Option Int
  buffers : List Bytes
  fs : FileSystem

/-- The outcome of a vectored positional read. -/
def ofPreadv (result : PreadvResult) (fs : FileSystem) : Outcome :=
  match result with
  | .returned ret pieces => ⟨some ret, pieces, fs⟩
  | _ => ⟨none, [], fs⟩

/-- The outcome of a positional read. -/
def ofPread (result : PreadResult) (fs : FileSystem) : Outcome :=
  match result with
  | .returned ret data => ⟨some ret, [data], fs⟩
  | _ => ⟨none, [], fs⟩

/-- The same names, and the same bytes behind them. -/
def SameFiles (platform : Platform) (fs fs' : FileSystem) : Prop :=
  fs.entry = fs'.entry ∧
    ∀ ino, (fs.node ino).bytes platform = (fs'.node ino).bytes platform

/--
The vectored transfer returns what the scalar one does, its buffers hold the
bytes of the scalar one in order, and it leaves the same files.
-/
def Same
    (platform : Platform) (lengths : List Nat) (vectored scalar : Outcome) :
    Prop :=
  (∃ ret, vectored.ret = some ret ∧ scalar.ret = some ret) ∧
    (∀ index : Nat,
      vectored.buffers[index]?.getD [] =
        (parts lengths scalar.buffers.flatten)[index]?.getD []) ∧
      SameFiles platform vectored.fs scalar.fs

/--
A vectored transfer and the scalar one on all its buffers together, from one
state on, with all their calls served in full.  The indices are the lengths of
the buffers, the number of bytes that is due and the two outcomes.
-/
inductive Runs (platform : Platform) (sys : Sys) (fd : Int) :
    List Nat → Nat → Outcome → Outcome → Prop where
  | preadv
      (libs : Libs) (dstlen : Int → Int) (dstlen' : Int) (body : Bytes)
      (iov : List Nat) (offset : Int)
      {choices choices' : List Choice} {vectored : PreadvResult}
      {scalar : PreadResult} {later later' : Sys}
      (ran :
        (dzfile_preadv libs dstlen fd iov offset).run (kernel platform) sys
            choices =
          some (vectored, later))
      (served :
        EachCall platform
          (fun length offset =>
            dzfile_pread libs (dstlen offset) fd length offset)
          movedBy
          (fun _ length offset result =>
            ServedPread (remaining body offset) length result)
          sys choices iov offset)
      (ran' :
        (dzfile_pread libs dstlen' fd iov.sum offset).run (kernel platform)
            sys choices' =
          some (scalar, later'))
      (served' : ServedPread (remaining body offset) iov.sum scalar) :
      Runs platform sys fd iov (min iov.sum (remaining body offset).length)
        (ofPreadv vectored later.fs) (ofPread scalar later'.fs)
  | readv
      (iov : List Nat)
      {choices choices' : List Choice} {ret ret' : Int}
      {pieces : List Bytes} {data : Bytes} {later later' : Sys}
      (ran :
        (dzfile_readv fd iov).run (kernel platform) sys choices =
          some ((ret, pieces), later))
      (served : ServedReads platform fd sys choices iov 0)
      (ran' :
        (dzfile_read fd iov.sum).run (kernel platform) sys choices' =
          some ((ret', data), later'))
      (served' : Served (unread platform sys fd) iov.sum ret' data) :
      Runs platform sys fd iov (min iov.sum (unread platform sys fd).length)
        ⟨some ret, pieces, later.fs⟩ ⟨some ret', [data], later'.fs⟩
  | pwritev
      (iov : List Bytes) (offset : Int)
      {choices choices' : List Choice} {ret ret' : Int} {later later' : Sys}
      (ran :
        (dzfile_pwritev fd iov offset).run (kernel platform) sys choices =
          some (ret, later))
      (served :
        EachCall platform (fun buf offset => dzfile_pwrite fd buf offset) id
          (fun _ buf _ ret => Taken buf ret) sys choices iov offset)
      (ran' :
        (dzfile_pwrite fd iov.flatten offset).run (kernel platform) sys
            choices' =
          some (ret', later'))
      (served' : Taken iov.flatten ret') :
      Runs platform sys fd (iov.map List.length) (iov.map List.length).sum
        ⟨some ret, [], later.fs⟩ ⟨some ret', [], later'.fs⟩
  | writev
      (iov : List Bytes)
      {choices choices' : List Choice} {ret ret' : Int} {later later' : Sys}
      (ran :
        (dzfile_writev fd iov).run (kernel platform) sys choices =
          some (ret, later))
      (served :
        EachCall platform (fun buf _ => dzfile_write fd buf) id
          (fun _ buf _ ret => Taken buf ret) sys choices iov 0)
      (ran' :
        (dzfile_write fd iov.flatten).run (kernel platform) sys choices' =
          some (ret', later'))
      (served' : Taken iov.flatten ret') :
      Runs platform sys fd (iov.map List.length) (iov.map List.length).sum
        ⟨some ret, [], later.fs⟩ ⟨some ret', [], later'.fs⟩

/-! ## Reading -/

section Reading

variable {platform : Platform} {sys later : Sys}

/-- Behind the bytes that were read there are the others. -/
theorem remaining_add
    {body : Bytes} {offset : Int} {length : Nat}
    (nonempty : (remaining body offset).take length ≠ []) :
    remaining body
        (offset + (((remaining body offset).take length).length : Nat)) =
      (remaining body offset).drop length := by
  have positive : ¬ offset < 0 := by
    intro negative
    simp [remaining, negative] at nonempty
  have forward :
      ¬ offset + (((remaining body offset).take length).length : Nat) <
        0 := by
    omega
  have start :
      (offset + (((remaining body offset).take length).length : Nat)).toNat =
        offset.toNat + ((remaining body offset).take length).length := by
    omega
  rw [remaining, if_neg forward, start, ← List.drop_drop,
    ← drop_length_take (remaining body offset) length]
  simp only [remaining, if_neg positive]

/-- The reads look at the files and change none of them. -/
def reads : Op → Prop
  | .read _ _ => True
  | .pread _ _ _ => True
  | .h5image _ => True
  | .find_dzfd _ => True
  | _ => False

theorem fs_of_reads
    {choice : Choice} {op : Op} {reply : Reply op} (quiet : reads op)
    (called : kernel platform sys choice op = some (reply, later)) :
    later.fs = sys.fs := by
  cases op with
  | read fd count =>
      simp only [kernel, Sys.read, Sys.refuse] at called
      repeat' split at called
      all_goals first
        | (cases called; rfl)
        | (rcases Option.map_eq_some_iff.mp called with ⟨_, _, answer⟩
           cases answer
           rfl)
  | pread fd count offset =>
      simp only [kernel, Sys.pread, Sys.refuse] at called
      repeat' split at called
      all_goals first
        | (cases called; rfl)
        | (rcases Option.map_eq_some_iff.mp called with ⟨_, _, answer⟩
           cases answer
           rfl)
  | h5image h5fd =>
      cases called
      rfl
  | find_dzfd fd =>
      cases called
      rfl
  | _ => exact quiet.elim

theorem reads_dzfile_pread
    (libs : Libs) (dstlen : Int) (fd : Int) (count : Nat) (offset : Int) :
    (dzfile_pread libs dstlen fd count offset).AllCalls reads := by
  refine ⟨trivial, fun found => ?_⟩
  cases found with
  | none => exact ⟨trivial, fun _ => trivial⟩
  | some dzfd =>
      show (if dzfd.h5fd ≤ 0 then _ else _ : Call PreadResult).AllCalls _
      split
      · trivial
      · refine ⟨trivial, fun image => ?_⟩
        cases image <;> trivial

/-- A program of such calls changes no file. -/
theorem fs_of_run
    {ρ : Type} {program : Call ρ} {choices : List Choice} {result : ρ}
    (quiet : program.AllCalls reads)
    (ran : program.run (kernel platform) sys choices = some (result, later)) :
    later.fs = sys.fs :=
  quiet.run_invariant (fun later => later.fs = sys.fs)
    (fun _ _ _ _ _ quiet same called => (fs_of_reads quiet called).trans same)
    rfl ran

/-- The loop of `dzfile_preadv` gets as far as an empty piece. -/
theorem run_preadvLoop
    {scalar : Nat → Int → Call PreadResult} {body : Bytes}
    (quiet : ∀ length offset, (scalar length offset).AllCalls reads)
    {iov : List Nat} {choices : List Choice} {count offset : Int}
    {pieces : List Bytes} {result : PreadvResult}
    (served :
      EachCall platform scalar movedBy
        (fun _ length offset result =>
          ServedPread (remaining body offset) length result)
        sys choices iov offset)
    (ran :
      (preadvLoop scalar iov count offset pieces).run (kernel platform) sys
          choices =
        some (result, later)) :
    later.fs = sys.fs ∧
      result =
        .returned
          (count +
            (untilEmpty (parts iov (remaining body offset))).flatten.length)
          (pieces ++ untilEmpty (parts iov (remaining body offset))) := by
  induction iov generalizing sys choices count offset pieces with
  | nil =>
      rcases Prog.run_ret_eq_some.mp ran with ⟨_, rfl, rfl⟩
      refine ⟨rfl, ?_⟩
      simp [parts]
  | cons length iov induction =>
      rcases Prog.run_bind_eq_some.mp ran with
        ⟨before, after, answer, middle, rfl, scalarRan, restRan⟩
      rcases served before after answer middle rfl scalarRan with
        ⟨⟨ret, data, rfl, rfl, rfl⟩, goesOn⟩
      have unchanged := fs_of_run (quiet length offset) scalarRan
      by_cases empty : (remaining body offset).take length = []
      · rw [untilEmpty_parts_stop empty]
        rw [empty] at restRan
        rcases Prog.run_ret_eq_some.mp restRan with ⟨_, rfl, rfl⟩
        refine ⟨unchanged, ?_⟩
        simp
      · have positive := List.length_pos_of_ne_nil empty
        simp only [test_of_pos positive] at restRan
        have reached :=
          induction (goesOn (Int.natCast_pos.mpr positive)) restRan
        rw [movedBy_returned, remaining_add empty] at reached
        refine ⟨reached.1.trans unchanged, ?_⟩
        rw [reached.2, untilEmpty_parts_cons empty, List.append_assoc,
          List.singleton_append, List.flatten_cons, List.length_append,
          Nat.cast_add, Int.add_assoc]

/-- A read moves the descriptor behind what it gets. -/
theorem unread_of_run_dzfile_read
    {fd : Int} {length : Nat} {choices : List Choice} {ret : Int}
    {data : Bytes}
    (ran :
      (dzfile_read fd length).run (kernel platform) sys choices =
        some ((ret, data), later))
    (served : Served (unread platform sys fd) length ret data)
    (nonempty : data ≠ []) :
    unread platform later fd = (unread platform sys fd).drop length := by
  rcases Prog.run_call_eq_some.mp ran with
    ⟨choice, rest, result, middle, rfl, called, returned⟩
  rcases Prog.run_ret_eq_some.mp returned with ⟨_, same, rfl⟩
  cases result with
  | error errno =>
      cases same
      exact (nonempty rfl).elim
  | ok got =>
      cases same
      cases held : sys.proc.fds fd with
      | none =>
          simp [Served, unread, held] at served
          exact (nonempty served).elim
      | some file =>
          have read :
              unread platform middle fd =
                ((sys.fs.node file.ino).bytes platform).drop
                  (file.offset + data.length) := by
            cases choice with
            | fail errno => cases called
            | ok limit =>
                simp only [kernel, Sys.read, held, Sys.refuse] at called
                repeat' split at called
                all_goals first
                  | cases called
                  | (rcases Option.map_eq_some_iff.mp called with
                      ⟨_, _, answer⟩
                     cases answer
                     simp [unread, Process.setFd])
          rw [read, ← List.drop_drop]
          have whole :
              unread platform sys fd =
                ((sys.fs.node file.ino).bytes platform).drop file.offset := by
            simp only [unread, held]
          rw [← whole, served.1, drop_length_take]

/-- The loop of `dzfile_readv` gets as far as an empty piece. -/
theorem run_readvLoop
    {fd : Int} {iov : List Nat} {choices : List Choice}
    {count offset ret : Int} {pieces pieces' : List Bytes}
    (served : ServedReads platform fd sys choices iov offset)
    (ran :
      (readvLoop fd iov count pieces).run (kernel platform) sys choices =
        some ((ret, pieces'), later)) :
    later.fs = sys.fs ∧
      ret =
          count +
            (untilEmpty (parts iov (unread platform sys fd))).flatten.length ∧
        pieces' =
          pieces ++ untilEmpty (parts iov (unread platform sys fd)) := by
  induction iov generalizing sys choices count offset pieces with
  | nil =>
      rcases Prog.run_ret_eq_some.mp ran with ⟨_, same, rfl⟩
      cases same
      refine ⟨rfl, ?_⟩
      simp [parts]
  | cons length iov induction =>
      rcases Prog.run_bind_eq_some.mp ran with
        ⟨before, after, ⟨got, data⟩, middle, rfl, scalarRan, restRan⟩
      rcases served before after (got, data) middle rfl scalarRan with
        ⟨served', goesOn⟩
      have here : Served (unread platform sys fd) length got data := served'
      have reading : (dzfile_read fd length).AllCalls reads :=
        ⟨trivial, fun _ => trivial⟩
      have unchanged := fs_of_run reading scalarRan
      have moves := unread_of_run_dzfile_read scalarRan here
      rcases here with ⟨rfl, rfl⟩
      by_cases empty : (unread platform sys fd).take length = []
      · rw [untilEmpty_parts_stop empty]
        rw [empty] at restRan
        rcases Prog.run_ret_eq_some.mp restRan with ⟨_, same, rfl⟩
        cases same
        refine ⟨unchanged, ?_⟩
        simp
      · have positive := List.length_pos_of_ne_nil empty
        simp only [test_of_pos positive] at restRan
        have reached :=
          induction (goesOn (Int.natCast_pos.mpr positive)) restRan
        rw [moves empty] at reached
        refine ⟨reached.1.trans unchanged, ?_, ?_⟩
        · rw [reached.2.1, untilEmpty_parts_cons empty, List.flatten_cons,
            List.length_append, Nat.cast_add, Int.add_assoc]
        · rw [reached.2.2, untilEmpty_parts_cons empty, List.append_assoc,
            List.singleton_append]

end Reading

/-! ## Writing -/

/-- The bytes are written at the position of one file, and nothing else. -/
def Wrote
    (platform : Platform) (fs fs' : FileSystem) (ino : Ino) (position : Nat)
    (data : Bytes) : Prop :=
  fs'.entry = fs.entry ∧
    ∀ other,
      (fs'.node other).bytes platform =
        if other = ino then
          overwrite 0 ((fs.node ino).bytes platform) position data
        else (fs.node other).bytes platform

section Writing

variable
    {platform : Platform} {fs fs' fs'' : FileSystem} {ino : Ino}
    {position : Nat} {data data' : Bytes} {sys later : Sys}

theorem Wrote.nothing : Wrote platform fs fs ino position [] := by
  refine ⟨rfl, fun other => ?_⟩
  split
  · rename_i same
    rw [same, overwrite_nil]
  · rfl

/-- Two writes one behind the other are one. -/
theorem Wrote.append
    (first : Wrote platform fs fs' ino position data)
    (second : Wrote platform fs' fs'' ino (position + data.length) data') :
    Wrote platform fs fs'' ino position (data ++ data') := by
  refine ⟨second.1.trans first.1, fun other => ?_⟩
  rw [second.2 other]
  split
  · rw [first.2 ino, if_pos rfl, overwrite_append]
  · rename_i different
    rw [first.2 other, if_neg different]

/-- The same write leaves the same files. -/
theorem Wrote.sameFiles
    (left : Wrote platform fs fs' ino position data)
    (right : Wrote platform fs fs'' ino position data) :
    SameFiles platform fs' fs'' :=
  ⟨left.1.trans right.1.symm,
    fun other => (left.2 other).trans (right.2 other).symm⟩

/-- A system call that writes all it is given. -/
theorem wrote_writeAt
    {file : OpenFile} {limit : Nat} (whole : data.length ≤ limit) :
    Wrote platform sys.fs (sys.writeAt platform file position limit data)
      file.ino position data := by
  refine ⟨rfl, fun other => ?_⟩
  rw [Sys.writeAt, List.take_of_length_le whole, FileSystem.node_put]
  by_cases same : other = file.ino
  · rw [if_pos same, same, Function.update_self]
    rfl
  · rw [if_neg same, Function.update_of_ne same]

/-- Counting what was written changes the database only. -/
theorem run_countWritten
    {count ret : Int} {choices : List Choice}
    (ran :
      (countWritten count).run (kernel platform) sys choices =
        some (ret, later)) :
    ret = count ∧ ∃ db, later = { sys with db := db } := by
  unfold countWritten at ran
  split at ran
  · rcases Prog.run_call_eq_some.mp ran with
      ⟨choice, rest, done, middle, rfl, answered, returned⟩
    rcases kernel_sqlite3_exec answered with ⟨db, rfl⟩
    rcases Prog.run_ret_eq_some.mp returned with ⟨_, rfl, rfl⟩
    exact ⟨rfl, db, rfl⟩
  · rcases Prog.run_ret_eq_some.mp ran with ⟨_, rfl, rfl⟩
    exact ⟨rfl, sys.db, rfl⟩

/-- An appending write lands behind what was there, whatever it was asked. -/
theorem landing_behind
    {file file' : OpenFile} {asked_ asked' : Nat}
    (wrote :
      Wrote platform sys.fs later.fs file.ino
        (sys.landing platform file asked_) data)
    (ino : file'.ino = file.ino) (flags : file'.flags = file.flags)
    (next :
      hasAppend file.flags = false →
        asked' = sys.landing platform file asked_ + data.length) :
    later.landing platform file' asked' =
      sys.landing platform file asked_ + data.length := by
  rw [Sys.landing, flags, ino]
  split
  · rename_i appends
    rw [wrote.2 file.ino, if_pos rfl, Sys.landing, if_pos appends,
      overwrite_atEnd, List.length_append]
  · rename_i inside
    exact next (by simpa using inside)

/--
A scalar write that takes all it is given writes where it is aimed, and aims
the next one behind it.
-/
def Aimed
    (platform : Platform) (scalar : Bytes → Int → Call Int)
    (aims : Sys → Int → Ino → Nat → Prop) : Prop :=
  ∀ sys later buf offset choices ret,
    (scalar buf offset).run (kernel platform) sys choices =
        some (ret, later) →
      Taken buf ret →
        (∃ ino position, aims sys offset ino position) ∧
          ∀ ino position, aims sys offset ino position →
            Wrote platform sys.fs later.fs ino position buf ∧
              aims later (offset + buf.length) ino (position + buf.length)

/-- `pwrite` refuses a negative offset. -/
theorem nonneg_of_pwrite
    {choice : Choice} {fd offset : Int} {count : Nat}
    (called :
      sys.pwrite platform choice fd data offset = some (.ok count, later)) :
    0 ≤ offset := by
  by_contra negative
  have below : offset < 0 := by omega
  unfold Sys.pwrite Sys.refuse at called
  repeat' split at called
  all_goals cases called

theorem aimed_dzfile_pwrite (platform : Platform) (fd : Int) :
    Aimed platform (fun buf offset => dzfile_pwrite fd buf offset)
      fun sys offset ino position =>
        ∃ file, sys.proc.fds fd = some file ∧ file.ino = ino ∧
          sys.landing platform file offset.toNat = position := by
  intro sys later buf offset choices ret ran taken
  rcases Prog.run_call_eq_some.mp ran with
    ⟨choice, rest, result, middle, rfl, called, counted⟩
  rcases run_countWritten counted with ⟨rfl, db, rfl⟩
  rcases Sys.pwrite_eq_some called with
    ⟨errno, rfl, _⟩ | ⟨limit, file, rfl, held, rfl, fs, proc⟩
  · simp only [Taken, returnCount_error] at taken
    omega
  · have whole : buf.length ≤ limit := by
      simp only [Taken, returnCount_ok] at taken
      omega
    have positive := nonneg_of_pwrite called
    refine ⟨⟨_, _, file, held, rfl, rfl⟩, ?_⟩
    rintro ino position ⟨file', held', rfl, rfl⟩
    rw [held] at held'
    cases held'
    have wrote :
        Wrote platform sys.fs middle.fs file.ino
          (sys.landing platform file offset.toNat) buf := by
      rw [fs]
      exact wrote_writeAt whole
    refine ⟨wrote, file, ?_, rfl, ?_⟩
    · rw [proc, held]
    · refine landing_behind wrote rfl rfl ?_
      intro inside
      rw [Sys.landing, inside]
      simp only [Bool.false_eq_true, if_false]
      omega

theorem aimed_dzfile_write (platform : Platform) (fd : Int) :
    Aimed platform (fun buf _ => dzfile_write fd buf)
      fun sys _ ino position =>
        ∃ file, sys.proc.fds fd = some file ∧ file.ino = ino ∧
          sys.landing platform file file.offset = position := by
  intro sys later buf offset choices ret ran taken
  rcases Prog.run_call_eq_some.mp ran with
    ⟨choice, rest, result, middle, rfl, called, counted⟩
  rcases run_countWritten counted with ⟨rfl, db, rfl⟩
  rcases Sys.write_eq_some called with
    ⟨errno, rfl, _⟩ | ⟨limit, file, held, rfl, fs, proc⟩
  · simp only [Taken, returnCount_error] at taken
    omega
  · have whole : buf.length ≤ limit := by
      simp only [Taken, returnCount_ok] at taken
      omega
    refine ⟨⟨_, _, file, held, rfl, rfl⟩, ?_⟩
    rintro ino position ⟨file', held', rfl, rfl⟩
    rw [held] at held'
    cases held'
    have wrote :
        Wrote platform sys.fs middle.fs file.ino
          (sys.landing platform file file.offset) buf := by
      rw [fs]
      exact wrote_writeAt whole
    have next :
        middle.proc.fds fd =
          some
            { file with
              offset :=
                sys.landing platform file file.offset +
                  min limit buf.length } := by
      rw [proc]
      exact Function.update_self _ _ _
    refine ⟨wrote, _, next, rfl, ?_⟩
    refine landing_behind wrote rfl rfl ?_
    intro _
    rw [Nat.min_eq_right whole]

/-- The loop of the vectored writes gets as far as an empty buffer. -/
theorem run_vectorLoop
    {scalar : Bytes → Int → Call Int} {aims : Sys → Int → Ino → Nat → Prop}
    (aimed : Aimed platform scalar aims)
    {iov : List Bytes} {choices : List Choice} {count offset ret : Int}
    (aim : aims sys offset ino position)
    (served :
      EachCall platform scalar id (fun _ buf _ ret => Taken buf ret) sys
        choices iov offset)
    (ran :
      (vectorLoop scalar iov count offset).run (kernel platform) sys
          choices =
        some (ret, later)) :
    ret = count + (untilEmpty iov).flatten.length ∧
      Wrote platform sys.fs later.fs ino position
        (untilEmpty iov).flatten := by
  induction iov generalizing sys choices count offset position with
  | nil =>
      rcases run_countWritten ran with ⟨rfl, db, rfl⟩
      exact ⟨by simp, Wrote.nothing⟩
  | cons buf iov induction =>
      rcases Prog.run_bind_eq_some.mp ran with
        ⟨before, after, nbwrite, middle, rfl, scalarRan, restRan⟩
      rcases served before after nbwrite middle rfl scalarRan with
        ⟨taken, goesOn⟩
      rcases aimed _ _ _ _ _ _ scalarRan taken with ⟨_, there⟩
      rcases there ino position aim with ⟨wrote, next⟩
      rw [Taken] at taken
      subst taken
      by_cases empty : buf = []
      · subst empty
        rcases run_countWritten restRan with ⟨rfl, db, rfl⟩
        exact ⟨by simp, wrote⟩
      · have positive := List.length_pos_of_ne_nil empty
        rw [test_of_pos positive] at restRan
        have reached :=
          induction next (goesOn (Int.natCast_pos.mpr positive)) restRan
        rw [untilEmpty_cons empty, List.flatten_cons]
        refine ⟨?_, wrote.append reached.2⟩
        rw [reached.1, List.length_append, Nat.cast_add, Int.add_assoc]

end Writing

/-! ## Both together -/

section Both

variable {platform : Platform} {fs fs' : FileSystem}

/-- Two reads of the same bytes, one of them into several buffers. -/
theorem same_of_read_iff
    {rest : Bytes} {lengths : List Nat} (unchanged : fs = fs') :
    Same platform lengths
        ⟨some
            (((untilEmpty (parts lengths rest)).flatten.length : Nat) : Int),
          untilEmpty (parts lengths rest), fs⟩
        ⟨some ((rest.take lengths.sum).length : Int),
          [rest.take lengths.sum], fs'⟩ ↔
      min lengths.sum rest.length ≤ asked lengths := by
  have bounded := asked_le_sum lengths
  have vectored :
      (untilEmpty (parts lengths rest)).flatten.length =
        min (asked lengths) rest.length := by
    rw [flatten_untilEmpty_parts, List.length_take]
  have scalar :
      (rest.take lengths.sum).length = min lengths.sum rest.length :=
    List.length_take
  constructor
  · rintro ⟨⟨ret, first, second⟩, _⟩
    have lengths_eq := Option.some.inj (first.trans second.symm)
    omega
  · intro enough
    have met :
        min (asked lengths) rest.length = min lengths.sum rest.length := by
      omega
    refine ⟨⟨_, ?_, rfl⟩, fun index => ?_, ?_⟩
    · rw [vectored, scalar, met]
    · rw [List.flatten_singleton, parts_take_sum]
      exact getElem?_untilEmpty_parts enough index
    · rw [unchanged]
      exact ⟨rfl, fun _ => rfl⟩

/-- Two writes from one position on, one of them from several buffers. -/
theorem same_of_write_iff
    {before : FileSystem} {ino : Ino} {position : Nat} {iov : List Bytes}
    (vectored :
      Wrote platform before fs ino position (untilEmpty iov).flatten)
    (scalar : Wrote platform before fs' ino position iov.flatten) :
    Same platform (iov.map List.length)
        ⟨some (((untilEmpty iov).flatten.length : Nat) : Int), [], fs⟩
        ⟨some (iov.flatten.length : Int), [], fs'⟩ ↔
      (iov.map List.length).sum ≤ asked (iov.map List.length) := by
  constructor
  · rintro ⟨⟨ret, first, second⟩, _⟩
    have lengths_eq := Option.some.inj (first.trans second.symm)
    rw [length_flatten_untilEmpty, List.length_flatten] at lengths_eq
    omega
  · intro all
    have whole := flatten_untilEmpty_eq all
    rw [whole] at vectored
    refine ⟨⟨_, by rw [whole], rfl⟩, fun index => ?_, ?_⟩
    · have nothing : ∀ piece ∈ parts (iov.map List.length) ([] : Bytes),
          piece = [] := by
        apply List.flatten_eq_nil_iff.mp
        rw [flatten_parts, List.take_nil]
      cases found : (parts (iov.map List.length) ([] : Bytes))[index]? with
      | none => exact (congrArg (·.getD []) found).symm
      | some piece =>
          have empty := nothing piece (List.mem_of_getElem? found)
          rw [empty] at found
          exact (congrArg (·.getD []) found).symm
    · exact vectored.sameFiles scalar

/--
A vectored transfer does what the scalar one does exactly if all that is due
fits into the buffers in front of the first one of length zero.
-/
theorem vectored_same_iff
    {sys : Sys} {fd : Int} {lengths : List Nat} {due : Nat}
    {vectored scalar : Outcome}
    (runs : Runs platform sys fd lengths due vectored scalar) :
    Same platform lengths vectored scalar ↔ due ≤ asked lengths := by
  cases runs with
  | preadv libs dstlen dstlen' body iov offset ran served ran' served' =>
      have quiet :=
        fun length offset =>
          reads_dzfile_pread libs (dstlen offset) fd length offset
      rcases run_preadvLoop quiet served ran with ⟨unchanged, rfl⟩
      have unchanged' :=
        fs_of_run (reads_dzfile_pread libs dstlen' fd _ offset) ran'
      rcases served' with ⟨ret, data, rfl, rfl, rfl⟩
      rw [Int.zero_add, List.nil_append]
      exact same_of_read_iff (unchanged.trans unchanged'.symm)
  | readv iov ran served ran' served' =>
      rcases run_readvLoop served ran with ⟨unchanged, rfl, rfl⟩
      have reading : (dzfile_read fd lengths.sum).AllCalls reads :=
        ⟨trivial, fun _ => trivial⟩
      have unchanged' := fs_of_run reading ran'
      rcases served' with ⟨rfl, rfl⟩
      rw [Int.zero_add, List.nil_append]
      exact same_of_read_iff (unchanged.trans unchanged'.symm)
  | pwritev iov offset ran served ran' served' =>
      have aimed := aimed_dzfile_pwrite platform fd
      rcases aimed _ _ _ _ _ _ ran' served' with
        ⟨⟨ino, position, aim⟩, there⟩
      rcases run_vectorLoop aimed aim served ran with ⟨rfl, wrote⟩
      rw [Taken] at served'
      subst served'
      rw [Int.zero_add]
      exact same_of_write_iff wrote (there ino position aim).1
  | writev iov ran served ran' served' =>
      have aimed := aimed_dzfile_write platform fd
      rcases aimed _ _ _ 0 _ _ ran' served' with
        ⟨⟨ino, position, aim⟩, there⟩
      rcases run_vectorLoop aimed aim served ran with ⟨rfl, wrote⟩
      rw [Taken] at served'
      subst served'
      rw [Int.zero_add]
      exact same_of_write_iff wrote (there ino position aim).1

end Both

/-- A read that is served, in front of the others. -/
theorem servedReads_cons
    {platform : Platform} {sys later : Sys} {fd : Int} {choice : Choice}
    {rest : List Choice} {length : Nat} {iov : List Nat} {offset : Int}
    {data : Bytes}
    (answered : sys.read platform choice fd length = some (.ok data, later))
    (whole : data = (unread platform sys fd).take length)
    (others :
      data ≠ [] →
        ServedReads platform fd later rest iov (offset + data.length)) :
    ServedReads platform fd sys (choice :: rest) (length :: iov)
      offset := by
  rintro before after ⟨ret, got⟩ reached split_ ran
  rcases Prog.run_call_eq_some.mp ran with
    ⟨made, none_, result, middle, rfl, called, returned⟩
  rcases Prog.run_ret_eq_some.mp returned with ⟨rfl, same, rfl⟩
  cases split_
  rw [show kernel platform sys choice (.read fd length) = _ from answered]
    at called
  cases called
  cases same
  refine ⟨⟨whole, rfl⟩, fun moved => others ?_⟩
  rintro rfl
  exact absurd moved (by decide)

/-- `/f` holds two bytes and is open for reading. -/
def twoBytes : Sys where
  fs := Sys.initial.fs.link ['/', 'f'] (.file [5, 6])
  db := .empty
  proc := Process.empty.setFd 3 (some ⟨0, 0, O_RDONLY⟩)

/-- A buffer of length zero at the end does no harm. -/
theorem vectored_same_emptyLast :
    Same storingPlatform [2, 0] ⟨some 2, [[5, 6]], twoBytes.fs⟩
      ⟨some 2, [[5, 6]], twoBytes.fs⟩ := by
  have ran :
      (dzfile_readv 3 [2, 0]).run (kernel storingPlatform) twoBytes
          [.ok 2, .ok 0] =
        some ((2, [[5, 6]]), _) :=
    rfl
  have ran' :
      (dzfile_read 3 2).run (kernel storingPlatform) twoBytes [.ok 2] =
        some ((2, [5, 6]), _) :=
    rfl
  have served :
      ServedReads storingPlatform 3 twoBytes [.ok 2, .ok 0] [2, 0] 0 := by
    apply servedReads_cons rfl rfl
    intro _
    apply servedReads_cons rfl rfl
    intro nonempty
    exact (nonempty rfl).elim
  exact
    (vectored_same_iff
      (Runs.readv [2, 0] ran served ran' ⟨rfl, rfl⟩)).mpr (by decide)

/-- In front of other buffers it ends the transfer. -/
theorem emptyBuffer_ends_transfer :
    ¬ ∀ (platform : Platform) (sys : Sys) (fd : Int) (lengths : List Nat)
        (due : Nat) (vectored scalar : Outcome),
      Runs platform sys fd lengths due vectored scalar →
        Same platform lengths vectored scalar := by
  intro always
  have ran :
      (dzfile_readv 3 [1, 0, 1]).run (kernel storingPlatform) twoBytes
          [.ok 1, .ok 0] =
        some ((1, [[5]]), _) :=
    rfl
  have ran' :
      (dzfile_read 3 2).run (kernel storingPlatform) twoBytes [.ok 2] =
        some ((2, [5, 6]), _) :=
    rfl
  have served :
      ServedReads storingPlatform 3 twoBytes [.ok 1, .ok 0] [1, 0, 1] 0 := by
    apply servedReads_cons rfl rfl
    intro _
    apply servedReads_cons rfl rfl
    intro nonempty
    exact (nonempty rfl).elim
  have same :=
    always _ _ _ _ _ _ _ (Runs.readv [1, 0, 1] ran served ran' ⟨rfl, rfl⟩)
  rcases same with ⟨⟨ret, first, second⟩, _⟩
  cases first
  cases second

end DZFile.Vectored
