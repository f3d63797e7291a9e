import DZFile.Api
import DZFile.Library.Transition
import Mathlib.Algebra.BigOperators.Group.List.Basic

/-!
# The counter of written bytes

A run is any sequence of calls of the four write functions.  Each call is
executed against a kernel that records what every underlying `write` and
`pwrite` returned and in which no SQL statement fails.  The step lemma compares
the counter with that record; the run lemma adds the steps up.

The two scalar functions count what they transfer.  The two vectored functions
call them for every buffer and then count the sum once more, unless a buffer
failed or nothing was transferred.
-/

namespace DZFile.WrittenBytes

open DZFile.Interaction
open DZFile.Codec
open DZFile.Metadata
open DZFile.Kernel
open DZFile.Api

/-! ## Metered execution -/

/-- The system and the results of the underlying writes so far. -/
structure Metered where
  sys : Sys
  results : List (Except Errno Nat)

/-- The column `writtenbytes`. -/
def Metered.writtenbytes (metered : Metered) : Int :=
  metered.sys.db.space .writtenbytes

/-- What a call adds to the record. -/
def logged : (op : Op) → Reply op → List (Except Errno Nat)
  | .write _ _, result => [result]
  | .pwrite _ _ _, result => [result]
  | _, _ => []

/-- A SQL statement that fails. -/
def failingSql : Op → Choice → Bool
  | .sqlite3_exec _, .fail _ => true
  | _, _ => false

/-- The kernel with the record, in which SQL statements succeed. -/
def meteredKernel (platform : Platform) :
    Interaction.Kernel Op Reply Metered Choice :=
  fun metered choice op =>
    if failingSql op choice then none
    else
      (kernel platform metered.sys choice op).map fun answer =>
        (answer.1, ⟨answer.2, metered.results ++ logged op answer.1⟩)

/-- A metered call is a call of the kernel that is entered in the record. -/
theorem meteredKernel_eq_some
    {platform : Platform} {metered later : Metered} {choice : Choice}
    {op : Op} {reply : Reply op}
    (answered :
      meteredKernel platform metered choice op = some (reply, later)) :
    failingSql op choice = false ∧
      kernel platform metered.sys choice op = some (reply, later.sys) ∧
        later.results = metered.results ++ logged op reply := by
  unfold meteredKernel at answered
  split at answered
  · cases answered
  · rename_i succeeds
    rcases Option.map_eq_some_iff.mp answered with
      ⟨⟨reply', sys⟩, called, recorded⟩
    cases recorded
    exact ⟨Bool.eq_false_iff.mpr succeeds, called, rfl⟩

/-- The bytes one underlying call transferred. -/
def transferred : Except Errno Nat → Nat
  | .ok count => count
  | .error _ => 0

/-- The bytes a list of underlying calls transferred. -/
def total (results : List (Except Errno Nat)) : Nat :=
  (results.map transferred).sum

/-- The last underlying call failed. -/
def endsInError (results : List (Except Errno Nat)) : Bool :=
  match results.getLast? with
  | some (.error _) => true
  | _ => false

@[simp]
theorem total_nil : total [] = 0 :=
  rfl

@[simp]
theorem total_cons
    (result : Except Errno Nat) (rest : List (Except Errno Nat)) :
    total (result :: rest) = transferred result + total rest := by
  simp [total]

@[simp]
theorem endsInError_nil : endsInError [] = false :=
  rfl

/-- A successful call decides nothing about how the list ends. -/
@[simp]
theorem endsInError_ok_cons
    (count : Nat) (rest : List (Except Errno Nat)) :
    endsInError (.ok count :: rest) = endsInError rest := by
  cases rest with
  | nil => rfl
  | cons result later => simp [endsInError, List.getLast?_cons_cons]

section Programs

variable {platform : Platform}

/--
An underlying transfer: one call, recorded with its result, that leaves the
database alone.
-/
def Transfers
    (platform : Platform) (underlying : Call (Except Errno Nat)) : Prop :=
  ∀ metered choices result later,
    underlying.run (meteredKernel platform) metered choices =
        some (result, later) →
      later.results = metered.results ++ [result] ∧
        later.writtenbytes = metered.writtenbytes

theorem db_write
    {sys later : Sys} {choice : Choice} {fd : Int} {data : Bytes}
    {result : Except Errno Nat}
    (answered : sys.write platform choice fd data = some (result, later)) :
    later.db = sys.db := by
  unfold Sys.write at answered
  split at answered
  · cases answered
    rfl
  · cases answered
    rfl
  · split at answered
    · cases answered
      rfl
    · cases answered
      rfl

theorem db_pwrite
    {sys later : Sys} {choice : Choice} {fd : Int} {data : Bytes}
    {offset : Int} {result : Except Errno Nat}
    (answered :
      sys.pwrite platform choice fd data offset = some (result, later)) :
    later.db = sys.db := by
  unfold Sys.pwrite at answered
  split at answered
  · cases answered
    rfl
  · cases answered
    rfl
  · split at answered
    · cases answered
      rfl
    · split at answered
      · cases answered
        rfl
      · cases answered
        rfl

theorem transfers_write (fd : Int) (buf : Bytes) :
    Transfers platform (perform (.write fd buf)) := by
  intro metered choices result later ran
  rcases Prog.run_call_eq_some.mp ran with
    ⟨choice, rest, reply, middle, rfl, answered, returned⟩
  rcases Prog.run_ret_eq_some.mp returned with ⟨rfl, rfl, rfl⟩
  rcases meteredKernel_eq_some answered with ⟨_, called, recorded⟩
  exact
    ⟨recorded, congrArg (fun db => db.space .writtenbytes) (db_write called)⟩

theorem transfers_pwrite (fd : Int) (buf : Bytes) (offset : Int) :
    Transfers platform (perform (.pwrite fd buf offset)) := by
  intro metered choices result later ran
  rcases Prog.run_call_eq_some.mp ran with
    ⟨choice, rest, reply, middle, rfl, answered, returned⟩
  rcases Prog.run_ret_eq_some.mp returned with ⟨rfl, rfl, rfl⟩
  rcases meteredKernel_eq_some answered with ⟨_, called, recorded⟩
  exact
    ⟨recorded, congrArg (fun db => db.space .writtenbytes) (db_pwrite called)⟩

/-- `add_writtenbytes` adds a non-negative amount and records nothing. -/
theorem run_add_writtenbytes
    {metered later : Metered} {choices : List Choice} {amount : Nat}
    {ret : Int}
    (ran :
      (add_writtenbytes amount).run (meteredKernel platform) metered choices =
        some (ret, later)) :
    later.results = metered.results ∧
      later.writtenbytes = metered.writtenbytes + amount := by
  rcases Prog.run_call_eq_some.mp ran with
    ⟨choice, rest, done, middle, rfl, answered, returned⟩
  rcases Prog.run_ret_eq_some.mp returned with ⟨rfl, rfl, rfl⟩
  rcases meteredKernel_eq_some answered with ⟨succeeds, called, recorded⟩
  refine ⟨by simpa [logged] using recorded, ?_⟩
  cases choice with
  | fail errno => cases succeeds
  | ok number =>
      have printed := printUnsigned_of_nonneg (Int.natCast_nonneg amount)
      rw [Metered.writtenbytes, (kernel_sqlite3_exec_ok called).2]
      simp only [Stmt.exec, if_true, printed]
      rfl

/-- An amount that is not negative is counted. -/
theorem run_countWritten
    {metered later : Metered} {choices : List Choice} {count : Nat}
    {ret : Int}
    (ran :
      (countWritten count).run (meteredKernel platform) metered choices =
        some (ret, later)) :
    ret = count ∧
      later.results = metered.results ∧
        later.writtenbytes = metered.writtenbytes + count := by
  unfold countWritten at ran
  split at ran
  · rcases Prog.run_bind_eq_some.mp ran with
      ⟨addChoices, _, _, _, rfl, added, returned⟩
    rcases Prog.run_ret_eq_some.mp returned with ⟨rfl, rfl, rfl⟩
    exact ⟨rfl, run_add_writtenbytes added⟩
  · rcases Prog.run_ret_eq_some.mp ran with ⟨rfl, rfl, rfl⟩
    exact ⟨rfl, rfl, by omega⟩

/-- A scalar write counts what it transfers. -/
theorem run_accounted
    {underlying : Call (Except Errno Nat)}
    (transfers : Transfers platform underlying)
    {metered later : Metered} {choices : List Choice} {ret : Int}
    (ran :
      (accounted underlying).run (meteredKernel platform) metered choices =
        some (ret, later)) :
    ∃ result,
      ret = returnCount result ∧
        later.results = metered.results ++ [result] ∧
          later.writtenbytes =
            metered.writtenbytes + transferred result := by
  rcases Prog.run_bind_eq_some.mp ran with
    ⟨before, after, result, middle, rfl, firstRan, restRan⟩
  rcases transfers _ _ _ _ firstRan with ⟨recorded, unchanged⟩
  refine ⟨result, ?_⟩
  cases result with
  | error errno =>
      rcases Prog.run_ret_eq_some.mp restRan with ⟨rfl, rfl, rfl⟩
      exact ⟨rfl, recorded, by simp [unchanged, transferred]⟩
  | ok count =>
      rcases run_countWritten restRan with ⟨returned, sameRecord, grown⟩
      exact
        ⟨returned, sameRecord.trans recorded,
          by rw [grown, unchanged, transferred]⟩

/-- What a vectored write counts on top of its scalar calls. -/
def recount (count : Nat) (results : List (Except Errno Nat)) : Nat :=
  if endsInError results then 0 else count + total results

/--
The loop of a vectored write that has already transferred `count` bytes counts
them, and those still to come, once more unless a buffer fails.
-/
theorem run_vectorLoop
    {scalar : Bytes → Int → Call (Except Errno Nat)}
    (transfers : ∀ buf offset, Transfers platform (scalar buf offset))
    {iov : List Bytes} {metered later : Metered} {choices : List Choice}
    {count : Nat} {offset ret : Int}
    (ran :
      (vectorLoop (fun buf offset => accounted (scalar buf offset))
          iov count offset).run (meteredKernel platform) metered choices =
        some (ret, later)) :
    ∃ results,
      later.results = metered.results ++ results ∧
        later.writtenbytes =
          metered.writtenbytes + total results + recount count results := by
  induction iov generalizing metered choices count offset with
  | nil =>
      rcases run_countWritten ran with ⟨_, sameRecord, grown⟩
      exact ⟨[], by simp [sameRecord], by simp [grown, recount]⟩
  | cons buf iov induction =>
      rcases Prog.run_bind_eq_some.mp ran with
        ⟨before, after, nbwrite, middle, rfl, scalarRan, restRan⟩
      rcases run_accounted (transfers buf offset) scalarRan with
        ⟨result, rfl, recorded, grown⟩
      cases result with
      | error errno =>
          rcases Prog.run_ret_eq_some.mp restRan with ⟨rfl, rfl, rfl⟩
          exact ⟨[.error errno], recorded, by simp [grown, recount, endsInError]⟩
      | ok moved =>
          have nonnegative : ¬ returnCount (.ok moved) < 0 := by
            simp
          simp only [nonnegative, if_false] at restRan
          split at restRan
          · rename_i nothing
            have zero : moved = 0 := by simpa using nothing
            subst zero
            rcases run_countWritten restRan with ⟨_, sameRecord, counted⟩
            refine ⟨[.ok 0], sameRecord.trans recorded, ?_⟩
            rw [counted, grown]
            simp [recount, transferred]
          · have laterRan :
                (vectorLoop (fun buf offset => accounted (scalar buf offset))
                    iov ((count + moved : Nat) : Int)
                    (offset + moved)).run (meteredKernel platform) middle
                    after =
                  some (ret, later) := by
              simpa using restRan
            rcases induction laterRan with ⟨results, sameRecord, counted⟩
            refine ⟨.ok moved :: results, by simp [sameRecord, recorded], ?_⟩
            rw [counted, grown]
            simp only [recount, endsInError_ok_cons, total_cons, transferred]
            split <;> push_cast <;> ring

end Programs

/-! ## Runs -/

/-- A call of one of the write functions. -/
inductive WriteCall where
  | dzfile_write (fd : Int) (buf : Bytes)
  | dzfile_pwrite (fd : Int) (buf : Bytes) (offset : Int)
  | dzfile_writev (fd : Int) (iov : List Bytes)
  | dzfile_pwritev (fd : Int) (iov : List Bytes) (offset : Int)

/-- The program of a call. -/
def WriteCall.program : WriteCall → Call Int
  | .dzfile_write fd buf => Api.dzfile_write fd buf
  | .dzfile_pwrite fd buf offset => Api.dzfile_pwrite fd buf offset
  | .dzfile_writev fd iov => Api.dzfile_writev fd iov
  | .dzfile_pwritev fd iov offset => Api.dzfile_pwritev fd iov offset

/-- The call is one of the vectored ones. -/
def WriteCall.vectored : WriteCall → Bool
  | .dzfile_write _ _ => false
  | .dzfile_pwrite _ _ _ => false
  | .dzfile_writev _ _ => true
  | .dzfile_pwritev _ _ _ => true

/-- A call, the choices behind it and the results of its underlying writes. -/
structure Label where
  call : WriteCall
  choices : List Choice
  results : List (Except Errno Nat)

/-- One call, if its underlying writes give the results of the label. -/
def step (platform : Platform) (sys : Sys) (label : Label) : Option Sys :=
  (label.call.program.run (meteredKernel platform) ⟨sys, []⟩
      label.choices).bind fun outcome =>
    if outcome.2.results = label.results then some outcome.2.sys else none

/-- The bytes all underlying calls of a run transferred. -/
def grandTotal (labels : List Label) : Nat :=
  (labels.map fun label => total label.results).sum

/--
The call counts its bytes once: a scalar call always, a vectored call when it
transfers nothing or when its last underlying call fails.
-/
def Label.CountedOnce (label : Label) : Prop :=
  label.call.vectored = true →
    total label.results = 0 ∨ endsInError label.results = true

/-- What a call counts beyond the bytes it transfers. -/
def Label.excess (label : Label) : Nat :=
  if label.call.vectored then recount 0 label.results else 0

theorem excess_eq_zero_iff (label : Label) :
    label.excess = 0 ↔ label.CountedOnce := by
  unfold Label.excess Label.CountedOnce recount
  cases label.call.vectored with
  | false => simp
  | true =>
      cases endsInError label.results with
      | true => simp
      | false => simp

/-- The step lemma: the counter grows by the transfer and the excess. -/
theorem writtenbytes_step
    {platform : Platform} {sys next : Sys} {label : Label}
    (stepped : step platform sys label = some next) :
    next.db.space .writtenbytes =
      sys.db.space .writtenbytes + total label.results + label.excess := by
  rcases Option.bind_eq_some_iff.mp stepped with ⟨⟨ret, later⟩, ran, kept⟩
  split at kept
  · rename_i sameResults
    cases kept
    have vector :
        ∀ {scalar : Bytes → Int → Call (Except Errno Nat)}
          {iov : List Bytes} {offset : Int},
          (∀ buf offset, Transfers platform (scalar buf offset)) →
          (vectorLoop (fun buf offset => accounted (scalar buf offset))
              iov 0 offset).run (meteredKernel platform) ⟨sys, []⟩
              label.choices = some (ret, later) →
            later.writtenbytes =
              sys.db.space .writtenbytes + total label.results +
                recount 0 label.results := by
      intro scalar iov offset transfers loopRan
      rcases @run_vectorLoop _ _ transfers _ _ _ _ 0 _ _ loopRan with
        ⟨results, recorded, counted⟩
      simp only [List.nil_append] at recorded
      rw [← sameResults, recorded, counted]
      rfl
    have single :
        ∀ {underlying : Call (Except Errno Nat)},
          Transfers platform underlying →
          (accounted underlying).run (meteredKernel platform) ⟨sys, []⟩
              label.choices = some (ret, later) →
            later.writtenbytes =
              sys.db.space .writtenbytes + total label.results := by
      intro underlying transfers scalarRan
      rcases run_accounted transfers scalarRan with
        ⟨result, _, recorded, counted⟩
      simp only [List.nil_append] at recorded
      rw [← sameResults, recorded, counted]
      simp [Metered.writtenbytes]
    show later.writtenbytes = _
    unfold Label.excess
    cases shape : label.call with
    | dzfile_write fd buf =>
        rw [shape] at ran
        simpa [WriteCall.vectored] using single (transfers_write fd buf) ran
    | dzfile_pwrite fd buf offset =>
        rw [shape] at ran
        simpa [WriteCall.vectored] using
          single (transfers_pwrite fd buf offset) ran
    | dzfile_writev fd iov =>
        rw [shape] at ran
        simpa [WriteCall.vectored] using
          vector (fun buf _ => transfers_write fd buf) ran
    | dzfile_pwritev fd iov offset =>
        rw [shape] at ran
        simpa [WriteCall.vectored] using
          vector (fun buf offset => transfers_pwrite fd buf offset) ran
  · cases kept

/-- The run lemma. -/
theorem writtenbytes_run
    {platform : Platform} {sys final : Sys} {labels : List Label}
    (ran : Transition.run (step platform) sys labels = some final) :
    final.db.space .writtenbytes =
      sys.db.space .writtenbytes + grandTotal labels +
        ((labels.map Label.excess).sum : Nat) := by
  induction labels generalizing sys with
  | nil =>
      cases ran
      simp [grandTotal]
  | cons label rest induction =>
      rcases Transition.run_cons_eq_some.mp ran with ⟨next, stepped, later⟩
      rw [induction later, writtenbytes_step stepped]
      simp only [grandTotal, List.map_cons, List.sum_cons]
      push_cast
      ring

/--
The counter grows by exactly the transferred bytes if and only if every
vectored call of the run transfers nothing or ends in a failing call.
-/
theorem writtenbytes_grows_by_transferred_iff
    {platform : Platform} {sys final : Sys} {labels : List Label}
    (ran : Transition.run (step platform) sys labels = some final) :
    final.db.space .writtenbytes =
        sys.db.space .writtenbytes + grandTotal labels ↔
      ∀ label ∈ labels, label.CountedOnce := by
  rw [writtenbytes_run ran]
  constructor
  · intro exactly label member
    have none : (labels.map Label.excess).sum = 0 := by omega
    exact
      (excess_eq_zero_iff label).mp
        (List.sum_eq_zero_iff_forall_eq_nat.mp none _
          (List.mem_map_of_mem member))
  · intro once
    have none : (labels.map Label.excess).sum = 0 := by
      rw [List.sum_eq_zero_iff_forall_eq_nat]
      intro extra member
      rcases List.mem_map.mp member with ⟨label, labelMember, rfl⟩
      exact (excess_eq_zero_iff label).mpr (once label labelMember)
    omega

/-- A process with one empty file open for writing as descriptor 3. -/
def oneOpenFile : Sys where
  fs := Sys.initial.fs.link ['/', 'f'] (.file [])
  db := .empty
  proc := Process.empty.setFd 3 (some ⟨0, 0, O_WRONLY⟩)

/-- A write of one byte, then a `writev` whose second buffer fails. -/
def twoCalls : List Label :=
  [⟨.dzfile_write 3 [7], [.ok 1, .ok 0], [.ok 1]⟩,
    ⟨.dzfile_writev 3 [[8], [9]], [.ok 1, .ok 0, .fail .ENOSPC],
      [.ok 1, .error .ENOSPC]⟩]

theorem writtenbytes_grows_by_transferred_twoCalls :
    ∃ final,
      Transition.run (step storingPlatform) oneOpenFile twoCalls =
          some final ∧
        final.db.space .writtenbytes =
          oneOpenFile.db.space .writtenbytes + grandTotal twoCalls := by
  have completes :
      (Transition.run (step storingPlatform) oneOpenFile twoCalls).isSome :=
    rfl
  rcases Option.isSome_iff_exists.mp completes with ⟨final, ran⟩
  refine ⟨final, ran, (writtenbytes_grows_by_transferred_iff ran).mpr ?_⟩
  intro label member vectored
  simp only [twoCalls, List.mem_cons, List.not_mem_nil, or_false] at member
  rcases member with rfl | rfl
  · cases vectored
  · exact Or.inr rfl

/-- `writev` of one one-byte buffer counts the byte twice. -/
theorem writev_counts_twice :
    ¬ ∀ (platform : Platform) (sys final : Sys) (labels : List Label),
        Transition.run (step platform) sys labels = some final →
          final.db.space .writtenbytes =
            sys.db.space .writtenbytes + grandTotal labels := by
  intro claimed
  have completes :
      (step storingPlatform oneOpenFile
        ⟨.dzfile_writev 3 [[7]], [.ok 1, .ok 0, .ok 0], [.ok 1]⟩).map
          (fun next => next.db.space .writtenbytes) = some 2 :=
    rfl
  rcases Option.map_eq_some_iff.mp completes with ⟨final, stepped, counted⟩
  have claim :=
    claimed storingPlatform oneOpenFile final [_]
      (Transition.run_cons_eq_some.mpr ⟨final, stepped, rfl⟩)
  rw [counted] at claim
  exact absurd claim (by decide)

end DZFile.WrittenBytes
