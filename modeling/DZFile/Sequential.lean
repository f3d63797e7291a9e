import DZFile.Opening
import DZFile.Library.Transition

/-!
# Sequential and positional reads

`dzfile_read` and `dzfile_readv` go straight to the descriptor; only
`dzfile_pread` looks it up in the descriptor map and decodes the hidden image.
On a plain file they agree.  On a converted file the descriptor is that of the
placeholder of zeros, so they agree exactly where the content is zero and the
positional reader can fetch its chunks.
-/

namespace DZFile.Sequential

open DZFile.ByteSeq
open DZFile.Interaction
open DZFile.Names
open DZFile.Codec
open DZFile.Image
open DZFile.Kernel
open DZFile.Api
open DZFile.Opening

/-! ## Stored files -/

/-- A content stored as it is, or converted into a hidden image. -/
inductive Stored
    (libs : Libs) (fs : FileSystem) (path : CString) (content : Bytes) :
    Bool → Prop where
  | plain
      (src : Ino) (source : fs.entry path = some src)
      (node : fs.node src = .file content)
      (absent :
        ∀ h5name, buildHiddenFile path = some h5name →
          fs.entry h5name = none) :
      Stored libs fs path content false
  | converted
      (src ino : Ino) (h5name : CString) (image : H5Image)
      (source : fs.entry path = some src)
      (node : fs.node src = .file (List.replicate content.length 0))
      (built : buildHiddenFile path = some h5name)
      (named : fs.entry h5name = some ino)
      (stored : fs.node ino = .image image)
      (holds : Holds libs image content) :
      Stored libs fs path content true

/-- The descriptor map has no entry for a free number. -/
def Consistent (proc : Process) : Prop :=
  ∀ fd, proc.fds fd = none → proc.h5fdmap fd = none

/-- What an open descriptor of a stored file looks like. -/
structure Reader
    (libs : Libs) (fd : Int) (content : Bytes) (converted : Bool)
    (sys : Sys) : Prop where
  opened :
    ∃ file, sys.proc.fds fd = some file ∧ file.readable = true ∧
      sys.fs.node file.ino =
        .file
          (if converted then List.replicate content.length 0 else content)
  mapped :
    if converted then
      ∃ dzfd image,
        sys.proc.h5fdmap fd = some dzfd ∧ 0 < dzfd.h5fd ∧
          sys.imageOf dzfd.h5fd = some image ∧ Holds libs image content
    else sys.proc.h5fdmap fd = none

section Opening

variable {platform : Platform} {sys later : Sys} {path : CString} {fd : Int}

/-- `dzfile_open` for reading returns a reader or fails. -/
theorem reader_of_opens
    {content : Bytes} {converted : Bool}
    (stored : Stored platform.libs sys.fs path content converted)
    (consistent : Consistent sys.proc)
    (opens : Opens path O_RDONLY sys fd later) (valid : 0 ≤ fd) :
    Reader platform.libs fd content converted later := by
  cases opens with
  | refused fs fds h5fdmap => cases valid
  | visible h5name db choice opened built absent called =>
      cases opened with
      | error errno => cases valid
      | ok number =>
          rcases Sys.openFile_eq_ok (by decide) (by decide) called with
            ⟨number, ino, rfl, free, found, rfl⟩
          cases stored with
          | plain src source node noImage =>
              change sys.fs.entry path = some ino at found
              rw [source] at found
              cases found
              exact
                { opened :=
                    ⟨⟨ino, 0, O_RDONLY⟩, by simp [Process.setFd], rfl, node⟩
                  mapped := consistent _ free }
          | converted src other h5name' image source node built' named =>
              rw [built] at built'
              cases built'
              rw [absent] at named
              cases named
  | image h5name h5fd fd first second built readOnly present handle called =>
      rcases Sys.openFile_eq_ok (by decide) (by decide) called with
        ⟨number, ino, rfl, free, found, rfl⟩
      rcases h5fopen_eq_some handle with
        ⟨none, _⟩ | ⟨slot, imageIno, image, same, positive, named, node, _, rfl⟩
      · cases none
      · cases same
        cases stored with
        | plain src source isFile noImage =>
            exact (present (noImage h5name built)).elim
        | converted src other h5name' image' source isFile built' named' stored
            holds =>
            rw [built] at built'
            cases built'
            rw [named] at named'
            cases named'
            rw [node] at stored
            cases stored
            change sys.fs.entry path = some ino at found
            rw [source] at found
            cases found
            exact
              { opened :=
                  ⟨⟨ino, 0, O_RDONLY⟩,
                    by simp [Process.setFd, Process.setMap], rfl, isFile⟩
                mapped :=
                  ⟨⟨number, slot⟩, image,
                    by simp [Process.setMap],
                    by simpa using positive,
                    by
                      simp [Sys.imageOf, Process.setMap, Process.setFd,
                        Process.setHandle, node],
                    holds⟩ }

end Opening

/-! ## Sequential calls -/

/-- A sequential call on a descriptor. -/
inductive ReadCall where
  | dzfile_read (count : Nat)
  | dzfile_readv (iov : List Nat)
  | dzfile_lseek (offset : Int) (whence : Whence)

namespace ReadCall

/-- The return value of a call and the bytes it returned. -/
def program (fd : Int) : ReadCall → Call (Int × Bytes)
  | .dzfile_read count => Api.dzfile_read fd count
  | .dzfile_readv iov => do
      let result ← Api.dzfile_readv fd iov
      return (result.1, result.2.flatten)
  | .dzfile_lseek offset whence => do
      let ret ← Api.dzfile_lseek fd offset whence
      return (ret, [])

/-- The lengths of the buffers of a call. -/
def iov : ReadCall → List Nat
  | .dzfile_read count => [count]
  | .dzfile_readv iov => iov
  | .dzfile_lseek _ _ => []

end ReadCall

/-- A call and the decisions of the environment during it. -/
structure Label where
  call : ReadCall
  choices : List Choice

/-- One call on the descriptor. -/
def step (platform : Platform) (fd : Int) (sys : Sys) (label : Label) :
    Option Sys :=
  ((label.call.program fd).run (kernel platform) sys label.choices).map
    Prod.snd

/--
The bytes the environment lets a call have, as long as the file does not end:
`none` when one of the underlying reads fails.  The first read of nothing ends
the call.
-/
def granted : List Nat → List Choice → Option Nat
  | [], _ => some 0
  | _ :: _, [] => none
  | _ :: _, .fail _ :: _ => none
  | length :: iov, .ok limit :: rest =>
      if min limit length = 0 then some 0
      else (granted iov rest).map (min limit length + ·)

/-- The call stays inside the content. -/
def Inside (fd : Int) (content : Bytes) (sys : Sys) (label : Label) : Prop :=
  ∀ file, sys.proc.fds fd = some file →
    label.call.iov ≠ [] →
      file.offset + label.call.iov.sum ≤ content.length

/--
The bytes a call returns are those `dzfile_pread` returns, for as many bytes,
on the same descriptor at the current offset.
-/
def Agrees
    (platform : Platform) (dstlen fd : Int) (sys : Sys) (label : Label) :
    Prop :=
  ∀ ret data later file,
    (label.call.program fd).run (kernel platform) sys label.choices =
        some ((ret, data), later) →
      0 ≤ ret → sys.proc.fds fd = some file →
        ∃ answers,
          (dzfile_pread platform.libs dstlen fd data.length file.offset).run
              (kernel platform) sys answers =
            some (.returned data.length data, sys)

/--
The content is zero where the call reads, and the positional reader can fetch
the chunks there.
-/
def Blank
    (libs : Libs) (fd : Int) (content : Bytes) (sys : Sys) (label : Label) :
    Prop :=
  ∀ file count,
    sys.proc.fds fd = some file →
      granted label.call.iov label.choices = some count →
        FetchableRange libs content file.offset count ∧
          slice content file.offset count = List.replicate count 0

section Calls

variable {platform : Platform} {sys later : Sys} {fd : Int} {body : Bytes}

/-- A descriptor at the given offset of the given bytes. -/
structure At (sys : Sys) (fd : Int) (body : Bytes) (file : OpenFile) :
    Prop where
  held : sys.proc.fds fd = some file
  readable : file.readable = true
  node : sys.fs.node file.ino = .file body

/-- A sequential call has moved the descriptor and nothing else. -/
def Moved (sys later : Sys) (fd : Int) (file : OpenFile) : Prop :=
  ∃ offset,
    later =
      { sys with
        proc := sys.proc.setFd fd (some { file with offset := offset }) }

theorem Moved.refl
    {file : OpenFile} (held : sys.proc.fds fd = some file) :
    Moved sys sys fd file := by
  refine ⟨file.offset, ?_⟩
  have same : sys.proc.setFd fd (some file) = sys.proc := by
    rw [Process.setFd, ← held, Function.update_eq_self]
  exact congrArg (fun proc => ({ sys with proc := proc } : Sys)) same.symm

theorem Moved.trans
    {last : Sys} {file : OpenFile} {offset : Nat}
    (first :
      later =
        { sys with
          proc := sys.proc.setFd fd (some { file with offset := offset }) })
    (second : Moved later last fd { file with offset := offset }) :
    Moved sys last fd file := by
  rcases second with ⟨final, rfl⟩
  subst first
  exact ⟨final, by simp [Process.setFd]⟩

/-- One underlying read. -/
theorem run_dzfile_read
    {count : Nat} {choices : List Choice} {ret : Int} {data : Bytes}
    {file : OpenFile} (here : At sys fd body file)
    (inside : file.offset + count ≤ body.length)
    (ran :
      (Api.dzfile_read fd count).run (kernel platform) sys choices =
        some ((ret, data), later)) :
    ∃ choice, choices = [choice] ∧
      match choice with
      | .fail _ => ret = -1 ∧ data = [] ∧ later = sys
      | .ok limit =>
          ret = (min limit count : Nat) ∧
            data = slice body file.offset (min limit count) ∧
              later =
                { sys with
                  proc :=
                    sys.proc.setFd fd
                      (some
                        { file with
                          offset := file.offset + min limit count }) } := by
  rcases Prog.run_call_eq_some.mp ran with
    ⟨choice, rest, result, middle, rfl, called, returned⟩
  rcases Prog.run_ret_eq_some.mp returned with ⟨rfl, same, rfl⟩
  refine ⟨choice, rfl, ?_⟩
  cases choice with
  | fail errno =>
      cases called
      cases same
      exact ⟨rfl, rfl, rfl⟩
  | ok limit =>
      simp only [kernel, Sys.read, here.held, here.readable,
        Bool.true_eq_false, if_false, here.node, Node.bytes] at called
      rcases Option.map_eq_some_iff.mp called with ⟨moved, transferred, answer⟩
      cases answer
      unfold Sys.transfer at transferred
      split at transferred
      · cases transferred
      · cases transferred
        cases same
        have length :
            (slice body file.offset (min limit count)).length =
              min limit count := by
          rw [length_slice]
          omega
        exact ⟨by rw [length], rfl, by rw [length]⟩

/-- `lseek` moves the descriptor or changes nothing. -/
theorem moved_of_lseek
    {choice : Choice} {offset : Int} {whence : Whence}
    {result : Except Errno Nat} {file : OpenFile}
    (here : At sys fd body file)
    (called :
      sys.lseek platform choice fd offset whence = some (result, later)) :
    Moved sys later fd file := by
  unfold Sys.lseek at called
  cases choice with
  | fail errno =>
      cases called
      exact .refl here.held
  | ok number =>
      have answers :
          ∀ position : Int,
            (if position < 0 then sys.refuse .EINVAL
              else
                some
                  (.ok position.toNat,
                    { sys with
                      proc :=
                        sys.proc.setFd fd
                          (some { file with offset := position.toNat }) })) =
                some (result, later) →
              Moved sys later fd file := by
        intro position answer
        split at answer
        · cases answer
          exact .refl here.held
        · cases answer
          exact ⟨_, rfl⟩
      simp only [here.held] at called
      exact answers _ called

/-- A call gets no more than it asks for. -/
theorem granted_le
    {iov : List Nat} {choices : List Choice} {moved : Nat}
    (allowed : granted iov choices = some moved) :
    moved ≤ iov.sum := by
  induction iov generalizing choices moved with
  | nil =>
      cases allowed
      exact Nat.le_refl 0
  | cons length iov induction =>
      rw [List.sum_cons]
      cases choices with
      | nil => cases allowed
      | cons choice rest =>
          cases choice with
          | fail errno => cases allowed
          | ok limit =>
              simp only [granted] at allowed
              split at allowed
              · cases allowed
                exact Nat.zero_le _
              · rcases Option.map_eq_some_iff.mp allowed with
                  ⟨more, remaining, rfl⟩
                have bound := induction remaining
                omega

/-- The loop of `dzfile_readv` returns consecutive ranges of the file. -/
theorem run_readvLoop
    {iov : List Nat} {count : Nat} {pieces result : List Bytes}
    {choices : List Choice} {ret : Int} {file : OpenFile}
    (here : At sys fd body file)
    (inside : iov ≠ [] → file.offset + iov.sum ≤ body.length)
    (ran :
      (readvLoop fd iov count pieces).run (kernel platform) sys choices =
        some ((ret, result), later)) :
    Moved sys later fd file ∧
      match granted iov choices with
      | none => ret < 0
      | some moved =>
          ret = (count + moved : Nat) ∧
            result.flatten =
              pieces.flatten ++ slice body file.offset moved := by
  induction iov generalizing sys count pieces choices file with
  | nil =>
      rcases Prog.run_ret_eq_some.mp ran with ⟨rfl, same, rfl⟩
      cases same
      exact ⟨.refl here.held, by simp, by simp⟩
  | cons length iov induction =>
      have fits := inside (List.cons_ne_nil length iov)
      rw [List.sum_cons] at fits
      rcases Prog.run_bind_eq_some.mp ran with
        ⟨before, after, ⟨nbread, data⟩, middle, rfl, readRan, restRan⟩
      rcases run_dzfile_read here (by omega) readRan with ⟨choice, rfl, answer⟩
      cases choice with
      | fail errno =>
          rcases answer with ⟨rfl, rfl, rfl⟩
          rcases Prog.run_ret_eq_some.mp restRan with ⟨rfl, same, rfl⟩
          cases same
          exact ⟨.refl here.held, by simp [granted]⟩
      | ok limit =>
          rcases answer with ⟨rfl, rfl, moved⟩
          have notNegative : ¬ ((min limit length : Nat) : Int) < 0 := by
            omega
          simp only [if_neg notNegative] at restRan
          by_cases nothing : min limit length = 0
          · rw [if_pos (by omega)] at restRan
            rcases Prog.run_ret_eq_some.mp restRan with ⟨rfl, same, rfl⟩
            cases same
            refine ⟨⟨_, moved⟩, ?_⟩
            simp [granted, nothing]
          · rw [if_neg (by omega)] at restRan
            have there :
                At middle fd body
                  { file with offset := file.offset + min limit length } := by
              subst moved
              exact
                { held := by simp [Process.setFd]
                  readable := here.readable
                  node := here.node }
            have laterRan :
                (readvLoop fd iov ((count + min limit length : Nat) : Int)
                    (pieces ++ [slice body file.offset (min limit length)])).run
                    (kernel platform) middle after =
                  some ((ret, result), later) := by
              simpa using restRan
            obtain ⟨later', rest⟩ :=
              induction there (fun _ => by simp only; omega) laterRan
            refine ⟨.trans moved later', ?_⟩
            have split :
                granted (length :: iov) ([.ok limit] ++ after) =
                  (granted iov after).map (min limit length + ·) := by
              simp only [List.singleton_append, granted, if_neg nothing]
            rw [split]
            cases remaining : granted iov after with
            | none =>
                rw [remaining] at rest
                simpa using rest
            | some moved' =>
                rw [remaining] at rest
                rcases rest with ⟨total, bytes⟩
                simp only [Option.map_some]
                refine ⟨by rw [total, Nat.add_assoc], ?_⟩
                rw [bytes, List.flatten_append, List.flatten_singleton,
                  List.append_assoc, slice_append_slice]

/-- What one call returns, and that it only moves the descriptor. -/
theorem run_program
    {call : ReadCall} {choices : List Choice} {ret : Int} {data : Bytes}
    {file : OpenFile} (here : At sys fd body file)
    (inside :
      call.iov ≠ [] → file.offset + call.iov.sum ≤ body.length)
    (ran :
      (call.program fd).run (kernel platform) sys choices =
        some ((ret, data), later)) :
    Moved sys later fd file ∧
      ((ret < 0 ∧ ∀ moved, granted call.iov choices = some moved → moved = 0) ∨
        (0 ≤ ret ∧
          ∃ moved, granted call.iov choices = some moved ∧
            moved ≤ call.iov.sum ∧
              data = slice body file.offset moved)) := by
  cases call with
  | dzfile_read count =>
      rcases
        run_dzfile_read here (by simpa [ReadCall.iov] using inside) ran with
        ⟨choice, rfl, answer⟩
      cases choice with
      | fail errno =>
          rcases answer with ⟨rfl, rfl, rfl⟩
          exact
            ⟨.refl here.held, Or.inl ⟨by decide, by simp [ReadCall.iov, granted]⟩⟩
      | ok limit =>
          rcases answer with ⟨rfl, rfl, moved⟩
          refine
            ⟨⟨_, moved⟩,
              Or.inr ⟨Int.natCast_nonneg _, min limit count, ?_, ?_, rfl⟩⟩
          · simp only [ReadCall.iov, granted, Option.map_some, Nat.add_zero]
            split
            · rename_i nothing
              rw [nothing]
            · rfl
          · simp [ReadCall.iov]
  | dzfile_readv iov =>
      rcases Prog.run_bind_eq_some.mp ran with
        ⟨before, after, ⟨count, pieces⟩, middle, rfl, loopRan, returned⟩
      rcases Prog.run_ret_eq_some.mp returned with ⟨rfl, same, rfl⟩
      cases same
      rcases @run_readvLoop _ _ _ _ _ iov 0 [] _ _ _ _ here inside loopRan with
        ⟨moved, result⟩
      refine ⟨moved, ?_⟩
      rw [List.append_nil]
      simp only [ReadCall.iov]
      cases allowed : granted iov before with
      | none =>
          rw [allowed] at result
          exact Or.inl ⟨result, by simp⟩
      | some count =>
          rw [allowed] at result
          refine Or.inr ⟨?_, count, rfl, granted_le allowed, ?_⟩
          · rw [result.1]
            exact Int.natCast_nonneg _
          · simpa using result.2
  | dzfile_lseek offset whence =>
      rcases Prog.run_bind_eq_some.mp ran with
        ⟨before, after, value, middle, rfl, seekRan, returned⟩
      rcases Prog.run_ret_eq_some.mp returned with ⟨rfl, same, rfl⟩
      cases same
      refine ⟨?_, ?_⟩
      swap
      · rcases Int.lt_or_le ret 0 with negative | nonnegative
        · exact Or.inl ⟨negative, by simp [ReadCall.iov, granted]⟩
        · exact Or.inr ⟨nonnegative, 0, rfl, Nat.zero_le _, by simp⟩
      rcases Prog.run_call_eq_some.mp seekRan with
        ⟨choice, rest, result, after, rfl, called, ended⟩
      rcases Prog.run_ret_eq_some.mp ended with ⟨_, _, rfl⟩
      exact moved_of_lseek here called

/-! ## Positional reads -/

/-- On a plain descriptor `dzfile_pread` can return any range there is. -/
theorem run_dzfile_pread_plain
    {file : OpenFile} (here : At sys fd body file)
    (unmapped : sys.proc.h5fdmap fd = none) (libs : Libs) (dstlen : Int)
    (count : Nat) :
    (dzfile_pread libs dstlen fd (slice body file.offset count).length
          file.offset).run (kernel platform) sys
        [.ok 0, .ok (slice body file.offset count).length] =
      some
        (.returned (slice body file.offset count).length
          (slice body file.offset count),
          sys) := by
  have read :
      Sys.pread platform sys (.ok (slice body file.offset count).length) fd
          (slice body file.offset count).length file.offset =
        some (.ok (slice body file.offset count), sys) := by
    rw [Sys.pread_file here.held here.readable here.node, Sys.transfer_all,
      slice_length_slice]
    rfl
  refine
    Prog.run_call_eq_some.mpr
      ⟨.ok 0, [.ok (slice body file.offset count).length], none, sys, rfl,
        by simp only [kernel, unmapped], ?_⟩
  exact
    Prog.run_call_eq_some.mpr
      ⟨.ok _, [], .ok (slice body file.offset count), sys, rfl, read, rfl⟩

/-- On a mapped descriptor `dzfile_pread` returns what `h5fd_pread` returns. -/
theorem run_dzfile_pread_mapped
    {dzfd : Dzfd} {image : H5Image}
    (mapped : sys.proc.h5fdmap fd = some dzfd) (positive : 0 < dzfd.h5fd)
    (stored : sys.imageOf dzfd.h5fd = some image)
    (libs : Libs) (dstlen : Int) (count : Nat) (offset : Int)
    (result : PreadResult) :
    (∃ answers,
        (dzfile_pread libs dstlen fd count offset).run (kernel platform) sys
            answers =
          some (result, sys)) ↔
      h5fd_pread libs image dstlen count offset = result := by
  have open_ : ¬ dzfd.h5fd ≤ 0 := by omega
  constructor
  · rintro ⟨answers, ran⟩
    rcases Prog.run_call_eq_some.mp ran with
      ⟨_, _, found, middle, rfl, called, imageRan⟩
    simp only [kernel, mapped, Option.some.injEq, Prod.mk.injEq] at called
    rcases called with ⟨rfl, rfl⟩
    change
      (if dzfd.h5fd ≤ 0 then
          (Prog.ret (.returned (-1) []) : Call PreadResult)
        else _).run (kernel platform) sys _ = _ at imageRan
    rw [if_neg open_] at imageRan
    rcases Prog.run_call_eq_some.mp imageRan with
      ⟨_, _, found, middle, rfl, called, returned⟩
    simp only [kernel, stored, Option.some.injEq, Prod.mk.injEq] at called
    rcases called with ⟨rfl, rfl⟩
    rcases Prog.run_ret_eq_some.mp returned with ⟨_, same, _⟩
    exact same
  · rintro rfl
    refine
      ⟨[.ok 0, .ok 0],
        Prog.run_call_eq_some.mpr
          ⟨.ok 0, [.ok 0], some dzfd, sys, rfl,
            by simp only [kernel, mapped], ?_⟩⟩
    show
      (if dzfd.h5fd ≤ 0 then
          (Prog.ret (.returned (-1) []) : Call PreadResult)
        else _).run (kernel platform) sys _ = _
    rw [if_neg open_]
    exact
      Prog.run_call_eq_some.mpr
        ⟨.ok 0, [], some image, sys, rfl, by simp only [kernel, stored],
          rfl⟩

/-! ## Runs -/

/-- A sequential call keeps the reader. -/
theorem Reader.moved
    {libs : Libs} {content : Bytes} {converted : Bool} {file : OpenFile}
    (reader : Reader libs fd content converted sys)
    (held : sys.proc.fds fd = some file) (moved : Moved sys later fd file) :
    Reader libs fd content converted later := by
  rcases reader.opened with ⟨same, opened, readable, node⟩
  rw [held] at opened
  cases opened
  rcases moved with ⟨offset, rfl⟩
  exact
    { opened :=
        ⟨{ file with offset := offset }, by simp [Process.setFd], readable,
          node⟩
      mapped := reader.mapped }

/-- A read of zero bytes of an image returns nothing. -/
theorem h5fd_pread_nothing
    {libs : Libs} {image : H5Image} {content : Bytes}
    (holds : Holds libs image content) (dstlen offset : Int) :
    h5fd_pread libs image dstlen 0 offset = .returned 0 [] := by
  rw [h5fd_pread, if_neg (by rw [holds.algorithm]; decide), h5fd_preadLoop]
  rfl

/--
On a converted file the placeholder's zeros are what the positional reader
returns exactly where the content is blank and can be fetched.
-/
theorem h5fd_pread_zeros_iff
    {libs : Libs} {image : H5Image} {content : Bytes}
    (holds : Holds libs image content) (dstlen : Int) {offset count : Nat}
    (within : count ≠ 0 → offset + count ≤ content.length) :
    h5fd_pread libs image dstlen count offset =
        .returned count (List.replicate count 0) ↔
      FetchableRange libs content offset count ∧
        slice content offset count = List.replicate count 0 := by
  by_cases nothing : count = 0
  · subst nothing
    refine iff_of_true (h5fd_pread_nothing holds dstlen offset) ⟨?_, rfl⟩
    intro position after before
    omega
  · by_cases fetchable : FetchableRange libs content offset count
    · rw [h5fd_pread_in_range holds dstlen (within nothing) fetchable]
      simp [fetchable]
    · refine iff_of_false ?_ (fun blank => fetchable blank.1)
      intro returned
      have failed :=
        h5fd_pread_unfetchable holds (within nothing) fetchable returned
      omega

/-- A call that stays inside the content ends inside it. -/
theorem Inside.ends
    {content : Bytes} {label : Label} {file : OpenFile}
    (inside : Inside fd content sys label)
    (held : sys.proc.fds fd = some file) {moved : Nat}
    (bound : moved ≤ label.call.iov.sum) (nonzero : moved ≠ 0) :
    file.offset + moved ≤ content.length := by
  have nonempty : label.call.iov ≠ [] := by
    intro empty
    rw [empty, List.sum_nil] at bound
    omega
  have fits := inside file held nonempty
  omega

/-- A range of zeros is zeros. -/
theorem slice_zeros
    {size offset count : Nat}
    (within : count ≠ 0 → offset + count ≤ size) :
    slice (List.replicate size (0 : Byte)) offset count =
      List.replicate count 0 := by
  rw [slice_replicate]
  by_cases nonzero : count = 0
  · rw [nonzero, Nat.zero_min]
  · have fits := within nonzero
    rw [Nat.min_eq_left (by omega)]

/-- What a call inside the content returns to a reader. -/
theorem Reader.runs
    {content : Bytes} {converted : Bool} {label : Label} {file : OpenFile}
    {ret : Int} {data : Bytes}
    (reader : Reader platform.libs fd content converted sys)
    (held : sys.proc.fds fd = some file)
    (inside : Inside fd content sys label)
    (ran :
      (label.call.program fd).run (kernel platform) sys label.choices =
        some ((ret, data), later)) :
    Moved sys later fd file ∧
      ((ret < 0 ∧
          ∀ moved, granted label.call.iov label.choices = some moved →
            moved = 0) ∨
        (0 ≤ ret ∧
          ∃ moved, granted label.call.iov label.choices = some moved ∧
            moved ≤ label.call.iov.sum ∧
              data =
                slice
                  (if converted then List.replicate content.length 0
                    else content)
                  file.offset moved)) := by
  rcases reader.opened with ⟨file', held', readable, node⟩
  rw [held] at held'
  cases held'
  have fits := inside file held
  apply run_program ⟨held, readable, node⟩ _ ran
  cases converted with
  | true =>
      rw [if_pos rfl, List.length_replicate]
      exact fits
  | false => exact fits

/-- One call agrees exactly if the file is plain or blank where it reads. -/
theorem agrees_iff
    {content : Bytes} {converted : Bool} {dstlen : Int} {label : Label}
    (reader : Reader platform.libs fd content converted sys)
    (inside : Inside fd content sys label)
    (stepped : step platform fd sys label = some later) :
    Agrees platform dstlen fd sys label ↔
      converted = false ∨ Blank platform.libs fd content sys label := by
  rcases Option.map_eq_some_iff.mp stepped with
    ⟨⟨⟨ret, data⟩, after⟩, ran, rfl⟩
  rcases reader.opened with ⟨file, held, readable, node⟩
  rcases reader.runs held inside ran with ⟨_, outcome⟩
  cases converted with
  | false =>
      apply iff_of_true _ (Or.inl rfl)
      intro ret' data' later' file' ran' nonnegative held'
      rw [held] at held'
      cases held'
      cases ran.symm.trans ran'
      rcases outcome with ⟨negative, _⟩ | ⟨_, moved, _, _, rfl⟩
      · omega
      · exact
          ⟨_,
            run_dzfile_pread_plain ⟨held, readable, node⟩ reader.mapped
              platform.libs dstlen moved⟩
  | true =>
      rcases reader.mapped with ⟨dzfd, image, mapped, positive, stored, holds⟩
      simp only [Bool.true_eq_false, false_or]
      have within :
          ∀ moved, moved ≤ label.call.iov.sum → moved ≠ 0 →
            file.offset + moved ≤ content.length :=
        fun _ => inside.ends held
      constructor
      · intro agrees file' count held' allowed
        rw [held] at held'
        cases held'
        rcases outcome with ⟨_, none⟩ | ⟨nonnegative, moved, same, bound, rfl⟩
        · have nothing := none count allowed
          subst nothing
          exact ⟨fun position after before => by omega, by simp⟩
        · rw [allowed] at same
          cases same
          have answered := agrees _ _ _ _ ran nonnegative held
          rw [if_pos rfl, slice_zeros (within count bound),
            List.length_replicate,
            run_dzfile_pread_mapped mapped positive stored] at answered
          exact
            (h5fd_pread_zeros_iff holds dstlen (within count bound)).mp
              answered
      · intro blank ret' data' later' file' ran' nonnegative held'
        rw [held] at held'
        cases held'
        cases ran.symm.trans ran'
        rcases outcome with ⟨negative, _⟩ | ⟨_, moved, allowed, bound, rfl⟩
        · omega
        · have fetched :=
            (h5fd_pread_zeros_iff holds dstlen (within moved bound)).mpr
              (blank file moved held allowed)
          rw [if_pos rfl, slice_zeros (within moved bound),
            List.length_replicate,
            run_dzfile_pread_mapped mapped positive stored]
          exact fetched

end Calls

/-! ## A converted file -/

/-- The image of a file that holds the byte 7. -/
def imageSeven : H5Image where
  datasets := [(.algorithm, [122, 115, 116, 100, 32, 49]), (.block 0, [40, 7])]
  writer := false
  closed := true

theorem holds_imageSeven : Holds storingLibs imageSeven [7] where
  algorithm := by decide
  block := by
    intro number inside
    have stride := H5_BUFSIZE_eq
    have first : number = 0 := by
      simp only [List.length_singleton] at inside
      by_contra later
      have bound := Nat.le_mul_of_pos_left H5_BUFSIZE (by omega : 0 < number)
      omega
    subst first
    have whole : chunk [7] 0 = [7] := by
      simp [chunk, slice, stride]
    rw [whole]
    rfl

/-- `/f` after its conversion. -/
def convertedF : Sys :=
  { Sys.initial with
    fs :=
      (Sys.initial.fs.link ['/', 'f'] (.file [0])).link
        ['/', '.', 'f', '.', 'D', 'Z', 'F'] (.image imageSeven) }

theorem stored_convertedF :
    Stored storingLibs convertedF.fs ['/', 'f'] [7] true :=
  .converted 0 1 ['/', '.', 'f', '.', 'D', 'Z', 'F'] imageSeven rfl rfl
    (by decide) rfl rfl holds_imageSeven

/-- `/f` opened for reading as descriptor 3. -/
def openedF : Sys :=
  { convertedF with
    proc :=
      ((Process.empty.setHandle 1 (some ⟨1, false⟩)).setFd 3
        (some ⟨0, 0, O_RDONLY⟩)).setMap 3 (some ⟨3, 1⟩) }

theorem openedF_opened :
    (dzfile_open ['/', 'f'] O_RDONLY).run (kernel storingPlatform) convertedF
        [.ok 0, .ok 1, .ok 0, .ok 3, .ok 0] =
      some (3, openedF) :=
  rfl

/-- `dzfile_read(3, buf, 1)`. -/
def readOne : List Label :=
  [⟨.dzfile_read 1, [.ok 1]⟩]

theorem inside_readOne :
    Transition.Along (step storingPlatform 3) (Inside 3 [7]) openedF
      readOne := by
  refine ⟨?_, fun _ _ => trivial⟩
  intro file held _
  cases held
  decide

theorem readOne_runs :
    ∃ final,
      Transition.run (step storingPlatform 3) openedF readOne =
        some final :=
  ⟨_, rfl⟩

end DZFile.Sequential
