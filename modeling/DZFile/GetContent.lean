import DZFile.Get
import DZFile.Pread
import DZFile.Library.BoundedCalls

/-!
# The content a get delivers

A request of `BUFLEN` bytes at a multiple of `BUFLEN` never crosses the end of
a block, for the stride is a multiple of `BUFLEN`.  So a request that delivers
anything ends inside a block or at its end, and the only read that can report
the missing block behind a file of full blocks is the one at the very end of
the file.  By then everything has been written, and the loop takes the error
for the end.

Each round delivers at least one byte, whatever the destination does with it,
so the loop comes to its end.
-/

namespace DZFile.GetContent

open DZFile.ByteSeq
open DZFile.Interaction
open DZFile.BoundedCalls
open DZFile.Names
open DZFile.Codec
open DZFile.Image
open DZFile.Kernel
open DZFile.Api
open DZFile.Pread
open DZFile.Get

/-! ## Requests -/

theorem BUFLEN_pos : 0 < BUFLEN := by
  decide

/-- Eight requests make a block. -/
theorem stride_eq : H5_BUFSIZE = 8 * BUFLEN := by
  rw [H5_BUFSIZE_eq]
  decide

/-- What a request at an offset of the content can return. -/
inductive Request
    (content : Bytes) (total : Nat) (refusable : Prop) :
    PreadResult → Prop where
  | data (copied : Bytes) (nonempty : copied ≠ [])
      (short : copied.length ≤ BUFLEN)
      (here : copied = slice content total copied.length) :
      Request content total refusable
        (.returned (copied.length : Int) copied)
  | ended (ret : Int) (copied : Bytes) (whole : total = content.length)
      (negative : -1 ≤ ret) (nothing : ret ≤ 0) :
      Request content total refusable (.returned ret copied)
  | refused (copied : Bytes) (reason : refusable) :
      Request content total refusable (.returned (-1) copied)

theorem Request.mono
    {content : Bytes} {total : Nat} {refusable fatal : Prop}
    {result : PreadResult} (request : Request content total refusable result)
    (implies : refusable → fatal) :
    Request content total fatal result := by
  cases request with
  | data copied nonempty short here =>
      exact Request.data copied nonempty short here
  | ended ret copied whole negative nothing =>
      exact Request.ended ret copied whole negative nothing
  | refused copied refusable =>
      exact Request.refused copied (implies refusable)

theorem Request.returns
    {content : Bytes} {total : Nat} {refusable : Prop}
    {result : PreadResult}
    (request : Request content total refusable result) :
    ∃ ret copied, result = .returned ret copied := by
  cases request with
  | data copied nonempty short here => exact ⟨_, copied, rfl⟩
  | ended ret copied whole negative nothing => exact ⟨ret, copied, rfl⟩
  | refused copied reason => exact ⟨_, copied, rfl⟩

/-- The offsets at which an image is asked. -/
def Aligned (content : Bytes) (total : Nat) : Prop :=
  BUFLEN ∣ total ∨ total = content.length

section Images

variable
    {libs : Libs} {image : H5Image} {content : Bytes} {dstlen : Int}
    {total : Nat}

/--
A request that starts in front of the end and goes beyond it ends inside a
block: the end is no multiple of the stride.
-/
theorem not_dvd_of_inside
    (aligned : Aligned content total) (inside : total < content.length)
    (beyond : content.length < total + BUFLEN) :
    ¬ H5_BUFSIZE ∣ content.length := by
  rw [stride_eq]
  rintro ⟨blocks, length⟩
  rcases aligned with ⟨requests, start⟩ | atEnd
  · rw [length, start] at inside beyond
    have before : requests < 8 * blocks := by
      apply Nat.lt_of_mul_lt_mul_left (a := BUFLEN)
      calc
        BUFLEN * requests < 8 * BUFLEN * blocks := inside
        _ = BUFLEN * (8 * blocks) := by ring
    apply Nat.not_le_of_lt beyond
    calc
      BUFLEN * requests + BUFLEN = BUFLEN * (requests + 1) := by ring
      _ ≤ BUFLEN * (8 * blocks) := Nat.mul_le_mul_left _ before
      _ = 8 * BUFLEN * blocks := by ring
  · omega

/-- A request inside the content or up to its end is answered. -/
theorem request_of_wellFormed
    (wellFormed : WellFormed libs image dstlen content)
    (small : content.length < 2147483648)
    (aligned : Aligned content total) (within : total ≤ content.length)
    (refusable : Prop) :
    Request content total refusable
        (h5fd_pread libs image dstlen BUFLEN total) ∧
      ∀ copied,
        h5fd_pread libs image dstlen BUFLEN total =
            .returned (copied.length : Int) copied →
          Aligned content (total + copied.length) := by
  have positive := BUFLEN_pos
  by_cases full : total + BUFLEN ≤ content.length
  · have length : (slice content total BUFLEN).length = BUFLEN := by
      rw [length_slice]
      omega
    have result :
        h5fd_pread libs image dstlen BUFLEN total =
          .returned ((slice content total BUFLEN).length : Int)
            (slice content total BUFLEN) := by
      rw [length]
      exact wellFormed.toReadable.pread (Or.inr (by omega)) full
    rw [result]
    constructor
    · apply Request.data
      · intro empty
        rw [empty, List.length_nil] at length
        omega
      · exact Nat.le_of_eq length
      · rw [length]
    · intro copied same
      injection same with _ same
      rw [← same, length]
      left
      rcases aligned with multiple | atEnd
      · exact (Nat.dvd_add_right multiple).mpr (Nat.dvd_refl _)
      · omega
  · have result := wellFormed.pread_beyond small within (Nat.lt_of_not_le full)
    rcases Nat.lt_or_eq_of_le within with inside | atEnd
    · have unaligned := not_dvd_of_inside aligned inside (Nat.lt_of_not_le full)
      rw [if_neg unaligned, ← List.length_drop] at result
      have length := List.length_drop (i := total) (l := content)
      rw [result]
      constructor
      · apply Request.data
        · intro empty
          rw [empty, List.length_nil] at length
          omega
        · omega
        · rw [slice, List.take_length]
      · intro copied same
        injection same with _ same
        rw [← same, length]
        right
        omega
    · rw [result]
      constructor
      · apply Request.ended _ _ atEnd
        · split <;> omega
        · split <;> omega
      · intro copied same
        injection same with _ same
        rw [← same, List.length_drop]
        right
        omega

end Images

/-! ## The condition of the loop -/

/-- A source that holds the content: a plain file, or a well-formed image. -/
inductive Source
    (libs : Libs) (dstlen : Nat → Int) (fd : Int) (content : Bytes)
    (sys : Sys) : Prop where
  | plain (file : OpenFile) (unmapped : sys.proc.h5fdmap fd = none)
      (held : sys.proc.fds fd = some file)
      (readable : file.readable = true)
      (node : sys.fs.node file.ino = .file content)
  | image (dzfd : Dzfd) (handle : H5Handle) (stored : H5Image)
      (mapped : sys.proc.h5fdmap fd = some dzfd) (positive : 0 < dzfd.h5fd)
      (held : sys.proc.handles dzfd.h5fd = some handle)
      (node : sys.fs.node handle.ino = .image stored)
      (wellFormed : ∀ total, WellFormed libs stored (dstlen total) content)

/-- The destination is open for writing, and not for appending. -/
structure Destination (dstfd : Int) (dst : Ino) (proc : Process) : Prop where
  held :
    ∃ file,
      proc.fds dstfd = some file ∧ file.ino = dst ∧
        file.writable = true ∧ hasAppend file.flags = false

/--
The read of a plain file is not refused, and a write takes all it is given.
-/
def granted (choice : Choice) : Op → Bool
  | .pread _ _ _ => !choice.fails
  | .pwrite _ data _ =>
      match choice with
      | .ok limit => data.length ≤ limit
      | .fail _ => false
  | _ => true

theorem granted_pwrite
    {choice : Choice} {fd offset : Int} {data : Bytes}
    (grants : granted choice (.pwrite fd data offset) = true) :
    ∃ limit, choice = .ok limit ∧ data.length ≤ limit := by
  cases choice with
  | ok limit => exact ⟨limit, rfl, of_decide_eq_true grants⟩
  | fail errno => cases grants

/--
What holds at the head of the loop.  `calm` says that the calls so far have
been granted.
-/
structure Copying
    (calm : Prop) (libs : Libs) (dstlen : Nat → Int) (content : Bytes)
    (dst : Ino) (transfer : Transfer) (sys : Sys) : Prop where
  source : Source libs dstlen transfer.fd content sys
  destination : Destination transfer.dstfd dst sys.proc
  within : transfer.total_bytes ≤ content.length
  aligned :
    sys.proc.h5fdmap transfer.fd ≠ none →
      Aligned content transfer.total_bytes
  apart :
    sys.proc.h5fdmap transfer.fd = none →
      ∀ file, sys.proc.fds transfer.fd = some file → file.ino = dst →
        content = []
  node :
    ∃ now,
      sys.fs.node dst = .file now ∧
        (calm → now = content.take transfer.total_bytes)

/-- What is there when a get returns. -/
def Delivered
    (calm : Prop) (content : Bytes) (dst : Ino) (ret : Int) (_left : Nat)
    (sys : Sys) : Prop :=
  ret = 0 ∧ (calm → sys.fs.node dst = .file content)

/-- The budget that is left at the head of the loop. -/
def Entered
    (calm : Prop) (libs : Libs) (dstlen : Nat → Int) (content : Bytes)
    (dst : Ino) (transfer : Transfer) (calls : Nat) (sys : Sys) : Prop :=
  Copying calm libs dstlen content dst transfer sys ∧
    3 * (content.length - transfer.total_bytes) + 6 ≤ calls

section Copies

variable
    {calm : Prop} {platform : Platform} {dstlen : Nat → Int}
    {content : Bytes} {dst : Ino} {transfer : Transfer} {sys later : Sys}
    {calls : Nat} {fd : Int}

/-- Every call is answered, and while it is calm it is granted. -/
abbrev Copies
    (calm : Prop) (platform : Platform) (dstlen : Nat → Int)
    (content : Bytes) (dst : Ino) (program : GetCall) (calls : Nat)
    (sys : Sys) : Prop :=
  Within
    (Answers (kernel platform) fun _ choice op =>
        calm → granted choice op)
    (Sum.elim (Entered calm platform.libs dstlen content dst)
      (Delivered calm content dst))
    program calls sys

/-! ### The way out -/

/-- A file is not an image that a handle could release. -/
theorem node_released
    {handle : H5Handle} {success : Bool} {now : Bytes}
    (node : sys.fs.node dst = .file now) :
    (sys.released handle success).node dst = .file now := by
  unfold Sys.released
  split
  · rename_i image _ stored
    have other : dst ≠ handle.ino := by
      rintro rfl
      rw [node] at stored
      cases stored
    rw [FileSystem.node_put, Function.update_of_ne other]
    exact node
  · exact node

/-- What a call of `dzfile_close` leaves of a file. -/
theorem within_closeFd
    {now : Bytes} (node : sys.fs.node dst = .file now)
    (whole : calm → now = content) (enough : 1 ≤ calls) :
    Copies calm platform dstlen content dst
      (closeFd fd >>= fun _ => .ret (.inr 0)) calls sys := by
  apply Within.call enough
  rintro done later ⟨choice, _, called⟩
  have same := Sys.close_eq_some called
  have delivered :
      ∀ left,
        Copies calm platform dstlen content dst (.ret (.inr 0)) left
          later := by
    intro left
    refine ⟨rfl, ?_⟩
    intro granted
    rw [same, ← whole granted]
    exact node
  cases done with
  | ok done => exact delivered _
  | error errno => exact delivered _

/-- The source is closed in at most four calls. -/
theorem within_out
    {now : Bytes} (node : sys.fs.node dst = .file now)
    (whole : calm → now = content) (enough : 4 ≤ calls) :
    Copies calm platform dstlen content dst (out fd) calls sys := by
  unfold out
  split
  · apply Within.call (by omega)
    rintro found later ⟨choice, _, looked⟩
    cases looked
    cases mapped : sys.proc.h5fdmap fd with
    | none =>
        exact within_closeFd node whole (by omega)
    | some dzfd =>
        apply Within.call (by omega)
        rintro closed released ⟨choice', _, called⟩
        have node' : released.fs.node dst = .file now := by
          rcases Sys.h5fclose_eq_some called with
            ⟨_, rfl⟩ | ⟨handle, _, rfl⟩
          · exact node
          · exact node_released node
        apply Within.call (by omega)
        rintro removed unmapped ⟨choice'', _, forgot⟩
        cases forgot
        exact within_closeFd node' whole (by omega)
  · refine ⟨rfl, ?_⟩
    intro granted
    rw [← whole granted]
    exact node

/-! ### The body -/

/-- A read into the start of the buffer is all that is written. -/
theorem take_filled (copied : Bytes) :
    (filled copied).take copied.length = copied := by
  rw [filled, List.take_left]

/-- A source that is not the destination survives a write to it. -/
theorem Source.written
    (source : Source platform.libs dstlen fd content sys)
    {now after : Bytes} (node : sys.fs.node dst = .file now)
    (nonempty : content ≠ [])
    (apart :
      sys.proc.h5fdmap fd = none →
        ∀ file, sys.proc.fds fd = some file → file.ino = dst →
          content = [])
    (fs : later.fs = sys.fs.put dst (.file after))
    (proc : later.proc = sys.proc) :
    Source platform.libs dstlen fd content later := by
  cases source with
  | plain file unmapped held readable stored =>
      have other : file.ino ≠ dst := by
        intro same
        exact nonempty (apart unmapped file held same)
      apply Source.plain file
      · rw [proc]
        exact unmapped
      · rw [proc]
        exact held
      · exact readable
      · rw [fs, FileSystem.node_put, Function.update_of_ne other]
        exact stored
  | image dzfd handle image mapped positive held stored wellFormed =>
      have other : handle.ino ≠ dst := by
        rintro rfl
        rw [node] at stored
        cases stored
      apply Source.image dzfd handle image
      · rw [proc]
        exact mapped
      · exact positive
      · rw [proc]
        exact held
      · rw [fs, FileSystem.node_put, Function.update_of_ne other]
        exact stored
      · exact wellFormed

/-- The condition after a chunk has been written to the destination. -/
theorem Copying.written
    (copying : Copying calm platform.libs dstlen content dst transfer sys)
    {copied patch now : Bytes} (nonempty : copied ≠ [])
    (here : copied = slice content transfer.total_bytes copied.length)
    (inside : transfer.total_bytes + copied.length ≤ content.length)
    (node : sys.fs.node dst = .file now)
    (fs :
      later.fs =
        sys.fs.put dst (.file (overwrite 0 now transfer.total_bytes patch)))
    (proc : later.proc = sys.proc) (whole : calm → patch = copied)
    (aligned :
      sys.proc.h5fdmap transfer.fd ≠ none →
        Aligned content (transfer.total_bytes + copied.length)) :
    Copying calm platform.libs dstlen content dst
      { transfer with
        total_bytes := transfer.total_bytes + copied.length }
      later where
  source := by
    apply copying.source.written node _ copying.apart fs proc
    rintro rfl
    have positive := List.length_pos_of_ne_nil nonempty
    rw [List.length_nil] at inside
    omega
  destination := by
    rw [proc]
    exact copying.destination
  within := inside
  aligned := by
    rw [proc]
    exact aligned
  apart := by
    rw [proc]
    exact copying.apart
  node := by
    rcases copying.node with ⟨now', node', soFar⟩
    rw [node] at node'
    cases node'
    rw [fs, FileSystem.node_put, Function.update_self]
    refine ⟨_, rfl, ?_⟩
    intro still
    rw [whole still, soFar still, here,
      overwrite_take 0 content copying.within, ← here]

/-- A chunk that has been read is written behind those before it. -/
theorem copies_writeChunk
    (copying : Copying calm platform.libs dstlen content dst transfer sys)
    {copied : Bytes} (nonempty : copied ≠ [])
    (short : copied.length ≤ BUFLEN)
    (here : copied = slice content transfer.total_bytes copied.length)
    (aligned :
      sys.proc.h5fdmap transfer.fd ≠ none →
        Aligned content (transfer.total_bytes + copied.length))
    (enough :
      3 * (content.length - transfer.total_bytes) + 4 ≤ calls) :
    Copies calm platform dstlen content dst
      (writeChunk transfer (filled copied) copied.length) calls sys := by
  have positive := List.length_pos_of_ne_nil nonempty
  have inside :
      transfer.total_bytes + copied.length ≤ content.length := by
    have length := congrArg List.length here
    rw [length_slice] at length
    omega
  rcases copying.node with ⟨now, node, _⟩
  rcases copying.destination.held with
    ⟨file, held, rfl, writable, notAppending⟩
  have landing :
      sys.landing platform file transfer.total_bytes =
        transfer.total_bytes := by
    rw [Sys.landing, notAppending, if_neg Bool.false_ne_true]
  unfold writeChunk
  rw [take_filled]
  apply Within.call (by omega)
  rintro written later ⟨choice, grants, called⟩
  change
    sys.pwrite platform choice transfer.dstfd copied
        (transfer.total_bytes : Int) =
      some (written, later) at called
  show
    Copies calm platform dstlen content file.ino
      (if wrap32 (returnCount written) < 0 then out transfer.fd
        else
          .ret
            (.inl
              { transfer with
                total_bytes := transfer.total_bytes + copied.length }))
      _ later
  rcases Sys.pwrite_eq_some called with
    ⟨errno, failed, same⟩ | ⟨limit, file', chosen, held', took, fs, proc⟩
  · have refused : calm → False := by
      intro still
      rcases granted_pwrite (grants still) with ⟨limit, same, _⟩
      rw [same, Sys.pwrite_granted held writable, failed] at called
      injection called with called
      injection called with called
      injection called
    have negative : wrap32 (returnCount written) < 0 := by
      rw [failed, returnCount_error, wrap32_eq_self (by omega) (by omega)]
      omega
    rw [if_pos negative, same]
    exact within_out node (fun still => (refused still).elim) (by omega)
  · rw [held] at held'
    cases held'
    have nonnegative : ¬ wrap32 (returnCount written) < 0 := by
      have most : BUFLEN = 524288 := rfl
      rw [took, returnCount_ok, wrap32_eq_self (by omega) (by omega)]
      omega
    rw [if_neg nonnegative]
    rw [Int.toNat_natCast, landing, Sys.writeAt, node, Node.bytes] at fs
    constructor
    · apply
        copying.written nonempty here inside node fs proc _ aligned
      intro still
      rcases granted_pwrite (grants still) with ⟨most, same, whole⟩
      rw [chosen] at same
      cases same
      exact List.take_of_length_le whole
    · show
        3 * (content.length - (transfer.total_bytes + copied.length)) + 6 ≤ _
      omega

/-- A read of the plain source that is not refused is a request. -/
theorem request_of_pread
    {file : OpenFile} {total : Nat} {choice : Choice}
    {result : Except Errno Bytes}
    (held : sys.proc.fds fd = some file) (readable : file.readable = true)
    (node : sys.fs.node file.ino = .file content)
    (within : total ≤ content.length)
    (called :
      sys.pread platform choice fd BUFLEN (total : Int) =
        some (result, later)) :
    later = sys ∧
      Request content total (choice.fails = true)
        (.returned (returnRead result).1 (returnRead result).2) := by
  cases choice with
  | fail errno =>
      cases called
      exact ⟨rfl, Request.refused [] rfl⟩
  | ok limit =>
      rw [Sys.pread_file held readable node] at called
      rcases Option.map_eq_some_iff.mp called with
        ⟨data, transferred, answer⟩
      cases answer
      unfold Sys.transfer at transferred
      split at transferred
      · cases transferred
      · rename_i allowed
        cases transferred
        constructor
        · rfl
        · have positive := BUFLEN_pos
          have length := length_slice content total (min limit BUFLEN)
          by_cases empty : slice content total (min limit BUFLEN) = []
          · have atEnd : total = content.length := by
              by_contra before
              apply allowed
              rw [empty, List.length_nil] at length
              constructor
              · omega
              · intro nothing
                have all := length_slice content total BUFLEN
                rw [nothing, List.length_nil] at all
                omega
            rw [empty]
            exact Request.ended _ _ atEnd (by decide) (by decide)
          · apply Request.data _ empty
            · rw [length]
              omega
            · rw [slice_length_slice]

/-- What the loop does with the answer to a request. -/
theorem copies_answer
    (copying : Copying calm platform.libs dstlen content dst transfer sys)
    {ret : Int} {copied : Bytes}
    (request :
      Request content transfer.total_bytes (calm → False)
        (.returned ret copied))
    (aligned :
      sys.proc.h5fdmap transfer.fd ≠ none →
        ret = (copied.length : Int) →
          Aligned content (transfer.total_bytes + copied.length))
    (enough :
      3 * (content.length - transfer.total_bytes) + 4 ≤ calls) :
    Copies calm platform dstlen content dst
      (if wrap32 ret < 0 then out transfer.fd
        else if wrap32 ret = 0 then out transfer.fd
        else writeChunk transfer (filled copied) (wrap32 ret).toNat)
      calls sys := by
  rcases copying.node with ⟨now, node, soFar⟩
  cases request with
  | data _ nonempty short here =>
      have positive := List.length_pos_of_ne_nil nonempty
      have most : BUFLEN = 524288 := rfl
      rw [wrap32_eq_self (by omega) (by omega), if_neg (by omega),
        if_neg (by omega), Int.toNat_natCast]
      exact
        copies_writeChunk copying nonempty short here
          (fun mapped => aligned mapped rfl) enough
  | ended _ _ whole negative nothing =>
      have left :
          Copies calm platform dstlen content dst (out transfer.fd) calls
            sys := by
        apply within_out node
        · intro still
          rw [soFar still, whole, List.take_length]
        · omega
      rw [wrap32_eq_self (by omega) (by omega)]
      split
      · exact left
      · rw [if_pos (by omega)]
        exact left
  | refused _ refusable =>
      rw [wrap32_eq_self (by omega) (by omega), if_pos (by omega)]
      exact
        within_out node (fun still => (refusable still).elim) (by omega)

/-- The read of a round takes two calls and answers the request. -/
theorem within_dzfile_pread
    (small : content.length < 2147483648)
    (copying : Copying calm platform.libs dstlen content dst transfer sys)
    {post : PreadResult → Nat → Sys → Prop} (enough : 2 ≤ calls)
    (answered :
      ∀ result,
        Request content transfer.total_bytes (calm → False) result →
          (∀ copied,
            sys.proc.h5fdmap transfer.fd ≠ none →
              result = .returned (copied.length : Int) copied →
                Aligned content (transfer.total_bytes + copied.length)) →
            post result (calls - 2) sys) :
    Within
      (Answers (kernel platform) fun _ choice op =>
        calm → granted choice op)
      post
      (dzfile_pread platform.libs (dstlen transfer.total_bytes) transfer.fd
        BUFLEN transfer.total_bytes)
      calls sys := by
  unfold dzfile_pread
  apply Within.call (by omega)
  rintro found later ⟨choice, _, looked⟩
  cases looked
  cases copying.source with
  | plain file unmapped held readable node =>
      rw [unmapped]
      apply Within.call (by omega)
      rintro result later ⟨choice', grants, called⟩
      have refusable : choice'.fails = true → calm → False := by
        intro fails still
        have grants : (!choice'.fails) = true := grants still
        rw [fails] at grants
        cases grants
      rcases request_of_pread held readable node copying.within called with
        ⟨rfl, request⟩
      apply answered
      · exact request.mono refusable
      · intro copied mapped
        exact (mapped unmapped).elim
  | image dzfd handle stored mapped positive held node wellFormed =>
      have opened : ¬ dzfd.h5fd ≤ 0 := Int.not_le.mpr positive
      have image : sys.imageOf dzfd.h5fd = some stored := by
        rw [Sys.imageOf, held, Option.bind_some, node]
      have known : sys.proc.h5fdmap transfer.fd ≠ none := by
        rw [mapped]
        exact Option.some_ne_none dzfd
      rcases
        request_of_wellFormed (wellFormed transfer.total_bytes) small
          (copying.aligned known) copying.within (calm → False) with
        ⟨request, next⟩
      rw [mapped]
      show
        Within _ post (if dzfd.h5fd ≤ 0 then _ else _) _ sys
      rw [if_neg opened]
      apply Within.call (by omega)
      rintro answer later ⟨choice', _, looked⟩
      cases looked
      rw [image]
      apply answered _ request
      intro copied _
      exact next copied

/-- A round of the loop stays within the budget. -/
theorem copies_copy
    (small : content.length < 2147483648)
    (entered :
      Entered calm platform.libs dstlen content dst transfer calls sys) :
    Copies calm platform dstlen content dst
      (copy platform.libs dstlen transfer) calls sys := by
  rcases entered with ⟨copying, enough⟩
  apply Within.bind
  apply within_dzfile_pread small copying (by omega)
  intro result request aligned
  rcases request.returns with ⟨ret, copied, rfl⟩
  apply copies_answer copying request
  · intro mapped whole
    apply aligned copied mapped
    rw [whole]
  · omega

end Copies

/-! ## The loop -/

section Loop

variable
    {platform : Platform} {dstlen : Nat → Int} {content : Bytes}
    {before sys : Sys} {fd dstfd : Int} {dst_file : CString}
    {number : Choice}

/-- The next call of the loop is granted. -/
abbrev Undisturbed
    (libs : Libs) (dstlen : Nat → Int) (state : Sys × GetCall)
    (choice : Choice) : Prop :=
  Meets (fun _ choice op => granted choice op) (copy libs dstlen) state
    choice

/-- A get that enters its loop has just opened the destination. -/
theorem opened_of_enters
    {src_file : CString} {choices : List Choice} {transfer : Transfer}
    (ran :
      (dzfile_get src_file dst_file).run (kernel platform) before choices =
        some (.inl transfer, sys)) :
    0 < transfer.fd ∧ transfer.total_bytes = 0 ∧
      ∃ (middle : Sys) (choice : Choice) (opened : Except Errno Int),
        middle.openFile choice dst_file (O_WRONLY + O_TRUNC + O_CREAT) =
          some (opened, sys) ∧
          transfer.dstfd = returnFd opened := by
  rcases Prog.run_bind_eq_some.mp ran with ⟨_, _, ret, _, _, _, ran⟩
  split at ran
  · rcases Prog.run_ret_eq_some.mp ran with ⟨_, impossible, _⟩
    cases impossible
  · rcases Prog.run_bind_eq_some.mp ran with ⟨_, _, fd, _, _, _, ran⟩
    split at ran
    · rcases Prog.run_ret_eq_some.mp ran with ⟨_, impossible, _⟩
      cases impossible
    · rename_i positive
      rcases Prog.run_call_eq_some.mp ran with
        ⟨choice, _, opened, later, _, answered, ran⟩
      rcases Prog.run_ret_eq_some.mp ran with ⟨_, entered, same⟩
      cases entered
      cases same
      exact
        ⟨Int.not_le.mp positive, rfl, _, choice, opened, answered, rfl⟩

/-- What the source and the opened destination give the loop. -/
theorem entered_of_opened
    (opened :
      before.openFile number dst_file (O_WRONLY + O_TRUNC + O_CREAT) =
        some (.ok dstfd, sys))
    (source : Source platform.libs dstlen fd content sys) :
    ∃ dst,
      sys.fs.entry dst_file = some dst ∧
        ∀ calm,
          Entered calm platform.libs dstlen content dst ⟨fd, dstfd, 0⟩
            (3 * content.length + 6) sys := by
  rcases Sys.openFile_emptied (by decide) (by decide) opened with
    ⟨dst, named, empty, held⟩
  have notAppending : hasAppend (O_WRONLY + O_TRUNC + O_CREAT) = false := by
    decide
  have mode : accessMode (O_WRONLY + O_TRUNC + O_CREAT) = O_WRONLY := by
    decide
  have writable :
      OpenFile.writable ⟨dst, 0, O_WRONLY + O_TRUNC + O_CREAT⟩ = true :=
    decide_eq_true (Or.inl mode)
  refine ⟨dst, named, ?_⟩
  intro calm
  constructor
  · exact
      { source := source
        destination := ⟨_, held, rfl, writable, notAppending⟩
        within := Nat.zero_le _
        aligned := by
          intro _
          exact Or.inl (Nat.dvd_zero _)
        apart := by
          intro plain file' held' same
          cases source with
          | plain file unmapped held readable node =>
              rw [held] at held'
              cases held'
              rw [same, empty] at node
              cases node
              rfl
          | image dzfd handle stored mapped _ _ _ _ =>
              rw [plain] at mapped
              cases mapped
        node := ⟨[], empty, fun _ => rfl⟩ }
  · exact Nat.le_refl _

/-- Every call can be granted. -/
theorem answered_of_granted (platform : Platform) (sys : Sys) (op : Op) :
    ∃ choice reply later,
      granted choice op = true ∧
        kernel platform sys choice op = some (reply, later) := by
  cases op with
  | pread fd count offset =>
      refine ⟨.ok count, ?_⟩
      cases held : sys.proc.fds fd with
      | none =>
          simp only [kernel, Sys.pread, held]
          exact ⟨_, _, rfl, rfl⟩
      | some file =>
          simp only [kernel, Sys.pread, held, Sys.transfer_all, Option.map_some]
          repeat' split
          all_goals exact ⟨_, _, rfl, rfl⟩
  | pwrite fd data offset =>
      have grants :
          granted (.ok data.length) (.pwrite fd data offset) = true :=
        decide_eq_true (Nat.le_refl _)
      refine ⟨.ok data.length, ?_⟩
      cases held : sys.proc.fds fd with
      | none =>
          simp only [kernel, Sys.pwrite, held]
          exact ⟨_, _, grants, rfl⟩
      | some file =>
          simp only [kernel, Sys.pwrite, held]
          repeat' split
          all_goals exact ⟨_, _, grants, rfl⟩
  | _ =>
      rcases answered_of_fail platform sys _ with ⟨reply, later, answered⟩
      exact ⟨_, reply, later, rfl, answered⟩

/-- An opened get has a run to its end in which every call is granted. -/
theorem get_completes
    (small : content.length < 2147483648)
    (opened :
      before.openFile number dst_file (O_WRONLY + O_TRUNC + O_CREAT) =
        some (.ok dstfd, sys))
    (source : Source platform.libs dstlen fd content sys) :
    ∃ choices final ret,
      Transition.Along (step platform dstlen)
          (Undisturbed platform.libs dstlen)
          (sys, .ret (.inl ⟨fd, dstfd, 0⟩)) choices ∧
        Transition.run (step platform dstlen)
            (sys, .ret (.inl ⟨fd, dstfd, 0⟩)) choices =
          some final ∧
          final.2 = .ret (.inr ret) := by
  rcases entered_of_opened opened source with ⟨dst, _, entered⟩
  have start :
      Copies True platform dstlen content dst
        (.ret (.inl ⟨fd, dstfd, 0⟩)) (3 * content.length + 6) sys :=
    entered True
  have answering :
      ∀ state op, ∃ choice reply later,
        (True → granted choice op) ∧
          kernel platform state choice op = some (reply, later) := by
    intro state op
    rcases answered_of_granted platform state op with
      ⟨choice, reply, later, grants, answered⟩
    exact ⟨choice, reply, later, fun _ => grants, answered⟩
  rcases
    start.completes (fun _ _ _ entered => copies_copy small entered)
      (fun transfer => ⟨_, _, rfl⟩) answering with
    ⟨choices, final, ret, along, ran, returned⟩
  refine ⟨choices, final, ret, ?_, ran, returned⟩
  apply along.mono
  intro state choice meets op next action
  exact meets op next action trivial

/-- A store of one converted file, a chunk of zeros, that is open. -/
def openZeros : Sys :=
  { Sys.initial with
    fs :=
      Sys.initial.fs.link ['/', '.', 'f', '.', 'D', 'Z', 'F']
        (.image (packedImage (List.replicate 1 zeroChunk)))
    proc :=
      ((Process.empty.setFd 3 (some ⟨0, 0, O_RDONLY⟩)).setHandle 1
        (some ⟨0, false⟩)).setMap 3 (some ⟨3, 1⟩) }

/-- The store after `/d` has been created as the destination. -/
def createdD : Sys :=
  { openZeros with
    fs := openZeros.fs.link ['/', 'd'] (.file [])
    proc :=
      openZeros.proc.setFd 4 (some ⟨1, 0, O_WRONLY + O_TRUNC + O_CREAT⟩) }

/--
The loop comes to its end, whatever the environment answers: it makes at most
so many calls, and as long as it has not returned it makes another one.  If
no read of a plain source is refused and every write takes all it is given,
the destination then holds the content.
-/
theorem get_copies_content
    (small : content.length < 2147483648)
    (opened :
      before.openFile number dst_file (O_WRONLY + O_TRUNC + O_CREAT) =
        some (.ok dstfd, sys))
    (source : Source platform.libs dstlen fd content sys)
    {choices : List Choice} {final : Sys × GetCall}
    (ran :
      Transition.run (step platform dstlen)
          (sys, .ret (.inl ⟨fd, dstfd, 0⟩)) choices =
        some final) :
    choices.length ≤ 3 * content.length + 6 ∧
      ((∃ ret, final.2 = .ret (.inr ret)) ∨
        ∃ choice next, step platform dstlen final choice = some next) ∧
      ∃ dst,
        sys.fs.entry dst_file = some dst ∧
          (Transition.Along (step platform dstlen)
              (Undisturbed platform.libs dstlen)
              (sys, .ret (.inl ⟨fd, dstfd, 0⟩)) choices →
            ∀ ret, final.2 = .ret (.inr ret) →
              final.1.fs.node dst = .file content) := by
  rcases entered_of_opened opened source with ⟨dst, named, entered⟩
  have bodies :
      ∀ calm transfer calls now,
        Entered calm platform.libs dstlen content dst transfer calls now →
          Copies calm platform dstlen content dst
            (copy platform.libs dstlen transfer) calls now := by
    intro calm transfer calls now entered
    exact copies_copy small entered
  have answered :
      Transition.Along (step platform dstlen)
        (Meets (fun _ choice op => False → granted choice op)
          (copy platform.libs dstlen))
        (sys, .ret (.inl ⟨fd, dstfd, 0⟩)) choices := by
    apply Transition.along_of_forall
    intro _ _ _ _ _ _ impossible
    exact impossible.elim
  have start :
      ∀ calm,
        Copies calm platform dstlen content dst
          (.ret (.inl ⟨fd, dstfd, 0⟩)) (3 * content.length + 6) sys :=
    entered
  rcases run_within (bodies False) (start False) answered ran with
    ⟨left, spent, within⟩
  refine ⟨by omega, ?_, dst, named, ?_⟩
  · apply within.continues
    · intro transfer
      exact ⟨_, _, rfl⟩
    · intro state op
      exact ⟨_, answered_of_fail platform state op⟩
  · intro undisturbed ret returned
    have granted :
        Transition.Along (step platform dstlen)
          (Meets (fun _ choice op => True → granted choice op)
            (copy platform.libs dstlen))
          (sys, .ret (.inl ⟨fd, dstfd, 0⟩)) choices := by
      apply undisturbed.mono
      intro state choice met op next action _
      exact met op next action
    rcases run_within (bodies True) (start True) granted ran with
      ⟨_, _, delivered⟩
    rw [returned] at delivered
    exact delivered.2 trivial

/-- The last read of that file reports an error, and all of it is there. -/
theorem get_copies_content_fullBlock :
    h5fd_pread packingLibs (packedImage (List.replicate 1 zeroChunk)) 0 BUFLEN
        (1 * H5_BUFSIZE : Nat) =
      .returned (-1) [] ∧
      ∃ choices final ret dst,
        Transition.run (step packingPlatform fun _ => 0)
            (createdD, .ret (.inl ⟨3, 4, 0⟩)) choices =
          some final ∧
          choices.length ≤ 3 * (1 * H5_BUFSIZE) + 6 ∧
            final.2 = .ret (.inr ret) ∧
              createdD.fs.entry ['/', 'd'] = some dst ∧
                final.1.fs.node dst =
                  .file (List.replicate (1 * H5_BUFSIZE) 0) := by
  have stride := H5_BUFSIZE_eq
  have wellFormed := wellFormed_zeroChunks 0 (by decide : 1 ≤ 2147483648)
  have length :
      (List.replicate (1 * H5_BUFSIZE) (0 : Byte)).length =
        1 * H5_BUFSIZE :=
    List.length_replicate
  generalize List.replicate (1 * H5_BUFSIZE) (0 : Byte) = content at *
  have small : content.length < 2147483648 := by omega
  constructor
  · have positive := BUFLEN_pos
    rw [← length, wellFormed.pread_beyond small (Nat.le_refl _) (by omega),
      if_pos (by rw [length]; exact Nat.dvd_mul_left _ _), List.drop_length]
  · have opened :
        openZeros.openFile (.ok 4) ['/', 'd'] (O_WRONLY + O_TRUNC + O_CREAT) =
          some (.ok 4, createdD) :=
      rfl
    have source :
        Source packingPlatform.libs (fun _ => 0) 3 content createdD :=
      Source.image ⟨3, 1⟩ ⟨0, false⟩ _ rfl (by decide) rfl rfl
        fun _ => wellFormed
    rcases get_completes small opened source with
      ⟨choices, final, ret, undisturbed, ran, returned⟩
    rcases get_copies_content small opened source ran with
      ⟨short, _, dst, named, delivered⟩
    rw [length] at short
    exact
      ⟨choices, final, ret, dst, ran, short, returned, named,
        delivered undisturbed ret returned⟩

end Loop

end DZFile.GetContent
