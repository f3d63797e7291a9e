import DZFile.Opening
import DZFile.Sharing
import DZFile.Staging
import DZFile.Library.Transition

/-!
# Writing to a file while it is converted

A client writes through descriptors of the source while the converter runs.
The state carries, besides the world, what the converter has read so far, the
last acknowledged byte of every position, and whether that byte was written
in time: before the converter had passed the position, or with the byte that
the converter had already copied.

The converter neither locks nor looks at the source again, so an acknowledged
byte is in the published image exactly if it was written in time.
-/

namespace DZFile.Writers

open DZFile.ByteSeq
open DZFile.Interaction
open DZFile.Codec
open DZFile.Image
open DZFile.Kernel
open DZFile.Api
open DZFile.Opening
open DZFile.Converter
open DZFile.Staging
open DZFile.Sharing

/-! ## Calls of the client -/

/-- A write call of the client. -/
inductive ClientCall where
  | dzfile_write (fd : Int) (buf : Bytes)
  | dzfile_pwrite (fd : Int) (buf : Bytes) (offset : Int)

namespace ClientCall

/-- The program of a call. -/
def program : ClientCall → Call Int
  | .dzfile_write fd buf => Api.dzfile_write fd buf
  | .dzfile_pwrite fd buf offset => Api.dzfile_pwrite fd buf offset

/-- The buffer of a call. -/
def buf : ClientCall → Bytes
  | .dzfile_write _ buf => buf
  | .dzfile_pwrite _ buf _ => buf

/-- Where the bytes of a call land. -/
def position (platform : Platform) (sys : Sys) : ClientCall → Nat
  | .dzfile_write fd _ =>
      match sys.proc.fds fd with
      | none => 0
      | some file => sys.landing platform file file.offset
  | .dzfile_pwrite fd _ offset =>
      match sys.proc.fds fd with
      | none => 0
      | some file => sys.landing platform file offset.toNat

end ClientCall

/-- Every descriptor refers to the source. -/
def Attached (fds : Int → Option OpenFile) (src : Ino) : Prop :=
  ∀ fd file, fds fd = some file → file.ino = src

/-- A client that opens the source stays attached to it. -/
theorem attached_of_opens
    {path : Names.CString} {flags : Nat} {sys later : Sys} {src : Ino}
    {fd : Int}
    (source : sys.fs.entry path = some src)
    (attached : Attached sys.proc.fds src)
    (opens : Opens path flags sys fd later) :
    Attached later.proc.fds src := by
  have entered :
      ∀ (before : Sys) {after : Sys} {choice : Choice}
        {opened : Except Errno Int},
        before.fs = sys.fs → before.proc.fds = sys.proc.fds →
          before.openFile choice path flags = some (opened, after) →
            Attached after.proc.fds src := by
    intro before after choice opened fs fds called
    cases opened with
    | error errno =>
        rw [Sys.openFile_eq_error called, fds]
        exact attached
    | ok fd =>
        rcases Sys.openFile_eq_some called with
          ⟨number, ino, _, _, _, rfl, created | ⟨found, _⟩⟩
        · rw [fs, source] at created
          cases created.1
        · rw [fs, source] at found
          cases found
          intro other file held
          by_cases same : other = number
          · subst same
            simp only [Process.setFd, Function.update_self,
              Option.some.injEq] at held
            rw [← held]
          · simp only [Process.setFd, Function.update_of_ne same, fds] at held
            exact attached other file held
  cases opens with
  | refused fs fds h5fdmap =>
      rw [fds]
      exact attached
  | visible h5name db choice opened built absent called =>
      exact entered { sys with db := db } rfl rfl called
  | image h5name h5fd fd first second built readOnly present handle called =>
      rcases h5fopen_eq_some handle with
        ⟨none, _⟩ | ⟨number, ino, image, _, _, _, _, _, same⟩
      · cases none
      · rw [same] at called
        have attached' :=
          entered
            { sys with
              proc := sys.proc.setHandle number (some ⟨ino, false⟩) }
            rfl rfl called
        exact attached'

/-- A call writes to the source what it reports, or reports nothing. -/
inductive Wrote
    (platform : Platform) (sys : Sys) (src : Ino) (call : ClientCall) :
    Int → Sys → Prop where
  | refused {later : Sys} (fs : later.fs = sys.fs) :
      Wrote platform sys src call (-1) later
  | moved {later : Sys} (limit : Nat)
      (fs :
        later.fs =
          sys.fs.put src
            (.file
              (overwrite 0 ((sys.fs.node src).bytes platform)
                (call.position platform sys) (call.buf.take limit)))) :
      Wrote platform sys src call (call.buf.take limit).length later

section Calls

variable {platform : Platform} {sys later : Sys} {src : Ino}

/-- Counting changes neither files nor descriptors. -/
theorem run_countWritten
    {count ret : Int} {choices : List Choice}
    (ran :
      (countWritten count).run (kernel platform) sys choices =
        some (ret, later)) :
    ret = count ∧ later.fs = sys.fs ∧ later.proc = sys.proc := by
  unfold countWritten at ran
  split at ran
  · rcases Prog.run_bind_eq_some.mp ran with
      ⟨before, after, _, middle, rfl, added, returned⟩
    rcases Prog.run_ret_eq_some.mp returned with ⟨rfl, rfl, rfl⟩
    rcases Prog.run_call_eq_some.mp added with
      ⟨choice, rest, done, counted, rfl, answered, ended⟩
    rcases Prog.run_ret_eq_some.mp ended with ⟨rfl, rfl, rfl⟩
    cases choice with
    | ok number =>
        cases answered
        exact ⟨rfl, rfl, rfl⟩
    | fail errno =>
        cases answered
        exact ⟨rfl, rfl, rfl⟩
  · rcases Prog.run_ret_eq_some.mp ran with ⟨rfl, rfl, rfl⟩
    exact ⟨rfl, rfl, rfl⟩

/-- A scalar write is its underlying call followed by the counting. -/
theorem run_accounted
    {underlying : Call (Except Errno Nat)} {ret : Int}
    {choices : List Choice}
    (ran :
      (accounted underlying).run (kernel platform) sys choices =
        some (ret, later)) :
    ∃ before result middle,
      underlying.run (kernel platform) sys before = some (result, middle) ∧
        ret = returnCount result ∧
          later.fs = middle.fs ∧ later.proc = middle.proc := by
  rcases Prog.run_bind_eq_some.mp ran with
    ⟨before, after, result, middle, rfl, firstRan, restRan⟩
  rcases run_countWritten restRan with ⟨rfl, fs, proc⟩
  exact ⟨before, result, middle, firstRan, rfl, fs, proc⟩

/-- Every write call of an attached client does what `Wrote` says. -/
theorem wrote_of_run
    {call : ClientCall} {ret : Int} {choices : List Choice}
    (attached : Attached sys.proc.fds src)
    (ran :
      call.program.run (kernel platform) sys choices = some (ret, later)) :
    Wrote platform sys src call ret later ∧ Attached later.proc.fds src := by
  cases call with
  | dzfile_write fd buf =>
      rcases run_accounted ran with
        ⟨before, result, middle, written, rfl, fs, proc⟩
      rcases Prog.run_call_eq_some.mp written with
        ⟨choice, _, _, _, rfl, called, ended⟩
      rcases Prog.run_ret_eq_some.mp ended with ⟨rfl, rfl, rfl⟩
      rcases Sys.write_eq_some called with
        ⟨errno, rfl, rfl⟩ | ⟨limit, file, held, rfl, fs', proc'⟩
      · exact ⟨.refused fs, by rw [proc]; exact attached⟩
      · have here := attached fd file held
        refine ⟨?_, ?_⟩
        · have moved :=
            @Wrote.moved platform sys src (.dzfile_write fd buf) later limit
              (by
                rw [fs, fs', Sys.writeAt, here]
                simp only [ClientCall.position, held, ClientCall.buf])
          simpa [ClientCall.buf] using moved
        · rw [proc, proc']
          intro other opened found
          by_cases same : other = fd
          · subst same
            simp only [Process.setFd, Function.update_self,
              Option.some.injEq] at found
            subst found
            exact here
          · simp only [Process.setFd, Function.update_of_ne same] at found
            exact attached other opened found
  | dzfile_pwrite fd buf offset =>
      rcases run_accounted ran with
        ⟨before, result, middle, written, rfl, fs, proc⟩
      rcases Prog.run_call_eq_some.mp written with
        ⟨choice, _, _, _, rfl, called, ended⟩
      rcases Prog.run_ret_eq_some.mp ended with ⟨rfl, rfl, rfl⟩
      rcases Sys.pwrite_eq_some called with
        ⟨errno, rfl, rfl⟩ | ⟨limit, file, _, held, rfl, fs', proc'⟩
      · exact ⟨.refused fs, by rw [proc]; exact attached⟩
      · have here := attached fd file held
        refine ⟨?_, by rw [proc, proc']; exact attached⟩
        have moved :=
          @Wrote.moved platform sys src (.dzfile_pwrite fd buf offset) later
            limit
            (by
              rw [fs, fs', Sys.writeAt, here]
              simp only [ClientCall.position, held, ClientCall.buf])
        simpa [ClientCall.buf] using moved

end Calls

/-! ## Runs -/

/-- The converter has not met the end of the source. -/
def beforeEnd : Pc → Bool
  | .statImage | .statTemp | .openSource | .createTemp => true
  | .writeHeader _ | .readBlock | .compressBlock _ | .writeBlock _ _ => true
  | _ => false

/-- A converter that has met the end does not read any more. -/
theorem beforeEnd_of_complete {c : Convert} (done : complete c = true) :
    beforeEnd c.pc = false := by
  unfold complete at done
  cases place : c.pc <;> first
    | rfl
    | (rw [place] at done; cases done)

/-- The bytes the converter read between two of its places. -/
def bytesRead (before after : Pc) : Bytes :=
  match before, after with
  | .readBlock, .compressBlock buffer => buffer
  | _, _ => []

/-- A world and what has been read and acknowledged in it. -/
structure Writing where
  world : World
  /-- What the converter has read so far. -/
  copied : Bytes
  /-- The byte of the last successful write to a position. -/
  acknowledged : Nat → Option Byte
  /-- That byte was written in time. -/
  timely : Nat → Bool

namespace Writing

/-- Before any write the content of the source is what counts. -/
def start (world : World) (content : Bytes) : Writing where
  world := world
  copied := []
  acknowledged position := content[position]?
  timely _ := true

/-- A byte that is written now will be, or already is, in the image. -/
def inTime (writing : Writing) (position : Nat) (byte : Option Byte) : Bool :=
  (beforeEnd writing.world.c.pc && writing.copied.length ≤ position) ||
    writing.copied[position]? == byte

/-- The bytes have been written at a position. -/
def acknowledge
    (writing : Writing) (world : World) (start : Nat) (data : Bytes) :
    Writing :=
  { writing with
    world := world
    acknowledged := fun position =>
      if start ≤ position ∧ position < start + data.length then
        data[position - start]?
      else writing.acknowledged position
    timely := fun position =>
      if start ≤ position ∧ position < start + data.length then
        writing.inTime position data[position - start]?
      else writing.timely position }

/-- Nothing is acknowledged without bytes. -/
theorem acknowledge_nil (writing : Writing) (world : World) (start : Nat) :
    writing.acknowledge world start [] = { writing with world := world } := by
  have nothing :
      ∀ position,
        ¬ (start ≤ position ∧ position < start + ([] : Bytes).length) := by
    intro position
    simp only [List.length_nil]
    omega
  simp only [acknowledge, nothing, if_false]

end Writing

/-- A step of the converter, or a whole call of the client. -/
inductive Label where
  | converter (choice : Choice)
  | client (call : ClientCall) (choices : List Choice)

/-- One step of either party. -/
def step (platform : Platform) (writing : Writing) :
    Label → Option Writing
  | .converter choice =>
      (writing.world.convert platform choice).map fun world =>
        { writing with
          world := world
          copied :=
            writing.copied ++ bytesRead writing.world.c.pc world.c.pc }
  | .client call choices =>
      (call.program.run (kernel platform) writing.world.clientSys choices).map
        fun answer =>
          writing.acknowledge (writing.world.ofClient answer.2)
            (call.position platform writing.world.clientSys)
            (call.buf.take answer.1.toNat)

/-! ## The invariant -/

/-- What has not been read yet is in the source, and was written in time. -/
def Ahead (writing : Writing) (content : Bytes) : Prop :=
  beforeEnd writing.world.c.pc = true →
    ∀ position byte, writing.copied.length ≤ position →
      writing.acknowledged position = some byte →
        content[position]? = some byte ∧ writing.timely position = true

/-- What holds along every run. -/
structure Traced
    (platform : Platform) (target : Target) (method : Alg)
    (writing : Writing) (src : Ino) (pieces : List Bytes) : Prop where
  target : writing.world.c.target = target
  method : writing.world.c.method = method
  source : writing.world.fs.entry writing.world.c.target.path = some src
  stage :
    Stage platform writing.world.converterSys writing.world.c src pieces
  copied : writing.copied = pieces.flatten
  attached : Attached writing.world.client.fds src
  ahead :
    ∃ content, writing.world.fs.node src = .file content ∧
      Ahead writing content
  /-- What has been passed is copied exactly if it was written in time. -/
  behind :
    ∀ position byte,
      position < writing.copied.length ∨ complete writing.world.c = true →
        writing.acknowledged position = some byte →
          (writing.copied[position]? = some byte ↔
            writing.timely position = true)

/-- An overwritten content keeps the bytes outside the written range. -/
theorem getElem?_overwrite_outside
    {content data : Bytes} {start position : Nat} {byte : Byte}
    (outside : ¬ (start ≤ position ∧ position < start + data.length))
    (found : content[position]? = some byte) :
    (overwrite 0 content start data)[position]? = some byte := by
  have existed := (List.getElem?_eq_some_iff.mp found).1
  by_cases before : position < start
  · rw [getElem?_overwrite_before 0 content start data before existed, found]
  · rw [getElem?_overwrite_after 0 content start data (by omega), found]

section Client

variable
    {platform : Platform} {target : Target} {method : Alg}
    {writing : Writing} {src : Ino} {pieces : List Bytes}

/-- A refused call changes nothing that matters. -/
theorem Traced.refused
    (traced : Traced platform target method writing src pieces)
    {sys : Sys} (start : Nat) (fs : sys.fs = writing.world.fs)
    (attached : Attached sys.proc.fds src) :
    Traced platform target method
      (writing.acknowledge (writing.world.ofClient sys) start []) src
      pieces := by
  have same :
      sys.fs =
        writing.world.fs.put src (writing.world.fs.node src) := by
    rw [fs, FileSystem.put, Function.update_eq_self]
  rw [Writing.acknowledge_nil]
  exact
    { target := traced.target
      method := traced.method
      source := by
        show sys.fs.entry _ = _
        rw [fs]
        exact traced.source
      stage := traced.stage.put_source same rfl
      copied := traced.copied
      attached := attached
      ahead := by
        show ∃ content, sys.fs.node src = _ ∧ _
        rw [fs]
        exact traced.ahead
      behind := traced.behind }

/-- A write to the source keeps the invariant. -/
theorem Traced.moved
    (traced : Traced platform target method writing src pieces)
    {sys : Sys} {start : Nat} {data : Bytes}
    (fs :
      sys.fs =
        writing.world.fs.put src
          (.file
            (overwrite 0 ((writing.world.fs.node src).bytes platform) start
              data)))
    (attached : Attached sys.proc.fds src) :
    Traced platform target method
      (writing.acknowledge (writing.world.ofClient sys) start data) src
      pieces := by
  rcases traced.ahead with ⟨content, node, ahead⟩
  rw [node] at fs
  exact
    { target := traced.target
      method := traced.method
      source := by
        show sys.fs.entry _ = _
        rw [fs]
        exact traced.source
      stage := traced.stage.put_source fs rfl
      copied := traced.copied
      attached := attached
      ahead := by
        refine
          ⟨overwrite 0 content start data, by
            show sys.fs.node src = _
            rw [fs]
            simp [Node.bytes], ?_⟩
        intro early position byte unread acknowledged
        simp only [Writing.acknowledge] at acknowledged unread ⊢
        by_cases inside :
            start ≤ position ∧ position < start + data.length
        · rw [if_pos inside] at acknowledged ⊢
          refine ⟨?_, ?_⟩
          · rw [getElem?_overwrite_inside 0 content start data inside.1
              inside.2, acknowledged]
          · have early' : beforeEnd writing.world.c.pc = true := early
            simp [Writing.inTime, early', unread]
        · rw [if_neg inside] at acknowledged ⊢
          rcases ahead early position byte unread acknowledged with
            ⟨found, timely⟩
          exact ⟨getElem?_overwrite_outside inside found, timely⟩
      behind := by
        intro position byte passed acknowledged
        simp only [Writing.acknowledge] at acknowledged passed ⊢
        by_cases inside :
            start ≤ position ∧ position < start + data.length
        · rw [if_pos inside] at acknowledged ⊢
          have late :
              (beforeEnd writing.world.c.pc &&
                decide (writing.copied.length ≤ position)) = false := by
            rcases passed with read | done
            · simp [read]
            · have ended : beforeEnd writing.world.c.pc = false :=
                beforeEnd_of_complete done
              simp [ended]
          simp [Writing.inTime, late, acknowledged]
        · rw [if_neg inside] at acknowledged ⊢
          exact traced.behind position byte passed acknowledged }

/-- A whole call of the client keeps the invariant. -/
theorem Traced.client
    (traced : Traced platform target method writing src pieces)
    {call : ClientCall} {ret : Int} {choices : List Choice} {sys : Sys}
    (ran :
      call.program.run (kernel platform) writing.world.clientSys choices =
        some (ret, sys)) :
    Traced platform target method
      (writing.acknowledge (writing.world.ofClient sys)
        (call.position platform writing.world.clientSys)
        (call.buf.take ret.toNat))
      src pieces := by
  rcases
    @wrote_of_run platform writing.world.clientSys sys src call ret choices
      traced.attached ran with
    ⟨wrote, attached⟩
  cases wrote with
  | refused fs => exact traced.refused _ fs attached
  | moved limit fs =>
      have data :
          call.buf.take ((call.buf.take limit).length : Int).toNat =
            call.buf.take limit := by
        rw [Int.toNat_natCast, List.length_take, ← List.take_take,
          List.take_length]
      rw [data]
      exact traced.moved fs attached

end Client

section Converter

variable
    {platform : Platform} {sys sys' : Sys} {c c' : Convert}
    {choice : Choice} {read : List Bytes}

theorem beforeEnd_of_exiting {pc : Pc} (exiting : pc.exiting = true) :
    beforeEnd pc = false := by
  cases pc <;> first
    | rfl
    | cases exiting

/-- On its way out the converter has read nothing. -/
theorem bytesRead_of_exiting
    {before after : Pc} (exiting : after.exiting = true) :
    bytesRead before after = [] := by
  unfold bytesRead
  split
  · cases exiting
  · rfl

theorem bytesRead_of_ne
    {before after : Pc} (elsewhere : before ≠ .readBlock) :
    bytesRead before after = [] := by
  unfold bytesRead
  split
  · exact (elsewhere rfl).elim
  · rfl

/-- The places tell what has been read. -/
theorem bytesRead_of_moves
    (moves : Moves platform sys c choice read sys' c') :
    bytesRead c.pc c'.pc = read.flatten := by
  cases moves with
  | looks next places =>
      refine bytesRead_of_ne ?_
      rcases places with ⟨place, _⟩ | ⟨place, _⟩ <;> simp [place]
  | fails earlier inside target method =>
      exact bytesRead_of_exiting (Convert.exiting_out _ _)
  | regrows ino place found =>
      exact bytesRead_of_exiting (Convert.exiting_out _ _)
  | reads buffer limit file place limited nonempty held data =>
      simp [bytesRead, place]
  | meetsEnd file place held ended =>
      simp [bytesRead, place]
  | _ => exact bytesRead_of_ne (by simp [*])

/-- The converter does not return to the places before the end. -/
theorem beforeEnd_of_moves
    (moves : Moves platform sys c choice read sys' c')
    (early : beforeEnd c'.pc = true) :
    beforeEnd c.pc = true := by
  cases moves with
  | looks next places =>
      rcases places with ⟨place, _⟩ | ⟨place, _⟩ <;> rw [place] <;> rfl
  | fails earlier inside target method =>
      rw [beforeEnd_of_exiting (Convert.exiting_out _ _)] at early
      cases early
  | regrows ino place found =>
      rw [beforeEnd_of_exiting (Convert.exiting_out _ _)] at early
      cases early
  | closesSource place =>
      rw [beforeEnd_of_exiting (Convert.exiting_outImage _)] at early
      cases early
  | meetsEnd file place held ended => cases early
  | publishes ino place found => cases early
  | sizes ino place found => cases early
  | empties ino place granted found => cases early
  | closesImage handle place held => cases early
  | closesNothing place lost => cases early
  | _ => simp [beforeEnd, *]

/-- A converter becomes complete by meeting the end of the source. -/
theorem complete_of_moves
    (moves : Moves platform sys c choice read sys' c')
    (done : complete c' = true) :
    complete c = true ∨
      (c.pc = .readBlock ∧
        ∃ file, sys.proc.fds c.srcfd = some file ∧
          ((sys.fs.node file.ino).bytes platform).length ≤ file.offset) := by
  cases moves with
  | looks next places =>
      rcases places with ⟨_, rfl⟩ | ⟨_, rfl⟩ <;> simp [complete] at done
  | fails earlier inside target method => simp at done
  | creates number ino fs next place granted positive free created continues =>
      rcases continues with ⟨text, header, rfl⟩ | rfl
      · simp [complete] at done
      · simp at done
  | meetsEnd file place held ended => exact Or.inr ⟨place, file, held, ended⟩
  | publishes ino place found => exact Or.inl (by simp [complete, place])
  | sizes ino place found => exact Or.inl (by simp [complete, place])
  | empties ino place granted found => exact Or.inl (by simp [complete, place])
  | regrows ino place found => exact Or.inl (by simp [complete, place])
  | closesSource place =>
      refine Or.inl ?_
      rw [complete_of_exiting (Convert.exiting_outImage c),
        Convert.ret_outImage] at done
      simpa [complete, place] using done
  | closesImage handle place held =>
      exact Or.inl (by simpa [complete, place] using done)
  | closesNothing place lost =>
      exact Or.inl (by simpa [complete, place] using done)
  | _ => simp [complete] at done

variable
    {target : Target} {method : Alg} {writing : Writing} {src : Ino}
    {pieces : List Bytes}

/-- What has just been read was ahead. -/
theorem Traced.behind_read
    (traced : Traced platform target method writing src pieces)
    {content : Bytes} (node : writing.world.fs.node src = .file content)
    (ahead : Ahead writing content)
    (moves :
      Moves platform writing.world.converterSys writing.world.c choice read
        sys' c')
    {position : Nat} {byte : Byte}
    (unread : writing.copied.length ≤ position)
    (within :
      position <
        (writing.copied ++ bytesRead writing.world.c.pc c'.pc).length)
    (acknowledged : writing.acknowledged position = some byte) :
    (writing.copied ++ bytesRead writing.world.c.pc c'.pc)[position]? =
        some byte ↔
      writing.timely position = true := by
  have copied := bytesRead_of_moves moves
  rw [copied] at within ⊢
  cases moves with
  | reads buffer limit file place limited nonempty held data =>
      obtain ⟨found, timely⟩ :=
        ahead (by rw [place]; rfl) position byte unread acknowledged
      have stage := traced.stage
      simp only [Stage, place] at stage
      rcases stage with ⟨ino, image, building⟩
      rcases building.reading file held with ⟨here, offset⟩
      change
        buffer =
          slice ((writing.world.fs.node file.ino).bytes platform) _ _ at data
      rw [here, node, offset, ← traced.copied] at data
      rw [List.flatten_singleton, List.length_append] at within
      have inside :
          position - writing.copied.length < min limit H5_BUFSIZE := by
        rw [data, length_slice] at within
        omega
      refine iff_of_true ?_ timely
      rw [List.flatten_singleton, List.getElem?_append_right unread, data,
        getElem?_slice, if_pos inside, Node.bytes,
        Nat.add_sub_cancel' unread, found]
  | _ =>
      simp only [List.flatten_nil, List.append_nil] at within
      omega

/-- At the end of the source nothing is ahead any more. -/
theorem Traced.behind_end
    (traced : Traced platform target method writing src pieces)
    {content : Bytes} (node : writing.world.fs.node src = .file content)
    (ahead : Ahead writing content)
    (moves :
      Moves platform writing.world.converterSys writing.world.c choice read
        sys' c')
    {position : Nat} {byte : Byte}
    (unread : writing.copied.length ≤ position)
    (done : complete c' = true)
    (acknowledged : writing.acknowledged position = some byte) :
    (writing.copied ++ bytesRead writing.world.c.pc c'.pc)[position]? =
        some byte ↔
      writing.timely position = true := by
  rcases complete_of_moves moves done with before | ⟨place, file, held, ended⟩
  · have elsewhere : writing.world.c.pc ≠ .readBlock := by
      intro place
      have early := beforeEnd_of_complete before
      rw [place] at early
      cases early
    rw [bytesRead_of_ne elsewhere, List.append_nil]
    exact traced.behind position byte (Or.inr before) acknowledged
  · obtain ⟨found, _⟩ :=
      ahead (by rw [place]; rfl) position byte unread acknowledged
    have stage := traced.stage
    simp only [Stage, place] at stage
    rcases stage with ⟨ino, image, building⟩
    rcases building.reading file held with ⟨here, offset⟩
    change
      ((writing.world.fs.node file.ino).bytes platform).length ≤ _ at ended
    rw [here, node, offset, ← traced.copied, Node.bytes] at ended
    have bound := (List.getElem?_eq_some_iff.mp found).1
    omega

/-- A step of the converter keeps the invariant. -/
theorem Traced.converter
    (traced : Traced platform target method writing src pieces)
    (moves :
      Moves platform writing.world.converterSys writing.world.c choice read
        sys' c') :
    Traced platform target method
      { writing with
        world :=
          { writing.world with
            fs := sys'.fs
            db := sys'.db
            converter := sys'.proc
            c := c' }
        copied := writing.copied ++ bytesRead writing.world.c.pc c'.pc }
      src (pieces ++ read) := by
  rcases Moves.source moves with ⟨sameTarget, sameMethod, sameEntry⟩
  rcases traced.ahead with ⟨content, node, ahead⟩
  rcases traced.stage.source traced.source node moves with
    ⟨content', node', change⟩
  have copied := bytesRead_of_moves moves
  exact
    { target := sameTarget.trans traced.target
      method := sameMethod.trans traced.method
      source := by
        show sys'.fs.entry c'.target.path = some src
        rw [sameTarget]
        exact sameEntry.trans traced.source
      stage := traced.stage.step traced.source moves
      copied := by
        rw [copied, traced.copied, List.flatten_append]
      attached := traced.attached
      ahead := by
        refine ⟨content', node', ?_⟩
        intro early position byte unread acknowledged
        have before := beforeEnd_of_moves moves early
        have further :
            writing.copied.length ≤ position := by
          simp only [List.length_append] at unread
          omega
        cases change with
        | same unsuccessful =>
            exact ahead before position byte further acknowledged
        | emptied place granted => cases early
        | regrown place =>
            rw [beforeEnd_of_exiting (Convert.exiting_out _ _)] at early
            cases early
      behind := by
        intro position byte passed acknowledged
        by_cases old : position < writing.copied.length
        · rw [List.getElem?_append_left old]
          exact traced.behind position byte (Or.inl old) acknowledged
        · have unread : writing.copied.length ≤ position := Nat.le_of_not_lt old
          by_cases within :
              position <
                (writing.copied ++
                  bytesRead writing.world.c.pc c'.pc).length
          · exact traced.behind_read node ahead moves unread within acknowledged
          · exact
              traced.behind_end node ahead moves unread
                (passed.resolve_left within) acknowledged }

/-- The state of a run: the two parties and what the ghosts record. -/
theorem traced_step
    {later : Writing} {label : Label}
    (traced : Traced platform target method writing src pieces)
    (stepped : step platform writing label = some later) :
    ∃ read,
      Traced platform target method later src (pieces ++ read) := by
  cases label with
  | converter choice =>
      rcases Option.map_eq_some_iff.mp stepped with ⟨world, moved, rfl⟩
      rcases Option.map_eq_some_iff.mp moved with ⟨⟨sys, c⟩, called, rfl⟩
      rcases moves_of_step called with ⟨read, moves⟩
      exact ⟨read, traced.converter moves⟩
  | client call choices =>
      rcases Option.map_eq_some_iff.mp stepped with ⟨⟨ret, sys⟩, ran, rfl⟩
      refine ⟨[], ?_⟩
      rw [List.append_nil]
      exact traced.client ran

end Converter

/-! ## The claim of the converter -/

/-- Every position holds the byte that was acknowledged last. -/
def HoldsAcknowledged (writing : Writing) (decoded : Bytes) : Prop :=
  ∀ position byte,
    writing.acknowledged position = some byte →
      decoded[position]? = some byte

/-- The last acknowledged write to every position was in time. -/
def AllInTime (writing : Writing) : Prop :=
  ∀ position byte,
    writing.acknowledged position = some byte →
      writing.timely position = true

variable {platform : Platform}

/--
After a conversion that returned 0 the image holds the last acknowledged byte
of every position if and only if all of them were written in time.
-/
theorem holds_acknowledged_iff_in_time
    {world : World} {src : Ino} {target : Target} {method : Alg}
    {srcfd h5fd : Int} {content : Bytes}
    (unconverted : Unconverted world.fs target src content)
    (attached : Attached world.client.fds src)
    (entered : world.c = convert2h5 target method srcfd h5fd)
    {labels : List Label} {final : Writing}
    (ran :
      Transition.run (step platform) (.start world content) labels =
        some final)
    (succeeded : Succeeded final.world.c) :
    ∃ image decoded,
      final.world.fs.lookup target.h5name = some (.image image) ∧
        image.decode platform.libs method = some decoded ∧
          (HoldsAcknowledged final decoded ↔ AllInTime final) := by
  have reached :
      ∃ pieces, Traced platform target method final src pieces := by
    refine
      Transition.run_invariant
        (fun writing =>
          ∃ pieces, Traced platform target method writing src pieces)
        ?_ ?_ ran
    · rintro writing label later ⟨pieces, traced⟩ stepped
      rcases traced_step traced stepped with ⟨read, after⟩
      exact ⟨pieces ++ read, after⟩
    · refine ⟨[], ?_⟩
      exact
        { target := by simp [Writing.start, entered, convert2h5]
          method := by simp [Writing.start, entered, convert2h5]
          source := by
            simp [Writing.start, entered, convert2h5, unconverted.source]
          stage := by
            simp only [Writing.start, entered]
            exact
              @stage_initial _ world.converterSys _ _ _ unconverted method
                srcfd h5fd
          copied := rfl
          attached := attached
          ahead :=
            ⟨content, unconverted.node, fun _ position byte _ found =>
              ⟨found, rfl⟩⟩
          behind := by
            rintro position byte (read | done) found
            · cases read
            · simp only [Writing.start, entered] at done
              cases done }
  rcases reached with ⟨pieces, traced⟩
  rcases succeeded with ⟨place, zero⟩
  have stage := traced.stage
  simp only [Stage, place] at stage
  rcases (stage zero).decodes with ⟨image, found, decoded⟩
  rw [traced.target] at found
  rw [traced.method] at decoded
  refine ⟨image, pieces.flatten, found, decoded, ?_⟩
  have done : complete final.world.c = true := by
    simp [complete, place, zero]
  constructor
  · intro holds position byte acknowledged
    rw [← traced.behind position byte (Or.inr done) acknowledged,
      traced.copied]
    exact holds position byte acknowledged
  · intro inTime position byte acknowledged
    rw [← traced.copied,
      traced.behind position byte (Or.inr done) acknowledged]
    exact inTime position byte acknowledged

/-! ## A write after the last read -/

/-- `/f` holds the byte 7, and the client has opened it for writing. -/
def worldF : World :=
  .beside (convert2h5 targetF .DZ_ALG_ZSTD 0 0)
    { storeF [7] with
      proc := Process.empty.setFd 5 (some ⟨0, 0, O_WRONLY⟩) }

theorem worldF_opened :
    (dzfile_open targetF.path O_WRONLY).run (kernel storingPlatform)
        (storeF [7]) [.ok 0, .ok 0, .ok 5] =
      some (5, worldF.clientSys) :=
  rfl

theorem attached_worldF : Attached worldF.client.fds 0 :=
  @attached_of_opens _ _ (storeF [7]) _ _ _ (unconverted_storeF [7]).source
    (by intro fd file held; cases held) (opens_of_run worldF_opened)

/-- The client writes the byte 9 between the last read and the `rename`. -/
def lateWrite : List Label :=
  (List.replicate 9 (.converter (.ok 4194304))) ++
    [.client (.dzfile_pwrite 5 [9] 0) [.ok 1, .ok 0]] ++
      List.replicate 6 (.converter (.ok 0))

/-- The image of the byte 7 that the conversion has published. -/
def publishedF : H5Image where
  datasets := [(.algorithm, [122, 115, 116, 100, 32, 49]), (.block 0, [40, 7])]
  writer := false
  closed := true

theorem lateWrite_runs :
    ∃ final,
      Transition.run (step storingPlatform) (.start worldF [7]) lateWrite =
        some final ∧
        Succeeded final.world.c ∧ final.acknowledged 0 = some 9 ∧
          ∀ image, final.world.fs.lookup targetF.h5name = some (.image image) →
            image.decode storingPlatform.libs .DZ_ALG_ZSTD = some [7] := by
  have facts :
      (Transition.run (step storingPlatform) (.start worldF [7])
          lateWrite).map
        (fun final =>
          (final.world.c.pc, final.world.c.ret, final.acknowledged 0,
            final.world.fs.lookup targetF.h5name)) =
        some (.returned, 0, some 9, some (.image publishedF)) := by
    decide +kernel
  rcases Option.map_eq_some_iff.mp facts with ⟨final, ran, observed⟩
  simp only [Prod.mk.injEq] at observed
  rcases observed with ⟨place, zero, acknowledged, published⟩
  refine ⟨final, ran, ⟨place, zero⟩, acknowledged, ?_⟩
  intro image found
  rw [published] at found
  cases found
  decide +kernel

theorem holds_acknowledged_iff_in_time_lateWrite :
    ∃ final decoded,
      Transition.run (step storingPlatform) (.start worldF [7]) lateWrite =
        some final ∧
        (HoldsAcknowledged final decoded ↔ AllInTime final) := by
  rcases lateWrite_runs with ⟨final, ran, succeeded, _⟩
  rcases
    holds_acknowledged_iff_in_time (unconverted_storeF [7]) attached_worldF
      rfl ran succeeded with
    ⟨image, decoded, _, _, agree⟩
  exact ⟨final, decoded, ran, agree⟩

/-- A write that returned 1 is not in the image of a conversion that returned 0. -/
theorem late_write_is_lost :
    ¬ ∀ (platform : Platform) (target : Target) (method : Alg)
        (srcfd h5fd : Int) (src : Ino) (content : Bytes)
        (before opened : Sys) (fd : Int) (choices : List Choice)
        (labels : List Label) (final : Writing),
        before.fs.entry target.h5name = none →
          (dzfile_open target.path O_WRONLY).run (kernel platform) before
              choices =
            some (fd, opened) →
            Unconverted opened.fs target src content →
              Attached opened.proc.fds src →
                Transition.run (step platform)
                    (.start (.beside (convert2h5 target method srcfd h5fd) opened)
                      content)
                    labels =
                  some final →
                  Succeeded final.world.c →
                    ∃ image decoded,
                      final.world.fs.lookup target.h5name =
                          some (.image image) ∧
                        image.decode platform.libs method = some decoded ∧
                          HoldsAcknowledged final decoded := by
  intro claimed
  rcases lateWrite_runs with ⟨final, ran, succeeded, acknowledged, decodes⟩
  rcases
    claimed _ _ _ _ _ _ _ _ _ _ _ _ _ rfl worldF_opened
      (unconverted_storeF [7]) attached_worldF ran succeeded with
    ⟨image, decoded, found, decode, holds⟩
  rw [decodes image found] at decode
  cases decode
  have kept := holds 0 9 acknowledged
  cases kept

end DZFile.Writers
