import DZFile.Parallel

/-!
# Tools at once

Puts, conversions, gets and deletions at the same time, each in a process of
its own, when no tool is given a path that another one changes.  They may put
from one source, or get from it, and they may work in one directory: the names
a tool makes up for a path are no other path's.

Then each tool returns what it returns alone, and the file system that is left
holds the store in which every tool has had its effect at its own path.
-/

namespace DZFile.ParallelTools

open DZFile.ByteSeq
open DZFile.Interaction
open DZFile.Interleaving
open DZFile.WholeRuns
open DZFile.Names
open DZFile.Codec
open DZFile.Kernel
open DZFile.Api
open DZFile.Put
open DZFile.PutContent
open DZFile.Converter
open DZFile.HiddenNames
open DZFile.Reaching (OneName)
open DZFile.Confinement
open DZFile.Contents
open DZFile.StoreConversion
open DZFile.StorePut
open DZFile.StoreGet
open DZFile.Separation
open DZFile.Session
open DZFile.Parallel

/-! ## The names a program looks at -/

/-- A call that looks at some names and changes some of them. -/
def Keeps (seen written : CString → Prop) (op : Op) : Prop :=
  Sees seen op ∧ Confines written op

section Looks

variable {names : CString → Prop} {path : CString}

theorem sees_space_update
    (field : Metadata.Field) (num : Int) (flag : Metadata.Flag) :
    (space_update field num flag).AllCalls (Sees names) :=
  ⟨trivial, fun _ => trivial⟩

theorem sees_findhiddenFile
    (hidden : ∀ h5name, buildHiddenFile path = some h5name → names h5name) :
    (findhiddenFile path).AllCalls (Sees names) := by
  unfold findhiddenFile
  cases built : buildHiddenFile path with
  | none => trivial
  | some h5name =>
      refine ⟨hidden h5name built, fun found => ?_⟩
      cases found with
      | ok stbuf => trivial
      | error errno => cases errno <;> trivial

theorem sees_openImage
    {flags : Nat} (visible : names path)
    (hidden : ∀ h5name, buildHiddenFile path = some h5name → names h5name) :
    (openImage path flags).AllCalls (Sees names) := by
  unfold openImage
  split
  · trivial
  · cases built : buildHiddenFile path with
    | none => trivial
    | some h5name =>
        refine ⟨hidden h5name built, fun h5fd => ?_⟩
        show
          (if h5fd.getD (-1) ≤ 0 then _ else _ : Call Int).AllCalls _
        split
        · trivial
        · refine ⟨trivial, ?_⟩
          rintro (allocated | allocated)
          · trivial
          · refine ⟨visible, fun opened => ?_⟩
            show
              (add_dzfd (returnFd opened) ⟨returnFd opened, h5fd.getD (-1)⟩
                >>= fun _ => Prog.ret (returnFd opened)).AllCalls _
            refine Prog.AllCalls.bind ?_ fun _ => trivial
            unfold add_dzfd
            split
            · trivial
            · exact ⟨trivial, fun _ => trivial⟩

theorem sees_openPlain {flags : Nat} (visible : names path) :
    (openPlain path flags).AllCalls (Sees names) := by
  have opening : (openVisible path flags).AllCalls (Sees names) :=
    ⟨visible, fun _ => trivial⟩
  refine ⟨visible, ?_⟩
  rintro (errno | stbuf)
  · cases errno with
    | ENOENT =>
        have inserting : (fmt_entry_insert path).AllCalls (Sees names) := by
          refine ⟨trivial, fun done => ?_⟩
          cases done with
          | false => trivial
          | true => exact sees_space_update .filenum 1 .ADD_NUM
        exact inserting.bind fun _ => opening
    | _ => exact opening
  · exact opening

/-- `dzfile_open` looks at its path and at the image of its path. -/
theorem sees_dzfile_open
    {flags : Nat} (visible : names path)
    (hidden : ∀ h5name, buildHiddenFile path = some h5name → names h5name) :
    (dzfile_open path flags).AllCalls (Sees names) := by
  unfold dzfile_open
  split
  · trivial
  · split
    · trivial
    · split
      · trivial
      · apply (sees_findhiddenFile hidden).bind
        intro isexist
        repeat' split
        · exact sees_openImage visible hidden
        · trivial
        · trivial
        · exact sees_openPlain visible

theorem sees_dzfile_close (fd : Int) :
    (dzfile_close fd).AllCalls (Sees names) := by
  have closing : (closeFd fd).AllCalls (Sees names) := by
    refine ⟨trivial, fun closed => ?_⟩
    cases closed <;> trivial
  refine ⟨trivial, fun found => ?_⟩
  cases found with
  | none => exact closing
  | some dzfd => exact ⟨trivial, fun _ => ⟨trivial, fun _ => closing⟩⟩

theorem sees_dzfile_write (fd : Int) (buf : Bytes) :
    (dzfile_write fd buf).AllCalls (Sees names) := by
  refine ⟨trivial, fun result => ?_⟩
  show (countWritten (returnCount result)).AllCalls (Sees names)
  unfold countWritten
  split
  · exact ⟨trivial, fun _ => trivial⟩
  · trivial

theorem sees_dzfile_pread
    (libs : Libs) (dstlen fd : Int) (count : Nat) (offset : Int) :
    (dzfile_pread libs dstlen fd count offset).AllCalls (Sees names) := by
  refine ⟨trivial, fun found => ?_⟩
  cases found with
  | none => exact ⟨trivial, fun _ => trivial⟩
  | some dzfd =>
      show (if dzfd.h5fd ≤ 0 then _ else _ : Call _).AllCalls _
      split
      · trivial
      · refine ⟨trivial, fun image => ?_⟩
        cases image <;> trivial

/-! ### Puts -/

theorem sees_closeSource (fd : Int) :
    (closeSource fd).AllCalls (Sees names) := by
  unfold closeSource
  split
  · exact ⟨trivial, fun _ => trivial⟩
  · trivial

theorem sees_put_out (fd dstfd : Int) :
    (Put.out fd dstfd).AllCalls (Sees names) := by
  unfold Put.out
  split
  · exact (sees_dzfile_close dstfd).bind fun _ => sees_closeSource fd
  · exact sees_closeSource fd

theorem sees_put_body (loop : Loop) :
    (Put.body loop).AllCalls (Sees names) := by
  cases loop with
  | copy transfer =>
      refine ⟨trivial, ?_⟩
      rintro (errno | ⟨⟩ | buf)
      · exact sees_put_out _ _
      · exact sees_put_out _ _
      · trivial
  | lockw transfer buf =>
      refine ⟨trivial, ?_⟩
      rintro (errno | ⟨⟩ | ⟨⟩)
      · exact sees_put_out _ _
      · trivial
      · refine ⟨trivial, ?_⟩
        rintro (errno | locked)
        · exact sees_put_out _ _
        · refine (sees_dzfile_write _ _).bind fun nbwrite => ?_
          split
          · exact sees_put_out _ _
          · trivial

theorem sees_dzfile_put
    {src_file dst_file : CString} (source : names src_file)
    (visible : names dst_file)
    (hidden :
      ∀ h5name, buildHiddenFile dst_file = some h5name → names h5name) :
    (dzfile_put src_file dst_file).AllCalls (Sees names) := by
  unfold dzfile_put
  simp only [Prog.perform_bind]
  refine ⟨source, fun opened => ?_⟩
  beta_reduce
  split
  · trivial
  · refine ⟨trivial, fun ret => ?_⟩
    beta_reduce
    split
    · trivial
    · refine (sees_dzfile_open visible hidden).bind fun dstfd => ?_
      split
      · exact sees_put_out _ _
      · trivial

/-! ### Gets -/

theorem sees_get_out (fd : Int) : (Get.out fd).AllCalls (Sees names) := by
  unfold Get.out
  split
  · exact (sees_dzfile_close fd).bind fun _ => trivial
  · trivial

theorem sees_get_copy
    (libs : Libs) (dstlen : Nat → Int) (transfer : Get.Transfer) :
    (Get.copy libs dstlen transfer).AllCalls (Sees names) := by
  unfold Get.copy
  refine (sees_dzfile_pread _ _ _ _ _).bind fun result => ?_
  cases result with
  | fault => trivial
  | diverges => trivial
  | returned ret copied =>
      show (if wrap32 ret < 0 then _ else _ : Get.GetCall).AllCalls _
      split
      · exact sees_get_out transfer.fd
      · split
        · exact sees_get_out transfer.fd
        · refine ⟨trivial, fun written => ?_⟩
          show
            (if wrap32 (returnCount written) < 0 then _ else _ :
              Get.GetCall).AllCalls _
          split
          · exact sees_get_out transfer.fd
          · trivial

theorem sees_dzfile_get
    {src_file dst_file : CString} (source : names src_file)
    (hidden :
      ∀ h5name, buildHiddenFile src_file = some h5name → names h5name)
    (visible : names dst_file) :
    (Get.dzfile_get src_file dst_file).AllCalls (Sees names) := by
  refine ⟨trivial, fun ret => ?_⟩
  show (if ret < 0 then _ else _ : Get.GetCall).AllCalls _
  split
  · trivial
  · refine (sees_dzfile_open source hidden).bind fun fd => ?_
    split
    · trivial
    · exact ⟨visible, fun _ => trivial⟩

/-! ### Deletions and conversions -/

/-- The counters are no file. -/
theorem keeps_space_update
    (field : Metadata.Field) (num : Int) (flag : Metadata.Flag) :
    (space_update field num flag).AllCalls (Keeps names names) :=
  ⟨⟨trivial, trivial⟩, fun _ => trivial⟩

theorem keeps_unlinkVisible (visible : names path) :
    (unlinkVisible path).AllCalls (Keeps names names) := by
  refine ⟨⟨visible, visible⟩, ?_⟩
  rintro (errno | done)
  · trivial
  · refine ⟨⟨visible, trivial⟩, ?_⟩
    rintro (errno | stbuf)
    · trivial
    · exact
        (keeps_space_update .writtenbytes stbuf.size .SUB_NUM).bind
          fun _ => trivial

theorem keeps_dzfile_unlink
    (visible : names path)
    (hidden : ∀ h5name, buildHiddenFile path = some h5name → names h5name) :
    (dzfile_unlink path).AllCalls (Keeps names names) := by
  have last := keeps_unlinkVisible visible
  have looking : (findhiddenFile path).AllCalls (Keeps names names) :=
    (sees_findhiddenFile hidden).and
      ((Opening.looks_findhiddenFile path).mono fun _ => confines_of_looks)
  unfold dzfile_unlink
  split
  · trivial
  · refine looking.bind fun rc => ?_
    split
    · unfold unlinkImage
      cases built : buildHiddenFile path with
      | none => trivial
      | some h5name =>
          have image := hidden h5name built
          refine ⟨⟨image, trivial⟩, ?_⟩
          rintro (errno | stbuf)
          · trivial
          · refine ⟨⟨image, image⟩, ?_⟩
            rintro (errno | done)
            · trivial
            · exact
                (keeps_space_update .diskbytes stbuf.size .SUB_NUM).bind
                  fun _ => last
    · exact last

/-- A converter looks at the names of its path only. -/
theorem sees_of_action
    {libs : Libs} {c : Convert} {op : Op} {next : Reply op → Convert}
    (action : c.action libs = .call op next) :
    Sees (namesOf c.target) op := by
  have visible : namesOf c.target c.target.path := Or.inl rfl
  have image : namesOf c.target c.target.h5name := Or.inr (Or.inl rfl)
  have temporary : namesOf c.target c.target.temp := Or.inr (Or.inr rfl)
  unfold Convert.action at action
  cases place : c.pc with
  | renameTemp =>
      rw [place] at action
      cases action
      exact ⟨temporary, image⟩
  | returned =>
      rw [place] at action
      cases action
  | _ =>
      rw [place] at action
      cases action
      first
        | exact visible
        | exact image
        | exact temporary
        | trivial

/-- A converter keeps its path. -/
theorem target_of_action
    {libs : Libs} {c : Convert} {op : Op} {next : Reply op → Convert}
    (action : c.action libs = .call op next) (reply : Reply op) :
    (next reply).target = c.target := by
  unfold Convert.action at action
  cases place : c.pc with
  | returned =>
      rw [place] at action
      cases action
  | createTemp =>
      rw [place] at action
      cases action
      rcases reply with _ | h5fd
      · exact Convert.target_out _ _
      · dsimp only
        split
        · exact Convert.target_out _ _
        · rfl
  | readBlock =>
      rw [place] at action
      cases action
      rcases reply with errno | ⟨_ | ⟨byte, bytes⟩⟩
      · exact Convert.target_out _ _
      · rfl
      · rfl
  | closeSource =>
      rw [place] at action
      cases action
      exact Convert.target_outImage _
  | closeImage =>
      rw [place] at action
      cases action
      rfl
  | _ =>
      rw [place] at action
      cases action
      cases reply
      all_goals first
        | rfl
        | exact Convert.target_out _ _

end Looks

/-- More names to look at. -/
theorem sees_mono
    {names wider : CString → Prop} (within : ∀ name, names name → wider name)
    {op : Op} (sees : Sees names op) :
    Sees wider op := by
  cases op with
  | rename old new => exact ⟨within _ sees.1, within _ sees.2⟩
  | sqlite3_get_table => exact sees
  | _ =>
      first
        | trivial
        | exact within _ sees

/-- More names to change. -/
theorem confines_mono
    {names wider : CString → Prop} (within : ∀ name, names name → wider name)
    {op : Op} (confines : Confines names op) :
    Confines wider op := by
  cases op with
  | openFile path flags => exact confines.imp_left (within path)
  | rename old new => exact ⟨within _ confines.1, within _ confines.2⟩
  | _ =>
      first
        | trivial
        | exact within _ confines

/-! ## Tools -/

/-- A tool and what it is run on. -/
inductive Tool where
  | put (src dst : Target)
  | convert (target : Target) (srcfd h5fd : Int)
  | get (src dst : Target) (dstlen : Nat → Int)
  | unlink (target : Target)

namespace Tool

/-- The record of a run. -/
def Record : Tool → Type
  | .put _ _ => PutCall
  | .convert _ _ _ => Convert
  | .get _ _ _ => Get.GetCall
  | .unlink _ => Call Int

/-- What a run does next. -/
def action (libs : Libs) :
    (tool : Tool) → tool.Record → Action Op Reply tool.Record Int
  | .put _ _ => Put.action
  | .convert _ _ _ => Convert.action libs
  | .get _ _ dstlen => Get.action libs dstlen
  | .unlink _ => Prog.action

/-- A run that has not made a call. -/
def start : (tool : Tool) → tool.Record
  | .put src dst => Put.dzfile_put src.path dst.path
  | .convert target srcfd h5fd => convert2h5 target .DZ_ALG_ZSTD srcfd h5fd
  | .get src dst _ => Get.dzfile_get src.path dst.path
  | .unlink target => dzfile_unlink target.path

/-- The run with what its calls return. -/
def event (choices : List Choice) : Tool → Event
  | .put src dst => .put src dst choices
  | .convert target srcfd h5fd => .convert target srcfd h5fd choices
  | .get src dst dstlen => .get src dst dstlen choices
  | .unlink target => .unlink target choices

/-- The paths it is given. -/
def uses : Tool → List Target
  | .put src dst => [src, dst]
  | .convert target _ _ => [target]
  | .get src dst _ => [src, dst]
  | .unlink target => [target]

/-- The path it changes. -/
def changed : Tool → Target
  | .put _ dst => dst
  | .convert target _ _ => target
  | .get _ dst _ => dst
  | .unlink target => target

/-- The names of its paths. -/
def seen (tool : Tool) (name : CString) : Prop :=
  ∃ target ∈ tool.uses, namesOf target name

theorem changed_mem (tool : Tool) : tool.changed ∈ tool.uses := by
  cases tool <;> simp [changed, uses]

/-- The calls to come look at the names of its paths. -/
def Bounded : (tool : Tool) → tool.Record → Prop
  | .put src dst, record =>
      Prog.AllCalls (Keeps (put src dst).seen (namesOf dst)) record
  | .convert target _ _, record => Convert.target record = target
  | .get src dst dstlen, record =>
      Prog.AllCalls (Keeps (get src dst dstlen).seen (namesOf dst)) record
  | .unlink target, record =>
      Prog.AllCalls (Keeps (unlink target).seen (namesOf target)) record

end Tool

section Programs

variable {target : Target}

theorem hidden_of_built
    {names : CString → Prop} (image : names target.h5name) (h5name : CString)
    (built : buildHiddenFile target.path = some h5name) :
    names h5name := by
  rw [target.built] at built
  cases built
  exact image

/-- A run starts within its names. -/
theorem bounded_start (tool : Tool) : tool.Bounded tool.start := by
  cases tool with
  | put src dst =>
      have source : (Tool.put src dst).seen src.path :=
        ⟨src, by simp [Tool.uses], Or.inl rfl⟩
      have visible : (Tool.put src dst).seen dst.path :=
        ⟨dst, by simp [Tool.uses], Or.inl rfl⟩
      have image : (Tool.put src dst).seen dst.h5name :=
        ⟨dst, by simp [Tool.uses], Or.inr (Or.inl rfl)⟩
      exact
        (sees_dzfile_put source visible (hidden_of_built image)).and
          (confines_dzfile_put (Or.inl rfl))
  | convert target srcfd h5fd => rfl
  | get src dst dstlen =>
      have source : (Tool.get src dst dstlen).seen src.path :=
        ⟨src, by simp [Tool.uses], Or.inl rfl⟩
      have image : (Tool.get src dst dstlen).seen src.h5name :=
        ⟨src, by simp [Tool.uses], Or.inr (Or.inl rfl)⟩
      have visible : (Tool.get src dst dstlen).seen dst.path :=
        ⟨dst, by simp [Tool.uses], Or.inl rfl⟩
      apply (sees_dzfile_get source (hidden_of_built image) visible).and
      apply (gets_dzfile_get src.path).mono
      intro op gets
      exact confines_mono (fun _ same => Or.inl same) gets.1
  | unlink target =>
      have keeps :
          (dzfile_unlink target.path).AllCalls
            (Keeps (namesOf target) (namesOf target)) :=
        keeps_dzfile_unlink (Or.inl rfl)
          (hidden_of_built (Or.inr (Or.inl rfl)))
      apply keeps.mono
      intro op both
      exact
        ⟨sees_mono
            (fun _ named => ⟨target, by simp [Tool.uses], named⟩) both.1,
          both.2⟩

/-- Every call of a run keeps it within its names. -/
theorem bounded_call
    {libs : Libs} {tool : Tool} {record : tool.Record} {op : Op}
    {next : Reply op → tool.Record} (bounded : tool.Bounded record)
    (action : tool.action libs record = .call op next) :
    Keeps tool.seen (namesOf tool.changed) op ∧
      ∀ reply, tool.Bounded (next reply) := by
  cases tool with
  | put src dst =>
      apply allCalls_of_blockAction _ bounded action
      intro label
      exact (sees_put_body label).and (confines_body label)
  | convert target srcfd h5fd =>
      have same : Convert.target record = target := bounded
      refine ⟨⟨?_, ?_⟩, fun reply => ?_⟩
      · apply sees_mono _ (sees_of_action action)
        intro name named
        rw [same] at named
        exact ⟨target, by simp [Tool.uses], named⟩
      · have confines := confines_of_action action
        rw [same] at confines
        exact confines
      · exact (target_of_action action reply).trans same
  | get src dst dstlen =>
      have action' :
          Prog.blockAction (Get.copy libs dstlen) record = .call op next :=
        action
      apply allCalls_of_blockAction _ bounded action'
      intro transfer
      apply (sees_get_copy libs dstlen transfer).and
      apply (gets_copy libs dstlen transfer).mono
      intro op gets
      exact confines_mono (fun _ same => Or.inl same) gets.1
  | unlink target =>
      cases record with
      | ret value => cases action
      | fault => cases action
      | call op' next' =>
          cases action
          exact bounded

end Programs

/-! ## One tool alone -/

section Alone

variable
    {platform : Platform} {sys later : Sys} {choices : List Choice}
    {ret : Int}

/-- The results of a put can be noted while it runs. -/
theorem noted_run
    {program last : PutCall} (results : Results)
    (ran :
      Transition.run
          (fun (state : Sys × PutCall) choice =>
            advance (kernel platform) Put.action state.1 state.2 choice)
          (sys, program) choices =
        some (later, last)) :
    ∃ results',
      Transition.run (PutContent.step platform) ((sys, results), program)
          choices =
        some ((later, results'), last) := by
  induction choices generalizing sys program results with
  | nil =>
      cases ran
      exact ⟨results, rfl⟩
  | cons choice rest induction =>
      rcases Transition.run_cons_eq_some.mp ran with
        ⟨⟨middle, next⟩, stepped, restRan⟩
      rcases advance_eq_some.mp stepped with
        ⟨op, cont, reply, called, answered, rfl⟩
      rcases induction (results.after op reply) restRan with
        ⟨results', noted⟩
      refine ⟨results', Transition.run_cons_eq_some.mpr ⟨_, ?_, noted⟩⟩
      refine
        advance_eq_some.mpr ⟨op, cont, reply, called, ?_, rfl⟩
      rw [noting, answered]
      rfl

/-- A program without loops that has returned has been run. -/
theorem run_of_steps
    {program : Call Int}
    (ran :
      Transition.run
          (fun (state : Sys × Call Int) choice =>
            advance (kernel platform) Prog.action state.1 state.2 choice)
          (sys, program) choices =
        some (later, .ret ret)) :
    program.run (kernel platform) sys choices = some (ret, later) := by
  induction choices generalizing sys program with
  | nil =>
      cases ran
      rfl
  | cons choice rest induction =>
      rcases Transition.run_cons_eq_some.mp ran with
        ⟨⟨middle, next⟩, stepped, restRan⟩
      rcases advance_eq_some.mp stepped with
        ⟨op, cont, reply, called, answered, rfl⟩
      cases program with
      | ret value => cases called
      | fault => cases called
      | call op' next' =>
          cases called
          exact
            Prog.run_call_eq_some.mpr
              ⟨choice, rest, reply, middle, rfl, answered, induction restRan⟩

/-- A block program that is done has returned. -/
theorem ret_of_done
    {Label : Type} {body : Label → Call (Label ⊕ Int)}
    {program : Call (Label ⊕ Int)}
    (done : Prog.blockAction body program = .done ret) :
    program = .ret (.inr ret) := by
  cases program with
  | fault => cases done
  | call op next => cases done
  | ret place =>
      cases place with
      | inr value =>
          cases done
          rfl
      | inl label =>
          simp only [Prog.blockAction] at done
          split at done
          · cases done
          · cases done

/-- A tool that has run alone to its end is an event of a session. -/
theorem step_of_run
    {disk : Disk} {tool : Tool} {record : tool.Record}
    (ran :
      Transition.run
          (fun (state : Sys × tool.Record) choice =>
            advance (kernel platform) (tool.action platform.libs) state.1
              state.2 choice)
          (disk.sys, tool.start) choices =
        some (later, record))
    (done : tool.action platform.libs record = .done ret) :
    disk.step platform (tool.event choices) = some (.after later) := by
  cases tool with
  | put src dst =>
      cases ret_of_done done
      rcases noted_run ⟨false, [], []⟩ ran with ⟨results, noted⟩
      change
        Transition.run (PutContent.step platform)
            (PutContent.start disk.sys src.path dst.path) choices =
          _ at noted
      simp only [Tool.event, Disk.step]
      rw [noted]
  | convert target srcfd h5fd =>
      have returned : Convert.pc record = .returned := by
        change Convert.action platform.libs record = .done ret at done
        unfold Convert.action at done
        cases place : Convert.pc record with
        | returned => rfl
        | _ =>
            rw [place] at done
            cases done
      simp only [Tool.event, Disk.step]
      change
        Transition.run (soloStep platform)
            (disk.sys, convert2h5 target .DZ_ALG_ZSTD srcfd h5fd) choices =
          some (later, record) at ran
      rw [ran]
      exact if_pos returned
  | get src dst dstlen =>
      have returned : record = .ret (.inr ret) :=
        @ret_of_done _ _ (Get.copy platform.libs dstlen) _ done
      subst returned
      simp only [Tool.event, Disk.step]
      change
        Transition.run (Get.step platform dstlen)
            (disk.sys, Get.dzfile_get src.path dst.path) choices =
          _ at ran
      rw [ran]
  | unlink target =>
      have returned : record = .ret ret := by
        cases record with
        | ret value =>
            cases done
            rfl
        | fault => cases done
        | call op next => cases done
      subst returned
      have whole :
          (dzfile_unlink target.path).run (kernel platform) disk.sys choices =
            some (ret, later) :=
        run_of_steps ran
      simp only [Tool.event, Disk.step]
      rw [whole]
      rfl

end Alone

/-! ## Tools at once -/

/-- No tool is given a path that another one changes. -/
structure Distinct {Pid : Type} (tools : Pid → Tool) : Prop where
  ordinary : ∀ pid, ∀ target ∈ (tools pid).uses, Ordinary target.path
  apart :
    ∀ pid other, other ≠ pid →
      ∀ target ∈ (tools pid).uses, target.path ≠ (tools other).changed.path

/-- The names of a path are none of another path's. -/
theorem not_namesOf_of_ne
    {p q : Target} (ordinary : Ordinary p.path) (ordinary' : Ordinary q.path)
    (different : p.path ≠ q.path) {name : CString} (named : namesOf p name) :
    ¬ namesOf q name := by
  rcases not_namesOf ordinary' ordinary different with ⟨visible, image⟩
  rcases named with rfl | rfl | rfl
  · exact visible
  · exact image
  · rintro (same | same | same)
    · exact ordinary'.notTemp p same.symm
    · exact h5name_ne_temp q p same.symm
    · exact different (temp_injective same)

section Together

variable
    {Pid : Type} {platform : Platform} {tools : Pid → Tool}

/-- What the tools look at and what they change. -/
def bounds (platform : Platform) (distinct : Distinct tools) :
    Bounds fun pid => (tools pid).action platform.libs where
  seen pid := (tools pid).seen
  written pid := namesOf (tools pid).changed
  bounded pid := (tools pid).Bounded
  calls := by
    intro pid record op next bounded action
    rcases bounded_call bounded action with ⟨keeps, stays⟩
    exact ⟨keeps.1, keeps.2, stays⟩
  seen_of_written {pid name} named :=
    ⟨(tools pid).changed, (tools pid).changed_mem, named⟩
  apart := by
    rintro pid other name different written ⟨target, used, named⟩
    exact
      not_namesOf_of_ne (distinct.ordinary pid target used)
        (distinct.ordinary other _ (tools other).changed_mem)
        (distinct.apart pid other different target used) named written

variable [DecidableEq Pid]

/-- The tools on a disk, each about to make its first call. -/
abbrev begun (tools : Pid → Tool) (disk : Disk) :
    World Pid Disk Process fun pid => (tools pid).Record :=
  started disk fun pid => (tools pid).start

/-- A call of one of the tools. -/
abbrev toolsStep (platform : Platform) (tools : Pid → Tool) :=
  (processes platform fun pid => (tools pid).action platform.libs).step

/-- A call of a tool that has the disk to itself. -/
abbrev aloneStep
    (platform : Platform) (tool : Tool) (state : Sys × tool.Record)
    (choice : Choice) : Option (Sys × tool.Record) :=
  advance (kernel platform) (tool.action platform.libs) state.1 state.2 choice

variable
    {disk : Disk} {store : Store} {labels : List (Pid × Choice)}
    {final : World Pid Disk Process fun pid => (tools pid).Record}

/--
Tools at once, whatever the order of their calls and however these end: at
every moment each tool is where its own calls would have taken it alone, its
paths and their hidden names refer to what it would have left there alone, and
a name that is none of a changed path's refers to what it did.
-/
theorem tools_run_as_alone
    (distinct : Distinct tools) (oneName : OneName disk.fs)
    (ran :
      Transition.run (toolsStep platform tools) (begun tools disk) labels =
        some final) :
    (∀ pid, ∃ later,
      Transition.run (aloneStep platform (tools pid))
          (disk.sys, (tools pid).start) (choicesOf pid labels) =
          some (later, final.locals pid) ∧
        ∀ target ∈ (tools pid).uses, ∀ name, namesOf target name →
          final.shared.fs.lookup name = later.fs.lookup name) ∧
      ∀ name, (∀ pid, ¬ namesOf (tools pid).changed name) →
        final.shared.fs.lookup name = disk.fs.lookup name := by
  have bounded :
      ∀ pid,
        (bounds platform distinct).bounded pid (tools pid).start :=
    fun pid => bounded_start (tools pid)
  constructor
  · intro pid
    rcases run_as_alone oneName bounded ran pid with ⟨later, alone, same⟩
    refine ⟨later, alone, ?_⟩
    intro target used name named
    exact same name ⟨target, used, named⟩
  · intro name unchanged
    exact lookup_of_unwritten oneName bounded ran unchanged

end Together

/-! ## A put and a get at once -/

/-- `/s` is put to `/d` by one process, and got to `/g` by the other. -/
def toolsS : Bool → Tool
  | true => .put targetS targetD
  | false => .get targetS targetG fun _ => 0

def getsS : List Choice :=
  [.ok 0, .ok 0, .ok 0, .ok 3, .ok 4] ++
    List.replicate 7 (.ok Get.BUFLEN)

/-- The get runs while the put has both of its files open. -/
def labelsS : List (Bool × Choice) :=
  ((putsS 2).take 8).map (Prod.mk true) ++ getsS.map (Prod.mk false) ++
    ((putsS 2).drop 8).map (Prod.mk true)

theorem distinct_toolsS : Distinct toolsS where
  ordinary := by
    rintro (_ | _) target used
    all_goals
      rcases List.mem_cons.mp used with rfl | used
      · exact ordinary_of_not_hidden (by decide)
      · cases List.mem_singleton.mp used
        exact ordinary_of_not_hidden (by decide)
  apart := by
    rintro (_ | _) (_ | _) different target used
    · exact absurd rfl different
    · rcases List.mem_cons.mp used with rfl | used
      · decide
      · cases List.mem_singleton.mp used
        decide
    · rcases List.mem_cons.mp used with rfl | used
      · decide
      · cases List.mem_singleton.mp used
        decide
    · exact absurd rfl different

/-- The get has read everything, and the put has not closed its files. -/
theorem tools_run_as_alone_putAndGet :
    ∃ final,
      Transition.run (toolsStep storingPlatform toolsS) (begun toolsS diskS)
          (labelsS.take 20) =
        some final ∧
        ∀ pid, ∃ later,
          Transition.run (aloneStep storingPlatform (toolsS pid))
              (diskS.sys, (toolsS pid).start)
              (choicesOf pid (labelsS.take 20)) =
              some (later, final.locals pid) ∧
            ∀ target ∈ (toolsS pid).uses, ∀ name, namesOf target name →
              final.shared.fs.lookup name = later.fs.lookup name := by
  have runs :
      (Transition.run (toolsStep storingPlatform toolsS)
        (begun toolsS diskS) (labelsS.take 20)).isSome :=
    rfl
  rcases Option.isSome_iff_exists.mp runs with ⟨final, ran⟩
  exact
    ⟨final, ran,
      (tools_run_as_alone distinct_toolsS refines_storedS.oneName ran).1⟩

end DZFile.ParallelTools
