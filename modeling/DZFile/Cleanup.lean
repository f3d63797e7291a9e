import DZFile.Staging
import DZFile.Library.Transition

/-!
# What the converter closes

The label `out` closes `srcfd` and `h5fd` if they are positive.  Three exits
are taken before `h5fd` has a value, and two of them before `srcfd` has one;
there the tests see what the stack happens to hold.  And `open` may return
the number 0, which the test takes for a descriptor that was never opened.

The tables of the process after a conversion tell which of its descriptors and
handles have been closed: they are the tables it started with if and only if it
closed what it opened and nothing else.
-/

namespace DZFile.Cleanup

open DZFile.Interaction
open DZFile.Names
open DZFile.Codec
open DZFile.Image
open DZFile.Kernel
open DZFile.Converter
open DZFile.Staging

/-! ## Tables -/

section Tables

variable {α : Type} {table start : Int → Option α} {number : Int}

/-- `if (number > 0) close(number);`. -/
def closing (table : Int → Option α) (number : Int) : Int → Option α :=
  if 0 < number then Function.update table number none else table

/-- The test keeps the number from being closed, or it is not open. -/
def Quiet (table : Int → Option α) (number : Int) : Prop :=
  number ≤ 0 ∨ table number = none

theorem closing_eq_self_iff :
    closing table number = table ↔ Quiet table number := by
  unfold closing Quiet
  split
  · rename_i positive
    constructor
    · intro same
      right
      rw [← same, Function.update_self]
    · rintro (small | free)
      · omega
      · rw [← free, Function.update_eq_self]
  · rename_i small
    exact iff_of_true rfl (Or.inl (by omega))

/-- Opening a free number and closing it again. -/
theorem closing_update
    (positive : 0 < number) (free : table number = none) (entry : Option α) :
    closing (Function.update table number entry) number = table := by
  rw [closing, if_pos positive, Function.update_idem, ← free,
    Function.update_eq_self]

/-- Changing an entry before it is closed. -/
theorem closing_update_of_closing
    (positive : 0 < number) (closed : closing table number = start)
    (entry : Option α) :
    closing (Function.update table number entry) number = start := by
  rw [closing, if_pos positive] at closed ⊢
  rw [Function.update_idem, closed]

end Tables

/-! ## The way out -/

/-- The descriptors that are left when the converter has returned. -/
def endFds (sys : Sys) (c : Convert) : Int → Option OpenFile :=
  match c.pc with
  | .closeSource => Function.update sys.proc.fds c.srcfd none
  | _ => sys.proc.fds

/-- The handles that are left when the converter has returned. -/
def endHandles (sys : Sys) (c : Convert) : Int → Option H5Handle :=
  match c.pc with
  | .closeSource => closing sys.proc.handles c.h5fd
  | .closeImage => Function.update sys.proc.handles c.h5fd none
  | _ => sys.proc.handles

variable
    {platform : Platform} {sys sys' : Sys} {c c' : Convert}
    {choice : Choice}

theorem endFds_out (sys : Sys) (c : Convert) (ret : Int) :
    endFds sys (c.out ret) = closing sys.proc.fds c.srcfd := by
  unfold Convert.out Convert.outImage closing
  split
  · rfl
  · split <;> rfl

theorem endHandles_out (sys : Sys) (c : Convert) (ret : Int) :
    endHandles sys (c.out ret) = closing sys.proc.handles c.h5fd := by
  unfold Convert.out Convert.outImage
  split
  · rfl
  · unfold closing
    split <;> rfl

/-- On the way out it is settled what will be left. -/
theorem leaves_of_exiting
    (exiting : c.pc.exiting = true)
    (stepped : soloStep platform (sys, c) choice = some (sys', c')) :
    c'.pc.exiting = true ∧ endFds sys' c' = endFds sys c ∧
      endHandles sys' c' = endHandles sys c := by
  rcases advance_eq_some.mp stepped with
    ⟨op, next, reply, action, called, rfl⟩
  unfold Convert.action at action
  cases place : c.pc with
  | closeSource =>
      rw [place] at action
      cases action
      rcases Sys.close_eq_some called with rfl
      refine ⟨Convert.exiting_outImage c, ?_, ?_⟩
      · unfold Convert.outImage
        split <;> simp [endFds, place, Process.setFd]
      · unfold Convert.outImage
        split <;> simp_all [endHandles, closing]
  | closeImage =>
      rw [place] at action
      cases action
      refine ⟨rfl, ?_, ?_⟩
      · rcases Sys.h5fclose_eq_some called with
          ⟨lost, rfl⟩ | ⟨handle, held, rfl⟩
        · simp [endFds, place]
        · simp [endFds, place]
      · rcases Sys.h5fclose_eq_some called with
          ⟨lost, rfl⟩ | ⟨handle, held, rfl⟩
        · simp only [endHandles, place]
          rw [← lost, Function.update_eq_self]
        · simp [endHandles, place, Process.setHandle]
  | returned =>
      rw [place] at action
      cases action
  | _ =>
      rw [place] at exiting
      cases exiting

/-! ## The way in -/

/-- The converter has its source and its temporary file open. -/
def working (pc : Pc) : Bool :=
  pc.building || pc.publishing

theorem working_of_exiting {pc : Pc} (exiting : pc.exiting = true) :
    working pc = false := by
  cases pc <;> simp_all [Pc.exiting, working, Pc.building, Pc.publishing]

/-- Between the acquisitions and the way out only the offset moves. -/
theorem tables_of_moves
    {read : List Bytes}
    (moves : Moves platform sys c choice read sys' c')
    (inside : working c.pc = true) :
    sys'.proc.handles = sys.proc.handles ∧
      (sys'.proc.fds = sys.proc.fds ∨
        ∃ file file',
          sys.proc.fds c.srcfd = some file ∧
            sys'.proc.fds =
              Function.update sys.proc.fds c.srcfd (some file')) := by
  have elsewhere : ∀ {pc : Pc}, c.pc = pc → working pc = false → False := by
    intro pc place outside
    rw [place, outside] at inside
    cases inside
  cases moves with
  | looks next places =>
      rcases places with ⟨place, _⟩ | ⟨place, _⟩ <;>
        exact (elsewhere place rfl).elim
  | opens number ino place free found => exact (elsewhere place rfl).elim
  | creates number ino fs next place granted positive free created continues =>
      exact (elsewhere place rfl).elim
  | closesSource place => exact (elsewhere place rfl).elim
  | closesImage handle place held => exact (elsewhere place rfl).elim
  | reads buffer limit file place limited nonempty held data =>
      exact ⟨rfl, Or.inr ⟨file, _, held, rfl⟩⟩
  | _ => exact ⟨rfl, Or.inl rfl⟩

/-- The record keeps its two numbers, and goes on or leaves. -/
inductive GoesOn (c c' : Convert) : Prop where
  | on (inside : working c'.pc = true) (srcfd : c'.srcfd = c.srcfd)
      (h5fd : c'.h5fd = c.h5fd)
  | off (earlier : Convert) (ret : Int) (leaves : c' = earlier.out ret)
      (srcfd : earlier.srcfd = c.srcfd) (h5fd : earlier.h5fd = c.h5fd)

theorem goesOn_of_step
    (inside : working c.pc = true)
    (stepped : soloStep platform (sys, c) choice = some (sys', c')) :
    GoesOn c c' := by
  rcases advance_eq_some.mp stepped with
    ⟨op, next, reply, action, called, rfl⟩
  unfold Convert.action at action
  cases place : c.pc with
  | writeHeader text =>
      rw [place] at action
      cases action
      cases reply with
      | false => exact .off c (-1) rfl rfl rfl
      | true => exact .on rfl rfl rfl
  | readBlock =>
      rw [place] at action
      cases action
      cases reply with
      | error errno => exact .off c (-1) rfl rfl rfl
      | ok data => cases data <;> exact .on rfl rfl rfl
  | compressBlock buffer =>
      rw [place] at action
      cases action
      cases reply with
      | none => exact .off c (-1) rfl rfl rfl
      | some dstdata => exact .on rfl rfl rfl
  | writeBlock buffer dstdata =>
      rw [place] at action
      cases action
      cases reply with
      | false =>
          exact .off { c with count := c.count + 1 } (-1) rfl rfl rfl
      | true => exact .on rfl rfl rfl
  | renameTemp =>
      rw [place] at action
      cases action
      cases reply with
      | error errno => exact .off c (-1) rfl rfl rfl
      | ok done => exact .on rfl rfl rfl
  | statSource =>
      rw [place] at action
      cases action
      cases reply with
      | error errno => exact .off c (-1) rfl rfl rfl
      | ok stbuf => exact .on rfl rfl rfl
  | truncateZero =>
      rw [place] at action
      cases action
      cases reply with
      | error errno => exact .off c (-1) rfl rfl rfl
      | ok done => exact .on rfl rfl rfl
  | truncateSize =>
      rw [place] at action
      cases action
      cases reply with
      | error errno => exact .off c (-1) rfl rfl rfl
      | ok done => exact .off c 0 rfl rfl rfl
  | _ =>
      rw [place] at inside
      cases inside

/-- A check finds its name and leaves, or finds nothing and goes on. -/
theorem checks_of_step
    {name : CString} {after : Pc}
    (places :
      (c.pc = .statImage ∧ name = c.target.h5name ∧ after = .statTemp) ∨
        (c.pc = .statTemp ∧ name = c.target.temp ∧ after = .openSource))
    (stepped : soloStep platform (sys, c) choice = some (sys', c')) :
    sys' = sys ∧
      ((∃ stbuf, sys.stat platform choice name = some (.ok stbuf, sys) ∧
          c' = c.out (-1)) ∨
        (∃ errno, sys.stat platform choice name = some (.error errno, sys) ∧
          c' = { c with pc := after })) := by
  rcases advance_eq_some.mp stepped with
    ⟨op, next, reply, action, called, rfl⟩
  unfold Convert.action at action
  rcases places with ⟨place, rfl, rfl⟩ | ⟨place, rfl, rfl⟩
  · rw [place] at action
    cases action
    rcases Sys.stat_eq_some called with ⟨rfl, _⟩
    refine ⟨rfl, ?_⟩
    cases reply with
    | ok stbuf => exact Or.inl ⟨stbuf, called, rfl⟩
    | error errno => exact Or.inr ⟨errno, called, rfl⟩
  · rw [place] at action
    cases action
    rcases Sys.stat_eq_some called with ⟨rfl, _⟩
    refine ⟨rfl, ?_⟩
    cases reply with
    | ok stbuf => exact Or.inl ⟨stbuf, called, rfl⟩
    | error errno => exact Or.inr ⟨errno, called, rfl⟩

/-- `open` fails, or enters a descriptor under a free number. -/
theorem opens_of_step
    (place : c.pc = .openSource)
    (stepped : soloStep platform (sys, c) choice = some (sys', c')) :
    (∃ errno,
        sys.openFile choice c.target.path O_RDONLY =
            some (.error errno, sys) ∧
          sys' = sys ∧ c' = { c with srcfd := -1 }.out (-1)) ∨
      ∃ (number : Nat) (file : OpenFile),
        sys.openFile choice c.target.path O_RDONLY =
            some (.ok (number : Int), sys') ∧
          sys.proc.fds number = none ∧
            sys'.proc.fds =
                Function.update sys.proc.fds number (some file) ∧
              sys'.proc.handles = sys.proc.handles ∧
                c' = { c with srcfd := number, pc := .createTemp } := by
  rcases advance_eq_some.mp stepped with
    ⟨op, next, reply, action, called, rfl⟩
  unfold Convert.action at action
  rw [place] at action
  cases action
  cases reply with
  | error errno =>
      rcases Sys.openFile_eq_error called with rfl
      exact Or.inl ⟨errno, called, rfl, rfl⟩
  | ok fd =>
      rcases Sys.openFile_eq_ok (by decide) (by decide) called with
        ⟨number, ino, rfl, free, found, rfl⟩
      exact Or.inr ⟨number, _, called, free, rfl, rfl, rfl⟩

/-- Closing what `H5Fcreate` returned gives the handles of before. -/
theorem creates_of_step
    (place : c.pc = .createTemp)
    (stepped : soloStep platform (sys, c) choice = some (sys', c')) :
    ∃ h5fd,
      sys'.proc.fds = sys.proc.fds ∧
        closing sys'.proc.handles h5fd = sys.proc.handles ∧
          (c' = { c with h5fd := h5fd }.out (-1) ∨
            ∃ text,
              c' = { c with h5fd := h5fd, pc := .writeHeader text }) := by
  rcases advance_eq_some.mp stepped with
    ⟨op, next, reply, action, called, rfl⟩
  unfold Convert.action at action
  rw [place] at action
  cases action
  rcases h5fcreate_eq_some called with
    ⟨rfl, rfl⟩ | ⟨number, ino, fs, rfl, granted, positive, free, created, rfl⟩
  · refine ⟨-1, rfl, ?_, Or.inl rfl⟩
    exact closing_eq_self_iff.mpr (Or.inl (by omega))
  · refine ⟨number, rfl, ?_, ?_⟩
    · exact closing_update (by omega) free _
    · cases header : version platform.libs c.method with
      | none => exact Or.inl rfl
      | some text => exact Or.inr ⟨text, rfl⟩

/-! ## Restored tables -/

/-- The process has the descriptors and handles open that it had before. -/
structure Restored (before after : Process) : Prop where
  fds : after.fds = before.fds
  handles : after.handles = before.handles

/--
A check that finds its name, or an `open` that fails, meets no stale number
that is open, and `open` does not return 0.
-/
def Harmless
    (platform : Platform) (state : Sys × Convert) (choice : Choice) : Prop :=
  match state.2.pc with
  | .statImage =>
      ∀ stbuf later,
        state.1.stat platform choice state.2.target.h5name =
            some (.ok stbuf, later) →
          Quiet state.1.proc.fds state.2.srcfd ∧
            Quiet state.1.proc.handles state.2.h5fd
  | .statTemp =>
      ∀ stbuf later,
        state.1.stat platform choice state.2.target.temp =
            some (.ok stbuf, later) →
          Quiet state.1.proc.fds state.2.srcfd ∧
            Quiet state.1.proc.handles state.2.h5fd
  | .openSource =>
      (∀ errno later,
          state.1.openFile choice state.2.target.path O_RDONLY =
              some (.error errno, later) →
            Quiet state.1.proc.handles state.2.h5fd) ∧
        ∀ later,
          state.1.openFile choice state.2.target.path O_RDONLY ≠
            some (.ok 0, later)
  | _ => True

/-- What the converter holds, at each place, in a run of harmless steps. -/
structure Tidy (start : Process) (sys : Sys) (c : Convert) : Prop where
  early :
    c.pc = .statImage ∨ c.pc = .statTemp ∨ c.pc = .openSource →
      Restored start sys.proc
  opened :
    c.pc = .createTemp →
      0 < c.srcfd ∧ closing sys.proc.fds c.srcfd = start.fds ∧
        sys.proc.handles = start.handles
  inside :
    working c.pc = true →
      0 < c.srcfd ∧ closing sys.proc.fds c.srcfd = start.fds ∧
        closing sys.proc.handles c.h5fd = start.handles
  leaving :
    c.pc.exiting = true →
      endFds sys c = start.fds ∧ endHandles sys c = start.handles

/-- A table is not restored, or descriptor 0 is not going to be closed. -/
def Untidy (start : Process) (sys : Sys) (c : Convert) : Prop :=
  (c.pc.exiting = true ∧
      ¬ (endFds sys c = start.fds ∧ endHandles sys c = start.handles)) ∨
    ((c.pc = .createTemp ∨ working c.pc = true) ∧ c.srcfd = 0 ∧
      start.fds 0 = none ∧ sys.proc.fds 0 ≠ none)

section Steps

variable {start : Process}

theorem tidy_of_early
    (place : c.pc = .statImage ∨ c.pc = .statTemp ∨ c.pc = .openSource)
    (restored : Restored start sys.proc) :
    Tidy start sys c where
  early _ := restored
  opened place' := by
    rcases place with place | place | place <;>
      rw [place] at place' <;> cases place'
  inside inside := by
    rcases place with place | place | place <;>
      rw [place] at inside <;> cases inside
  leaving exiting := by
    rcases place with place | place | place <;>
      rw [place] at exiting <;> cases exiting

theorem tidy_of_working
    (inside : working c.pc = true) (positive : 0 < c.srcfd)
    (fds : closing sys.proc.fds c.srcfd = start.fds)
    (handles : closing sys.proc.handles c.h5fd = start.handles) :
    Tidy start sys c where
  early early := by
    rcases early with place | place | place <;>
      rw [place] at inside <;> cases inside
  opened place := by
    rw [place] at inside
    cases inside
  inside _ := ⟨positive, fds, handles⟩
  leaving exiting := by
    rw [working_of_exiting exiting] at inside
    cases inside

theorem tidy_of_exiting
    (exiting : c.pc.exiting = true) (fds : endFds sys c = start.fds)
    (handles : endHandles sys c = start.handles) :
    Tidy start sys c where
  early early := by
    rcases early with place | place | place <;>
      rw [place] at exiting <;> cases exiting
  opened place := by
    rw [place] at exiting
    cases exiting
  inside inside := by
    rw [working_of_exiting exiting] at inside
    cases inside
  leaving _ := ⟨fds, handles⟩

/-- The exit closes what the two numbers name. -/
theorem tidy_out
    {ret : Int} (fds : closing sys.proc.fds c.srcfd = start.fds)
    (handles : closing sys.proc.handles c.h5fd = start.handles) :
    Tidy start sys (c.out ret) := by
  apply tidy_of_exiting (Convert.exiting_out c ret)
  · rw [endFds_out]
    exact fds
  · rw [endHandles_out]
    exact handles

theorem untidy_out
    {ret : Int}
    (open_ :
      ¬ (closing sys.proc.fds c.srcfd = start.fds ∧
        closing sys.proc.handles c.h5fd = start.handles)) :
    Untidy start sys (c.out ret) := by
  left
  rw [endFds_out, endHandles_out]
  exact ⟨Convert.exiting_out c ret, open_⟩

/-- The number 0 is not closed. -/
theorem untidy_out_of_zero
    {ret : Int} (zero : c.srcfd = 0) (free : start.fds 0 = none)
    (held : sys.proc.fds 0 ≠ none) :
    Untidy start sys (c.out ret) := by
  apply untidy_out
  rintro ⟨same, _⟩
  rw [zero, closing, if_neg (Int.lt_irrefl 0)] at same
  rw [same] at held
  exact held free

theorem Tidy.checks
    {name : CString} {after : Pc}
    (tidy : Tidy start sys c)
    (places :
      (c.pc = .statImage ∧ name = c.target.h5name ∧ after = .statTemp) ∨
        (c.pc = .statTemp ∧ name = c.target.temp ∧ after = .openSource))
    (quiet :
      ∀ stbuf later,
        sys.stat platform choice name = some (.ok stbuf, later) →
          Quiet sys.proc.fds c.srcfd ∧ Quiet sys.proc.handles c.h5fd)
    (stepped : soloStep platform (sys, c) choice = some (sys', c')) :
    Tidy start sys' c' := by
  have restored : Restored start sys.proc := by
    rcases places with ⟨place, _⟩ | ⟨place, _⟩
    · exact tidy.early (Or.inl place)
    · exact tidy.early (Or.inr (Or.inl place))
  rcases checks_of_step places stepped with
    ⟨rfl, ⟨stbuf, found, rfl⟩ | ⟨errno, missing, rfl⟩⟩
  · rcases quiet stbuf _ found with ⟨quietFd, quietHandle⟩
    apply tidy_out
    · rw [closing_eq_self_iff.mpr quietFd, restored.fds]
    · rw [closing_eq_self_iff.mpr quietHandle, restored.handles]
  · apply tidy_of_early _ restored
    rcases places with ⟨_, _, rfl⟩ | ⟨_, _, rfl⟩
    · exact Or.inr (Or.inl rfl)
    · exact Or.inr (Or.inr rfl)

theorem Tidy.opens
    (tidy : Tidy start sys c) (place : c.pc = .openSource)
    (harmless : Harmless platform (sys, c) choice)
    (stepped : soloStep platform (sys, c) choice = some (sys', c')) :
    Tidy start sys' c' := by
  have restored := tidy.early (Or.inr (Or.inr place))
  simp only [Harmless, place] at harmless
  rcases harmless with ⟨quiet, positive⟩
  rcases opens_of_step place stepped with
    ⟨errno, refused, rfl, rfl⟩ |
      ⟨number, file, granted, free, fds, handles, rfl⟩
  · apply tidy_out
    · have unopened : Quiet sys'.proc.fds (-1) := Or.inl (by omega)
      exact (closing_eq_self_iff.mpr unopened).trans restored.fds
    · exact
        (closing_eq_self_iff.mpr (quiet errno _ refused)).trans
          restored.handles
  · have above : 0 < number := by
      apply Nat.pos_of_ne_zero
      rintro rfl
      exact positive _ granted
    have closed : closing sys'.proc.fds number = start.fds := by
      rw [fds, closing_update (by omega) free, restored.fds]
    exact
      { early := by intro early; simp at early
        opened := fun _ =>
          ⟨by simp [above], closed, handles.trans restored.handles⟩
        inside := by intro inside; cases inside
        leaving := by intro exiting; cases exiting }

theorem Tidy.creates
    (tidy : Tidy start sys c) (place : c.pc = .createTemp)
    (stepped : soloStep platform (sys, c) choice = some (sys', c')) :
    Tidy start sys' c' := by
  rcases tidy.opened place with ⟨positive, closed, handles⟩
  rcases creates_of_step place stepped with
    ⟨h5fd, fds, restored, rfl | ⟨text, rfl⟩⟩
  · apply tidy_out
    · rw [fds]
      exact closed
    · exact restored.trans handles
  · apply tidy_of_working
    · rfl
    · exact positive
    · rw [fds]
      exact closed
    · exact restored.trans handles

theorem Tidy.works
    (tidy : Tidy start sys c) (inside : working c.pc = true)
    (stepped : soloStep platform (sys, c) choice = some (sys', c')) :
    Tidy start sys' c' := by
  rcases tidy.inside inside with ⟨positive, closed, handles⟩
  rcases moves_of_step stepped with ⟨read, moves⟩
  rcases tables_of_moves moves inside with ⟨sameHandles, fds⟩
  have closed' : closing sys'.proc.fds c.srcfd = start.fds := by
    rcases fds with same | ⟨file, file', _, advanced⟩
    · rw [same, closed]
    · rw [advanced]
      exact closing_update_of_closing positive closed _
  cases goesOn_of_step inside stepped with
  | on inside' srcfd h5fd =>
      apply tidy_of_working inside'
      · rw [srcfd]
        exact positive
      · rw [srcfd]
        exact closed'
      · rw [h5fd, sameHandles]
        exact handles
  | off earlier ret leaves srcfd h5fd =>
      rw [leaves]
      apply tidy_out
      · rw [srcfd]
        exact closed'
      · rw [h5fd, sameHandles]
        exact handles

theorem Tidy.leaves
    (tidy : Tidy start sys c) (exiting : c.pc.exiting = true)
    (stepped : soloStep platform (sys, c) choice = some (sys', c')) :
    Tidy start sys' c' := by
  rcases leaves_of_exiting exiting stepped with ⟨exiting', fds, handles⟩
  rcases tidy.leaving exiting with ⟨sameFds, sameHandles⟩
  exact
    tidy_of_exiting exiting' (fds.trans sameFds) (handles.trans sameHandles)

/-- The four stretches of a conversion. -/
theorem places (pc : Pc) :
    pc = .statImage ∨ pc = .statTemp ∨ pc = .openSource ∨
      pc = .createTemp ∨ working pc = true ∨ pc.exiting = true := by
  cases pc <;> simp [working, Pc.building, Pc.publishing, Pc.exiting]

/-- Harmless steps keep the converter tidy. -/
theorem Tidy.step
    (tidy : Tidy start sys c)
    (harmless : Harmless platform (sys, c) choice)
    (stepped : soloStep platform (sys, c) choice = some (sys', c')) :
    Tidy start sys' c' := by
  rcases places c.pc with
    place | place | place | place | inside | exiting
  · have quiet := harmless
    simp only [Harmless, place] at quiet
    exact tidy.checks (Or.inl ⟨place, rfl, rfl⟩) quiet stepped
  · have quiet := harmless
    simp only [Harmless, place] at quiet
    exact tidy.checks (Or.inr ⟨place, rfl, rfl⟩) quiet stepped
  · exact tidy.opens place harmless stepped
  · exact tidy.creates place stepped
  · exact tidy.works inside stepped
  · exact tidy.leaves exiting stepped

/-- A check that meets a stale number that is open closes it. -/
theorem untidy_of_checks
    {name : CString} {after : Pc}
    (tidy : Tidy start sys c)
    (places :
      (c.pc = .statImage ∧ name = c.target.h5name ∧ after = .statTemp) ∨
        (c.pc = .statTemp ∧ name = c.target.temp ∧ after = .openSource))
    (stale :
      ¬ ∀ stbuf later,
        sys.stat platform choice name = some (.ok stbuf, later) →
          Quiet sys.proc.fds c.srcfd ∧ Quiet sys.proc.handles c.h5fd)
    (stepped : soloStep platform (sys, c) choice = some (sys', c')) :
    Untidy start sys' c' := by
  have restored : Restored start sys.proc := by
    rcases places with ⟨place, _⟩ | ⟨place, _⟩
    · exact tidy.early (Or.inl place)
    · exact tidy.early (Or.inr (Or.inl place))
  simp only [not_forall] at stale
  rcases stale with ⟨stbuf, later, found, loud⟩
  rcases checks_of_step places stepped with
    ⟨rfl, ⟨_, _, rfl⟩ | ⟨errno, missing, _⟩⟩
  · apply untidy_out
    rw [← restored.fds, ← restored.handles, closing_eq_self_iff,
      closing_eq_self_iff]
    exact loud
  · rw [missing] at found
    cases found

/-- So does an `open` that fails; one that returns 0 is never closed. -/
theorem untidy_of_opens
    (tidy : Tidy start sys c) (place : c.pc = .openSource)
    (harm : ¬ Harmless platform (sys, c) choice)
    (stepped : soloStep platform (sys, c) choice = some (sys', c')) :
    Untidy start sys' c' := by
  have restored := tidy.early (Or.inr (Or.inr place))
  simp only [Harmless, place, not_and_or, not_forall, ne_eq, not_not] at harm
  rcases opens_of_step place stepped with
    ⟨errno, refused, rfl, rfl⟩ |
      ⟨number, file, granted, free, fds, handles, rfl⟩
  · rcases harm with ⟨_, _, _, loud⟩ | ⟨_, zero⟩
    · apply untidy_out
      rintro ⟨_, same⟩
      rw [← restored.handles] at same
      exact loud (closing_eq_self_iff.mp same)
    · rw [refused] at zero
      cases zero
  · rcases harm with ⟨_, _, failed, _⟩ | ⟨_, zero⟩
    · rw [granted] at failed
      cases failed
    · rw [granted] at zero
      have isZero : number = 0 := by
        simp only [Option.some.injEq, Prod.mk.injEq, Except.ok.injEq] at zero
        omega
      subst isZero
      right
      refine ⟨Or.inl rfl, rfl, ?_, ?_⟩
      · rw [← restored.fds]
        exact free
      · rw [fds]
        simp

theorem untidy_of_harm
    (tidy : Tidy start sys c)
    (harm : ¬ Harmless platform (sys, c) choice)
    (stepped : soloStep platform (sys, c) choice = some (sys', c')) :
    Untidy start sys' c' := by
  have trivially : Harmless platform (sys, c) choice ∨
      (c.pc = .statImage ∨ c.pc = .statTemp ∨ c.pc = .openSource) := by
    cases place : c.pc <;> simp [Harmless, place]
  rcases trivially.resolve_left harm with place | place | place
  · have stale := harm
    simp only [Harmless, place] at stale
    exact
      untidy_of_checks tidy (Or.inl ⟨place, rfl, rfl⟩) stale stepped
  · have stale := harm
    simp only [Harmless, place] at stale
    exact
      untidy_of_checks tidy (Or.inr ⟨place, rfl, rfl⟩) stale stepped
  · exact untidy_of_opens tidy place harm stepped

/-- Nothing makes up for it. -/
theorem Untidy.step
    (untidy : Untidy start sys c)
    (stepped : soloStep platform (sys, c) choice = some (sys', c')) :
    Untidy start sys' c' := by
  rcases untidy with ⟨exiting, different⟩ | ⟨inside, zero, free, held⟩
  · rcases leaves_of_exiting exiting stepped with ⟨exiting', fds, handles⟩
    left
    rw [fds, handles]
    exact ⟨exiting', different⟩
  · rcases inside with place | inside
    · rcases creates_of_step place stepped with
        ⟨h5fd, fds, _, rfl | ⟨text, rfl⟩⟩
      · refine untidy_out_of_zero ?_ free ?_
        · exact zero
        · rw [fds]
          exact held
      · right
        refine ⟨Or.inr rfl, zero, free, ?_⟩
        rw [fds]
        exact held
    · rcases moves_of_step stepped with ⟨read, moves⟩
      have held' : sys'.proc.fds 0 ≠ none := by
        rcases (tables_of_moves moves inside).2 with
          same | ⟨file, file', _, advanced⟩
        · rw [same]
          exact held
        · rw [advanced, zero]
          simp
      cases goesOn_of_step inside stepped with
      | on inside' srcfd h5fd =>
          right
          exact ⟨Or.inr inside', srcfd.trans zero, free, held'⟩
      | off earlier ret leaves srcfd h5fd =>
          rw [leaves]
          exact untidy_out_of_zero (srcfd.trans zero) free held'

end Steps

/-- `/f` is converted, and the process has it open under the number 3. -/
def openedF : Sys :=
  { storeF [7] with
    fs :=
      (storeF [7]).fs.link targetF.h5name
        (.image { datasets := [], writer := false, closed := true })
    proc := Process.empty.setFd 3 (some ⟨0, 0, O_RDONLY⟩) }

end DZFile.Cleanup
