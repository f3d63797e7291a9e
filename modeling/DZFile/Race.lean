import DZFile.Bystander
import DZFile.Conversion
import DZFile.Opening
import DZFile.Walker
import DZFile.Library.RelyGuarantee

/-!
# Two conversions of one path

Two threads of the walker's pool run `process_file` on the same path; every
call of either is a step.  Each looks for the image and for the temporary file
and goes on when it finds neither, so one of them can pass both tests, wait
until the other has renamed its file and truncated the source, and then copy
the zeros over the image.

The state notes whether the source has been truncated and which thread has
read it since.  In every run in which no such thread has its `rename` granted
the path keeps its content.
-/

namespace DZFile.Race

open DZFile.ByteSeq
open DZFile.Interaction
open DZFile.RelyGuarantee
open DZFile.Transition
open DZFile.Names
open DZFile.Codec
open DZFile.Image
open DZFile.Kernel
open DZFile.Api
open DZFile.Opening
open DZFile.Converter
open DZFile.Staging
open DZFile.Publishing
open DZFile.Conversion
open DZFile.Walker
open DZFile.Bystander

/-! ## The threads -/

/-- The two threads. -/
inductive Runner where
  | first | second
deriving DecidableEq

/-- The one beside it. -/
def Runner.other : Runner → Runner
  | .first => .second
  | .second => .first

theorem Runner.other_ne (who : Runner) : who.other ≠ who := by
  cases who <;> decide

theorem Runner.eq_other {who runner : Runner} (different : runner ≠ who) :
    runner = who.other := by
  cases who <;> cases runner <;> first
    | rfl
    | exact (different rfl).elim

theorem Runner.other_other (who : Runner) : who.other.other = who := by
  cases who <;> rfl

/--
A thread in the tests of `process_file`, with the values of the uninitialised
locals of `convert2h5`; or in `convert2h5`.
-/
inductive Thread where
  | deciding (rest : Call (Option Target)) (srcfd h5fd : Int)
  | converting (c : Convert)

/-- `process_file` calls `convert2h5` when its tests are passed. -/
def Thread.of (rest : Call (Option Target)) (srcfd h5fd : Int) : Thread :=
  match rest with
  | .ret (some target) =>
      .converting (convert2h5 target .DZ_ALG_ZSTD srcfd h5fd)
  | rest => .deciding rest srcfd h5fd

/-- What a thread does next. -/
def Thread.action (libs : Libs) : Thread → Action Op Reply Thread Unit
  | .deciding (.call op next) srcfd h5fd =>
      .call op fun reply => Thread.of (next reply) srcfd h5fd
  | .deciding (.ret _) _ _ => .done ()
  | .deciding .fault _ _ => .fault
  | .converting c =>
      match c.action libs with
      | .call op next => .call op fun reply => .converting (next reply)
      | .done _ => .done ()
      | .fault => .fault

/-- `process_file` has returned. -/
def Thread.finished : Thread → Bool
  | .deciding rest _ _ => rest.returned.isSome
  | .converting c => c.pc = .returned

/-- The next call reads the source. -/
def Thread.reads : Thread → Bool
  | .converting c => c.pc = .readBlock
  | _ => false

/-- The next call renames the temporary file. -/
def Thread.renames : Thread → Bool
  | .converting c => c.pc = .renameTemp
  | _ => false

/-- The next call empties the source. -/
def Thread.truncates : Thread → Bool
  | .converting c => c.pc = .truncateZero
  | _ => false

/-- The process of the walker, its threads, and what has been noted. -/
structure Racing where
  sys : Sys
  thread : Runner → Thread
  /-- The source has been truncated. -/
  truncated : Bool
  /-- The thread has read the source after that. -/
  stale : Runner → Bool

/-- A thread makes its next call. -/
structure Label where
  who : Runner
  choice : Choice

/-- One step. -/
def step (platform : Platform) (racing : Racing) (label : Label) :
    Option Racing :=
  let thread := racing.thread label.who
  (advance (kernel platform) (Thread.action platform.libs) racing.sys thread
      label.choice).map fun state =>
    { sys := state.1
      thread := Function.update racing.thread label.who state.2
      truncated :=
        racing.truncated || (thread.truncates && !label.choice.fails)
      stale :=
        Function.update racing.stale label.who
          (racing.stale label.who || (thread.reads && racing.truncated)) }

/-- Both threads are about to run `process_file`. -/
def Racing.start
    (policy : Policy) (sys : Sys) (path : CString)
    (srcfd h5fd : Runner → Int) : Racing where
  sys := sys
  thread who := Thread.of (process_file policy path) (srcfd who) (h5fd who)
  truncated := false
  stale _ := false

/-! ## The property -/

/-- The decoded image if there is one, else the plain bytes. -/
def LogicallyHolds
    (libs : Libs) (fs : FileSystem) (target : Target) (content : Bytes) :
    Prop :=
  match fs.lookup target.h5name with
  | none => fs.lookup target.path = some (.file content)
  | some (.image image) => Decodes libs image content
  | some _ => False

/-- After both have returned the path has its content. -/
def Survives
    (libs : Libs) (target : Target) (content : Bytes) (racing : Racing) :
    Prop :=
  (∀ who, (racing.thread who).finished = true) →
    LogicallyHolds libs racing.sys.fs target content

/-- No granted `rename` is that of a thread that has read a truncated source. -/
def Fresh (racing : Racing) (label : Label) : Prop :=
  (racing.thread label.who).renames = true → label.choice.fails = false →
    racing.stale label.who = false

/-! ## The tests -/

/-- The record a thread works on, or will work on. -/
def Thread.record (target : Target) : Thread → Convert
  | .deciding _ srcfd h5fd => convert2h5 target .DZ_ALG_ZSTD srcfd h5fd
  | .converting c => c

/-- A call that only looks at a name. -/
def isStat : Op → Prop
  | .stat _ => True
  | _ => False

/-- The tests look at names and hand over the target at most. -/
def Tests (target : Target) (rest : Call (Option Target)) : Prop :=
  rest.AllCalls isStat ∧
    Ensures (fun _ _ : Unit => True) (fun _ _ _ _ => True)
      (fun found _ => ∀ handed, found = some handed → handed = target) rest ()

theorem conversionOf_path (target : Target) :
    conversionOf target.path = some target := by
  rcases target with ⟨path, h5name, built⟩
  unfold conversionOf
  split
  · rename_i absent
    rw [built] at absent
    cases absent
  · rename_i other built'
    have same : other = h5name := by
      rw [built] at built'
      exact (Option.some.inj built').symm
    subst same
    rfl

section Tests

variable {target : Target}

theorem tests_ret_none : Tests target (.ret none) := by
  constructor
  · trivial
  · intro _ _ handed handing
    cases handing

theorem tests_stat
    {path : CString} {next : Except Errno Stat → Call (Option Target)}
    (rest : ∀ found, Tests target (next found)) :
    Tests target (.call (.stat path) next) := by
  constructor
  · exact ⟨trivial, fun found => (rest found).1⟩
  · intro _ _ found _ _
    exact (rest found).2

/-- The look at the hidden image, and the tests that follow it. -/
theorem tests_findhiddenFile
    {path : CString} {rest : Int → Call (Option Target)}
    (tests : ∀ ret, Tests target (rest ret)) :
    Tests target (findhiddenFile path >>= rest) := by
  unfold findhiddenFile
  split
  · exact tests (-1)
  · apply tests_stat
    rintro (errno | stbuf)
    · cases errno <;> exact tests _
    · exact tests _

theorem tests_process_file (policy : Policy) (target : Target) :
    Tests target (process_file policy target.path) := by
  unfold process_file
  split
  · exact tests_ret_none
  · apply tests_stat
    rintro (errno | stbuf)
    · exact tests_ret_none
    · show
        Tests target
          (if (stbuf.size : Int) < policy.low_size then Prog.ret none else _)
      split
      · exact tests_ret_none
      · apply tests_findhiddenFile
        intro ret
        split
        · exact tests_ret_none
        · split
          · exact tests_ret_none
          · rw [conversionOf_path]
            constructor
            · trivial
            · intro _ _ handed handing
              exact (Option.some.inj handing).symm

/-- Looking at a name changes nothing, and leaves the rest of the tests. -/
theorem Tests.step
    {platform : Platform} {sys later : Sys} {choice : Choice} {op : Op}
    {next : Reply op → Call (Option Target)} {reply : Reply op}
    (tests : Tests target (.call op next))
    (called : kernel platform sys choice op = some (reply, later)) :
    later = sys ∧ Tests target (next reply) := by
  rcases tests with ⟨⟨kind, calls⟩, returns⟩
  constructor
  · cases op with
    | stat path => exact (stat_reply called).1
    | _ => exact kind.elim
  · constructor
    · exact calls reply
    · exact returns.called (fun _ => trivial) trivial

/-- When the tests are over the record is that of a conversion that starts. -/
theorem Tests.record
    {rest : Call (Option Target)} (tests : Tests target rest)
    (srcfd h5fd : Int) :
    (Thread.of rest srcfd h5fd).record target =
      convert2h5 target .DZ_ALG_ZSTD srcfd h5fd := by
  unfold Thread.of
  split
  · rename_i handed
    have same :=
      tests.2.returned (fun _ => trivial) handed rfl
    subst same
    rfl
  · rfl

end Tests

/-- A thread in its tests keeps to them. -/
def Thread.Sound (target : Target) : Thread → Prop
  | .deciding rest _ _ => Tests target rest
  | .converting _ => True

theorem Tests.sound
    {target : Target} {rest : Call (Option Target)}
    (tests : Tests target rest) (srcfd h5fd : Int) :
    (Thread.of rest srcfd h5fd).Sound target := by
  unfold Thread.of
  split
  · trivial
  · exact tests

/--
A step of a thread changes nothing but how far it is in its tests, or it is a
step of its conversion.
-/
theorem Thread.moves
    {platform : Platform} {target : Target} {sys later : Sys}
    {thread thread' : Thread} {choice : Choice}
    (sound : thread.Sound target)
    (stepped :
      advance (kernel platform) (Thread.action platform.libs) sys thread
          choice =
        some (later, thread')) :
    thread'.Sound target ∧
      ((later = sys ∧ thread'.record target = thread.record target ∧
          thread.reads = false ∧ thread.renames = false ∧
            thread.truncates = false) ∨
        ∃ c c',
          thread = .converting c ∧ thread' = .converting c' ∧
            c.step platform sys choice = some (later, c')) := by
  rcases advance_eq_some.mp stepped with
    ⟨op, next, reply, action, called, rfl⟩
  cases thread with
  | deciding rest srcfd h5fd =>
      cases rest with
      | ret found => cases action
      | fault => cases action
      | call op' next' =>
          cases action
          rcases Tests.step sound called with ⟨rfl, tests⟩
          constructor
          · exact tests.sound srcfd h5fd
          · left
            exact ⟨rfl, tests.record srcfd h5fd, rfl, rfl, rfl⟩
  | converting c =>
      cases place : c.action platform.libs with
      | done value =>
          simp only [Thread.action, place] at action
          cases action
      | fault =>
          simp only [Thread.action, place] at action
          cases action
      | call op' next' =>
          simp only [Thread.action, place] at action
          cases action
          constructor
          · trivial
          · right
            have moved :
                c.step platform sys choice = some (later, next' reply) :=
              advance_eq_some.mpr ⟨op, next', reply, place, called, rfl⟩
            exact ⟨c, next' reply, rfl, rfl, moved⟩

/-! ## The invariant -/

/-- What holds of the file system. -/
structure Common
    (platform : Platform) (content : Bytes) (target : Target) (src : Ino)
    (fs : FileSystem) (truncated : Bool) : Prop where
  source : fs.entry target.path = some src
  apart : Apart fs target src
  image :
    ImageOf platform.libs .DZ_ALG_ZSTD fs target src fun pieces =>
      pieces.flatten = content
  file : ∃ now, fs.node src = .file now
  intact : truncated = false → fs.node src = .file content
  published : truncated = true → fs.entry target.h5name ≠ none

/-- What holds of a conversion beside another. -/
structure Running
    (platform : Platform) (content : Bytes) (target : Target) (src : Ino)
    (sys : Sys) (truncated stale : Bool) (c other : Convert) : Prop where
  atWork : c.target = target
  withMethod : c.method = .DZ_ALG_ZSTD
  ahead :
    past c.pc = false →
      ∃ pieces,
        Stage platform sys c src pieces ∧
          (stale = false → CopyOf content c pieces)
  behind :
    past c.pc = true → (c.pc.exiting = true → c.ret = 0) →
      sys.fs.entry target.h5name ≠ none
  emptied : c.pc = .truncateSize → truncated = true
  locked :
    c.pc.building = true →
      other.pc.exiting = true ∨ Locked sys.fs target
  opened :
    attached c.pc = true →
      other.pc.exiting = true ∨ sys.proc.fds c.srcfd ≠ none
  alone : c.pc.building = true → other.pc.building = false
  distinct :
    attached c.pc = true → attached other.pc = true →
      c.srcfd ≠ other.srcfd

section Steps

variable
    {platform : Platform} {content : Bytes} {target : Target} {src : Ino}
    {sys later : Sys} {truncated stale : Bool} {c c' other : Convert}
    {choice : Choice} {read : List Bytes}

/-- Past its `rename` a converter has the stage of the image that is there. -/
theorem Running.stage
    (running :
      Running platform content target src sys truncated stale c other)
    (common : Common platform content target src sys.fs truncated) :
    ∃ pieces, Stage platform sys c src pieces := by
  cases behind : past c.pc with
  | false =>
      rcases running.ahead behind with ⟨pieces, stage, _⟩
      exact ⟨pieces, stage⟩
  | true =>
      by_cases settled : c.pc.exiting = true → c.ret = 0
      · have present := running.behind behind settled
        rcases Option.ne_none_iff_exists'.mp present with ⟨ino, named⟩
        rcases common.image ino named with
          ⟨image, pieces, node, different, written, _⟩
        have published : Published platform sys c src pieces := by
          refine ⟨ino, image, ?_, node, different, ?_⟩
          · rw [running.atWork]
            exact named
          · rw [running.withMethod]
            exact written
        refine ⟨pieces, ?_⟩
        unfold Stage
        cases place : c.pc <;> first
          | exact published
          | exact fun _ => published
          | (rw [place] at behind; cases behind)
      · rw [Classical.not_imp] at settled
        refine ⟨[], stage_of_exiting settled.1 ?_⟩
        intro zero
        exact (settled.2 zero).elim

/-- The calls of a conversion keep the file system. -/
theorem Common.step
    (common : Common platform content target src sys.fs truncated)
    (running :
      Running platform content target src sys truncated stale c other)
    (fresh :
      c.pc = .renameTemp → choice.fails = false → stale = false)
    (stepped : c.step platform sys choice = some (later, c')) :
    Common platform content target src later.fs
      (truncated || (decide (c.pc = .truncateZero) && !choice.fails)) := by
  rcases moves_of_step stepped with ⟨read, moves⟩
  rcases running.stage common with ⟨pieces, stage⟩
  rcases common.file with ⟨now, node⟩
  have atWork := running.atWork
  subst atWork
  have source := common.source
  rcases stage.source source node moves with ⟨now', node', change⟩
  have presence := present_of_moves moves
  constructor
  · exact (Moves.source moves).2.2.trans source
  · exact common.apart.step source moves
  · have image := common.image
    have apart := common.apart
    rw [← running.withMethod] at image ⊢
    by_cases refused : c.pc = .renameTemp ∧ choice.fails = true
    · rw [granted_of_publishes refused.1 stepped refused.2]
      exact image
    · cases behind : past c.pc with
      | true =>
          refine
            @ImageOf.step platform sys later c c' src choice pieces read _ image
              apart source ?_ ?_ moves
          · intro before
            rw [behind] at before
            cases before
          · intro place
            rw [place] at behind
            cases behind
      | false =>
          rcases running.ahead behind with ⟨copied, stage', copy⟩
          refine image.step apart source (fun _ => stage') ?_ moves
          intro place
          have granted : choice.fails = false := by
            by_contra failing
            rw [Bool.not_eq_false] at failing
            exact refused ⟨place, failing⟩
          exact (copy (fresh place granted)).whole (by simp [complete, place])
  · exact ⟨now', node'⟩
  · intro untouched
    rw [Bool.or_eq_false_iff] at untouched
    rcases untouched with ⟨before, notEmptied⟩
    have same := common.intact before
    rw [node] at same
    cases same
    cases change with
    | same _ => exact node'
    | emptied place granted =>
        simp [place, granted] at notEmptied
    | regrown place =>
        rw [running.emptied place] at before
        cases before
  · intro gone
    rw [Bool.or_eq_true] at gone
    rcases gone with before | now_
    · exact presence (common.published before)
    · have place : c.pc = .truncateZero := by
        simpa using (Bool.and_eq_true_iff.mp now_).1
      apply presence
      apply running.behind
      · rw [place]
        rfl
      · intro leaving
        rw [place] at leaving
        cases leaving

/-- Two conversions neither build at once nor share a descriptor. -/
theorem Running.apart
    (beside :
      Running platform content target src sys truncated stale other c)
    (sameTarget : c.target = target)
    (moves : Moves platform sys c choice read later c') :
    (other.pc.building = true → c'.pc.building = false) ∧
      (attached other.pc = true → attached c'.pc = true →
        other.srcfd ≠ c'.srcfd) := by
  constructor
  · intro building
    by_contra both
    rw [Bool.not_eq_false] at both
    rcases building_of_moves moves both with before | ⟨place, notLocked⟩
    · rw [beside.alone building] at before
      cases before
    · rcases beside.locked building with leaving | locked
      · rw [place] at leaving
        cases leaving
      · rw [sameTarget] at notLocked
        exact notLocked locked
  · intro holding holding' same
    rcases attached_of_moves moves holding' with
      ⟨place, free, _⟩ | ⟨before, kept, _⟩
    · rcases beside.opened holding with leaving | used
      · rw [place] at leaving
        cases leaving
      · rw [same] at used
        exact used free
    · rw [kept] at same
      exact beside.distinct holding before same

/-- What a conversion keeps when it moves. -/
theorem Running.step
    (running :
      Running platform content target src sys truncated stale c other)
    (common : Common platform content target src sys.fs truncated)
    {stale' : Bool}
    (beside :
      Running platform content target src sys truncated stale' other c)
    (moves : Moves platform sys c choice read later c') :
    Running platform content target src later
      (truncated || (decide (c.pc = .truncateZero) && !choice.fails))
      (stale || (decide (c.pc = .readBlock) && truncated)) c' other := by
  have atWork := running.atWork
  have source := common.source
  rw [← atWork] at source
  rcases Moves.source moves with ⟨sameTarget, sameMethod, _⟩
  rcases beside.apart atWork moves with ⟨alone, distinct⟩
  have earlier : past c'.pc = false → past c.pc = false := by
    intro before
    by_contra behind
    rw [Bool.not_eq_false] at behind
    have after := (finishes_of_moves moves behind).1
    rw [before] at after
    cases after
  constructor
  · exact sameTarget.trans atWork
  · exact sameMethod.trans running.withMethod
  · intro before
    rcases running.ahead (earlier before) with ⟨pieces, stage, copy⟩
    refine ⟨pieces ++ read, stage.step source moves, ?_⟩
    intro untouched
    rw [Bool.or_eq_false_iff] at untouched
    rcases common.file with ⟨now, node⟩
    have bytes : (sys.fs.node src).bytes platform = now := by
      rw [node]
      rfl
    refine (copy untouched.1).step stage bytes ?_ moves
    intro place
    have intact : truncated = false := by
      simpa [place] using untouched.2
    have same := common.intact intact
    rw [node] at same
    cases same
    rfl
  · intro behind settled
    rcases behind_of_moves moves behind settled with
      ⟨before, settled'⟩ | present
    · have present := running.behind before settled'
      rw [← atWork] at present ⊢
      exact present_of_moves moves present
    · rwa [atWork] at present
  · intro place
    rcases emptied_of_moves moves place with ⟨before, granted⟩
    simp [before, granted]
  · intro building
    rcases building_of_moves moves building with before | ⟨place, _⟩
    · rcases running.locked before with leaving | locked
      · exact Or.inl leaving
      · right
        rcases running.ahead (past_of_building before) with
          ⟨pieces, stage, _⟩
        rw [← atWork] at locked ⊢
        exact locked_of_moves stage (fun _ => locked) moves building
    · right
      rcases running.ahead (by rw [place]; rfl) with ⟨pieces, stage, _⟩
      rw [← atWork]
      refine locked_of_moves stage ?_ moves building
      intro before
      rw [place] at before
      cases before
  · intro holding
    rcases attached_of_moves moves holding with
      ⟨_, _, used⟩ | ⟨before, kept, stays⟩
    · exact Or.inr used
    · rw [kept]
      exact (running.opened before).imp_right stays
  · intro building
    by_contra both
    rw [Bool.not_eq_false] at both
    have notBuilding := alone both
    rw [building] at notBuilding
    cases notBuilding
  · intro holding holding'
    exact (distinct holding' holding).symm

/-- What a conversion keeps when the one beside it moves. -/
theorem Running.beside
    (running :
      Running platform content target src sys truncated stale other c)
    (common : Common platform content target src sys.fs truncated)
    {truncated' : Bool} (monotone : truncated = true → truncated' = true)
    (apart' : Apart later.fs target src)
    (sameTarget : c.target = target)
    (moves : Moves platform sys c choice read later c') :
    Running platform content target src later truncated' stale other c' := by
  rcases running.apart sameTarget moves with ⟨alone, distinct⟩
  have atWork := running.atWork
  have fds :
      attached other.pc = true →
        later.proc.fds other.srcfd = sys.proc.fds other.srcfd ∨
          (c.pc.exiting = true ∧ later.proc.fds other.srcfd = none) := by
    intro holding
    exact
      fds_of_moves moves (running.opened holding)
        (running.distinct holding)
  have leaves :
      other.pc.building = true →
        Leaves sys later target (!c.pc.exiting) := by
    intro building
    have source := common.source
    have apart := common.apart
    rw [← sameTarget] at source apart ⊢
    refine leaves_of_moves (running.alone building) ?_ apart source moves
    intro place
    rcases running.locked building with leaving | locked
    · rw [place] at leaving
      cases leaving
    · rwa [sameTarget]
  constructor
  · exact atWork
  · exact running.withMethod
  · intro before
    rcases running.ahead before with ⟨pieces, stage, copy⟩
    refine ⟨pieces, ?_, copy⟩
    have kept :
        attached other.pc = true →
          later.proc.fds other.srcfd = sys.proc.fds other.srcfd ∨
            later.proc.fds other.srcfd = none := by
      intro holding
      exact (fds holding).imp_right fun closed => closed.2
    cases building : other.pc.building with
    | true =>
        have left := leaves building
        rw [← atWork] at left
        exact stage_left stage building left (kept (attached_of_building building))
    | false =>
        rw [← atWork] at apart'
        exact stage_left_before stage before building apart' kept
  · intro behind settled
    have present := running.behind behind settled
    rw [← sameTarget] at present ⊢
    exact present_of_moves moves present
  · intro place
    exact monotone (running.emptied place)
  · intro building
    rcases running.locked building with leaving | locked
    · exact Or.inl (leaving_of_moves moves leaving).1
    · cases leaving : c.pc.exiting with
      | true => exact Or.inl (leaving_of_moves moves leaving).1
      | false =>
          right
          have left := leaves building
          rw [leaving] at left
          exact locked.left left
  · intro holding
    rcases running.opened holding with leaving | used
    · exact Or.inl (leaving_of_moves moves leaving).1
    · rcases fds holding with same | ⟨leaving, _⟩
      · right
        rw [same]
        exact used
      · exact Or.inl (leaving_of_moves moves leaving).1
  · exact alone
  · exact distinct

end Steps

/-- The invariant of the two threads. -/
structure Sound
    (platform : Platform) (content : Bytes) (target : Target) (src : Ino)
    (racing : Racing) : Prop where
  threads : ∀ who, (racing.thread who).Sound target
  common :
    Common platform content target src racing.sys.fs racing.truncated
  running :
    ∀ who,
      Running platform content target src racing.sys racing.truncated
        (racing.stale who) ((racing.thread who).record target)
        ((racing.thread who.other).record target)

section Runs

variable
    {platform : Platform} {content : Bytes} {target : Target} {src : Ino}
    {racing next : Racing} {label : Label}

/-- A thread in its tests leaves everything as it is. -/
theorem Sound.deciding
    (sound : Sound platform content target src racing)
    {who : Runner} {thread : Thread} (kept : thread.Sound target)
    (record :
      thread.record target = (racing.thread who).record target) :
    Sound platform content target src
      { racing with
        thread := Function.update racing.thread who thread } := by
  have records :
      ∀ runner,
        (Function.update racing.thread who thread runner).record target =
          (racing.thread runner).record target := by
    intro runner
    by_cases same : runner = who
    · subst same
      rw [Function.update_self]
      exact record
    · rw [Function.update_of_ne same]
  constructor
  · intro runner
    by_cases same : runner = who
    · subst same
      show (Function.update racing.thread runner thread runner).Sound target
      rw [Function.update_self]
      exact kept
    · show (Function.update racing.thread who thread runner).Sound target
      rw [Function.update_of_ne same]
      exact sound.threads runner
  · exact sound.common
  · intro runner
    show
      Running platform content target src racing.sys racing.truncated
        (racing.stale runner)
        ((Function.update racing.thread who thread runner).record target)
        ((Function.update racing.thread who thread runner.other).record
          target)
    rw [records, records]
    exact sound.running runner

/-- A step of a conversion keeps the invariant of both. -/
theorem Sound.converting
    (sound : Sound platform content target src racing)
    {who : Runner} {choice : Choice} {later : Sys} {c c' : Convert}
    (place : racing.thread who = .converting c)
    (fresh :
      c.pc = .renameTemp → choice.fails = false →
        racing.stale who = false)
    (stepped : c.step platform racing.sys choice = some (later, c')) :
    Sound platform content target src
      { sys := later
        thread := Function.update racing.thread who (.converting c')
        truncated :=
          racing.truncated ||
            (decide (c.pc = .truncateZero) && !choice.fails)
        stale :=
          Function.update racing.stale who
            (racing.stale who ||
              (decide (c.pc = .readBlock) && racing.truncated)) } := by
  rcases moves_of_step stepped with ⟨read, moves⟩
  have mover := sound.running who
  have bystander := sound.running who.other
  rw [Runner.other_other] at bystander
  rw [place] at mover bystander
  have common := sound.common.step mover fresh stepped
  have moved := mover.step sound.common bystander moves
  have monotone :
      racing.truncated = true →
        (racing.truncated ||
            (decide (c.pc = .truncateZero) && !choice.fails)) =
          true := by
    intro before
    rw [before, Bool.true_or]
  have left :=
    bystander.beside sound.common monotone common.apart mover.atWork moves
  constructor
  · intro runner
    show
      (Function.update racing.thread who (.converting c') runner).Sound
        target
    by_cases same : runner = who
    · subst same
      rw [Function.update_self]
      trivial
    · rw [Function.update_of_ne same]
      exact sound.threads runner
  · exact common
  · intro runner
    show
      Running platform content target src later _
        (Function.update racing.stale who _ runner)
        ((Function.update racing.thread who (.converting c')
          runner).record target)
        ((Function.update racing.thread who (.converting c')
          runner.other).record target)
    by_cases same : runner = who
    · subst same
      rw [Function.update_self, Function.update_self,
        Function.update_of_ne (Runner.other_ne runner)]
      exact moved
    · have beside := Runner.eq_other same
      subst beside
      rw [Runner.other_other, Function.update_self,
        Function.update_of_ne (Runner.other_ne who),
        Function.update_of_ne (Runner.other_ne who)]
      exact left

theorem Sound.step
    (sound : Sound platform content target src racing)
    (fresh : Fresh racing label)
    (stepped : step platform racing label = some next) :
    Sound platform content target src next := by
  rcases Option.map_eq_some_iff.mp stepped with
    ⟨⟨later, thread⟩, advanced, rfl⟩
  rcases Thread.moves (sound.threads label.who) advanced with
    ⟨kept, ⟨rfl, record, reads, renames, truncates⟩ |
      ⟨c, c', place, rfl, moved⟩⟩
  · have same := sound.deciding kept record
    have stale :
        Function.update racing.stale label.who
            (racing.stale label.who ||
              ((racing.thread label.who).reads && racing.truncated)) =
          racing.stale := by
      rw [reads, Bool.false_and, Bool.or_false, Function.update_eq_self]
    rw [stale, truncates, Bool.false_and, Bool.or_false]
    exact same
  · have unstale :
        c.pc = .renameTemp → label.choice.fails = false →
          racing.stale label.who = false := by
      intro here granted
      apply fresh _ granted
      rw [place]
      exact decide_eq_true here
    have converted := sound.converting place unstale moved
    rw [place]
    exact converted

/-- A store in which the path has not been converted. -/
theorem sound_start
    {policy : Policy} {sys : Sys} {srcfd h5fd : Runner → Int}
    (unconverted : Unconverted sys.fs target src content)
    (absent : sys.fs.entry target.h5name = none) :
    Sound platform content target src
      (.start policy sys target.path srcfd h5fd) := by
  have tests := tests_process_file policy target
  have apart : Apart sys.fs target src := by
    constructor
    · exact unconverted.apart
    · intro ino _
      rw [absent]
      exact nofun
  have begins :
      ∀ other srcfd h5fd,
        Running platform content target src sys false false
          (convert2h5 target .DZ_ALG_ZSTD srcfd h5fd) other := by
    intro other srcfd h5fd
    constructor
    · rfl
    · rfl
    · intro _
      exact
        ⟨[], stage_initial unconverted _ _ _,
          fun _ => copyOf_initial content _ _ _ _⟩
    all_goals
      intro place
      cases place
  constructor
  · intro who
    exact tests.sound _ _
  · constructor
    · exact unconverted.source
    · exact apart
    · intro ino named
      change sys.fs.entry target.h5name = some ino at named
      rw [absent] at named
      cases named
    · exact ⟨content, unconverted.node⟩
    · intro _
      exact unconverted.node
    · intro gone
      cases gone
  · intro who
    show
      Running platform content target src sys false false
        ((Thread.of _ _ _).record target) _
    rw [tests.record]
    exact begins _ _ _

theorem Common.logicallyHolds
    {fs : FileSystem} {truncated : Bool}
    (common : Common platform content target src fs truncated) :
    LogicallyHolds platform.libs fs target content := by
  unfold LogicallyHolds
  cases named : fs.entry target.h5name with
  | none =>
      have before : truncated = false := by
        by_contra gone
        rw [Bool.not_eq_false] at gone
        exact common.published gone named
      have node := common.intact before
      simp [FileSystem.lookup, named, common.source, node]
  | some ino =>
      rcases common.image ino named with
        ⟨image, pieces, node, _, written, rfl⟩
      simp only [FileSystem.lookup, named, Option.map_some, node]
      exact decodes_of_written written

theorem Sound.survives
    (sound : Sound platform content target src racing) :
    Survives platform.libs target content racing :=
  fun _ => sound.common.logicallyHolds

/--
The path keeps its content in every run in which no thread that has read the
truncated source has its `rename` granted.
-/
theorem survives_of_fresh
    {policy : Policy} {sys : Sys} {srcfd h5fd : Runner → Int}
    {labels : List Label}
    (unconverted : Unconverted sys.fs target src content)
    (absent : sys.fs.entry target.h5name = none)
    (fresh :
      Along (step platform) Fresh
        (.start policy sys target.path srcfd h5fd) labels) :
    Throughout (step platform) (Survives platform.libs target content)
      (.start policy sys target.path srcfd h5fd) labels :=
  throughout_of_along
    (Sound platform content target src)
    (fun _ sound => sound.survives)
    (fun _ _ _ sound fresh stepped => sound.step fresh stepped)
    (sound_start unconverted absent)
    fresh

end Runs

/-- `/f` holds one byte, and both threads are about to process it. -/
def raceF : Racing :=
  .start ⟨0, []⟩ (storeF [7]) targetF.path (fun _ => 0) fun _ => 0

/-- A thread makes so many calls that look at a name. -/
def testsOf (who : Runner) (calls : Nat) : List Label :=
  List.replicate calls ⟨who, .ok 0⟩

/-- A thread converts, with the given descriptor and handle. -/
def convertsF (who : Runner) (number : Nat) : List Label :=
  [⟨who, .ok number⟩, ⟨who, .ok number⟩] ++ List.replicate 11 ⟨who, .ok 1⟩

instance (racing : Racing) (label : Label) : Decidable (Fresh racing label) :=
  inferInstanceAs (Decidable (_ → _ → _))

/-- The second thread comes after the first. -/
theorem survives_of_fresh_inTurn :
    Throughout (step storingPlatform)
      (Survives storingPlatform.libs targetF [7]) raceF
      (testsOf .first 4 ++ convertsF .first 1 ++ testsOf .second 2) := by
  apply survives_of_fresh (unconverted_storeF [7]) rfl
  decide +kernel

/-- An image of a zero byte. -/
def imageZero : H5Image where
  datasets := [(.algorithm, [122, 115, 116, 100, 32, 49]), (.block 0, [40, 0])]
  writer := false
  closed := true

/-- Both pass the tests; then one converts, and the other after it. -/
def bothF : List Label :=
  testsOf .first 4 ++ testsOf .second 4 ++ convertsF .first 1 ++
    convertsF .second 2

/-- The second conversion copies zeros over the image. -/
theorem second_conversion_destroys_file :
    ¬ ∀ (platform : Platform) (content : Bytes) (target : Target)
        (src : Ino) (policy : Policy) (sys : Sys)
        (srcfd h5fd : Runner → Int) (labels : List Label) (final : Racing),
        Unconverted sys.fs target src content →
          sys.fs.entry target.h5name = none →
            run (step platform)
                  (.start policy sys target.path srcfd h5fd) labels =
                some final →
              Survives platform.libs target content final := by
  intro claimed
  have races :
      (run (step storingPlatform) raceF bothF).map
          (fun final =>
            ((final.thread .first).finished,
              (final.thread .second).finished,
              final.sys.fs.lookup targetF.h5name)) =
        some (true, true, some (.image imageZero)) := by
    decide +kernel
  rcases Option.map_eq_some_iff.mp races with ⟨final, ran, observed⟩
  simp only [Prod.mk.injEq] at observed
  rcases observed with ⟨first, second, hidden⟩
  have survives :=
    claimed storingPlatform [7] targetF 0 ⟨0, []⟩ (storeF [7]) _ _ bothF
      final (unconverted_storeF [7]) rfl ran
  have holds :=
    survives fun who => by
      cases who
      · exact first
      · exact second
  simp only [LogicallyHolds, hidden] at holds
  have decoded := decode_of_decodes_storing (by decide) holds
  revert decoded
  decide +kernel

end DZFile.Race
