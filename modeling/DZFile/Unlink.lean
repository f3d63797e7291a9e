import DZFile.Opening
import DZFile.Publishing
import DZFile.Sharing
import DZFile.Library.Transition

/-!
# Deleting a file while it is converted

A client runs `dzfile_unlink` on a path that a converter is at work on; every
call of either is a step.  `dzfile_unlink` decides once whether there is an
image and removes the names one by one, while the converter creates and
publishes its file without looking at the source again.

Only the three names matter: the visible file, the hidden image and the
temporary file.  Exactly the runs in which the visible file is removed last,
and no temporary file is created after it, leave nothing behind.
-/

namespace DZFile.Unlink

open DZFile.Interaction
open DZFile.Names
open DZFile.Codec
open DZFile.Kernel
open DZFile.Api
open DZFile.Opening
open DZFile.Converter
open DZFile.Staging
open DZFile.Publishing
open DZFile.Sharing

/-! ## The two parties -/

/-- A world and what `dzfile_unlink` has still to do. -/
structure Deleting where
  world : World
  rest : Call Int

/-- Whose turn it is, and what the environment decides. -/
inductive Label where
  | converter (choice : Choice)
  | unlinker (choice : Choice)

/-- One call of either party. -/
def step (platform : Platform) (deleting : Deleting) :
    Label → Option Deleting
  | .converter choice =>
      (deleting.world.convert platform choice).map fun world =>
        { deleting with world := world }
  | .unlinker choice =>
      (deleting.world.clientStep platform deleting.rest choice).map
        fun state => ⟨state.1, state.2⟩

/-- Both have returned. -/
def Finished (deleting : Deleting) : Prop :=
  deleting.world.c.pc = .returned ∧ deleting.rest.returned ≠ none

/-! ## The property -/

/-- A name that `dzfile_creat` accepts. -/
def Legal (path : CString) : Prop :=
  ∃ bname, strrchrSlash path = some bname ∧
    illegalName path bname = false ∧ match_sysdir path = false ∧
      match_hiddenfile [] path = false

/-- A process with a free descriptor can create the name afresh. -/
def Creatable (platform : Platform) (fs : FileSystem) (path : CString) :
    Prop :=
  ∀ db proc, ∀ number : Nat, proc.fds number = none →
    ∃ choices later,
      (dzfile_creat path).run (kernel platform) ⟨fs, db, proc⟩ choices =
          some ((number : Int), later) ∧
        later.fs.lookup path = some (.file [])

/--
A file that is gone has left neither image nor temporary file, and its name
can be used again.
-/
def StaysDeleted (platform : Platform) (deleting : Deleting) : Prop :=
  deleting.world.fs.entry deleting.world.c.target.path = none →
    deleting.world.fs.entry deleting.world.c.target.h5name = none ∧
      deleting.world.fs.entry deleting.world.c.target.temp = none ∧
        (Legal deleting.world.c.target.path →
          Creatable platform deleting.world.fs
            deleting.world.c.target.path)

/-- The next call is `unlink(path)`. -/
def removes (path : CString) : Call Int → Bool
  | .call (.unlink name) _ => name = path
  | _ => false

/-- The step takes the visible file away. -/
def TakesAway (deleting : Deleting) (choice : Choice) : Prop :=
  removes deleting.world.c.target.path deleting.rest = true ∧
    choice.fails = false ∧
      deleting.world.fs.lookup deleting.world.c.target.path ≠
        some .directory

/--
A call that takes the visible file away finds neither image nor temporary
file, and a call that creates the temporary file finds the visible file.
-/
def Orderly (deleting : Deleting) : Label → Prop
  | .converter choice =>
      deleting.world.c.pc = .createTemp → choice.fails = false →
        deleting.world.fs.entry deleting.world.c.target.path ≠ none
  | .unlinker choice =>
      TakesAway deleting choice →
        deleting.world.fs.entry deleting.world.c.target.h5name = none ∧
          deleting.world.fs.entry deleting.world.c.target.temp = none

/-- Without an image a legal name can be created. -/
theorem creatable_of_absent
    {platform : Platform} {fs : FileSystem} {target : Target}
    (gone : fs.entry target.path = none) (noImage : fs.entry target.h5name = none)
    (legal : Legal target.path) :
    Creatable platform fs target.path := by
  intro db proc number free
  rcases legal with ⟨bname, found, legalName, notSysdir, notHidden⟩
  have lookup :=
    @run_findhiddenFile_absent platform ⟨fs, db, proc⟩ _ _ target.built
      noImage
  have created :
      ∀ db', ∃ later,
        ({ fs := fs, db := db', proc := proc } : Sys).openFile (.ok number)
              target.path (O_WRONLY + O_CREAT + O_TRUNC) =
            some (.ok number, later) ∧
          later.fs.lookup target.path = some (.file []) := by
    intro db'
    have creates : hasCreat (O_WRONLY + O_CREAT + O_TRUNC) = true := by
      decide
    refine
      ⟨{ fs := fs.link target.path (.file [])
         db := db'
         proc :=
          proc.setFd number
            (some ⟨fs.fresh, 0, O_WRONLY + O_CREAT + O_TRUNC⟩) }, ?_, ?_⟩
    · simp [Sys.openFile, free, gone, creates, Sys.install]
    · simp [FileSystem.lookup]
  rcases
    created
      ((Metadata.Stmt.updateSpace .filenum .ADD_NUM
          (Metadata.printUnsigned 1)).exec
        ((Metadata.Stmt.insertFilemeta target.path).exec db)) with
    ⟨later, opened, present⟩
  refine ⟨[.ok 0] ++ ([.ok 0, .ok 0] ++ [.ok number]), later, ?_, present⟩
  unfold dzfile_creat
  simp only [found, legalName, notSysdir, notHidden, Bool.or_self,
    Bool.false_eq_true, if_false]
  refine Prog.run_bind_eq_some.mpr ⟨_, _, 0, _, rfl, lookup, ?_⟩
  refine Prog.run_bind_eq_some.mpr ⟨_, _, 0, _, rfl, rfl, ?_⟩
  exact
    Prog.run_call_eq_some.mpr
      ⟨.ok number, [], .ok number, later, rfl, opened, rfl⟩

/-! ## The shape of `dzfile_unlink` -/

/--
A program that may remove the image, and removes the visible file at most
once, after which it only looks.
-/
def Deletes (target : Target) : Call Int → Prop
  | .ret _ => True
  | .fault => True
  | .call op next =>
      (looks op ∨ op = .unlink target.h5name) ∧
          (∀ reply, Deletes target (next reply)) ∨
        op = .unlink target.path ∧ ∀ reply, (next reply).AllCalls looks

theorem Deletes.bind
    {α : Type} {target : Target} {first : Call α} {rest : α → Call Int}
    (before : first.AllCalls looks)
    (after : ∀ value, Deletes target (rest value)) :
    Deletes target (first >>= rest) := by
  induction first with
  | ret value => exact after value
  | call op next induction =>
      exact
        Or.inl
          ⟨Or.inl before.1, fun reply => induction reply (before.2 reply)⟩
  | fault => trivial

theorem deletes_unlinkVisible (target : Target) :
    Deletes target (unlinkVisible target.path) := by
  refine Or.inr ⟨rfl, fun removed => ?_⟩
  cases removed with
  | error errno => trivial
  | ok done =>
      refine ⟨trivial, fun found => ?_⟩
      cases found with
      | error errno => trivial
      | ok stbuf =>
          have accounts :=
            looks_space_update .writtenbytes stbuf.size .SUB_NUM
          exact accounts.bind fun _ => trivial

/-- `dzfile_unlink` has this shape. -/
theorem deletes_dzfile_unlink (target : Target) :
    Deletes target (dzfile_unlink target.path) := by
  unfold dzfile_unlink
  split
  · trivial
  · refine Deletes.bind (looks_findhiddenFile target.path) fun rc => ?_
    split
    · unfold unlinkImage
      rw [target.built]
      refine Or.inl ⟨Or.inl trivial, fun found => ?_⟩
      cases found with
      | error errno => trivial
      | ok stbuf =>
          refine Or.inl ⟨Or.inr rfl, fun removed => ?_⟩
          cases removed with
          | error errno => trivial
          | ok done =>
              have accounts :=
                looks_space_update .diskbytes stbuf.size .SUB_NUM
              show
                Deletes target
                  (sub_diskbytes stbuf.size >>= fun _ =>
                    unlinkVisible target.path)
              exact
                Deletes.bind accounts fun _ => deletes_unlinkVisible target
    · exact deletes_unlinkVisible target

/-! ## Runs -/

/-- Nothing is left behind, and nothing will be. -/
structure Sound (target : Target) (deleting : Deleting) : Prop where
  atWork : deleting.world.c.target = target
  shape :
    (Deletes target deleting.rest ∧
        deleting.world.fs.entry target.path ≠ none) ∨
      (deleting.rest.AllCalls looks ∧
        (deleting.world.fs.entry target.path = none →
          deleting.world.fs.entry target.h5name = none ∧
            deleting.world.fs.entry target.temp = none))

/-- The visible file is gone and something is left for good. -/
structure Orphaned (target : Target) (deleting : Deleting) : Prop where
  atWork : deleting.world.c.target = target
  quiet : deleting.rest.AllCalls looks
  gone : deleting.world.fs.entry target.path = none
  left :
    deleting.world.fs.entry target.h5name ≠ none ∨
      deleting.world.fs.entry target.temp ≠ none

section Runs

variable
    {platform : Platform} {target : Target} {deleting later : Deleting}
    {label : Label}

/-- `unlink` takes one name away or changes nothing. -/
theorem unlink_eq_some
    {sys later : Sys} {choice : Choice} {path : CString}
    {removed : Except Errno Unit}
    (called : sys.unlink choice path = some (removed, later)) :
    later.fs.entry = sys.fs.entry ∨
      (choice.fails = false ∧ sys.fs.lookup path ≠ some .directory ∧
        later.fs.entry = Function.update sys.fs.entry path none) := by
  rcases Sys.unlink_eq_some called with
    ⟨errno, _, rfl⟩ | ⟨_, granted, _, notDirectory, rfl⟩
  · exact Or.inl rfl
  · exact Or.inr ⟨granted, notDirectory, rfl⟩

/-- An `unlink` that the system grants takes a file's name away. -/
theorem entry_of_unlink
    {sys later : Sys} {choice : Choice} {path : CString}
    {removed : Except Errno Unit}
    (granted : choice.fails = false)
    (present : sys.fs.entry path ≠ none)
    (notDirectory : sys.fs.lookup path ≠ some .directory)
    (called : sys.unlink choice path = some (removed, later)) :
    later.fs.entry = Function.update sys.fs.entry path none := by
  unfold Sys.unlink at called
  cases choice with
  | fail errno => cases granted
  | ok number =>
      cases found : sys.fs.lookup path with
      | none => exact (present (Option.map_eq_none_iff.mp found)).elim
      | some node =>
          cases node with
          | directory => exact (notDirectory found).elim
          | file content =>
              simp only [found] at called
              cases called
              rfl
          | image stored =>
              simp only [found] at called
              cases called
              rfl

/-- An orderly step of the converter leaves nothing behind. -/
theorem Sound.converter
    (sound : Sound target deleting) {choice : Choice}
    (orderly : Orderly deleting (.converter choice))
    {read : List Bytes} {sys : Sys} {c : Convert}
    (moves :
      Moves platform deleting.world.converterSys deleting.world.c choice read
        sys c) :
    Sound target
      { deleting with
        world :=
          { deleting.world with
            fs := sys.fs
            db := sys.db
            converter := sys.proc
            c := c } } := by
  have atWork := sound.atWork
  have names := nameStep_of_moves moves
  have path : sys.fs.entry target.path = deleting.world.fs.entry target.path := by
    rw [← atWork]
    exact names.path
  refine ⟨(Moves.source moves).1.trans atWork, ?_⟩
  rcases sound.shape with ⟨shape, present⟩ | ⟨quiet, clean⟩
  · refine Or.inl ⟨shape, ?_⟩
    show sys.fs.entry target.path ≠ none
    rw [path]
    exact present
  · refine Or.inr ⟨quiet, ?_⟩
    show sys.fs.entry target.path = none → _
    rw [path]
    intro gone
    rcases clean gone with ⟨noImage, noTemp⟩
    cases names with
    | same entry =>
        change sys.fs.entry = deleting.world.fs.entry at entry
        rw [entry]
        exact ⟨noImage, noTemp⟩
    | creates place granted entry =>
        have present := orderly place granted
        rw [atWork] at present
        exact (present gone).elim
    | publishes ino found entry =>
        change deleting.world.fs.entry _ = _ at found
        rw [atWork, noTemp] at found
        cases found

/-- An orderly step of the client leaves nothing behind. -/
theorem Sound.unlinker
    (sound : Sound target deleting) {choice : Choice}
    (orderly : Orderly deleting (.unlinker choice))
    {op : Op} {next : Reply op → Call Int} {reply : Reply op} {sys : Sys}
    (rest : deleting.rest = .call op next)
    (called :
      kernel platform deleting.world.clientSys choice op =
        some (reply, sys)) :
    Sound target ⟨deleting.world.ofClient sys, next reply⟩ := by
  have atWork := sound.atWork
  refine ⟨atWork, ?_⟩
  show
    (_ ∧ sys.fs.entry target.path ≠ none) ∨
      (_ ∧ (sys.fs.entry target.path = none → _))
  have imageNe := target.h5name_ne_path
  have tempNe := target.temp_ne_path
  rcases sound.shape with ⟨shape, present⟩ | ⟨quiet, clean⟩
  · rw [rest] at shape
    rcases shape with ⟨looks | rfl, shape⟩ | ⟨rfl, quiet⟩
    · have fs := fs_of_looks looks called
      change sys.fs = deleting.world.fs at fs
      rw [fs]
      exact Or.inl ⟨shape reply, present⟩
    · refine Or.inl ⟨shape reply, ?_⟩
      rcases unlink_eq_some called with same | ⟨_, _, removed⟩
      · rw [same]
        exact present
      · rw [removed, Function.update_of_ne imageNe.symm]
        exact present
    · refine Or.inr ⟨quiet reply, fun gone => ?_⟩
      rcases unlink_eq_some called with same | ⟨granted, notDirectory, removed⟩
      · rw [same] at gone
        exact (present gone).elim
      · have clean :=
          orderly
            ⟨by rw [rest]; simp [removes, atWork], granted, by
              rw [atWork]; exact notDirectory⟩
        rw [atWork] at clean
        show
          sys.fs.entry target.h5name = none ∧ sys.fs.entry target.temp = none
        rw [removed, Function.update_of_ne imageNe,
          Function.update_of_ne tempNe]
        exact clean
  · rw [rest] at quiet
    have fs := fs_of_looks quiet.1 called
    change sys.fs = deleting.world.fs at fs
    refine Or.inr ⟨quiet.2 reply, ?_⟩
    show _ → sys.fs.entry target.h5name = none ∧ sys.fs.entry target.temp = none
    rw [fs]
    exact clean

theorem Sound.step
    (sound : Sound target deleting) (orderly : Orderly deleting label)
    (stepped : step platform deleting label = some later) :
    Sound target later := by
  cases label with
  | converter choice =>
      rcases Option.map_eq_some_iff.mp stepped with ⟨world, moved, rfl⟩
      rcases Option.map_eq_some_iff.mp moved with ⟨⟨sys, c⟩, called, rfl⟩
      rcases moves_of_step called with ⟨read, moves⟩
      exact sound.converter orderly moves
  | unlinker choice =>
      rcases Option.map_eq_some_iff.mp stepped with ⟨⟨world, rest⟩, moved, rfl⟩
      rcases World.clientStep_eq_some moved with
        ⟨op, next, reply, sys, same, called, rfl, rfl⟩
      exact sound.unlinker orderly same called

/-- An `H5Fcreate` that is granted enters a temporary file. -/
theorem temp_of_created
    {choice : Choice} {sys sys' : Sys} {c c' : Convert}
    (place : c.pc = .createTemp) (granted : choice.fails = false)
    (noTemp : sys.fs.entry c.target.temp = none)
    (stepped : c.step platform sys choice = some (sys', c')) :
    sys'.fs.entry c.target.temp ≠ none := by
  rcases advance_eq_some.mp stepped with
    ⟨op, next, reply, action, called, _⟩
  unfold Convert.action at action
  rw [place] at action
  cases action
  cases choice with
  | fail errno => cases granted
  | ok number =>
      simp only [kernel, Sys.h5fcreate, noTemp] at called
      split at called
      · cases called
      · cases called
        simp

/-- A disorderly step of the converter makes a file for a name that is gone. -/
theorem Sound.orphanedByConverter
    (sound : Sound target deleting) {choice : Choice}
    (disorderly : ¬ Orderly deleting (.converter choice)) {sys : Sys}
    {c : Convert}
    (advanced :
      deleting.world.c.step platform deleting.world.converterSys choice =
        some (sys, c)) :
    Orphaned target
      { deleting with
        world :=
          { deleting.world with
            fs := sys.fs
            db := sys.db
            converter := sys.proc
            c := c } } := by
  have atWork := sound.atWork
  simp only [Orderly, not_forall, not_not] at disorderly
  rcases disorderly with ⟨place, granted, gone⟩
  rw [atWork] at gone
  rcases sound.shape with ⟨_, present⟩ | ⟨quiet, clean⟩
  · exact (present gone).elim
  · rcases moves_of_step advanced with ⟨read, moves⟩
    have names := nameStep_of_moves moves
    have noTemp :
        deleting.world.converterSys.fs.entry deleting.world.c.target.temp =
          none := by
      rw [atWork]
      exact (clean gone).2
    have created := temp_of_created place granted noTemp advanced
    rw [atWork] at created
    exact
      { atWork := (Moves.source moves).1.trans atWork
        quiet := quiet
        gone := by
          show sys.fs.entry target.path = none
          rw [← atWork, names.path, atWork]
          exact gone
        left := Or.inr created }

/-- A disorderly step of the client removes the name of what stays. -/
theorem Sound.orphanedByUnlinker
    (sound : Sound target deleting) {choice : Choice}
    (disorderly : ¬ Orderly deleting (.unlinker choice))
    {op : Op} {next : Reply op → Call Int} {reply : Reply op} {sys : Sys}
    (same : deleting.rest = .call op next)
    (called :
      kernel platform deleting.world.clientSys choice op =
        some (reply, sys)) :
    Orphaned target ⟨deleting.world.ofClient sys, next reply⟩ := by
  have atWork := sound.atWork
  simp only [Orderly, not_forall] at disorderly
  rcases disorderly with ⟨⟨removing, granted, notDirectory⟩, notClean⟩
  rw [same] at removing
  obtain rfl : op = .unlink target.path := by
    cases op with
    | unlink name =>
        simp only [removes, decide_eq_true_eq] at removing
        rw [removing, atWork]
    | _ => cases removing
  have imageNe := target.h5name_ne_path
  have tempNe := target.temp_ne_path
  rcases sound.shape with ⟨shape, present⟩ | ⟨quiet, _⟩
  · rw [same] at shape
    have quiet : ∀ reply, (next reply).AllCalls looks := by
      rcases shape with ⟨quiet | other, _⟩ | ⟨_, quiet⟩
      · exact quiet.elim
      · exact (imageNe (Op.unlink.inj other).symm).elim
      · exact quiet
    rw [atWork] at notDirectory notClean
    have removed :
        sys.fs.entry =
          Function.update deleting.world.fs.entry target.path none := by
      change
        deleting.world.clientSys.unlink choice target.path = _ at called
      exact entry_of_unlink granted present notDirectory called
    exact
      { atWork := atWork
        quiet := quiet reply
        gone := by
          show sys.fs.entry target.path = none
          simp [removed]
        left := by
          show
            sys.fs.entry target.h5name ≠ none ∨
              sys.fs.entry target.temp ≠ none
          rw [removed, Function.update_of_ne imageNe,
            Function.update_of_ne tempNe]
          by_contra clean
          rw [not_or, not_not, not_not] at clean
          exact notClean clean }
  · rw [same] at quiet
    exact quiet.1.elim

/-- The first step that is not orderly leaves something behind. -/
theorem orphaned_of_disorderly
    (sound : Sound target deleting) (disorderly : ¬ Orderly deleting label)
    (stepped : step platform deleting label = some later) :
    Orphaned target later := by
  cases label with
  | converter choice =>
      rcases Option.map_eq_some_iff.mp stepped with ⟨world, moved, rfl⟩
      rcases Option.map_eq_some_iff.mp moved with ⟨⟨sys, c⟩, advanced, rfl⟩
      exact sound.orphanedByConverter disorderly advanced
  | unlinker choice =>
      rcases Option.map_eq_some_iff.mp stepped with ⟨⟨world, rest⟩, moved, rfl⟩
      rcases World.clientStep_eq_some moved with
        ⟨op, next, reply, sys, same, called, rfl, rfl⟩
      exact sound.orphanedByUnlinker disorderly same called

/-- What has been left stays. -/
theorem Orphaned.step
    (orphaned : Orphaned target deleting)
    (stepped : step platform deleting label = some later) :
    Orphaned target later := by
  have atWork := orphaned.atWork
  cases label with
  | converter choice =>
      rcases Option.map_eq_some_iff.mp stepped with ⟨world, moved, rfl⟩
      rcases Option.map_eq_some_iff.mp moved with ⟨⟨sys, c⟩, called, rfl⟩
      rcases moves_of_step called with ⟨read, moves⟩
      have names := nameStep_of_moves moves
      exact
        { atWork := (Moves.source moves).1.trans atWork
          quiet := orphaned.quiet
          gone := by
            show sys.fs.entry target.path = none
            rw [← atWork, names.path, atWork]
            exact orphaned.gone
          left := by
            have left := names.leftover
              (by rw [atWork]; exact orphaned.left)
            rw [atWork] at left
            exact left }
  | unlinker choice =>
      rcases Option.map_eq_some_iff.mp stepped with ⟨⟨world, rest⟩, moved, rfl⟩
      rcases World.clientStep_eq_some moved with
        ⟨op, next, reply, sys, same, called, rfl, rfl⟩
      have quiet := orphaned.quiet
      rw [same] at quiet
      have fs := fs_of_looks quiet.1 called
      change sys.fs = deleting.world.fs at fs
      exact
        { atWork := atWork
          quiet := quiet.2 reply
          gone := by
            show sys.fs.entry target.path = none
            rw [fs]
            exact orphaned.gone
          left := by
            show
              sys.fs.entry target.h5name ≠ none ∨
                sys.fs.entry target.temp ≠ none
            rw [fs]
            exact orphaned.left }

/-- A deletion beside a conversion that has not begun. -/
def Deleting.start (world : World) : Deleting where
  world := world
  rest := dzfile_unlink world.c.target.path

/--
In every state of a run a file that is gone stays deleted if and only if every
step so far was orderly.
-/
theorem stays_deleted_iff_orderly
    {world : World} {method : Alg} {srcfd h5fd : Int}
    (entered : world.c = convert2h5 target method srcfd h5fd)
    (present : world.fs.entry target.path ≠ none)
    {labels : List Label} {final : Deleting}
    (ran :
      Transition.run (step platform) (.start world) labels = some final) :
    StaysDeleted platform final ↔
      Transition.Along (step platform) Orderly (.start world) labels := by
  have atWork : world.c.target = target := by
    rw [entered]
    rfl
  have sound : Sound target (.start world) := by
    refine ⟨atWork, Or.inl ⟨?_, present⟩⟩
    simp only [Deleting.start, atWork]
    exact deletes_dzfile_unlink target
  rcases
    Transition.run_exact (fun _ _ _ => Sound.step)
      (fun _ _ _ => orphaned_of_disorderly) (fun _ _ _ => Orphaned.step)
      sound ran with
    ⟨along, sound⟩ | ⟨notAlong, orphaned⟩
  · refine iff_of_true ?_ along
    unfold StaysDeleted
    rw [sound.atWork]
    intro gone
    rcases sound.shape with ⟨_, present⟩ | ⟨_, clean⟩
    · exact (present gone).elim
    · rcases clean gone with ⟨noImage, noTemp⟩
      exact ⟨noImage, noTemp, creatable_of_absent gone noImage⟩
  · refine iff_of_false ?_ notAlong
    unfold StaysDeleted
    rw [orphaned.atWork]
    intro stays
    rcases stays orphaned.gone with ⟨noImage, noTemp, _⟩
    exact orphaned.left.elim (fun left => left noImage) (fun left => left noTemp)

end Runs

/-! ## An orphaned image -/

/-- `/f` holds the byte 7. -/
def worldF : World :=
  .beside (convert2h5 targetF .DZ_ALG_ZSTD 0 0) (storeF [7])

/-- The file is removed after its last block has been written. -/
def removedWhileConverting : List Label :=
  List.replicate 9 (.converter (.ok 4194304)) ++
    List.replicate 3 (.unlinker (.ok 0)) ++
      List.replicate 4 (.converter (.ok 0))

theorem removedWhileConverting_runs :
    ∃ final,
      Transition.run (step storingPlatform) (.start worldF)
          removedWhileConverting =
        some final ∧
        Finished final ∧
          final.world.fs.entry final.world.c.target.path = none ∧
            final.world.fs.entry final.world.c.target.h5name ≠ none := by
  have facts :
      (Transition.run (step storingPlatform) (.start worldF)
          removedWhileConverting).map
        (fun final =>
          (final.world.c.pc, final.rest.returned,
            final.world.fs.entry final.world.c.target.path,
            final.world.fs.entry final.world.c.target.h5name)) =
        some (.returned, some (-1), none, some 1) := by
    decide +kernel
  rcases Option.map_eq_some_iff.mp facts with ⟨final, ran, observed⟩
  simp only [Prod.mk.injEq] at observed
  rcases observed with ⟨place, returned, gone, left⟩
  exact
    ⟨final, ran, ⟨place, by simp [returned]⟩, gone, by simp [left]⟩

theorem stays_deleted_iff_orderly_removedWhileConverting :
    ∃ final,
      Transition.run (step storingPlatform) (.start worldF)
          removedWhileConverting =
        some final ∧
        (StaysDeleted storingPlatform final ↔
          Transition.Along (step storingPlatform) Orderly (.start worldF)
            removedWhileConverting) := by
  rcases removedWhileConverting_runs with ⟨final, ran, _⟩
  exact
    ⟨final, ran, @stays_deleted_iff_orderly _ targetF _ _ _ _ rfl (by decide)
      _ _ ran⟩

/-- A conversion publishes the image of a file that has been deleted. -/
theorem deleted_file_leaves_image :
    ¬ ∀ (platform : Platform) (world : World) (target : Target) (method : Alg)
        (srcfd h5fd : Int) (labels : List Label) (final : Deleting),
        world.c = convert2h5 target method srcfd h5fd →
          world.fs.entry target.path ≠ none →
            Transition.run (step platform) (.start world) labels =
                some final →
              Finished final → StaysDeleted platform final := by
  intro claimed
  rcases removedWhileConverting_runs with ⟨final, ran, finished, gone, left⟩
  have stays :=
    claimed storingPlatform worldF targetF .DZ_ALG_ZSTD 0 0 _ final rfl
      (by decide) ran finished
  exact left (stays gone).1

end DZFile.Unlink
