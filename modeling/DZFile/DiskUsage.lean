import DZFile.Conversion
import DZFile.Dstat
import Mathlib.Algebra.BigOperators.Group.Finset.Basic
import Mathlib.Algebra.Order.BigOperators.Group.Finset

/-!
# The disk usage of the store

Runs of completed calls of `convert2h5` and `dzfile_unlink`, each in a process
of its own choosing.  `dzfile_unlink` takes the size of an image off
`diskbytes`, but no one has put it there: `add_diskbytes` has no caller, and
`convert2h5` does not touch the database.  The column is the disk usage
exactly as long as no conversion renames its temporary file.
-/

namespace DZFile.DiskUsage

open DZFile.Interaction
open DZFile.Transition
open DZFile.Names
open DZFile.Codec
open DZFile.Image
open DZFile.Metadata
open DZFile.Kernel
open DZFile.Api
open DZFile.Opening
open DZFile.Converter
open DZFile.Staging
open DZFile.Publishing
open DZFile.Reaching
open DZFile.HiddenNames
open DZFile.Dstat
open DZFile.Conversion

/-! ## Runs of calls -/

/-- A call, the process that makes it and what its environment decides. -/
inductive Label where
  | convert
      (proc : Process) (target : Target) (method : Alg) (srcfd h5fd : Int)
      (choices : List Choice)
  | unlink (proc : Process) (path : CString) (choices : List Choice)

/-- A whole call. -/
def step (platform : Platform) (sys : Sys) : Label → Option Sys
  | .convert proc target method srcfd h5fd choices =>
      (Transition.run (soloStep platform)
          ({ sys with proc := proc }, convert2h5 target method srcfd h5fd)
          choices).bind fun state =>
        if state.2.pc = .returned then some state.1 else none
  | .unlink proc path choices =>
      ((dzfile_unlink path).run (kernel platform) { sys with proc := proc }
          choices).map fun answer => answer.2

/-! ## The property -/

/-- A hidden image that exists. -/
def IsImage (fs : FileSystem) (name : CString) : Prop :=
  IsImageName name ∧ fs.entry name ≠ none

/-- The `st_size` of a name. -/
def st_size (platform : Platform) (fs : FileSystem) (name : CString) : Nat :=
  match fs.lookup name with
  | none => 0
  | some node => (node.bytes platform).length

/--
`diskbytes` is the sum of the sizes of the images, and `dzfile_dstat` reports
it as it is.
-/
structure Accounted (platform : Platform) (sys : Sys) : Prop where
  sum :
    ∃ images : Finset CString,
      (∀ name, name ∈ images ↔ IsImage sys.fs name) ∧
        sys.db.space .diskbytes =
          (∑ name ∈ images, st_size platform sys.fs name : Nat)
  reported :
    ∀ proc path choices info later,
      sys.fs.lookup path = some .directory →
        (dzfile_dstat path).run (kernel platform) { sys with proc := proc }
            choices =
          some (some info, later) →
          (info.disksize : Int) = sys.db.space .diskbytes

/-- The call does not rename a temporary file to an image. -/
def Unpublished (platform : Platform) (sys : Sys) : Label → Prop
  | .convert proc target method srcfd h5fd choices =>
      Along (soloStep platform)
        (fun state choice =>
          state.2.pc = .renameTemp → choice.fails = true)
        ({ sys with proc := proc }, convert2h5 target method srcfd h5fd)
        choices
  | .unlink _ _ _ => True

/-- A store without images whose counter is 0. -/
structure Blank (sys : Sys) : Prop where
  images : ∀ target : Target, sys.fs.entry target.h5name = none
  diskbytes : sys.db.space .diskbytes = 0

/-! ## What is reported -/

section Reports

variable {platform : Platform} {sys later : Sys}

/-- A blank store is accounted for. -/
theorem Blank.accounted (blank : Blank sys) : Accounted platform sys := by
  constructor
  · refine ⟨∅, ?_, ?_⟩
    · intro name
      constructor
      · intro member
        cases member
      · rintro ⟨⟨target, rfl⟩, present⟩
        exact (present (blank.images target)).elim
    · rw [blank.diskbytes]
      rfl
  · intro proc path choices info later directory ran
    have disksize :=
      @disksize_of_directory platform { sys with proc := proc } later path
        choices info directory ran
    change info.disksize = toUint64 (sys.db.space .diskbytes) at disksize
    rw [disksize, blank.diskbytes]
    rfl

end Reports

/-! ## Calls that publish nothing -/

section Kept

variable {platform : Platform} {sys later : Sys}

/-- The converter does not touch the database. -/
theorem db_of_moves
    {c c' : Convert} {choice : Choice} {read : List Bytes}
    (moves : Moves platform sys c choice read later c') :
    later.db = sys.db := by
  cases moves <;> rfl

/-- A step that is not a granted `rename` publishes no image. -/
theorem Blank.soloStep
    {state next : Sys × Convert} {choice : Choice}
    (blank : Blank state.1)
    (unpublished : state.2.pc = .renameTemp → choice.fails = true)
    (stepped : soloStep platform state choice = some next) :
    Blank next.1 := by
  rcases state with ⟨sys, c⟩
  rcases next with ⟨later, c'⟩
  change Blank sys at blank
  change c.step platform sys choice = some (later, c') at stepped
  by_cases place : c.pc = .renameTemp
  · have same := granted_of_publishes place stepped (unpublished place)
    rw [same]
    exact blank
  · rcases moves_of_step stepped with ⟨read, moves⟩
    have names := nameStep_of_moves moves
    constructor
    · intro target
      have absent := blank.images target
      cases moves with
      | publishes ino isRename found => exact (place isRename).elim
      | creates number ino fs next' isCreate granted positive free created
          continues =>
          cases created with
          | fresh noTemp =>
              show Function.update sys.fs.entry _ _ _ = none
              rw [Function.update_of_ne (h5name_ne_temp target c.target)]
              exact absent
          | emptied ino found unlocked => exact absent
      | closesImage handle isClose held =>
          simp only [Sys.released]
          split <;> exact absent
      | _ => exact absent
    · rw [db_of_moves moves]
      exact blank.diskbytes

/-- The calls of `dzfile_unlink` on a path without an image. -/
def leavesDiskbytes : Op → Prop
  | .stat _ => True
  | .unlink _ => True
  | .sqlite3_exec (.updateSpace field _ _) => field ≠ .diskbytes
  | _ => False

theorem leavesDiskbytes_unlinkVisible (path : CString) :
    (unlinkVisible path).AllCalls leavesDiskbytes := by
  refine ⟨trivial, ?_⟩
  rintro (errno | removed)
  · trivial
  · refine ⟨trivial, ?_⟩
    rintro (errno | stbuf)
    · trivial
    · refine ⟨?_, fun _ => trivial⟩
      intro isDiskbytes
      cases isDiskbytes

theorem Blank.kernel
    {choice : Choice} {op : Op} {reply : Reply op}
    (leaves : leavesDiskbytes op) (blank : Blank sys)
    (called : kernel platform sys choice op = some (reply, later)) :
    Blank later := by
  cases op with
  | stat path =>
      rw [(stat_reply called).1]
      exact blank
  | unlink path =>
      rcases Sys.unlink_eq_some called with
        ⟨errno, _, rfl⟩ | ⟨_, _, _, _, rfl⟩
      · exact blank
      · refine ⟨?_, blank.diskbytes⟩
        intro target
        rw [FileSystem.entry_remove, Function.update_apply]
        split
        · rfl
        · exact blank.images target
  | sqlite3_exec stmt =>
      cases stmt with
      | updateSpace field flag num =>
          change field ≠ .diskbytes at leaves
          cases choice with
          | fail errno =>
              cases called
              exact blank
          | ok number =>
              rcases kernel_sqlite3_exec_ok called with ⟨_, rfl⟩
              refine ⟨blank.images, ?_⟩
              show
                (if Field.diskbytes = field then _
                  else sys.db.space .diskbytes) = 0
              rw [if_neg (Ne.symm leaves)]
              exact blank.diskbytes
      | _ => exact leaves.elim
  | _ => exact leaves.elim

/-- Without images `dzfile_unlink` goes straight to the visible file. -/
theorem run_dzfile_unlink_of_blank
    (blank : Blank sys) {path : CString} {choices : List Choice} {ret : Int}
    (ran :
      (dzfile_unlink path).run (kernel platform) sys choices =
        some (ret, later)) :
    later = sys ∨
      ∃ after,
        (unlinkVisible path).run (kernel platform) sys after =
          some (ret, later) := by
  unfold dzfile_unlink at ran
  split at ran
  · rcases Prog.run_ret_eq_some.mp ran with ⟨_, _, rfl⟩
    exact Or.inl rfl
  · rcases Prog.run_bind_eq_some.mp ran with
      ⟨before, after, rc, middle, rfl, lookupRan, restRan⟩
    rcases run_findhiddenFile lookupRan with ⟨rfl, answers⟩
    have noImage : rc ≠ 1 := by
      rintro rfl
      rcases answers with
        (impossible | impossible) | ⟨h5name, built, impossible | present⟩
      · cases impossible
      · cases impossible
      · cases impossible.1
      · exact present.2 (blank.images ⟨path, h5name, built⟩)
    rw [if_neg noImage] at restRan
    exact Or.inr ⟨after, restRan⟩

/-- A call that publishes nothing keeps the store blank. -/
theorem Blank.step
    {label : Label} (blank : Blank sys)
    (unpublished : Unpublished platform sys label)
    (stepped : step platform sys label = some later) :
    Blank later := by
  cases label with
  | convert proc target method srcfd h5fd choices =>
      rcases Option.bind_eq_some_iff.mp stepped with ⟨state, ran, ended⟩
      split at ended
      · cases ended
        refine
          Transition.run_invariant_along
            (fun state : Sys × Convert => Blank state.1) ?_ ?_ unpublished
            ran
        · intro state choice next
          exact Blank.soloStep
        · exact ⟨blank.images, blank.diskbytes⟩
      · cases ended
  | unlink proc path choices =>
      rcases Option.map_eq_some_iff.mp stepped with
        ⟨⟨ret, final⟩, ran, rfl⟩
      have here : Blank { sys with proc := proc } :=
        ⟨blank.images, blank.diskbytes⟩
      rcases run_dzfile_unlink_of_blank here ran with rfl | ⟨after, visible⟩
      · exact here
      · refine
          (leavesDiskbytes_unlinkVisible path).run_invariant Blank ?_ here
            visible
        intro environment choice op reply next
        exact Blank.kernel

end Kept

/-! ## A published image -/

section Published

variable
    {platform : Platform} {sys later : Sys} {c c' : Convert}
    {choice : Choice} {read : List Bytes}

/-- While it builds, the temporary file is an image behind the handle. -/
def Holding (sys : Sys) (c : Convert) : Prop :=
  c.pc.building = true →
    ∃ ino image,
      sys.fs.entry c.target.temp = some ino ∧
        sys.fs.node ino = .image image ∧
          ∀ handle, sys.proc.handles c.h5fd = some handle → handle.ino = ino

theorem holding_of_exiting (exiting : c.pc.exiting = true) :
    Holding sys c := by
  intro building
  cases place : c.pc <;> rw [place] at exiting building <;> first
    | exact (Bool.false_ne_true exiting).elim
    | exact (Bool.false_ne_true building).elim

/-- Writing a dataset through the handle keeps the file an image. -/
theorem Holding.written
    (holding : Holding sys c) (building : c.pc.building = true)
    {handle : H5Handle} (held : sys.proc.handles c.h5fd = some handle)
    (image : H5Image) {next : Convert} (target : next.target = c.target)
    (h5fd : next.h5fd = c.h5fd) :
    Holding { sys with fs := sys.fs.put handle.ino (.image image) } next := by
  intro _
  rcases holding building with ⟨ino, _, named, _, behind⟩
  have here := behind handle held
  subst here
  refine ⟨handle.ino, image, ?_, by simp, ?_⟩
  · rw [target]
    exact named
  · rw [h5fd]
    exact behind

theorem Holding.step
    (holding : Holding sys c)
    (moves : Moves platform sys c choice read later c') :
    Holding later c' := by
  have notBuilding :
      ∀ {sys' : Sys} {next : Convert}, next.pc.building = false →
        Holding sys' next := by
    intro sys' next elsewhere building
    rw [elsewhere] at building
    cases building
  cases moves with
  | looks next places =>
      apply notBuilding
      rcases places with ⟨_, rfl⟩ | ⟨_, rfl⟩ <;> rfl
  | fails earlier inside target method =>
      exact holding_of_exiting (Convert.exiting_out _ _)
  | opens number ino place free found => exact notBuilding rfl
  | creates number ino fs next place granted positive free created continues =>
      rcases continues with ⟨text, _, rfl⟩ | rfl
      · intro _
        have behind :
            ∀ handle,
              (sys.proc.setHandle number (some ⟨ino, true⟩)).handles number =
                  some handle →
                handle.ino = ino := by
          intro handle held
          simp only [Process.setHandle, Function.update_self,
            Option.some.injEq] at held
          rw [← held]
        cases created with
        | fresh absent => exact ⟨_, .created, by simp, by simp, behind⟩
        | emptied ino found unlocked =>
            exact ⟨_, .created, found, by simp, behind⟩
      · exact holding_of_exiting (Convert.exiting_out _ _)
  | writesHeader text handle image place held stored =>
      exact holding.written (by rw [place]; rfl) held _ rfl rfl
  | reads buffer limit file place limited nonempty held data =>
      intro _
      exact holding (by rw [place]; rfl)
  | meetsEnd file place held ended =>
      intro _
      exact holding (by rw [place]; rfl)
  | compresses buffer dstdata place compressed =>
      intro _
      exact holding (by rw [place]; rfl)
  | writesBlock buffer dstdata handle image place held stored absent =>
      exact holding.written (by rw [place]; rfl) held _ rfl rfl
  | publishes ino place found => exact notBuilding rfl
  | sizes ino place found => exact notBuilding rfl
  | empties ino place granted found => exact notBuilding rfl
  | regrows ino place found =>
      exact holding_of_exiting (Convert.exiting_out _ _)
  | closesSource place => exact holding_of_exiting (Convert.exiting_outImage _)
  | closesImage handle place held => exact notBuilding rfl
  | closesNothing place lost => exact notBuilding rfl

/-- The image of a path is there, and it is an HDF5 file of its own. -/
structure Stands (fs : FileSystem) (target : Target) : Prop where
  oneName : OneName fs
  image :
    ∃ ino image, fs.entry target.h5name = some ino ∧
      fs.node ino = .image image

/-- A granted `rename` makes an image. -/
theorem stands_of_granted
    (oneName : OneName sys.fs) (holding : Holding sys c)
    (place : c.pc = .renameTemp) (granted : choice.fails = false)
    (stepped : c.step platform sys choice = some (later, c')) :
    Stands later.fs c.target ∧ c' = { c with pc := .statSource } := by
  have oneName' := oneName_of_step oneName stepped
  rcases holding (by rw [place]; rfl) with ⟨ino, image, named, node, _⟩
  rcases advance_eq_some.mp stepped with
    ⟨op, next, reply, action, called, rfl⟩
  unfold Convert.action at action
  rw [place] at action
  cases action
  cases choice with
  | fail errno => cases granted
  | ok number =>
      simp only [kernel, Sys.rename, named,
        if_neg c.target.temp_ne_h5name] at called
      cases called
      refine ⟨⟨oneName', ino, image, ?_, node⟩, rfl⟩
      simp [named]

/-- Past its `rename` the converter leaves the image alone. -/
theorem Stands.step
    (stands : Stands sys.fs c.target) (behind : past c.pc = true)
    (stepped : c.step platform sys choice = some (later, c')) :
    Stands later.fs c'.target ∧ past c'.pc = true := by
  have oneName := oneName_of_step stands.oneName stepped
  rcases stands.image with ⟨ino, image, named, node⟩
  rcases moves_of_step stepped with ⟨read, moves⟩
  rcases finishes_of_moves moves behind with ⟨behind', finishes⟩
  refine ⟨⟨oneName, ?_⟩, behind'⟩
  rw [(Moves.source moves).1]
  generalize later.fs = fs at finishes
  cases finishes with
  | leaves => exact ⟨ino, image, named, node⟩
  | resizes src size found =>
      have apart : ino ≠ src := by
        rintro rfl
        exact
          c.target.h5name_ne_path (stands.oneName _ _ ino named found)
      exact ⟨ino, image, named, (node_put_of_ne apart).trans node⟩
  | releases handle success =>
      unfold Sys.released
      split
      · by_cases same : ino = handle.ino
        · exact ⟨ino, _, named, by rw [same]; simp; rfl⟩
        · exact ⟨ino, image, named, (node_put_of_ne same).trans node⟩
      · exact ⟨ino, image, named, node⟩

/-- The converter has published nothing yet. -/
structure Awaiting (state : Sys × Convert) : Prop where
  blank : Blank state.1
  oneName : OneName state.1.fs
  holding : Holding state.1 state.2

/-- The converter has published an image and counted nothing. -/
structure Uncounted (state : Sys × Convert) : Prop where
  stands : Stands state.1.fs state.2.target
  behind : past state.2.pc = true
  diskbytes : state.1.db.space .diskbytes = 0

section Steps

variable {state next : Sys × Convert}

theorem Awaiting.step
    (awaiting : Awaiting state)
    (unpublished : state.2.pc = .renameTemp → choice.fails = true)
    (stepped : soloStep platform state choice = some next) :
    Awaiting next := by
  rcases moves_of_step stepped with ⟨read, moves⟩
  exact
    { blank := awaiting.blank.soloStep unpublished stepped
      oneName := oneName_of_step awaiting.oneName stepped
      holding := awaiting.holding.step moves }

theorem Awaiting.publishes
    (awaiting : Awaiting state)
    (published : ¬ (state.2.pc = .renameTemp → choice.fails = true))
    (stepped : soloStep platform state choice = some next) :
    Uncounted next := by
  simp only [not_forall, Bool.not_eq_true] at published
  rcases published with ⟨place, granted⟩
  rcases moves_of_step stepped with ⟨read, moves⟩
  rcases
    stands_of_granted awaiting.oneName awaiting.holding place granted
      stepped with
    ⟨stands, continues⟩
  constructor
  · rw [continues]
    exact stands
  · rw [continues]
    rfl
  · rw [db_of_moves moves]
    exact awaiting.blank.diskbytes

theorem Uncounted.step
    (uncounted : Uncounted state)
    (stepped : soloStep platform state choice = some next) :
    Uncounted next := by
  rcases moves_of_step stepped with ⟨read, moves⟩
  rcases uncounted.stands.step uncounted.behind stepped with
    ⟨stands, behind⟩
  constructor
  · exact stands
  · exact behind
  · rw [db_of_moves moves]
    exact uncounted.diskbytes

end Steps

/-- An image with bytes is not in a counter that is still 0. -/
theorem Stands.unaccounted
    {target : Target} (stands : Stands sys.fs target)
    (bytes : ∀ image, platform.h5bytes image ≠ [])
    (uncounted : sys.db.space .diskbytes = 0) :
    ¬ Accounted platform sys := by
  intro accounted
  rcases accounted.sum with ⟨images, exactly, total⟩
  rcases stands.image with ⟨ino, image, named, node⟩
  have member : target.h5name ∈ images := by
    rw [exactly]
    exact ⟨⟨target, rfl⟩, by rw [named]; exact Option.some_ne_none ino⟩
  have nothing : ∑ name ∈ images, st_size platform sys.fs name = 0 := by
    rw [uncounted] at total
    exact Int.ofNat_eq_zero.mp total.symm
  have size := Finset.sum_eq_zero_iff.mp nothing target.h5name member
  simp only [st_size, FileSystem.lookup, named, Option.map_some, node,
    Node.bytes] at size
  exact bytes image (List.length_eq_zero_iff.mp size)

/-- A call that renames its temporary file breaks the account. -/
theorem Blank.unaccounted
    {label : Label} (blank : Blank sys) (oneName : OneName sys.fs)
    (bytes : ∀ image, platform.h5bytes image ≠ [])
    (published : ¬ Unpublished platform sys label)
    (stepped : DiskUsage.step platform sys label = some later) :
    ¬ Accounted platform later := by
  cases label with
  | unlink proc path choices => exact (published trivial).elim
  | convert proc target method srcfd h5fd choices =>
      rcases Option.bind_eq_some_iff.mp stepped with ⟨state, ran, ended⟩
      have awaiting :
          Awaiting
            ({ sys with proc := proc },
              convert2h5 target method srcfd h5fd) := by
        constructor
        · exact ⟨blank.images, blank.diskbytes⟩
        · exact oneName
        · intro building
          cases building
      split at ended
      · cases ended
        rcases
          Transition.run_exact (fun _ _ _ => Awaiting.step)
            (fun _ _ _ => Awaiting.publishes) (fun _ _ _ => Uncounted.step)
            awaiting ran with
          ⟨along, _⟩ | ⟨_, uncounted⟩
        · exact (published along).elim
        · exact uncounted.stands.unaccounted bytes uncounted.diskbytes
      · cases ended

end Published

/-! ## Runs -/

section Runs

variable {platform : Platform} {sys later : Sys}

/-- No call gives a file a second name. -/
theorem OneName.diskStep
    {label : Label} (oneName : OneName sys.fs)
    (stepped : step platform sys label = some later) :
    OneName later.fs := by
  cases label with
  | convert proc target method srcfd h5fd choices =>
      rcases Option.bind_eq_some_iff.mp stepped with ⟨state, ran, ended⟩
      split at ended
      · cases ended
        refine
          Transition.run_invariant
            (fun state : Sys × Convert => OneName state.1.fs) ?_ ?_ ran
        · intro state choice next oneName' moved
          exact oneName_of_step oneName' moved
        · exact oneName
      · cases ended
  | unlink proc path choices =>
      rcases Option.map_eq_some_iff.mp stepped with
        ⟨⟨ret, final⟩, ran, rfl⟩
      have calls : (dzfile_unlink path).AllCalls fun _ => True :=
        .of_forall (fun _ => trivial) _
      refine
        calls.run_invariant (fun environment => OneName environment.fs) ?_
          oneName ran
      intro environment choice op reply next _ oneName' called
      have names := entryStep_of_kernel called
      exact oneName'.step names

/--
The counter is the disk usage throughout every run that publishes nothing; and
where images have bytes and files one name, throughout no other.
-/
theorem accounted_throughout_iff_unpublished
    {labels : List Label} {final : Sys} (blank : Blank sys)
    (ran : Transition.run (step platform) sys labels = some final) :
    (Along (step platform) (Unpublished platform) sys labels →
        Throughout (step platform) (Accounted platform) sys labels) ∧
      ((∀ image, platform.h5bytes image ≠ []) → OneName sys.fs →
        Throughout (step platform) (Accounted platform) sys labels →
          Along (step platform) (Unpublished platform) sys labels) := by
  constructor
  · intro along
    refine
      Transition.throughout_of_along Blank (fun _ => Blank.accounted) ?_ blank
        along
    intro state label next
    exact Blank.step
  · intro bytes oneName throughout
    refine
      (Transition.throughout_iff_along
        (fun state => Blank state ∧ OneName state.fs) ?_ ?_ ?_
        ⟨blank, oneName⟩ ran).mp throughout
    · rintro state ⟨blank', _⟩
      exact blank'.accounted
    · rintro state label next ⟨blank', oneName'⟩ unpublished stepped
      exact
        ⟨blank'.step unpublished stepped,
          OneName.diskStep oneName' stepped⟩
    · rintro state label next ⟨blank', oneName'⟩ published stepped
      exact blank'.unaccounted oneName' bytes published stepped

end Runs

/-! ## A deleted image -/

/-- An HDF5 file begins with its signature. -/
def signedPlatform : Platform where
  libs := storingLibs
  h5bytes _ := [137, 72, 68, 70, 13, 10, 26, 10]

/-- A store with the directory `/` and the file `/f`, which holds the byte 7. -/
def storeRootF : Sys :=
  { storeF [7] with fs := (storeF [7]).fs.link ['/'] .directory }

theorem blank_storeRootF : Blank storeRootF := by
  constructor
  · intro target
    have notRoot : target.h5name ≠ ['/'] :=
      h5name_ne_of_not_hidden (by decide) target
    have notF : target.h5name ≠ ['/', 'f'] :=
      h5name_ne_of_not_hidden (by decide) target
    simp [storeRootF, storeF, Sys.initial, Function.update_of_ne notRoot,
      Function.update_of_ne notF]
  · rfl

theorem oneName_storeRootF : OneName storeRootF.fs := by
  intro p q ino first second
  simp only [storeRootF, storeF, Sys.initial, FileSystem.entry_link,
    FileSystem.fresh_link, Function.update_apply] at first second
  grind

/-- `/f` is converted and then deleted. -/
def convertAndUnlink : List Label :=
  [.convert .empty targetF .DZ_ALG_ZSTD 0 0
      (.ok 0 :: .ok 0 :: List.replicate 13 (.ok 1)),
    .unlink .empty targetF.path (List.replicate 6 (.ok 0))]

/-- The counter is then the size of the image below 0. -/
theorem convertAndUnlink_runs :
    ∃ final,
      Transition.run (step signedPlatform) storeRootF convertAndUnlink =
          some final ∧
        final.db.space .diskbytes = -8 := by
  have facts :
      (Transition.run (step signedPlatform) storeRootF convertAndUnlink).map
          (fun final => final.db.space .diskbytes) =
        some (-8) := by
    decide +kernel
  exact Option.map_eq_some_iff.mp facts

theorem accounted_throughout_iff_unpublished_convertAndUnlink :
    ∃ final,
      Transition.run (step signedPlatform) storeRootF convertAndUnlink =
          some final ∧
        (Throughout (step signedPlatform) (Accounted signedPlatform)
            storeRootF convertAndUnlink ↔
          Along (step signedPlatform) (Unpublished signedPlatform) storeRootF
            convertAndUnlink) := by
  rcases convertAndUnlink_runs with ⟨final, ran, _⟩
  rcases accounted_throughout_iff_unpublished blank_storeRootF ran with
    ⟨enough, needed⟩
  have bytes : ∀ image, signedPlatform.h5bytes image ≠ [] := by
    intro image
    exact List.cons_ne_nil _ _
  exact ⟨final, ran, needed bytes oneName_storeRootF, enough⟩

/-- Deleting a converted file makes the disk usage negative. -/
theorem deleted_image_makes_diskbytes_negative :
    ¬ ∀ (platform : Platform) (sys final : Sys) (labels : List Label),
        Blank sys →
          Transition.run (step platform) sys labels = some final →
            Accounted platform final := by
  intro claimed
  rcases convertAndUnlink_runs with ⟨final, ran, negative⟩
  have accounted := claimed signedPlatform _ final _ blank_storeRootF ran
  rcases accounted.sum with ⟨images, _, total⟩
  rw [negative] at total
  have nonneg :
      (0 : Int) ≤
        (∑ name ∈ images, st_size signedPlatform final.fs name : Nat) :=
    Int.natCast_nonneg _
  omega

end DZFile.DiskUsage
