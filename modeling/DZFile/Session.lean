import DZFile.StoreConversion
import DZFile.StoreDeletion
import DZFile.StoreGet
import DZFile.StorePut
import DZFile.Library.Simulation

/-!
# Sessions

One run of a tool after the other, each in a process of its own: puts,
conversions, gets and deletions of any paths in any order, with whatever their
calls return.  The file system that is left holds the store that is left when
each run does to the store what its tool is for.

A conversion is given what it cannot do without: its first look is answered,
its reads are in full, and nothing fails once it has renamed its file.  A
deletion is given an answer to its look.
-/

namespace DZFile.Session

open DZFile.ByteSeq
open DZFile.Interaction
open DZFile.Simulation
open DZFile.Names
open DZFile.Codec
open DZFile.Kernel
open DZFile.Api
open DZFile.Opening
open DZFile.Converter
open DZFile.ReadBack
open DZFile.PutContent
open DZFile.Reaching
open DZFile.Confinement
open DZFile.Contents
open DZFile.StoreConversion
open DZFile.StoreDeletion
open DZFile.StorePut
open DZFile.StoreGet

/-! ## Events -/

/-- A whole run of a tool, with what its calls return. -/
inductive Event where
  | put (src dst : Target) (choices : List Choice)
  | convert (target : Target) (srcfd h5fd : Int) (choices : List Choice)
  | get (src dst : Target) (dstlen : Nat → Int) (choices : List Choice)
  | unlink (target : Target) (choices : List Choice)

/-- What the processes share. -/
structure Disk where
  fs : FileSystem
  db : Metadata.Db

namespace Disk

/-- A process that has just started on the disk. -/
def sys (disk : Disk) : Sys :=
  ⟨disk.fs, disk.db, .empty⟩

/-- What a process leaves behind. -/
def after (sys : Sys) : Disk :=
  ⟨sys.fs, sys.db⟩

/-- The disk after a run that has come to its end. -/
def step (platform : Platform) (disk : Disk) : Event → Option Disk
  | .put src dst choices =>
      match
        Transition.run (PutContent.step platform)
          (PutContent.start disk.sys src.path dst.path) choices
      with
      | some ((sys, _), .ret (.inr _)) => some (after sys)
      | _ => none
  | .convert target srcfd h5fd choices =>
      match
        Transition.run (soloStep platform)
          (disk.sys, convert2h5 target .DZ_ALG_ZSTD srcfd h5fd) choices
      with
      | some (sys, c) => if c.pc = .returned then some (after sys) else none
      | none => none
  | .get src dst dstlen choices =>
      match
        Transition.run (Get.step platform dstlen)
          (disk.sys, Get.dzfile_get src.path dst.path) choices
      with
      | some (sys, .ret (.inr _)) => some (after sys)
      | _ => none
  | .unlink target choices =>
      ((dzfile_unlink target.path).run (kernel platform) disk.sys
        choices).map fun answer => after answer.2

end Disk

/-- What an event is given: files for its paths, and some answers. -/
def Given (platform : Platform) (disk : Disk) : Event → Prop
  | .put src dst _ =>
      Ordinary src.path ∧ Ordinary dst.path ∧
        (∃ content, disk.fs.lookup src.path = some (.file content)) ∧
          disk.fs.lookup dst.path ≠ some .directory
  | .convert target srcfd h5fd choices =>
      Ordinary target.path ∧
        (∀ content, disk.fs.lookup target.path = some (.file content) →
          disk.fs.lookup target.h5name = none →
            content.length < 2147483648 ∧ AllShort platform.libs content) ∧
          Transition.Along (soloStep platform) (Steady platform)
            (disk.sys, convert2h5 target .DZ_ALG_ZSTD srcfd h5fd) choices
  | .get _ dst _ _ =>
      Ordinary dst.path ∧ disk.fs.lookup dst.path ≠ some .directory
  | .unlink target choices =>
      Ordinary target.path ∧
        (dzfile_unlink target.path).Along (kernel platform)
          (fun _ choice op => answersLook choice op = true) disk.sys choices

/-- What an event is for, and how it may fail. -/
inductive Effect (store : Store) : Event → Store → Prop where
  | put (src dst : Target) (choices : List Choice) (content : Bytes)
      (results : Results)
      (source : (store src.path).bind Entry.visible = some content) :
      Effect store (.put src dst choices)
        (store.set dst.path (puts content results (store dst.path)))
  | convert (target : Target) (srcfd h5fd : Int) (choices : List Choice)
      (ret : Int) :
      Effect store (.convert target srcfd h5fd choices)
        (store.set target.path (converts ret (store target.path)))
  | getNothing (src dst : Target) (dstlen : Nat → Int)
      (choices : List Choice) :
      Effect store (.get src dst dstlen choices) store
  | get (src dst : Target) (dstlen : Nat → Int) (choices : List Choice)
      (bytes : Bytes) :
      Effect store (.get src dst dstlen choices)
        (store.set dst.path (receives bytes (store dst.path)))
  | unlink (target : Target) (choices : List Choice) (entry : Option Entry)
      (unlinks : Unlinks (store target.path) entry) :
      Effect store (.unlink target choices) (store.set target.path entry)

section Events

variable
    {platform : Platform} {store store' : Store} {disk disk' : Disk}
    {event : Event} {target : Target}

/-- What is no directory in the file system is none in the store. -/
theorem not_directory
    (refines : Refines platform.libs disk.fs store)
    (ordinary : Ordinary target.path)
    (other : disk.fs.lookup target.path ≠ some .directory) :
    store target.path ≠ some .directory := by
  intro same
  have represents := refines.represents target ordinary
  rw [same] at represents
  cases represents with
  | directory found noImage => exact other found

/-- The visible file of a path is that of its entry. -/
theorem visible_of_lookup
    (refines : Refines platform.libs disk.fs store)
    (ordinary : Ordinary target.path) {content : Bytes}
    (found : disk.fs.lookup target.path = some (.file content)) :
    (store target.path).bind Entry.visible = some content := by
  have represents := refines.represents target ordinary
  generalize store target.path = entry at represents
  cases represents with
  | absent missing noImage =>
      rw [missing] at found
      cases found
  | directory visible noImage =>
      rw [visible] at found
      cases found
  | plain now visible noImage =>
      rw [visible] at found
      cases found
      rfl
  | converted now placeholder image visible =>
      rw [visible] at found
      cases found
      rfl

/-- A plain entry is the visible file, without an image. -/
theorem lookup_of_plain
    (refines : Refines platform.libs disk.fs store)
    (ordinary : Ordinary target.path) {content : Bytes}
    (plain : store target.path = some (.plain content)) :
    disk.fs.lookup target.path = some (.file content) ∧
      disk.fs.lookup target.h5name = none := by
  have represents := refines.represents target ordinary
  rw [plain] at represents
  cases represents with
  | plain now visible noImage => exact ⟨visible, noImage⟩

/-- Every event does to the store what it is for. -/
theorem matched_of_step
    (refines : Refines platform.libs disk.fs store)
    (given : Given platform disk event)
    (stepped : disk.step platform event = some disk') :
    ∃ store',
      Effect store event store' ∧ Refines platform.libs disk'.fs store' := by
  cases event with
  | put src dst choices =>
      rcases given with ⟨ordinary, ordinary', ⟨content, found⟩, notDirectory⟩
      simp only [Disk.step] at stepped
      split at stepped
      · rename_i sys results ret ran
        cases stepped
        exact
          ⟨_,
            .put src dst choices content results
              (visible_of_lookup refines ordinary found),
            refines_of_put refines ordinary' found
              (not_directory refines ordinary' notDirectory) ran rfl⟩
      · cases stepped
  | convert target srcfd h5fd choices =>
      rcases given with ⟨ordinary, packed, steady⟩
      simp only [Disk.step] at stepped
      split at stepped
      · rename_i sys c ran
        split at stepped
        · rename_i returned
          cases stepped
          refine
            ⟨_, .convert target srcfd h5fd choices c.ret,
              refines_of_conversion refines ordinary ?_ steady ran
                returned⟩
          intro content plain
          rcases lookup_of_plain refines ordinary plain with
            ⟨visible, noImage⟩
          exact packed content visible noImage
        · cases stepped
      · cases stepped
  | get src dst dstlen choices =>
      rcases given with ⟨ordinary, notDirectory⟩
      simp only [Disk.step] at stepped
      split at stepped
      · rename_i sys ret ran
        cases stepped
        rcases
          refines_of_get refines ordinary
            (not_directory refines ordinary notDirectory) ran with
          same | ⟨bytes, received⟩
        · exact ⟨store, .getNothing src dst dstlen choices, same⟩
        · exact ⟨_, .get src dst dstlen choices bytes, received⟩
      · cases stepped
  | unlink target choices =>
      rcases given with ⟨ordinary, answered⟩
      rcases Option.map_eq_some_iff.mp stepped with ⟨⟨ret, later⟩, ran, same⟩
      cases same
      rcases refines_of_unlink refines ordinary answered ran with
        ⟨entry, unlinks, refines'⟩
      exact ⟨_, .unlink target choices entry unlinks, refines'⟩

/-- The event writes over the content of the path, or deletes it. -/
def Replaces (path : CString) : Event → Prop
  | .put _ dst _ => dst.path = path
  | .convert _ _ _ _ => False
  | .get _ dst _ _ => dst.path = path
  | .unlink target _ => target.path = path

theorem content_set_of_ne
    {path other : CString} (different : other ≠ path)
    (entry : Option Entry) :
    (store.set path entry).content other = store.content other := by
  rw [Store.content, Store.set_of_ne different, Store.content]

/-- A conversion keeps the content of its path, and of every other. -/
theorem content_converts (ret : Int) (path other : CString) :
    (store.set path (converts ret (store path))).content other =
      store.content other := by
  by_cases same : other = path
  · subst same
    rw [Store.content, Store.set_self, Store.content]
    rcases store other with _ | ⟨_ | _ | _⟩
    · rfl
    · rfl
    · simp only [converts]
      split <;> rfl
    · rfl
  · exact content_set_of_ne same _

/-- The content of a path is kept by the events that do not replace it. -/
theorem content_of_effect
    {path : CString} (spared : ¬ Replaces path event)
    (effect : Effect store event store') :
    store'.content path = store.content path := by
  cases effect with
  | put src dst choices content results source =>
      exact content_set_of_ne (Ne.symm spared) _
  | convert target srcfd h5fd choices ret => exact content_converts _ _ _
  | getNothing src dst dstlen choices => rfl
  | get src dst dstlen choices bytes =>
      exact content_set_of_ne (Ne.symm spared) _
  | unlink target choices entry unlinks =>
      exact content_set_of_ne (Ne.symm spared) _

theorem content_of_steps
    {path : CString} {events : List Event}
    (spared : ∀ event ∈ events, ¬ Replaces path event)
    (steps : Steps Effect store events store') :
    store'.content path = store.content path :=
  steps.invariant (fun later => later.content path = store.content path)
    (fun _ _ _ spared same effect =>
      (content_of_effect spared effect).trans same)
    spared rfl

/-- Whatever tools are run, the store follows. -/
theorem run_of_refines
    {events : List Event}
    (refines : Refines platform.libs disk.fs store)
    (given :
      Transition.Along (Disk.step platform) (Given platform) disk events)
    (ran :
      Transition.run (Disk.step platform) disk events = some disk') :
    ∃ store',
      Steps Effect store events store' ∧
        Refines platform.libs disk'.fs store' := by
  have matched :
      ∀ (store : Store) (disk : Disk) (event : Event) (next : Disk),
        Refines platform.libs disk.fs store → Given platform disk event →
          disk.step platform event = some next →
            ∃ store', Effect store event store' ∧
              Refines platform.libs next.fs store' :=
    fun _ _ _ _ refines given stepped => matched_of_step refines given stepped
  exact
    run_simulates
      (fun (store : Store) (disk : Disk) =>
        Refines platform.libs disk.fs store)
      matched refines given ran

end Events

/-! ## A session -/

/-- The path `/s`, which holds two bytes. -/
def targetS : Target where
  path := ['/', 's']
  h5name := ['/', '.', 's', '.', 'D', 'Z', 'F']
  built := by decide

/-- The path `/d`, which does not exist. -/
def targetD : Target where
  path := ['/', 'd']
  h5name := ['/', '.', 'd', '.', 'D', 'Z', 'F']
  built := by decide

def diskS : Disk where
  fs := storeS.fs
  db := .empty

/-- `/s` alone. -/
def storedS : Store :=
  Store.set (fun _ => none) targetS.path (some (.plain [7, 8]))

theorem refines_storedS : Refines storingLibs diskS.fs storedS := by
  have ordinary : Ordinary targetS.path := ordinary_of_not_hidden (by decide)
  exact
    (refines_initial storingLibs).link ordinary rfl
      (Or.inr ⟨[7, 8], rfl, rfl⟩)

/-- `/s` is put to `/d`. -/
def putsD : Event :=
  .put targetS targetD (putsS 2)

/-- `/d` is converted. -/
def convertsD : Event :=
  .convert targetD 0 0 (List.replicate 15 ReadBack.granted)

theorem given_putsD : Given storingPlatform diskS putsD := by
  refine ⟨?_, ?_, ⟨[7, 8], rfl⟩, ?_⟩
  · exact ordinary_of_not_hidden (by decide)
  · exact ordinary_of_not_hidden (by decide)
  · intro found
    cases found

/-- A copy of a short content fits into the reader's buffer. -/
theorem allShort_storing
    {content : Bytes} (short : content.length + 1 < H5_BUFSIZE) :
    AllShort storingLibs content := by
  intro number inside
  have bound := Image.length_chunk content number
  change (40 :: Image.chunk content number).length < H5_BUFSIZE
  rw [List.length_cons, bound]
  omega

theorem given_convertsD
    {disk : Disk} (held : disk.fs.lookup targetD.path = some (.file [7, 8])) :
    Given storingPlatform disk convertsD := by
  refine ⟨ordinary_of_not_hidden (by decide), ?_, ?_⟩
  · intro content found _
    rw [held] at found
    cases found
    refine ⟨by decide, allShort_storing ?_⟩
    rw [H5_BUFSIZE_eq]
    decide
  · apply Transition.along_of_forall
    intro state choice member
    rw [List.eq_of_mem_replicate member]
    exact steady_of_large (Nat.le_of_eq H5_BUFSIZE_eq) _ _

/-- After the put `/d` holds the bytes. -/
theorem runs_putsD :
    ∃ written,
      Transition.run (PutContent.step storingPlatform)
          (PutContent.start diskS.sys targetS.path targetD.path) (putsS 2) =
        some (written, .ret (.inr 0)) ∧
        written.2 = ⟨true, [2, 0], [2]⟩ ∧
          written.1.fs.lookup targetD.path = some (.file [7, 8]) :=
  ⟨_, rfl, rfl, rfl⟩

section RoundTrips

variable
    {platform : Platform} {target : Target}

/-- What a destination has received is in its visible file. -/
theorem visible_of_receives
    {libs : Libs} {fs : FileSystem} {bytes : Bytes} {entry : Option Entry}
    (other : entry ≠ some .directory)
    (represents : Represents libs fs target (receives bytes entry)) :
    fs.lookup target.path = some (.file bytes) := by
  rcases entry with _ | ⟨_ | _ | _⟩
  · cases represents with
    | plain _ visible => exact visible
  · exact (other rfl).elim
  · cases represents with
    | plain _ visible => exact visible
  · cases represents with
    | converted _ _ _ visible => exact visible

end RoundTrips

/-- What a get has returned. -/
def returnValue : Get.GetCall → Option Int
  | .ret (.inr ret) => some ret
  | _ => none

theorem returnValue_eq_some
    {program : Get.GetCall} {ret : Int}
    (value : returnValue program = some ret) :
    program = .ret (.inr ret) := by
  unfold returnValue at value
  split at value
  · cases value
    rfl
  · cases value

/-- The path `/g`, which does not exist. -/
def targetG : Target where
  path := ['/', 'g']
  h5name := ['/', '.', 'g', '.', 'D', 'Z', 'F']
  built := by decide

/-- `/d` is got to `/g`. -/
def getsD : List Choice :=
  [.ok 0, .ok 0, .ok 1, .ok 0, .ok 3, .ok 0, .ok 4] ++
    List.replicate 9 (.ok Get.BUFLEN)

end DZFile.Session
