import DZFile.Contents
import DZFile.Deletion
import DZFile.Isolation

/-!
# What a deletion makes of the store

A whole run of `dzfile_unlink` whose look at the image is answered, whatever
its other calls return: the entry is gone, or its content is and the visible
file is left, or nothing has happened.  The image goes before the visible
file, so a content is never left without its name.
-/

namespace DZFile.StoreDeletion

open DZFile.ByteSeq
open DZFile.Interaction
open DZFile.Names
open DZFile.Codec
open DZFile.Kernel
open DZFile.Api
open DZFile.Opening
open DZFile.Converter
open DZFile.Reaching
open DZFile.Contents

/-- What a deletion makes of an entry. -/
inductive Unlinks : Option Entry → Option Entry → Prop where
  | refused (entry : Option Entry) : Unlinks entry entry
  | file (content : Bytes) : Unlinks (some (.plain content)) none
  /-- The visible file could not be removed after the image. -/
  | image (content placeholder : Bytes) :
      Unlinks (some (.converted content placeholder))
        (some (.plain placeholder))
  | both (content placeholder : Bytes) :
      Unlinks (some (.converted content placeholder)) none

/-- A look is answered. -/
def answersLook (choice : Choice) : Op → Bool
  | .stat _ => !choice.fails
  | _ => true

section Runs

variable
    {platform : Platform} {store : Store} {fs : FileSystem}
    {db : Metadata.Db} {target : Target} {sys later : Sys}
    {path h5name : CString} {choices : List Choice} {ret : Int}
    {entry : Option Entry}

/-- The visible file is there or it is not. -/
theorem fs_of_unlinkVisible
    (ran :
      (unlinkVisible path).run (kernel platform) sys choices =
        some (ret, later)) :
    later.fs = sys.fs ∨
      (sys.fs.lookup path ≠ none ∧ sys.fs.lookup path ≠ some .directory ∧
        later.fs = sys.fs.remove path) := by
  unfold unlinkVisible at ran
  rw [Prog.perform_bind] at ran
  rcases Prog.run_call_eq_some.mp ran with
    ⟨choice, rest, removed, middle, rfl, called, restRan⟩
  rcases Sys.unlink_eq_some called with
    ⟨errno, rfl, rfl⟩ | ⟨rfl, _, present, file, rfl⟩
  · rcases Prog.run_ret_eq_some.mp restRan with ⟨rfl, rfl, rfl⟩
    exact Or.inl rfl
  · rcases Deletion.run_unlinkAccount (by simp) restRan with ⟨_, rfl⟩
    exact Or.inr ⟨present, file, rfl⟩

/-- The image goes first, and the visible file after it. -/
theorem fs_of_unlinkImage
    (built : buildHiddenFile path = some h5name)
    (ran :
      (unlinkImage path).run (kernel platform) sys choices =
        some (ret, later)) :
    later.fs = sys.fs ∨ later.fs = sys.fs.remove h5name ∨
      later.fs = (sys.fs.remove h5name).remove path := by
  unfold unlinkImage at ran
  rw [built] at ran
  simp only [Prog.perform_bind] at ran
  rcases Prog.run_call_eq_some.mp ran with
    ⟨choice, rest, found, middle, rfl, called, restRan⟩
  rcases stat_reply called with ⟨rfl, _, _⟩
  cases found with
  | error errno =>
      rcases Prog.run_ret_eq_some.mp restRan with ⟨rfl, rfl, rfl⟩
      exact Or.inl rfl
  | ok stbuf =>
      change
        (unlinkHidden path h5name stbuf).run (kernel platform) middle rest =
          some (ret, later) at restRan
      unfold unlinkHidden at restRan
      rw [Prog.perform_bind] at restRan
      rcases Prog.run_call_eq_some.mp restRan with
        ⟨choice, rest, removed, after, rfl, called, visibleRan⟩
      rcases Sys.unlink_eq_some called with
        ⟨errno, rfl, rfl⟩ | ⟨rfl, _, _, _, rfl⟩
      · rcases Prog.run_ret_eq_some.mp visibleRan with ⟨rfl, rfl, rfl⟩
        exact Or.inl rfl
      · rcases Prog.run_bind_eq_some.mp visibleRan with
          ⟨before, behind, rc, counted, rfl, countRan, lastRan⟩
        have files := Deletion.run_sub_diskbytes countRan
        rcases fs_of_unlinkVisible lastRan with same | ⟨_, _, removed⟩
        · exact Or.inr (Or.inl (same.trans files))
        · rw [files] at removed
          exact Or.inr (Or.inr removed)

/-- An answered look at an image finds it. -/
theorem found_of_answered
    {image : Image.H5Image} {rc : Int}
    (built : buildHiddenFile path = some h5name)
    (stored : sys.fs.lookup h5name = some (.image image))
    (answered :
      (findhiddenFile path).Along (kernel platform)
        (fun _ choice op => answersLook choice op = true) sys choices)
    (ran :
      (findhiddenFile path).run (kernel platform) sys choices =
        some (rc, later)) :
    rc = 1 := by
  unfold findhiddenFile at ran answered
  rw [built] at ran answered
  simp only [Prog.perform_bind] at ran answered
  rcases Prog.run_call_eq_some.mp ran with
    ⟨choice, rest, found, middle, rfl, called, returned⟩
  rw [Prog.along_call_iff called] at answered
  have free := answered.1
  rcases choice with number | errno
  · simp only [kernel, Sys.stat, stored] at called
    cases called
    rcases Prog.run_ret_eq_some.mp returned with ⟨_, rfl, _⟩
    rfl
  · cases free

/-- The store after a path has been removed. -/
theorem lookup_remove (fs : FileSystem) (path name : CString) :
    (fs.remove path).lookup name =
      if name = path then none else fs.lookup name := by
  unfold FileSystem.lookup
  rw [FileSystem.entry_remove, FileSystem.node_remove,
    Function.update_apply]
  split <;> rfl

/-- A whole deletion makes of the entry what a deletion may. -/
theorem represents_of_unlink
    (represents : Represents platform.libs sys.fs target entry)
    (answered :
      (dzfile_unlink target.path).Along (kernel platform)
        (fun _ choice op => answersLook choice op = true) sys choices)
    (ran :
      (dzfile_unlink target.path).run (kernel platform) sys choices =
        some (ret, later)) :
    ∃ entry',
      Unlinks entry entry' ∧
        Represents platform.libs later.fs target entry' := by
  have imageNe := target.h5name_ne_path
  have unchanged :
      later.fs = sys.fs →
        ∃ entry',
          Unlinks entry entry' ∧
            Represents platform.libs later.fs target entry' := by
    intro same
    rw [same]
    exact ⟨entry, .refused entry, represents⟩
  unfold dzfile_unlink at ran answered
  split at ran
  · rcases Prog.run_ret_eq_some.mp ran with ⟨_, _, rfl⟩
    exact unchanged rfl
  · rename_i notSystem
    rw [if_neg notSystem] at answered
    rcases Prog.run_bind_eq_some.mp ran with
      ⟨before, after, rc, middle, rfl, lookRan, restRan⟩
    rw [Prog.along_bind_iff lookRan] at answered
    have same := (run_findhiddenFile lookRan).1
    subst same
    split at restRan
    · rename_i image
      rcases (run_findhiddenFile lookRan).2 with
        (wrong | wrong) | ⟨h5name, built, ⟨wrong, _⟩ | ⟨_, present⟩⟩
      · rw [image] at wrong
        cases wrong
      · rw [image] at wrong
        cases wrong
      · rw [image] at wrong
        cases wrong
      · rw [target.built] at built
        cases built
        cases represents with
        | absent missing noImage =>
            exact (present (lookup_eq_none_iff.mp noImage)).elim
        | directory found noImage =>
            exact (present (lookup_eq_none_iff.mp noImage)).elim
        | plain content found noImage =>
            exact (present (lookup_eq_none_iff.mp noImage)).elim
        | converted content placeholder stored found held closed small
            wellFormed =>
            rcases fs_of_unlinkImage target.built restRan with
              same | removed | removed
            · exact unchanged same
            · refine ⟨_, .image content placeholder, .plain _ ?_ ?_⟩
              · rw [removed, lookup_remove, if_neg imageNe.symm]
                exact found
              · rw [removed, lookup_remove, if_pos rfl]
            · refine ⟨_, .both content placeholder, .absent ?_ ?_⟩
              · rw [removed, lookup_remove, if_pos rfl]
              · rw [removed, lookup_remove, if_neg imageNe, lookup_remove,
                  if_pos rfl]
    · rename_i noImageFound
      rcases fs_of_unlinkVisible restRan with
        same | ⟨present, file, removed⟩
      · exact unchanged same
      · have gone : later.fs.lookup target.path = none := by
          rw [removed, lookup_remove, if_pos rfl]
        have image :
            later.fs.lookup target.h5name =
              middle.fs.lookup target.h5name := by
          rw [removed, lookup_remove, if_neg imageNe]
        cases represents with
        | absent missing noImage => exact (present missing).elim
        | directory found noImage => exact (file found).elim
        | plain content found noImage =>
            exact
              ⟨_, .file content, .absent gone (image.trans noImage)⟩
        | converted content placeholder stored found held =>
            have one := found_of_answered target.built held answered.1 lookRan
            exact (noImageFound one).elim

/-- A whole deletion changes the store at its path only. -/
theorem refines_of_unlink
    (refines : Refines platform.libs fs store)
    (ordinary : Ordinary target.path)
    (answered :
      (dzfile_unlink target.path).Along (kernel platform)
        (fun _ choice op => answersLook choice op = true) ⟨fs, db, .empty⟩
        choices)
    (ran :
      (dzfile_unlink target.path).run (kernel platform) ⟨fs, db, .empty⟩
          choices =
        some (ret, later)) :
    ∃ entry,
      Unlinks (store target.path) entry ∧
        Refines platform.libs later.fs (store.set target.path entry) := by
  rcases
    represents_of_unlink (refines.represents target ordinary) answered ran
    with ⟨entry, unlinks, represents⟩
  refine ⟨entry, unlinks, ?_⟩
  have touches :
      (dzfile_unlink target.path).AllCalls (Touches (namesOf target)) := by
    apply Isolation.touches_dzfile_unlink (Or.inl rfl)
    intro h5name built
    rw [target.built] at built
    cases built
    exact Or.inr (Or.inl rfl)
  have oneName : OneName later.fs := by
    refine
      Prog.AllCalls.run_invariant (fun sys : Sys => OneName sys.fs) ?_
        touches refines.oneName ran
    intro environment choice op reply next _ before answered
    exact before.step (entryStep_of_kernel answered)
  apply refines.set ordinary oneName _ represents
  intro name other
  exact lookup_of_run touches refines.oneName ran other

end Runs

end DZFile.StoreDeletion
