import DZFile.Opening
import DZFile.Staging

/-!
# Deleting a file

`dzfile_unlink` removes the hidden image and counts it, removes the visible
file, and then asks `stat` for the size of the file it has just removed.  That
call finds nothing, so `dzfile_unlink` never returns 0, and `writtenbytes` is
never reduced.

What it promises about a failure therefore holds of the runs that remove
nothing, and of no others.
-/

namespace DZFile.Deletion

open DZFile.Interaction
open DZFile.Names
open DZFile.Codec
open DZFile.Kernel
open DZFile.Api
open DZFile.Opening
open DZFile.Staging

/-! ## The contract -/

/-- What is under the name of the hidden image. -/
def hiddenNode (fs : FileSystem) (path : CString) : Option Node :=
  (buildHiddenFile path).bind fs.lookup

/--
0 tells that both files are gone and have been accounted for, and -1 that
nothing has changed.
-/
structure AllOrNothing
    (path : CString) (size : Nat) (sys : Sys) (ret : Int) (later : Sys) :
    Prop where
  success :
    ret = 0 ↔
      later.fs.lookup path = none ∧ hiddenNode later.fs path = none ∧
        later.db.space .writtenbytes = sys.db.space .writtenbytes - size
  failure :
    ret = -1 →
      later.fs.lookup path = sys.fs.lookup path ∧
        hiddenNode later.fs path = hiddenNode sys.fs path ∧
          later.db.space = sys.db.space

/-- The call does not remove a name. -/
def Refused (sys : Sys) (choice : Choice) : Op → Prop
  | .unlink path => ∀ later, sys.unlink choice path ≠ some (.ok (), later)
  | _ => True

variable
    {platform : Platform} {sys later : Sys} {path hiddenFile : CString}
    {choices : List Choice} {ret : Int}

/-! ## Removing the visible file -/

/-- After the visible file is gone `stat` fails. -/
theorem run_unlinkAccount
    (gone : sys.fs.entry path = none)
    (ran :
      (unlinkAccount path).run (kernel platform) sys choices =
        some (ret, later)) :
    ret = -1 ∧ later = sys := by
  rcases Prog.run_call_eq_some.mp ran with
    ⟨choice, rest, found, middle, rfl, called, restRan⟩
  rcases stat_reply called with ⟨rfl, _, present⟩
  cases found with
  | ok stbuf => exact (present stbuf rfl gone).elim
  | error errno =>
      rcases Prog.run_ret_eq_some.mp restRan with ⟨_, rfl, rfl⟩
      exact ⟨rfl, rfl⟩

/-- From `unlink(filename)` on: -1, and the file is there or it is not. -/
theorem run_unlinkVisible
    (ran :
      (unlinkVisible path).run (kernel platform) sys choices =
        some (ret, later)) :
    ret = -1 ∧
      (((unlinkVisible path).Along (kernel platform) Refused sys choices ∧
          later = sys) ∨
        (¬ (unlinkVisible path).Along (kernel platform) Refused sys
              choices ∧
          later = { sys with fs := sys.fs.remove path })) := by
  unfold unlinkVisible at ran ⊢
  rw [Prog.perform_bind] at ran ⊢
  rcases Prog.run_call_eq_some.mp ran with
    ⟨choice, rest, removed, middle, rfl, called, restRan⟩
  rw [Prog.along_call_iff called]
  rcases Sys.unlink_eq_some called with
    ⟨errno, rfl, rfl⟩ | ⟨rfl, _, _, _, rfl⟩
  · rcases Prog.run_ret_eq_some.mp restRan with ⟨rfl, rfl, rfl⟩
    refine ⟨rfl, Or.inl ⟨⟨?_, Prog.along_nil _ _⟩, rfl⟩⟩
    intro later granted
    change middle.unlink choice path = _ at called
    rw [called] at granted
    cases granted
  · rcases run_unlinkAccount (by simp) restRan with ⟨rfl, rfl⟩
    refine ⟨rfl, Or.inr ⟨?_, rfl⟩⟩
    rintro ⟨refused, _⟩
    exact refused _ called

/-! ## Removing the image -/

/-- `sub_diskbytes` changes the database at most. -/
theorem run_sub_diskbytes
    {num : Int}
    (ran :
      (sub_diskbytes num).run (kernel platform) sys choices =
        some (ret, later)) :
    later.fs = sys.fs := by
  apply
    Prog.AllCalls.run_invariant
      (fun other : Sys => other.fs = sys.fs)
      (fun environment choice op reply later quiet same called =>
        (fs_of_looks quiet called).trans same)
      (looks_space_update .diskbytes num .SUB_NUM) rfl ran

/-- From `unlink(hiddenFile)` on: -1, and the image is there or it is not. -/
theorem run_unlinkHidden
    {stbuf : Stat} (different : hiddenFile ≠ path)
    (ran :
      (unlinkHidden path hiddenFile stbuf).run (kernel platform) sys
          choices =
        some (ret, later)) :
    ret = -1 ∧
      (((unlinkHidden path hiddenFile stbuf).Along (kernel platform) Refused
            sys choices ∧
          later = sys) ∨
        (¬ (unlinkHidden path hiddenFile stbuf).Along (kernel platform)
              Refused sys choices ∧
          sys.fs.lookup hiddenFile ≠ none ∧
            later.fs.lookup hiddenFile = none)) := by
  unfold unlinkHidden at ran ⊢
  rw [Prog.perform_bind] at ran ⊢
  rcases Prog.run_call_eq_some.mp ran with
    ⟨choice, rest, removed, middle, rfl, called, restRan⟩
  rw [Prog.along_call_iff called]
  rcases Sys.unlink_eq_some called with
    ⟨errno, rfl, rfl⟩ | ⟨rfl, _, present, _, rfl⟩
  · rcases Prog.run_ret_eq_some.mp restRan with ⟨rfl, rfl, rfl⟩
    refine ⟨rfl, Or.inl ⟨⟨?_, Prog.along_nil _ _⟩, rfl⟩⟩
    intro later granted
    change middle.unlink choice hiddenFile = _ at called
    rw [called] at granted
    cases granted
  · rcases Prog.run_bind_eq_some.mp restRan with
      ⟨before, after, rc, counted, rfl, countRan, visibleRan⟩
    have files := run_sub_diskbytes countRan
    rcases run_unlinkVisible visibleRan with ⟨rfl, outcome⟩
    refine ⟨rfl, Or.inr ⟨?_, present, ?_⟩⟩
    · rintro ⟨refused, _⟩
      exact refused _ called
    · rcases outcome with ⟨_, rfl⟩ | ⟨_, rfl⟩
      · rw [files]
        simp [FileSystem.lookup]
      · simp [FileSystem.lookup, files, Function.update_of_ne different]

/-! ## The whole function -/

/-- A call that only looks is never a removal. -/
theorem refused_of_looks
    (sys : Sys) (choice : Choice) (op : Op) (quiet : looks op) :
    Refused sys choice op := by
  cases op with
  | stat path => trivial
  | sqlite3_exec stmt => trivial
  | _ => exact quiet.elim

/-- What `dzfile_unlink` leaves behind, for a part of it and for the whole. -/
inductive Outcome
    (platform : Platform) (path : CString) (program : Call Int) (sys : Sys)
    (choices : List Choice) (later : Sys) : Prop where
  | nothing
      (along : program.Along (kernel platform) Refused sys choices)
      (same : later = sys)
  | something
      (notAlong : ¬ program.Along (kernel platform) Refused sys choices)
      (gone :
        later.fs.lookup path = none ∨
          (hiddenNode sys.fs path ≠ none ∧
            hiddenNode later.fs path = none))

theorem run_unlinkImage
    (ran :
      (unlinkImage path).run (kernel platform) sys choices =
        some (ret, later)) :
    ret = -1 ∧
      Outcome platform path (unlinkImage path) sys choices later := by
  unfold unlinkImage at ran ⊢
  cases built : buildHiddenFile path with
  | none =>
      rw [built] at ran
      simp at ran
  | some hiddenFile =>
      rw [built] at ran
      simp only [Prog.perform_bind] at ran ⊢
      rcases Prog.run_call_eq_some.mp ran with
        ⟨choice, rest, found, middle, rfl, called, restRan⟩
      rcases stat_reply called with ⟨rfl, _, _⟩
      cases found with
      | error errno =>
          rcases Prog.run_ret_eq_some.mp restRan with ⟨rfl, rfl, rfl⟩
          refine ⟨rfl, .nothing ?_ rfl⟩
          rw [Prog.along_call_iff called]
          exact ⟨trivial, Prog.along_nil _ _⟩
      | ok stbuf =>
          rcases run_unlinkHidden (buildHiddenFile_ne built) restRan with
            ⟨rfl, ⟨along, rfl⟩ | ⟨notAlong, present, gone⟩⟩
          · refine ⟨rfl, .nothing ?_ rfl⟩
            rw [Prog.along_call_iff called]
            exact ⟨trivial, along⟩
          · refine ⟨rfl, .something ?_ (Or.inr ?_)⟩
            · rw [Prog.along_call_iff called]
              rintro ⟨_, along⟩
              exact notAlong along
            · simp only [hiddenNode, built, Option.bind_some]
              exact ⟨present, gone⟩

/-- It never returns 0. -/
theorem run_dzfile_unlink
    (ran :
      (dzfile_unlink path).run (kernel platform) sys choices =
        some (ret, later)) :
    ret = -1 ∧
      Outcome platform path (dzfile_unlink path) sys choices later := by
  unfold dzfile_unlink at ran ⊢
  split at ran
  · rename_i sysdir
    rw [if_pos sysdir]
    rcases Prog.run_ret_eq_some.mp ran with ⟨rfl, rfl, rfl⟩
    exact ⟨rfl, .nothing (Prog.along_nil _ _) rfl⟩
  · rename_i ordinary
    rw [if_neg ordinary]
    rcases Prog.run_bind_eq_some.mp ran with
      ⟨before, after, rc, middle, rfl, lookRan, restRan⟩
    rcases run_findhiddenFile lookRan with ⟨rfl, _⟩
    have looking :
        (findhiddenFile path).Along (kernel platform) Refused middle
          before :=
      (looks_findhiddenFile path).along refused_of_looks middle before
    have removing :
        ret = -1 ∧
          Outcome platform path
            (if rc = 1 then unlinkImage path else unlinkVisible path) middle
            after later := by
      split at restRan
      · rename_i image
        rw [if_pos image]
        exact run_unlinkImage restRan
      · rename_i plain
        rw [if_neg plain]
        rcases run_unlinkVisible restRan with
          ⟨rfl, ⟨along, rfl⟩ | ⟨notAlong, rfl⟩⟩
        · exact ⟨rfl, .nothing along rfl⟩
        · exact
            ⟨rfl, .something notAlong (Or.inl (by simp [FileSystem.lookup]))⟩
    rcases removing with ⟨rfl, outcome⟩
    refine ⟨rfl, ?_⟩
    cases outcome with
    | nothing along same =>
        apply Outcome.nothing _ same
        rw [Prog.along_bind_iff lookRan]
        exact ⟨looking, along⟩
    | something notAlong gone =>
        apply Outcome.something _ gone
        rw [Prog.along_bind_iff lookRan]
        rintro ⟨_, along⟩
        exact notAlong along

/--
Of an existing path: the contract holds if and only if no `unlink` of the run
removes anything.
-/
theorem allOrNothing_iff_refused
    {node : Node} (found : sys.fs.lookup path = some node)
    (ran :
      (dzfile_unlink path).run (kernel platform) sys choices =
        some (ret, later)) :
    AllOrNothing path (node.bytes platform).length sys ret later ↔
      (dzfile_unlink path).Along (kernel platform) Refused sys choices := by
  rcases run_dzfile_unlink ran with ⟨rfl, outcome⟩
  cases outcome with
  | nothing along same =>
      subst same
      apply iff_of_true _ along
      constructor
      · constructor
        · intro zero
          cases zero
        · rintro ⟨gone, _⟩
          rw [found] at gone
          cases gone
      · intro _
        exact ⟨rfl, rfl, rfl⟩
  | something notAlong gone =>
      apply iff_of_false _ notAlong
      intro contract
      rcases contract.failure rfl with ⟨visible, hidden, _⟩
      rcases gone with gone | ⟨present, gone⟩
      · rw [visible, found] at gone
        cases gone
      · rw [hidden] at gone
        exact present gone

/-- The file cannot be removed. -/
theorem allOrNothing_iff_refused_readOnly :
    ∃ later,
      (dzfile_unlink targetF.path).run (kernel storingPlatform) (storeF [7])
          [.ok 0, .fail .EACCES] =
        some (-1, later) ∧
        (AllOrNothing targetF.path
            ((Node.file [7]).bytes storingPlatform).length (storeF [7]) (-1)
            later ↔
          (dzfile_unlink targetF.path).Along (kernel storingPlatform) Refused
            (storeF [7]) [.ok 0, .fail .EACCES]) := by
  have found :
      (storeF [7]).fs.lookup targetF.path = some (.file [7]) :=
    rfl
  exact ⟨storeF [7], rfl, allOrNothing_iff_refused found rfl⟩

/-- Deleting a plain file returns -1 when nothing fails. -/
theorem plain_file_deleted_with_failure :
    ¬ ∀ (platform : Platform) (path : CString) (node : Node) (sys : Sys)
        (choices : List Choice) (ret : Int) (later : Sys),
        sys.fs.lookup path = some node →
          (dzfile_unlink path).run (kernel platform) sys choices =
            some (ret, later) →
            AllOrNothing path (node.bytes platform).length sys ret later := by
  intro claimed
  have contract :=
    claimed storingPlatform targetF.path (.file [7]) (storeF [7])
      [.ok 0, .ok 0, .ok 0] (-1) _ rfl rfl
  rcases contract.failure rfl with ⟨visible, _, _⟩
  cases visible

end DZFile.Deletion
