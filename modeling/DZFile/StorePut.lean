import DZFile.Contents
import DZFile.PutContent

/-!
# What a put makes of the store

A whole run of `dzfile_put`, whatever its calls return: it lays what it has
transferred over the destination, or leaves it alone, and the other paths keep
what they have.  A converted destination is always left alone, since an image
is opened for reading only.
-/

namespace DZFile.StorePut

open DZFile.ByteSeq
open DZFile.Interaction
open DZFile.WholeRuns
open DZFile.Names
open DZFile.Codec
open DZFile.Kernel
open DZFile.Api
open DZFile.Converter
open DZFile.Put
open DZFile.PutContent
open DZFile.Confinement
open DZFile.Contents

/-- What a put with these results makes of an entry. -/
def puts (content : Bytes) (results : Results) :
    Option Entry → Option Entry
  | none =>
      if results.opened then
        some (.plain (overlaid content [] results.reads results.writes))
      else none
  | some (.plain old) =>
      some
        (.plain
          (if results.opened then
            overlaid content old results.reads results.writes
          else old))
  | entry => entry

/-- Behind its last write a chunk adds nothing. -/
theorem laid_append (content : Bytes) (writes more : List Nat) :
    laid content (writes ++ more) writes = laid content writes writes := by
  induction writes generalizing content with
  | nil =>
      cases more with
      | nil => rfl
      | cons read reads => rfl
  | cons written writes induction =>
      simp only [List.cons_append, laid, induction]

/--
Writes that took every chunk in full, up to the end of the content, replace
what was no longer.
-/
theorem overlaid_of_full
    {content old : Bytes} {reads writes : List Nat} (full : writes <+: reads)
    (ended : content.length ≤ writes.sum)
    (shorter : old.length ≤ content.length) :
    overlaid content old reads writes = content := by
  rcases full with ⟨more, rfl⟩
  have whole : laid content (writes ++ more) writes = content := by
    rw [laid_append, laid_full]
    exact List.take_of_length_le ended
  rw [overlaid, whole, List.drop_eq_nil_of_le shorter, List.append_nil]

/-! ## Its calls -/

section Calls

variable {names : CString → Prop} {fd dstfd : Int}

theorem confines_closeSource (fd : Int) :
    (closeSource fd).AllCalls (Confines names) := by
  unfold closeSource
  split
  · exact ⟨trivial, fun _ => trivial⟩
  · trivial

theorem confines_out (fd dstfd : Int) :
    (out fd dstfd).AllCalls (Confines names) := by
  unfold out
  split
  · exact
      (confines_dzfile_close dstfd).bind fun _ => confines_closeSource fd
  · exact confines_closeSource fd

theorem confines_body (loop : Loop) :
    (Put.body loop).AllCalls (Confines names) := by
  cases loop with
  | copy transfer =>
      refine ⟨trivial, ?_⟩
      rintro (errno | ⟨⟩ | buf)
      · exact confines_out _ _
      · exact confines_out _ _
      · trivial
  | lockw transfer buf =>
      refine ⟨trivial, ?_⟩
      rintro (errno | ⟨⟩ | ⟨⟩)
      · exact confines_out _ _
      · trivial
      · refine ⟨trivial, ?_⟩
        rintro (errno | locked)
        · exact confines_out _ _
        · refine (confines_dzfile_write _ _).bind fun nbwrite => ?_
          split
          · exact confines_out _ _
          · trivial

/-- A put opens its source for reading, and its destination. -/
theorem confines_dzfile_put
    {src_file dst_file : CString} (named : names dst_file) :
    (dzfile_put src_file dst_file).AllCalls (Confines names) := by
  unfold dzfile_put
  simp only [Prog.perform_bind]
  refine ⟨Or.inr (by decide), fun opened => ?_⟩
  beta_reduce
  split
  · trivial
  · refine ⟨trivial, fun ret => ?_⟩
    beta_reduce
    split
    · trivial
    · refine (confines_dzfile_open (Or.inl named)).bind fun dstfd => ?_
      split
      · exact confines_out _ _
      · trivial

/-- It goes on, or returns 0. -/
abbrev Zero : Loop ⊕ Int → Prop :=
  Sum.elim (fun _ => True) fun ret => ret = 0

theorem zero_closeSource (fd : Int) : Yields Zero (closeSource fd) := by
  unfold closeSource
  split
  · exact fun _ => rfl
  · rfl

theorem zero_out (fd dstfd : Int) : Yields Zero (out fd dstfd) := by
  unfold out
  split
  · exact Yields.bind _ fun _ => zero_closeSource fd
  · exact zero_closeSource fd

theorem zero_body (loop : Loop) : Yields Zero (Put.body loop) := by
  cases loop with
  | copy transfer =>
      rintro (errno | ⟨⟩ | buf)
      · exact zero_out _ _
      · exact zero_out _ _
      · trivial
  | lockw transfer buf =>
      rintro (errno | ⟨⟩ | ⟨⟩)
      · exact zero_out _ _
      · trivial
      · rintro (errno | locked)
        · exact zero_out _ _
        · show Yields Zero (writeChunk transfer buf)
          refine Yields.bind _ fun nbwrite => ?_
          split
          · exact zero_out _ _
          · trivial

end Calls

section Runs

variable
    {platform : Platform} {store : Store} {fs : FileSystem}
    {db : Metadata.Db} {src dst : Target} {content : Bytes} {ret : Int}
    {choices : List Choice} {final : (Sys × Results) × PutCall}

/-- A put returns 0 unless it has not come to its destination. -/
theorem ret_of_returned
    {sys : Sys} {src_file dst_file : CString}
    (ran :
      Transition.run (PutContent.step platform)
          (PutContent.start sys src_file dst_file) choices =
        some final)
    (returned : final.2 = .ret (.inr ret)) :
    ret = 0 ∨ (final.1.1.fs = sys.fs ∧ final.1.2.opened = false) := by
  rcases final with ⟨⟨later, results⟩, program⟩
  cases returned
  rcases @run_split _ _ _ _ _ _ (noting platform) Put.body _ _ _ _ _ ran with
    ⟨before, after, place, middle, rfl, prefixRan, restRan⟩
  have finishes : Zero place → ret = 0 := by
    intro zero
    apply
      @Yields.of_blocks _ _ _ _ _ _ _ _ (fun ret : Int => ret = 0) zero_body
        _ _ _ _ _ restRan rfl
    exact zero
  unfold dzfile_put at prefixRan
  simp only [Prog.perform_bind] at prefixRan
  rcases Prog.run_call_eq_some.mp prefixRan with
    ⟨choice, rest, opened, entered, rfl, noted, openRan⟩
  rcases answers_kernel ⟨choice, noted⟩ with ⟨⟨_, called⟩, results'⟩
  have sameFs : entered.1.fs = sys.fs := by
    cases opened with
    | error errno => rw [Sys.openFile_eq_error called]
    | ok fd =>
        rcases Sys.openFile_eq_ok (by decide) (by decide) called with
          ⟨_, _, _, _, _, same⟩
        rw [same]
  have sameResults : entered.2 = ⟨false, [], []⟩ := by
    rw [results']
    cases opened <;> rfl
  split at openRan
  · rcases Prog.run_ret_eq_some.mp openRan with ⟨_, rfl, rfl⟩
    have ended := run_returned restRan
    cases ended
    exact Or.inr ⟨sameFs, by rw [sameResults]⟩
  · rcases Prog.run_call_eq_some.mp openRan with
      ⟨choice, rest, started, initialised, rfl, noted, initRan⟩
    rcases answers_kernel ⟨choice, noted⟩ with ⟨⟨initChoice, called⟩, same⟩
    have sameSys : initialised.1 = entered.1 := by
      cases initChoice with
      | ok number => exact (Prod.mk.inj (Option.some.inj called)).2.symm
      | fail errno => exact (Prod.mk.inj (Option.some.inj called)).2.symm
    split at initRan
    · rcases Prog.run_ret_eq_some.mp initRan with ⟨_, rfl, rfl⟩
      have ended := run_returned restRan
      cases ended
      exact
        Or.inr
          ⟨by rw [sameSys, sameFs], by
            rw [same, sameResults]
            rfl⟩
    · left
      apply finishes
      refine Yields.of_run (Yields.bind _ fun dstfd => ?_) initRan
      split
      · exact zero_out _ _
      · trivial

/-- A put changes its destination only. -/
theorem confined_of_put
    {src_file dst_file : CString} (oneName : Reaching.OneName fs)
    (ran :
      Transition.run (PutContent.step platform)
          (PutContent.start ⟨fs, db, .empty⟩ src_file dst_file) choices =
        some final) :
    Confined (· = dst_file) fs final.1.1 := by
  apply
    @run_blocks_invariant _ _ _ _ _ _ (noting platform) Put.body
      (Confines (· = dst_file))
      (fun environment : Sys × Results =>
        Confined (· = dst_file) fs environment.1)
      _ confines_body _ _ _
      (@confines_dzfile_put (· = dst_file) src_file dst_file rfl)
      (confined_initial oneName db) ran
  intro environment choice op reply later confines confined noted
  rcases answers_kernel ⟨choice, noted⟩ with ⟨⟨_, called⟩, _⟩
  exact confined.step confines called

/--
A whole put of a visible file to a path that is no directory makes of the
store what its results say.
-/
theorem refines_of_put
    (refines : Refines platform.libs fs store)
    (ordinary : Ordinary dst.path)
    (source : fs.lookup src.path = some (.file content))
    (notDirectory : store dst.path ≠ some .directory)
    (ran :
      Transition.run (PutContent.step platform)
          (PutContent.start ⟨fs, db, .empty⟩ src.path dst.path) choices =
        some final)
    (returned : final.2 = .ret (.inr ret)) :
    Refines platform.libs final.1.1.fs
      (store.set dst.path (puts content final.1.2 (store dst.path))) := by
  have confined := confined_of_put refines.oneName ran
  apply
    refines.confined ordinary (fun _ named => Or.inl named) confined
  have image : final.1.1.fs.lookup dst.h5name = fs.lookup dst.h5name :=
    confined.kept dst.h5name dst.h5name_ne_path
  have represents := refines.represents dst ordinary
  generalize entry : store dst.path = stored at represents
  -- Nothing has changed, or the destination has been opened.
  have outcome :
      ∀ old, Prior fs dst.path old →
        (final.1.2.opened = false ∧ final.1.1.fs = fs) ∨
          (final.1.2.opened = true ∧
            Plain final.1.1.fs dst.path
              (overlaid content old final.1.2.reads final.1.2.writes)) := by
    intro old prior
    rcases ret_of_returned ran returned with rfl | ⟨same, closed⟩
    · have outcome :=
        outcome_of_run source prior (fun _ _ => rfl) ran returned
      cases opened : final.1.2.opened with
      | true =>
          rw [PutContent.Outcome, if_pos opened] at outcome
          exact Or.inr ⟨rfl, outcome⟩
      | false =>
          rw [PutContent.Outcome, if_neg (by simp [opened])] at outcome
          exact Or.inl ⟨rfl, outcome⟩
    · exact Or.inl ⟨closed, same⟩
  have visible :
      ∀ {now : Bytes}, Plain final.1.1.fs dst.path now →
        final.1.1.fs.lookup dst.path = some (.file now) := by
    rintro now plain
    rcases plain.holds with ⟨ino, named, node⟩
    exact lookup_of_entry named node
  cases represents with
  | absent missing noImage =>
      rcases outcome [] (Or.inl ⟨lookup_eq_none_iff.mp missing, rfl⟩) with
        ⟨closed, same⟩ | ⟨opened, plain⟩
      · rw [puts, if_neg (by simp [closed]), same]
        exact .absent missing noImage
      · rw [puts, if_pos opened]
        exact .plain _ (visible plain) (image.trans noImage)
  | directory found noImage => exact (notDirectory entry).elim
  | plain old found noImage =>
      rcases outcome old (Or.inr (entry_of_lookup found)) with
        ⟨closed, same⟩ | ⟨opened, plain⟩
      · rw [puts, if_neg (by simp [closed]), same]
        exact .plain old found noImage
      · rw [puts, if_pos opened]
        exact .plain _ (visible plain) (image.trans noImage)
  | converted converted placeholder stored found held closed small
      wellFormed =>
      rcases outcome placeholder (Or.inr (entry_of_lookup found)) with
        ⟨_, same⟩ | ⟨_, plain⟩
      · rw [same]
        exact
          .converted converted placeholder stored found held closed small
            wellFormed
      · have gone := plain.unconverted dst.h5name dst.built
        rw [← lookup_eq_none_iff, image, held] at gone
        cases gone

end Runs

end DZFile.StorePut
