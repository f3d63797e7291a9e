import DZFile.Staging
import DZFile.Library.Transition

/-!
# Trying again

All failures of `convert2h5` leave through the label `out`, which closes and
frees but does not remove the temporary file.  Once `H5Fcreate` has succeeded
a failure therefore leaves a name behind that the next conversion takes for
another converter, or for an earlier conversion of the same file.

A conversion makes a bounded number of calls, whatever they return; so a later
one in which no call fails comes to its end, and returns 0 if the names it
wants to create are free.
-/

namespace DZFile.Retry

open DZFile.ByteSeq
open DZFile.Interaction
open DZFile.Codec
open DZFile.Image
open DZFile.Kernel
open DZFile.Converter
open DZFile.Staging

/-! ## The length of a conversion -/

/-- How far the converter has come, but for the blocks it has read. -/
def rank : Pc → Nat
  | .statImage => 0
  | .statTemp => 1
  | .openSource => 2
  | .createTemp => 3
  | .writeHeader _ => 4
  | .readBlock => 5
  | .compressBlock _ => 3
  | .writeBlock _ _ => 4
  | .renameTemp => 6
  | .statSource => 7
  | .truncateZero => 8
  | .truncateSize => 9
  | .closeSource => 10
  | .closeImage => 11
  | .returned => 12

theorem rank_le (pc : Pc) : rank pc ≤ 12 := by
  cases pc <;> simp [rank]

theorem rank_of_inside {pc : Pc} (inside : pc.exiting = false) :
    rank pc ≤ 9 := by
  cases pc <;> simp_all [rank, Pc.exiting]

theorem rank_of_exiting {pc : Pc} (exiting : pc.exiting = true) :
    10 ≤ rank pc := by
  cases pc <;> simp_all [rank, Pc.exiting]

theorem rank_outImage (c : Convert) : 11 ≤ rank c.outImage.pc := by
  unfold Convert.outImage
  split <;> simp [rank]

variable
    {platform : Platform} {sys sys' : Sys} {c c' : Convert} {src : Ino}
    {choice : Choice} {content : Bytes} {pieces read : List Bytes}

/-- Every call takes the converter further, and a block makes three calls. -/
theorem rank_of_moves
    (moves : Moves platform sys c choice read sys' c') :
    rank c.pc < 3 * read.length + rank c'.pc := by
  have leaves :
      ∀ earlier : Convert, ∀ ret, c.pc.exiting = false →
        rank c.pc < rank (earlier.out ret).pc := by
    intro earlier ret inside
    have before := rank_of_inside inside
    have after := rank_of_exiting (Convert.exiting_out earlier ret)
    omega
  cases moves with
  | looks next places =>
      rcases places with ⟨place, rfl⟩ | ⟨place, rfl⟩ <;> simp [place, rank]
  | fails earlier inside target method =>
      rw [List.length_nil, Nat.mul_zero, Nat.zero_add]
      exact leaves earlier (-1) inside
  | creates number ino fs next place granted positive free created continues =>
      rcases continues with ⟨text, header, rfl⟩ | rfl
      · simp [place, rank]
      · rw [List.length_nil, Nat.mul_zero, Nat.zero_add]
        exact leaves _ (-1) (by rw [place]; rfl)
  | regrows ino place found =>
      rw [List.length_nil, Nat.mul_zero, Nat.zero_add]
      exact leaves c 0 (by rw [place]; rfl)
  | closesSource place =>
      have after := rank_outImage c
      rw [place, rank]
      omega
  | opens number ino place free found => simp [place, rank]
  | writesHeader text handle image place held stored => simp [place, rank]
  | reads buffer limit file place limited nonempty held data =>
      simp [place, rank]
  | meetsEnd file place held ended => simp [place, rank]
  | compresses buffer dstdata place compressed => simp [place, rank]
  | writesBlock buffer dstdata handle image place held stored absent =>
      simp [place, rank]
  | publishes ino place found => simp [place, rank]
  | sizes ino place found => simp [place, rank]
  | empties ino place granted found => simp [place, rank]
  | closesImage handle place held => simp [place, rank]
  | closesNothing place lost => simp [place, rank]

/-- What is read is not empty. -/
theorem nonempty_of_moves
    (moves : Moves platform sys c choice read sys' c') :
    ∀ piece ∈ read, piece ≠ [] := by
  cases moves with
  | reads buffer limit file place limited nonempty held data =>
      intro piece member
      rw [List.mem_singleton.mp member]
      exact nonempty
  | _ =>
      intro piece member
      cases member

/-- Pieces that are not empty are no more than the bytes they hold. -/
theorem length_le_flatten
    (nonempty : ∀ piece ∈ pieces, piece ≠ []) :
    pieces.length ≤ pieces.flatten.length := by
  induction pieces with
  | nil => exact Nat.zero_le _
  | cons piece rest induction =>
      have here :=
        List.length_pos_of_ne_nil (nonempty piece List.mem_cons_self)
      have there :=
        induction fun other member =>
          nonempty other (List.mem_cons_of_mem _ member)
      rw [List.length_cons, List.flatten_cons, List.length_append]
      omega

/-- However its calls end, a conversion makes a bounded number of them. -/
theorem length_le_of_run
    {target : Converter.Target} {method : Alg} {srcfd h5fd : Int}
    (unconverted : Unconverted sys.fs target src content)
    {choices : List Choice} {final : Sys × Convert}
    (ran :
      Transition.run (soloStep platform)
          (sys, convert2h5 target method srcfd h5fd) choices =
        some final) :
    choices.length ≤ 3 * content.length + 12 := by
  have start :
      ∃ pieces,
        Undisturbed platform content sys
            (convert2h5 target method srcfd h5fd) src pieces ∧
          (∀ piece ∈ pieces, piece ≠ []) ∧
            0 = 3 * pieces.length +
              rank (convert2h5 target method srcfd h5fd).pc :=
    ⟨[], undisturbed_initial unconverted method srcfd h5fd, by simp, rfl⟩
  apply
    Transition.length_le_of_climbs
      (fun state height =>
        ∃ pieces,
          Undisturbed platform content state.1 state.2 src pieces ∧
            (∀ piece ∈ pieces, piece ≠ []) ∧
              height = 3 * pieces.length + rank state.2.pc)
      _ _ start ran
  · rintro state choice next height
      ⟨pieces, undisturbed, nonempty, rfl⟩ stepped
    rcases moves_of_step stepped with ⟨read, moves⟩
    have further := rank_of_moves moves
    refine
      ⟨3 * (pieces ++ read).length + rank next.2.pc, ?_, pieces ++ read,
        undisturbed.step moves, ?_, rfl⟩
    · rw [List.length_append]
      omega
    · intro piece member
      rcases List.mem_append.mp member with earlier | now
      · exact nonempty piece earlier
      · exact nonempty_of_moves moves piece now
  · rintro state height ⟨pieces, undisturbed, nonempty, rfl⟩
    have few := length_le_flatten nonempty
    have short := undisturbed.copy.isPrefix.length_le
    have place := rank_le state.2.pc
    omega

/-- A converter that has not returned can make its next call. -/
theorem soloStep_of_not_returned
    (sys : Sys) (c : Convert) (unfinished : c.pc ≠ .returned) :
    ∃ choice next, soloStep platform (sys, c) choice = some next := by
  have continues :
      ∀ op next, c.action platform.libs = .call op next →
        ∃ choice later, soloStep platform (sys, c) choice = some later := by
    intro op next action
    rcases answered_of_fail platform sys op with ⟨reply, later, answered⟩
    exact
      ⟨.fail .EACCES, (later, next reply),
        advance_eq_some.mpr ⟨op, next, reply, action, answered, rfl⟩⟩
  cases place : c.pc with
  | returned => exact (unfinished place).elim
  | _ => exact continues _ _ (by rw [Convert.action, place])

/-! ## A conversion in which no call fails -/

/--
The reply reports a failure.  That `stat` finds no file is an answer, and the
results of `close` and `H5Fclose` are not looked at.
-/
def failed : (op : Op) → Reply op → Bool
  | .stat _, .error errno => errno ≠ .ENOENT
  | .openFile _ _, .error _ => true
  | .read _ _, .error _ => true
  | .truncate _ _, .error _ => true
  | .rename _ _, .error _ => true
  | .h5fcreate _, none => true
  | .h5dwrite _ _ _, false => true
  | .compress _ _, none => true
  | _, _ => false

/-- The call does not fail. -/
def Smooth
    (platform : Platform) (state : Sys × Convert) (choice : Choice) : Prop :=
  ∀ op next reply later,
    state.2.action platform.libs = .call op next →
      kernel platform state.1 choice op = some (reply, later) →
        failed op reply = false

/-- Why a converter is on its way out although no call has failed. -/
inductive Exit
    (platform : Platform) (sys : Sys) (c c' : Convert) : Prop where
  | before (exiting : c.pc.exiting = true) (same : c'.ret = c.ret)
  | converted (zero : c'.ret = 0)
  | image (place : c.pc = .statImage)
      (found : sys.fs.entry c.target.h5name ≠ none)
  | temp (place : c.pc = .statTemp)
      (found : sys.fs.entry c.target.temp ≠ none)
  | unknown (place : c.pc = .createTemp)
      (headless : version platform.libs c.method = none)
  | lost (missing : sys.fs.entry c.target.path = none)

/-- There is no other way out. -/
theorem exit_of_smooth
    (smooth : Smooth platform (sys, c) choice)
    (stepped : soloStep platform (sys, c) choice = some (sys', c'))
    (exiting : c'.pc.exiting = true) :
    Exit platform sys c c' := by
  rcases advance_eq_some.mp stepped with
    ⟨op, next, reply, action, called, rfl⟩
  have succeeds := smooth op next reply sys' action called
  unfold Convert.action at action
  cases place : c.pc with
  | statImage =>
      rw [place] at action
      cases action
      cases reply with
      | ok stbuf =>
          rcases (Sys.stat_eq_some called).2 stbuf rfl with ⟨ino, found, _⟩
          exact .image place (ne_of_eq_of_ne found (Option.some_ne_none ino))
      | error errno => cases exiting
  | statTemp =>
      rw [place] at action
      cases action
      cases reply with
      | ok stbuf =>
          rcases (Sys.stat_eq_some called).2 stbuf rfl with ⟨ino, found, _⟩
          exact .temp place (ne_of_eq_of_ne found (Option.some_ne_none ino))
      | error errno => cases exiting
  | openSource =>
      rw [place] at action
      cases action
      cases reply with
      | ok fd => cases exiting
      | error errno => cases succeeds
  | createTemp =>
      rw [place] at action
      cases action
      cases reply with
      | none => cases succeeds
      | some h5fd =>
          cases text : version platform.libs c.method with
          | none => exact .unknown place text
          | some bytes =>
              simp only [text] at exiting
              cases exiting
  | writeHeader text =>
      rw [place] at action
      cases action
      cases reply with
      | false => cases succeeds
      | true => cases exiting
  | readBlock =>
      rw [place] at action
      cases action
      cases reply with
      | error errno => cases succeeds
      | ok data => cases data <;> cases exiting
  | compressBlock buffer =>
      rw [place] at action
      cases action
      cases reply with
      | none => cases succeeds
      | some dstdata => cases exiting
  | writeBlock buffer dstdata =>
      rw [place] at action
      cases action
      cases reply with
      | false => cases succeeds
      | true => cases exiting
  | renameTemp =>
      rw [place] at action
      cases action
      cases reply with
      | error errno => cases succeeds
      | ok done => cases exiting
  | statSource =>
      rw [place] at action
      cases action
      cases reply with
      | ok stbuf => cases exiting
      | error errno =>
          have missing : errno = .ENOENT := by
            simpa [failed] using succeeds
          subst missing
          exact .lost (Sys.entry_of_stat_ENOENT called)
  | truncateZero =>
      rw [place] at action
      cases action
      cases reply with
      | error errno => cases succeeds
      | ok done => cases exiting
  | truncateSize =>
      rw [place] at action
      cases action
      cases reply with
      | error errno => cases succeeds
      | ok done => exact .converted (Convert.ret_out c 0)
  | closeSource =>
      rw [place] at action
      cases action
      exact .before (by rw [place]; rfl) (Convert.ret_outImage c)
  | closeImage =>
      rw [place] at action
      cases action
      exact .before (by rw [place]; rfl) rfl
  | returned =>
      rw [place] at action
      cases action

/-- Only the first check leads to the second one, and it changes nothing. -/
theorem checks_of_moves
    (moves : Moves platform sys c choice read sys' c')
    (checking : c'.pc = .statImage ∨ c'.pc = .statTemp) :
    c.pc = .statImage ∧ c'.pc = .statTemp ∧ sys' = sys := by
  have staying : c'.pc.exiting = true → False := by
    intro exiting
    rcases checking with place | place <;>
      rw [place] at exiting <;> cases exiting
  cases moves with
  | looks next places =>
      rcases places with ⟨place, rfl⟩ | ⟨place, rfl⟩
      · exact ⟨place, rfl, rfl⟩
      · simp at checking
  | fails earlier inside target method =>
      exact (staying (Convert.exiting_out _ _)).elim
  | creates number ino fs next place granted positive free created continues =>
      rcases continues with ⟨text, header, rfl⟩ | rfl
      · simp at checking
      · exact (staying (Convert.exiting_out _ _)).elim
  | regrows ino place found => exact (staying (Convert.exiting_out _ _)).elim
  | closesSource place => exact (staying (Convert.exiting_outImage _)).elim
  | _ => simp at checking

/-- What holds along a conversion in which no call fails. -/
structure Retrying
    (platform : Platform) (target : Converter.Target) (src : Ino)
    (sys : Sys) (c : Convert) : Prop where
  about : c.target = target
  source : sys.fs.entry target.path = some src
  known : version platform.libs c.method ≠ none
  noImage : c.pc = .statImage → sys.fs.entry target.h5name = none
  noTemp :
    c.pc = .statImage ∨ c.pc = .statTemp → sys.fs.entry target.temp = none
  zero : c.pc.exiting = true → c.ret = 0

theorem Retrying.step
    {target : Converter.Target} {state next : Sys × Convert}
    (retrying : Retrying platform target src state.1 state.2)
    (smooth : Smooth platform state choice)
    (stepped : soloStep platform state choice = some next) :
    Retrying platform target src next.1 next.2 := by
  rcases moves_of_step stepped with ⟨read, moves⟩
  rcases Moves.source moves with ⟨sameTarget, sameMethod, sameEntry⟩
  have goal := retrying.about
  constructor
  · rw [sameTarget, goal]
  · rw [goal] at sameEntry
    rw [sameEntry, retrying.source]
  · rw [sameMethod]
    exact retrying.known
  · intro place
    rcases checks_of_moves moves (Or.inl place) with ⟨_, other, _⟩
    rw [place] at other
    cases other
  · intro checking
    rcases checks_of_moves moves checking with ⟨before, _, same⟩
    rw [same]
    exact retrying.noTemp (Or.inl before)
  · intro exiting
    have exit := exit_of_smooth smooth stepped exiting
    cases exit with
    | before leaving same => rw [same, retrying.zero leaving]
    | converted zero => exact zero
    | image place found =>
        rw [goal] at found
        exact (found (retrying.noImage place)).elim
    | temp place found =>
        rw [goal] at found
        exact (found (retrying.noTemp (Or.inr place))).elim
    | unknown place headless => exact (retrying.known headless).elim
    | lost missing =>
        rw [goal, retrying.source] at missing
        cases missing

/-! ## After a failure -/

/--
The source holds the content, there is no temporary file, and a conversion in
which no call fails comes to its end and returns 0.
-/
structure Retryable
    (platform : Platform) (target : Converter.Target) (content : Bytes)
    (fs : FileSystem) : Prop where
  source : fs.lookup target.path = some (.file content)
  noTemp : fs.entry target.temp = none
  retry :
    ∀ (sys : Sys) (method : Alg) (srcfd h5fd : Int) (choices : List Choice)
      (later : Sys × Convert),
      sys.fs = fs → version platform.libs method ≠ none →
        Transition.Along (soloStep platform) (Smooth platform)
            (sys, convert2h5 target method srcfd h5fd) choices →
          Transition.run (soloStep platform)
              (sys, convert2h5 target method srcfd h5fd) choices =
            some later →
            choices.length ≤ 3 * content.length + 12 ∧
              (Succeeded later.2 ∨
                ∃ choice next, soloStep platform later choice = some next)

/-- With both names free the conversion can be tried again. -/
theorem retryable_of_free
    {target : Converter.Target} {fs : FileSystem}
    (source : fs.entry target.path = some src)
    (node : fs.node src = .file content)
    (noImage : fs.entry target.h5name = none)
    (noTemp : fs.entry target.temp = none) :
    Retryable platform target content fs := by
  constructor
  · rw [FileSystem.lookup, source, Option.map_some, node]
  · exact noTemp
  · rintro sys method srcfd h5fd choices later rfl known smooth ran
    have unconverted : Unconverted sys.fs target src content :=
      { source := source
        node := node
        apart := by simp [noTemp] }
    refine ⟨length_le_of_run unconverted ran, ?_⟩
    have start :
        Retrying platform target src sys
          (convert2h5 target method srcfd h5fd) :=
      { about := rfl
        source := source
        known := known
        noImage := fun _ => noImage
        noTemp := fun _ => noTemp
        zero := by
          intro exiting
          cases exiting }
    have reached : Retrying platform target src later.1 later.2 :=
      Transition.run_invariant_along
        (fun state => Retrying platform target src state.1 state.2)
        (fun state choice next retrying calm stepped =>
          retrying.step calm stepped)
        start smooth ran
    by_cases returned : later.2.pc = .returned
    · exact Or.inl ⟨returned, reached.zero (by rw [returned]; rfl)⟩
    · exact Or.inr (soloStep_of_not_returned later.1 later.2 returned)

/-- `H5Fcreate` does not succeed. -/
def CreateFails (state : Sys × Convert) (choice : Choice) : Prop :=
  state.2.pc = .createTemp → choice.fails = true

/-- The converter has no temporary file and has published no image. -/
def aside (pc : Pc) : Prop :=
  pc.building = false ∧ pc.publishing = false

theorem aside_of_exiting {pc : Pc} (exiting : pc.exiting = true) :
    aside pc := by
  cases pc <;> simp_all [aside, Pc.exiting, Pc.building, Pc.publishing]

/-- Without a temporary file no name changes. -/
theorem entry_of_aside
    (moves : Moves platform sys c choice read sys' c')
    (before : aside c.pc)
    (fails : c.pc = .createTemp → choice.fails = true) :
    aside c'.pc ∧ sys'.fs.entry = sys.fs.entry := by
  have elsewhere : c.pc.building = true ∨ c.pc.publishing = true → False := by
    rintro (building | publishing)
    · rw [before.1] at building
      cases building
    · rw [before.2] at publishing
      cases publishing
  cases moves with
  | looks next places =>
      rcases places with ⟨_, rfl⟩ | ⟨_, rfl⟩ <;> exact ⟨⟨rfl, rfl⟩, rfl⟩
  | fails earlier inside target method =>
      exact ⟨aside_of_exiting (Convert.exiting_out _ _), rfl⟩
  | opens number ino place free found => exact ⟨⟨rfl, rfl⟩, rfl⟩
  | creates number ino fs next place granted positive free created continues =>
      rw [fails place] at granted
      cases granted
  | writesHeader text handle image place held stored =>
      exact (elsewhere (Or.inl (by rw [place]; rfl))).elim
  | reads buffer limit file place limited nonempty held data =>
      exact (elsewhere (Or.inl (by rw [place]; rfl))).elim
  | meetsEnd file place held ended =>
      exact (elsewhere (Or.inl (by rw [place]; rfl))).elim
  | compresses buffer dstdata place compressed =>
      exact (elsewhere (Or.inl (by rw [place]; rfl))).elim
  | writesBlock buffer dstdata handle image place held stored absent =>
      exact (elsewhere (Or.inl (by rw [place]; rfl))).elim
  | publishes ino place found =>
      exact (elsewhere (Or.inl (by rw [place]; rfl))).elim
  | sizes ino place found =>
      exact (elsewhere (Or.inr (by rw [place]; rfl))).elim
  | empties ino place granted found =>
      exact (elsewhere (Or.inr (by rw [place]; rfl))).elim
  | regrows ino place found =>
      exact (elsewhere (Or.inr (by rw [place]; rfl))).elim
  | closesSource place =>
      exact ⟨aside_of_exiting (Convert.exiting_outImage _), rfl⟩
  | closesImage handle place held =>
      refine ⟨⟨rfl, rfl⟩, ?_⟩
      simp only [Sys.released]
      split <;> rfl
  | closesNothing place lost => exact ⟨⟨rfl, rfl⟩, rfl⟩

/-- The conversion has created nothing. -/
structure Clean
    (platform : Platform) (target : Converter.Target) (content : Bytes)
    (src : Ino) (state : Sys × Convert) : Prop where
  undisturbed :
    ∃ pieces, Undisturbed platform content state.1 state.2 src pieces
  about : state.2.target = target
  node : state.1.fs.node src = .file content
  noImage : state.1.fs.entry target.h5name = none
  noTemp : state.1.fs.entry target.temp = none
  aside : aside state.2.pc

/-- The name of the temporary file or that of the image is taken. -/
structure Occupied
    (target : Converter.Target) (state : Sys × Convert) : Prop where
  about : state.2.target = target
  taken :
    state.1.fs.entry target.temp ≠ none ∨
      state.1.fs.entry target.h5name ≠ none

theorem Clean.step
    {target : Converter.Target} (state : Sys × Convert) (choice : Choice)
    (next : Sys × Convert)
    (clean : Clean platform target content src state)
    (fails : CreateFails state choice)
    (stepped : soloStep platform state choice = some next) :
    Clean platform target content src next := by
  rcases next with ⟨sys', c'⟩
  rcases clean.undisturbed with ⟨pieces, undisturbed⟩
  rcases moves_of_step stepped with ⟨read, moves⟩
  rcases entry_of_aside moves clean.aside fails with ⟨aside', same⟩
  constructor
  · exact ⟨pieces ++ read, undisturbed.step moves⟩
  · rw [(Moves.source moves).1, clean.about]
  · rcases undisturbed.stage.source undisturbed.source clean.node moves with
      ⟨content', node', change⟩
    have outside := clean.aside.2
    cases change with
    | same unsuccessful => exact node'
    | emptied place granted =>
        rw [place] at outside
        cases outside
    | regrown place =>
        rw [place] at outside
        cases outside
  · rw [same]
    exact clean.noImage
  · rw [same]
    exact clean.noTemp
  · exact aside'

/-- `H5Fcreate` of a free name takes it. -/
theorem taken_of_granted
    (place : c.pc = .createTemp) (granted : choice.fails = false)
    (absent : sys.fs.entry c.target.temp = none)
    (stepped : soloStep platform (sys, c) choice = some (sys', c')) :
    sys'.fs.entry c.target.temp ≠ none := by
  rcases advance_eq_some.mp stepped with
    ⟨op, next, reply, action, called, rfl⟩
  unfold Convert.action at action
  rw [place] at action
  cases action
  cases choice with
  | fail errno => cases granted
  | ok number =>
      change sys.h5fcreate (.ok number) c.target.temp = some (reply, sys')
        at called
      simp only [Sys.h5fcreate, absent, Sys.installHandle] at called
      split at called
      · cases called
      · cases called
        simp

/-- A name that is taken is not freed, except for that of the image. -/
theorem Occupied.step
    {target : Converter.Target} (state : Sys × Convert) (choice : Choice)
    (next : Sys × Convert)
    (occupied : Occupied target state)
    (stepped : soloStep platform state choice = some next) :
    Occupied target next := by
  rcases next with ⟨sys', c'⟩
  rcases moves_of_step stepped with ⟨read, moves⟩
  have about : c'.target = target := by
    rw [(Moves.source moves).1, occupied.about]
  refine ⟨about, ?_⟩
  have taken := occupied.taken
  rw [← occupied.about] at taken ⊢
  cases moves with
  | creates number ino fs next place granted positive free created continues =>
      cases created with
      | fresh absent =>
          left
          simp
      | emptied ino found unlocked => exact taken
  | publishes ino place found =>
      right
      simp [found]
  | closesImage handle place held =>
      simp only [Sys.released]
      split <;> exact taken
  | _ => exact taken

/-- A name that is taken has a `stat`. -/
theorem stat_of_taken
    (platform : Platform) {path : Names.CString}
    (taken : sys.fs.entry path ≠ none) (number : Nat) :
    ∃ stbuf, sys.stat platform (.ok number) path = some (.ok stbuf, sys) := by
  rcases Option.ne_none_iff_exists'.mp taken with ⟨ino, found⟩
  simp only [Sys.stat, FileSystem.lookup, found, Option.map_some]
  cases sys.fs.node ino with
  | directory => exact ⟨_, rfl⟩
  | file content => exact ⟨_, rfl⟩
  | image stored => exact ⟨_, rfl⟩

/-- Where there is an image, a conversion is refused without a failing call. -/
theorem not_retryable_of_image
    {target : Converter.Target} (image : sys.fs.entry target.h5name ≠ none) :
    ¬ Retryable platform target content sys.fs := by
  intro retryable
  rcases stat_of_taken platform image 0 with ⟨stbuf, answered⟩
  have stepped :
      soloStep platform (sys, convert2h5 target .DZ_ALG_ZSTD 0 0) (.ok 0) =
        some (sys, (convert2h5 target .DZ_ALG_ZSTD 0 0).out (-1)) := by
    simp only [soloStep, Convert.step, advance, Convert.action, convert2h5,
      kernel, answered, Option.map_some]
  have smooth :
      Smooth platform (sys, convert2h5 target .DZ_ALG_ZSTD 0 0) (.ok 0) := by
    intro op next reply later action called
    cases action
    change sys.stat platform (.ok 0) target.h5name = some (reply, later)
      at called
    rw [answered] at called
    cases called
    rfl
  rcases
    retryable.retry sys .DZ_ALG_ZSTD 0 0 [.ok 0] _ rfl (by simp [version])
      (Transition.along_cons_of_step smooth stepped trivial)
      (Transition.run_cons_eq_some.mpr ⟨_, stepped, rfl⟩) with
    ⟨_, succeeded | ⟨choice, next, continues⟩⟩
  · cases succeeded.2
  · cases continues

/--
After any run of a conversion that found both names free, and so after one
that returned -1: it can be tried again if and only if `H5Fcreate` has not
succeeded.
-/
theorem retryable_iff_createFails
    {target : Converter.Target} {method : Alg} {srcfd h5fd : Int}
    (source : sys.fs.lookup target.path = some (.file content))
    (noImage : sys.fs.entry target.h5name = none)
    (noTemp : sys.fs.entry target.temp = none)
    {choices : List Choice} {final : Sys × Convert}
    (ran :
      Transition.run (soloStep platform)
          (sys, convert2h5 target method srcfd h5fd) choices =
        some final) :
    Retryable platform target content final.1.fs ↔
      Transition.Along (soloStep platform) CreateFails
        (sys, convert2h5 target method srcfd h5fd) choices := by
  rcases Option.map_eq_some_iff.mp source with ⟨src, found, node⟩
  have start :
      Clean platform target content src
        (sys, convert2h5 target method srcfd h5fd) :=
    { undisturbed :=
        ⟨[],
          undisturbed_initial
            { source := found
              node := node
              apart := by simp [noTemp] }
            method srcfd h5fd⟩
      about := rfl
      node := node
      noImage := noImage
      noTemp := noTemp
      aside := ⟨rfl, rfl⟩ }
  have entered :
      ∀ state choice next,
        Clean platform target content src state →
          ¬ CreateFails state choice →
            soloStep platform state choice = some next →
              Occupied target next := by
    intro state choice next clean succeeds stepped
    simp only [CreateFails, Classical.not_imp, Bool.not_eq_true] at succeeds
    rcases succeeds with ⟨place, granted⟩
    rcases moves_of_step stepped with ⟨read, moves⟩
    have absent : state.1.fs.entry state.2.target.temp = none := by
      rw [clean.about]
      exact clean.noTemp
    have taken := taken_of_granted place granted absent stepped
    rw [clean.about] at taken
    exact ⟨(Moves.source moves).1.trans clean.about, Or.inl taken⟩
  rcases Transition.run_exact Clean.step entered Occupied.step start ran with
    ⟨along, clean⟩ | ⟨created, occupied⟩
  · rcases clean.undisturbed with ⟨pieces, undisturbed⟩
    have source' := undisturbed.source
    rw [clean.about] at source'
    exact
      iff_of_true
        (retryable_of_free source' clean.node clean.noImage clean.noTemp)
        along
  · apply iff_of_false _ created
    intro retryable
    rcases occupied.taken with temp | image
    · exact temp retryable.noTemp
    · exact not_retryable_of_image image retryable

/-- The source cannot be opened. -/
theorem retryable_iff_createFails_notOpened :
    ∃ final,
      Transition.run (soloStep storingPlatform)
          (storeF [7], convert2h5 targetF .DZ_ALG_ZSTD 0 0)
          [.ok 0, .ok 0, .fail .EACCES] =
        some final ∧
        final.2.pc = .returned ∧ final.2.ret = -1 ∧
          (Retryable storingPlatform targetF [7] final.1.fs ↔
            Transition.Along (soloStep storingPlatform) CreateFails
              (storeF [7], convert2h5 targetF .DZ_ALG_ZSTD 0 0)
              [.ok 0, .ok 0, .fail .EACCES]) :=
  ⟨_, rfl, rfl, rfl,
    retryable_iff_createFails rfl (by decide) (by decide) rfl⟩

/-- A `read` that fails leaves the temporary file. -/
theorem failed_read_leaves_temp :
    ¬ ∀ (platform : Platform) (target : Converter.Target) (method : Alg)
        (srcfd h5fd : Int) (sys : Sys) (content : Bytes)
        (choices : List Choice) (final : Sys × Convert),
        sys.fs.lookup target.path = some (.file content) →
          sys.fs.entry target.h5name = none →
            sys.fs.entry target.temp = none →
              Transition.run (soloStep platform)
                  (sys, convert2h5 target method srcfd h5fd) choices =
                some final →
                final.2.pc = .returned → final.2.ret = -1 →
                  Retryable platform target content final.1.fs := by
  intro claimed
  have facts :
      (Transition.run (soloStep storingPlatform)
          (storeF [7], convert2h5 targetF .DZ_ALG_ZSTD 0 0)
          [.ok 1, .ok 1, .ok 1, .ok 1, .ok 1, .fail Errno.EIO, .ok 1,
            .ok 1]).map
        (fun final =>
          (final.2.pc, final.2.ret, final.1.fs.entry targetF.temp)) =
        some (.returned, -1, some 1) := by
    decide +kernel
  rcases Option.map_eq_some_iff.mp facts with ⟨final, ran, observed⟩
  simp only [Prod.mk.injEq] at observed
  rcases observed with ⟨place, failed, taken⟩
  have retryable :=
    claimed _ _ _ _ _ _ _ _ _ rfl (by decide) (by decide) ran place failed
  have free := retryable.noTemp
  rw [taken] at free
  cases free

end DZFile.Retry
