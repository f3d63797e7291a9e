import DZFile.Staging
import DZFile.Library.Transition

/-!
# Crashes during a conversion

A converter runs alone and may stop after any step; a close of the image may
fail.  A state is safe if a complete copy of the content would survive a crash
in it, where an HDF5 file survives only once `H5Fclose` has succeeded on it.

The source is truncated before the image is closed, so exactly the runs that
never truncate a source with content, and never lose the close of a successful
conversion, are safe in all their states.
-/

namespace DZFile.Crash

open DZFile.ByteSeq
open DZFile.Codec
open DZFile.Image
open DZFile.Kernel
open DZFile.Converter
open DZFile.Staging

/-! ## Safe states -/

/-- The image is closed and decodes to the content. -/
def ImageSurvives
    (platform : Platform) (content : Bytes) (sys : Sys) (c : Convert) : Prop :=
  ∃ image,
    sys.fs.lookup c.target.h5name = some (.image image) ∧
      image.closed = true ∧
        image.decode platform.libs c.method = some content

/-- The hidden image has been closed successfully. -/
def ImageClosed (sys : Sys) (c : Convert) : Prop :=
  ∃ image,
    sys.fs.lookup c.target.h5name = some (.image image) ∧
      image.closed = true

/--
A complete copy of the content survives a crash, and a return value of 0 means
that the image is closed.
-/
structure Safe
    (platform : Platform) (content : Bytes) (state : Sys × Convert) :
    Prop where
  survives :
    state.1.fs.lookup state.2.target.path = some (.file content) ∨
      ImageSurvives platform content state.1 state.2
  closed : Succeeded state.2 → ImageClosed state.1 state.2

/--
The step does not cut a source with content, and does not lose the close that
a successful conversion ends with.
-/
structure Harmless
    (content : Bytes) (state : Sys × Convert) (choice : Choice) : Prop where
  keepsSource :
    state.2.pc = .truncateZero → choice.fails = true ∨ content = []
  closes :
    state.2.pc = .closeImage → state.2.ret = 0 → choice.fails = false

/-! ## The handle of the image -/

/-- The image of that name is open for writing and not yet closed. -/
def Open (sys : Sys) (h5fd : Int) (name : Names.CString) : Prop :=
  ∃ ino image,
    sys.fs.entry name = some ino ∧ sys.fs.node ino = .image image ∧
      sys.proc.handles h5fd = some ⟨ino, true⟩ ∧ 0 < h5fd ∧
        image.closed = false

/-- Until the last step the image is open, under the name it has reached. -/
def Held (sys : Sys) (c : Convert) : Prop :=
  match c.pc with
  | .statImage | .statTemp | .openSource | .createTemp => True
  | .writeHeader _ | .readBlock | .compressBlock _ | .writeBlock _ _
  | .renameTemp => Open sys c.h5fd c.target.temp
  | .statSource | .truncateZero | .truncateSize =>
      Open sys c.h5fd c.target.h5name
  | .closeSource | .closeImage => c.ret = 0 → Open sys c.h5fd c.target.h5name
  | .returned => c.ret = 0 → ImageClosed sys c

variable
    {platform : Platform} {sys sys' : Sys} {c c' : Convert} {src : Ino}
    {choice : Choice} {pieces read : List Bytes} {content : Bytes}

theorem held_out_failed (earlier : Convert) :
    Held sys (earlier.out (-1)) := by
  have exiting := Convert.exiting_out earlier (-1)
  have ret := Convert.ret_out earlier (-1)
  have notZero : (earlier.out (-1)).ret ≠ 0 := by
    rw [ret]
    decide
  unfold Held
  cases place : (earlier.out (-1)).pc <;> first
    | exact fun zero => (notZero zero).elim
    | (rw [place] at exiting; cases exiting)

/-- An open image is still open on the way to its close. -/
theorem held_outImage
    (opened : c.ret = 0 → Open sys c.h5fd c.target.h5name) :
    Held sys c.outImage := by
  unfold Convert.outImage
  split
  · exact opened
  · rename_i notPositive
    intro zero
    rcases opened zero with ⟨ino, image, _, _, _, positive, _⟩
    exact (notPositive positive).elim

theorem held_out_zero
    (opened : Open sys c.h5fd c.target.h5name) : Held sys (c.out 0) := by
  unfold Convert.out
  split
  · exact fun _ => opened
  · exact held_outImage fun _ => opened

/-- A dataset is added to the open image. -/
theorem Open.addDataset
    {name : Names.CString} (opened : Open sys c.h5fd name)
    {handle : H5Handle} {image : H5Image} (dataset : Dataset) (data : Bytes)
    (held : sys.proc.handles c.h5fd = some handle)
    (stored : sys.fs.node handle.ino = .image image) :
    Open
      { sys with
        fs :=
          sys.fs.put handle.ino (.image (image.addDataset dataset data)) }
      c.h5fd name := by
  rcases opened with ⟨ino, mine, named, node, writing, positive, notClosed⟩
  rw [held] at writing
  cases writing
  rw [node] at stored
  cases stored
  exact
    ⟨ino, image.addDataset dataset data, named, by simp, held, positive,
      notClosed⟩

/-- The source is not the open image, so truncating it leaves the image. -/
theorem Open.resize
    (opened : Open sys c.h5fd c.target.h5name)
    (published : Published platform sys c src pieces) (length : Nat) :
    Open { sys with fs := sys.resizeNode platform src length }
      c.h5fd c.target.h5name := by
  rcases opened with ⟨ino, image, named, node, writing, positive, notClosed⟩
  rcases published with ⟨other, _, sameName, _, different, _⟩
  rw [named] at sameName
  cases sameName
  refine ⟨ino, image, named, ?_, writing, positive, notClosed⟩
  simp only [Sys.resizeNode]
  rw [node_put_of_ne different]
  exact node

/-- The handle stays open until the close, which succeeds. -/
theorem Held.step
    (held : Held sys c)
    (stage : Stage platform sys c src pieces)
    (source : sys.fs.entry c.target.path = some src)
    (closes : c.pc = .closeImage → c.ret = 0 → choice.fails = false)
    (moves : Moves platform sys c choice read sys' c') :
    Held sys' c' := by
  cases moves with
  | looks next places =>
      rcases places with ⟨_, rfl⟩ | ⟨_, rfl⟩ <;> trivial
  | fails earlier inside target method => exact held_out_failed earlier
  | opens number ino place free found => trivial
  | creates number ino fs next place granted positive free created continues =>
      rcases continues with ⟨text, header, rfl⟩ | rfl
      · rcases created_owns created with ⟨named, node⟩
        exact
          ⟨ino, .created, named, node, by simp [Process.setHandle],
            by simpa using positive, rfl⟩
      · exact held_out_failed _
  | writesHeader text handle image place opened stored =>
      simp only [Held, place] at held
      exact held.addDataset .algorithm text opened stored
  | reads buffer limit file place limited nonempty opened data =>
      simp only [Held, place] at held
      exact held
  | meetsEnd file place opened ended =>
      simp only [Held, place] at held
      exact held
  | compresses buffer dstdata place compressed =>
      simp only [Held, place] at held
      exact held
  | writesBlock buffer dstdata handle image place opened stored absent =>
      simp only [Held, place] at held
      exact held.addDataset _ dstdata opened stored
  | publishes ino place found =>
      simp only [Held, place] at held
      rcases held with ⟨mine, image, named, node, writing, positive, notClosed⟩
      exact
        ⟨mine, image, by simp [named], node, writing, positive, notClosed⟩
  | sizes ino place found =>
      simp only [Held, place] at held
      exact held
  | empties ino place granted found =>
      simp only [Held, place] at held
      simp only [Stage, place] at stage
      rw [source] at found
      cases found
      exact held.resize stage 0
  | regrows ino place found =>
      simp only [Held, place] at held
      simp only [Stage, place] at stage
      rw [source] at found
      cases found
      exact held_out_zero (held.resize stage c.stSize)
  | closesSource place =>
      simp only [Held, place] at held
      exact held_outImage held
  | closesImage handle place opened =>
      simp only [Held, place] at held
      intro zero
      rcases held zero with ⟨ino, image, named, node, writing, _, _⟩
      rw [opened] at writing
      cases writing
      refine
        ⟨{ image with writer := false, closed := true }, ?_, rfl⟩
      simp [FileSystem.lookup, Sys.released, node, named, closes place zero]
  | closesNothing place lost =>
      simp only [Held, place] at held
      intro zero
      rcases held zero with ⟨ino, image, _, _, writing, _, _⟩
      rw [lost] at writing
      cases writing

/-! ## Runs -/

/-- What holds as long as every step is harmless. -/
structure Sheltered
    (platform : Platform) (content : Bytes) (sys : Sys) (c : Convert)
    (src : Ino) (pieces : List Bytes) : Prop where
  source : sys.fs.entry c.target.path = some src
  node : sys.fs.node src = .file content
  stage : Stage platform sys c src pieces
  copy : CopyOf content c pieces
  held : Held sys c
  sized :
    c.pc = .truncateZero ∨ c.pc = .truncateSize → c.stSize = content.length

/-- The content is still where it was. -/
theorem Sheltered.safe
    (sheltered : Sheltered platform content sys c src pieces) :
    Safe platform content (sys, c) where
  survives := by
    refine Or.inl ?_
    rw [FileSystem.lookup, sheltered.source, Option.map_some, sheltered.node]
  closed := by
    rintro ⟨place, zero⟩
    change c.pc = .returned at place
    have held := sheltered.held
    simp only [Held, place] at held
    exact held zero

/-- Cutting a content to its own length keeps it. -/
theorem resize_self (content : Bytes) :
    resize 0 content content.length = content := by
  simp [resize]

/-- A harmless step keeps the source and the open image. -/
theorem Sheltered.step
    (sheltered : Sheltered platform content sys c src pieces)
    (harmless : Harmless content (sys, c) choice)
    (stepped : c.step platform sys choice = some (sys', c')) :
    ∃ read, Sheltered platform content sys' c' src (pieces ++ read) := by
  rcases moves_of_step stepped with ⟨read, moves⟩
  rcases Moves.source moves with ⟨target, _, sameEntry⟩
  refine ⟨read, ?_⟩
  exact
    { source := by rw [target, sameEntry, sheltered.source]
      node := by
        rcases sheltered.stage.source sheltered.source sheltered.node moves with
          ⟨content', node, change⟩
        rw [node]
        cases change with
        | same unsuccessful => rfl
        | emptied place granted =>
            rcases harmless.keepsSource place with failed | empty
            · rw [granted] at failed
              cases failed
            · rw [empty]
        | regrown place =>
            rw [sheltered.sized (Or.inr place), resize_self]
      stage := sheltered.stage.step sheltered.source moves
      copy :=
        sheltered.copy.step sheltered.stage
          (by rw [sheltered.node]; rfl) (fun _ => rfl) moves
      held :=
        sheltered.held.step sheltered.stage sheltered.source harmless.closes
          moves
      sized := by
        apply stSize_of_moves sheltered.source _ sheltered.sized moves
        intro _
        rw [sheltered.node, Node.bytes] }

/-- Emptying the source while the image is open leaves no copy. -/
theorem unsafe_of_emptied
    (sheltered : Sheltered platform content sys c src pieces)
    (place : c.pc = .truncateZero) (granted : choice.fails = false)
    (nonempty : content ≠ [])
    (stepped : c.step platform sys choice = some (sys', c')) :
    ¬ Safe platform content (sys', c') := by
  have held := sheltered.held
  have published := sheltered.stage
  simp only [Held, place] at held
  simp only [Stage, place] at published
  have opened := held.resize published 0
  rcases Interaction.advance_eq_some.mp stepped with
    ⟨op, next, reply, action, called, rfl⟩
  unfold Convert.action at action
  rw [place] at action
  cases action
  cases choice with
  | fail errno => cases granted
  | ok number =>
      simp only [kernel, Sys.truncate, sheltered.source, sheltered.node,
        Int.lt_irrefl, if_false, Int.toNat_zero, Option.some.injEq,
        Prod.mk.injEq] at called
      rcases called with ⟨rfl, rfl⟩
      rintro ⟨kept | ⟨image, found, closed, _⟩, _⟩
      · have emptied :
            ({ sys with fs := sys.resizeNode platform src 0 } : Sys).fs.lookup
                c.target.path =
              some (.file []) := by
          simp [FileSystem.lookup, Sys.resizeNode, sheltered.source]
        rw [show
          ({ c with pc := Pc.truncateSize } : Convert).target.path =
            c.target.path from rfl] at kept
        rw [emptied] at kept
        cases kept
        exact nonempty rfl
      · rcases opened with ⟨ino, mine, named, node, _, _, notClosed⟩
        have here :
            ({ sys with fs := sys.resizeNode platform src 0 } : Sys).fs.lookup
                c.target.h5name =
              some (.image mine) := by
          rw [FileSystem.lookup, named, Option.map_some, node]
        have same := here.symm.trans found
        cases same
        rw [notClosed] at closed
        cases closed

/-- A successful conversion whose close fails leaves an unreadable image. -/
theorem unsafe_of_lost_close
    (sheltered : Sheltered platform content sys c src pieces)
    (place : c.pc = .closeImage) (zero : c.ret = 0)
    (failed : choice.fails = true)
    (stepped : c.step platform sys choice = some (sys', c')) :
    ¬ Safe platform content (sys', c') := by
  have held := sheltered.held
  simp only [Held, place] at held
  rcases held zero with ⟨ino, image, named, node, writing, _, _⟩
  rcases moves_of_step stepped with ⟨read, moves⟩
  rintro ⟨_, closed⟩
  cases moves with
  | closesImage handle before opened =>
      rw [writing] at opened
      cases opened
      rcases closed ⟨rfl, zero⟩ with ⟨other, found, isClosed⟩
      simp [FileSystem.lookup, Sys.released, node, named, failed] at found
      rw [← found] at isClosed
      cases isClosed
  | closesNothing before lost =>
      rw [lost] at writing
      cases writing
  | looks next places =>
      rcases places with ⟨before, _⟩ | ⟨before, _⟩ <;> simp [place] at before
  | fails earlier inside target method => simp [place, Pc.exiting] at inside
  | _ => simp_all

/--
All states of a run of the converter are safe if and only if no step cuts a
source with content and the close after a return value of 0 succeeds.
-/
theorem safe_throughout_iff
    {target : Target} {method : Alg} {srcfd h5fd : Int}
    (unconverted : Unconverted sys.fs target src content)
    {choices : List Choice} {final : Sys × Convert}
    (ran :
      Transition.run (soloStep platform)
          (sys, convert2h5 target method srcfd h5fd) choices = some final) :
    Transition.Throughout (soloStep platform) (Safe platform content)
        (sys, convert2h5 target method srcfd h5fd) choices ↔
      Transition.Along (soloStep platform) (Harmless content)
        (sys, convert2h5 target method srcfd h5fd) choices := by
  refine
    Transition.throughout_iff_along
      (fun state =>
        ∃ src pieces, Sheltered platform content state.1 state.2 src pieces)
      ?_ ?_ ?_ ?_ ran
  · rintro ⟨sys, c⟩ ⟨src, pieces, sheltered⟩
    exact sheltered.safe
  · rintro ⟨sys, c⟩ choice ⟨sys', c'⟩ ⟨src, pieces, sheltered⟩ harmless stepped
    rcases sheltered.step harmless stepped with ⟨read, later⟩
    exact ⟨src, pieces ++ read, later⟩
  · rintro ⟨sys, c⟩ choice ⟨sys', c'⟩ ⟨src, pieces, sheltered⟩ harmful stepped
    by_cases cut :
        c.pc = .truncateZero ∧ choice.fails = false ∧ content ≠ []
    · exact unsafe_of_emptied sheltered cut.1 cut.2.1 cut.2.2 stepped
    · have lost :
          c.pc = .closeImage ∧ c.ret = 0 ∧ choice.fails = true := by
        by_contra kept
        refine harmful ⟨?_, ?_⟩
        · intro place
          by_cases failed : choice.fails = true
          · exact Or.inl failed
          · refine Or.inr ?_
            by_contra nonempty
            exact cut ⟨place, by simpa using failed, nonempty⟩
        · intro place zero
          by_contra failed
          exact kept ⟨place, zero, by simpa using failed⟩
      exact unsafe_of_lost_close sheltered lost.1 lost.2.1 lost.2.2 stepped
  · exact
      ⟨src, [],
        { source := unconverted.source
          node := unconverted.node
          stage := stage_initial unconverted method srcfd h5fd
          copy := copyOf_initial content target method srcfd h5fd
          held := trivial
          sized := by
            rintro (place | place) <;> cases place }⟩

/-- The calls of a conversion up to the first `truncate`. -/
def throughTruncate : List Choice :=
  [.ok 0, .ok 0, .ok 3, .ok 1, .ok 0, .ok 1, .ok 0, .ok 0, .ok 1, .ok 0,
    .ok 0, .ok 0]

theorem throughTruncate_runs :
    ∃ final,
      Transition.run (soloStep storingPlatform)
          (storeF [7], convert2h5 targetF .DZ_ALG_ZSTD 0 0) throughTruncate =
        some final ∧
        final.1.fs.lookup final.2.target.path = some (.file []) ∧
          final.1.fs.lookup final.2.target.h5name =
            some
              (.image
                { datasets :=
                    [(.algorithm, [122, 115, 116, 100, 32, 49]),
                      (.block 0, [40, 7])]
                  writer := true
                  closed := false }) := by
  have facts :
      (Transition.run (soloStep storingPlatform)
          (storeF [7], convert2h5 targetF .DZ_ALG_ZSTD 0 0)
          throughTruncate).map
        (fun final =>
          (final.1.fs.lookup final.2.target.path,
            final.1.fs.lookup final.2.target.h5name)) =
        some
          (some (.file []),
            some
              (.image
                { datasets :=
                    [(.algorithm, [122, 115, 116, 100, 32, 49]),
                      (.block 0, [40, 7])]
                  writer := true
                  closed := false })) := by
    decide +kernel
  rcases Option.map_eq_some_iff.mp facts with ⟨final, ran, lookups⟩
  rw [Prod.mk.injEq] at lookups
  exact ⟨final, ran, lookups⟩

theorem safe_throughout_iff_storeF :
    Transition.Throughout (soloStep storingPlatform) (Safe storingPlatform [7])
        (storeF [7], convert2h5 targetF .DZ_ALG_ZSTD 0 0) throughTruncate ↔
      Transition.Along (soloStep storingPlatform) (Harmless [7])
        (storeF [7], convert2h5 targetF .DZ_ALG_ZSTD 0 0)
        throughTruncate := by
  rcases throughTruncate_runs with ⟨final, ran, _⟩
  exact safe_throughout_iff (unconverted_storeF [7]) ran

/-- A crash between the first `truncate` and the close loses `/f`. -/
theorem crash_before_close_loses_content :
    ¬ ∀ (platform : Platform) (target : Target) (method : Alg)
        (srcfd h5fd : Int) (sys : Sys) (src : Ino) (content : Bytes)
        (choices : List Choice) (final : Sys × Convert),
        Unconverted sys.fs target src content →
          Transition.run (soloStep platform)
              (sys, convert2h5 target method srcfd h5fd) choices =
            some final →
            Safe platform content final := by
  intro claimed
  rcases throughTruncate_runs with ⟨final, ran, source, image⟩
  have safe := claimed _ _ _ _ _ _ _ _ _ _ (unconverted_storeF [7]) ran
  rcases safe.survives with kept | ⟨other, found, closed, _⟩
  · rw [source] at kept
    cases kept
  · rw [image] at found
    cases found
    cases closed

end DZFile.Crash
