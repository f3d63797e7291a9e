import DZFile.Staging

/-!
# The published image

What the steps of a converter make of the three names of a path, and of the
image under the hidden name.  The image is replaced by a `rename` only, and
written by no one afterwards, so a property of the pieces that every published
file has is a property of the image.
-/

namespace DZFile.Publishing

open DZFile.Interaction
open DZFile.Codec
open DZFile.Image
open DZFile.Kernel
open DZFile.Layout
open DZFile.Converter
open DZFile.Staging

/-! ## The names during a conversion -/

/-- What a step of the converter makes of the names. -/
inductive NameStep
    (fs fs' : FileSystem) (c : Convert) (choice : Choice) : Prop where
  | same (entry : fs'.entry = fs.entry)
  | creates
      (place : c.pc = .createTemp) (granted : choice.fails = false)
      (entry : fs'.entry = Function.update fs.entry c.target.temp (some fs.fresh))
  | publishes
      (ino : Ino) (found : fs.entry c.target.temp = some ino)
      (entry :
        fs'.entry =
          Function.update (Function.update fs.entry c.target.temp none)
            c.target.h5name (some ino))

section Names

variable
    {platform : Platform} {sys sys' : Sys} {c c' : Convert}
    {choice : Choice} {read : List Bytes}

theorem nameStep_of_moves
    (moves : Moves platform sys c choice read sys' c') :
    NameStep sys.fs sys'.fs c choice := by
  cases moves with
  | creates number ino fs next place granted positive free created continues =>
      cases created with
      | fresh absent => exact .creates place granted rfl
      | emptied ino found unlocked => exact .same rfl
  | publishes ino place found =>
      exact .publishes ino found (by rw [FileSystem.entry_move, found])
  | closesImage handle place held =>
      refine .same ?_
      simp only [Sys.released]
      split <;> rfl
  | _ => exact .same rfl

/-- The converter never takes the visible file away. -/
theorem NameStep.path
    {fs fs' : FileSystem} (names : NameStep fs fs' c choice) :
    fs'.entry c.target.path = fs.entry c.target.path := by
  have tempNe := c.target.temp_ne_path
  have imageNe := c.target.h5name_ne_path
  cases names with
  | same entry => rw [entry]
  | creates place granted entry => simp [entry, tempNe.symm]
  | publishes ino found entry => simp [entry, tempNe.symm, imageNe.symm]

/-- The converter never removes what it has left. -/
theorem NameStep.leftover
    {fs fs' : FileSystem} (names : NameStep fs fs' c choice)
    (left :
      fs.entry c.target.h5name ≠ none ∨ fs.entry c.target.temp ≠ none) :
    fs'.entry c.target.h5name ≠ none ∨ fs'.entry c.target.temp ≠ none := by
  have different := c.target.temp_ne_h5name
  cases names with
  | same entry => rwa [entry]
  | creates place granted entry => exact Or.inr (by simp [entry])
  | publishes ino found entry => exact Or.inl (by simp [entry])

end Names

/-! ## The image under the hidden name -/

/-- The converter has renamed its temporary file, or is on its way out. -/
def past : Pc → Bool
  | .statSource | .truncateZero | .truncateSize => true
  | .closeSource | .closeImage | .returned => true
  | _ => false

theorem past_of_exiting {pc : Pc} (exiting : pc.exiting = true) :
    past pc = true := by
  cases pc <;> first
    | rfl
    | cases exiting

/-- A file under the hidden name is an image of pieces with the property. -/
def ImageOf
    (libs : Libs) (method : Alg) (fs : FileSystem) (target : Target)
    (src : Ino) (property : List Bytes → Prop) : Prop :=
  ∀ ino, fs.entry target.h5name = some ino →
    ∃ image pieces,
      fs.node ino = .image image ∧ ino ≠ src ∧
        Written libs method image pieces ∧ property pieces

/-- The temporary file is neither the source nor the image. -/
structure Apart (fs : FileSystem) (target : Target) (src : Ino) : Prop where
  source : fs.entry target.temp ≠ some src
  image :
    ∀ ino, fs.entry target.temp = some ino →
      fs.entry target.h5name ≠ some ino

section Image

variable
    {libs : Libs} {method : Alg} {fs : FileSystem} {target : Target}
    {src : Ino} {property : List Bytes → Prop}

/-- A change of another inode keeps the image. -/
theorem ImageOf.put
    (imageOf : ImageOf libs method fs target src property)
    {ino : Ino} {node : Node} (other : fs.entry target.h5name ≠ some ino) :
    ImageOf libs method (fs.put ino node) target src property := by
  intro imageIno named
  rcases imageOf imageIno named with
    ⟨image, pieces, stored, notSource, written, good⟩
  have different : imageIno ≠ ino := by
    rintro rfl
    exact other named
  exact
    ⟨image, pieces, by rw [node_put_of_ne different, stored], notSource,
      written, good⟩

/-- A change of the source keeps the image. -/
theorem ImageOf.put_source
    (imageOf : ImageOf libs method fs target src property) (node : Node) :
    ImageOf libs method (fs.put src node) target src property := by
  refine imageOf.put ?_
  intro named
  rcases imageOf src named with ⟨image, pieces, _, notSource, _⟩
  exact notSource rfl

/-- Closing a handle keeps the datasets. -/
theorem ImageOf.released
    {sys : Sys} (imageOf : ImageOf libs method sys.fs target src property)
    (handle : H5Handle) (success : Bool) :
    ImageOf libs method (sys.released handle success) target src property := by
  unfold Sys.released
  split
  · rename_i closing _ node
    intro ino named
    rcases imageOf ino named with
      ⟨image, pieces, stored, notSource, written, good⟩
    by_cases same : ino = handle.ino
    · subst same
      rw [node] at stored
      cases stored
      exact
        ⟨{ closing with writer := false, closed := success }, pieces,
          by simp, notSource,
          ⟨written.header, written.distinct, written.storable⟩, good⟩
    · exact
        ⟨image, pieces, by rw [node_put_of_ne same, stored], notSource,
          written, good⟩
  · exact imageOf

end Image

variable
    {platform : Platform} {sys sys' : Sys} {c c' : Convert} {src : Ino}
    {choice : Choice} {pieces read : List Bytes}
    {property : List Bytes → Prop}

/-- The converter keeps its temporary file apart. -/
theorem Apart.step
    (apart : Apart sys.fs c.target src)
    (source : sys.fs.entry c.target.path = some src)
    (moves : Moves platform sys c choice read sys' c') :
    Apart sys'.fs c.target src := by
  have different := c.target.temp_ne_h5name
  cases nameStep_of_moves moves with
  | same entry =>
      exact
        ⟨by rw [entry]; exact apart.source, by rw [entry]; exact apart.image⟩
  | creates place granted entry =>
      refine ⟨?_, ?_⟩
      · rw [entry, Function.update_self]
        intro same
        exact FileSystem.entry_ne_fresh source (Option.some.inj same).symm
      · intro ino named
        rw [entry, Function.update_self] at named
        cases named
        rw [entry, Function.update_of_ne different.symm]
        intro same
        exact FileSystem.entry_ne_fresh same rfl
  | publishes ino found entry =>
      have gone : sys'.fs.entry c.target.temp = none := by
        rw [entry, Function.update_of_ne different, Function.update_self]
      exact ⟨by simp [gone], by simp [gone]⟩

/-- The handle of a converter that is building is that of its own file. -/
theorem building_handle
    (apart : Apart sys.fs c.target src)
    (stage : Stage platform sys c src pieces)
    {handle : H5Handle} (held : sys.proc.handles c.h5fd = some handle)
    (building :
      (∃ text, c.pc = .writeHeader text) ∨
        ∃ buffer dstdata, c.pc = .writeBlock buffer dstdata) :
    sys.fs.entry c.target.h5name ≠ some handle.ino := by
  rcases building with ⟨text, place⟩ | ⟨buffer, dstdata, place⟩
  · simp only [Stage, place] at stage
    rcases stage with ⟨_, _, _, _, ino, image, owns, _⟩
    rw [owns.writing handle held]
    exact apart.image ino owns.named
  · simp only [Stage, place] at stage
    rcases stage with ⟨ino, image, stored, _, _, _, building⟩
    rw [building.owns.writing handle held]
    exact apart.image ino building.owns.named

/--
The image keeps the property if the pieces of a converter have it when it
renames its file.
-/
theorem ImageOf.step
    (imageOf :
      ImageOf platform.libs c.method sys.fs c.target src property)
    (apart : Apart sys.fs c.target src)
    (source : sys.fs.entry c.target.path = some src)
    (stage : past c.pc = false → Stage platform sys c src pieces)
    (publishes : c.pc = .renameTemp → property pieces)
    (moves : Moves platform sys c choice read sys' c') :
    ImageOf platform.libs c.method sys'.fs c.target src property := by
  have different := c.target.temp_ne_h5name
  cases moves with
  | creates number ino fs next place granted positive free created continues =>
      cases created with
      | fresh absent =>
          intro imageIno named
          rw [FileSystem.entry_link,
            Function.update_of_ne different.symm] at named
          rcases imageOf imageIno named with ⟨image, stored, node, rest⟩
          refine ⟨image, stored, ?_, rest⟩
          rw [FileSystem.node_link,
            Function.update_of_ne (FileSystem.entry_ne_fresh named)]
          exact node
      | emptied ino found unlocked =>
          exact imageOf.put (apart.image _ found)
  | writesHeader text handle image place held stored =>
      exact
        imageOf.put
          (building_handle apart (stage (by rw [place]; rfl)) held
            (Or.inl ⟨text, place⟩))
  | writesBlock buffer dstdata handle image place held stored absent =>
      exact
        imageOf.put
          (building_handle apart (stage (by rw [place]; rfl)) held
            (Or.inr ⟨buffer, dstdata, place⟩))
  | publishes ino place found =>
      intro imageIno named
      rw [FileSystem.entry_move, Function.update_self, found] at named
      cases named
      have before := stage (by rw [place]; rfl)
      simp only [Stage, place] at before
      rcases before with ⟨mine, image, building⟩
      have owns := building.owns
      rw [owns.named] at found
      cases found
      exact
        ⟨image, pieces, owns.node, owns.other, building.written,
          publishes place⟩
  | empties ino place granted found =>
      rw [source] at found
      cases found
      exact imageOf.put_source _
  | regrows ino place found =>
      rw [source] at found
      cases found
      exact imageOf.put_source _
  | closesImage handle place held => exact imageOf.released handle _
  | _ => exact imageOf

/-- Only the `rename` changes what the image's name stands for. -/
theorem entry_h5name_of_moves
    {sys sys' : Sys} {c c' : Convert} {choice : Choice} {read : List Bytes}
    (moves : Moves platform sys c choice read sys' c')
    (notPublishing : c.pc = .renameTemp → c'.pc ≠ .statSource) :
    sys'.fs.entry c.target.h5name = sys.fs.entry c.target.h5name := by
  have different := c.target.temp_ne_h5name
  cases moves with
  | publishes ino place found => exact (notPublishing place rfl).elim
  | creates number ino fs next place granted positive free created continues =>
      cases created with
      | fresh absent => exact Function.update_of_ne different.symm _ _
      | emptied _ found unlocked => rfl
  | closesImage handle place held =>
      simp only [Sys.released]
      split <;> rfl
  | _ => rfl

/-- What a step past the `rename` does to the files. -/
inductive Finishes (platform : Platform) (sys : Sys) (c : Convert) :
    FileSystem → Prop where
  | leaves : Finishes platform sys c sys.fs
  | resizes (src : Ino) (size : Nat)
      (found : sys.fs.entry c.target.path = some src) :
      Finishes platform sys c (sys.resizeNode platform src size)
  | releases (handle : H5Handle) (success : Bool) :
      Finishes platform sys c (sys.released handle success)

/-- Past the `rename` the converter does not come back before it. -/
theorem finishes_of_moves
    {sys sys' : Sys} {c c' : Convert} {choice : Choice} {read : List Bytes}
    (moves : Moves platform sys c choice read sys' c')
    (behind : past c.pc = true) :
    past c'.pc = true ∧ Finishes platform sys c sys'.fs := by
  have elsewhere : ∀ {pc : Pc}, c.pc = pc → past pc = false → False := by
    intro pc place before
    rw [place, before] at behind
    cases behind
  cases moves with
  | looks next places =>
      rcases places with ⟨place, _⟩ | ⟨place, _⟩
      · exact (elsewhere place rfl).elim
      · exact (elsewhere place rfl).elim
  | fails earlier inside target method =>
      exact ⟨past_of_exiting (Convert.exiting_out _ _), .leaves⟩
  | sizes src place found => exact ⟨rfl, .leaves⟩
  | empties src place granted found => exact ⟨rfl, .resizes src 0 found⟩
  | regrows src place found =>
      exact
        ⟨past_of_exiting (Convert.exiting_out _ _), .resizes src _ found⟩
  | closesSource place =>
      exact ⟨past_of_exiting (Convert.exiting_outImage _), .leaves⟩
  | closesImage handle place held => exact ⟨rfl, .releases handle _⟩
  | closesNothing place lost => exact ⟨rfl, .leaves⟩
  | opens number ino place free found => exact (elsewhere place rfl).elim
  | creates number ino fs next place granted positive free created continues =>
      exact (elsewhere place rfl).elim
  | writesHeader text handle image place held stored =>
      exact (elsewhere place rfl).elim
  | reads buffer limit file place limited nonempty held data =>
      exact (elsewhere place rfl).elim
  | meetsEnd file place held ended => exact (elsewhere place rfl).elim
  | compresses buffer dstdata place compressed =>
      exact (elsewhere place rfl).elim
  | writesBlock buffer dstdata handle image place held stored absent =>
      exact (elsewhere place rfl).elim
  | publishes ino place found => exact (elsewhere place rfl).elim

/-- A `rename` happens only if the environment grants it. -/
theorem granted_of_publishes
    {later : Sys}
    (place : c.pc = .renameTemp)
    (stepped : c.step platform sys choice = some (later, c'))
    (refused : choice.fails = true) :
    later = sys := by
  rcases advance_eq_some.mp stepped with
    ⟨op, next, reply, action, called, _⟩
  unfold Convert.action at action
  rw [place] at action
  cases action
  cases choice with
  | ok number => cases refused
  | fail errno =>
      cases called
      rfl

/-- The image keeps a weaker property. -/
theorem ImageOf.mono
    {libs : Libs} {method : Alg} {fs : FileSystem} {target : Target}
    {weaker : List Bytes → Prop}
    (image : ImageOf libs method fs target src property)
    (weakens : ∀ pieces, property pieces → weaker pieces) :
    ImageOf libs method fs target src weaker := by
  intro ino named
  rcases image ino named with
    ⟨stored, pieces, node, other, written, good⟩
  exact ⟨stored, pieces, node, other, written, weakens pieces good⟩

end DZFile.Publishing
