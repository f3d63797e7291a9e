import DZFile.Publishing

/-!
# A converter beside another

Two threads of one process convert the same path: they share the file system
and the tables of descriptors and handles.  What one of them holds on to while
the other makes a call is its temporary file, its source descriptor and its
handle.  The lock of HDF5 keeps the other from creating the temporary file as
long as its writer has it open, and a number that is in use is not handed out
again; so all the other can do is close what is not its own, which it only
does on its way out.
-/

namespace DZFile.Bystander

open DZFile.ByteSeq
open DZFile.Codec
open DZFile.Image
open DZFile.Kernel
open DZFile.Layout
open DZFile.Converter
open DZFile.Staging
open DZFile.Publishing

/-- The converter has opened its source and not yet renamed its file. -/
def attached (pc : Pc) : Bool :=
  match pc with
  | .createTemp => true
  | pc => pc.building

/-- A writer has the temporary file open. -/
def Locked (fs : FileSystem) (target : Target) : Prop :=
  ∃ ino image,
    fs.entry target.temp = some ino ∧ fs.node ino = .image image ∧
      image.writer = true

theorem past_of_building {pc : Pc} (building : pc.building = true) :
    past pc = false := by
  cases pc <;> first
    | rfl
    | cases building

theorem attached_of_building {pc : Pc} (building : pc.building = true) :
    attached pc = true := by
  cases pc <;> first
    | exact building
    | cases building

theorem exiting_of_attached {pc : Pc} (holding : attached pc = true) :
    pc.exiting = false := by
  cases pc <;> first
    | rfl
    | cases holding

/-- A converter that holds its source is not on its way out. -/
theorem not_exiting_of_attached
    {pc pc' : Pc} (holding : attached pc = true) (place : pc = pc')
    (leaving : pc'.exiting = true) : False := by
  have inside := exiting_of_attached holding
  rw [place, leaving] at inside
  cases inside

/-- Nobody creates a file that a writer has open. -/
theorem Locked.not_created
    {fs fs' : FileSystem} {target : Target} {ino : Ino}
    (locked : Locked fs target) :
    ¬ Created fs target.temp ino fs' := by
  rcases locked with ⟨ino', image, named, node, open_⟩
  intro created
  cases created with
  | fresh absent =>
      rw [absent] at named
      cases named
  | emptied _ found unlocked =>
      rw [found] at named
      cases named
      rw [unlocked image node] at open_
      cases open_

variable
    {platform : Platform} {sys sys' : Sys} {c c' : Convert} {src : Ino}
    {choice : Choice} {pieces read : List Bytes}

/-! ## What the one that moves does to itself -/

/-- The source descriptor is open until the converter leaves. -/
theorem attached_of_moves
    (moves : Moves platform sys c choice read sys' c')
    (holding : attached c'.pc = true) :
    (c.pc = .openSource ∧ sys.proc.fds c'.srcfd = none ∧
        sys'.proc.fds c'.srcfd ≠ none) ∨
      (attached c.pc = true ∧ c'.srcfd = c.srcfd ∧
        (sys.proc.fds c.srcfd ≠ none → sys'.proc.fds c.srcfd ≠ none)) := by
  have left : ∀ {pc : Pc}, c'.pc = pc → pc.exiting = true → False :=
    not_exiting_of_attached holding
  cases moves with
  | looks next places =>
      rcases places with ⟨place, rfl⟩ | ⟨place, rfl⟩ <;> cases holding
  | fails earlier inside target method =>
      exact (left rfl (Convert.exiting_out _ _)).elim
  | opens number ino place free found =>
      left
      exact ⟨place, free, by simp [Process.setFd]⟩
  | creates number ino fs next place granted positive free created continues =>
      rcases continues with ⟨text, header, rfl⟩ | rfl
      · right
        exact ⟨by rw [place]; rfl, rfl, id⟩
      · exact (left rfl (Convert.exiting_out _ _)).elim
  | writesHeader text handle image place held stored =>
      right
      exact ⟨by rw [place]; rfl, rfl, id⟩
  | reads buffer limit file place limited nonempty held data =>
      right
      exact ⟨by rw [place]; rfl, rfl, by simp [Process.setFd]⟩
  | meetsEnd file place held ended =>
      right
      exact ⟨by rw [place]; rfl, rfl, id⟩
  | compresses buffer dstdata place compressed =>
      right
      exact ⟨by rw [place]; rfl, rfl, id⟩
  | writesBlock buffer dstdata handle image place held stored absent =>
      right
      exact ⟨by rw [place]; rfl, rfl, id⟩
  | publishes ino place found => cases holding
  | sizes ino place found => cases holding
  | empties ino place granted found => cases holding
  | regrows ino place found => exact (left rfl (Convert.exiting_out _ _)).elim
  | closesSource place =>
      exact (left rfl (Convert.exiting_outImage _)).elim
  | closesImage handle place held => cases holding
  | closesNothing place lost => cases holding

/-- A converter that builds is the writer of its temporary file. -/
theorem locked_of_moves
    (stage : Stage platform sys c src pieces)
    (locked : c.pc.building = true → Locked sys.fs c.target)
    (moves : Moves platform sys c choice read sys' c')
    (building : c'.pc.building = true) :
    Locked sys'.fs c.target := by
  have left : ∀ {pc : Pc}, c'.pc = pc → pc.exiting = true → False :=
    not_exiting_of_attached (attached_of_building building)
  cases moves with
  | looks next places =>
      rcases places with ⟨place, rfl⟩ | ⟨place, rfl⟩ <;> cases building
  | fails earlier inside target method =>
      exact (left rfl (Convert.exiting_out _ _)).elim
  | opens number ino place free found => cases building
  | creates number ino fs next place granted positive free created continues =>
      rcases created_owns created with ⟨named, node⟩
      exact ⟨ino, .created, named, node, rfl⟩
  | writesHeader text handle image place held stored =>
      simp only [Stage, place] at stage
      rcases stage with ⟨_, _, _, _, ino, mine, owns, _⟩
      rcases locked (by rw [place]; rfl) with ⟨_, _, named, node, open_⟩
      have ours := owns.writing handle held
      rw [owns.named] at named
      cases named
      rw [ours, node] at stored
      cases stored
      refine ⟨ino, image.addDataset .algorithm text, owns.named, ?_, open_⟩
      rw [ours]
      simp
  | reads buffer limit file place limited nonempty held data =>
      exact locked (by rw [place]; rfl)
  | meetsEnd file place held ended => exact locked (by rw [place]; rfl)
  | compresses buffer dstdata place compressed =>
      exact locked (by rw [place]; rfl)
  | writesBlock buffer dstdata handle image place held stored absent =>
      simp only [Stage, place] at stage
      rcases stage with ⟨ino, mine, earlier, _, _, _, before⟩
      rcases locked (by rw [place]; rfl) with ⟨_, _, named, node, open_⟩
      have ours := before.owns.writing handle held
      rw [before.owns.named] at named
      cases named
      rw [ours, node] at stored
      cases stored
      refine
        ⟨ino, image.addDataset (.block (wrap32 c.count)) dstdata,
          before.owns.named, ?_, open_⟩
      rw [ours]
      simp
  | publishes ino place found => cases building
  | sizes ino place found => cases building
  | empties ino place granted found => cases building
  | regrows ino place found => exact (left rfl (Convert.exiting_out _ _)).elim
  | closesSource place =>
      exact (left rfl (Convert.exiting_outImage _)).elim
  | closesImage handle place held => cases building
  | closesNothing place lost => cases building

/-- Only who finds no writer of the temporary file starts to build. -/
theorem building_of_moves
    (moves : Moves platform sys c choice read sys' c')
    (building : c'.pc.building = true) :
    c.pc.building = true ∨
      (c.pc = .createTemp ∧ ¬ Locked sys.fs c.target) := by
  have left : ∀ {pc : Pc}, c'.pc = pc → pc.exiting = true → False :=
    not_exiting_of_attached (attached_of_building building)
  cases moves with
  | looks next places =>
      rcases places with ⟨place, rfl⟩ | ⟨place, rfl⟩ <;> cases building
  | fails earlier inside target method =>
      exact (left rfl (Convert.exiting_out _ _)).elim
  | opens number ino place free found => cases building
  | creates number ino fs next place granted positive free created continues =>
      right
      exact ⟨place, fun locked => locked.not_created created⟩
  | publishes ino place found => cases building
  | sizes ino place found => cases building
  | empties ino place granted found => cases building
  | regrows ino place found => exact (left rfl (Convert.exiting_out _ _)).elim
  | closesSource place =>
      exact (left rfl (Convert.exiting_outImage _)).elim
  | closesImage handle place held => cases building
  | closesNothing place lost => cases building
  | writesHeader text handle image place held stored =>
      left
      rw [place]
      rfl
  | reads buffer limit file place limited nonempty held data =>
      left
      rw [place]
      rfl
  | meetsEnd file place held ended =>
      left
      rw [place]
      rfl
  | compresses buffer dstdata place compressed =>
      left
      rw [place]
      rfl
  | writesBlock buffer dstdata handle image place held stored absent =>
      left
      rw [place]
      rfl

/-- The source is empty after a granted `truncate` only. -/
theorem emptied_of_moves
    (moves : Moves platform sys c choice read sys' c')
    (place : c'.pc = .truncateSize) :
    c.pc = .truncateZero ∧ choice.fails = false := by
  have left : c'.pc.exiting = true → False := by
    intro leaving
    rw [place] at leaving
    cases leaving
  cases moves with
  | looks next places =>
      rcases places with ⟨_, rfl⟩ | ⟨_, rfl⟩ <;> cases place
  | fails earlier inside target method =>
      exact (left (Convert.exiting_out _ _)).elim
  | creates number ino fs next here granted positive free created continues =>
      rcases continues with ⟨text, header, rfl⟩ | rfl
      · cases place
      · exact (left (Convert.exiting_out _ _)).elim
  | empties ino here granted found => exact ⟨here, granted⟩
  | regrows ino here found => exact (left (Convert.exiting_out _ _)).elim
  | closesSource here => exact (left (Convert.exiting_outImage _)).elim
  | _ => cases place

/--
A converter that is past its `rename` and has not failed was so before, or has
just renamed its file.
-/
theorem behind_of_moves
    (moves : Moves platform sys c choice read sys' c')
    (behind : past c'.pc = true)
    (settled : c'.pc.exiting = true → c'.ret = 0) :
    (past c.pc = true ∧ (c.pc.exiting = true → c.ret = 0)) ∨
      sys'.fs.entry c.target.h5name ≠ none := by
  have failed :
      ∀ {earlier : Convert}, c' = earlier.out (-1) → False := by
    rintro earlier rfl
    have zero := settled (Convert.exiting_out _ _)
    rw [Convert.ret_out] at zero
    cases zero
  cases moves with
  | looks next places =>
      rcases places with ⟨_, rfl⟩ | ⟨_, rfl⟩ <;> cases behind
  | fails earlier inside target method => exact (failed rfl).elim
  | opens number ino place free found => cases behind
  | creates number ino fs next place granted positive free created continues =>
      rcases continues with ⟨text, header, rfl⟩ | rfl
      · cases behind
      · exact (failed rfl).elim
  | writesHeader text handle image place held stored => cases behind
  | reads buffer limit file place limited nonempty held data => cases behind
  | meetsEnd file place held ended => cases behind
  | compresses buffer dstdata place compressed => cases behind
  | writesBlock buffer dstdata handle image place held stored absent =>
      cases behind
  | publishes ino place found =>
      right
      simp [found]
  | sizes ino place found =>
      left
      rw [place]
      exact ⟨rfl, nofun⟩
  | empties ino place granted found =>
      left
      rw [place]
      exact ⟨rfl, nofun⟩
  | regrows ino place found =>
      left
      rw [place]
      exact ⟨rfl, nofun⟩
  | closesSource place =>
      left
      have zero := settled (Convert.exiting_outImage _)
      rw [Convert.ret_outImage] at zero
      rw [place]
      exact ⟨rfl, fun _ => zero⟩
  | closesImage handle place held =>
      left
      rw [place]
      exact ⟨rfl, fun _ => settled rfl⟩
  | closesNothing place lost =>
      left
      rw [place]
      exact ⟨rfl, fun _ => settled rfl⟩

/-- An image that is there stays, or is replaced by another. -/
theorem present_of_moves
    (moves : Moves platform sys c choice read sys' c')
    (present : sys.fs.entry c.target.h5name ≠ none) :
    sys'.fs.entry c.target.h5name ≠ none := by
  have different := c.target.temp_ne_h5name
  cases nameStep_of_moves moves with
  | same entry =>
      rw [entry]
      exact present
  | creates place granted entry =>
      rw [entry, Function.update_of_ne different.symm]
      exact present
  | publishes ino found entry =>
      rw [entry, Function.update_self]
      simp

/-! ## What it does to the other -/

/-- A descriptor of the other is kept or closed. -/
theorem fds_of_moves
    (moves : Moves platform sys c choice read sys' c')
    {fd : Int}
    (used : c.pc.exiting = true ∨ sys.proc.fds fd ≠ none)
    (other : attached c.pc = true → fd ≠ c.srcfd) :
    sys'.proc.fds fd = sys.proc.fds fd ∨
      (c.pc.exiting = true ∧ sys'.proc.fds fd = none) := by
  cases moves with
  | opens number ino place free found =>
      left
      have different : fd ≠ number := by
        rintro rfl
        rcases used with leaving | used
        · rw [place] at leaving
          cases leaving
        · exact used free
      exact Function.update_of_ne different _ _
  | reads buffer limit file place limited nonempty held data =>
      left
      exact Function.update_of_ne (other (by rw [place]; rfl)) _ _
  | closesSource place =>
      by_cases same : fd = c.srcfd
      · right
        exact ⟨by rw [place]; rfl, by simp [Process.setFd, same]⟩
      · left
        exact Function.update_of_ne same _ _
  | _ => exact Or.inl rfl

/-- What is left of the temporary file of a converter that builds. -/
structure Leaves (sys sys' : Sys) (target : Target) (kept : Bool) : Prop where
  temp : sys'.fs.entry target.temp = sys.fs.entry target.temp
  node :
    ∀ ino image,
      sys.fs.entry target.temp = some ino → sys.fs.node ino = .image image →
        ∃ image',
          sys'.fs.node ino = .image image' ∧
            image'.datasets = image.datasets ∧
              (kept = true → image'.writer = image.writer)
  handle :
    ∀ h5fd,
      sys'.proc.handles h5fd = sys.proc.handles h5fd ∨
        sys'.proc.handles h5fd = none

/-- Without the temporary file a call can touch it only by closing it. -/
theorem leaves_of_moves
    (quiet : c.pc.building = false)
    (locked : c.pc = .createTemp → Locked sys.fs c.target)
    (apart : Apart sys.fs c.target src)
    (source : sys.fs.entry c.target.path = some src)
    (moves : Moves platform sys c choice read sys' c') :
    Leaves sys sys' c.target (!c.pc.exiting) := by
  have same :
      ∀ proc : Process,
        (∀ h5fd,
          proc.handles h5fd = sys.proc.handles h5fd ∨
            proc.handles h5fd = none) →
          Leaves sys { sys with proc := proc } c.target (!c.pc.exiting) := by
    intro proc handle
    exact
      { temp := rfl
        node := fun ino image _ node => ⟨image, node, rfl, fun _ => rfl⟩
        handle := handle }
  have resized :
      ∀ length,
        Leaves sys { sys with fs := sys.resizeNode platform src length }
          c.target (!c.pc.exiting) := by
    intro length
    constructor
    · rfl
    · intro ino image named node
      have different : ino ≠ src := by
        rintro rfl
        exact apart.source named
      exact
        ⟨image, (node_put_of_ne different).trans node, rfl, fun _ => rfl⟩
    · intro h5fd
      exact Or.inl rfl
  have elsewhere : ∀ {pc : Pc}, c.pc = pc → pc.building = true → False := by
    intro pc place building
    rw [place, building] at quiet
    cases quiet
  cases moves with
  | looks next places => exact same _ fun _ => Or.inl rfl
  | fails earlier inside target method => exact same _ fun _ => Or.inl rfl
  | opens number ino place free found => exact same _ fun _ => Or.inl rfl
  | creates number ino fs next place granted positive free created continues =>
      exact ((locked place).not_created created).elim
  | writesHeader text handle image place held stored =>
      exact (elsewhere place rfl).elim
  | reads buffer limit file place limited nonempty held data =>
      exact (elsewhere place rfl).elim
  | meetsEnd file place held ended => exact (elsewhere place rfl).elim
  | compresses buffer dstdata place compressed =>
      exact (elsewhere place rfl).elim
  | writesBlock buffer dstdata handle image place held stored absent =>
      exact (elsewhere place rfl).elim
  | publishes ino place found => exact (elsewhere place rfl).elim
  | sizes ino place found => exact same _ fun _ => Or.inl rfl
  | empties ino place granted found =>
      rw [source] at found
      cases found
      exact resized 0
  | regrows ino place found =>
      rw [source] at found
      cases found
      exact resized c.stSize
  | closesSource place => exact same _ fun _ => Or.inl rfl
  | closesImage handle place held =>
      constructor
      · simp only [Sys.released]
        split <;> rfl
      · intro ino image named node
        rw [place]
        simp only [Sys.released]
        split
        · rename_i closing _ stored
          by_cases hit : ino = handle.ino
          · subst hit
            rw [node] at stored
            cases stored
            refine
              ⟨{ image with writer := false, closed := !choice.fails },
                by simp, rfl, ?_⟩
            intro kept
            cases kept
          · exact
              ⟨image, (node_put_of_ne hit).trans node, rfl, fun _ => rfl⟩
        · exact ⟨image, node, rfl, fun _ => rfl⟩
      · intro h5fd
        by_cases hit : h5fd = c.h5fd
        · right
          simp [Process.setHandle, hit]
        · left
          exact Function.update_of_ne hit _ _
  | closesNothing place lost => exact same _ fun _ => Or.inl rfl

/-- The lock is kept unless it is released. -/
theorem Locked.left
    {target : Target} (locked : Locked sys.fs target)
    (leaves : Leaves sys sys' target true) :
    Locked sys'.fs target := by
  rcases locked with ⟨ino, image, named, node, open_⟩
  rcases leaves.node ino image named node with ⟨image', node', _, kept⟩
  refine ⟨ino, image', ?_, node', ?_⟩
  · rw [leaves.temp]
    exact named
  · rw [kept rfl]
    exact open_

/-- A converter that builds keeps its stage while the other moves. -/
theorem stage_left
    {kept : Bool}
    (stage : Stage platform sys c src pieces)
    (building : c.pc.building = true)
    (leaves : Leaves sys sys' c.target kept)
    (fds :
      sys'.proc.fds c.srcfd = sys.proc.fds c.srcfd ∨
        sys'.proc.fds c.srcfd = none) :
    Stage platform sys' c src pieces := by
  have owning :
      ∀ {ino image},
        Owns sys.fs sys.proc.handles c.target c.h5fd src ino image →
          ∃ image',
            Owns sys'.fs sys'.proc.handles c.target c.h5fd src ino image' ∧
              image'.datasets = image.datasets := by
    intro ino image owns
    rcases leaves.node ino image owns.named owns.node with
      ⟨image', node, datasets, _⟩
    refine ⟨image', ?_, datasets⟩
    exact
      { named := by
          rw [leaves.temp]
          exact owns.named
        node := node
        other := owns.other
        writing := by
          intro handle held
          rcases leaves.handle c.h5fd with same | closed
          · rw [same] at held
            exact owns.writing handle held
          · rw [closed] at held
            cases held }
  have reading :
      ∀ {offset},
        Reading sys.proc.fds c.srcfd src offset →
          Reading sys'.proc.fds c.srcfd src offset := by
    intro offset reading file held
    rcases fds with same | closed
    · rw [same] at held
      exact reading file held
    · rw [closed] at held
      cases held
  have rebuilding :
      ∀ {ino image stored offset},
        Building platform sys c src ino image stored offset →
          ∃ image',
            Building platform sys' c src ino image' stored offset := by
    intro ino image stored offset before
    rcases owning before.owns with ⟨image', owns, datasets⟩
    refine ⟨image', owns, reading before.reading, ?_, before.counted⟩
    exact
      ⟨by rw [datasets]; exact before.written.header,
        by rw [datasets]; exact before.written.distinct,
        before.written.storable⟩
  unfold Stage at stage ⊢
  cases place : c.pc with
  | writeHeader text =>
      simp only [place] at stage ⊢
      rcases stage with ⟨none, counted, header, read, ino, image, owns, empty⟩
      rcases owning owns with ⟨image', owns', datasets⟩
      exact
        ⟨none, counted, header, reading read, ino, image', owns',
          datasets.trans empty⟩
  | readBlock =>
      simp only [place] at stage ⊢
      rcases stage with ⟨ino, image, before⟩
      rcases rebuilding before with ⟨image', after⟩
      exact ⟨ino, image', after⟩
  | renameTemp =>
      simp only [place] at stage ⊢
      rcases stage with ⟨ino, image, before⟩
      rcases rebuilding before with ⟨image', after⟩
      exact ⟨ino, image', after⟩
  | compressBlock buffer =>
      simp only [place] at stage ⊢
      rcases stage with ⟨ino, image, stored, same, nonempty, short, before⟩
      rcases rebuilding before with ⟨image', after⟩
      exact ⟨ino, image', stored, same, nonempty, short, after⟩
  | writeBlock buffer dstdata =>
      simp only [place] at stage ⊢
      rcases stage with
        ⟨ino, image, stored, same, storable, compressed, before⟩
      rcases rebuilding before with ⟨image', after⟩
      exact ⟨ino, image', stored, same, storable, compressed, after⟩
  | _ =>
      rw [place] at building
      cases building

/-- Before it creates its file a converter only minds its descriptor. -/
theorem stage_left_before
    (stage : Stage platform sys c src pieces)
    (before : past c.pc = false) (notBuilding : c.pc.building = false)
    (apart : Apart sys'.fs c.target src)
    (fds :
      attached c.pc = true →
        sys'.proc.fds c.srcfd = sys.proc.fds c.srcfd ∨
          sys'.proc.fds c.srcfd = none) :
    Stage platform sys' c src pieces := by
  unfold Stage at stage ⊢
  cases place : c.pc with
  | statImage =>
      simp only [place] at stage ⊢
      exact ⟨stage.1, stage.2.1, apart.source⟩
  | statTemp =>
      simp only [place] at stage ⊢
      exact ⟨stage.1, stage.2.1, apart.source⟩
  | openSource =>
      simp only [place] at stage ⊢
      exact ⟨stage.1, stage.2.1, apart.source⟩
  | createTemp =>
      simp only [place] at stage ⊢
      refine ⟨stage.1, stage.2.1, apart.source, ?_⟩
      intro file held
      rcases fds (by rw [place]; rfl) with same | closed
      · rw [same] at held
        exact stage.2.2.2 file held
      · rw [closed] at held
        cases held
  | writeHeader text =>
      rw [place] at notBuilding
      cases notBuilding
  | readBlock =>
      rw [place] at notBuilding
      cases notBuilding
  | renameTemp =>
      rw [place] at notBuilding
      cases notBuilding
  | compressBlock buffer =>
      rw [place] at notBuilding
      cases notBuilding
  | writeBlock buffer dstdata =>
      rw [place] at notBuilding
      cases notBuilding
  | _ =>
      rw [place] at before
      cases before

end DZFile.Bystander
