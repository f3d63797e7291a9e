import DZFile.Methods
import DZFile.Layout
import Mathlib.Data.List.Nodup

/-!
# The invariant of a converter

`Stage` says for every place of the converter what holds of its record, its
descriptors and the files it owns, for the list of pieces it has read so far.
`Stage.step` is the step lemma.  The invariant does not mention the content of
the source, so it also serves when other parties change the source between the
reads; what the pieces have to do with a content is the subject of `CopyOf`.

A descriptor or handle is only described as long as it is open.  Closing one
behind the converter's back therefore keeps the invariant.
-/

namespace DZFile.Staging

open DZFile.ByteSeq
open DZFile.Codec
open DZFile.Image
open DZFile.Kernel
open DZFile.Layout
open DZFile.Converter
open DZFile.Methods

/-! ## The invariant -/

/-- The image holds the pieces. -/
structure Written
    (libs : Libs) (method : Alg) (image : H5Image) (pieces : List Bytes) :
    Prop where
  header :
    ∃ text, version libs method = some text ∧
      image.datasets = layout libs method text pieces
  distinct : (image.datasets.map Prod.fst).Nodup
  storable : ∀ piece ∈ pieces, Storable libs method piece

/-- The source descriptor, while it is open, is at the given offset. -/
def Reading
    (fds : Int → Option OpenFile) (srcfd : Int) (src : Ino) (offset : Nat) :
    Prop :=
  ∀ file, fds srcfd = some file → file.ino = src ∧ file.offset = offset

/-- The temporary file is the image behind the converter's handle. -/
structure Owns
    (fs : FileSystem) (handles : Int → Option H5Handle) (target : Target)
    (h5fd : Int) (src ino : Ino) (image : H5Image) : Prop where
  named : fs.entry target.temp = some ino
  node : fs.node ino = .image image
  other : ino ≠ src
  writing : ∀ handle, handles h5fd = some handle → handle.ino = ino

/-- The stored pieces are in the temporary file. -/
structure Building
    (platform : Platform) (sys : Sys) (c : Convert) (src ino : Ino)
    (image : H5Image) (stored : List Bytes) (offset : Nat) : Prop where
  owns : Owns sys.fs sys.proc.handles c.target c.h5fd src ino image
  reading : Reading sys.proc.fds c.srcfd src offset
  written : Written platform.libs c.method image stored
  counted : c.count = stored.length

/-- The pieces are in the file under the name of the hidden image. -/
def Published
    (platform : Platform) (sys : Sys) (c : Convert) (src : Ino)
    (pieces : List Bytes) : Prop :=
  ∃ ino image,
    sys.fs.entry c.target.h5name = some ino ∧
      sys.fs.node ino = .image image ∧
        ino ≠ src ∧ Written platform.libs c.method image pieces

/-- What holds at each place, for the pieces read so far. -/
def Stage
    (platform : Platform) (sys : Sys) (c : Convert) (src : Ino)
    (pieces : List Bytes) : Prop :=
  match c.pc with
  | .statImage | .statTemp | .openSource =>
      pieces = [] ∧ c.count = 0 ∧ sys.fs.entry c.target.temp ≠ some src
  | .createTemp =>
      pieces = [] ∧ c.count = 0 ∧
        sys.fs.entry c.target.temp ≠ some src ∧
          Reading sys.proc.fds c.srcfd src 0
  | .writeHeader text =>
      pieces = [] ∧ c.count = 0 ∧ version platform.libs c.method = some text ∧
        Reading sys.proc.fds c.srcfd src 0 ∧
          ∃ ino image,
            Owns sys.fs sys.proc.handles c.target c.h5fd src ino image ∧
              image.datasets = []
  | .readBlock | .renameTemp =>
      ∃ ino image,
        Building platform sys c src ino image pieces pieces.flatten.length
  | .compressBlock buffer =>
      ∃ ino image stored,
        pieces = stored ++ [buffer] ∧ buffer ≠ [] ∧
          buffer.length ≤ H5_BUFSIZE ∧
            Building platform sys c src ino image stored
              pieces.flatten.length
  | .writeBlock buffer dstdata =>
      ∃ ino image stored,
        pieces = stored ++ [buffer] ∧
          Storable platform.libs c.method buffer ∧
            block platform.libs c.method buffer = dstdata ∧
              Building platform sys c src ino image stored
                pieces.flatten.length
  | .statSource | .truncateZero | .truncateSize =>
      Published platform sys c src pieces
  | .closeSource | .closeImage | .returned =>
      c.ret = 0 → Published platform sys c src pieces

variable
    {platform : Platform} {sys sys' : Sys} {c c' : Convert} {src : Ino}
    {choice : Choice} {pieces read : List Bytes}

/-- On the way out only a return value of 0 promises anything. -/
theorem stage_of_exiting
    (exiting : c.pc.exiting = true)
    (published : c.ret = 0 → Published platform sys c src pieces) :
    Stage platform sys c src pieces := by
  unfold Stage
  cases place : c.pc <;> first
    | exact published
    | (rw [place] at exiting; cases exiting)

theorem stage_out_failed (earlier : Convert) :
    Stage platform sys (earlier.out (-1)) src pieces := by
  refine stage_of_exiting (Convert.exiting_out _ _) ?_
  intro zero
  rw [Convert.ret_out] at zero
  cases zero

/-- A path whose file has not been converted by the run that follows. -/
structure Unconverted
    (fs : FileSystem) (target : Target) (src : Ino) (content : Bytes) :
    Prop where
  source : fs.entry target.path = some src
  node : fs.node src = .file content
  apart : fs.entry target.temp ≠ some src

theorem stage_initial
    {target : Target} {content : Bytes}
    (unconverted : Unconverted sys.fs target src content)
    (method : Alg) (srcfd h5fd : Int) :
    Stage platform sys (convert2h5 target method srcfd h5fd) src [] :=
  ⟨rfl, rfl, unconverted.apart⟩

/-- The path `/f`. -/
def targetF : Target where
  path := ['/', 'f']
  h5name := ['/', '.', 'f', '.', 'D', 'Z', 'F']
  built := by decide

/-- A store whose only file is `/f`. -/
def storeF (content : Bytes) : Sys :=
  { Sys.initial with
    fs := Sys.initial.fs.link ['/', 'f'] (.file content) }

theorem unconverted_storeF (content : Bytes) :
    Unconverted (storeF content).fs targetF 0 content where
  source := by
    simp [storeF, targetF, Sys.initial]
  node := by
    simp [storeF, Sys.initial]
  apart := by
    have different : targetF.temp ≠ ['/', 'f'] := by decide
    simp [storeF, Sys.initial, different]

/-! ## The step lemma -/

theorem Written.addBlock
    {libs : Libs} {method : Alg} {image : H5Image} {pieces : List Bytes}
    {piece : Bytes}
    (written : Written libs method image pieces)
    (storable : Storable libs method piece)
    (absent :
      image.dataset (.block (wrap32 (pieces.length : Int))) = none) :
    Written libs method
      (image.addDataset (.block (wrap32 (pieces.length : Int)))
        (block libs method piece))
      (pieces ++ [piece]) := by
  rcases written.header with ⟨text, header, datasets⟩
  refine ⟨⟨text, header, ?_⟩, ?_, ?_⟩
  · rw [H5Image.addDataset, datasets, layout_append]
  · rw [H5Image.addDataset, List.map_append, List.nodup_append]
    refine ⟨written.distinct, List.nodup_singleton _, ?_⟩
    intro name member other isNew same
    rw [List.map_singleton, List.mem_singleton] at isNew
    subst same
    subst isNew
    rcases List.mem_map.mp member with ⟨entry, stored, named⟩
    rcases entry with ⟨entryName, data⟩
    cases named
    rw [H5Image.dataset, lookup_of_mem written.distinct stored] at absent
    cases absent
  · intro other member
    rcases List.mem_append.mp member with earlier | last
    · exact written.storable other earlier
    · rw [List.mem_singleton.mp last]
      exact storable

theorem written_header
    {libs : Libs} {method : Alg} {image : H5Image} {text : Bytes}
    (header : version libs method = some text)
    (empty : image.datasets = []) :
    Written libs method (image.addDataset .algorithm text) [] := by
  refine ⟨⟨text, header, ?_⟩, ?_, by simp⟩
  · rw [H5Image.addDataset, empty]
    rfl
  · rw [H5Image.addDataset, empty]
    exact List.nodup_singleton _

/-- A node other than the changed one keeps its content. -/
theorem node_put_of_ne
    {fs : FileSystem} {ino other : Ino} {node : Node} (different : other ≠ ino) :
    (fs.put ino node).node other = fs.node other := by
  rw [FileSystem.node_put, Function.update_of_ne different]

/-- The published image survives a change of another node. -/
theorem Published.put
    (published : Published platform sys c src pieces)
    {ino : Ino} {node : Node}
    (harmless :
      ∀ image, sys.fs.node ino = .image image → ino ≠ src →
        ∃ image', node = .image image' ∧ image'.datasets = image.datasets)
    (fs' : sys'.fs = sys.fs.put ino node) (target : c'.target = c.target)
    (method : c'.method = c.method) :
    Published platform sys' c' src pieces := by
  rcases published with ⟨imageIno, image, named, stored, other, written⟩
  by_cases same : imageIno = ino
  · subst same
    rcases harmless image stored other with ⟨image', rfl, datasets⟩
    refine ⟨imageIno, image', ?_, ?_, other, ?_⟩
    · rw [fs', target]
      exact named
    · rw [fs']
      simp
    · rw [method]
      exact
        ⟨by rw [datasets]; exact written.header,
          by rw [datasets]; exact written.distinct, written.storable⟩
  · refine ⟨imageIno, image, ?_, ?_, other, ?_⟩
    · rw [fs', target]
      exact named
    · rw [fs', node_put_of_ne same]
      exact stored
    · rw [method]
      exact written

theorem Published.released
    (published : Published platform sys c src pieces)
    (handle : H5Handle) (success : Bool)
    (fs' : sys'.fs = sys.released handle success)
    (target : c'.target = c.target) (method : c'.method = c.method) :
    Published platform sys' c' src pieces := by
  unfold Sys.released at fs'
  split at fs'
  · rename_i image _ node
    refine published.put ?_ fs' target method
    intro other stored _
    rw [node] at stored
    cases stored
    exact ⟨_, rfl, rfl⟩
  · rcases published with ⟨ino, image, named, stored, other, written⟩
    refine ⟨ino, image, ?_, ?_, other, ?_⟩
    · rw [fs', target]
      exact named
    · rw [fs']
      exact stored
    · rw [method]
      exact written

/-- A change of the source leaves the published image alone. -/
theorem Published.resize
    (published : Published platform sys c src pieces)
    (length : Nat) (fs' : sys'.fs = sys.resizeNode platform src length)
    (target : c'.target = c.target) (method : c'.method = c.method) :
    Published platform sys' c' src pieces :=
  published.put (fun _ _ different => (different rfl).elim) fs' target method

/-- The new temporary file is not the source. -/
theorem created_ne_source
    {fs fs' : FileSystem} {temp path : Names.CString} {ino : Ino}
    (created : Created fs temp ino fs')
    (source : fs.entry path = some src) (apart : fs.entry temp ≠ some src) :
    ino ≠ src := by
  cases created with
  | fresh absent => exact (FileSystem.entry_ne_fresh source).symm
  | emptied ino found unlocked =>
      rintro rfl
      exact apart found

theorem created_owns
    {fs fs' : FileSystem} {temp : Names.CString} {ino : Ino}
    (created : Created fs temp ino fs') :
    fs'.entry temp = some ino ∧ fs'.node ino = .image .created := by
  cases created with
  | fresh absent => simp
  | emptied ino found unlocked => simp [found]

/-- Adding a dataset through the converter's handle. -/
theorem Owns.addDataset
    {fs : FileSystem} {handles : Int → Option H5Handle} {target : Target}
    {h5fd : Int} {ino : Ino} {image : H5Image}
    (owns : Owns fs handles target h5fd src ino image)
    {handle : H5Handle} {stored : H5Image} (name : Dataset) (data : Bytes)
    (held : handles h5fd = some handle)
    (node : fs.node handle.ino = .image stored) :
    stored = image ∧
      Owns (fs.put handle.ino (.image (stored.addDataset name data)))
        handles target h5fd src ino (image.addDataset name data) := by
  have ours := owns.writing handle held
  rw [ours, owns.node] at node
  cases node
  refine ⟨rfl, ?_⟩
  rw [ours]
  exact
    { named := owns.named
      node := by simp
      other := owns.other
      writing := owns.writing }

/-- One step of the converter extends the pieces by what it reads. -/
theorem Stage.step
    (stage : Stage platform sys c src pieces)
    (source : sys.fs.entry c.target.path = some src)
    (moves : Moves platform sys c choice read sys' c') :
    Stage platform sys' c' src (pieces ++ read) := by
  cases moves with
  | looks next places =>
      rw [List.append_nil]
      rcases places with ⟨place, rfl⟩ | ⟨place, rfl⟩
      · simp only [Stage, place] at stage
        exact stage
      · simp only [Stage, place] at stage
        exact stage
  | fails earlier inside target method =>
      exact stage_out_failed earlier
  | opens number ino place free found =>
      simp only [Stage, place] at stage
      rcases stage with ⟨rfl, counted, apart⟩
      have same : ino = src := by
        rw [source] at found
        exact (Option.some.inj found).symm
      refine ⟨rfl, counted, apart, ?_⟩
      intro file held
      simp only [Process.setFd, Function.update_self, Option.some.injEq]
        at held
      subst held
      exact ⟨same, rfl⟩
  | creates number ino fs next place granted positive free created continues =>
      simp only [Stage, place] at stage
      rcases stage with ⟨rfl, counted, apart, reading⟩
      rcases continues with ⟨text, header, rfl⟩ | rfl
      · rcases created_owns created with ⟨named, node⟩
        refine ⟨rfl, counted, header, reading, ino, .created, ?_, rfl⟩
        exact
          { named := named
            node := node
            other := created_ne_source created source apart
            writing := by
              intro handle held
              simp only [Process.setHandle, Function.update_self,
                Option.some.injEq] at held
              rw [← held] }
      · exact stage_out_failed _
  | writesHeader text handle image place held stored =>
      simp only [Stage, place] at stage
      rcases stage with ⟨rfl, counted, header, reading, ino, mine, owns, empty⟩
      rcases owns.addDataset .algorithm text held stored with ⟨rfl, owns'⟩
      exact
        ⟨ino, _,
          { owns := owns'
            reading := reading
            written := written_header header empty
            counted := counted }⟩
  | reads buffer limit file place limited nonempty held data =>
      simp only [Stage, place] at stage
      rcases stage with ⟨ino, image, building⟩
      rcases building.reading file held with ⟨here, offset⟩
      have short : buffer.length ≤ H5_BUFSIZE := by
        rw [data, length_slice]
        omega
      refine ⟨ino, image, pieces, rfl, nonempty, short, ?_⟩
      exact
        { owns := building.owns
          reading := by
            intro other opened
            simp only [Process.setFd, Function.update_self,
              Option.some.injEq] at opened
            subst opened
            refine ⟨here, ?_⟩
            simp [offset]
          written := building.written
          counted := building.counted }
  | meetsEnd file place held ended =>
      rw [List.append_nil]
      simp only [Stage, place] at stage
      rcases stage with ⟨ino, image, owns, reading, written, counted⟩
      exact ⟨ino, image, owns, reading, written, counted⟩
  | compresses buffer dstdata place compressed =>
      rw [List.append_nil]
      simp only [Stage, place] at stage
      rcases stage with
        ⟨ino, image, stored, same, nonempty, short, owns, reading,
          written, counted⟩
      refine
        ⟨ino, image, stored, same, ?_, ?_, owns, reading, written, counted⟩
      · exact ⟨nonempty, short, by rw [compressed]; rfl⟩
      · exact block_of_compress_data compressed
  | writesBlock buffer dstdata handle image place held stored absent =>
      rw [List.append_nil]
      simp only [Stage, place] at stage
      rcases stage with ⟨ino, mine, earlier, same, storable, rfl, building⟩
      rcases
        building.owns.addDataset (.block (wrap32 c.count))
          (block platform.libs c.method buffer) held stored with
        ⟨rfl, owns'⟩
      have counted := building.counted
      rw [counted] at absent owns'
      exact
        ⟨ino, _,
          { owns := by rw [counted]; exact owns'
            reading := building.reading
            written := by
              rw [same]
              exact building.written.addBlock storable absent
            counted := by simp [same, counted] }⟩
  | publishes ino place found =>
      rw [List.append_nil]
      simp only [Stage, place] at stage
      rcases stage with ⟨mine, image, building⟩
      exact
        ⟨mine, image, by simp [building.owns.named], building.owns.node,
          building.owns.other, building.written⟩
  | sizes ino place found =>
      rw [List.append_nil]
      simp only [Stage, place] at stage
      exact stage
  | empties ino place granted found =>
      rw [List.append_nil]
      simp only [Stage, place] at stage
      rw [source] at found
      cases found
      exact Published.resize stage 0 rfl rfl rfl
  | regrows ino place found =>
      rw [List.append_nil]
      simp only [Stage, place] at stage
      rw [source] at found
      cases found
      refine stage_of_exiting (Convert.exiting_out _ _) fun _ => ?_
      exact
        Published.resize stage c.stSize rfl (Convert.target_out _ _)
          (Convert.method_out _ _)
  | closesSource place =>
      rw [List.append_nil]
      simp only [Stage, place] at stage
      refine stage_of_exiting (Convert.exiting_outImage _) fun zero => ?_
      rw [Convert.ret_outImage] at zero
      rcases stage zero with ⟨ino, image, named, node, other, written⟩
      exact
        ⟨ino, image, by rw [Convert.target_outImage]; exact named, node,
          other, by rw [Convert.method_outImage]; exact written⟩
  | closesImage handle place held =>
      rw [List.append_nil]
      simp only [Stage, place] at stage
      intro zero
      exact (stage zero).released handle _ rfl rfl rfl
  | closesNothing place lost =>
      rw [List.append_nil]
      simp only [Stage, place] at stage
      exact stage

/-- A change of the source by someone else leaves the converter's files alone. -/
theorem Stage.put_source
    (stage : Stage platform sys c src pieces) {node : Node}
    (fs' : sys'.fs = sys.fs.put src node) (proc' : sys'.proc = sys.proc) :
    Stage platform sys' c src pieces := by
  have owning :
      ∀ {ino image},
        Owns sys.fs sys.proc.handles c.target c.h5fd src ino image →
          Owns sys'.fs sys'.proc.handles c.target c.h5fd src ino image := by
    intro ino image owns
    exact
      { named := by rw [fs']; exact owns.named
        node := by rw [fs', node_put_of_ne owns.other, owns.node]
        other := owns.other
        writing := by rw [proc']; exact owns.writing }
  have building :
      ∀ {ino image stored offset},
        Building platform sys c src ino image stored offset →
          Building platform sys' c src ino image stored offset := by
    intro ino image stored offset building
    exact
      { owns := owning building.owns
        reading := by rw [proc']; exact building.reading
        written := building.written
        counted := building.counted }
  have published :
      Published platform sys c src pieces →
        Published platform sys' c src pieces := by
    intro published
    exact
      published.put (fun _ _ different => (different rfl).elim) fs' rfl rfl
  unfold Stage at stage ⊢
  cases place : c.pc with
  | statImage =>
      simp only [place] at stage ⊢
      rw [fs']
      exact stage
  | statTemp =>
      simp only [place] at stage ⊢
      rw [fs']
      exact stage
  | openSource =>
      simp only [place] at stage ⊢
      rw [fs']
      exact stage
  | createTemp =>
      simp only [place] at stage ⊢
      rw [fs', proc']
      exact stage
  | writeHeader text =>
      simp only [place] at stage ⊢
      rcases stage with
        ⟨none, counted, header, reading, ino, image, owns, empty⟩
      refine ⟨none, counted, header, ?_, ino, image, owning owns, empty⟩
      rw [proc']
      exact reading
  | readBlock =>
      simp only [place] at stage ⊢
      rcases stage with ⟨ino, image, before⟩
      exact ⟨ino, image, building before⟩
  | renameTemp =>
      simp only [place] at stage ⊢
      rcases stage with ⟨ino, image, before⟩
      exact ⟨ino, image, building before⟩
  | compressBlock buffer =>
      simp only [place] at stage ⊢
      rcases stage with ⟨ino, image, stored, same, nonempty, short, before⟩
      exact ⟨ino, image, stored, same, nonempty, short, building before⟩
  | writeBlock buffer dstdata =>
      simp only [place] at stage ⊢
      rcases stage with ⟨ino, image, stored, same, storable, compressed, before⟩
      exact ⟨ino, image, stored, same, storable, compressed, building before⟩
  | statSource =>
      simp only [place] at stage ⊢
      exact published stage
  | truncateZero =>
      simp only [place] at stage ⊢
      exact published stage
  | truncateSize =>
      simp only [place] at stage ⊢
      exact published stage
  | closeSource =>
      simp only [place] at stage ⊢
      exact fun zero => published (stage zero)
  | closeImage =>
      simp only [place] at stage ⊢
      exact fun zero => published (stage zero)
  | returned =>
      simp only [place] at stage ⊢
      exact fun zero => published (stage zero)

/-- A change of the database alone keeps the invariant. -/
theorem Stage.congr
    (stage : Stage platform sys c src pieces) (fs' : sys'.fs = sys.fs)
    (proc' : sys'.proc = sys.proc) :
    Stage platform sys' c src pieces := by
  have same : sys'.fs = sys.fs.put src (sys.fs.node src) := by
    rw [fs', FileSystem.put, Function.update_eq_self]
  exact stage.put_source same proc'

/-! ## The source -/

/-- The converter keeps its target and the name of the source. -/
theorem Moves.source
    (moves : Moves platform sys c choice read sys' c') :
    c'.target = c.target ∧ c'.method = c.method ∧
      sys'.fs.entry c.target.path = sys.fs.entry c.target.path := by
  have tempNe := c.target.temp_ne_path
  have imageNe := c.target.h5name_ne_path
  cases moves with
  | creates number ino fs next place granted positive free created continues =>
      refine ⟨?_, ?_, ?_⟩
      · rcases continues with ⟨text, header, rfl⟩ | rfl
        · rfl
        · simp
      · rcases continues with ⟨text, header, rfl⟩ | rfl
        · rfl
        · simp
      · cases created with
        | fresh absent => simp [tempNe.symm]
        | emptied ino found unlocked => simp
  | fails earlier inside target method =>
      exact
        ⟨by rw [Convert.target_out, target],
          by rw [Convert.method_out, method], rfl⟩
  | publishes ino place found => simp [tempNe.symm, imageNe.symm]
  | regrows ino place found => simp [Sys.resizeNode]
  | closesSource place => simp
  | closesImage handle place held =>
      refine ⟨rfl, rfl, ?_⟩
      simp only [Sys.released]
      split <;> simp
  | _ => exact ⟨rfl, rfl, rfl⟩

/-- What a step makes of the content of the source. -/
inductive SourceStep
    (c : Convert) (choice : Choice) (content : Bytes) :
    Bytes → Convert → Prop where
  | same
      {c' : Convert}
      (unsuccessful :
        c.pc = .truncateZero ∨ c.pc = .truncateSize →
          c'.pc.exiting = true ∧ c'.ret = -1) :
      SourceStep c choice content content c'
  | emptied (place : c.pc = .truncateZero) (granted : choice.fails = false) :
      SourceStep c choice content [] { c with pc := .truncateSize }
  | regrown (place : c.pc = .truncateSize) :
      SourceStep c choice content (resize 0 content c.stSize) (c.out 0)

/-- Only the two truncations change the source. -/
theorem Stage.source
    (stage : Stage platform sys c src pieces)
    (source : sys.fs.entry c.target.path = some src)
    {content : Bytes} (node : sys.fs.node src = .file content)
    (moves : Moves platform sys c choice read sys' c') :
    ∃ content',
      sys'.fs.node src = .file content' ∧
        SourceStep c choice content content' c' := by
  have elsewhere :
      c.pc ≠ .truncateZero → c.pc ≠ .truncateSize →
        SourceStep c choice content content c' := by
    intro notZero notSize
    exact .same fun place => (place.elim notZero notSize).elim
  cases moves with
  | looks next places =>
      refine ⟨content, node, elsewhere ?_ ?_⟩ <;>
        rcases places with ⟨place, _⟩ | ⟨place, _⟩ <;> simp [place]
  | fails earlier inside target method =>
      exact ⟨content, node, .same fun _ => by simp⟩
  | opens number ino place free found =>
      exact ⟨content, node, elsewhere (by simp [place]) (by simp [place])⟩
  | creates number ino fs next place granted positive free created continues =>
      simp only [Stage, place] at stage
      have other := created_ne_source created source stage.2.2.1
      refine
        ⟨content, ?_, elsewhere (by simp [place]) (by simp [place])⟩
      cases created with
      | fresh absent =>
          rw [FileSystem.node_link, Function.update_of_ne other.symm]
          exact node
      | emptied ino found unlocked =>
          rw [node_put_of_ne other.symm]
          exact node
  | writesHeader text handle image place held stored =>
      simp only [Stage, place] at stage
      rcases stage with ⟨_, _, _, _, ino, mine, owns, _⟩
      have other : src ≠ handle.ino := by
        rw [owns.writing handle held]
        exact owns.other.symm
      refine
        ⟨content, ?_, elsewhere (by simp [place]) (by simp [place])⟩
      rw [node_put_of_ne other]
      exact node
  | reads buffer limit file place limited nonempty held data =>
      exact ⟨content, node, elsewhere (by simp [place]) (by simp [place])⟩
  | meetsEnd file place held ended =>
      exact ⟨content, node, elsewhere (by simp [place]) (by simp [place])⟩
  | compresses buffer dstdata place compressed =>
      exact ⟨content, node, elsewhere (by simp [place]) (by simp [place])⟩
  | writesBlock buffer dstdata handle image place held stored absent =>
      simp only [Stage, place] at stage
      rcases stage with ⟨ino, mine, earlier, _, _, _, building⟩
      have other : src ≠ handle.ino := by
        rw [building.owns.writing handle held]
        exact building.owns.other.symm
      refine
        ⟨content, ?_, elsewhere (by simp [place]) (by simp [place])⟩
      rw [node_put_of_ne other]
      exact node
  | publishes ino place found =>
      exact ⟨content, node, elsewhere (by simp [place]) (by simp [place])⟩
  | sizes ino place found =>
      exact ⟨content, node, elsewhere (by simp [place]) (by simp [place])⟩
  | empties ino place granted found =>
      rw [source] at found
      cases found
      exact
        ⟨[], by simp [Sys.resizeNode, node], .emptied place granted⟩
  | regrows ino place found =>
      rw [source] at found
      cases found
      exact
        ⟨_, by simp [Sys.resizeNode, node, Node.bytes], .regrown place⟩
  | closesSource place =>
      exact ⟨content, node, elsewhere (by simp [place]) (by simp [place])⟩
  | closesImage handle place held =>
      refine
        ⟨content, ?_, elsewhere (by simp [place]) (by simp [place])⟩
      simp only [Sys.released]
      split
      · rename_i image _ imageNode
        have other : src ≠ handle.ino := by
          rintro rfl
          rw [node] at imageNode
          cases imageNode
        rw [node_put_of_ne other]
        exact node
      · exact node
  | closesNothing place lost =>
      exact ⟨content, node, elsewhere (by simp [place]) (by simp [place])⟩

/-! ## Copies of a content -/

/-- The converter has met the end of the source, and has not failed since. -/
def complete (c : Convert) : Bool :=
  match c.pc with
  | .renameTemp | .statSource | .truncateZero | .truncateSize => true
  | .closeSource | .closeImage | .returned => decide (c.ret = 0)
  | _ => false

/-- On the way out the return value tells. -/
theorem complete_of_exiting (exiting : c.pc.exiting = true) :
    complete c = decide (c.ret = 0) := by
  unfold complete
  cases place : c.pc <;> first
    | rfl
    | (rw [place] at exiting; cases exiting)

@[simp]
theorem complete_out_failed (earlier : Convert) :
    complete (earlier.out (-1)) = false := by
  rw [complete_of_exiting (Convert.exiting_out _ _), Convert.ret_out]
  rfl

/-- The pieces are a prefix of the content, and all of it at the end. -/
structure CopyOf (content : Bytes) (c : Convert) (pieces : List Bytes) :
    Prop where
  isPrefix : pieces.flatten <+: content
  whole : complete c = true → pieces.flatten = content

theorem copyOf_initial
    (content : Bytes) (target : Target) (method : Alg) (srcfd h5fd : Int) :
    CopyOf content (convert2h5 target method srcfd h5fd) [] where
  isPrefix := List.nil_prefix
  whole done := by cases done

/--
A step keeps a copy of `original` if a read sees what `original` holds from
the reader's offset on.
-/
theorem CopyOf.step
    {original content : Bytes}
    (copy : CopyOf original c pieces)
    (stage : Stage platform sys c src pieces)
    (bytes : (sys.fs.node src).bytes platform = content)
    (agrees :
      c.pc = .readBlock →
        content.drop pieces.flatten.length =
          original.drop pieces.flatten.length)
    (moves : Moves platform sys c choice read sys' c') :
    CopyOf original c' (pieces ++ read) := by
  have unchanged :
      (complete c' = true → complete c = true) →
        CopyOf original c' (pieces ++ []) := by
    intro earlier
    rw [List.append_nil]
    exact ⟨copy.isPrefix, fun done => copy.whole (earlier done)⟩
  cases moves with
  | looks next places =>
      refine unchanged ?_
      rcases places with ⟨place, rfl⟩ | ⟨place, rfl⟩ <;> simp [complete]
  | fails earlier inside target method => exact unchanged (by simp)
  | opens number ino place free found => exact unchanged (by simp [complete])
  | creates number ino fs next place granted positive free created continues =>
      refine unchanged ?_
      rcases continues with ⟨text, header, rfl⟩ | rfl
      · simp [complete]
      · simp
  | writesHeader text handle image place held stored =>
      exact unchanged (by simp [complete])
  | reads buffer limit file place limited nonempty held data =>
      simp only [Stage, place] at stage
      rcases stage with ⟨ino, image, building⟩
      rcases building.reading file held with ⟨here, offset⟩
      refine ⟨?_, by simp [complete]⟩
      rw [here, bytes, offset] at data
      have seen :
          buffer =
            slice original pieces.flatten.length (min limit H5_BUFSIZE) := by
        rw [data]
        exact slice_congr (agrees place) _
      have start := List.prefix_iff_eq_take.mp copy.isPrefix
      rw [List.flatten_append, List.flatten_singleton, seen]
      nth_rewrite 1 [start]
      rw [take_append_slice]
      exact List.take_prefix _ _
  | meetsEnd file place held ended =>
      simp only [Stage, place] at stage
      rcases stage with ⟨ino, image, building⟩
      rcases building.reading file held with ⟨here, offset⟩
      rw [here, bytes, offset] at ended
      rw [List.append_nil]
      refine ⟨copy.isPrefix, fun _ => ?_⟩
      have nothing : original.drop pieces.flatten.length = [] := by
        rw [← agrees place]
        exact List.drop_eq_nil_of_le ended
      have start := List.prefix_iff_eq_take.mp copy.isPrefix
      rw [start]
      exact List.take_of_length_le (List.drop_eq_nil_iff.mp nothing)
  | compresses buffer dstdata place compressed =>
      exact unchanged (by simp [complete])
  | writesBlock buffer dstdata handle image place held stored absent =>
      exact unchanged (by simp [complete])
  | publishes ino place found => exact unchanged (by simp [complete, place])
  | sizes ino place found => exact unchanged (by simp [complete, place])
  | empties ino place granted found =>
      exact unchanged (by simp [complete, place])
  | regrows ino place found => exact unchanged (by simp [complete, place])
  | closesSource place =>
      refine unchanged ?_
      rw [complete_of_exiting (Convert.exiting_outImage c),
        complete_of_exiting (by rw [place]; rfl), Convert.ret_outImage]
      exact id
  | closesImage handle place held =>
      exact unchanged (by simp [complete, place])
  | closesNothing place lost => exact unchanged (by simp [complete, place])

/-- A converter that has left the intact places does not return to them. -/
theorem intact_of_moves
    (moves : Moves platform sys c choice read sys' c')
    (intact : c'.pc.intact = true) :
    c.pc.intact = true := by
  have leaves : c'.pc.exiting = true → c.pc.intact = true := by
    intro exiting
    cases place : c'.pc <;> rw [place] at exiting intact <;>
      first
      | exact (Bool.false_ne_true exiting).elim
      | exact (Bool.false_ne_true intact).elim
  cases moves with
  | looks next places =>
      rcases places with ⟨place, _⟩ | ⟨place, _⟩ <;> rw [place] <;> rfl
  | fails earlier inside target method => exact leaves (Convert.exiting_out _ _)
  | regrows ino place found => exact leaves (Convert.exiting_out _ _)
  | closesSource place => exact leaves (Convert.exiting_outImage _)
  | closesImage handle place held => cases intact
  | closesNothing place lost => cases intact
  | empties ino place granted found => cases intact
  | opens number ino place free found => rw [place]; rfl
  | creates number ino fs next place granted positive free created continues =>
      rw [place]
      rfl
  | writesHeader text handle image place held stored => rw [place]; rfl
  | reads buffer limit file place limited nonempty held data =>
      rw [place]
      rfl
  | meetsEnd file place held ended => rw [place]; rfl
  | compresses buffer dstdata place compressed => rw [place]; rfl
  | writesBlock buffer dstdata handle image place held stored absent =>
      rw [place]
      rfl
  | publishes ino place found => rw [place]; rfl
  | sizes ino place found => rw [place]; rfl

/-- The size recorded before the truncation is that of the source. -/
theorem stSize_of_moves
    {size : Nat} (source : sys.fs.entry c.target.path = some src)
    (bytes :
      c.pc.intact = true →
        ((sys.fs.node src).bytes platform).length = size)
    (sized :
      c.pc = .truncateZero ∨ c.pc = .truncateSize → c.stSize = size)
    (moves : Moves platform sys c choice read sys' c')
    (place : c'.pc = .truncateZero ∨ c'.pc = .truncateSize) :
    c'.stSize = size := by
  have notExiting : c'.pc.exiting = false := by
    rcases place with place | place <;> rw [place] <;> rfl
  cases moves with
  | looks next places =>
      rcases places with ⟨_, rfl⟩ | ⟨_, rfl⟩ <;> simp at place
  | fails earlier inside target method => simp at notExiting
  | creates number ino fs next before granted positive free created continues =>
      rcases continues with ⟨text, header, rfl⟩ | rfl
      · simp at place
      · simp at notExiting
  | sizes ino before found =>
      rw [source] at found
      cases found
      apply bytes
      rw [before]
      rfl
  | empties ino before granted found => exact sized (Or.inl before)
  | regrows ino before found => simp at notExiting
  | closesSource before => simp at notExiting
  | _ => simp at place

/-- Nothing leads back from the way out, and the return value stands. -/
theorem leaving_of_moves
    (moves : Moves platform sys c choice read sys' c')
    (leaving : c.pc.exiting = true) :
    c'.pc.exiting = true ∧ c'.ret = c.ret := by
  have elsewhere :
      ∀ {pc : Pc}, c.pc = pc → pc.exiting = false → False := by
    intro pc place before
    rw [place, before] at leaving
    cases leaving
  cases moves with
  | looks next places =>
      rcases places with ⟨place, _⟩ | ⟨place, _⟩
      · exact (elsewhere place rfl).elim
      · exact (elsewhere place rfl).elim
  | fails earlier inside target method =>
      rw [leaving] at inside
      cases inside
  | regrows ino place found => exact (elsewhere place rfl).elim
  | closesSource place =>
      exact ⟨Convert.exiting_outImage _, Convert.ret_outImage _⟩
  | closesImage handle place held => exact ⟨rfl, rfl⟩
  | closesNothing place lost => exact ⟨rfl, rfl⟩
  | opens number ino place free found => exact (elsewhere place rfl).elim
  | creates number ino fs next place granted positive free created continues =>
      exact (elsewhere place rfl).elim
  | writesHeader text handle image place held stored =>
      exact (elsewhere place rfl).elim
  | reads buffer limit file place limited nonempty held data =>
      exact (elsewhere place rfl).elim
  | meetsEnd file place held ended => exact (elsewhere place rfl).elim
  | compresses buffer dstdata place compressed =>
      exact (elsewhere place rfl).elim
  | writesBlock buffer dstdata handle image place held stored absent =>
      exact (elsewhere place rfl).elim
  | publishes ino place found => exact (elsewhere place rfl).elim
  | sizes ino place found => exact (elsewhere place rfl).elim
  | empties ino place granted found => exact (elsewhere place rfl).elim

/-- A converter whose source nobody else changes. -/
structure Undisturbed
    (platform : Platform) (content : Bytes) (sys : Sys) (c : Convert)
    (src : Ino) (pieces : List Bytes) : Prop where
  source : sys.fs.entry c.target.path = some src
  node :
    ∃ now, sys.fs.node src = .file now ∧
      (c.pc.intact = true → now = content)
  stage : Stage platform sys c src pieces
  copy : CopyOf content c pieces

theorem undisturbed_initial
    {target : Target} {content : Bytes}
    (unconverted : Unconverted sys.fs target src content)
    (method : Alg) (srcfd h5fd : Int) :
    Undisturbed platform content sys
      (convert2h5 target method srcfd h5fd) src [] where
  source := unconverted.source
  node := ⟨content, unconverted.node, fun _ => rfl⟩
  stage := stage_initial unconverted method srcfd h5fd
  copy := copyOf_initial content target method srcfd h5fd

/-- A change of the database alone does not disturb the converter. -/
theorem Undisturbed.congr
    {content : Bytes}
    (undisturbed : Undisturbed platform content sys c src pieces)
    (fs' : sys'.fs = sys.fs) (proc' : sys'.proc = sys.proc) :
    Undisturbed platform content sys' c src pieces where
  source := by
    rw [fs']
    exact undisturbed.source
  node := by
    rw [fs']
    exact undisturbed.node
  stage := undisturbed.stage.congr fs' proc'
  copy := undisturbed.copy

/-- Every step of the converter keeps its copy faithful. -/
theorem Undisturbed.step
    {content : Bytes}
    (undisturbed : Undisturbed platform content sys c src pieces)
    (moves : Moves platform sys c choice read sys' c') :
    Undisturbed platform content sys' c' src (pieces ++ read) := by
  rcases Moves.source moves with ⟨target, _, sameEntry⟩
  rcases undisturbed.node with ⟨now, node, untouched⟩
  have bytes : (sys.fs.node src).bytes platform = now := by
    rw [node]
    rfl
  exact
    { source := by rw [target, sameEntry, undisturbed.source]
      node := by
        rcases undisturbed.stage.source undisturbed.source node moves with
          ⟨now', node', change⟩
        refine ⟨now', node', fun intact => ?_⟩
        have before := intact_of_moves moves intact
        cases change with
        | same unsuccessful => exact untouched before
        | emptied place granted => cases intact
        | regrown place =>
            rw [place] at before
            cases before
      stage := undisturbed.stage.step undisturbed.source moves
      copy :=
        undisturbed.copy.step undisturbed.stage bytes
          (by
            intro place
            rw [untouched (by rw [place]; rfl)])
          moves }

/-- The published image decodes to the pieces. -/
theorem Published.decodes
    (published : Published platform sys c src pieces) :
    ∃ image,
      sys.fs.lookup c.target.h5name = some (.image image) ∧
        image.decode platform.libs c.method = some pieces.flatten := by
  rcases published with ⟨ino, image, named, node, _, written⟩
  rcases written.header with ⟨text, _, datasets⟩
  exact
    ⟨image, by rw [FileSystem.lookup, named, Option.map_some, node],
      decode_of_layout datasets written.storable⟩

/-- The header written for zstd is recognised by the reader. -/
theorem getAlgorithm_of_version
    {libs : Libs} {image : H5Image} {text : Bytes}
    (header : version libs .DZ_ALG_ZSTD = some text)
    (stored : image.dataset .algorithm = some text) :
    getAlgorithm image = .DZ_ALG_ZSTD := by
  have digits := libs.zstd.length_versionString_lt
  have written := (version_eq_header libs .DZ_ALG_ZSTD).symm.trans header
  have short : text.length < ZIP_VERSION := by
    cases written
    have shorter :
        (libs.zstd.versionString.takeWhile (· ≠ 0)).length ≤
          libs.zstd.versionString.length :=
      (List.takeWhile_prefix _).length_le
    show
      (libs.zstd.versionString.takeWhile (· ≠ 0)).length + 1 + 4 < 1024
    omega
  exact getAlgorithm_of_header written short stored

/-- Pieces that are the chunks of a content are held for the reader. -/
theorem Written.holds
    {libs : Libs} {image : H5Image} {content : Bytes} {pieces : List Bytes}
    (written : Written libs .DZ_ALG_ZSTD image pieces)
    (strided : Strided content pieces) (whole : pieces.flatten = content) :
    Holds libs image content := by
  rcases written.header with ⟨text, header, datasets⟩
  refine ⟨?_, ?_⟩
  · refine getAlgorithm_of_version header ?_
    rw [H5Image.dataset, datasets, layout]
    exact List.lookup_cons_self
  · intro number inside
    have found :=
      dataset_of_layout datasets written.distinct
        (strided.getElem? whole inside)
    rwa [block_zstd (chunk_ne_nil inside)] at found

end DZFile.Staging
