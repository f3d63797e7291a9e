import DZFile.HiddenNames
import DZFile.Publishing
import DZFile.Reaching

/-!
# What a whole conversion does to a store

A store is settled if every path that has a hidden image keeps a placeholder
of the size of the content the image decodes to.  A conversion that returns 0
settles its own path; it leaves every other path settled unless it takes an
image for its source or the placeholder of another path for its temporary
file.
-/

namespace DZFile.Conversion

open DZFile.ByteSeq
open DZFile.Names
open DZFile.Codec
open DZFile.Image
open DZFile.Kernel
open DZFile.Layout
open DZFile.Converter
open DZFile.Staging
open DZFile.Publishing
open DZFile.Reaching
open DZFile.HiddenNames

/-! ## Settled stores -/

/-- The name is that of the hidden image of some path. -/
def IsImageName (name : CString) : Prop :=
  ∃ target : Target, target.h5name = name

/-- The path has a hidden image. -/
def Converted (fs : FileSystem) (path : CString) : Prop :=
  ∃ target : Target, target.path = path ∧ fs.entry target.h5name ≠ none

/-- The blocks decode to the content by the method the header names. -/
def Decodes (libs : Libs) (image : H5Image) (content : Bytes) : Prop :=
  ∃ method text,
    version libs method = some text ∧
      image.dataset .algorithm = some text ∧
        image.decode libs method = some content

/-- The visible file has the size of the content of the image. -/
structure Paired (libs : Libs) (fs : FileSystem) (target : Target) :
    Prop where
  plain : ¬ IsImageName target.path
  files :
    ∃ src placeholder ino image content,
      fs.entry target.path = some src ∧
        fs.node src = .file placeholder ∧
          fs.entry target.h5name = some ino ∧
            fs.node ino = .image image ∧
              Decodes libs image content ∧
                placeholder.length = content.length

/-- Files have one name, and every image belongs to a placeholder. -/
structure Settled (libs : Libs) (fs : FileSystem) : Prop where
  oneName : OneName fs
  paired :
    ∀ target : Target, fs.entry target.h5name ≠ none →
      Paired libs fs target

/-- What other parties may do to an inode that belongs to a settled path. -/
inductive Keeps : Node → Node → Prop where
  | same (node : Node) : Keeps node node
  | released (image : H5Image) (writer closed : Bool) :
      Keeps (.image image)
        (.image { image with writer := writer, closed := closed })

section Frames

variable {libs : Libs} {fs fs' : FileSystem} {target : Target}

/-- The written image decodes to its pieces. -/
theorem decodes_of_written
    {method : Alg} {image : H5Image} {pieces : List Bytes}
    (written : Written libs method image pieces) :
    Decodes libs image pieces.flatten := by
  rcases written.header with ⟨text, header, datasets⟩
  refine ⟨method, text, header, ?_, ?_⟩
  · rw [H5Image.dataset, datasets, layout]
    exact List.lookup_cons_self
  · exact decode_of_layout datasets written.storable

/-- The header tells the methods of the storing libraries apart. -/
theorem decode_of_decodes_storing
    {image : H5Image} {content : Bytes}
    (stored :
      image.dataset .algorithm = version storingLibs .DZ_ALG_ZSTD)
    (decodes : Decodes storingLibs image content) :
    image.decode storingLibs .DZ_ALG_ZSTD = some content := by
  rcases decodes with ⟨method, text, header, found, decoded⟩
  rw [stored, ← header] at found
  cases method with
  | DZ_ALG_ZLIB =>
      have different :
          version storingLibs .DZ_ALG_ZSTD ≠
            version storingLibs .DZ_ALG_ZLIB := by
        decide
      exact (different found).elim
  | DZ_ALG_ZSTD => exact decoded
  | DZ_ALG_ISAL => cases header
  | DZ_ALG_FPGA => cases header
  | DZ_ALG_UNKOWN => cases header

/-- A settled path stays so while its two names and their inodes are kept. -/
theorem Paired.transfer
    (paired : Paired libs fs target)
    (path : fs'.entry target.path = fs.entry target.path)
    (h5name : fs'.entry target.h5name = fs.entry target.h5name)
    (keeps :
      ∀ ino,
        fs.entry target.path = some ino ∨ fs.entry target.h5name = some ino →
          Keeps (fs.node ino) (fs'.node ino)) :
    Paired libs fs' target := by
  rcases paired.files with
    ⟨src, placeholder, ino, image, content, source, srcNode, named, imageNode,
      decodes, size⟩
  have srcKept := keeps src (Or.inl source)
  have imageKept := keeps ino (Or.inr named)
  rw [srcNode] at srcKept
  rw [imageNode] at imageKept
  refine ⟨paired.plain, src, placeholder, ino, ?_⟩
  rw [path, h5name]
  generalize fs'.node src = srcNode' at srcKept ⊢
  generalize fs'.node ino = imageNode' at imageKept ⊢
  cases srcKept with
  | same node =>
      cases imageKept with
      | same node =>
          exact
            ⟨image, content, source, rfl, named, rfl, decodes, size⟩
      | released image' writer closed =>
          exact
            ⟨_, content, source, rfl, named, rfl, decodes, size⟩

end Frames

/-! ## What a step of the converter keeps -/

section Steps

variable
    {platform : Platform} {sys sys' : Sys} {c c' : Convert} {src : Ino}
    {choice : Choice} {pieces read : List Bytes} {content : Bytes}

theorem oneName_of_step
    (oneName : OneName sys.fs)
    (stepped : c.step platform sys choice = some (sys', c')) :
    OneName sys'.fs := by
  rcases Interaction.advance_eq_some.mp stepped with
    ⟨op, next, reply, _, called, _⟩
  have names := entryStep_of_kernel called
  exact oneName.step names

/-- Closing a handle keeps every node. -/
theorem keeps_released
    (handle : H5Handle) (success : Bool) (ino : Ino) :
    Keeps (sys.fs.node ino) ((sys.released handle success).node ino) := by
  unfold Sys.released
  split
  · rename_i image _ node
    by_cases same : ino = handle.ino
    · rw [same, node, FileSystem.node_put, Function.update_self]
      exact .released image false success
    · rw [node_put_of_ne same]
      exact .same _
  · exact .same _

/-- A step changes the source and the temporary file only. -/
theorem keeps_of_moves
    (stage : Stage platform sys c src pieces)
    (source : sys.fs.entry c.target.path = some src)
    (moves : Moves platform sys c choice read sys' c')
    {name : CString} {ino : Ino} (named : sys.fs.entry name = some ino)
    (notSource : ino ≠ src)
    (notTemp : sys.fs.entry c.target.temp ≠ some ino) :
    Keeps (sys.fs.node ino) (sys'.fs.node ino) := by
  have elsewhere :
      ∀ {other : Ino} {node : Node}, ino ≠ other →
        Keeps (sys.fs.node ino) ((sys.fs.put other node).node ino) := by
    intro other node different
    rw [node_put_of_ne different]
    exact .same _
  have apart :
      ∀ {mine : Ino}, sys.fs.entry c.target.temp = some mine →
        ino ≠ mine := by
    rintro mine found rfl
    exact notTemp found
  cases moves with
  | creates number mine fs next place granted positive free created continues =>
      cases created with
      | fresh absent =>
          show Keeps _ (Function.update sys.fs.node _ _ ino)
          rw [Function.update_of_ne (FileSystem.entry_ne_fresh named)]
          exact .same _
      | emptied _ found unlocked => exact elsewhere (apart found)
  | writesHeader text handle image place held stored =>
      simp only [Stage, place] at stage
      rcases stage with ⟨_, _, _, _, mine, _, owns, _⟩
      apply elsewhere
      rw [owns.writing handle held]
      exact apart owns.named
  | writesBlock buffer dstdata handle image place held stored absent =>
      simp only [Stage, place] at stage
      rcases stage with ⟨mine, _, _, _, _, _, building⟩
      apply elsewhere
      rw [building.owns.writing handle held]
      exact apart building.owns.named
  | empties other place granted found =>
      rw [source] at found
      cases found
      exact elsewhere notSource
  | regrows other place found =>
      rw [source] at found
      cases found
      exact elsewhere notSource
  | closesImage handle place held => exact keeps_released handle _ ino
  | _ => exact .same _

/-- Before the first truncation nothing changes the source. -/
theorem node_of_intact
    (stage : Stage platform sys c src pieces)
    (source : sys.fs.entry c.target.path = some src)
    (moves : Moves platform sys c choice read sys' c')
    (intact : c'.pc.intact = true) :
    sys'.fs.node src = sys.fs.node src := by
  have notOut :
      ∀ {earlier : Convert} {ret : Int},
        (earlier.out ret).pc.intact = true → False := by
    intro earlier ret stillIntact
    have exiting := Convert.exiting_out earlier ret
    cases place : (earlier.out ret).pc <;>
      rw [place] at exiting stillIntact <;> first
      | exact (Bool.false_ne_true exiting).elim
      | exact (Bool.false_ne_true stillIntact).elim
  cases moves with
  | creates number ino fs next place granted positive free created continues =>
      simp only [Stage, place] at stage
      have other := created_ne_source created source stage.2.2.1
      cases created with
      | fresh absent =>
          show Function.update sys.fs.node _ _ src = _
          rw [Function.update_of_ne other.symm]
      | emptied _ found unlocked => exact node_put_of_ne other.symm
  | writesHeader text handle image place held stored =>
      simp only [Stage, place] at stage
      rcases stage with ⟨_, _, _, _, mine, _, owns, _⟩
      have other : src ≠ handle.ino := by
        rw [owns.writing handle held]
        exact owns.other.symm
      exact node_put_of_ne other
  | writesBlock buffer dstdata handle image place held stored absent =>
      simp only [Stage, place] at stage
      rcases stage with ⟨mine, _, _, _, _, _, building⟩
      have other : src ≠ handle.ino := by
        rw [building.owns.writing handle held]
        exact building.owns.other.symm
      exact node_put_of_ne other
  | empties ino place granted found => cases intact
  | regrows ino place found => exact (notOut intact).elim
  | closesImage handle place held => cases intact
  | _ => rfl

/-- The source has the size it had, and the converter returns 0. -/
def Filled (sys : Sys) (c : Convert) (src : Ino) (size : Nat) : Prop :=
  c.pc.exiting = true → c.ret = 0 →
    ∃ placeholder, sys.fs.node src = .file placeholder ∧
      placeholder.length = size

/-- The size recorded before the truncation is that of the source. -/
def Sized (c : Convert) (size : Nat) : Prop :=
  c.pc = .truncateZero ∨ c.pc = .truncateSize → c.stSize = size

theorem Sized.step
    (sized : Sized c content.length)
    (source : sys.fs.entry c.target.path = some src)
    (bytes :
      c.pc.intact = true → (sys.fs.node src).bytes platform = content)
    (moves : Moves platform sys c choice read sys' c') :
    Sized c' content.length := by
  intro place
  apply stSize_of_moves source _ sized moves place
  intro intact
  rw [bytes intact]

theorem Filled.step
    {size : Nat} (filled : Filled sys c src size) (sized : Sized c size)
    (source : sys.fs.entry c.target.path = some src)
    (moves : Moves platform sys c choice read sys' c') :
    Filled sys' c' src size := by
  intro exiting zero
  cases moves with
  | looks next places =>
      rcases places with ⟨_, rfl⟩ | ⟨_, rfl⟩ <;> cases exiting
  | fails earlier inside target method =>
      rw [Convert.ret_out] at zero
      cases zero
  | creates number ino fs next place granted positive free created continues =>
      rcases continues with ⟨text, header, rfl⟩ | rfl
      · cases exiting
      · rw [Convert.ret_out] at zero
        cases zero
  | regrows ino place found =>
      rw [source] at found
      cases found
      refine ⟨_, Function.update_self .., ?_⟩
      rw [length_resize]
      exact sized (Or.inr place)
  | closesSource place =>
      rw [Convert.ret_outImage] at zero
      exact filled (by rw [place]; rfl) zero
  | closesImage handle place held =>
      rcases filled (by rw [place]; rfl) zero with
        ⟨placeholder, node, length⟩
      have kept :=
        @keeps_released sys handle (!choice.fails) src
      rw [node] at kept
      refine ⟨placeholder, ?_, length⟩
      show (sys.released handle (!choice.fails)).node src = _
      generalize (sys.released handle (!choice.fails)).node src = after
        at kept ⊢
      cases kept with
      | same node => rfl
  | closesNothing place lost => exact filled (by rw [place]; rfl) zero
  | _ => cases exiting

end Steps

/-! ## Whole conversions -/

section Runs

variable
    {platform : Platform} {sys sys' : Sys} {c c' : Convert} {src : Ino}
    {choice : Choice} {pieces read : List Bytes} {content : Bytes}
    {target : Target}

/-- The other paths are settled and cannot be met. -/
structure Elsewhere
    (libs : Libs) (fs : FileSystem) (target : Target) : Prop where
  oneName : OneName fs
  plain : ¬ IsImageName target.path
  spare : ¬ Converted fs target.temp
  others :
    ∀ other : Target, other.path ≠ target.path →
      fs.entry other.h5name ≠ none → Paired libs fs other

/-- What holds on the way of a conversion. -/
structure Midway
    (platform : Platform) (content : Bytes) (sys : Sys) (c : Convert)
    (src : Ino) (pieces : List Bytes) : Prop where
  elsewhere : Elsewhere platform.libs sys.fs c.target
  source : sys.fs.entry c.target.path = some src
  stage : Stage platform sys c src pieces
  copy : CopyOf content c pieces
  whole : c.pc.intact = true → (sys.fs.node src).bytes platform = content
  sized : Sized c content.length
  filled : Filled sys c src content.length

/-- A step of the converter leaves the names of other paths alone. -/
theorem entry_of_nameStep
    {fs fs' : FileSystem} (names : NameStep fs fs' c choice)
    {name : CString} (notTemp : name ≠ c.target.temp)
    (notImage : name ≠ c.target.h5name) :
    fs'.entry name = fs.entry name := by
  cases names with
  | same entry => rw [entry]
  | creates place granted entry =>
      rw [entry, Function.update_of_ne notTemp]
  | publishes ino found entry =>
      rw [entry, Function.update_of_ne notImage,
        Function.update_of_ne notTemp]

/-- A step of the converter keeps the other paths settled. -/
theorem Elsewhere.step
    (elsewhere : Elsewhere platform.libs sys.fs c.target)
    (stage : Stage platform sys c src pieces)
    (source : sys.fs.entry c.target.path = some src)
    (oneName : OneName sys'.fs)
    (moves : Moves platform sys c choice read sys' c') :
    Elsewhere platform.libs sys'.fs c'.target := by
  have names := nameStep_of_moves moves
  have image :
      ∀ other : Target, other.path ≠ c.target.path →
        sys'.fs.entry other.h5name = sys.fs.entry other.h5name := by
    intro other different
    apply entry_of_nameStep names
    · exact h5name_ne_temp other c.target
    · intro same
      exact different (h5name_injective same)
  rw [(Moves.source moves).1]
  refine ⟨oneName, elsewhere.plain, ?_, ?_⟩
  · rintro ⟨other, isTemp, present⟩
    have different : other.path ≠ c.target.path := by
      rw [isTemp]
      exact c.target.temp_ne_path
    rw [image other different] at present
    exact elsewhere.spare ⟨other, isTemp, present⟩
  · intro other different present
    rw [image other different] at present
    have paired := elsewhere.others other different present
    have pathNotTemp : other.path ≠ c.target.temp := by
      intro isTemp
      exact elsewhere.spare ⟨other, isTemp, present⟩
    have path : sys'.fs.entry other.path = sys.fs.entry other.path := by
      apply entry_of_nameStep names pathNotTemp
      intro same
      exact paired.plain ⟨c.target, same.symm⟩
    apply paired.transfer path (image other different)
    intro ino found
    -- The inode has one name, and that is neither the source nor the
    -- temporary file.
    have unmet :
        ∀ name, sys.fs.entry name = some ino →
          name ≠ c.target.path → name ≠ c.target.temp →
            Keeps (sys.fs.node ino) (sys'.fs.node ino) := by
      intro name named notPath notTemp
      refine keeps_of_moves stage source moves named ?_ ?_
      · rintro rfl
        exact notPath (elsewhere.oneName _ _ ino named source)
      · intro temp
        exact notTemp (elsewhere.oneName _ _ ino named temp)
    rcases found with named | named
    · exact unmet _ named different pathNotTemp
    · refine unmet _ named ?_ (h5name_ne_temp other c.target)
      intro same
      exact elsewhere.plain ⟨other, same⟩

theorem Midway.step
    (midway : Midway platform content sys c src pieces)
    (stepped : c.step platform sys choice = some (sys', c')) :
    ∃ read, Midway platform content sys' c' src (pieces ++ read) := by
  rcases moves_of_step stepped with ⟨read, moves⟩
  have oneName := oneName_of_step midway.elsewhere.oneName stepped
  rcases Moves.source moves with ⟨target, _, sameEntry⟩
  refine ⟨read, ?_⟩
  constructor
  · exact
      midway.elsewhere.step midway.stage midway.source oneName moves
  · rw [target, sameEntry]
    exact midway.source
  · exact midway.stage.step midway.source moves
  · refine midway.copy.step midway.stage rfl ?_ moves
    intro place
    rw [midway.whole (by rw [place]; rfl)]
  · intro intact
    rw [node_of_intact midway.stage midway.source moves intact]
    exact midway.whole (intact_of_moves moves intact)
  · exact midway.sized.step midway.source midway.whole moves
  · exact midway.filled.step midway.sized midway.source moves

/-- Without a source the converter never gets beyond the `open`. -/
def Sourceless (state : Sys × Convert) : Prop :=
  state.1.fs.entry state.2.target.path = none ∧
    (state.2.pc = .statImage ∨ state.2.pc = .statTemp ∨
        state.2.pc = .openSource ∨
      state.2.pc.exiting = true ∧ state.2.ret = -1)

theorem Sourceless.step
    {state next : Sys × Convert} (sourceless : Sourceless state)
    (stepped : soloStep platform state choice = some next) :
    Sourceless next := by
  rcases state with ⟨sys, c⟩
  rcases next with ⟨sys', c'⟩
  rcases sourceless with ⟨absent, place⟩
  change sys.fs.entry c.target.path = none at absent
  rcases moves_of_step stepped with ⟨read, moves⟩
  rcases Moves.source moves with ⟨target, _, sameEntry⟩
  refine ⟨?_, ?_⟩
  · show sys'.fs.entry c'.target.path = none
    rw [target, sameEntry]
    exact absent
  · have before :
        ∀ {pc : Pc}, c.pc = pc → pc ≠ .statImage → pc ≠ .statTemp →
          pc ≠ .openSource → pc.exiting = true ∧ c.ret = -1 := by
      rintro pc rfl notFirst notSecond notThird
      rcases place with first | second | third | out
      · exact (notFirst first).elim
      · exact (notSecond second).elim
      · exact (notThird third).elim
      · exact out
    show
      c'.pc = .statImage ∨ c'.pc = .statTemp ∨ c'.pc = .openSource ∨
        c'.pc.exiting = true ∧ c'.ret = -1
    cases moves with
    | looks next places =>
        rcases places with ⟨_, rfl⟩ | ⟨_, rfl⟩
        · exact Or.inr (Or.inl rfl)
        · exact Or.inr (Or.inr (Or.inl rfl))
    | fails earlier inside target method => simp
    | opens number ino here free found =>
        rw [absent] at found
        cases found
    | creates number ino fs next here granted positive free created continues =>
        cases (before here (by simp) (by simp) (by simp)).1
    | closesSource here =>
        have out := before here (by simp) (by simp) (by simp)
        simp [out.2]
    | closesImage handle here held =>
        have out := before here (by simp) (by simp) (by simp)
        exact Or.inr (Or.inr (Or.inr ⟨rfl, out.2⟩))
    | closesNothing here lost =>
        have out := before here (by simp) (by simp) (by simp)
        exact Or.inr (Or.inr (Or.inr ⟨rfl, out.2⟩))
    | regrows ino here found =>
        rw [absent] at found
        cases found
    | writesHeader text handle image here held stored =>
        cases (before here (by simp) (by simp) (by simp)).1
    | reads buffer limit file here limited nonempty held data =>
        cases (before here (by simp) (by simp) (by simp)).1
    | meetsEnd file here held ended =>
        cases (before here (by simp) (by simp) (by simp)).1
    | compresses buffer dstdata here compressed =>
        cases (before here (by simp) (by simp) (by simp)).1
    | writesBlock buffer dstdata handle image here held stored unused =>
        cases (before here (by simp) (by simp) (by simp)).1
    | publishes ino here found =>
        cases (before here (by simp) (by simp) (by simp)).1
    | sizes ino here found =>
        cases (before here (by simp) (by simp) (by simp)).1
    | empties ino here granted found =>
        cases (before here (by simp) (by simp) (by simp)).1

/-- A conversion that returns 0 has a source. -/
theorem source_of_succeeded
    {method : Alg} {srcfd h5fd : Int} {choices : List Choice}
    {final : Sys × Convert}
    (ran :
      Transition.run (soloStep platform)
          (sys, convert2h5 target method srcfd h5fd) choices = some final)
    (succeeded : Succeeded final.2) :
    ∃ src, sys.fs.entry target.path = some src := by
  rcases source : sys.fs.entry target.path with _ | src
  · have start :
        Sourceless (sys, convert2h5 target method srcfd h5fd) :=
      ⟨source, Or.inl rfl⟩
    rcases
      Transition.run_invariant Sourceless (fun _ _ _ => Sourceless.step)
        start ran with
      ⟨_, places⟩
    rcases succeeded with ⟨returned, zero⟩
    rw [returned, zero] at places
    rcases places with place | place | place | ⟨_, failed⟩
    · cases place
    · cases place
    · cases place
    · cases failed
  · exact ⟨src, rfl⟩

/-- A conversion that meets no settled path leaves the store settled. -/
theorem settled_of_succeeded
    {method : Alg} {srcfd h5fd : Int} {choices : List Choice}
    {final : Sys × Convert} (settled : Settled platform.libs sys.fs)
    (plain : ¬ IsImageName target.path)
    (spare : ¬ Converted sys.fs target.temp)
    (ran :
      Transition.run (soloStep platform)
          (sys, convert2h5 target method srcfd h5fd) choices = some final)
    (succeeded : Succeeded final.2) :
    Settled platform.libs final.1.fs := by
  rcases source_of_succeeded ran succeeded with ⟨src, source⟩
  have apart : sys.fs.entry target.temp ≠ some src := by
    intro same
    exact target.temp_ne_path (settled.oneName _ _ src same source)
  have start :
      Midway platform ((sys.fs.node src).bytes platform) sys
        (convert2h5 target method srcfd h5fd) src [] := by
    constructor
    · exact
        ⟨settled.oneName, plain, spare,
          fun other _ present => settled.paired other present⟩
    · exact source
    · exact ⟨rfl, rfl, apart⟩
    · exact copyOf_initial _ target method srcfd h5fd
    · intro _
      rfl
    · rintro (place | place) <;> cases place
    · intro exiting
      cases exiting
  have ends :
      ∃ pieces,
        final.2.target = target ∧
          Midway platform ((sys.fs.node src).bytes platform) final.1 final.2
            src pieces := by
    refine
      Transition.run_invariant
        (fun state : Sys × Convert =>
          ∃ pieces, state.2.target = target ∧
            Midway platform ((sys.fs.node src).bytes platform) state.1
              state.2 src pieces)
        ?_ ⟨[], rfl, start⟩ ran
    rintro ⟨before, c⟩ choice ⟨after, c'⟩ ⟨pieces, sameTarget, midway⟩
      stepped
    rcases moves_of_step stepped with ⟨_, moves⟩
    rcases midway.step stepped with ⟨read, later⟩
    exact
      ⟨pieces ++ read, (Moves.source moves).1.trans sameTarget, later⟩
  rcases ends with ⟨pieces, sameTarget, midway⟩
  have stage := midway.stage
  have whole := midway.copy.whole (by simp [complete, succeeded.1, succeeded.2])
  rcases succeeded with ⟨returned, zero⟩
  simp only [Stage, returned] at stage
  rcases stage zero with ⟨ino, image, named, node, _, written⟩
  rcases midway.filled (by rw [returned]; rfl) zero with
    ⟨placeholder, srcNode, size⟩
  have decodes := decodes_of_written written
  rw [whole] at decodes
  have elsewhere := midway.elsewhere
  have source' := midway.source
  rw [sameTarget] at elsewhere source' named
  refine ⟨elsewhere.oneName, ?_⟩
  intro other present
  by_cases same : other.path = target.path
  · have sameImage : other.h5name = target.h5name := by
      have built := other.built
      rw [same, target.built] at built
      exact (Option.some.inj built).symm
    refine ⟨?_, src, placeholder, ino, image, _, ?_, srcNode, ?_, node, decodes, size⟩
    · rw [same]
      exact plain
    · rw [same]
      exact source'
    · rw [sameImage]
      exact named
  · exact elsewhere.others other same present

end Runs

end DZFile.Conversion
