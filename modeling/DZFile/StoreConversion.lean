import DZFile.Contents
import DZFile.Conversion
import DZFile.Crash
import DZFile.GetContent
import DZFile.ReadBack
import DZFile.Retry

/-!
# What a conversion makes of the store

A conversion that is not refused its first look, reads in full, and meets no
failure once it has renamed its file, leaves the content of its path readable
however it ends: it has converted the file, or it has left it alone.
-/

namespace DZFile.StoreConversion

open DZFile.ByteSeq
open DZFile.Interaction
open DZFile.Names
open DZFile.Codec
open DZFile.Image
open DZFile.Kernel
open DZFile.Layout
open DZFile.Converter
open DZFile.Staging
open DZFile.Publishing
open DZFile.Conversion
open DZFile.Crash
open DZFile.ReadBack
open DZFile.Pread
open DZFile.Reaching
open DZFile.Confinement
open DZFile.Contents

/-! ## Conditions -/

/-- The converter has renamed its file, and has not failed since. -/
def renamed (c : Convert) : Bool :=
  match c.pc with
  | .statSource | .truncateZero | .truncateSize => true
  | .closeSource | .closeImage | .returned => decide (c.ret = 0)
  | _ => false

theorem renamed_of_exiting {c : Convert} (exiting : c.pc.exiting = true) :
    renamed c = decide (c.ret = 0) := by
  unfold renamed
  cases place : c.pc <;> first
    | rfl
    | (rw [place] at exiting; cases exiting)

/-- The converter has emptied its source, and has not closed the image. -/
def cutting (c : Convert) : Bool :=
  match c.pc with
  | .truncateSize => true
  | .closeSource => decide (c.ret = 0)
  | .closeImage => decide (c.ret = 0)
  | _ => false

/-- What the environment grants a conversion. -/
structure Steady
    (platform : Platform) (state : Sys × Convert) (choice : Choice) :
    Prop where
  looks : state.2.pc = .statImage → choice.fails = false
  full : FullRead platform state choice
  finishes : renamed state.2 = true → choice.fails = false

/-- An answer that succeeds and is large enough for any read. -/
theorem steady_of_large
    {limit : Nat} (large : H5_BUFSIZE ≤ limit) (platform : Platform)
    (state : Sys × Convert) :
    Steady platform state (.ok limit) where
  looks _ := rfl
  full := by
    apply FillsBuffer.fullRead
    intro _ limit' same
    cases same
    exact large
  finishes _ := rfl

/-! ## An unconverted path -/

/-- What holds while a plain file is converted. -/
structure Converting
    (platform : Platform) (content : Bytes) (target : Target)
    (state : Sys × Convert) (src : Ino) (pieces : List Bytes) : Prop where
  faithful :
    Faithful platform content target .DZ_ALG_ZSTD state src pieces
  held : Held state.1 state.2
  sized : Sized state.2 content.length
  emptied :
    state.2.pc = .truncateSize → state.1.fs.node src = .file []
  zeroed :
    state.2.pc.exiting = true → state.2.ret = 0 →
      state.1.fs.node src = .file (List.replicate content.length 0)
  before :
    renamed state.2 = false →
      state.1.fs.entry target.h5name = none ∧
        state.1.fs.node src = .file content

section Steps

variable
    {platform : Platform} {sys sys' : Sys} {c c' : Convert} {src : Ino}
    {choice : Choice} {pieces read : List Bytes} {content now : Bytes}
    {target : Target}

/-- A granted step behind the `rename` does not fail. -/
theorem renamed_of_step
    (source : sys.fs.entry c.target.path = some src)
    (node : sys.fs.node src = .file now)
    (behind : renamed c = true) (granted : choice.fails = false)
    (stepped : c.step platform sys choice = some (sys', c')) :
    renamed c' = true := by
  have exits :
      ∀ {later : Convert}, later.pc.exiting = true → later.ret = 0 →
        renamed later = true := by
    intro later exiting zero
    rw [renamed_of_exiting exiting, zero]
    rfl
  rcases choice with number | errno
  · rcases advance_eq_some.mp stepped with
      ⟨op, next, reply, action, called, rfl⟩
    unfold Convert.action at action
    cases place : c.pc with
    | statSource =>
        rw [place] at action
        cases action
        simp only [kernel, Sys.stat, FileSystem.lookup, source,
          Option.map_some, node] at called
        cases called
        rfl
    | truncateZero =>
        rw [place] at action
        cases action
        simp only [kernel, Sys.truncate, source, node] at called
        cases called
        rfl
    | truncateSize =>
        rw [place] at action
        cases action
        have nonneg : ¬ ((c.stSize : Int) < 0) := by omega
        simp only [kernel, Sys.truncate, source, node, if_neg nonneg]
          at called
        cases called
        exact exits (Convert.exiting_out _ _) (Convert.ret_out _ _)
    | closeSource =>
        rw [place] at action
        cases action
        apply exits (Convert.exiting_outImage _)
        rw [Convert.ret_outImage]
        simpa [renamed, place] using behind
    | closeImage =>
        rw [place] at action
        cases action
        apply exits rfl
        simpa [renamed, place] using behind
    | returned =>
        rw [place] at action
        cases action
    | _ => simp [renamed, place] at behind
  · cases granted

/-- The source is empty between the two truncations. -/
theorem emptied_of_moves
    (source : sys.fs.entry c.target.path = some src)
    (moves : Moves platform sys c choice read sys' c')
    (place : c'.pc = .truncateSize) :
    sys'.fs.node src = .file [] := by
  have notExiting : c'.pc.exiting = false := by
    rw [place]
    rfl
  cases moves with
  | looks next places =>
      rcases places with ⟨_, rfl⟩ | ⟨_, rfl⟩ <;> cases place
  | fails earlier inside target method => simp at notExiting
  | creates number ino fs next here granted positive free created continues =>
      rcases continues with ⟨text, header, rfl⟩ | rfl
      · cases place
      · simp at notExiting
  | empties ino here granted found =>
      rw [source] at found
      cases found
      simp [Sys.resizeNode, resize]
  | regrows ino here found => simp at notExiting
  | closesSource here => simp at notExiting
  | _ => cases place

/-- The source is all zeros when a conversion has succeeded. -/
theorem zeroed_of_moves
    {size : Nat} (source : sys.fs.entry c.target.path = some src)
    (sized : Sized c size)
    (emptied : c.pc = .truncateSize → sys.fs.node src = .file [])
    (zeroed :
      c.pc.exiting = true → c.ret = 0 →
        sys.fs.node src = .file (List.replicate size 0))
    (moves : Moves platform sys c choice read sys' c')
    (exiting : c'.pc.exiting = true) (zero : c'.ret = 0) :
    sys'.fs.node src = .file (List.replicate size 0) := by
  cases moves with
  | looks next places =>
      rcases places with ⟨_, rfl⟩ | ⟨_, rfl⟩ <;> cases exiting
  | fails earlier inside target method =>
      rw [Convert.ret_out] at zero
      cases zero
  | creates number ino fs next place granted positive free created continues =>
      rcases continues with ⟨text, header, rfl⟩ | rfl
      · cases exiting
      · rw [Convert.ret_out] at zero
        cases zero
  | regrows ino place found =>
      rw [source] at found
      cases found
      simp [Sys.resizeNode, emptied place, Node.bytes, resize,
        sized (Or.inr place)]
  | closesSource place =>
      rw [Convert.ret_outImage] at zero
      exact zeroed (by rw [place]; rfl) zero
  | closesImage handle place held =>
      have node := zeroed (by rw [place]; rfl) zero
      exact GetContent.node_released node
  | closesNothing place lost => exact zeroed (by rw [place]; rfl) zero
  | _ => cases exiting

/-- The step lemma. -/
theorem Converting.step
    {state next : Sys × Convert}
    (converting : Converting platform content target state src pieces)
    (steady : Steady platform state choice)
    (stepped : soloStep platform state choice = some next) :
    ∃ read,
      Converting platform content target next src (pieces ++ read) := by
  rcases state with ⟨sys, c⟩
  rcases next with ⟨sys', c'⟩
  rcases converting.faithful.step steady.full stepped with
    ⟨read, faithful⟩
  rcases moves_of_step stepped with ⟨_, moves⟩
  have undisturbed := converting.faithful.undisturbed
  have sameTarget : c.target = target := converting.faithful.target
  have source : sys.fs.entry c.target.path = some src := undisturbed.source
  rcases undisturbed.node with ⟨now, node, untouched⟩
  refine ⟨read, faithful, ?_, ?_, ?_, ?_, ?_⟩
  · apply converting.held.step undisturbed.stage source _ moves
    intro place zero
    apply steady.finishes
    change c.pc = .closeImage at place
    change c.ret = 0 at zero
    simp [renamed, place, zero]
  · apply converting.sized.step source _ moves
    intro intact
    rw [node, ← untouched intact]
    rfl
  · exact emptied_of_moves source moves
  · exact
      zeroed_of_moves source converting.sized converting.emptied
        converting.zeroed moves
  · intro notRenamed
    change renamed c' = false at notRenamed
    have earlier : renamed c = false := by
      by_contra behind
      rw [Bool.not_eq_false] at behind
      rw [renamed_of_step source node behind (steady.finishes behind) stepped]
        at notRenamed
      cases notRenamed
    rcases converting.before earlier with ⟨absent, whole⟩
    change sys.fs.node src = .file content at whole
    have names := entry_h5name_of_moves moves (by
      rintro _ place
      simp [renamed, place] at notRenamed)
    rw [sameTarget] at names
    refine ⟨names.trans absent, ?_⟩
    rcases undisturbed.stage.source source whole moves with
      ⟨content', node', change⟩
    change sys'.fs.node src = _
    rw [node']
    cases change with
    | same unsuccessful => rfl
    | emptied place granted =>
        change c.pc = .truncateZero at place
        simp [renamed, place] at earlier
    | regrown place =>
        change c.pc = .truncateSize at place
        simp [renamed, place] at earlier

theorem converting_initial
    (unconverted : Unconverted sys.fs target src content)
    (absent : sys.fs.entry target.h5name = none) (srcfd h5fd : Int) :
    Converting platform content target
      (sys, convert2h5 target .DZ_ALG_ZSTD srcfd h5fd) src [] where
  faithful := faithful_initial unconverted .DZ_ALG_ZSTD srcfd h5fd
  held := trivial
  sized place := by rcases place with place | place <;> cases place
  emptied place := by cases place
  zeroed exiting := by cases exiting
  before _ := ⟨absent, unconverted.node⟩

/-- The image of the chunks of a short content is well formed. -/
theorem wellFormed_of_written
    {libs : Libs} {image : H5Image}
    (written : Written libs .DZ_ALG_ZSTD image pieces)
    (strided : Strided content pieces) (whole : pieces.flatten = content)
    (small : content.length < 2147483648) (short : AllShort libs content)
    (dstlen : Int) :
    WellFormed libs image dstlen content := by
  have nonempty : ∀ piece ∈ pieces, piece ≠ [] := by
    intro piece member
    exact (written.storable piece member).nonempty
  have few := Retry.length_le_flatten nonempty
  rw [whole] at few
  have algorithm := (written.holds strided whole).algorithm
  rcases written.header with ⟨text, header, datasets⟩
  apply
    wellFormed_of_layout algorithm datasets written.distinct strided whole
      nonempty _ (by omega)
  intro piece member
  rcases List.getElem?_of_mem member with ⟨number, here⟩
  rw [strided number piece here]
  apply short
  have bytes := nonempty piece member
  rw [strided number piece here] at bytes
  by_contra beyond
  apply bytes
  apply List.length_eq_zero_iff.mp
  rw [length_chunk]
  omega

/-- A conversion that has returned has converted the file or left it alone. -/
theorem Converting.represents
    {state : Sys × Convert}
    (converting : Converting platform content target state src pieces)
    (small : content.length < 2147483648)
    (short : AllShort platform.libs content)
    (returned : state.2.pc = .returned) :
    Represents platform.libs state.1.fs target
      (some
        (if state.2.ret = 0 then
          .converted content (List.replicate content.length 0)
        else .plain content)) := by
  rcases state with ⟨sys, c⟩
  have undisturbed := converting.faithful.undisturbed
  have sameTarget : c.target = target := converting.faithful.target
  have sameMethod : c.method = .DZ_ALG_ZSTD := converting.faithful.method
  have source : sys.fs.entry c.target.path = some src := undisturbed.source
  change c.pc = .returned at returned
  rw [sameTarget] at source
  by_cases zero : c.ret = 0
  · rw [if_pos zero]
    have stage := undisturbed.stage
    simp only [Stage, returned] at stage
    rcases stage zero with ⟨ino, image, named, node, _, written⟩
    have whole :=
      undisturbed.copy.whole (by simp [complete, returned, zero])
    have held := converting.held
    simp only [Held, returned] at held
    rcases held zero with ⟨image', found, closed⟩
    rw [sameTarget] at named found
    rw [lookup_of_entry named node] at found
    cases found
    rw [sameMethod] at written
    exact
      .converted content _ image
        (lookup_of_entry source
          (converting.zeroed (by rw [returned]; rfl) zero))
        (lookup_of_entry named node) closed small
        (wellFormed_of_written written converting.faithful.strided whole
          small short)
  · rw [if_neg zero]
    rcases converting.before (by simp [renamed, returned, zero]) with
      ⟨absent, node⟩
    exact
      .plain content (lookup_of_entry source node)
        (lookup_eq_none_iff.mpr absent)

/-- Until the source is emptied, and if it is not, the file is whole. -/
theorem Converting.survives
    {state : Sys × Convert}
    (converting : Converting platform content target state src pieces)
    (small : content.length < 2147483648)
    (short : AllShort platform.libs content)
    (whole : cutting state.2 = false) :
    Survives platform.libs state.1.fs target content := by
  have undisturbed := converting.faithful.undisturbed
  have source : state.1.fs.entry target.path = some src := by
    rw [← converting.faithful.target]
    exact undisturbed.source
  by_cases intact : state.2.pc.intact = true
  · rcases undisturbed.node with ⟨now, node, untouched⟩
    rw [untouched intact] at node
    exact .plain (lookup_of_entry source node)
  · by_cases behind : renamed state.2 = true
    · have returned : state.2.pc = .returned := by
        unfold renamed at behind
        unfold cutting at whole
        cases place : state.2.pc <;> simp_all [Pc.intact]
      have zero : state.2.ret = 0 := by
        simpa [renamed, returned] using behind
      have represents := converting.represents small short returned
      rw [if_pos zero] at represents
      exact represents.survives rfl
    · rw [Bool.not_eq_true] at behind
      exact .plain (lookup_of_entry source (converting.before behind).2)

end Steps

/-! ## A path that cannot be converted -/

/-- Nothing has been done, and nothing will be. -/
structure Idle (fs : FileSystem) (state : Sys × Convert) : Prop where
  same : state.1.fs = fs
  handles : ∀ h5fd, state.1.proc.handles h5fd = none
  places :
    (fs.entry state.2.target.path = none ∧
        (state.2.pc = .statImage ∨ state.2.pc = .statTemp ∨
          state.2.pc = .openSource)) ∨
      (state.2.pc.exiting = true ∧ state.2.ret = -1)

section Idle

variable
    {platform : Platform} {fs : FileSystem} {state next : Sys × Convert}
    {choice : Choice}

theorem Idle.step
    (idle : Idle fs state)
    (stepped : soloStep platform state choice = some next) :
    Idle fs next := by
  rcases state with ⟨sys, c⟩
  rcases next with ⟨sys', c'⟩
  rcases idle with ⟨rfl, handles, places⟩
  rcases moves_of_step stepped with ⟨read, moves⟩
  have entering : ∀ {pc : Pc}, c.pc = pc → pc.exiting = false →
      sys.fs.entry c.target.path = none ∧
        (pc = .statImage ∨ pc = .statTemp ∨ pc = .openSource) := by
    rintro pc rfl inside
    rcases places with entering | ⟨exiting, _⟩
    · exact entering
    · rw [exiting] at inside
      cases inside
  have leaving : ∀ {pc : Pc}, c.pc = pc → pc.exiting = true → c.ret = -1 := by
    rintro pc rfl exiting
    rcases places with ⟨_, place | place | place⟩ | ⟨_, ret⟩
    · rw [place] at exiting
      cases exiting
    · rw [place] at exiting
      cases exiting
    · rw [place] at exiting
      cases exiting
    · exact ret
  cases moves with
  | looks next moved =>
      rcases moved with ⟨place, rfl⟩ | ⟨place, rfl⟩
      · exact
          ⟨rfl, handles,
            Or.inl ⟨(entering place rfl).1, Or.inr (Or.inl rfl)⟩⟩
      · exact
          ⟨rfl, handles,
            Or.inl ⟨(entering place rfl).1, Or.inr (Or.inr rfl)⟩⟩
  | fails earlier inside target method =>
      exact
        ⟨rfl, handles,
          Or.inr ⟨Convert.exiting_out _ _, Convert.ret_out _ _⟩⟩
  | opens number ino place free found =>
      rw [(entering place rfl).1] at found
      cases found
  | closesSource place =>
      refine ⟨rfl, handles, Or.inr ⟨Convert.exiting_outImage _, ?_⟩⟩
      exact (Convert.ret_outImage c).trans (leaving place rfl)
  | closesImage handle place held =>
      rw [handles] at held
      cases held
  | closesNothing place lost =>
      exact ⟨rfl, handles, Or.inr ⟨rfl, leaving place rfl⟩⟩
  | creates number ino fs next place => simpa using (entering place rfl).2
  | writesHeader text handle image place =>
      simpa using (entering place rfl).2
  | reads buffer limit file place => simpa using (entering place rfl).2
  | meetsEnd file place => simpa using (entering place rfl).2
  | compresses buffer dstdata place => simpa using (entering place rfl).2
  | writesBlock buffer dstdata handle image place =>
      simpa using (entering place rfl).2
  | publishes ino place => simpa using (entering place rfl).2
  | sizes ino place => simpa using (entering place rfl).2
  | empties ino place => simpa using (entering place rfl).2
  | regrows ino place => simpa using (entering place rfl).2

/-- A converter that finds the image turns back. -/
theorem idle_of_found
    {sys : Sys} {target : Target} {method : Alg} {srcfd h5fd : Int}
    {node : Node} (handles : ∀ h5fd, sys.proc.handles h5fd = none)
    (found : sys.fs.lookup target.h5name = some node)
    (granted : choice.fails = false)
    (stepped :
      soloStep platform (sys, convert2h5 target method srcfd h5fd) choice =
        some next) :
    Idle sys.fs next := by
  rcases choice with number | errno
  · rcases next with ⟨later, c⟩
    change
      (convert2h5 target method srcfd h5fd).step platform sys (.ok number) =
        some (later, c) at stepped
    rcases advance_eq_some.mp stepped with
      ⟨op, continuation, reply, action, called, rfl⟩
    cases action
    change sys.stat platform (.ok number) target.h5name = _ at called
    simp only [Sys.stat, found] at called
    cases node <;>
      · cases called
        exact
          ⟨rfl, handles,
            Or.inr ⟨Convert.exiting_out _ _, Convert.ret_out _ _⟩⟩
  · cases granted

end Idle

/-! ## A directory -/

/-- Where the conversion of a directory can be before it gives up. -/
def attempts : Pc → Bool
  | .statImage => true
  | .statTemp => true
  | .openSource => true
  | .createTemp => true
  | .writeHeader _ => true
  | .readBlock => true
  | _ => false

/-- The path is a directory, which can be opened but not read. -/
structure OnDirectory
    (target : Target) (src : Ino) (state : Sys × Convert) : Prop where
  same : state.2.target = target
  oneName : OneName state.1.fs
  named : state.1.fs.entry target.path = some src
  node : state.1.fs.node src = .directory
  image : state.1.fs.entry target.h5name = none
  opened :
    state.2.pc = .createTemp ∨ state.2.pc = .readBlock ∨
        (∃ text, state.2.pc = .writeHeader text) →
      ∀ file, state.1.proc.fds state.2.srcfd = some file → file.ino = src
  places :
    attempts state.2.pc = true ∨
      (state.2.pc.exiting = true ∧ state.2.ret = -1)

section Directory

variable
    {platform : Platform} {target : Target} {src : Ino}
    {state next : Sys × Convert} {choice : Choice}

/-- A directory is not read. -/
theorem read_directory
    {sys later : Sys} {fd : Int} {count : Nat} {result : Except Errno Bytes}
    (directory :
      ∀ file, sys.proc.fds fd = some file →
        sys.fs.node file.ino = .directory)
    (called : sys.read platform choice fd count = some (result, later)) :
    later = sys ∧ ∃ errno, result = .error errno := by
  rcases choice with limit | errno
  · cases held : sys.proc.fds fd with
    | none =>
        simp only [Sys.read, held, Sys.refuse] at called
        cases called
        exact ⟨rfl, _, rfl⟩
    | some file =>
        simp only [Sys.read, held, directory file held, Sys.refuse] at called
        split at called
        · cases called
          exact ⟨rfl, _, rfl⟩
        · cases called
          exact ⟨rfl, _, rfl⟩
  · cases called
    exact ⟨rfl, _, rfl⟩

/-- A step that leaves the path's own files alone. -/
theorem OnDirectory.moved
    (on : OnDirectory target src state) {sys : Sys} {c : Convert}
    (same : c.target = state.2.target) (oneName : OneName sys.fs)
    (named : sys.fs.entry target.path = state.1.fs.entry target.path)
    (image : sys.fs.entry target.h5name = state.1.fs.entry target.h5name)
    (node : sys.fs.node src = state.1.fs.node src)
    (opened :
      c.pc = .createTemp ∨ c.pc = .readBlock ∨
          (∃ text, c.pc = .writeHeader text) →
        ∀ file, sys.proc.fds c.srcfd = some file → file.ino = src)
    (places : attempts c.pc = true ∨ (c.pc.exiting = true ∧ c.ret = -1)) :
    OnDirectory target src (sys, c) where
  same := same.trans on.same
  oneName := oneName
  named := named.trans on.named
  node := node.trans on.node
  image := image.trans on.image
  opened := opened
  places := places

/-- A step that gives up, or closes. -/
theorem OnDirectory.leaves
    (on : OnDirectory target src state) {sys : Sys} {c : Convert}
    (same : c.target = state.2.target) (oneName : OneName sys.fs)
    (named : sys.fs.entry target.path = state.1.fs.entry target.path)
    (image : sys.fs.entry target.h5name = state.1.fs.entry target.h5name)
    (node : sys.fs.node src = state.1.fs.node src)
    (exiting : c.pc.exiting = true) (ret : c.ret = -1) :
    OnDirectory target src (sys, c) := by
  apply on.moved same oneName named image node _ (Or.inr ⟨exiting, ret⟩)
  intro place
  rcases place with place | place | ⟨text, place⟩
  all_goals
    rw [place] at exiting
    cases exiting

/-- The read fails. -/
theorem OnDirectory.gives_up
    (on : OnDirectory target src state) (reading : state.2.pc = .readBlock)
    (stepped : soloStep platform state choice = some next) :
    OnDirectory target src next := by
  rcases state with ⟨sys, c⟩
  rcases next with ⟨sys', c'⟩
  rcases advance_eq_some.mp stepped with
    ⟨op, continuation, reply, action, called, rfl⟩
  change c.action platform.libs = _ at action
  change c.pc = .readBlock at reading
  unfold Convert.action at action
  rw [reading] at action
  cases action
  have directory :
      ∀ file, sys.proc.fds c.srcfd = some file →
        sys.fs.node file.ino = .directory := by
    intro file held
    rw [on.opened (Or.inr (Or.inl reading)) file held]
    exact on.node
  rcases read_directory directory called with ⟨rfl, errno, rfl⟩
  exact
    on.leaves (Convert.target_out c (-1)) on.oneName rfl rfl rfl
      (Convert.exiting_out c (-1)) (Convert.ret_out c (-1))

theorem OnDirectory.step
    (on : OnDirectory target src state)
    (stepped : soloStep platform state choice = some next) :
    OnDirectory target src next := by
  by_cases reading : state.2.pc = .readBlock
  · exact on.gives_up reading stepped
  rcases state with ⟨sys, c⟩
  rcases next with ⟨sys', c'⟩
  change c.pc ≠ .readBlock at reading
  rcases moves_of_step stepped with ⟨read, moves⟩
  rcases advance_eq_some.mp stepped with
    ⟨op, continuation, reply, action, called, continued⟩
  have oneName : OneName sys'.fs :=
    on.oneName.step (entryStep_of_kernel called)
  have sameTarget : c.target = target := on.same
  have named : sys.fs.entry target.path = some src := on.named
  have node : sys.fs.node src = .directory := on.node
  have otherNode :
      ∀ {ino image}, sys.fs.node ino = .image image → src ≠ ino := by
    rintro ino image stored rfl
    rw [node] at stored
    cases stored
  -- Beyond the read there are only the exits.
  have leaving :
      ∀ {pc}, c.pc = pc → attempts pc = false →
        pc.exiting = true ∧ c.ret = -1 := by
    rintro pc rfl beyond
    rcases on.places with attempting | exits
    · change attempts c.pc = true at attempting
      rw [beyond] at attempting
      cases attempting
    · exact exits
  cases moves with
  | looks next places =>
      rcases places with ⟨place, rfl⟩ | ⟨place, rfl⟩
      · exact
          @OnDirectory.moved target src (sys, c) on sys
            { c with pc := .statTemp } rfl oneName rfl rfl rfl (by simp)
            (Or.inl rfl)
      · exact
          @OnDirectory.moved target src (sys, c) on sys
            { c with pc := .openSource } rfl oneName rfl rfl rfl (by simp)
            (Or.inl rfl)
  | fails earlier _ same method =>
      exact
        on.leaves ((Convert.target_out earlier (-1)).trans same) oneName rfl
          rfl rfl (Convert.exiting_out earlier (-1))
          (Convert.ret_out earlier (-1))
  | opens number ino place free found =>
      rw [sameTarget, named] at found
      cases found
      refine
        @OnDirectory.moved target src (sys, c) on _
          { c with srcfd := number, pc := .createTemp } rfl oneName rfl rfl
          rfl ?_ (Or.inl rfl)
      intro _ file held
      simp only [Process.setFd, Function.update_self, Option.some.injEq]
        at held
      rw [← held]
  | creates number ino fs next place granted positive free created
      continues =>
      have tempPath := target.temp_ne_path
      have tempImage := target.temp_ne_h5name
      rw [sameTarget] at created
      have files :
          fs.entry target.path = sys.fs.entry target.path ∧
            fs.entry target.h5name = sys.fs.entry target.h5name ∧
              fs.node src = sys.fs.node src := by
        cases created with
        | fresh absent =>
            exact
              ⟨Function.update_of_ne tempPath.symm _ _,
                Function.update_of_ne tempImage.symm _ _,
                Function.update_of_ne
                  (FileSystem.entry_ne_fresh named) _ _⟩
        | emptied ino found unlocked =>
            refine ⟨rfl, rfl, node_put_of_ne ?_⟩
            rintro rfl
            exact tempPath (on.oneName _ _ src found named)
      have opened := on.opened (Or.inl place)
      rcases continues with ⟨text, _, rfl⟩ | rfl
      · exact
          @OnDirectory.moved target src (sys, c) on _
            { c with h5fd := (number : Int), pc := .writeHeader text } rfl
            oneName files.1 files.2.1 files.2.2 (fun _ => opened)
            (Or.inl rfl)
      · exact
          on.leaves (Convert.target_out _ (-1)) oneName files.1 files.2.1
            files.2.2 (Convert.exiting_out _ (-1)) (Convert.ret_out _ (-1))
  | writesHeader text handle image place held stored =>
      have opened := on.opened (Or.inr (Or.inr ⟨text, place⟩))
      exact
        @OnDirectory.moved target src (sys, c) on _
          { c with pc := .readBlock } rfl oneName rfl rfl
          (node_put_of_ne (otherNode stored)) (fun _ => opened)
          (Or.inl rfl)
  | reads buffer limit file place => exact (reading place).elim
  | meetsEnd file place => exact (reading place).elim
  | compresses buffer dstdata place => cases (leaving place rfl).1
  | writesBlock buffer dstdata handle image place =>
      cases (leaving place rfl).1
  | publishes ino place => cases (leaving place rfl).1
  | sizes ino place => cases (leaving place rfl).1
  | empties ino place => cases (leaving place rfl).1
  | regrows ino place => cases (leaving place rfl).1
  | closesSource place =>
      exact
        on.leaves (Convert.target_outImage c) oneName rfl rfl rfl
          (Convert.exiting_outImage c)
          ((Convert.ret_outImage c).trans (leaving place rfl).2)
  | closesImage handle place held =>
      have files :
          (sys.released handle (!choice.fails)).entry = sys.fs.entry ∧
            (sys.released handle (!choice.fails)).node src =
              sys.fs.node src := by
        unfold Sys.released
        split
        · rename_i image writing stored
          exact ⟨rfl, node_put_of_ne (otherNode stored)⟩
        · exact ⟨rfl, rfl⟩
      exact
        @OnDirectory.leaves target src (sys, c) on _
          { c with pc := .returned } rfl oneName (congrFun files.1 _)
          (congrFun files.1 _) files.2 rfl (leaving place rfl).2
  | closesNothing place lost =>
      exact
        @OnDirectory.leaves target src (sys, c) on sys
          { c with pc := .returned } rfl oneName rfl rfl rfl rfl
          (leaving place rfl).2

end Directory

/-! ## Whole conversions -/

/-- What a conversion returning `ret` makes of an entry. -/
def converts (ret : Int) : Option Entry → Option Entry
  | some (.plain content) =>
      some
        (if ret = 0 then
          .converted content (List.replicate content.length 0)
        else .plain content)
  | entry => entry

section Runs

variable
    {platform : Platform} {store : Store} {fs : FileSystem}
    {db : Metadata.Db} {target : Target} {srcfd h5fd : Int}
    {choices : List Choice} {final : Sys × Convert}

/-- A converter changes its own names only. -/
theorem confines_of_action
    {libs : Libs} {c : Convert} {op : Op} {next : Reply op → Convert}
    (action : c.action libs = .call op next) :
    Confines (namesOf c.target) op := by
  have visible : namesOf c.target c.target.path := Or.inl rfl
  have image : namesOf c.target c.target.h5name := Or.inr (Or.inl rfl)
  have temporary : namesOf c.target c.target.temp := Or.inr (Or.inr rfl)
  unfold Convert.action at action
  cases place : c.pc with
  | openSource =>
      rw [place] at action
      cases action
      exact Or.inl visible
  | createTemp =>
      rw [place] at action
      cases action
      exact temporary
  | renameTemp =>
      rw [place] at action
      cases action
      exact ⟨temporary, image⟩
  | truncateZero =>
      rw [place] at action
      cases action
      exact visible
  | truncateSize =>
      rw [place] at action
      cases action
      exact visible
  | returned =>
      rw [place] at action
      cases action
  | _ =>
      rw [place] at action
      cases action
      trivial

theorem confined_of_run
    (oneName : OneName fs) {method : Alg}
    (ran :
      Transition.run (soloStep platform)
          (⟨fs, db, .empty⟩, convert2h5 target method srcfd h5fd) choices =
        some final) :
    Confined (namesOf target) fs final.1 := by
  have ends :
      Confined (namesOf target) fs final.1 ∧ final.2.target = target := by
    refine
      Transition.run_invariant
        (fun state : Sys × Convert =>
          Confined (namesOf target) fs state.1 ∧ state.2.target = target)
        ?_ ⟨confined_initial oneName db, rfl⟩ ran
    rintro ⟨sys, c⟩ choice ⟨sys', c'⟩ ⟨confined, same⟩ stepped
    rcases moves_of_step stepped with ⟨_, moves⟩
    refine ⟨?_, (Moves.source moves).1.trans same⟩
    rcases advance_eq_some.mp stepped with
      ⟨op, next, reply, action, called, _⟩
    have confines := confines_of_action action
    change c.target = target at same
    rw [same] at confines
    exact confined.step confines called
  exact ends.1

/-- A conversion that stays idle leaves the files as they are. -/
theorem fs_of_idle
    {state : Sys × Convert} (idle : Idle fs state)
    (ran : Transition.run (soloStep platform) state choices = some final) :
    final.1.fs = fs :=
  (Transition.run_invariant (Idle fs)
    (fun _ _ _ idle stepped => idle.step stepped) idle ran).same

/-- What a conversion has made of the entry it found. -/
structure Progress
    (libs : Libs) (target : Target) (entry : Option Entry)
    (state : Sys × Convert) : Prop where
  unrenamed :
    renamed state.2 = false → Represents libs state.1.fs target entry
  survives :
    ∀ content, entry.bind Entry.content = some content →
      cutting state.2 = false → Survives libs state.1.fs target content
  returned :
    state.2.pc = .returned →
      Represents libs state.1.fs target (converts state.2.ret entry)

/-- An entry that no conversion changes is still there. -/
theorem progress_of_kept
    {entry : Option Entry} (stable : ∀ ret, converts ret entry = entry)
    (represents : Represents platform.libs final.1.fs target entry) :
    Progress platform.libs target entry final where
  unrenamed _ := represents
  survives _ same _ := represents.survives same
  returned _ := by
    rw [stable]
    exact represents

theorem Converting.progress
    {src : Ino} {pieces : List Bytes} {content : Bytes}
    (converting : Converting platform content target final src pieces)
    (small : content.length < 2147483648)
    (short : AllShort platform.libs content) :
    Progress platform.libs target (some (.plain content)) final where
  unrenamed behind := by
    rcases converting.before behind with ⟨absent, node⟩
    have source : final.1.fs.entry target.path = some src := by
      rw [← converting.faithful.target]
      exact converting.faithful.undisturbed.source
    exact
      .plain content (lookup_of_entry source node)
        (lookup_eq_none_iff.mpr absent)
  survives now same whole := by
    cases same
    exact converting.survives small short whole
  returned returned := converting.represents small short returned

/--
A conversion converts the content it finds, or leaves it as it is; of a
directory it makes nothing.
-/
theorem progress_of_conversion
    {entry : Option Entry} (oneName : OneName fs)
    (represents : Represents platform.libs fs target entry)
    (small :
      ∀ content, entry = some (.plain content) →
        content.length < 2147483648 ∧ AllShort platform.libs content)
    (steady :
      Transition.Along (soloStep platform) (Steady platform)
        (⟨fs, db, .empty⟩, convert2h5 target .DZ_ALG_ZSTD srcfd h5fd)
        choices)
    (ran :
      Transition.run (soloStep platform)
          (⟨fs, db, .empty⟩, convert2h5 target .DZ_ALG_ZSTD srcfd h5fd)
          choices =
        some final) :
    Progress platform.libs target entry final := by
  cases represents with
  | absent missing noImage =>
      have idle :
          Idle fs
            (⟨fs, db, .empty⟩,
              convert2h5 target .DZ_ALG_ZSTD srcfd h5fd) :=
        ⟨rfl, fun _ => rfl,
          Or.inl ⟨lookup_eq_none_iff.mp missing, Or.inl rfl⟩⟩
      apply progress_of_kept fun _ => rfl
      rw [fs_of_idle idle ran]
      exact .absent missing noImage
  | directory found noImage =>
      rcases entry_of_lookup found with ⟨src, named, node⟩
      have on :
          OnDirectory target src
            (⟨fs, db, .empty⟩,
              convert2h5 target .DZ_ALG_ZSTD srcfd h5fd) :=
        { same := rfl
          oneName := oneName
          named := named
          node := node
          image := lookup_eq_none_iff.mp noImage
          opened := fun _ _ held => by cases held
          places := Or.inl rfl }
      have ends :=
        Transition.run_invariant (OnDirectory target src)
          (fun _ _ _ on stepped => on.step stepped) on ran
      apply progress_of_kept fun _ => rfl
      exact
        .directory (lookup_of_entry ends.named ends.node)
          (lookup_eq_none_iff.mpr ends.image)
  | plain content found noImage =>
      rcases small content rfl with ⟨short, packed⟩
      rcases entry_of_lookup found with ⟨src, named, node⟩
      have unconverted : Unconverted fs target src content :=
        ⟨named, node, fun same =>
          target.temp_ne_path (oneName _ _ src same named)⟩
      have ends :
          ∃ pieces,
            Converting platform content target final src pieces := by
        refine
          Transition.run_invariant_along
            (fun state =>
              ∃ pieces,
                Converting platform content target state src pieces)
            ?_ ⟨[], ?_⟩ steady ran
        · rintro state choice next ⟨pieces, converting⟩ granted stepped
          rcases converting.step granted stepped with ⟨read, later⟩
          exact ⟨pieces ++ read, later⟩
        · exact
            converting_initial unconverted (lookup_eq_none_iff.mp noImage)
              srcfd h5fd
      rcases ends with ⟨pieces, converting⟩
      exact converting.progress short packed
  | converted content placeholder image found held closed short wellFormed =>
      have same : final.1.fs = fs := by
        cases choices with
        | nil =>
            cases ran
            rfl
        | cons choice rest =>
            rcases Transition.run_cons_eq_some.mp ran with
              ⟨next, stepped, later⟩
            have idle :=
              idle_of_found (fun _ => rfl) held (steady.1.looks rfl) stepped
            exact fs_of_idle idle later
      apply progress_of_kept fun _ => rfl
      rw [same]
      exact
        .converted content placeholder image found held closed short
          wellFormed

/-- The other paths keep what they have. -/
theorem refines_of_conversion
    (refines : Refines platform.libs fs store)
    (ordinary : Ordinary target.path)
    (small :
      ∀ content, store target.path = some (.plain content) →
        content.length < 2147483648 ∧ AllShort platform.libs content)
    (steady :
      Transition.Along (soloStep platform) (Steady platform)
        (⟨fs, db, .empty⟩, convert2h5 target .DZ_ALG_ZSTD srcfd h5fd)
        choices)
    (ran :
      Transition.run (soloStep platform)
          (⟨fs, db, .empty⟩, convert2h5 target .DZ_ALG_ZSTD srcfd h5fd)
          choices =
        some final)
    (returned : final.2.pc = .returned) :
    Refines platform.libs final.1.fs
      (store.set target.path (converts final.2.ret (store target.path))) := by
  have confined := confined_of_run refines.oneName ran
  apply refines.confined ordinary (fun _ named => named) confined
  have progress :=
    progress_of_conversion refines.oneName
      (refines.represents target ordinary) small steady ran
  exact progress.returned returned

end Runs

end DZFile.StoreConversion
