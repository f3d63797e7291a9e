import DZFile.ParallelTools
import DZFile.Race
import DZFile.Scan
import DZFile.Threads

/-!
# The walker keeps what is stored

The threads of the walker share the tables of one process.  As long as no two
of them convert one path, each does what it would do as a process of its own:
it has its own share of the tables, and its own names.  Hence, whatever the
order of the calls of the main loop and of the threads, every path reads back
as it did before, once no thread is at work on it.
-/

namespace DZFile.WalkerStore

open DZFile.Interaction
open DZFile.Interleaving
open DZFile.WholeRuns
open DZFile.Transition
open DZFile.Names
open DZFile.Codec
open DZFile.Kernel
open DZFile.Api
open DZFile.Converter
open DZFile.Walker
open DZFile.ReadBack
open DZFile.Reaching (OneName entryStep_of_kernel)
open DZFile.Contents
open DZFile.StoreConversion
open DZFile.Separation
open DZFile.Session
open DZFile.Parallel
open DZFile.ParallelTools (sees_of_action target_of_action not_namesOf_of_ne)
open DZFile.Race (isStat)
open DZFile.Shares
open DZFile.Threads
open DZFile.Scan hiding step Label

/-! ## The threads -/

/-- The thread is in `convert2h5`. -/
def Converts (worker : Nat → Worker) (number : Nat) (c : Convert) : Prop :=
  worker number = .converting c ∧ c.pc ≠ .returned

/-- Some thread converts the path. -/
def Busy (worker : Nat → Worker) (path : CString) : Prop :=
  ∃ number c, Converts worker number c ∧ c.target.path = path

/-- Some thread has renamed the temporary file of the path. -/
def Renamed (worker : Nat → Worker) (path : CString) : Prop :=
  ∃ number c,
    Converts worker number c ∧ c.target.path = path ∧ renamed c = true

/-- Some thread has emptied the file, and has not closed its image. -/
def Cutting (worker : Nat → Worker) (path : CString) : Prop :=
  ∃ number c,
    Converts worker number c ∧ c.target.path = path ∧ cutting c = true

/-- No two threads convert one path. -/
def Distinct (worker : Nat → Worker) : Prop :=
  ∀ number other c d,
    Converts worker number c → Converts worker other d →
      c.target.path = d.target.path → number = other

/-- The tests of `process_file` look at names, and let ordinary paths pass. -/
structure Filters (program : Call (Option Target)) : Prop where
  looks : program.AllCalls isStat
  passes :
    Yields (fun found => ∀ target, found = some target → Ordinary target.path)
      program

theorem filters_none : Filters (.ret none) where
  looks := trivial
  passes _ same := by cases same

theorem path_of_conversionOf
    {path : CString} {target : Target}
    (found : conversionOf path = some target) :
    target.path = path := by
  unfold conversionOf at found
  split at found
  · cases found
  · cases found
    rfl

theorem filters_conversionOf
    {path : CString} (ordinary : Ordinary path) :
    Filters (.ret (conversionOf path)) where
  looks := trivial
  passes target found := by
    rw [path_of_conversionOf found]
    exact ordinary

theorem filters_stat
    {path : CString} {next : Except Errno Stat → Call (Option Target)}
    (rest : ∀ found, Filters (next found)) :
    Filters (.call (.stat path) next) where
  looks := ⟨trivial, fun found => (rest found).looks⟩
  passes found := (rest found).passes

theorem filters_findhiddenFile
    {path : CString} {rest : Int → Call (Option Target)}
    (filters : ∀ ret, Filters (rest ret)) :
    Filters (findhiddenFile path >>= rest) := by
  unfold findhiddenFile
  split
  · exact filters (-1)
  · apply filters_stat
    rintro (errno | stbuf)
    · cases errno <;> exact filters _
    · exact filters _

/-- A path that passes the tests is none the library makes up. -/
theorem filters_process_file (policy : Policy) (filename : CString) :
    Filters (process_file policy filename) := by
  unfold process_file
  split
  · exact filters_none
  · rename_i unknown
    have ordinary : Ordinary filename := by
      apply ordinary_of_not_hidden
      simp only [Bool.or_eq_true, not_or, Bool.not_eq_true] at unknown
      exact unknown.2
    apply filters_stat
    rintro (errno | stbuf)
    · exact filters_none
    · show
        Filters
          (if (stbuf.size : Int) < policy.low_size then Prog.ret none else _)
      split
      · exact filters_none
      · apply filters_findhiddenFile
        intro ret
        split
        · exact filters_none
        · split
          · exact filters_none
          · exact filters_conversionOf ordinary

/-! ## The conversions as processes -/

/-- A path the walker may convert. -/
abbrev Managed :=
  { target : Target // Ordinary target.path }

noncomputable instance : DecidableEq Managed :=
  Classical.decEq Managed

/-- There is one target for a path. -/
theorem managed_eq
    {p q : Managed} (same : p.1.path = q.1.path) : p = q := by
  rcases p with ⟨⟨path, h5name, built⟩, ordinary⟩
  rcases q with ⟨⟨path', h5name', built'⟩, ordinary'⟩
  cases same
  rw [built] at built'
  cases built'
  rfl

/-- A conversion looks at the names of its path, and changes no other. -/
def bounds (platform : Platform) :
    @Bounds Managed (fun _ => Convert) (fun _ => Int) fun _ c =>
      c.action platform.libs where
  seen p := namesOf p.1
  written p := namesOf p.1
  bounded p c := c.target = p.1
  calls := by
    intro p c op next same action
    have sees := sees_of_action action
    have confines := confines_of_action action
    rw [same] at sees confines
    exact
      ⟨sees, confines, fun reply =>
        (target_of_action action reply).trans same⟩
  seen_of_written := id
  apart := by
    intro p q name different written seen
    refine not_namesOf_of_ne q.2 p.2 ?_ written seen
    intro same
    exact different (managed_eq same)

/-- A conversion that is alone has come as far as this. -/
def Underway
    (platform : Platform) (target : Target) (entry : Option Entry)
    (state : Sys × Convert) : Prop :=
  ∃ fs db srcfd h5fd choices,
    OneName fs ∧ Represents platform.libs fs target entry ∧
      Along (soloStep platform) (Steady platform)
          (⟨fs, db, .empty⟩, convert2h5 target .DZ_ALG_ZSTD srcfd h5fd)
          choices ∧
        run (soloStep platform)
            (⟨fs, db, .empty⟩, convert2h5 target .DZ_ALG_ZSTD srcfd h5fd)
            choices =
          some state

section Alone

variable
    {platform : Platform} {target : Target} {entry : Option Entry}
    {state next : Sys × Convert} {choice : Choice}

theorem underway_initial
    {fs : FileSystem} (oneName : OneName fs)
    (represents : Represents platform.libs fs target entry)
    (db : Metadata.Db) (srcfd h5fd : Int) :
    Underway platform target entry
      (⟨fs, db, .empty⟩, convert2h5 target .DZ_ALG_ZSTD srcfd h5fd) :=
  ⟨fs, db, srcfd, h5fd, [], oneName, represents, trivial, rfl⟩

theorem Underway.step
    (underway : Underway platform target entry state)
    (steady : Steady platform state choice)
    (stepped : soloStep platform state choice = some next) :
    Underway platform target entry next := by
  rcases underway with
    ⟨fs, db, srcfd, h5fd, choices, oneName, represents, along, ran⟩
  refine
    ⟨fs, db, srcfd, h5fd, choices ++ [choice], oneName, represents, ?_, ?_⟩
  · exact along.append ran ⟨steady, fun _ _ => trivial⟩
  · exact
      run_append choices ran
        (run_cons_eq_some.mpr ⟨next, stepped, rfl⟩)

theorem Underway.progress
    (underway : Underway platform target entry state)
    (small :
      ∀ content, entry = some (.plain content) →
        content.length < 2147483648 ∧ AllShort platform.libs content) :
    Progress platform.libs target entry state := by
  rcases underway with
    ⟨fs, db, srcfd, h5fd, choices, oneName, represents, along, ran⟩
  exact progress_of_conversion oneName represents small along ran

/-- What a thread is granted, it is granted alone. -/
theorem steady_of_alike
    {sys alone : Sys} {c : Convert} {mine : Process}
    {names : CString → Prop} {linked : Ino → Ino → Prop}
    (steady : Steady platform (sys, c) choice)
    (share : ShareOf mine sys.proc)
    (alike : Alike names linked ⟨sys.fs, sys.db, mine⟩ alone) :
    Steady platform (alone, c) choice where
  looks := steady.looks
  full := by
    intro place limit file granted held
    rcases alike.files c.srcfd with ⟨_, free⟩ | ⟨file', _, held', same, pair⟩
    · change alone.proc.fds c.srcfd = some file at held
      rw [free] at held
      cases held
    · change alone.proc.fds c.srcfd = some file at held
      rw [held] at same
      cases same
      have node : sys.fs.node file'.ino = alone.fs.node file.ino :=
        alike.node pair.ino
      have full :=
        steady.full place limit file' granted (share.fds _ _ held')
      change
        min H5_BUFSIZE
            (((sys.fs.node file'.ino).bytes platform).length -
              file'.offset) ≤
          limit at full
      rw [node, pair.offset] at full
      exact full
  finishes := steady.finishes

end Alone

/-! ## The invariant -/

/-- The processes that the threads stand for. -/
def shown
    (sys : Sys) (mine : Managed → Process) (locals : Managed → Convert) :
    World Managed Disk Process fun _ => Convert :=
  ⟨⟨sys.fs, sys.db⟩, mine, locals⟩

/-- No number is in both shares. -/
structure Asunder (mine theirs : Process) : Prop where
  fds : Shares.Apart mine.fds theirs.fds
  handles : Shares.Apart mine.handles theirs.handles

theorem Asunder.symm
    {mine theirs : Process} (asunder : Asunder mine theirs) :
    Asunder theirs mine :=
  ⟨asunder.fds.symm, asunder.handles.symm⟩

theorem asunder_empty (theirs : Process) : Asunder .empty theirs where
  fds := fun _ held => (held rfl).elim
  handles := fun _ held => (held rfl).elim

/-- The thread does what a conversion does that is alone. -/
structure Stands
    (platform : Platform) (store : Store) (sys : Sys)
    (mine : Managed → Process) (locals : Managed → Convert) (p : Managed)
    (c : Convert) : Prop where
  runs : locals p = c
  owns : Owns (mine p) c
  alone :
    ∃ linked alone,
      Solo (bounds platform) (shown sys mine locals) p linked alone ∧
        Underway platform p.1 (store p.1.path) (alone, c)

/-- Every thread has its own share, and what no thread converts is stored. -/
structure Tracks
    (platform : Platform) (store : Store) (sys : Sys)
    (worker : Nat → Worker) (mine : Managed → Process)
    (locals : Managed → Convert) : Prop where
  oneName : OneName sys.fs
  separate : Separate (bounds platform) (shown sys mine locals)
  shares : ∀ p, ShareOf (mine p) sys.proc
  asunder : ∀ p q, p ≠ q → Asunder (mine p) (mine q)
  filters :
    ∀ number program, worker number = .filtering program → Filters program
  stands :
    ∀ number c, Converts worker number c →
      ∃ p : Managed, c.target = p.1 ∧
        Stands platform store sys mine locals p c
  stored :
    ∀ p : Managed, ¬ Busy worker p.1.path →
      Represents platform.libs sys.fs p.1 (store p.1.path)

/-- Short plain contents, every chunk of which is stored. -/
def Storable (libs : Libs) (store : Store) : Prop :=
  ∀ path content, store path = some (.plain content) →
    content.length < 2147483648 ∧ AllShort libs content

/-- The stores differ in paths that have been converted. -/
def Grown (store store' : Store) : Prop :=
  ∀ path,
    store' path = store path ∨
      ∃ content,
        store path = some (.plain content) ∧
          store' path =
            some (.converted content (List.replicate content.length 0))

section Grown

variable {store store' : Store}

theorem converts_one (entry : Option Entry) : converts 1 entry = entry := by
  rcases entry with _ | ⟨_ | _ | _⟩ <;> rfl

/-- A conversion leaves an entry alone, or moves a plain content. -/
theorem converts_cases (ret : Int) (entry : Option Entry) :
    converts ret entry = entry ∨
      ∃ content,
        entry = some (.plain content) ∧
          converts ret entry =
            some (.converted content (List.replicate content.length 0)) := by
  rcases entry with _ | ⟨_ | content | _⟩
  · exact Or.inl rfl
  · exact Or.inl rfl
  · by_cases zero : ret = 0
    · exact Or.inr ⟨content, rfl, by rw [converts, if_pos zero]⟩
    · exact Or.inl (by rw [converts, if_neg zero])
  · exact Or.inl rfl

theorem Grown.set
    (grown : Grown store store') (path : CString) (ret : Int) :
    Grown store (store'.set path (converts ret (store' path))) := by
  intro other
  by_cases here : other = path
  · subst here
    rw [Store.set_self]
    rcases grown other with same | ⟨content, plain, moved⟩
    · rw [same]
      exact converts_cases ret (store other)
    · rw [moved]
      exact Or.inr ⟨content, plain, rfl⟩
  · rw [Store.set_of_ne here]
    exact grown other

theorem Grown.storable
    {libs : Libs} (grown : Grown store store')
    (storable : Storable libs store) :
    Storable libs store' := by
  intro path content plain
  rcases grown path with same | ⟨_, _, moved⟩
  · rw [same] at plain
    exact storable path content plain
  · rw [moved] at plain
    cases plain

theorem Grown.content
    (grown : Grown store store') (path : CString) :
    store'.content path = store.content path := by
  rw [Store.content, Store.content]
  rcases grown path with same | ⟨content, plain, moved⟩
  · rw [same]
  · rw [plain, moved]
    rfl

end Grown

section Threads

variable
    {platform : Platform} {store : Store} {sys later : Sys}
    {worker : Nat → Worker} {mine : Managed → Process}
    {locals : Managed → Convert} {number : Nat} {next : Worker}

/-- The others convert what they did. -/
theorem converts_update_of_ne
    {other : Nat} (different : other ≠ number) {c : Convert} :
    Converts (Function.update worker number next) other c ↔
      Converts worker other c := by
  unfold Converts
  rw [Function.update_of_ne different]

theorem converts_update_self {c : Convert} :
    Converts (Function.update worker number next) number c ↔
      next = .converting c ∧ c.pc ≠ .returned := by
  unfold Converts
  rw [Function.update_self]

/-- A thread that converts nothing comes to convert nothing else. -/
theorem Tracks.rests
    (tracks : Tracks platform store sys worker mine locals)
    (idle : ∀ c, ¬ Converts worker number c)
    (idle' : ∀ c, next ≠ .converting c)
    (filters : ∀ program, next = .filtering program → Filters program) :
    Tracks platform store sys (Function.update worker number next) mine
      locals := by
  have same :
      ∀ other c,
        Converts (Function.update worker number next) other c ↔
          Converts worker other c := by
    intro other c
    by_cases mover : other = number
    · subst mover
      rw [converts_update_self]
      exact
        ⟨fun converts => (idle' c converts.1).elim,
          fun converts => (idle c converts).elim⟩
    · exact converts_update_of_ne mover
  refine ⟨tracks.oneName, tracks.separate, tracks.shares, tracks.asunder, ?_,
    ?_, ?_⟩
  · intro other program filtering
    by_cases mover : other = number
    · subst mover
      rw [Function.update_self] at filtering
      exact filters program filtering
    · rw [Function.update_of_ne mover] at filtering
      exact tracks.filters other program filtering
  · intro other c converts
    exact tracks.stands other c ((same other c).mp converts)
  · intro p quiet
    apply tracks.stored p
    rintro ⟨other, c, converts, path⟩
    exact quiet ⟨other, c, (same other c).mpr converts, path⟩

/-- A thread begins a conversion with a share of its own. -/
theorem Tracks.begins
    (tracks : Tracks platform store sys worker mine locals)
    (idle : ∀ c, ¬ Converts worker number c) {target : Target}
    (ordinary : Ordinary target.path) {srcfd h5fd : Int}
    (source : srcfd ≤ 0) (image : h5fd ≤ 0)
    (distinct :
      Distinct
        (Function.update worker number
          (.converting (convert2h5 target .DZ_ALG_ZSTD srcfd h5fd)))) :
    ∃ mine' locals',
      Tracks platform store sys
        (Function.update worker number
          (.converting (convert2h5 target .DZ_ALG_ZSTD srcfd h5fd)))
        mine' locals' := by
  have apart :
      ∀ other c, Converts worker other c → other ≠ number ∧
        c.target.path ≠ target.path := by
    intro other c converts
    have different : other ≠ number := by
      rintro rfl
      exact idle c converts
    refine ⟨different, fun same => different ?_⟩
    refine
      distinct other number c _
        ((converts_update_of_ne different).mpr converts)
        (converts_update_self.mpr ⟨rfl, ?_⟩) same
    exact Pc.noConfusion
  have quiet : ¬ Busy worker target.path := by
    rintro ⟨other, c, converts, same⟩
    exact (apart other c converts).2 same
  let p : Managed := ⟨target, ordinary⟩
  let c₀ := convert2h5 target .DZ_ALG_ZSTD srcfd h5fd
  have bounded : (bounds platform).bounded p c₀ := rfl
  rcases tracks.separate.restart bounded with ⟨separate, linked, solo⟩
  have tables :
      ∀ q, q ≠ p → Function.update mine p .empty q = mine q :=
    fun q different => Function.update_of_ne different _ _
  have empty : Function.update mine p .empty p = .empty :=
    Function.update_self _ _ _
  refine
    ⟨Function.update mine p .empty, Function.update locals p c₀,
      tracks.oneName, separate, ?_, ?_, ?_, ?_, ?_⟩
  · intro q
    by_cases same : q = p
    · rw [same, empty]
      exact ⟨within_empty _, within_empty _⟩
    · rw [tables q same]
      exact tracks.shares q
  · intro q r different
    by_cases first : q = p
    · rw [first, empty]
      exact asunder_empty _
    · by_cases second : r = p
      · rw [second, empty]
        exact (asunder_empty _).symm
      · rw [tables q first, tables r second]
        exact tracks.asunder q r different
  · intro other program filtering
    by_cases mover : other = number
    · subst mover
      rw [Function.update_self] at filtering
      cases filtering
    · rw [Function.update_of_ne mover] at filtering
      exact tracks.filters other program filtering
  · intro other c converts
    by_cases mover : other = number
    · subst mover
      rcases converts_update_self.mp converts with ⟨same, _⟩
      cases same
      exact
        ⟨p, rfl, Function.update_self _ _ _,
          owns_initial target .DZ_ALG_ZSTD source image, linked, _, solo,
          underway_initial tracks.oneName (tracks.stored p quiet) sys.db
            srcfd h5fd⟩
    · have before := (converts_update_of_ne mover).mp converts
      rcases tracks.stands other c before with
        ⟨q, target', runs, owns, linked', alone, solo', underway⟩
      have different : q ≠ p := by
        rintro rfl
        apply (apart other c before).2
        rw [target']
      refine ⟨q, target', ?_, ?_, linked', alone, ?_, underway⟩
      · rw [Function.update_of_ne different]
        exact runs
      · rw [tables q different]
        exact owns
      · exact solo_of_restarted different solo'
  · intro q quiet'
    apply tracks.stored q
    rintro ⟨other, c, converts, same⟩
    exact
      quiet'
        ⟨other, c,
          (converts_update_of_ne (apart other c converts).1).mpr converts,
          same⟩

variable {c c' : Convert} {choice : Choice} {p : Managed}

/-- A call of a thread is one of the process it stands for. -/
theorem step_of_thread
    (share : ShareOf (mine p) sys.proc) (runs : locals p = c)
    (owns : Owns (mine p) c)
    (stepped : c.step platform sys choice = some (later, c')) :
    ∃ mine',
      soloStep platform (⟨sys.fs, sys.db, mine p⟩, c) choice =
          some (⟨later.fs, later.db, mine'⟩, c') ∧
        Takes (mine p) sys.proc mine' later.proc ∧
          (processes platform fun (_ : Managed) (c : Convert) =>
              c.action platform.libs).step
              (shown sys mine locals) (p, choice) =
            some
              (shown later (Function.update mine p mine')
                (Function.update locals p c')) := by
  rcases advance_eq_some.mp stepped with
    ⟨op, cont, reply, action, called, rfl⟩
  rcases restricts_of_kernel share (holds_of_owns owns action) called with
    ⟨mine', called', takes⟩
  have alone :
      soloStep platform (⟨sys.fs, sys.db, mine p⟩, c) choice =
        some (⟨later.fs, later.db, mine'⟩, cont reply) :=
    advance_eq_some.mpr ⟨op, cont, reply, action, called', rfl⟩
  refine ⟨mine', alone, takes, ?_⟩
  apply Option.map_eq_some_iff.mpr
  refine ⟨(⟨later.fs, later.db, mine'⟩, cont reply), ?_, rfl⟩
  rw [← runs] at alone
  exact alone

/-- The step lemma: a thread moves, and the others stay where they are. -/
theorem Tracks.moved
    {mine' : Process} {entry : Option Entry}
    (tracks : Tracks platform store sys worker mine locals)
    (distinct : Distinct worker) (converts : Converts worker number c)
    (target : c.target = p.1) (oneName : OneName later.fs)
    (takes : Takes (mine p) sys.proc mine' later.proc)
    (stepped :
      (processes platform fun (_ : Managed) (c : Convert) =>
          c.action platform.libs).step
          (shown sys mine locals) (p, choice) =
        some
          (shown later (Function.update mine p mine')
            (Function.update locals p c')))
    (going :
      c'.pc ≠ .returned →
        Stands platform (store.set p.1.path entry) later
          (Function.update mine p mine') (Function.update locals p c') p c')
    (gone :
      c'.pc = .returned → Represents platform.libs later.fs p.1 entry) :
    Tracks platform (store.set p.1.path entry) later
      (Function.update worker number (.converting c'))
      (Function.update mine p mine') (Function.update locals p c') := by
  have separate := tracks.separate.step stepped
  have target' : c'.target = p.1 := by
    have bounded := separate.bounded p
    change (Function.update locals p c' p).target = p.1 at bounded
    rw [Function.update_self] at bounded
    exact bounded
  have tables : ∀ q, q ≠ p → Function.update mine p mine' q = mine q :=
    fun q different => Function.update_of_ne different _ _
  have taken : Function.update mine p mine' p = mine' :=
    Function.update_self _ _ _
  have paths : ∀ q : Managed, q ≠ p → q.1.path ≠ p.1.path :=
    fun q different same => different (managed_eq same)
  refine ⟨oneName, separate, ?_, ?_, ?_, ?_, ?_⟩
  · intro q
    by_cases same : q = p
    · subst same
      rw [taken]
      exact
        ⟨(tracks.shares q).fds.sets takes.fds,
          (tracks.shares q).handles.sets takes.handles⟩
    · have asunder := tracks.asunder p q (Ne.symm same)
      rw [tables q same]
      exact
        ⟨(tracks.shares q).fds.others asunder.fds takes.fds,
          (tracks.shares q).handles.others asunder.handles takes.handles⟩
  · have others : ∀ q, q ≠ p → Asunder mine' (mine q) := by
      intro q different
      have asunder := tracks.asunder p q (Ne.symm different)
      exact
        ⟨Shares.Apart.sets (tracks.shares q).fds asunder.fds takes.fds,
          Shares.Apart.sets (tracks.shares q).handles asunder.handles
            takes.handles⟩
    intro q r different
    by_cases first : q = p
    · subst first
      rw [taken, tables r (Ne.symm different)]
      exact others r (Ne.symm different)
    · by_cases second : r = p
      · subst second
        rw [taken, tables q first]
        exact (others q first).symm
      · rw [tables q first, tables r second]
        exact tracks.asunder q r different
  · intro other program filtering
    by_cases mover : other = number
    · subst mover
      rw [Function.update_self] at filtering
      cases filtering
    · rw [Function.update_of_ne mover] at filtering
      exact tracks.filters other program filtering
  · intro other d converts'
    by_cases mover : other = number
    · subst mover
      rcases converts_update_self.mp converts' with ⟨same, notReturned⟩
      cases same
      exact ⟨p, target', going notReturned⟩
    · have before := (converts_update_of_ne mover).mp converts'
      rcases tracks.stands other d before with
        ⟨q, target'', runs, owns, linked, alone, solo, underway⟩
      have different : q ≠ p := by
        rintro rfl
        apply mover
        apply distinct other number d c before converts
        rw [target'', target]
      refine ⟨q, target'', ?_, ?_, linked, alone, ?_, ?_⟩
      · rw [Function.update_of_ne different]
        exact runs
      · rw [tables q different]
        exact owns
      · exact
          solo_of_other solo (Ne.symm different) (tracks.separate.bounded p)
            stepped
      · rw [Store.set_of_ne (paths q different)]
        exact underway
  · intro q quiet
    by_cases same : q = p
    · subst same
      rw [Store.set_self]
      apply gone
      by_contra notReturned
      apply quiet
      refine
        ⟨number, c', converts_update_self.mpr ⟨rfl, notReturned⟩, ?_⟩
      rw [target']
    · rw [Store.set_of_ne (paths q same)]
      have before : ¬ Busy worker q.1.path := by
        rintro ⟨other, d, converts', path⟩
        have mover : other ≠ number := by
          rintro rfl
          have together := converts.1.symm.trans converts'.1
          cases together
          rw [target] at path
          exact paths q same path.symm
        exact
          quiet
            ⟨other, d, (converts_update_of_ne mover).mpr converts', path⟩
      have kept :
          ∀ name, namesOf q.1 name →
            later.fs.lookup name = sys.fs.lookup name :=
        fun name named =>
          tracks.separate.lookup_of_step (Ne.symm same) stepped named
      exact
        (tracks.stored q before).congr (kept _ (Or.inl rfl))
          (kept _ (Or.inr (Or.inl rfl)))

/-- A thread moves: its conversion goes on, or its path is stored again. -/
theorem Tracks.moves
    (tracks : Tracks platform store sys worker mine locals)
    (distinct : Distinct worker) (converting : Converts worker number c)
    (storable : Storable platform.libs store)
    (steady : Steady platform (sys, c) choice)
    (stepped : c.step platform sys choice = some (later, c')) :
    ∃ path ret mine' locals',
      Tracks platform (store.set path (converts ret (store path))) later
        (Function.update worker number (.converting c')) mine' locals' := by
  rcases tracks.stands number c converting with
    ⟨p, target, runs, owns, linked, alone, solo, underway⟩
  rcases step_of_thread (tracks.shares p) runs owns stepped with
    ⟨mine', shared, takes, moved⟩
  have oneName : OneName later.fs := by
    rcases advance_eq_some.mp stepped with ⟨_, _, _, _, called, _⟩
    exact tracks.oneName.step (entryStep_of_kernel called)
  have runs' : Function.update locals p c' p = c' :=
    Function.update_self _ _ _
  rcases
    solo.own tracks.separate.old (tracks.separate.bounded p) moved with
    ⟨linked', later', alone', solo'⟩
  have underway' : Underway platform p.1 (store p.1.path) (later', c') := by
    apply underway.step (steady_of_alike steady (tracks.shares p) solo.alike)
    change
      advance (kernel platform) (Convert.action platform.libs) alone
          (locals p) choice =
        some (later', Function.update locals p c' p) at alone'
    rw [runs, runs'] at alone'
    exact alone'
  by_cases returned : c'.pc = .returned
  · refine ⟨p.1.path, c'.ret, _, _, tracks.moved distinct converting target
      oneName takes moved (fun going => (going returned).elim) fun _ => ?_⟩
    have progress := underway'.progress (storable p.1.path)
    exact
      (progress.returned returned).congr (solo'.alike.lookup (Or.inl rfl))
        (solo'.alike.lookup (Or.inr (Or.inl rfl)))
  · refine ⟨p.1.path, 1, _, _, tracks.moved distinct converting target
      oneName takes moved (fun _ => ?_) fun gone => (returned gone).elim⟩
    refine ⟨runs', ?_, linked', later', solo', ?_⟩
    · rw [Function.update_self]
      exact Owns.step owns shared
    · rw [Store.set_self, converts_one]
      exact underway'

/-- A thread goes on with what its tests have come to. -/
theorem Tracks.goes_on
    (tracks : Tracks platform store sys worker mine locals)
    (idle : ∀ c, ¬ Converts worker number c)
    {program : Call (Option Target)} (filters : Filters program)
    {srcfd h5fd : Int} (source : srcfd ≤ 0) (image : h5fd ≤ 0)
    (distinct :
      Distinct
        (Function.update worker number
          (World.nextWorker program srcfd h5fd))) :
    ∃ mine' locals',
      Tracks platform store sys
        (Function.update worker number
          (World.nextWorker program srcfd h5fd))
        mine' locals' := by
  cases program with
  | ret found =>
      cases found with
      | none =>
          exact
            ⟨mine, locals,
              tracks.rests idle (fun _ => Worker.noConfusion)
                fun _ => Worker.noConfusion⟩
      | some target =>
          exact
            tracks.begins idle (filters.passes target rfl) source image
              distinct
  | call op next =>
      refine
        ⟨mine, locals, tracks.rests idle (fun _ => Worker.noConfusion) ?_⟩
      intro program same
      cases same
      exact filters
  | fault =>
      refine
        ⟨mine, locals, tracks.rests idle (fun _ => Worker.noConfusion) ?_⟩
      intro program same
      cases same
      exact filters

/-- A path is stored until a thread has renamed its temporary file. -/
theorem Tracks.represents
    (tracks : Tracks platform store sys worker mine locals)
    (storable : Storable platform.libs store)
    (unrenamed : ¬ Renamed worker p.1.path) :
    Represents platform.libs sys.fs p.1 (store p.1.path) := by
  by_cases busy : Busy worker p.1.path
  · rcases busy with ⟨number, c, converting, path⟩
    rcases tracks.stands number c converting with
      ⟨q, target, _, _, linked, alone, solo, underway⟩
    rw [target] at path
    cases managed_eq path
    have behind : renamed c = false := by
      rw [← Bool.not_eq_true]
      intro behind
      exact unrenamed ⟨number, c, converting, by rw [target], behind⟩
    have progress := underway.progress (storable p.1.path)
    exact
      (progress.unrenamed behind).congr (solo.alike.lookup (Or.inl rfl))
        (solo.alike.lookup (Or.inr (Or.inl rfl)))
  · exact tracks.stored p busy

/-- A content survives unless a thread has emptied the file. -/
theorem Tracks.survives
    (tracks : Tracks platform store sys worker mine locals)
    (storable : Storable platform.libs store) {content : Bytes}
    (same : store.content p.1.path = some content)
    (whole : ¬ Cutting worker p.1.path) :
    Survives platform.libs sys.fs p.1 content := by
  by_cases busy : Busy worker p.1.path
  · rcases busy with ⟨number, c, converting, path⟩
    rcases tracks.stands number c converting with
      ⟨q, target, _, _, linked, alone, solo, underway⟩
    rw [target] at path
    cases managed_eq path
    have notCut : cutting c = false := by
      rw [← Bool.not_eq_true]
      intro cut
      exact whole ⟨number, c, converting, by rw [target], cut⟩
    have progress := underway.progress (storable p.1.path)
    exact
      (progress.survives content same notCut).congr
        (solo.alike.lookup (Or.inl rfl))
        (solo.alike.lookup (Or.inr (Or.inl rfl)))
  · exact (tracks.stored p busy).survives same

end Threads

/-! ## Runs of the walker -/

/--
What the environment grants the walker: no client calls, the locals its
threads do not initialise stand for no number, and its conversions are
steady.
-/
def Tended (platform : Platform) (world : Scan.World) : Scan.Label → Prop
  | .take _ srcfd h5fd => srcfd ≤ 0 ∧ h5fd ≤ 0
  | .work number choice srcfd h5fd =>
      srcfd ≤ 0 ∧ h5fd ≤ 0 ∧
        ∀ c, world.worker number = .converting c →
          Steady platform (world.sys, c) choice
  | .unlink _ _ => False
  | .client _ _ => False
  | _ => True

/-- A step of the walker itself. -/
def isOwn : Scan.Label → Bool
  | .unlink _ _ => false
  | .client _ _ => false
  | _ => true

/-- The thread that moves. -/
def mover : Scan.Label → Option Nat
  | .take number _ _ => some number
  | .work number _ _ _ => some number
  | _ => none

/-- What a step of the walker does to the files and to its threads. -/
inductive Acts
    (platform : Platform) (configure : Configure) (world : Scan.World) :
    Scan.Label → Sys → (Nat → Worker) → Prop where
  | scans {label : Scan.Label} (main : mover label = none) :
      Acts platform configure world label world.sys world.worker
  | takes
      (number : Nat) (srcfd h5fd : Int) (filename : CString)
      (free : world.isFree number = true) :
      Acts platform configure world (.take number srcfd h5fd) world.sys
        (Function.update world.worker number
          (World.nextWorker (process_file configure.policy filename) srcfd
            h5fd))
  | tests
      (number : Nat) (choice : Choice) (srcfd h5fd : Int) (op : Op)
      (following : Reply op → Call (Option Target)) (reply : Reply op)
      (later : Sys)
      (thread : world.worker number = .filtering (.call op following))
      (called :
        kernel platform world.sys choice op = some (reply, later)) :
      Acts platform configure world (.work number choice srcfd h5fd) later
        (Function.update world.worker number
          (World.nextWorker (following reply) srcfd h5fd))
  | converts
      (number : Nat) (choice : Choice) (srcfd h5fd : Int)
      (c c' : Convert) (later : Sys)
      (thread : world.worker number = .converting c)
      (moved : c.step platform world.sys choice = some (later, c')) :
      Acts platform configure world (.work number choice srcfd h5fd) later
        (Function.update world.worker number (.converting c'))

/-- The walker tracks a store with the contents of this one. -/
def Kept
    (platform : Platform) (store : Store) (sys : Sys)
    (worker : Nat → Worker) : Prop :=
  ∃ store' mine locals,
    Grown store store' ∧ Tracks platform store' sys worker mine locals

section Walker

variable
    {platform : Platform} {configure : Configure} {store : Store}
    {world next : Scan.World} {label : Scan.Label}

theorem Tended.own
    (tended : Tended platform world label) : isOwn label = true := by
  cases label with
  | unlink number path => exact tended.elim
  | client number choice => exact tended.elim
  | _ => rfl

theorem acts_of_work
    {number : Nat} {choice : Choice} {srcfd h5fd : Int}
    (worked : world.work platform number choice srcfd h5fd = some next) :
    Acts platform configure world (.work number choice srcfd h5fd) next.sys
      next.worker := by
  simp only [World.work] at worked
  cases thread : world.worker number with
  | idle =>
      rw [thread] at worked
      cases worked
  | filtering program =>
      rw [thread] at worked
      cases program with
      | ret value => cases worked
      | fault => cases worked
      | call op following =>
          rcases Option.map_eq_some_iff.mp worked with
            ⟨⟨reply, later⟩, called, rfl⟩
          exact
            .tests number choice srcfd h5fd op following reply later thread
              called
  | converting c =>
      rw [thread] at worked
      rcases Option.map_eq_some_iff.mp worked with
        ⟨⟨later, c'⟩, moved, rfl⟩
      exact .converts number choice srcfd h5fd c c' later thread moved

theorem acts_of_step
    (own : isOwn label = true)
    (stepped : Scan.step platform configure world label = some next) :
    Acts platform configure world label next.sys next.worker := by
  cases label with
  | opendir choice =>
      simp only [Scan.step] at stepped
      split at stepped
      · split at stepped
        · cases stepped
          exact .scans rfl
        · cases stepped
          exact .scans rfl
      · cases stepped
  | getdents names =>
      simp only [Scan.step] at stepped
      split at stepped
      · split at stepped
        · cases stepped
          exact .scans rfl
        · split at stepped
          · cases stepped
            exact .scans rfl
          · cases stepped
      · cases stepped
  | readdir =>
      simp only [Scan.step] at stepped
      split at stepped
      · split at stepped
        · cases stepped
          exact .scans rfl
        · cases stepped
          exact .scans rfl
      · cases stepped
  | stat choice old =>
      simp only [Scan.step] at stepped
      split at stepped
      · rcases Option.map_eq_some_iff.mp stepped with
          ⟨⟨found, later⟩, called, rfl⟩
        cases found with
        | ok stbuf => exact .scans rfl
        | error errno => exact .scans rfl
      · cases stepped
  | take number srcfd h5fd =>
      simp only [Scan.step] at stepped
      split at stepped
      · rename_i free
        split at stepped
        · cases stepped
        · cases stepped
          exact .takes number srcfd h5fd _ free
      · cases stepped
  | work number choice srcfd h5fd => exact acts_of_work stepped
  | unlink number path => cases own
  | client number choice => cases own

theorem not_converts_of_free
    {number : Nat} (free : world.isFree number = true) (c : Convert) :
    ¬ Converts world.worker number c := by
  rintro ⟨thread, notReturned⟩
  simp only [World.isFree, thread, decide_eq_true_eq] at free
  exact notReturned free

/-- The step lemma. -/
theorem Kept.step
    {later : Sys} {worker : Nat → Worker}
    (kept : Kept platform store world.sys world.worker)
    (storable : Storable platform.libs store)
    (tended : Tended platform world label)
    (distinct : Distinct world.worker) (distinct' : Distinct worker)
    (acts : Acts platform configure world label later worker) :
    Kept platform store later worker := by
  rcases kept with ⟨store', mine, locals, grown, tracks⟩
  cases acts with
  | scans main => exact ⟨store', mine, locals, grown, tracks⟩
  | takes number srcfd h5fd filename free =>
      rcases
        tracks.goes_on (not_converts_of_free free)
          (filters_process_file configure.policy filename) tended.1 tended.2
          distinct' with
        ⟨mine', locals', tracks'⟩
      exact ⟨store', mine', locals', grown, tracks'⟩
  | tests number choice srcfd h5fd op following reply later thread called =>
      have filters := tracks.filters number _ thread
      have same : later = world.sys := by
        have look := filters.looks.1
        cases op with
        | stat path => exact (Opening.stat_reply called).1
        | _ => exact look.elim
      subst same
      have idle : ∀ c, ¬ Converts world.worker number c := by
        rintro c ⟨other, _⟩
        rw [thread] at other
        cases other
      have filters' : Filters (following reply) :=
        ⟨filters.looks.2 reply, filters.passes reply⟩
      rcases
        tracks.goes_on idle filters' tended.1 tended.2.1 distinct' with
        ⟨mine', locals', tracks'⟩
      exact ⟨store', mine', locals', grown, tracks'⟩
  | converts number choice srcfd h5fd c c' later thread moved =>
      have notReturned : c.pc ≠ .returned := by
        intro returned
        rcases advance_eq_some.mp moved with ⟨_, _, _, action, _, _⟩
        simp only [Convert.action, returned] at action
        cases action
      rcases
        tracks.moves distinct ⟨thread, notReturned⟩ (grown.storable storable)
          (tended.2.2 c thread) moved with
        ⟨path, ret, mine', locals', tracks'⟩
      exact ⟨_, mine', locals', grown.set path ret, tracks'⟩

/-- Before the first step there are no threads at work. -/
theorem kept_start
    {fs : FileSystem} (refines : Refines platform.libs fs store)
    (db : Metadata.Db) (walker : Process) (client : Nat → Process) :
    Kept platform store (World.start fs db walker client).sys
      (World.start fs db walker client).worker := by
  have bounded :
      ∀ p : Managed,
        (bounds platform).bounded p (convert2h5 p.1 .DZ_ALG_ZSTD 0 0) :=
    fun _ => rfl
  refine
    ⟨store, fun _ => .empty, fun p => convert2h5 p.1 .DZ_ALG_ZSTD 0 0,
      fun _ => Or.inl rfl, refines.oneName, ?_, ?_, ?_, ?_, ?_, ?_⟩
  · have oneName : OneName (Disk.mk fs db).fs := refines.oneName
    exact separate_started oneName bounded
  · exact fun _ => ⟨within_empty _, within_empty _⟩
  · exact fun _ _ _ => asunder_empty _
  · intro number program filtering
    cases filtering
  · rintro number c ⟨converting, _⟩
    cases converting
  · exact fun p _ => refines.represents p.1 p.2

/-- A run in which the environment grants the walker what it needs. -/
structure Granted
    (platform : Platform) (configure : Configure) (world : Scan.World)
    (labels : List Scan.Label) : Prop where
  tended :
    Along (Scan.step platform configure) (Tended platform) world labels
  distinct :
    Throughout (Scan.step platform configure)
      (fun world => Distinct world.worker) world labels

theorem kept_of_run
    {fs : FileSystem} (refines : Refines platform.libs fs store)
    (storable : Storable platform.libs store)
    {db : Metadata.Db} {walker : Process} {client : Nat → Process}
    {labels : List Scan.Label} {final : Scan.World}
    (ran :
      run (Scan.step platform configure) (.start fs db walker client) labels =
        some final)
    (granted :
      Granted platform configure (.start fs db walker client) labels) :
    Kept platform store final.sys final.worker := by
  refine
    run_invariant_along
      (fun world => Kept platform store world.sys world.worker) ?_
      (kept_start refines db walker client)
      (granted.tended.and granted.distinct.along) ran
  rintro world label next kept ⟨tended, here, there⟩ stepped
  exact
    kept.step storable tended here (there next stepped)
      (acts_of_step tended.own stepped)

/-- A life of the walker: how it starts, and what it does until its end. -/
structure Life where
  walker : Process
  client : Nat → Process
  labels : List Scan.Label

/-- The walker as it starts on a disk. -/
def Life.start (life : Life) (disk : Disk) : Scan.World :=
  .start disk.fs disk.db life.walker life.client

/-- A file whose writing handle is gone with its process. -/
def unlocked : Node → Node
  | .image image => .image { image with writer := false }
  | node => node

/-- What is left of a file system when its process has been killed. -/
def leftBehind (fs : FileSystem) : FileSystem :=
  { fs with node := fun ino => unlocked (fs.node ino) }

/-- What a walker leaves on the disk that is killed. -/
def live
    (platform : Platform) (configure : Configure) (disk : Disk)
    (life : Life) : Option Disk :=
  (run (Scan.step platform configure) (life.start disk) life.labels).map
    fun final => ⟨leftBehind final.fs, final.db⟩

theorem lookup_leftBehind (fs : FileSystem) (path : CString) :
    (leftBehind fs).lookup path = (fs.lookup path).map unlocked :=
  (Option.map_map unlocked fs.node (fs.entry path)).symm

/-- It is killed when no thread is between its `rename` and its return. -/
structure Spared
    (platform : Platform) (configure : Configure) (disk : Disk)
    (life : Life) : Prop where
  granted : Granted platform configure (life.start disk) life.labels
  unrenamed :
    ∀ final,
      run (Scan.step platform configure) (life.start disk) life.labels =
          some final →
        ∀ path, ¬ Renamed final.worker path

theorem Grown.trans
    {store₁ store₂ store₃ : Store} (first : Grown store₁ store₂)
    (second : Grown store₂ store₃) :
    Grown store₁ store₃ := by
  intro path
  rcases second path with same | ⟨content, plain, moved⟩
  · rw [same]
    exact first path
  · rcases first path with same | ⟨_, _, moved'⟩
    · rw [same] at plain
      exact Or.inr ⟨content, plain, moved⟩
    · rw [moved'] at plain
      cases plain

/-- What is stored is read without the lock. -/
theorem represents_leftBehind
    {libs : Libs} {fs : FileSystem} {target : Target} {entry : Option Entry}
    (represents : Represents libs fs target entry) :
    Represents libs (leftBehind fs) target entry := by
  cases represents with
  | absent missing noImage =>
      refine .absent ?_ ?_
      · rw [lookup_leftBehind, missing]
        rfl
      · rw [lookup_leftBehind, noImage]
        rfl
  | directory found noImage =>
      refine .directory ?_ ?_
      · rw [lookup_leftBehind, found]
        rfl
      · rw [lookup_leftBehind, noImage]
        rfl
  | plain content found noImage =>
      refine .plain content ?_ ?_
      · rw [lookup_leftBehind, found]
        rfl
      · rw [lookup_leftBehind, noImage]
        rfl
  | converted content placeholder image found held closed small wellFormed =>
      refine
        .converted content placeholder { image with writer := false } ?_ ?_
          closed small fun dstlen => ?_
      · rw [lookup_leftBehind, found]
        rfl
      · rw [lookup_leftBehind, held]
        rfl
      · rcases wellFormed dstlen with ⟨⟨algorithm, fetched⟩, ended⟩
        exact ⟨⟨algorithm, fetched⟩, ended⟩

/-- A life leaves a store with the same contents. -/
theorem refines_of_life
    {disk disk' : Disk} {life : Life}
    (refines : Refines platform.libs disk.fs store)
    (storable : Storable platform.libs store)
    (spared : Spared platform configure disk life)
    (lived : live platform configure disk life = some disk') :
    ∃ store', Grown store store' ∧ Refines platform.libs disk'.fs store' := by
  rcases Option.map_eq_some_iff.mp lived with ⟨final, ran, rfl⟩
  rcases kept_of_run refines storable ran spared.granted with
    ⟨store', mine, locals, grown, tracks⟩
  refine ⟨store', grown, tracks.oneName, ?_⟩
  intro target ordinary
  apply represents_leftBehind
  exact
    @Tracks.represents platform store' _ _ mine locals ⟨target, ordinary⟩
      tracks (grown.storable storable) (spared.unrenamed final ran target.path)

/-- The run lemma. -/
theorem refines_of_lives
    {disk disk' : Disk} {lives : List Life}
    (refines : Refines platform.libs disk.fs store)
    (storable : Storable platform.libs store)
    (spared :
      Along (live platform configure) (Spared platform configure) disk lives)
    (lived : run (live platform configure) disk lives = some disk') :
    ∃ store', Grown store store' ∧ Refines platform.libs disk'.fs store' := by
  refine
    run_invariant_along
      (fun disk =>
        ∃ store', Grown store store' ∧ Refines platform.libs disk.fs store')
      ?_ ⟨store, fun _ => Or.inl rfl, refines⟩ spared lived
  rintro disk life later ⟨store', grown, refines'⟩ spared lived
  rcases
    refines_of_life refines' (grown.storable storable) spared lived with
    ⟨store'', grown', refines''⟩
  exact ⟨store'', grown.trans grown', refines''⟩

/-- The threads that do not move stay where they are. -/
theorem worker_of_acts
    {later : Sys} {worker : Nat → Worker}
    (acts : Acts platform configure world label later worker) {number : Nat}
    (other : mover label ≠ some number) :
    worker number = world.worker number := by
  cases acts with
  | scans main => rfl
  | _ =>
      exact
        Function.update_of_ne (fun same => other (by rw [same]; rfl)) _ _

end Walker

/-! ## Two files at once -/

def targetOfF : Target where
  path := ['/', 'd', '/', 'f']
  h5name := ['/', 'd', '/', '.', 'f', '.', 'D', 'Z', 'F']
  built := by decide

def targetOfG : Target where
  path := ['/', 'd', '/', 'g']
  h5name := ['/', 'd', '/', '.', 'g', '.', 'D', 'Z', 'F']
  built := by decide

/-- The directory `/d` with the files `/d/f` and `/d/g`. -/
def twoFiles : FileSystem :=
  storeD.link targetOfG.path (.file [8])

def twoContents : Store :=
  ((Store.set (fun _ => none) targetD.path (some .directory)).set
    targetOfF.path (some (.plain [7]))).set
    targetOfG.path (some (.plain [8]))

theorem refines_twoContents : Refines storingLibs twoFiles twoContents := by
  have ordinary : Ordinary targetD.path := ordinary_of_not_hidden (by decide)
  have ordinaryF : Ordinary targetOfF.path :=
    ordinary_of_not_hidden (by decide)
  have ordinaryG : Ordinary targetOfG.path :=
    ordinary_of_not_hidden (by decide)
  have folder :=
    (refines_initial storingLibs).link ordinary rfl (Or.inl ⟨rfl, rfl⟩)
  have withF := folder.link ordinaryF rfl (Or.inr ⟨[7], rfl, rfl⟩)
  exact withF.link ordinaryG rfl (Or.inr ⟨[8], rfl, rfl⟩)

theorem storable_twoContents : Storable storingLibs twoContents := by
  have short :
      ∀ byte : Byte,
        [byte].length < 2147483648 ∧ AllShort storingLibs [byte] := by
    intro byte
    rw [List.length_singleton]
    refine ⟨by decide, allShort_storing ?_⟩
    rw [List.length_singleton, H5_BUFSIZE_eq]
    decide
  intro path content plain
  by_cases second : path = targetOfG.path
  · rw [second, twoContents, Store.set_self] at plain
    cases plain
    exact short 8
  · rw [twoContents, Store.set_of_ne second] at plain
    by_cases first : path = targetOfF.path
    · rw [first, Store.set_self] at plain
      cases plain
      exact short 7
    · rw [Store.set_of_ne first, Store.set, Function.update_apply] at plain
      split at plain <;> cases plain

/-- Two threads take a path each, and convert it turn by turn. -/
def turnByTurn : List Scan.Label :=
  [.opendir (.ok 0), .getdents [['f'], ['g']], .readdir, .stat (.ok 0) true,
      .readdir, .stat (.ok 0) true, .take 0 0 0, .take 1 0 0] ++
    (List.replicate 17
      [Scan.Label.work 0 (.ok 4194304) 0 0,
        Scan.Label.work 1 (.ok 4194305) 0 0]).flatten

/-- The scan of `/d` begins. -/
def scanning (disk : Disk) : Scan.World :=
  .start disk.fs disk.db .empty fun _ => .empty

/-- A walker that is killed after some calls. -/
def killedAfter (calls : Nat) : Life where
  walker := .empty
  client := fun _ => .empty
  labels := turnByTurn.take calls

theorem tended_turnByTurn
    (world : Scan.World) :
    ∀ label ∈ turnByTurn, Tended storingPlatform world label := by
  have large : H5_BUFSIZE ≤ 4194304 := Nat.le_of_eq H5_BUFSIZE_eq
  intro label member
  rcases List.mem_append.mp member with scans | works
  · simp only [List.mem_cons, List.not_mem_nil, or_false] at scans
    rcases scans with rfl | rfl | rfl | rfl | rfl | rfl | rfl | rfl
    all_goals trivial
  · rcases List.mem_flatten.mp works with ⟨pair, copied, here⟩
    rw [List.eq_of_mem_replicate copied] at here
    simp only [List.mem_cons, List.not_mem_nil, or_false] at here
    rcases here with rfl | rfl
    · exact
        ⟨Int.le_refl 0, Int.le_refl 0, fun c _ =>
          steady_of_large large storingPlatform _⟩
    · exact
        ⟨Int.le_refl 0, Int.le_refl 0, fun c _ =>
          steady_of_large (Nat.le_succ_of_le large) storingPlatform _⟩

/-- The two threads convert different paths, if they both convert. -/
def pairApart (worker : Nat → Worker) : Bool :=
  match worker 0, worker 1 with
  | .converting c, .converting d => c.target.path ≠ d.target.path
  | _, _ => true

/-- The two threads convert different paths all the time. -/
def apartFrom (disk : Disk) : Bool :=
  (List.range (turnByTurn.length + 1)).all fun length =>
    (run (Scan.step storingPlatform configureD) (scanning disk)
      (turnByTurn.take length)).all fun world => pairApart world.worker

/-- A thread is between its `rename` and its return. -/
def halfway (worker : Worker) : Bool :=
  match worker with
  | .converting c => c.pc ≠ .returned && renamed c
  | _ => false

section Prefixes

variable
    {disk : Disk} {before : List Scan.Label} {middle : Scan.World}

/-- No third thread does anything. -/
theorem two_of_converts
    (isPrefix : before <+: turnByTurn)
    (ran :
      run (Scan.step storingPlatform configureD) (scanning disk) before =
        some middle)
    {number : Nat} {c : Convert}
    (converting : Converts middle.worker number c) :
    number = 0 ∨ number = 1 := by
  by_contra third
  have movers :
      ∀ label ∈ turnByTurn,
        isOwn label = true ∧ ∀ moved ∈ mover label, moved < 2 := by
    decide
  have idle : middle.worker number = .idle := by
    refine
      run_invariant_along (fun world => world.worker number = .idle) ?_ rfl
        (along_of_forall fun _ label member =>
          movers label (isPrefix.subset member))
        ran
    rintro world label next idle ⟨own, movers⟩ stepped
    rw [← idle]
    apply worker_of_acts (acts_of_step own stepped)
    intro moves
    have few := movers number moves
    omega
  rw [converting.1] at idle
  cases idle

theorem pairApart_of_prefix
    (always : apartFrom disk = true) (isPrefix : before <+: turnByTurn)
    (ran :
      run (Scan.step storingPlatform configureD) (scanning disk) before =
        some middle) :
    pairApart middle.worker = true := by
  have short : before.length ∈ List.range (turnByTurn.length + 1) :=
    List.mem_range.mpr (Nat.lt_succ_of_le isPrefix.length_le)
  have here := List.all_eq_true.mp always before.length short
  rw [← List.prefix_iff_eq_take.mp isPrefix, ran] at here
  exact here

theorem distinct_of_prefix
    (always : apartFrom disk = true) (isPrefix : before <+: turnByTurn)
    (ran :
      run (Scan.step storingPlatform configureD) (scanning disk) before =
        some middle) :
    Distinct middle.worker := by
  intro number other c d converting converting' same
  have apart := pairApart_of_prefix always isPrefix ran
  have here := two_of_converts isPrefix ran converting
  have there := two_of_converts isPrefix ran converting'
  unfold pairApart at apart
  rcases here with rfl | rfl <;> rcases there with rfl | rfl
  · rfl
  · rw [converting.1, converting'.1] at apart
    exact (of_decide_eq_true apart same).elim
  · rw [converting'.1, converting.1] at apart
    exact (of_decide_eq_true apart same.symm).elim
  · rfl

theorem granted_killedAfter
    (always : apartFrom disk = true) (calls : Nat) :
    Granted storingPlatform configureD ((killedAfter calls).start disk)
      (killedAfter calls).labels where
  tended :=
    along_of_forall fun world label member =>
      tended_turnByTurn world label (List.mem_of_mem_take member)
  distinct _ _ isPrefix ran :=
    distinct_of_prefix always (isPrefix.trans (List.take_prefix _ _)) ran

theorem halfway_of_renamed
    (isPrefix : before <+: turnByTurn)
    (ran :
      run (Scan.step storingPlatform configureD) (scanning disk) before =
        some middle)
    {path : CString} (between : Renamed middle.worker path) :
    halfway (middle.worker 0) = true ∨ halfway (middle.worker 1) = true := by
  rcases between with ⟨number, c, converting, -, renamed⟩
  have here : halfway (middle.worker number) = true := by
    rw [converting.1]
    exact Bool.and_eq_true_iff.mpr ⟨decide_eq_true converting.2, renamed⟩
  rcases two_of_converts isPrefix ran converting with rfl | rfl
  · exact Or.inl here
  · exact Or.inr here

end Prefixes

theorem apartFrom_twoFiles : apartFrom ⟨twoFiles, .empty⟩ = true := by
  decide +kernel

theorem renamed_of_cutting
    {worker : Nat → Worker} {path : CString}
    (emptied : Cutting worker path) :
    Renamed worker path := by
  rcases emptied with ⟨number, c, converting, same, cuts⟩
  refine ⟨number, c, converting, same, ?_⟩
  unfold StoreConversion.cutting at cuts
  unfold StoreConversion.renamed
  cases place : c.pc <;> rw [place] at cuts <;> first
    | cases cuts
    | exact cuts

/-- The first walker is killed while both threads write their images. -/
theorem spared_killedAfter :
    Spared storingPlatform configureD ⟨twoFiles, .empty⟩ (killedAfter 30) where
  granted := granted_killedAfter apartFrom_twoFiles 30
  unrenamed final ran path between := by
    have quiet :
        (run (Scan.step storingPlatform configureD)
          (scanning ⟨twoFiles, .empty⟩) (turnByTurn.take 30)).all
            (fun world =>
              !halfway (world.worker 0) && !halfway (world.worker 1)) =
          true := by
      decide +kernel
    change
      run (Scan.step storingPlatform configureD)
          (scanning ⟨twoFiles, .empty⟩) (turnByTurn.take 30) =
        some final at ran
    rw [ran] at quiet
    rcases halfway_of_renamed (List.take_prefix 30 _) ran between with
      here | here
    · rw [Option.all_some, here] at quiet
      cases quiet
    · rw [Option.all_some, here, Bool.and_comm] at quiet
      cases quiet

end DZFile.WalkerStore
