import DZFile.Separation
import DZFile.Session
import DZFile.Library.Interleaving

/-!
# Processes at once

Any number of processes on one disk, whose calls follow one another in any
order.  Each looks at some names and changes some of them, and no process
looks at a name that another one changes.  Then every process gets the answers
it gets alone on the disk, and leaves under its names what it leaves alone;
a name that no process changes refers to what it did.

They need not stay apart on the disk itself: a process may be given an inode
number that another one would have been given, and all of them may write to
the one database, which none of them reads.  No inode has two names.
-/

namespace DZFile.Parallel

open DZFile.Interaction
open DZFile.Interleaving
open DZFile.Names
open DZFile.Kernel
open DZFile.Reaching (OneName entryStep_of_kernel)
open DZFile.Confinement
open DZFile.Separation
open DZFile.Session

variable {Pid : Type} {Local Result : Pid → Type}

/-- The processes that share the disk, each with tables of its own. -/
def processes
    (platform : Platform)
    (action :
      (pid : Pid) → Local pid → Action Op Reply (Local pid) (Result pid)) :
    System Op Reply Choice Disk Process Sys Local Result where
  kernel := kernel platform
  action := action
  join disk proc := ⟨disk.fs, disk.db, proc⟩
  shared := Disk.after
  own := Sys.proc

/--
The names each process looks at and those it changes, for as long as its
record stays among the bounded ones.
-/
structure Bounds
    (action :
      (pid : Pid) → Local pid → Action Op Reply (Local pid) (Result pid))
    where
  seen : Pid → CString → Prop
  written : Pid → CString → Prop
  bounded : (pid : Pid) → Local pid → Prop
  calls :
    ∀ {pid record op next},
      bounded pid record → action pid record = .call op next →
        Sees (seen pid) op ∧ Confines (written pid) op ∧
          ∀ reply, bounded pid (next reply)
  seen_of_written : ∀ {pid name}, written pid name → seen pid name
  apart : ∀ {pid other name}, other ≠ pid → written other name → ¬ seen pid name

/-- Processes that have just started on the disk. -/
def started (disk : Disk) (locals : (pid : Pid) → Local pid) :
    World Pid Disk Process Local :=
  ⟨disk, fun _ => .empty, locals⟩

/-- What a process sees of the world. -/
def view (world : World Pid Disk Process Local) (pid : Pid) : Sys :=
  ⟨world.shared.fs, world.shared.db, world.privates pid⟩

section Steps

variable
    [DecidableEq Pid] {platform : Platform}
    {action :
      (pid : Pid) → Local pid → Action Op Reply (Local pid) (Result pid)}
    {world next final : World Pid Disk Process Local} {pid : Pid}
    {choice : Choice}

/-- Everything a step of the world can be. -/
theorem step_eq_some
    (stepped :
      (processes platform action).step world (pid, choice) = some next) :
    ∃ op cont reply later,
      action pid (world.locals pid) = .call op cont ∧
        kernel platform (view world pid) choice op = some (reply, later) ∧
          next =
            ⟨.after later, Function.update world.privates pid later.proc,
              Function.update world.locals pid (cont reply)⟩ := by
  rcases Option.map_eq_some_iff.mp stepped with ⟨⟨later, record⟩, moved, rfl⟩
  rcases advance_eq_some.mp moved with ⟨op, cont, reply, called, answered, rfl⟩
  exact ⟨op, cont, reply, later, called, answered, rfl⟩

variable
    (bounds : Bounds action)

/--
An observer with the names and the tables given, of which the other
environment shows a copy that the processes of a kind cannot write to.
-/
structure Apart
    (world : World Pid Disk Process Local) (names : CString → Prop)
    (proc : Process) (kind : Pid → Prop) (linked : Ino → Ino → Prop)
    (alone : Sys) : Prop where
  alike :
    Alike names linked ⟨world.shared.fs, world.shared.db, proc⟩ alone
  unreached :
    ∀ i j, linked i j → ∀ pid, kind pid →
      ¬ Reaches (bounds.written pid) (view world pid) i

/-- The process is alike in the world and in the other environment. -/
abbrev Solo
    (world : World Pid Disk Process Local) (pid : Pid)
    (linked : Ino → Ino → Prop) (alone : Sys) : Prop :=
  Apart bounds world (bounds.seen pid) (world.privates pid) (· ≠ pid) linked
    alone

/-- The other environment shows what the process can write. -/
theorem linked_of_reaches
    {names written : CString → Prop} {linked : Ino → Ino → Prop}
    {sys alone : Sys} (alike : Alike names linked sys alone)
    (within : ∀ name, written name → names name) {ino : Ino}
    (reaches : Reaches written sys ino) :
    ∃ shown, linked ino shown := by
  cases reaches with
  | name path named found =>
      rcases alike.entries (within path named) with
        ⟨absent, _⟩ | ⟨_, shown, found', _, pair⟩
      · rw [found] at absent
        cases absent
      · rw [found] at found'
        cases found'
        exact ⟨shown, pair⟩
  | file fd file held writable same =>
      rcases alike.files fd with ⟨free, _⟩ | ⟨_, other, held', _, pair⟩
      · rw [held] at free
        cases free
      · rw [held] at held'
        cases held'
        rw [← same]
        exact ⟨other.ino, pair.ino⟩
  | handle h5fd handle held writing same =>
      rcases alike.handles h5fd with ⟨free, _⟩ | ⟨_, other, held', _, pair⟩
      · rw [held] at free
        cases free
      · rw [held] at held'
        cases held'
        rw [← same]
        exact ⟨other.ino, pair.ino⟩

variable {bounds}

/-- A call of another process gives a process nothing to write to. -/
theorem reaches_of_other
    {other : Pid} (different : other ≠ pid) {later : Sys}
    (changes :
      Changes (bounds.written pid) (view world pid) later.fs)
    {locals : (pid : Pid) → Local pid} {ino : Ino}
    (reaches :
      Reaches (bounds.written other)
        (view
          ⟨.after later, Function.update world.privates pid later.proc,
            locals⟩ other) ino) :
    Reaches (bounds.written other) (view world other) ino := by
  have tables :
      Function.update world.privates pid later.proc other =
        world.privates other :=
    Function.update_of_ne different _ _
  cases reaches with
  | name path named found =>
      have spared : ¬ bounds.written pid path := fun written =>
        bounds.apart different named (bounds.seen_of_written written)
      change later.fs.entry path = some ino at found
      rw [changes.entry spared] at found
      exact .name path named found
  | file fd file held writable same =>
      simp only [view, tables] at held
      exact .file fd file held writable same
  | handle h5fd handle held writing same =>
      simp only [view, tables] at held
      exact .handle h5fd handle held writing same

/-- A process does not disturb an observer of names it does not change. -/
theorem Apart.other
    {names : CString → Prop} {proc : Process} {kind : Pid → Prop}
    {linked : Ino → Ino → Prop} {alone : Sys}
    (apart : Apart bounds world names proc kind linked alone)
    (member : kind pid)
    (spared : ∀ name, names name → ¬ bounds.written pid name)
    (bounded : bounds.bounded pid (world.locals pid))
    (stepped :
      (processes platform action).step world (pid, choice) = some next) :
    Apart bounds next names proc kind linked alone := by
  rcases step_eq_some stepped with
    ⟨op, cont, reply, later, called, answered, rfl⟩
  rcases bounds.calls bounded called with ⟨_, confines, _⟩
  rcases effect_of_kernel confines answered with ⟨changes, opens⟩
  have unreached :
      ∀ {i j}, linked i j →
        ¬ Reaches (bounds.written pid) (view world pid) i :=
    fun pair => apart.unreached _ _ pair pid member
  have old : ∀ {i j}, linked i j → i < world.shared.fs.fresh :=
    fun pair => (apart.alike.old pair).1
  constructor
  · refine
      ⟨apart.alike.unique, ?_, ?_, ?_, apart.alike.file,
        apart.alike.handle, apart.alike.map⟩
    · intro i j pair
      exact
        ⟨Nat.lt_of_lt_of_le (old pair) changes.fresh,
          (apart.alike.old pair).2⟩
    · intro i j pair
      exact
        (changes.node (old pair) (unreached pair)).trans
          (apart.alike.node pair)
    · intro name named
      have same : later.fs.entry name = world.shared.fs.entry name :=
        changes.entry (spared name named)
      show Option.Rel linked (later.fs.entry name) (alone.fs.entry name)
      rw [same]
      exact apart.alike.entry name named
  · intro i j pair pid' member' reaches
    by_cases same : pid' = pid
    · subst same
      have reaches' : Reaches (bounds.written pid') later i := by
        simpa [view, Disk.after] using reaches
      rcases reaches_after changes opens reaches' with before | isNew
      · exact unreached pair before
      · exact absurd (old pair) (by rw [isNew]; exact Nat.lt_irrefl _)
    · exact
        apart.unreached i j pair pid' member'
          (reaches_of_other same changes reaches)

/-- A process does the same in the world and alone. -/
theorem Apart.own
    {linked : Ino → Ino → Prop} {alone : Sys}
    (apart : Solo bounds world pid linked alone)
    (old :
      ∀ other ino,
        Reaches (bounds.written other) (view world other) ino →
          ino < world.shared.fs.fresh)
    (bounded : bounds.bounded pid (world.locals pid))
    (stepped :
      (processes platform action).step world (pid, choice) = some next) :
    ∃ linked' later,
      (processes platform action).alone pid (alone, world.locals pid) choice =
          some (later, next.locals pid) ∧
        Solo bounds next pid linked' later := by
  rcases step_eq_some stepped with
    ⟨op, cont, reply, later, called, answered, rfl⟩
  rcases bounds.calls bounded called with ⟨sees, confines, _⟩
  rcases effect_of_kernel confines answered with ⟨changes, opens⟩
  rcases apart.alike.kernel sees answered with
    ⟨linked', later', answered', alike, fresh⟩
  refine ⟨linked', later', ?_, ?_, ?_⟩
  · dsimp only
    rw [Function.update_self]
    exact
      advance_eq_some.mpr ⟨op, cont, reply, called, answered', rfl⟩
  · dsimp only
    rw [Function.update_self]
    exact alike
  · intro i j pair other different reaches
    have before := reaches_of_other different changes reaches
    rcases fresh i j pair with pair' | isNew
    · exact apart.unreached i j pair' other different before
    · exact absurd (old other i before) (by rw [isNew]; exact Nat.lt_irrefl _)

/-- The steps of the others keep a process alike. -/
theorem solo_of_other
    {linked : Ino → Ino → Prop} {alone : Sys} {other : Pid}
    (solo : Solo bounds world pid linked alone) (different : other ≠ pid)
    (bounded : bounds.bounded other (world.locals other))
    (stepped :
      (processes platform action).step world (other, choice) = some next) :
    Solo bounds next pid linked alone := by
  have tables : next.privates pid = world.privates pid := by
    rcases step_eq_some stepped with ⟨_, _, _, _, _, _, rfl⟩
    exact Function.update_of_ne (Ne.symm different) _ _
  rw [Solo, tables]
  exact
    solo.other different
      (fun name seen written => bounds.apart different written seen) bounded
      stepped

/-! ## Whole runs -/

/-- Every process is apart from the others. -/
structure Separate
    (bounds : Bounds action) (world : World Pid Disk Process Local) :
    Prop where
  bounded : ∀ pid, bounds.bounded pid (world.locals pid)
  solo : ∀ pid, ∃ linked alone, Solo bounds world pid linked alone

omit [DecidableEq Pid] in
theorem Separate.old
    (separate : Separate bounds world) (other : Pid) (ino : Ino)
    (reaches : Reaches (bounds.written other) (view world other) ino) :
    ino < world.shared.fs.fresh := by
  rcases separate.solo other with ⟨linked, alone, apart⟩
  rcases
    linked_of_reaches apart.alike (fun _ => bounds.seen_of_written)
      reaches with
    ⟨shown, pair⟩
  exact (apart.alike.old pair).1

/-- The processes stay apart. -/
theorem Separate.step
    (separate : Separate bounds world) {label : Pid × Choice}
    (stepped : (processes platform action).step world label = some next) :
    Separate bounds next := by
  rcases label with ⟨mover, choice⟩
  constructor
  · intro pid
    rcases step_eq_some stepped with
      ⟨op, cont, reply, later, called, answered, rfl⟩
    by_cases same : pid = mover
    · subst same
      dsimp only
      rw [Function.update_self]
      exact (bounds.calls (separate.bounded pid) called).2.2 reply
    · dsimp only
      rw [Function.update_of_ne same]
      exact separate.bounded pid
  · intro pid
    rcases separate.solo pid with ⟨linked, alone, apart⟩
    by_cases same : mover = pid
    · subst same
      rcases
        apart.own separate.old (separate.bounded mover) stepped with
        ⟨linked', later, _, apart'⟩
      exact ⟨linked', later, apart'⟩
    · exact
        ⟨linked, alone,
          solo_of_other apart same (separate.bounded mover) stepped⟩

/-- The names of a process refer to the same when another one moves. -/
theorem Separate.lookup_of_step
    (separate : Separate bounds world) {other : Pid} (different : other ≠ pid)
    (stepped :
      (processes platform action).step world (other, choice) = some next)
    {name : CString} (seen : bounds.seen pid name) :
    next.shared.fs.lookup name = world.shared.fs.lookup name := by
  rcases separate.solo pid with ⟨linked, alone, solo⟩
  have later :=
    solo_of_other solo different (separate.bounded other) stepped
  exact (later.alike.lookup seen).trans (solo.alike.lookup seen).symm

omit [DecidableEq Pid] in
/-- An observer of a disk whose files all have one name. -/
theorem apart_started
    {disk : Disk} (oneName : OneName disk.fs)
    {locals : (pid : Pid) → Local pid} {names : CString → Prop}
    {kind : Pid → Prop}
    (spared : ∀ pid name, kind pid → names name → ¬ bounds.written pid name) :
    ∃ linked,
      Apart bounds (started disk locals) names .empty kind linked
        disk.sys := by
  refine ⟨_, alike_initial names disk.fs disk.db disk.db, ?_⟩
  rintro i j ⟨_, name, named, found⟩ pid member reaches
  cases reaches with
  | name path written found' =>
      rw [oneName path name i found' found] at written
      exact spared pid name member named written
  | file fd file held => cases held
  | handle h5fd handle held => cases held

omit [DecidableEq Pid] in
theorem separate_started
    {disk : Disk} (oneName : OneName disk.fs)
    {locals : (pid : Pid) → Local pid}
    (bounded : ∀ pid, bounds.bounded pid (locals pid)) :
    Separate bounds (started disk locals) where
  bounded := bounded
  solo pid := by
    rcases
      @apart_started _ _ _ _ bounds disk oneName locals (bounds.seen pid)
        (· ≠ pid)
        (fun other name different seen written =>
          bounds.apart different written seen) with
      ⟨linked, apart⟩
    exact ⟨linked, disk.sys, apart⟩

/-- Files that have one name each keep one. -/
theorem oneName_of_run
    {labels : List (Pid × Choice)} (oneName : OneName world.shared.fs)
    (ran :
      Transition.run (processes platform action).step world labels =
        some final) :
    OneName final.shared.fs := by
  refine
    Transition.run_invariant (fun world => OneName world.shared.fs) ?_
      oneName ran
  rintro world ⟨mover, choice⟩ next oneName stepped
  rcases step_eq_some stepped with ⟨_, _, _, later, _, answered, rfl⟩
  exact oneName.step (entryStep_of_kernel answered)

/-- A name that no process changes refers to what it did. -/
theorem lookup_of_unwritten
    {disk : Disk} (oneName : OneName disk.fs)
    {locals : (pid : Pid) → Local pid}
    (bounded : ∀ pid, bounds.bounded pid (locals pid))
    {labels : List (Pid × Choice)}
    (ran :
      Transition.run (processes platform action).step
          (started disk locals) labels =
        some final)
    {name : CString} (unwritten : ∀ pid, ¬ bounds.written pid name) :
    final.shared.fs.lookup name = disk.fs.lookup name := by
  rcases
    @apart_started _ _ _ _ bounds disk oneName locals (· = name)
      (fun _ => True)
      (fun pid other _ same => by rw [same]; exact unwritten pid) with
    ⟨linked, apart⟩
  have ends :
      Separate bounds final ∧
        Apart bounds final (· = name) .empty (fun _ => True) linked
          disk.sys := by
    refine
      Transition.run_invariant
        (fun world =>
          Separate bounds world ∧
            Apart bounds world (· = name) .empty (fun _ => True) linked
              disk.sys)
        ?_ ⟨separate_started oneName bounded, apart⟩ ran
    rintro world ⟨mover, choice⟩ next ⟨separate, apart⟩ stepped
    refine ⟨separate.step stepped, ?_⟩
    apply apart.other trivial _ (separate.bounded mover) stepped
    rintro other rfl
    exact unwritten mover
  exact ends.2.alike.lookup rfl

/--
Whatever the order of their calls, every process runs as it does alone on the
disk, with the same answers, and finds at the end under each of its names what
it would find alone.
-/
theorem run_as_alone
    {disk : Disk} (oneName : OneName disk.fs)
    {locals : (pid : Pid) → Local pid}
    (bounded : ∀ pid, bounds.bounded pid (locals pid))
    {labels : List (Pid × Choice)}
    (ran :
      Transition.run (processes platform action).step
          (started disk locals) labels =
        some final)
    (pid : Pid) :
    ∃ later,
      Transition.run ((processes platform action).alone pid)
          (disk.sys, locals pid) (choicesOf pid labels) =
          some (later, final.locals pid) ∧
        ∀ name, bounds.seen pid name →
          final.shared.fs.lookup name = later.fs.lookup name := by
  rcases
    @apart_started _ _ _ _ bounds disk oneName locals (bounds.seen pid)
      (· ≠ pid)
      (fun other name different seen written =>
        bounds.apart different written seen) with
    ⟨linked, apart⟩
  have projects :
      ∃ later,
        Transition.run ((processes platform action).alone pid)
            (disk.sys, locals pid) (choicesOf pid labels) =
            some (later, final.locals pid) ∧
          Separate bounds final ∧
            ∃ linked, Solo bounds final pid linked later := by
    apply
      (processes platform action).run_projects pid
        (fun world alone =>
          Separate bounds world ∧
            ∃ linked, Solo bounds world pid linked alone)
        _ _ ⟨separate_started oneName bounded, linked, apart⟩ ran
    · rintro world alone choice next ⟨separate, linked, apart⟩ stepped
      rcases apart.own separate.old (separate.bounded pid) stepped with
        ⟨linked', later, moved, apart'⟩
      exact ⟨later, moved, separate.step stepped, linked', apart'⟩
    · rintro world alone ⟨mover, choice⟩ next different
        ⟨separate, linked, apart⟩ stepped
      exact
        ⟨separate.step stepped, linked,
          solo_of_other apart different (separate.bounded mover) stepped⟩
  rcases projects with ⟨later, aloneRan, _, linked', apart'⟩
  exact
    ⟨later, aloneRan, fun name seen => apart'.alike.lookup seen⟩

/-! ## A process that starts over -/

/-- The process has forgotten what it had opened, and runs another program. -/
def restarted
    (world : World Pid Disk Process Local) (pid : Pid) (record : Local pid) :
    World Pid Disk Process Local where
  shared := world.shared
  privates := Function.update world.privates pid .empty
  locals := Function.update world.locals pid record

/-- It can write to no more than before. -/
theorem reaches_of_restarted
    {record : Local pid} {other : Pid} {ino : Ino}
    (reaches :
      Reaches (bounds.written other) (view (restarted world pid record) other)
        ino) :
    Reaches (bounds.written other) (view world other) ino := by
  by_cases same : other = pid
  · subst same
    cases reaches with
    | name path named found => exact .name path named found
    | file fd file held =>
        simp only [view, restarted, Function.update_self] at held
        cases held
    | handle h5fd handle held =>
        simp only [view, restarted, Function.update_self] at held
        cases held
  · simpa only [view, restarted, Function.update_of_ne same] using reaches

/-- The others do not notice. -/
theorem solo_of_restarted
    {record : Local pid} {other : Pid} (different : other ≠ pid)
    {linked : Ino → Ino → Prop} {alone : Sys}
    (solo : Solo bounds world other linked alone) :
    Solo bounds (restarted world pid record) other linked alone := by
  have tables :
      (restarted world pid record).privates other = world.privates other :=
    Function.update_of_ne different _ _
  rw [Solo, tables]
  exact
    ⟨solo.alike, fun i j pair third member reaches =>
      solo.unreached i j pair third member (reaches_of_restarted reaches)⟩

/-- It runs as it would alone on the disk as it is now. -/
theorem Separate.restart
    (separate : Separate bounds world) {record : Local pid}
    (bounded : bounds.bounded pid record) :
    Separate bounds (restarted world pid record) ∧
      ∃ linked,
        Solo bounds (restarted world pid record) pid linked
          world.shared.sys := by
  have starts :
      ∃ linked,
        Solo bounds (restarted world pid record) pid linked
          world.shared.sys := by
    rcases separate.solo pid with ⟨linked, alone, solo⟩
    have forgotten : (restarted world pid record).privates pid = .empty :=
      Function.update_self _ _ _
    refine
      ⟨fun i j =>
        i = j ∧
          ∃ name, bounds.seen pid name ∧ world.shared.fs.entry name = some i,
        ?_, ?_⟩
    · rw [forgotten]
      exact
        alike_initial (bounds.seen pid) world.shared.fs world.shared.db
          world.shared.db
    · rintro i j ⟨_, name, seen, found⟩ other different reaches
      rcases solo.alike.entries seen with
        ⟨absent, _⟩ | ⟨_, shown, found', _, pair⟩
      · change world.shared.fs.entry name = none at absent
        rw [found] at absent
        cases absent
      · change world.shared.fs.entry name = some _ at found'
        rw [found] at found'
        cases found'
        exact
          solo.unreached i shown pair other different
            (reaches_of_restarted reaches)
  refine ⟨⟨?_, ?_⟩, starts⟩
  · intro other
    by_cases same : other = pid
    · subst same
      have runs : (restarted world other record).locals other = record :=
        Function.update_self _ _ _
      rw [runs]
      exact bounded
    · have runs :
          (restarted world pid record).locals other = world.locals other :=
        Function.update_of_ne same _ _
      rw [runs]
      exact separate.bounded other
  · intro other
    by_cases same : other = pid
    · subst same
      rcases starts with ⟨linked, solo⟩
      exact ⟨linked, _, solo⟩
    · rcases separate.solo other with ⟨linked, alone, solo⟩
      exact ⟨linked, alone, solo_of_restarted same solo⟩

end Steps

end DZFile.Parallel
