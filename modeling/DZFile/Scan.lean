import DZFile.Reaching
import DZFile.Walker
import DZFile.Library.Transition

/-!
# The scan loop of the walker

`main` of `dzfile-walker.cc` from its endless loop on, together with the pool
threads it feeds and clients that call `dzfile_unlink`.  Every call of the
environment is one step, so that threads and clients run between a `readdir`
and the `stat` of the entry it returned.

The kernel hands out names in batches, each of a name that is there at that
moment; `readdir` takes them from the batch one by one.  A name may be gone by
the time it is examined, because a client has removed it or a pool thread has
renamed its temporary file, and then the loop exits.  Which files are old
enough to be processed is left open, as time is not modelled.
-/

namespace DZFile.Scan

open DZFile.Interaction
open DZFile.Transition
open DZFile.Names
open DZFile.Codec
open DZFile.Kernel
open DZFile.Api
open DZFile.Converter
open DZFile.Walker
open DZFile.Reaching

/-! ## The parties -/

/-- `sprintf(file_path, "%s/%s", data_path, entry->d_name)`. -/
def filePath (data_path d_name : CString) : CString :=
  data_path ++ '/' :: d_name

/-- The text and its terminator fit into `file_path[1024]`. -/
def fits (data_path d_name : CString) : Bool :=
  (filePath data_path d_name).length < 1024

/-- Where the main loop is, with the names of the batch it has not examined. -/
inductive Main where
  /-- It is about to open the directory. -/
  | opening
  /-- It is about to read the next entry. -/
  | reading (batch : List CString)
  /-- It is about to examine an entry. -/
  | examining (d_name : CString) (batch : List CString)
  /-- It has called `exit(1)`. -/
  | exited
  /-- It has written beyond `file_path`. -/
  | crashed
deriving DecidableEq

/-- A pool thread. -/
inductive Worker where
  | idle
  | filtering (program : Call (Option Target))
  | converting (record : Convert)

/-- A client and its current call. -/
structure Client where
  proc : Process
  program : Call Int

/-- The main loop, the queue of the pool, its threads and the clients. -/
structure World where
  fs : FileSystem
  db : Metadata.Db
  /-- The tables of the walker, which its threads share. -/
  walker : Process
  main : Main
  queue : List CString
  worker : Nat → Worker
  client : Nat → Client

/-- Who moves. -/
inductive Label where
  | opendir (choice : Choice)
  /-- The next batch, which is empty at the end of the directory. -/
  | getdents (names : List CString)
  | readdir
  /-- `stat`, and whether the entry is old enough. -/
  | stat (choice : Choice) (old : Bool)
  /-- A thread takes a path; the numbers are its uninitialised locals. -/
  | take (worker : Nat) (srcfd h5fd : Int)
  | work (worker : Nat) (choice : Choice) (srcfd h5fd : Int)
  /-- A client calls `dzfile_unlink`. -/
  | unlink (client : Nat) (path : CString)
  | client (client : Nat) (choice : Choice)

/-- What the configuration file says. -/
structure Configure where
  data_dir : CString
  policy : Policy

namespace World

variable (platform : Platform) (configure : Configure) (world : World)

/-- What the walker sees. -/
def sys : Sys :=
  ⟨world.fs, world.db, world.walker⟩

/-- A name of the data directory. -/
def IsEntry (d_name : CString) : Prop :=
  d_name ≠ [] ∧ '/' ∉ d_name ∧
    (world.fs.entry (filePath configure.data_dir d_name)).isSome

instance (d_name : CString) : Decidable (world.IsEntry configure d_name) :=
  inferInstanceAs (Decidable (_ ∧ _ ∧ _))

/-- A thread goes on with what `process_file` has come to. -/
def nextWorker (program : Call (Option Target)) (srcfd h5fd : Int) : Worker :=
  match program with
  | .ret none => .idle
  | .ret (some target) =>
      .converting (convert2h5 target .DZ_ALG_ZSTD srcfd h5fd)
  | _ => .filtering program

/-- The world after a call of a pool thread. -/
def afterWork (number : Nat) (worker : Worker) (later : Sys) : World :=
  { world with
    fs := later.fs
    db := later.db
    walker := later.proc
    worker := Function.update world.worker number worker }

/-- The next call of a pool thread. -/
def work (number : Nat) (choice : Choice) (srcfd h5fd : Int) :
    Option World :=
  match world.worker number with
  | .idle => none
  | .filtering program =>
      match program with
      | .call op next =>
          (kernel platform world.sys choice op).map fun answer =>
            world.afterWork number (nextWorker (next answer.1) srcfd h5fd)
              answer.2
      | _ => none
  | .converting record =>
      (record.step platform world.sys choice).map fun answer =>
        world.afterWork number (.converting answer.2) answer.1

/-- The thread waits for a path. -/
def isFree (number : Nat) : Bool :=
  match world.worker number with
  | .idle => true
  | .filtering _ => false
  | .converting record => record.pc = .returned

/-- The world after a call of a client. -/
def afterClient (number : Nat) (client : Client) (fs : FileSystem)
    (db : Metadata.Db) : World :=
  { world with
    fs := fs
    db := db
    client := Function.update world.client number client }

/-- The next call of a client. -/
def clientCall (number : Nat) (choice : Choice) : Option World :=
  match (world.client number).program with
  | .call op next =>
      (kernel platform ⟨world.fs, world.db, (world.client number).proc⟩
          choice op).map
        fun answer =>
          world.afterClient number ⟨answer.2.proc, next answer.1⟩
            answer.2.fs answer.2.db
  | _ => none

end World

/-- One step. -/
def step (platform : Platform) (configure : Configure) (world : World) :
    Label → Option World
  | .opendir choice =>
      match world.main with
      | .opening =>
          if
              choice.fails = false ∧
                world.fs.lookup configure.data_dir = some .directory then
            some { world with main := .reading [] }
          else some { world with main := .exited }
      | _ => none
  | .getdents names =>
      match world.main with
      | .reading [] =>
          if names = [] then some { world with main := .opening }
          else if ∀ name ∈ names, world.IsEntry configure name then
            some { world with main := .reading names }
          else none
      | _ => none
  | .readdir =>
      match world.main with
      | .reading (d_name :: batch) =>
          if fits configure.data_dir d_name then
            some { world with main := .examining d_name batch }
          else some { world with main := .crashed }
      | _ => none
  | .stat choice old =>
      match world.main with
      | .examining d_name batch =>
          (world.sys.stat platform choice
              (filePath configure.data_dir d_name)).map
            fun answer =>
              match answer.1 with
              | .error _ => { world with main := .exited }
              | .ok _ =>
                  { world with
                    main := .reading batch
                    queue :=
                      if old then
                        world.queue ++ [filePath configure.data_dir d_name]
                      else world.queue }
      | _ => none
  | .take number srcfd h5fd =>
      if world.isFree number then
        match world.queue with
        | [] => none
        | filename :: rest =>
            some
              { world with
                queue := rest
                worker :=
                  Function.update world.worker number
                    (World.nextWorker
                      (process_file configure.policy filename) srcfd h5fd) }
      else none
  | .work number choice srcfd h5fd =>
      world.work platform number choice srcfd h5fd
  | .unlink number path =>
      if (world.client number).program.returned.isSome then
        some
          (world.afterClient number
            ⟨(world.client number).proc, dzfile_unlink path⟩ world.fs
            world.db)
      else none
  | .client number choice => world.clientCall platform number choice

/-- The walker as it enters its loop, and clients that have called nothing. -/
def World.start
    (fs : FileSystem) (db : Metadata.Db) (walker : Process)
    (client : Nat → Process) : World where
  fs := fs
  db := db
  walker := walker
  main := .opening
  queue := []
  worker _ := .idle
  client number := ⟨client number, .ret 0⟩

/-! ## What the loop needs -/

/-- The names the main loop has been given and has still to examine. -/
def Main.pending : Main → List CString
  | .reading batch => batch
  | .examining d_name batch => d_name :: batch
  | _ => []

/-- The main loop goes on. -/
def Alive (world : World) : Prop :=
  world.main ≠ .exited ∧ world.main ≠ .crashed

/--
The directory opens, the path of an entry fits into its buffer, and an entry
that is examined is there and not refused.
-/
def Finds (configure : Configure) (world : World) : Label → Prop
  | .opendir choice =>
      choice.fails = false ∧
        world.fs.lookup configure.data_dir = some .directory
  | .readdir =>
      ∀ d_name batch, world.main = .reading (d_name :: batch) →
        fits configure.data_dir d_name = true
  | .stat choice _ =>
      ∀ d_name batch, world.main = .examining d_name batch →
        choice.fails = false ∧
          world.fs.entry (filePath configure.data_dir d_name) ≠ none
  | _ => True

/-- The call takes the name away. -/
def takesAway : Op → CString → Prop
  | .unlink path, name => path = name
  | .rename old _, name => old = name
  | _, _ => False

/-- The call a thread or a client makes in a step. -/
def World.nextOp (platform : Platform) (world : World) : Label → Option Op
  | .work number _ _ _ =>
      match world.worker number with
      | .filtering (.call op _) => some op
      | .converting record =>
          match record.action platform.libs with
          | .call op _ => some op
          | _ => none
      | _ => none
  | .client number _ =>
      match (world.client number).program with
      | .call op _ => some op
      | _ => none
  | _ => none

/-- The directory exists, and neither it nor an entry is refused. -/
def Readable (configure : Configure) (world : World) : Label → Prop
  | .opendir choice =>
      choice.fails = false ∧
        world.fs.lookup configure.data_dir = some .directory
  | .stat choice _ => choice.fails = false
  | _ => True

/--
No thread or client takes away a name that is still to be examined, and the
paths of the entries fit into their buffer.
-/
structure Spares
    (platform : Platform) (configure : Configure) (world : World)
    (label : Label) : Prop where
  readable : Readable configure world label
  short :
    label = .readdir →
      ∀ d_name batch, world.main = .reading (d_name :: batch) →
        fits configure.data_dir d_name = true
  kept :
    ∀ op, world.nextOp platform label = some op →
      ∀ d_name ∈ world.main.pending,
        ¬ takesAway op (filePath configure.data_dir d_name)

/-- The names that are still to be examined are there. -/
def Present (configure : Configure) (world : World) : Prop :=
  ∀ d_name ∈ world.main.pending,
    world.fs.entry (filePath configure.data_dir d_name) ≠ none

section Steps

variable
    {platform : Platform} {configure : Configure} {world next : World}
    {label : Label}

/-- An entry that is there and not refused is examined. -/
theorem stat_found
    {sys later : Sys} {choice : Choice} {path : CString}
    {found : Except Errno Stat}
    (called : sys.stat platform choice path = some (found, later))
    (granted : choice.fails = false) (present : sys.fs.entry path ≠ none) :
    ∃ stbuf, found = .ok stbuf := by
  cases choice with
  | fail errno => cases granted
  | ok number =>
      rcases Option.ne_none_iff_exists'.mp present with ⟨ino, entry⟩
      simp only [Sys.stat, FileSystem.lookup, entry, Option.map_some]
        at called
      split at called
      · rename_i nothing
        cases nothing
      · cases called
        exact ⟨_, rfl⟩
      · cases called
        exact ⟨_, rfl⟩

/-- An entry that is missing or refused is not. -/
theorem stat_missing
    {sys later : Sys} {choice : Choice} {path : CString}
    {found : Except Errno Stat}
    (called : sys.stat platform choice path = some (found, later))
    (missing : choice.fails = true ∨ sys.fs.entry path = none) :
    ∃ errno, found = .error errno := by
  cases choice with
  | fail errno =>
      simp only [Sys.stat, Sys.refuse] at called
      split at called
      · cases called
      · cases called
        exact ⟨errno, rfl⟩
  | ok number =>
      rcases missing with refused | absent
      · cases refused
      · simp only [Sys.stat, FileSystem.lookup, absent, Option.map_none,
          Sys.refuse] at called
        cases called
        exact ⟨_, rfl⟩

/-- A call of a thread or a client. -/
theorem namedStep_of_work
    {number : Nat} {choice : Choice} {srcfd h5fd : Int}
    (worked :
      world.work platform number choice srcfd h5fd = some next) :
    next.main = world.main ∧
      ∃ op,
        world.nextOp platform (.work number choice srcfd h5fd) = some op ∧
          NamedStep op world.fs next.fs := by
  simp only [World.work] at worked
  cases thread : world.worker number with
  | idle =>
      rw [thread] at worked
      cases worked
  | filtering program =>
      rw [thread] at worked
      cases program with
      | ret value => cases worked
      | fault => cases worked
      | call op following =>
          rcases Option.map_eq_some_iff.mp worked with
            ⟨⟨reply, later⟩, called, rfl⟩
          refine ⟨rfl, op, ?_, namedStep_of_kernel called⟩
          simp only [World.nextOp, thread]
  | converting record =>
      rw [thread] at worked
      rcases Option.map_eq_some_iff.mp worked with
        ⟨⟨later, after⟩, moved, rfl⟩
      rcases advance_eq_some.mp moved with
        ⟨op, following, reply, calls, called, _⟩
      refine ⟨rfl, op, ?_, namedStep_of_kernel called⟩
      simp only [World.nextOp, thread, calls]

@[inherit_doc namedStep_of_work]
theorem namedStep_of_clientCall
    {number : Nat} {choice : Choice}
    (called : world.clientCall platform number choice = some next) :
    next.main = world.main ∧
      ∃ op,
        world.nextOp platform (.client number choice) = some op ∧
          NamedStep op world.fs next.fs := by
  simp only [World.clientCall] at called
  cases program : (world.client number).program with
  | ret value =>
      rw [program] at called
      cases called
  | fault =>
      rw [program] at called
      cases called
  | call op following =>
      rw [program] at called
      rcases Option.map_eq_some_iff.mp called with
        ⟨⟨reply, later⟩, answered, rfl⟩
      refine ⟨rfl, op, ?_, namedStep_of_kernel answered⟩
      simp only [World.nextOp, program]

/-- What a step can do to the main loop and the names. -/
inductive Turns
    (platform : Platform) (configure : Configure) (world : World) :
    Label → World → Prop where
  | opens
      {next : World} {choice : Choice} (place : world.main = .opening)
      (fs : next.fs = world.fs)
      (main :
        (choice.fails = false ∧
            world.fs.lookup configure.data_dir = some .directory ∧
              next.main = .reading []) ∨
          (¬ (choice.fails = false ∧
              world.fs.lookup configure.data_dir = some .directory) ∧
            next.main = .exited)) :
      Turns platform configure world (.opendir choice) next
  | fetches
      {next : World} {names : List CString} (fs : next.fs = world.fs)
      (main :
        next.main = .opening ∨
          (next.main = .reading names ∧
            ∀ name ∈ names, world.IsEntry configure name)) :
      Turns platform configure world (.getdents names) next
  | reads
      {next : World} (d_name : CString) (batch : List CString)
      (place : world.main = .reading (d_name :: batch))
      (fs : next.fs = world.fs)
      (main :
        (fits configure.data_dir d_name = true ∧
            next.main = .examining d_name batch) ∨
          (fits configure.data_dir d_name = false ∧
            next.main = .crashed)) :
      Turns platform configure world .readdir next
  | examines
      {next : World} {choice : Choice} {old : Bool} (d_name : CString)
      (batch : List CString) (place : world.main = .examining d_name batch)
      (fs : next.fs = world.fs)
      (main :
        (choice.fails = false ∧
            world.fs.entry (filePath configure.data_dir d_name) ≠ none ∧
              next.main = .reading batch) ∨
          (¬ (choice.fails = false ∧
              world.fs.entry (filePath configure.data_dir d_name) ≠ none) ∧
            next.main = .exited)) :
      Turns platform configure world (.stat choice old) next
  | begins
      {next : World} {label : Label}
      (needless : ∀ world, Finds configure world label)
      (fs : next.fs = world.fs) (main : next.main = world.main) :
      Turns platform configure world label next
  | calls
      {next : World} {label : Label} (op : Op)
      (needless : ∀ world, Finds configure world label)
      (made : world.nextOp platform label = some op)
      (names : NamedStep op world.fs next.fs)
      (main : next.main = world.main) :
      Turns platform configure world label next

theorem turns_of_step
    (stepped : step platform configure world label = some next) :
    Turns platform configure world label next := by
  cases label with
  | opendir choice =>
      simp only [step] at stepped
      split at stepped
      · rename_i place
        split at stepped
        · rename_i readable
          cases stepped
          exact .opens place rfl (Or.inl ⟨readable.1, readable.2, rfl⟩)
        · rename_i unreadable
          cases stepped
          exact .opens place rfl (Or.inr ⟨unreadable, rfl⟩)
      · cases stepped
  | getdents names =>
      simp only [step] at stepped
      split at stepped
      · split at stepped
        · cases stepped
          exact .fetches rfl (Or.inl rfl)
        · split at stepped
          · rename_i entries
            cases stepped
            exact .fetches rfl (Or.inr ⟨rfl, entries⟩)
          · cases stepped
      · cases stepped
  | readdir =>
      simp only [step] at stepped
      split at stepped
      · rename_i d_name batch place
        split at stepped
        · rename_i short
          cases stepped
          exact .reads d_name batch place rfl (Or.inl ⟨short, rfl⟩)
        · rename_i long
          cases stepped
          exact
            .reads d_name batch place rfl
              (Or.inr ⟨Bool.not_eq_true _ ▸ long, rfl⟩)
      · cases stepped
  | stat choice old =>
      simp only [step] at stepped
      split at stepped
      · rename_i d_name batch place
        rcases Option.map_eq_some_iff.mp stepped with
          ⟨⟨found, later⟩, called, rfl⟩
        by_cases there :
            choice.fails = false ∧
              world.fs.entry (filePath configure.data_dir d_name) ≠ none
        · rcases stat_found called there.1 there.2 with ⟨stbuf, rfl⟩
          exact
            .examines d_name batch place rfl
              (Or.inl ⟨there.1, there.2, rfl⟩)
        · have missing :
              choice.fails = true ∨
                world.sys.fs.entry (filePath configure.data_dir d_name) =
                  none := by
            by_cases refused : choice.fails = true
            · exact Or.inl refused
            · right
              by_contra present
              exact there ⟨Bool.not_eq_true _ ▸ refused, present⟩
          rcases stat_missing called missing with ⟨errno, rfl⟩
          exact .examines d_name batch place rfl (Or.inr ⟨there, rfl⟩)
      · cases stepped
  | take number srcfd h5fd =>
      simp only [step] at stepped
      split at stepped
      · split at stepped
        · cases stepped
        · cases stepped
          exact .begins (fun _ => trivial) rfl rfl
      · cases stepped
  | work number choice srcfd h5fd =>
      rcases namedStep_of_work stepped with ⟨main, op, made, names⟩
      exact .calls op (fun _ => trivial) made names main
  | unlink number path =>
      simp only [step] at stepped
      split at stepped
      · cases stepped
        exact .begins (fun _ => trivial) rfl rfl
      · cases stepped
  | client number choice =>
      rcases namedStep_of_clientCall stepped with ⟨main, op, made, names⟩
      exact .calls op (fun _ => trivial) made names main

/-- The loop goes on over a step that finds what it needs. -/
theorem alive_of_finds
    (alive : Alive world) (finds : Finds configure world label)
    (turns : Turns platform configure world label next) :
    Alive next := by
  cases turns with
  | opens place fs main =>
      rcases main with ⟨_, _, main⟩ | ⟨unreadable, _⟩
      · simp [Alive, main]
      · exact (unreadable finds).elim
  | fetches fs main =>
      rcases main with main | ⟨main, _⟩ <;> simp [Alive, main]
  | reads d_name batch place fs main =>
      rcases main with ⟨_, main⟩ | ⟨long, _⟩
      · simp [Alive, main]
      · rw [finds d_name batch place] at long
        cases long
  | examines d_name batch place fs main =>
      rcases main with ⟨_, _, main⟩ | ⟨missing, _⟩
      · simp [Alive, main]
      · exact (missing (finds d_name batch place)).elim
  | begins needless fs main =>
      rw [Alive, main]
      exact alive
  | calls op needless made names main =>
      rw [Alive, main]
      exact alive

/-- It ends with a step that does not. -/
theorem not_alive_of_not_finds
    (lacks : ¬ Finds configure world label)
    (turns : Turns platform configure world label next) :
    ¬ Alive next := by
  cases turns with
  | opens place fs main =>
      rcases main with ⟨granted, readable, _⟩ | ⟨_, main⟩
      · exact (lacks ⟨granted, readable⟩).elim
      · simp [Alive, main]
  | fetches fs main => exact (lacks trivial).elim
  | reads d_name batch place fs main =>
      rcases main with ⟨short, _⟩ | ⟨_, main⟩
      · apply (lacks _).elim
        intro other rest same
        rw [place] at same
        cases same
        exact short
      · simp [Alive, main]
  | examines d_name batch place fs main =>
      rcases main with ⟨granted, present, _⟩ | ⟨_, main⟩
      · apply (lacks _).elim
        intro other rest same
        rw [place] at same
        cases same
        exact ⟨granted, present⟩
      · simp [Alive, main]
  | begins needless fs main => exact (lacks (needless world)).elim
  | calls op needless made names main =>
      exact (lacks (needless world)).elim

/-- Names that nobody takes away stay until they are examined. -/
theorem Present.step
    (present : Present configure world)
    (spares : Spares platform configure world label)
    (turns : Turns platform configure world label next) :
    Present configure next := by
  cases turns with
  | opens place fs main =>
      intro d_name member
      rcases main with ⟨_, _, main⟩ | ⟨_, main⟩ <;>
        simp [main, Main.pending] at member
  | fetches fs main =>
      intro d_name member
      rcases main with main | ⟨main, entries⟩
      · simp [main, Main.pending] at member
      · rw [main] at member
        rw [fs]
        exact Option.isSome_iff_ne_none.mp (entries d_name member).2.2
  | reads d_name batch place fs main =>
      intro other member
      rcases main with ⟨_, main⟩ | ⟨_, main⟩
      · rw [main] at member
        rw [fs]
        apply present
        rw [place]
        exact member
      · simp [main, Main.pending] at member
  | examines d_name batch place fs main =>
      intro other member
      rcases main with ⟨_, _, main⟩ | ⟨_, main⟩
      · rw [main] at member
        rw [fs]
        apply present
        rw [place]
        exact List.mem_cons_of_mem _ member
      · simp [main, Main.pending] at member
  | begins needless fs main =>
      intro other member
      rw [main] at member
      rw [fs]
      exact present other member
  | calls op needless made names main =>
      intro other member gone
      rw [main] at member
      have kept := spares.kept op made other member
      rcases names.vanishes (present other member) gone with
        rfl | ⟨new, rfl⟩
      · exact kept rfl
      · exact kept rfl

/-- While the names are there, nothing else is needed. -/
theorem finds_of_spares
    (present : Present configure world)
    (spares : Spares platform configure world label) :
    Finds configure world label := by
  cases label with
  | opendir choice => exact spares.readable
  | readdir => exact spares.short rfl
  | stat choice old =>
      intro d_name batch place
      refine ⟨spares.readable, present d_name ?_⟩
      rw [place]
      exact List.mem_cons_self
  | _ => trivial

end Steps

/--
The main loop goes on throughout a run exactly when it finds what it needs,
and it does when no thread or client takes away a name it has still to examine.
-/
theorem alive_throughout_iff_finds
    (platform : Platform) (configure : Configure) (fs : FileSystem)
    (db : Metadata.Db) (walker : Process) (client : Nat → Process)
    {labels : List Label} {final : World}
    (ran :
      run (step platform configure) (.start fs db walker client) labels =
        some final) :
    (Throughout (step platform configure) Alive
        (.start fs db walker client) labels ↔
      Along (step platform configure) (Finds configure)
        (.start fs db walker client) labels) ∧
      (Along (step platform configure) (Spares platform configure)
          (.start fs db walker client) labels →
        Throughout (step platform configure) Alive
          (.start fs db walker client) labels) := by
  have alive : Alive (.start fs db walker client) :=
    ⟨Main.noConfusion, Main.noConfusion⟩
  have present : Present configure (.start fs db walker client) := by
    intro d_name member
    cases member
  have exact_ :=
    throughout_iff_along Alive (fun _ alive => alive)
      (fun _ _ _ alive finds stepped =>
        alive_of_finds alive finds (turns_of_step stepped))
      (fun _ _ _ _ lacks stepped =>
        not_alive_of_not_finds lacks (turns_of_step stepped))
      alive ran
  constructor
  · exact exact_
  · intro spares
    apply exact_.mpr
    apply
      (along_congr_of_assumed (Present configure)
        (fun _ _ _ present spares stepped =>
          present.step spares (turns_of_step stepped))
        (fun _ _ _ present spares _ =>
          iff_true_intro (finds_of_spares present spares))
        present spares ran).mpr
    exact along_of_forall fun _ _ _ => trivial

/-- A data directory with one file. -/
def storeD : FileSystem :=
  (Sys.initial.fs.link ['/', 'd'] .directory).link ['/', 'd', '/', 'f']
    (.file [7])

/-- Process files of any age and size. -/
def configureD : Configure where
  data_dir := ['/', 'd']
  policy := ⟨0, []⟩

/-- The entry of the file is read, examined and handed to the pool. -/
def undisturbed : List Label :=
  [.opendir (.ok 0), .getdents [['f']], .readdir, .stat (.ok 0) true,
    .getdents []]

theorem alive_throughout_iff_finds_undisturbed :
    Throughout (step storingPlatform configureD) Alive
        (.start storeD .empty .empty fun _ => .empty) undisturbed ↔
      Along (step storingPlatform configureD) (Finds configureD)
        (.start storeD .empty .empty fun _ => .empty) undisturbed := by
  have ran :
      run (step storingPlatform configureD)
          (.start storeD .empty .empty fun _ => .empty) undisturbed =
        some _ :=
    rfl
  exact (alive_throughout_iff_finds _ _ _ _ _ _ ran).1

/-- A client deletes the file between its `readdir` and its `stat`. -/
def disturbed : List Label :=
  [.opendir (.ok 0), .getdents [['f']], .readdir,
    .unlink 0 ['/', 'd', '/', 'f'], .client 0 (.ok 0), .client 0 (.ok 0),
    .stat (.ok 0) true]

theorem deleted_entry_ends_loop :
    ¬ ∀ labels final,
        run (step storingPlatform configureD)
            (.start storeD .empty .empty fun _ => .empty) labels =
          some final →
            Along (step storingPlatform configureD) (Readable configureD)
                (.start storeD .empty .empty fun _ => .empty) labels →
              final.main ≠ .exited := by
  intro always
  have ran :
      run (step storingPlatform configureD)
          (.start storeD .empty .empty fun _ => .empty) disturbed =
        some _ :=
    rfl
  apply always disturbed _ ran _ rfl
  refine ⟨⟨rfl, rfl⟩, ?_⟩
  intro _ _
  refine ⟨trivial, fun _ _ => ⟨trivial, fun _ _ => ⟨trivial, ?_⟩⟩⟩
  intro _ _
  refine ⟨trivial, fun _ _ => ⟨trivial, fun _ _ => ⟨rfl, ?_⟩⟩⟩
  intro _ _
  trivial

end DZFile.Scan
