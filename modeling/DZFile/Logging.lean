import DZFile.LogLine
import DZFile.ParentDir
import DZFile.Library.RelyGuarantee
import DZFile.Library.Transition

/-!
# Many processes and one log

Every process that uses the library opens the same log in `dz_openlog` and
adds lines to it with `_dz_msg`.  The processes interleave freely, and their
writes may be short or fail.

`dz_openlog` asks for `O_APPEND` in its first `open`, but not in the one that
follows when the directory had to be made.  A descriptor of the second `open`
writes where it stands, whatever others have written since.
-/

namespace DZFile.Logging

open DZFile.ByteSeq
open DZFile.Interaction
open DZFile.RelyGuarantee
open DZFile.Transition
open DZFile.CBuffer
open DZFile.Names
open DZFile.Codec
open DZFile.Kernel
open DZFile.Api
open DZFile.ParentDir (dirname dirname_shorter make_parent_dir_of_present
  make_parent_dir_of_refused make_parent_dir_of_made make_parent_dir_of_tried
  make_parent_dir_of_deeper)
open DZFile.LogLine

/-! ## Opening the log -/

/-- `make_parent_dir`; `depth` is how often the stack lets it call itself. -/
def make_parent_dir : Nat → CString → Call Int
  | 0, _ => .fault
  | depth + 1, path => do
      let found ← perform (.stat (dirname path))
      match found with
      | .ok _ => return 0
      | .error .ENOENT => do
          let made ← perform (.mkdir (dirname path))
          match made with
          | .ok _ => return 0
          | .error .ENOENT => do
              let rc ← make_parent_dir depth (dirname path)
              if rc = 0 then do
                let again ← perform (.mkdir (dirname path))
                return returnStatus again
              else return -1
          | .error .EEXIST => return 0
          | .error _ => return -1
      | .error _ => return -1

/-- The number a call fails with. -/
def errnoOf : FileTree.Failure → Errno
  | .missing => .ENOENT
  | .notDirectory => .ENOTDIR
  | .alreadyThere => .EEXIST

/-- A tree of directories that answers the calls of `make_parent_dir`. -/
def treeKernel : Interaction.Kernel Op Reply ParentDir.World Unit :=
  fun world _ op =>
    match op with
    | .stat path =>
        match world.lstat path with
        | .ok kind => some (.ok ⟨kind == .directory, 0⟩, world)
        | .error failure => some (.error (errnoOf failure), world)
    | .mkdir path =>
        match world.mkdir path with
        | .ok later => some (.ok (), later)
        | .error failure => some (.error (errnoOf failure), world)
    | _ => none

section Tree

variable {world : ParentDir.World} {path : CString}

theorem treeKernel_stat_of_error
    {failure : FileTree.Failure} (failed : world.lstat path = .error failure) :
    treeKernel world () (.stat path) =
      some (.error (errnoOf failure), world) := by
  simp only [treeKernel, failed]

theorem treeKernel_mkdir_of_ok
    {later : ParentDir.World} (made : world.mkdir path = .ok later) :
    treeKernel world () (.mkdir path) = some (.ok (), later) := by
  simp only [treeKernel, made]

theorem treeKernel_mkdir_of_error
    {failure : FileTree.Failure} (failed : world.mkdir path = .error failure) :
    treeKernel world () (.mkdir path) =
      some (.error (errnoOf failure), world) := by
  simp only [treeKernel, failed]

/-- What follows the call for the parent. -/
def secondTry (pardir : CString) (rc : Int) : Call Int :=
  if rc = 0 then do
    let again ← perform (.mkdir pardir)
    return returnStatus again
  else return -1

theorem run_secondTry (rc : Int) (world : ParentDir.World) :
    ∃ calls,
      (secondTry path rc).run treeKernel world calls =
        some
          (if rc = 0 then
            match world.mkdir path with
            | .ok last => (0, last)
            | .error _ => (-1, world)
          else (-1, world)) := by
  unfold secondTry
  split
  · cases made : world.mkdir path with
    | ok last =>
        exact
          ⟨[()], Prog.run_call_eq_some.mpr
            ⟨(), [], _, last, rfl, treeKernel_mkdir_of_ok made, rfl⟩⟩
    | error failure =>
        exact
          ⟨[()], Prog.run_call_eq_some.mpr
            ⟨(), [], _, world, rfl, treeKernel_mkdir_of_error made, rfl⟩⟩
  · exact ⟨[], rfl⟩

/-- What follows when the parent is missing. -/
def firstTry (depth : Nat) (pardir : CString) : Call Int := do
  let made ← perform (.mkdir pardir)
  match made with
  | .ok _ => return 0
  | .error .ENOENT => do
      let rc ← make_parent_dir depth pardir
      secondTry pardir rc
  | .error .EEXIST => return 0
  | .error _ => return -1

theorem make_parent_dir_succ (depth : Nat) (path : CString) :
    make_parent_dir (depth + 1) path =
      .call (.stat (dirname path)) fun found =>
        match found with
        | .ok _ => .ret 0
        | .error .ENOENT => firstTry depth (dirname path)
        | .error _ => .ret (-1) := by
  refine congrArg (Prog.call (Op.stat (dirname path))) (funext fun found => ?_)
  rcases found with errno | stbuf
  · cases errno <;> first
      | rfl
      | skip
    refine congrArg (Prog.call (Op.mkdir (dirname path))) (funext fun made => ?_)
    rcases made with errno | done
    · cases errno <;> rfl
    · rfl
  · rfl

theorem run_firstTry
    {depth : Nat} (missing : world.lstat (dirname path) = .error .missing)
    (parent :
      ∃ calls,
        (make_parent_dir depth (dirname path)).run treeKernel world calls =
          some (ParentDir.make_parent_dir world (dirname path))) :
    ∃ calls,
      (firstTry depth (dirname path)).run treeKernel world calls =
        some (ParentDir.make_parent_dir world path) := by
  cases made : world.mkdir (dirname path) with
  | ok later =>
      rw [make_parent_dir_of_made missing made]
      exact
        ⟨[()], Prog.run_call_eq_some.mpr
          ⟨(), [], _, later, rfl, treeKernel_mkdir_of_ok made, rfl⟩⟩
  | error failure =>
      have answered := treeKernel_mkdir_of_error made
      by_cases deeper : failure = .missing
      · subst deeper
        rcases parent with ⟨inner, innerRan⟩
        rcases called :
          ParentDir.make_parent_dir world (dirname path) with ⟨rc, later⟩
        rw [called] at innerRan
        rcases @run_secondTry (dirname path) rc later with
          ⟨second, secondRan⟩
        have steps := make_parent_dir_of_deeper missing made
        have result :
            (if rc = 0 then
              match later.mkdir (dirname path) with
              | .ok last => (0, last)
              | .error _ => (-1, later)
            else (-1, later)) =
              ParentDir.make_parent_dir world path := by
          split
          · rename_i zero
            subst zero
            cases again : later.mkdir (dirname path) with
            | ok last => exact ((steps.2 later called).1 last again).symm
            | error failure =>
                exact ((steps.2 later called).2 failure again).symm
          · rename_i failed
            exact (steps.1 rc later called failed).symm
        rw [result] at secondRan
        have ran :
            (make_parent_dir depth (dirname path) >>=
                secondTry (dirname path)).run treeKernel world
                (inner ++ second) =
              some (ParentDir.make_parent_dir world path) :=
          Prog.run_bind_eq_some.mpr
            ⟨inner, second, rc, later, rfl, innerRan, secondRan⟩
        exact
          ⟨() :: (inner ++ second), Prog.run_call_eq_some.mpr
            ⟨(), inner ++ second, _, world, rfl, answered, ran⟩⟩
      · rw [make_parent_dir_of_tried missing made deeper]
        refine
          ⟨[()], Prog.run_call_eq_some.mpr
            ⟨(), [], _, world, rfl, answered, ?_⟩⟩
        cases failure with
        | missing => exact (deeper rfl).elim
        | notDirectory => rfl
        | alreadyThere => rfl

/--
On a tree of directories the calls have the effect of the recursion over the
tree, if the stack is as deep as the path is long.
-/
theorem run_make_parent_dir
    {depth : Nat} (deep : path.length < depth) (world : ParentDir.World) :
    ∃ calls,
      (make_parent_dir depth path).run treeKernel world calls =
        some (ParentDir.make_parent_dir world path) := by
  induction depth generalizing path with
  | zero => exact absurd deep (Nat.not_lt_zero _)
  | succ depth induction =>
      cases found : world.lstat (dirname path) with
      | ok kind =>
          rw [make_parent_dir_of_present found]
          refine
            ⟨[()], Prog.run_call_eq_some.mpr
              ⟨(), [], .ok ⟨kind == .directory, 0⟩, world, rfl, ?_, rfl⟩⟩
          simp only [treeKernel, found]
      | error failure =>
          have looked := treeKernel_stat_of_error found
          by_cases missing : failure = .missing
          · subst missing
            have shorter := dirname_shorter found
            rcases run_firstTry found (induction (by omega)) with
              ⟨calls, ran⟩
            rw [make_parent_dir_succ]
            exact
              ⟨() :: calls, Prog.run_call_eq_some.mpr
                ⟨(), calls, _, world, rfl, looked, ran⟩⟩
          · rw [make_parent_dir_of_refused found missing]
            refine
              ⟨[()], Prog.run_call_eq_some.mpr
                ⟨(), [], _, world, rfl, looked, ?_⟩⟩
            cases failure with
            | missing => exact (missing rfl).elim
            | notDirectory => rfl
            | alreadyThere => rfl

end Tree

/-- `O_APPEND`. -/
def O_APPEND : Nat := 1024

/-- `dz_openlog`. -/
def dz_openlog (depth : Nat) (logfile : CString) : Call Int := do
  let opened ← perform (.openFile logfile (O_WRONLY + O_APPEND + O_CREAT))
  match opened with
  | .ok fd => return fd
  | .error .ENOENT => do
      let ret ← make_parent_dir depth logfile
      if ret < 0 then return -1
      else do
        let opened ← perform (.openFile logfile (O_WRONLY + O_CREAT))
        return returnFd opened
  | .error _ => return -1

/-! ## The processes -/

/-- How far a process is. -/
inductive Phase where
  | opening (rest : Call Int)
  | logging (priv : Priv)
  /-- `dzfile_init` has returned -1. -/
  | failed

/-- A process goes on with the descriptor that `dz_openlog` returns. -/
def Phase.after : Call Int → Phase
  | .ret logfd =>
      if logfd < 0 then .failed else .logging ⟨.DZ_LOG_DEBUG, logfd⟩
  | program => .opening program

/-- The shared file system, and the processes with their tables. -/
structure World (Pid : Type) where
  fs : FileSystem
  procs : Pid → Process
  phases : Pid → Phase
  /-- What the calls of `write` have accepted, in order. -/
  accepted : Bytes

/-- What happens next. -/
inductive Event (Pid : Type) where
  | opens (pid : Pid) (choice : Choice)
  | logs (pid : Pid) (message : Message) (clock : Option Clock)
      (prtbuf : PrtBuf) (choices : List Choice)

section Steps

variable {Pid : Type} [DecidableEq Pid]

/-- What a process sees. -/
def World.sys (world : World Pid) (pid : Pid) : Sys :=
  ⟨world.fs, .empty, world.procs pid⟩

/-- The bytes of the line that a message has handed over. -/
def taken (message : Message) (clock : Option Clock) (ret : Int) : Bytes :=
  match clock with
  | none => []
  | some clock => (bytesOf (message.text clock)).take ret.toNat

/-- One call of `dz_openlog`, or a whole call of `_dz_msg`. -/
def step (platform : Platform) (world : World Pid) :
    Event Pid → Option (World Pid)
  | .opens pid choice =>
      match world.phases pid with
      | .opening (.call op next) =>
          (kernel platform (world.sys pid) choice op).map fun answer =>
            { world with
              fs := answer.2.fs
              procs := Function.update world.procs pid answer.2.proc
              phases :=
                Function.update world.phases pid
                  (Phase.after (next answer.1)) }
      | _ => none
  | .logs pid message clock prtbuf choices =>
      match world.phases pid with
      | .logging priv =>
          ((dz_msg (some priv) message clock prtbuf).run (kernel platform)
              (world.sys pid) choices).map fun answer =>
            { world with
              fs := answer.2.fs
              procs := Function.update world.procs pid answer.2.proc
              accepted :=
                world.accepted ++ taken message clock answer.1 }
      | _ => none

/-- No process has opened the log yet. -/
def World.start (depth : Nat) (logfile : CString) (fs : FileSystem) :
    World Pid where
  fs := fs
  procs _ := .empty
  phases _ := Phase.after (dz_openlog depth logfile)
  accepted := []

/-! ## The property -/

/-- What the log holds. -/
def logged (platform : Platform) (logfile : CString) (fs : FileSystem) :
    Bytes :=
  match fs.entry logfile with
  | none => []
  | some ino => (fs.node ino).bytes platform

/-- The log holds what it held before and every accepted line behind it. -/
def Keeps
    (platform : Platform) (logfile : CString) (before : Bytes)
    (world : World Pid) : Prop :=
  logged platform logfile world.fs = before ++ world.accepted

/-- A write is granted at least one byte. -/
def Writes (choices : List Choice) : Prop :=
  ∃ limit, choices = [.ok limit] ∧ limit ≠ 0

/--
A descriptor that does not append stands at the end of the log when something
is written to it.
-/
def AtEnd
    (platform : Platform) (logfile : CString) (world : World Pid) :
    Event Pid → Prop
  | .opens _ _ => True
  | .logs pid _ _ _ choices =>
      Writes choices →
        ∀ priv file, world.phases pid = .logging priv →
          (world.procs pid).fds priv.logfd = some file →
            hasAppend file.flags = false →
              file.offset = (logged platform logfile world.fs).length

end Steps

/-! ## Opening among others -/

/-- The calls of `dz_openlog`. -/
def Opens (logfile : CString) : Op → Prop
  | .stat _ => True
  | .mkdir _ => True
  | .openFile path flags =>
      path = logfile ∧ hasTrunc flags = false ∧ accessMode flags = O_WRONLY
  | _ => False

/-- A descriptor of the log. -/
def Attached (logfile : CString) (fd : Int) (sys : Sys) : Prop :=
  ∃ file,
    sys.proc.fds fd = some file ∧ file.writable = true ∧
      sys.fs.entry logfile = some file.ino

/-- What the others leave alone. -/
def Relies (logfile : CString) (sys later : Sys) : Prop :=
  later.proc = sys.proc ∧
    ∀ ino, sys.fs.entry logfile = some ino →
      later.fs.entry logfile = some ino

/-- Some answer of the environment. -/
def Answers (platform : Platform) (op : Op) (sys : Sys) (reply : Reply op)
    (later : Sys) : Prop :=
  ∃ choice, kernel platform sys choice op = some (reply, later)

/-- The program is on the way to a descriptor of the log. -/
abbrev Obtains
    (platform : Platform) (logfile : CString) (program : Call Int)
    (sys : Sys) : Prop :=
  Ensures (Relies logfile) (Answers platform)
    (fun fd later => 0 ≤ fd → Attached logfile fd later) program sys

section Opening

variable
    {platform : Platform} {logfile : CString} {sys later : Sys} {fd : Int}

theorem Relies.refl (sys : Sys) : Relies logfile sys sys :=
  ⟨rfl, fun _ named => named⟩

theorem Relies.trans (a b c : Sys) (first : Relies logfile a b)
    (second : Relies logfile b c) :
    Relies logfile a c :=
  ⟨second.1.trans first.1, fun ino named => second.2 ino (first.2 ino named)⟩

theorem Attached.relied
    (attached : Attached logfile fd sys)
    (relied : Relies logfile sys later) :
    Attached logfile fd later := by
  rcases attached with ⟨file, held, writable, named⟩
  refine ⟨file, ?_, writable, relied.2 file.ino named⟩
  rw [relied.1]
  exact held

theorem writable_of_wronly
    {flags : Nat} (mode : accessMode flags = O_WRONLY) (ino : Ino)
    (offset : Nat) :
    (OpenFile.mk ino offset flags).writable = true := by
  simp [OpenFile.writable, mode]

/-- A successful `open` of the log gives a descriptor of it. -/
theorem attached_of_openFile
    {flags : Nat} {choice : Choice}
    (mode : accessMode flags = O_WRONLY)
    (called : sys.openFile choice logfile flags = some (.ok fd, later)) :
    Attached logfile fd later := by
  rcases Sys.openFile_eq_some called with
    ⟨number, ino, fs, rfl, free, rfl, opens⟩
  refine
    ⟨⟨ino, 0, flags⟩, by simp [Process.setFd], writable_of_wronly mode _ _, ?_⟩
  rcases opens with ⟨_, _, rfl, rfl⟩ | ⟨named, rfl | ⟨_, rfl⟩⟩
  · simp
  · exact named
  · exact named

/-- The rest of `dz_openlog` behind an `open`. -/
theorem obtains_opened
    {flags : Nat} (mode : accessMode flags = O_WRONLY)
    {rest : Except Errno Int → Call Int} {sys : Sys}
    (succeeds : ∀ fd, rest (.ok fd) = .ret fd)
    (fails : ∀ errno later, Obtains platform logfile (rest (.error errno)) later) :
    Obtains platform logfile (.call (.openFile logfile flags) rest) sys := by
  rintro middle _ (errno | fd) after ⟨choice, called⟩
  · exact fails errno after
  · rw [succeeds]
    intro later relied _
    exact (attached_of_openFile mode called).relied relied

theorem obtains_failed (later : Sys) :
    Obtains platform logfile (.ret (-1)) later := by
  intro _ _ nonneg
  exact absurd nonneg (by decide)

/-- `dz_openlog` obtains a descriptor of the log, whatever others do. -/
theorem obtains_dz_openlog (depth : Nat) (sys : Sys) :
    Obtains platform logfile (dz_openlog depth logfile) sys := by
  unfold dz_openlog
  simp only [Prog.perform_bind]
  apply obtains_opened (by decide)
  · exact fun _ => rfl
  · intro errno later
    have reopens :
        ∀ (ret : Int) (state : Sys),
          Obtains platform logfile
            (if ret < 0 then return -1
              else do
                let opened ← perform (.openFile logfile (O_WRONLY + O_CREAT))
                return returnFd opened)
            state := by
      intro ret state
      split
      · exact obtains_failed state
      · apply obtains_opened (by decide)
        · exact fun _ => rfl
        · exact fun _ => obtains_failed
    cases errno <;> first
      | exact obtains_failed later
      | exact
          Ensures.bind Relies.refl
            (Ensures.of_forall reopens (make_parent_dir depth logfile) later)

theorem opens_make_parent_dir (depth : Nat) (path : CString) :
    (make_parent_dir depth path).AllCalls (Opens logfile) := by
  induction depth generalizing path with
  | zero => trivial
  | succ depth induction =>
      refine ⟨trivial, ?_⟩
      rintro (errno | found)
      · cases errno <;> first
          | trivial
          | skip
        refine ⟨trivial, ?_⟩
        rintro (errno | made)
        · cases errno <;> first
            | trivial
            | skip
          refine (induction _).bind fun rc => ?_
          split
          · exact ⟨trivial, fun _ => trivial⟩
          · trivial
        · trivial
      · trivial

theorem opens_dz_openlog (depth : Nat) (logfile : CString) :
    (dz_openlog depth logfile).AllCalls (Opens logfile) := by
  refine ⟨⟨rfl, by decide, by decide⟩, ?_⟩
  rintro (errno | fd)
  · cases errno <;> first
      | trivial
      | skip
    refine (opens_make_parent_dir depth logfile).bind fun ret => ?_
    split
    · trivial
    · exact ⟨⟨rfl, by decide, by decide⟩, fun _ => trivial⟩
  · trivial

/-- A new name leaves what the log holds. -/
theorem logged_link
    {fs : FileSystem} {path : CString} {node : Node}
    (absent : fs.entry path = none) (empty : node.bytes platform = []) :
    logged platform logfile (fs.link path node) =
        logged platform logfile fs ∧
      ∀ ino, fs.entry logfile = some ino →
        (fs.link path node).entry logfile = some ino := by
  by_cases same : logfile = path
  · subst same
    constructor
    · simp [logged, absent, empty]
    · intro ino named
      rw [absent] at named
      cases named
  · have names :
        (fs.link path node).entry logfile = fs.entry logfile := by
      rw [FileSystem.entry_link, Function.update_of_ne same]
    constructor
    · rw [logged, logged, names]
      cases named : fs.entry logfile with
      | none => rfl
      | some ino =>
          simp only [FileSystem.node_link]
          rw [Function.update_of_ne (FileSystem.entry_ne_fresh named)]
    · intro ino named
      rw [names]
      exact named

/-- The calls of `dz_openlog` leave what the log holds. -/
theorem logged_of_opens
    {op : Op} {reply : Reply op} {choice : Choice} (opens : Opens logfile op)
    (called : kernel platform sys choice op = some (reply, later)) :
    logged platform logfile later.fs = logged platform logfile sys.fs ∧
      ∀ ino, sys.fs.entry logfile = some ino →
        later.fs.entry logfile = some ino := by
  have unchanged :
      later.fs = sys.fs →
        logged platform logfile later.fs = logged platform logfile sys.fs ∧
          ∀ ino, sys.fs.entry logfile = some ino →
            later.fs.entry logfile = some ino := by
    intro same
    rw [same]
    exact ⟨rfl, fun _ named => named⟩
  cases op with
  | stat path =>
      rcases Opening.stat_reply called with ⟨rfl, _⟩
      exact unchanged rfl
  | mkdir path =>
      change sys.mkdir choice path = _ at called
      unfold Sys.mkdir Sys.refuse at called
      split at called
      · cases called
        exact unchanged rfl
      · cases called
        exact unchanged rfl
      · rename_i absent
        cases called
        exact logged_link absent rfl
  | openFile path flags =>
      rcases opens with ⟨rfl, notTrunc, _⟩
      change sys.openFile choice path flags = _ at called
      rcases reply with errno | fd
      · rw [Sys.openFile_eq_error called]
        exact ⟨rfl, fun _ named => named⟩
      · rcases Sys.openFile_eq_some called with
          ⟨_, _, fs, _, _, rfl, ⟨absent, _, _, rfl⟩ | ⟨_, rfl | ⟨trunc, _⟩⟩⟩
        · exact logged_link absent rfl
        · exact unchanged rfl
        · rw [notTrunc] at trunc
          cases trunc
  | _ => exact opens.elim

end Opening

/-! ## Writing among others -/

section Writing

variable
    {platform : Platform} {logfile : CString} {sys later : Sys} {priv : Priv}
    {message : Message} {clock : Option Clock} {prtbuf : PrtBuf}
    {choices : List Choice} {ret : Int}

/-- A line is not empty. -/
theorem bytesOf_text_ne_nil (message : Message) (clock : Clock) :
    bytesOf (message.text clock) ≠ [] := by
  have begins :
      message.text clock =
        '[' :: ((message.parts clock).tail.flatten ++ message.output).take
          (DZ_LOGBUFSZ - 2) :=
    rfl
  rw [begins]
  exact List.cons_ne_nil _ _

/-- A message is written in one call, or nothing happens. -/
theorem run_dz_msg
    (attached : Attached logfile priv.logfd sys)
    (ran :
      (dz_msg (some priv) message clock prtbuf).run (kernel platform) sys
          choices =
        some (ret, later)) :
    (later = sys ∧ taken message clock ret = [] ∧ ¬ Writes choices) ∨
      ∃ limit file line offset,
        choices = [.ok limit] ∧ sys.proc.fds priv.logfd = some file ∧
          file.writable = true ∧ sys.fs.entry logfile = some file.ino ∧
            line ≠ [] ∧ taken message clock ret = line.take limit ∧
              later.fs =
                sys.writeAt platform file
                  (sys.landing platform file file.offset) limit line ∧
                later.proc =
                  sys.proc.setFd priv.logfd
                    (some { file with offset := offset }) := by
  have nothing :
      ∀ ret : Int, ret ≤ 0 → taken message clock ret = [] := by
    intro ret small
    cases clock with
    | none => rfl
    | some clock =>
        rw [taken, Int.toNat_of_nonpos small, List.take_zero]
  have silent : ¬ Writes [] := by
    rintro ⟨limit, empty, _⟩
    cases empty
  unfold dz_msg at ran
  dsimp only at ran
  split at ran
  · rcases Prog.run_ret_eq_some.mp ran with ⟨rfl, rfl, rfl⟩
    exact Or.inl ⟨rfl, nothing 0 (by decide), silent⟩
  · cases clock with
    | none =>
        rcases Prog.run_ret_eq_some.mp ran with ⟨rfl, rfl, rfl⟩
        exact Or.inl ⟨rfl, rfl, silent⟩
    | some clock =>
        have formed :=
          form_eq prtbuf (message.header_terminated clock)
            message.output_terminated
        simp only [formed, Prog.perform_bind] at ran
        rcases Prog.run_call_eq_some.mp ran with
          ⟨choice, rest, written, after, rfl, called, returned⟩
        rcases Prog.run_ret_eq_some.mp returned with ⟨rfl, rfl, rfl⟩
        rcases choice with limit | errno
        · right
          rcases attached with ⟨file, held, writable, named⟩
          simp only [kernel, Sys.write, held, writable, Bool.true_eq_false,
            if_false] at called
          cases called
          refine
            ⟨limit, file, bytesOf (message.text clock), _, rfl, held,
              writable, named, bytesOf_text_ne_nil message clock, ?_, rfl,
              rfl⟩
          simp only [taken, returnCount_ok, Int.toNat_natCast]
          exact (List.take_eq_take_min ..).symm
        · left
          cases called
          refine ⟨rfl, nothing _ (by simp), ?_⟩
          rintro ⟨limit, same, _⟩
          cases same

/-- Where a line lands decides what the log holds afterwards. -/
theorem logged_of_logs
    (attached : Attached logfile priv.logfd sys)
    (ran :
      (dz_msg (some priv) message clock prtbuf).run (kernel platform) sys
          choices =
        some (ret, later)) :
    Attached logfile priv.logfd later ∧
      later.fs.entry logfile = sys.fs.entry logfile ∧
        (logged platform logfile later.fs =
            logged platform logfile sys.fs ++ taken message clock ret ↔
          (Writes choices →
            ∀ file, sys.proc.fds priv.logfd = some file →
              hasAppend file.flags = false →
                file.offset = (logged platform logfile sys.fs).length)) := by
  rcases run_dz_msg attached ran with
    ⟨rfl, none_, silent⟩ |
      ⟨limit, file, line, offset, rfl, held, writable, named, nonempty, took,
        files, proc⟩
  · refine ⟨attached, rfl, ?_⟩
    rw [none_, List.append_nil]
    exact ⟨fun _ writes => absurd writes silent, fun _ => rfl⟩
  · have entries : later.fs.entry logfile = sys.fs.entry logfile := by
      rw [files, Sys.writeAt, FileSystem.entry_put]
    have content :
        logged platform logfile sys.fs =
          (sys.fs.node file.ino).bytes platform := by
      rw [logged, named]
    have content' :
        logged platform logfile later.fs =
          overwrite 0 (logged platform logfile sys.fs)
            (sys.landing platform file file.offset) (line.take limit) := by
      rw [logged, entries, named, content, files]
      simp [Sys.writeAt, Node.bytes]
    refine ⟨?_, entries, ?_⟩
    · refine ⟨{ file with offset := offset }, ?_, writable, ?_⟩
      · rw [proc]
        simp [Process.setFd]
      · rw [entries]
        exact named
    · rw [content', took]
      by_cases zero : limit = 0
      · subst zero
        constructor
        · rintro _ ⟨limit, same, positive⟩
          cases same
          exact absurd rfl positive
        · intro _
          rw [List.take_zero, overwrite_nil, List.append_nil]
      · have piece : line.take limit ≠ [] := by
          rw [ne_eq, List.take_eq_nil_iff, not_or]
          exact ⟨zero, nonempty⟩
        rw [overwrite_eq_append_iff 0 _ _ piece, Sys.landing, ← content]
        constructor
        · intro landed _ file' held' notAppend
          rw [held] at held'
          cases held'
          rwa [if_neg (by simp [notAppend])] at landed
        · intro atEnd
          split
          · rfl
          · rename_i notAppend
            exact atEnd ⟨limit, rfl, zero⟩ file held (by simpa using notAppend)

end Writing

/-! ## Runs -/

section Runs

variable
    {Pid : Type} [DecidableEq Pid] {platform : Platform} {logfile : CString}
    {before : Bytes} {world next : World Pid} {event : Event Pid}

/-- What holds of a process. -/
def Fits (platform : Platform) (logfile : CString) (sys : Sys) :
    Phase → Prop
  | .opening rest =>
      rest.AllCalls (Opens logfile) ∧ Obtains platform logfile rest sys
  | .logging priv => Attached logfile priv.logfd sys
  | .failed => True

/-- What holds of all processes. -/
def Sound (platform : Platform) (logfile : CString) (world : World Pid) :
    Prop :=
  ∀ pid, Fits platform logfile (world.sys pid) (world.phases pid)

/-- What the others do keeps it. -/
theorem Fits.relied
    {phase : Phase} {sys later : Sys}
    (fits : Fits platform logfile sys phase)
    (relied : Relies logfile sys later) :
    Fits platform logfile later phase := by
  cases phase with
  | opening rest => exact ⟨fits.1, fits.2.relied Relies.trans relied⟩
  | logging priv => exact Attached.relied fits relied
  | failed => trivial

/-- A process goes on as its program does. -/
theorem fits_after
    {program : Call Int} {sys : Sys}
    (calls : program.AllCalls (Opens logfile))
    (obtains : Obtains platform logfile program sys) :
    Fits platform logfile sys (Phase.after program) := by
  cases program with
  | ret logfd =>
      simp only [Phase.after]
      split
      · trivial
      · rename_i valid
        exact obtains.returned Relies.refl (Int.not_lt.mp valid)
  | call op rest => exact ⟨calls, obtains⟩
  | fault => exact ⟨trivial, trivial⟩

omit [DecidableEq Pid] in
theorem sound_start (depth : Nat) (fs : FileSystem) :
    Sound platform logfile (World.start depth logfile fs : World Pid) :=
  fun _ =>
    fits_after (opens_dz_openlog depth logfile)
      (obtains_dz_openlog depth _)

/-- A process that has done something, among the others. -/
theorem Sound.update
    (sound : Sound platform logfile world) {pid : Pid} {later : Sys}
    {phase : Phase} {accepted : Bytes}
    (entries : ∀ ino, world.fs.entry logfile = some ino →
      later.fs.entry logfile = some ino)
    (fits : Fits platform logfile ⟨later.fs, .empty, later.proc⟩ phase) :
    Sound platform logfile
      ⟨later.fs, Function.update world.procs pid later.proc,
        Function.update world.phases pid phase, accepted⟩ := by
  intro other
  by_cases own : other = pid
  · subst own
    simpa only [World.sys, Function.update_self] using fits
  · simp only [World.sys, Function.update_of_ne own]
    exact (sound other).relied ⟨rfl, entries⟩

/-- The step lemma. -/
theorem Sound.step
    (sound : Sound platform logfile world)
    (stepped : step platform world event = some next) :
    Sound platform logfile next ∧
      (Keeps platform logfile before world →
        (Keeps platform logfile before next ↔
          AtEnd platform logfile world event)) := by
  cases event with
  | opens pid choice =>
      have fits := sound pid
      simp only [Logging.step] at stepped
      split at stepped
      · rename_i op rest phase
        rw [phase] at fits
        rcases Option.map_eq_some_iff.mp stepped with
          ⟨⟨reply, later⟩, called, rfl⟩
        rcases fits with ⟨calls, obtains⟩
        rcases logged_of_opens calls.1 called with ⟨kept, entries⟩
        have reached :=
          obtains.called Relies.refl (Exists.intro choice called)
        constructor
        · apply sound.update entries
          exact
            (fits_after (calls.2 reply) reached).relied
              ⟨rfl, fun _ named => named⟩
        · intro keeps
          exact ⟨fun _ => trivial, fun _ => kept.trans keeps⟩
      · cases stepped
  | logs pid message clock prtbuf choices =>
      have fits := sound pid
      simp only [Logging.step] at stepped
      split at stepped
      · rename_i priv phase
        rw [phase] at fits
        rcases Option.map_eq_some_iff.mp stepped with
          ⟨⟨ret, later⟩, ran, rfl⟩
        rcases logged_of_logs fits ran with ⟨attached, entries, lands⟩
        constructor
        · have updated :
              Sound platform logfile
                ⟨later.fs, Function.update world.procs pid later.proc,
                  Function.update world.phases pid (.logging priv),
                  world.accepted ++ taken message clock ret⟩ := by
            apply sound.update
            · intro ino named
              rw [entries]
              exact named
            · exact Attached.relied attached ⟨rfl, fun _ named => named⟩
          rwa [← phase, Function.update_eq_self] at updated
        · intro keeps
          rw [Keeps, ← List.append_assoc, ← keeps]
          refine lands.trans ?_
          constructor
          · intro atEnd writes priv' file phase' held notAppend
            rw [phase] at phase'
            cases phase'
            exact atEnd writes file held notAppend
          · intro atEnd writes file held notAppend
            exact atEnd writes priv file phase held notAppend
      · cases stepped

/--
However many processes open the log and add lines to it, in whatever order:
the log holds at every moment what it held at first and behind it every line
as far as it was accepted, in order, if and only if a descriptor of the second
`open` stands at the end of the log whenever something is written to it.
-/
theorem log_keeps_lines_iff
    (depth : Nat) (fs : FileSystem) {events : List (Event Pid)}
    {final : World Pid}
    (ran :
      run (step platform) (World.start depth logfile fs) events =
        some final) :
    Throughout (step platform)
        (Keeps platform logfile (logged platform logfile fs))
        (World.start depth logfile fs) events ↔
      Along (step platform) (AtEnd platform logfile)
        (World.start depth logfile fs) events := by
  apply
    throughout_iff_along
      (fun world =>
        Sound platform logfile world ∧
          Keeps platform logfile (logged platform logfile fs) world)
      _ _ _ _ ran
  · exact fun _ holds => holds.2
  · rintro world event next ⟨sound, keeps⟩ atEnd stepped
    rcases sound.step stepped with ⟨sound', kept⟩
    exact ⟨sound', (kept keeps).mpr atEnd⟩
  · rintro world event next ⟨sound, keeps⟩ notAtEnd stepped
    rcases sound.step stepped with ⟨_, kept⟩
    exact fun keeps' => notAtEnd ((kept keeps).mp keeps')
  · exact ⟨sound_start depth fs, by simp [Keeps, World.start]⟩

end Runs

/-! ## Two processes -/

/-- A message of one character at the level of errors. -/
def shortMessage : Message where
  file := ['f']
  function := ['g']
  line := 1
  level := .DZ_LOG_ERROR
  errnum := 0
  output := ['x']
  file_terminated := by decide
  function_terminated := by decide
  output_terminated := by decide

/-- Midnight on the first day of a year. -/
def midnight : Clock :=
  ⟨0, ⟨124, 0, 1, 0, 0, 0⟩⟩

/-- An empty buffer. -/
def blank : PrtBuf :=
  ⟨List.replicate DZ_LOGBUFSZ nul, List.length_replicate⟩

instance (choices : List Choice) : Decidable (Writes choices) :=
  match choices with
  | [.ok limit] =>
      decidable_of_iff (limit ≠ 0)
        ⟨fun nonzero => ⟨limit, rfl, nonzero⟩, fun ⟨_, same, nonzero⟩ => by
          cases same
          exact nonzero⟩
  | [] => isFalse nofun
  | [.fail _] => isFalse nofun
  | _ :: _ :: _ => isFalse nofun

/-- The descriptor of a process that is logging. -/
def World.log (world : World Bool) (pid : Bool) : Option OpenFile :=
  match world.phases pid with
  | .logging priv => (world.procs pid).fds priv.logfd
  | _ => none

theorem log_eq_some_iff
    {world : World Bool} {pid : Bool} {file : OpenFile} :
    world.log pid = some file ↔
      ∃ priv, world.phases pid = .logging priv ∧
        (world.procs pid).fds priv.logfd = some file := by
  unfold World.log
  cases world.phases pid <;> simp

instance
    (platform : Platform) (logfile : CString) (world : World Bool)
    (event : Event Bool) :
    Decidable (AtEnd platform logfile world event) :=
  match event with
  | .opens _ _ => isTrue trivial
  | .logs pid _ _ _ choices =>
      decidable_of_iff
        (Writes choices →
          ∀ file ∈ world.log pid,
            hasAppend file.flags = false →
              file.offset = (logged platform logfile world.fs).length)
        (imp_congr_right fun _ =>
          ⟨fun stands priv file phase held =>
            stands file (log_eq_some_iff.mpr ⟨priv, phase, held⟩),
          fun stands file held => by
            rcases log_eq_some_iff.mp held with ⟨priv, phase, held⟩
            exact stands priv file phase held⟩)

/--
The first process finds no directory, makes it and creates the log; the
second appends to what the first has written.
-/
def appending : List (Event Bool) :=
  [.opens false (.fail .ENOENT), .opens false (.ok 0),
    .opens false (.ok 0), .opens false (.ok 3), .opens true (.ok 3),
    .logs false shortMessage (some midnight) blank [.ok 100],
    .logs true shortMessage (some midnight) blank [.ok 20]]

/-- Both processes find no directory, and write from the start of the log. -/
def overwriting : List (Event Bool) :=
  [.opens false (.fail .ENOENT), .opens true (.fail .ENOENT),
    .opens false (.ok 0), .opens false (.ok 0), .opens true (.ok 0),
    .opens false (.ok 3), .opens true (.ok 3),
    .logs false shortMessage (some midnight) blank [.ok 100],
    .logs true shortMessage (some midnight) blank [.ok 20]]

theorem log_keeps_lines_iff_twoProcesses :
    (∃ final,
      run (step storingPlatform)
            (World.start 1 ['/', 'l'] Sys.initial.fs) appending =
          some final ∧
        Throughout (step storingPlatform)
          (Keeps storingPlatform ['/', 'l'] [])
          (World.start 1 ['/', 'l'] Sys.initial.fs) appending) ∧
      ∃ final,
        run (step storingPlatform)
              (World.start 1 ['/', 'l'] Sys.initial.fs) overwriting =
            some final ∧
          ¬ Throughout (step storingPlatform)
            (Keeps storingPlatform ['/', 'l'] [])
            (World.start 1 ['/', 'l'] Sys.initial.fs) overwriting := by
  constructor
  · have runs :
        (run (step storingPlatform)
          (World.start 1 ['/', 'l'] Sys.initial.fs) appending).isSome := by
      decide +kernel
    rcases Option.isSome_iff_exists.mp runs with ⟨final, ran⟩
    have along :
        Along (step storingPlatform) (AtEnd storingPlatform ['/', 'l'])
          (World.start 1 ['/', 'l'] Sys.initial.fs) appending := by
      decide +kernel
    exact ⟨final, ran, (log_keeps_lines_iff 1 Sys.initial.fs ran).mpr along⟩
  · have runs :
        (run (step storingPlatform)
          (World.start 1 ['/', 'l'] Sys.initial.fs) overwriting).isSome := by
      decide +kernel
    rcases Option.isSome_iff_exists.mp runs with ⟨final, ran⟩
    have notAlong :
        ¬ Along (step storingPlatform) (AtEnd storingPlatform ['/', 'l'])
          (World.start 1 ['/', 'l'] Sys.initial.fs) overwriting := by
      decide +kernel
    exact
      ⟨final, ran, fun keeps =>
        notAlong ((log_keeps_lines_iff 1 Sys.initial.fs ran).mp keeps)⟩

/-! ## A log that is there -/

section Present

variable
    {Pid : Type} [DecidableEq Pid] {platform : Platform} {logfile : CString}
    {world next : World Pid} {event : Event Pid} {depth : Nat}

/-- No `open` misses the directory of the log. -/
def FindsDirectory : Event Pid → Prop
  | .opens _ choice => choice ≠ .fail .ENOENT
  | .logs _ _ _ _ _ => True

/-- A process that has made its first call has a descriptor that appends. -/
def Appends (depth : Nat) (logfile : CString) (proc : Process) :
    Phase → Prop
  | .opening rest => rest = dz_openlog depth logfile
  | .logging priv =>
      ∀ file, proc.fds priv.logfd = some file → hasAppend file.flags = true
  | .failed => True

/-- The log is there, and every process appends to it. -/
structure Orderly (depth : Nat) (logfile : CString) (world : World Pid) :
    Prop where
  present : world.fs.entry logfile ≠ none
  appends :
    ∀ pid, Appends depth logfile (world.procs pid) (world.phases pid)

/-- An `open` of a file that is there is not refused for want of it. -/
theorem found_of_openFile
    {sys later : Sys} {choice : Choice} {flags : Nat} {errno : Errno}
    (present : sys.fs.entry logfile ≠ none) (found : choice ≠ .fail .ENOENT)
    (called :
      sys.openFile choice logfile flags = some (.error errno, later)) :
    errno ≠ .ENOENT := by
  rintro rfl
  unfold Sys.openFile Sys.refuse Sys.install at called
  split at called
  · cases called
    exact found rfl
  · split at called
    · cases called
    · split at called
      · rename_i absent
        exact present absent
      · split at called
        · cases called
        · split at called
          · split at called <;> cases called
          · cases called

/-- The first call of a process decides. -/
theorem appends_of_opens
    {sys later : Sys} {choice : Choice} {op : Op}
    {rest : Reply op → Call Int} {reply : Reply op}
    (program : Prog.call op rest = dz_openlog depth logfile)
    (present : sys.fs.entry logfile ≠ none) (found : choice ≠ .fail .ENOENT)
    (called : kernel platform sys choice op = some (reply, later)) :
    Appends depth logfile later.proc (Phase.after (rest reply)) := by
  unfold dz_openlog at program
  rw [Prog.perform_bind] at program
  cases program
  rcases reply with errno | fd
  · have other := found_of_openFile present found called
    cases errno <;> trivial
  · rcases Sys.openFile_eq_some called with
      ⟨number, ino, fs, rfl, free, rfl, _⟩
    have nonneg : ¬ ((number : Int) < 0) := by omega
    change
      Appends depth logfile _
        (if (number : Int) < 0 then .failed else .logging ⟨_, number⟩)
    rw [if_neg nonneg]
    intro file held
    simp only [Process.setFd, Function.update_self, Option.some.injEq]
      at held
    rw [← held]
    change hasAppend (O_WRONLY + O_APPEND + O_CREAT) = true
    decide

/-- A line is written through the same descriptor as the one before. -/
theorem appends_of_logs
    {sys later : Sys} {priv : Priv} {message : Message}
    {clock : Option Clock} {prtbuf : PrtBuf} {choices : List Choice}
    {ret : Int} (attached : Attached logfile priv.logfd sys)
    (appends : Appends depth logfile sys.proc (.logging priv))
    (ran :
      (dz_msg (some priv) message clock prtbuf).run (kernel platform) sys
          choices =
        some (ret, later)) :
    Appends depth logfile later.proc (.logging priv) := by
  rcases run_dz_msg attached ran with
    ⟨rfl, _⟩ | ⟨_, file, _, offset, _, held, _, _, _, _, _, proc⟩
  · exact appends
  · intro file' held'
    rw [proc] at held'
    simp only [Process.setFd, Function.update_self, Option.some.injEq]
      at held'
    rw [← held']
    exact appends file held

/-- Where no directory is missing every process appends. -/
theorem Orderly.step
    (orderly : Orderly depth logfile world)
    (sound : Sound platform logfile world) (found : FindsDirectory event)
    (stepped : step platform world event = some next) :
    Orderly depth logfile next := by
  have others :
      ∀ {pid : Pid} {proc : Process} {phase : Phase},
        Appends depth logfile proc phase →
          ∀ other,
            Appends depth logfile (Function.update world.procs pid proc other)
              (Function.update world.phases pid phase other) := by
    intro pid proc phase own other
    by_cases same : other = pid
    · subst same
      simpa only [Function.update_self] using own
    · simpa only [Function.update_of_ne same] using orderly.appends other
  cases event with
  | opens pid choice =>
      have fits := sound pid
      have appends := orderly.appends pid
      simp only [Logging.step] at stepped
      split at stepped
      · rename_i op rest phase
        rw [phase] at fits appends
        rcases Option.map_eq_some_iff.mp stepped with
          ⟨⟨reply, later⟩, called, rfl⟩
        rcases logged_of_opens fits.1.1 called with ⟨_, entries⟩
        constructor
        · rcases Option.ne_none_iff_exists'.mp orderly.present with
            ⟨ino, named⟩
          exact Option.ne_none_iff_exists'.mpr ⟨ino, entries ino named⟩
        · exact others (appends_of_opens appends orderly.present found called)
      · cases stepped
  | logs pid message clock prtbuf choices =>
      have fits := sound pid
      have appends := orderly.appends pid
      simp only [Logging.step] at stepped
      split at stepped
      · rename_i priv phase
        rw [phase] at fits appends
        rcases Option.map_eq_some_iff.mp stepped with
          ⟨⟨ret, later⟩, ran, rfl⟩
        rcases logged_of_logs fits ran with ⟨_, entries, _⟩
        constructor
        · change later.fs.entry logfile ≠ none
          rw [entries]
          exact orderly.present
        · have own := @others pid _ _ (appends_of_logs fits appends ran)
          rwa [← phase, Function.update_eq_self] at own
      · cases stepped

omit [DecidableEq Pid] in
/-- A line lands at the end where every process appends. -/
theorem Orderly.atEnd
    (orderly : Orderly depth logfile world) (event : Event Pid) :
    AtEnd platform logfile world event := by
  cases event with
  | opens pid choice => trivial
  | logs pid message clock prtbuf choices =>
      intro _ priv file phase held notAppend
      have appends := orderly.appends pid
      rw [phase] at appends
      rw [appends file held] at notAppend
      cases notAppend

/--
Where the log is there before the processes start, and no `open` misses its
directory, no line is lost or overwritten, whatever the order of the calls.
-/
theorem log_keeps_lines_of_present
    (depth : Nat) (fs : FileSystem) (present : fs.entry logfile ≠ none)
    {events : List (Event Pid)}
    (found : ∀ event ∈ events, FindsDirectory event) :
    Throughout (step platform)
      (Keeps platform logfile (logged platform logfile fs))
      (World.start depth logfile fs) events := by
  have along :
      Along (step platform) (fun _ event => FindsDirectory event)
        (World.start depth logfile fs) events :=
    along_of_forall fun _ event member => found event member
  refine
    throughout_of_along
      (fun world =>
        Sound platform logfile world ∧ Orderly depth logfile world ∧
          Keeps platform logfile (logged platform logfile fs) world)
      ?_ ?_ ?_ along
  · exact fun _ holds => holds.2.2
  · rintro world event next ⟨sound, orderly, keeps⟩ found stepped
    rcases sound.step stepped with ⟨sound', kept⟩
    exact
      ⟨sound', orderly.step sound found stepped,
        (kept keeps).mpr (orderly.atEnd event)⟩
  · exact
      ⟨sound_start depth fs, ⟨present, fun _ => rfl⟩,
        by simp [Keeps, World.start]⟩

end Present

/-- Both processes append to a log that is there. -/
def appendingBoth : List (Event Bool) :=
  [.opens false (.ok 3), .opens true (.ok 3),
    .logs true shortMessage (some midnight) blank [.ok 20],
    .logs false shortMessage (some midnight) blank [.ok 100]]

theorem log_keeps_lines_of_present_twoProcesses :
    (run (step storingPlatform)
        (World.start 1 ['/', 'l'] (Sys.initial.fs.link ['/', 'l'] (.file [7])))
        appendingBoth).isSome ∧
      Throughout (step storingPlatform)
        (Keeps storingPlatform ['/', 'l'] [7])
        (World.start 1 ['/', 'l'] (Sys.initial.fs.link ['/', 'l'] (.file [7])))
        appendingBoth := by
  have present :
      (Sys.initial.fs.link ['/', 'l'] (.file [7])).entry ['/', 'l'] ≠
        none := by
    simp
  have found : ∀ event ∈ appendingBoth, FindsDirectory event := by
    simp [appendingBoth, FindsDirectory]
  refine ⟨by decide +kernel, ?_⟩
  exact log_keeps_lines_of_present 1 _ present found

end DZFile.Logging
