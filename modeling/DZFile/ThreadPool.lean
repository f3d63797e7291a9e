import DZFile.Library.Transition
import Mathlib.Data.List.Perm.Basic
import Mathlib.Data.List.Nodup

/-!
# The thread pool

`ThreadPool` of `threadPool.hh`.  A step is one critical section of a worker,
of `enqueue` or of the destructor, or a worker's return from its task.  A
worker whose condition does not hold waits, and a waiting worker may be woken
at any time, whether it has been notified or not.

Every job carries the number of the `enqueue` call that brought it, and the
state keeps what has been enqueued, taken and finished so far; the run tells
that these are the tasks of its `enqueue` calls, what its workers have taken
off the front of the queue, and what was running when a task returned.  The
queue is what has been enqueued and not taken, in order; a worker returns only
when there is nothing left in it.
-/

namespace DZFile.ThreadPool

open DZFile.Transition (observed run_observed observed_of_labels)

/-- A task and the number of the call that enqueued it. -/
structure Job (Task : Type) where
  ticket : Nat
  task : Task
deriving DecidableEq

/-- Where a worker is. -/
inductive Worker (Task : Type) where
  /-- It is about to lock the queue. -/
  | entering
  /-- It is blocked in `condition.wait`. -/
  | waiting
  | running (job : Job Task)
  | returned
deriving DecidableEq

/-- The job a worker is running. -/
def Worker.job {Task : Type} : Worker Task → Option (Job Task)
  | .running job => some job
  | _ => none

/-- The pool, and what has been enqueued, taken and finished. -/
structure Pool (Task : Type) where
  threads : List (Worker Task)
  tasks : List (Job Task)
  stop : Bool
  enqueued : List (Job Task)
  taken : List (Job Task)
  finished : List (Job Task)
deriving DecidableEq

variable {Task : Type}

/-- The jobs that are being run. -/
def Pool.running (pool : Pool Task) : List (Job Task) :=
  pool.threads.filterMap Worker.job

/-- All workers have returned, so the destructor's joins succeed. -/
def Pool.AllReturned (pool : Pool Task) : Prop :=
  ∀ worker ∈ pool.threads, worker = .returned

/-- The constructor. -/
def Pool.start (thread_count : Nat) : Pool Task where
  threads := List.replicate thread_count .entering
  tasks := []
  stop := false
  enqueued := []
  taken := []
  finished := []

/-! ## Steps -/

/-- Who moves. -/
inductive Label (Task : Type) where
  | enqueue (task : Task)
  /-- The worker locks the queue and tests its conditions. -/
  | enter (worker : Nat)
  /-- `condition.wait` lets the worker go on. -/
  | wake (worker : Nat)
  /-- The worker's task returns. -/
  | finish (worker : Nat)
  /-- The destructor sets `stop`. -/
  | destroy

/-- `enqueue`, which is called only before the destructor starts. -/
def enqueue (pool : Pool Task) (task : Task) : Option (Pool Task) :=
  if pool.stop then none
  else
    let job : Job Task := ⟨pool.enqueued.length, task⟩
    some
      { pool with
        tasks := pool.tasks ++ [job]
        enqueued := pool.enqueued ++ [job] }

/-- The critical section of a worker. -/
def enter (pool : Pool Task) (worker : Nat) : Option (Pool Task) :=
  match pool.threads[worker]?, pool.tasks with
  | some .entering, [] =>
      if pool.stop then
        some { pool with threads := pool.threads.set worker .returned }
      else some { pool with threads := pool.threads.set worker .waiting }
  | some .entering, job :: rest =>
      some
        { pool with
          threads := pool.threads.set worker (.running job)
          tasks := rest
          taken := pool.taken ++ [job] }
  | _, _ => none

/-- A waiting worker is woken. -/
def wake (pool : Pool Task) (worker : Nat) : Option (Pool Task) :=
  match pool.threads[worker]? with
  | some .waiting =>
      some { pool with threads := pool.threads.set worker .entering }
  | _ => none

/-- A task returns. -/
def finish (pool : Pool Task) (worker : Nat) : Option (Pool Task) :=
  match pool.threads[worker]? with
  | some (.running job) =>
      some
        { pool with
          threads := pool.threads.set worker .entering
          finished := pool.finished ++ [job] }
  | _ => none

/-- The critical section of the destructor. -/
def destroy (pool : Pool Task) : Option (Pool Task) :=
  if pool.stop then none else some { pool with stop := true }

/-- One step. -/
def step (pool : Pool Task) :
    Label Task → Option (Pool Task)
  | .enqueue task => enqueue pool task
  | .enter worker => enter pool worker
  | .wake worker => wake pool worker
  | .finish worker => finish pool worker
  | .destroy => destroy pool

/-! ## What a step brings, takes and finishes -/

/-- The task of a call of `enqueue`. -/
def brings : Label Task → List Task
  | .enqueue task => [task]
  | _ => []

/-- The front of the queue, when a worker finds one. -/
def takes (pool : Pool Task) : Label Task → List (Job Task)
  | .enter worker =>
      match pool.threads[worker]?, pool.tasks with
      | some .entering, job :: _ => [job]
      | _, _ => []
  | _ => []

/-- What the worker was running whose task returns. -/
def finishes (pool : Pool Task) : Label Task → List (Job Task)
  | .finish worker => (pool.threads[worker]?.bind Worker.job).toList
  | _ => []

/-- A step adds to the records what it brings, takes and finishes. -/
theorem records_step
    {pool next : Pool Task} {label : Label Task}
    (stepped : step pool label = some next) :
    next.enqueued.map Job.task =
        pool.enqueued.map Job.task ++ brings label ∧
      next.taken = pool.taken ++ takes pool label ∧
        next.finished = pool.finished ++ finishes pool label := by
  cases label with
  | enqueue task =>
      simp only [step, enqueue] at stepped
      split at stepped <;> cases stepped
      simp [brings, takes, finishes]
  | enter worker =>
      simp only [step, enter] at stepped
      split at stepped
      · rename_i entering queue
        split at stepped
        all_goals
          cases stepped
          simp [brings, takes, finishes, queue]
      · rename_i job rest entering queue
        cases stepped
        simp [brings, takes, finishes, entering, queue]
      · cases stepped
  | wake worker =>
      simp only [step, wake] at stepped
      split at stepped <;> cases stepped
      simp [brings, takes, finishes]
  | finish worker =>
      simp only [step, finish] at stepped
      split at stepped
      · rename_i job ran
        cases stepped
        simp [brings, takes, finishes, ran, Worker.job]
      · cases stepped
  | destroy =>
      simp only [step, destroy] at stepped
      split at stepped <;> cases stepped
      simp [brings, takes, finishes]

/-! ## The invariant -/

/-- Every job is accounted for. -/
structure Accounted (pool : Pool Task) : Prop where
  /-- The queue holds what has been enqueued and not taken, in order. -/
  order : pool.enqueued = pool.taken ++ pool.tasks
  /-- What has been taken is being run or has been finished. -/
  shares : pool.taken.Perm (pool.running ++ pool.finished)
  /-- The calls of `enqueue` are numbered. -/
  tickets :
    pool.enqueued.map Job.ticket = List.range pool.enqueued.length
  /-- A worker returns from an empty queue that stays empty. -/
  drained : .returned ∈ pool.threads → pool.stop = true ∧ pool.tasks = []

/-- A list split where one of its elements is replaced. -/
theorem exists_split_set
    {α : Type} {list : List α} {index : Nat} {old : α}
    (found : list[index]? = some old) :
    ∃ before after, list = before ++ old :: after ∧
      ∀ new, list.set index new = before ++ new :: after := by
  rcases List.getElem?_eq_some_iff.mp found with ⟨inside, rfl⟩
  refine ⟨list.take index, list.drop (index + 1), ?_, fun new => ?_⟩
  · rw [← List.drop_eq_getElem_cons inside, List.take_append_drop]
  · rw [List.set_eq_take_append_cons_drop, if_pos inside]

/-- A worker that takes or returns a job changes what is being run. -/
theorem running_set
    {pool : Pool Task} {worker : Nat} {old : Worker Task}
    (found : pool.threads[worker]? = some old) (new : Worker Task) :
    ∃ others,
      pool.running.Perm (old.job.toList ++ others) ∧
        ((pool.threads.set worker new).filterMap Worker.job).Perm
          (new.job.toList ++ others) := by
  rcases exists_split_set found with ⟨before, after, split, replaced⟩
  refine
    ⟨before.filterMap Worker.job ++ after.filterMap Worker.job, ?_, ?_⟩
  · rw [Pool.running, split, List.filterMap_append, List.filterMap_cons]
    cases old.job with
    | none => exact List.Perm.refl _
    | some job => exact List.perm_middle
  · rw [replaced new, List.filterMap_append, List.filterMap_cons]
    cases new.job with
    | none => exact List.Perm.refl _
    | some job => exact List.perm_middle

/-- A worker that runs nothing before and after changes no share. -/
theorem running_set_idle
    {pool : Pool Task} {worker : Nat} {old : Worker Task}
    (new : Worker Task) (found : pool.threads[worker]? = some old)
    (before : old.job = none) (after : new.job = none) :
    ((pool.threads.set worker new).filterMap Worker.job).Perm
      pool.running := by
  rcases running_set found new with ⟨others, first, second⟩
  rw [before] at first
  rw [after] at second
  exact second.trans first.symm

theorem accounted_start (thread_count : Nat) :
    Accounted (Pool.start thread_count : Pool Task) where
  order := rfl
  shares := by
    have idle :
        (List.replicate thread_count (Worker.entering : Worker Task)).filterMap
            Worker.job =
          [] := by
      simp [List.filterMap_eq_nil_iff, Worker.job]
    simp [Pool.start, Pool.running, idle]
  tickets := rfl
  drained := by
    simp [Pool.start]

section Steps

variable {pool next : Pool Task}

theorem Accounted.enqueue
    (accounted : Accounted pool) {task : Task}
    (stepped : enqueue pool task = some next) :
    Accounted next := by
  unfold ThreadPool.enqueue at stepped
  split at stepped
  · cases stepped
  · rename_i running
    cases stepped
    constructor
    · simp [accounted.order]
    · exact accounted.shares
    · simp [accounted.tickets, List.range_succ]
    · intro returned
      exact (running (accounted.drained returned).1).elim

theorem Accounted.enter
    (accounted : Accounted pool) {worker : Nat}
    (stepped : enter pool worker = some next) :
    Accounted next := by
  unfold ThreadPool.enter at stepped
  split at stepped
  · rename_i entering queue
    split at stepped
    · rename_i stopped
      cases stepped
      have idle := running_set_idle .returned entering rfl rfl
      constructor
      · exact accounted.order
      · exact accounted.shares.trans (idle.symm.append_right _)
      · exact accounted.tickets
      · exact fun _ => ⟨stopped, queue⟩
    · cases stepped
      have idle := running_set_idle .waiting entering rfl rfl
      constructor
      · exact accounted.order
      · exact accounted.shares.trans (idle.symm.append_right _)
      · exact accounted.tickets
      · intro returned
        rcases List.mem_or_eq_of_mem_set returned with old | new
        · exact accounted.drained old
        · cases new
  · rename_i job rest entering queue
    cases stepped
    rcases running_set entering (.running job) with ⟨others, before, after⟩
    constructor
    · simp [accounted.order, queue]
    · -- the job leaves the queue and joins what is being run
      have joined :
          (pool.taken ++ [job]).Perm ([job] ++ others ++ pool.finished) := by
        have swapped :
            (others ++ pool.finished ++ [job]).Perm
              ([job] ++ (others ++ pool.finished)) :=
          List.perm_append_comm
        have shares := accounted.shares.trans (before.append_right _)
        exact (shares.append_right [job]).trans swapped
      exact joined.trans (after.symm.append_right _)
    · exact accounted.tickets
    · intro returned
      rcases List.mem_or_eq_of_mem_set returned with old | new
      · have empty := (accounted.drained old).2
        rw [queue] at empty
        cases empty
      · cases new
  · cases stepped

theorem Accounted.wake
    (accounted : Accounted pool) {worker : Nat}
    (stepped : wake pool worker = some next) :
    Accounted next := by
  unfold ThreadPool.wake at stepped
  split at stepped
  · rename_i waiting
    cases stepped
    have idle := running_set_idle .entering waiting rfl rfl
    constructor
    · exact accounted.order
    · exact accounted.shares.trans (idle.symm.append_right _)
    · exact accounted.tickets
    · intro returned
      rcases List.mem_or_eq_of_mem_set returned with old | new
      · exact accounted.drained old
      · cases new
  · cases stepped

theorem Accounted.finish
    (accounted : Accounted pool) {worker : Nat}
    (stepped : finish pool worker = some next) :
    Accounted next := by
  unfold ThreadPool.finish at stepped
  split at stepped
  · rename_i job ran
    cases stepped
    rcases running_set ran .entering with ⟨others, before, after⟩
    constructor
    · exact accounted.order
    · -- the job leaves what is being run and joins what has been finished
      have left :
          pool.taken.Perm (others ++ (pool.finished ++ [job])) := by
        have swapped :
            ([job] ++ (others ++ pool.finished)).Perm
              (others ++ pool.finished ++ [job]) :=
          List.perm_append_comm
        rw [← List.append_assoc]
        exact
          (accounted.shares.trans (before.append_right _)).trans swapped
      exact left.trans (after.symm.append_right _)
    · exact accounted.tickets
    · intro returned
      rcases List.mem_or_eq_of_mem_set returned with old | new
      · exact accounted.drained old
      · cases new
  · cases stepped

theorem Accounted.destroy
    (accounted : Accounted pool) (stepped : destroy pool = some next) :
    Accounted next := by
  unfold ThreadPool.destroy at stepped
  split at stepped
  · cases stepped
  · cases stepped
    exact
      ⟨accounted.order, accounted.shares, accounted.tickets,
        fun returned => ⟨rfl, (accounted.drained returned).2⟩⟩

/-- The step lemma. -/
theorem Accounted.step
    (accounted : Accounted pool) {label : Label Task}
    (stepped : step pool label = some next) :
    Accounted next := by
  cases label with
  | enqueue task => exact accounted.enqueue stepped
  | enter worker => exact accounted.enter stepped
  | wake worker => exact accounted.wake stepped
  | finish worker => exact accounted.finish stepped
  | destroy => exact accounted.destroy stepped

/-- No step changes the number of workers. -/
theorem length_threads_step {label : Label Task}
    (stepped : ThreadPool.step pool label = some next) :
    next.threads.length = pool.threads.length := by
  cases label with
  | enqueue task =>
      simp only [ThreadPool.step, ThreadPool.enqueue] at stepped
      split at stepped <;> cases stepped
      rfl
  | enter worker =>
      simp only [ThreadPool.step, ThreadPool.enter] at stepped
      repeat' split at stepped
      all_goals cases stepped
      all_goals simp
  | wake worker =>
      simp only [ThreadPool.step, ThreadPool.wake] at stepped
      split at stepped <;> cases stepped
      simp
  | finish worker =>
      simp only [ThreadPool.step, ThreadPool.finish] at stepped
      split at stepped <;> cases stepped
      simp
  | destroy =>
      simp only [ThreadPool.step, ThreadPool.destroy] at stepped
      split at stepped <;> cases stepped
      rfl

end Steps

/-! ## Runs -/

/-- The run lemma. -/
theorem accounted_run
    {thread_count : Nat} {labels : List (Label Task)} {final : Pool Task}
    (ran : Transition.run step (.start thread_count) labels = some final) :
    Accounted final ∧ final.threads.length = thread_count := by
  refine
    Transition.run_invariant
      (fun pool => Accounted pool ∧ pool.threads.length = thread_count)
      ?_ ⟨accounted_start thread_count, by simp [Pool.start]⟩ ran
  rintro pool label next ⟨accounted, workers⟩ stepped
  exact ⟨accounted.step stepped, (length_threads_step stepped).trans workers⟩

/-- The records of a run are what its steps have brought, taken and finished. -/
theorem records_run
    {thread_count : Nat} {labels : List (Label Task)} {final : Pool Task}
    (ran : Transition.run step (.start thread_count) labels = some final) :
    final.enqueued.map Job.task = labels.flatMap brings ∧
      final.taken = observed step takes (.start thread_count) labels ∧
        final.finished =
          observed step finishes (.start thread_count) labels := by
  refine ⟨?_, ?_, ?_⟩
  · rw [← observed_of_labels ran]
    exact
      run_observed (fun pool => pool.enqueued.map Job.task)
        (fun _ _ _ stepped => (records_step stepped).1) ran
  · exact
      run_observed Pool.taken
        (fun _ _ _ stepped => (records_step stepped).2.1) ran
  · exact
      run_observed Pool.finished
        (fun _ _ _ stepped => (records_step stepped).2.2) ran

/--
At every moment the enqueued jobs, which are the tasks of the `enqueue` calls
of the run, are the disjoint union of those queued, being run and finished;
jobs are taken off the queue in the order they were enqueued, and none twice;
and when all workers have returned, every job has been run.
-/
theorem no_job_lost_or_repeated
    {thread_count : Nat} (workers : 1 ≤ thread_count)
    {labels : List (Label Task)} {final : Pool Task}
    (ran : Transition.run step (.start thread_count) labels = some final) :
    (final.enqueued.map Job.task = labels.flatMap brings ∧
      final.taken = observed step takes (.start thread_count) labels ∧
        final.finished =
          observed step finishes (.start thread_count) labels) ∧
      final.enqueued.Perm (final.tasks ++ final.running ++ final.finished) ∧
        (final.tasks ++ final.running ++ final.finished).Nodup ∧
          final.taken <+: final.enqueued ∧
            final.taken.Nodup ∧
              (final.AllReturned →
                final.enqueued.Perm final.finished) := by
  rcases accounted_run ran with ⟨accounted, count⟩
  have order := accounted.order
  have union :
      final.enqueued.Perm (final.tasks ++ final.running ++ final.finished) := by
    rw [order, List.append_assoc]
    exact List.perm_append_comm.trans (accounted.shares.append_left _)
  have distinct : final.enqueued.Nodup := by
    apply List.Nodup.of_map Job.ticket
    rw [accounted.tickets]
    exact List.nodup_range
  refine
    ⟨records_run ran, union, union.nodup_iff.mp distinct, ?_, ?_, ?_⟩
  · rw [order]
    exact List.prefix_append _ _
  · rw [order] at distinct
    exact distinct.of_append_left
  · intro allReturned
    have someone : .returned ∈ final.threads := by
      cases threads : final.threads with
      | nil =>
          rw [threads] at count
          simp only [List.length_nil] at count
          omega
      | cons worker others =>
          have gone := allReturned worker (by simp [threads])
          simp [gone]
    have nobody : final.running = [] := by
      rw [Pool.running, List.filterMap_eq_nil_iff]
      intro worker member
      rw [allReturned worker member]
      rfl
    have empty := (accounted.drained someone).2
    rw [empty, nobody] at union
    simpa using union

/--
Two workers and three tasks; one worker waits, and the destructor starts while
both are running.
-/
def threeTasks : List (Label Nat) :=
  [.enter 1, .enqueue 7, .enqueue 8, .enter 0, .wake 1, .enter 1,
    .enqueue 9, .destroy, .finish 1, .enter 1, .finish 0, .enter 0,
    .finish 1, .enter 1]

theorem no_job_lost_or_repeated_threeTasks :
    ∃ final : Pool Nat,
      Transition.run step (.start 2) threeTasks = some final ∧
        final.AllReturned ∧
          final.enqueued.map Job.task = [7, 8, 9] ∧
            final.enqueued.Perm final.finished := by
  have completes :
      (Transition.run step (.start 2) threeTasks).map Pool.threads =
        some [.returned, .returned] :=
    rfl
  rcases Option.map_eq_some_iff.mp completes with ⟨final, ran, threads⟩
  have allReturned : final.AllReturned := by
    rw [Pool.AllReturned, threads]
    simp
  rcases no_job_lost_or_repeated (by decide) ran with
    ⟨records, _, _, _, _, drained⟩
  exact ⟨final, ran, allReturned, records.1, drained allReturned⟩

end DZFile.ThreadPool
