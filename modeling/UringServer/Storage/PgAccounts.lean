import UringServer.Storage.PgStep

/-!
# Where the jobs of the pool are

Jobs are counted by any condition on them. A job that was submitted was rejected or
put into the queue; one from the queue was taken in order and is with the worker that
executes it or has been executed; and one that was executed and has a callback is
with the worker that answers it or its answer is posted.
-/

namespace UringServer.Storage

open UringServer.Semantics UringServer.Ring

variable {count : Nat} {Query Rows : Type}

/-- The job that a worker executes, counted. -/
def WorkerState.executes (counts : PgJob Query → Bool) : WorkerState Query Rows → Nat
  | .executing job => if counts job = true then 1 else 0
  | _ => 0

/-- The job that a worker answers, counted. -/
def WorkerState.answers (counts : PgJob Query → Bool) : WorkerState Query Rows → Nat
  | .answering job _ _ => if counts job = true then 1 else 0
  | _ => 0

namespace PgWorkerPool

variable {pool next : PgWorkerPool count Query Rows} {counts : PgJob Query → Bool}

/-- Where the counted jobs are. -/
structure Accounts (pool : PgWorkerPool count Query Rows) (counts : PgJob Query → Bool) : Prop where
  submitted : pool.submitted.countP counts =
    pool.jobs.pushed.countP counts + pool.rejected.countP counts
  inOrder : pool.jobs.Accounted
  taken : pool.jobs.popped.countP counts =
    tally (WorkerState.executes counts) pool.workers +
      pool.executed.countP (fun entry => counts entry.2.1)
  answered : pool.executed.countP (fun entry => counts entry.2.1 && entry.2.1.isAnswered) =
    tally (WorkerState.answers counts) pool.workers +
      pool.posted.countP (fun entry => counts entry.2.1)

variable {worker : Fin count}

/-- A worker gets into a state in which it has the same job, or none as before. -/
theorem Accounts.setWorker (accounts : pool.Accounts counts) {control : WorkerState Query Rows}
    (executes : control.executes counts = (pool.workers worker).executes counts)
    (answers : control.answers counts = (pool.workers worker).answers counts) :
    (pool.setWorker worker control).Accounts counts := by
  have executing := tally_update (WorkerState.executes counts) pool.workers worker control
  have answering := tally_update (WorkerState.answers counts) pool.workers worker control
  have taken := accounts.taken
  have answered := accounts.answered
  refine ⟨accounts.submitted, accounts.inOrder, ?_, ?_⟩
  · dsimp only [PgWorkerPool.setWorker]
    omega
  · dsimp only [PgWorkerPool.setWorker]
    omega

theorem Accounts.submits (accounts : pool.Accounts counts) (job : PgJob Query) :
    (pool.reject job).Accounts counts ∧ (pool.enqueue job).Accounts counts := by
  have submitted := accounts.submitted
  have inOrder := accounts.inOrder
  refine ⟨⟨?_, accounts.inOrder, accounts.taken, accounts.answered⟩,
    ⟨?_, ?_, accounts.taken, accounts.answered⟩⟩
  · simp only [PgWorkerPool.reject, List.countP_append]
    omega
  · simp only [PgWorkerPool.enqueue, List.countP_append]
    omega
  · unfold Fifo.Accounted at inOrder ⊢
    simp only [PgWorkerPool.enqueue, inOrder, List.append_assoc]

theorem Accounts.take (accounts : pool.Accounts counts) {job : PgJob Query}
    {rest : List (PgJob Query)} (checks : pool.workers worker = .checking)
    (queue : pool.jobs.queue = job :: rest) : (pool.take worker job rest).Accounts counts := by
  have executing := tally_update (WorkerState.executes counts) pool.workers worker (.executing job)
  have answering := tally_update (WorkerState.answers counts) pool.workers worker (.executing job)
  have inOrder := accounts.inOrder
  have taken := accounts.taken
  have answered := accounts.answered
  rw [checks] at executing answering
  refine ⟨accounts.submitted, ?_, ?_, ?_⟩
  · unfold Fifo.Accounted at inOrder ⊢
    dsimp only [PgWorkerPool.take, PgWorkerPool.setWorker]
    rw [inOrder, queue, List.append_assoc, List.singleton_append]
  · dsimp only [PgWorkerPool.take, PgWorkerPool.setWorker, WorkerState.executes] at executing ⊢
    rw [List.countP_append, List.countP_singleton]
    omega
  · dsimp only [PgWorkerPool.take, PgWorkerPool.setWorker, WorkerState.answers] at answering ⊢
    omega

/-- A job that was executed is with its worker if it is to be answered. -/
theorem Accounts.record (accounts : pool.Accounts counts) {job : PgJob Query}
    {result : PgResult Rows} {control : WorkerState Query Rows}
    (executes : pool.workers worker = .executing job) (done : control.executes counts = 0)
    (answers : control.answers counts = if (counts job && job.isAnswered) = true then 1 else 0) :
    (pool.record worker job result control).Accounts counts := by
  have executing := tally_update (WorkerState.executes counts) pool.workers worker control
  have answering := tally_update (WorkerState.answers counts) pool.workers worker control
  have taken := accounts.taken
  have answered := accounts.answered
  rw [executes, done] at executing
  rw [executes, answers] at answering
  refine ⟨accounts.submitted, accounts.inOrder, ?_, ?_⟩
  · dsimp only [PgWorkerPool.record, PgWorkerPool.setWorker, WorkerState.executes] at executing ⊢
    rw [List.countP_append, List.countP_singleton]
    dsimp only
    omega
  · dsimp only [PgWorkerPool.record, PgWorkerPool.setWorker, WorkerState.answers] at answering ⊢
    rw [List.countP_append, List.countP_singleton]
    dsimp only
    omega

theorem Accounts.reply (accounts : pool.Accounts counts) {job : PgJob Query}
    {ring : RingId} {result : PgResult Rows}
    (answers : pool.workers worker = .answering job ring result) :
    (pool.reply worker ring job result).Accounts counts := by
  have executing := tally_update (WorkerState.executes counts) pool.workers worker .checking
  have answering := tally_update (WorkerState.answers counts) pool.workers worker .checking
  have taken := accounts.taken
  have answered := accounts.answered
  rw [answers] at executing answering
  refine ⟨accounts.submitted, accounts.inOrder, ?_, ?_⟩
  · dsimp only [PgWorkerPool.reply, PgWorkerPool.setWorker, WorkerState.executes] at executing ⊢
    omega
  · dsimp only [PgWorkerPool.reply, PgWorkerPool.setWorker, WorkerState.answers] at answering ⊢
    rw [List.countP_append, List.countP_singleton]
    dsimp only
    omega

theorem Accounts.wakeAll (accounts : pool.Accounts counts) : pool.wakeAll.Accounts counts := by
  have executes : ∀ worker : WorkerState Query Rows,
      worker.notified.executes counts = worker.executes counts := by
    intro worker
    cases worker <;> rfl
  have answers : ∀ worker : WorkerState Query Rows,
      worker.notified.answers counts = worker.answers counts := by
    intro worker
    cases worker <;> rfl
  refine ⟨accounts.submitted, accounts.inOrder, ?_, ?_⟩
  · simp only [PgWorkerPool.wakeAll, tally, executes]
    exact accounts.taken
  · simp only [PgWorkerPool.wakeAll, tally, answers]
    exact accounts.answered

theorem Accounts.setStop (accounts : pool.Accounts counts) (stop : StopPhase) :
    (pool.setStop stop).Accounts counts :=
  ⟨accounts.submitted, accounts.inOrder, accounts.taken, accounts.answered⟩

theorem Accounts.useNotify (accounts : pool.Accounts counts) : pool.useNotify.Accounts counts :=
  ⟨accounts.submitted, accounts.inOrder, accounts.taken, accounts.answered⟩

/-- Every step keeps the accounts. -/
theorem Accounts.step (accounts : pool.Accounts counts) {own : Bool} (step : pool.Step own next) :
    next.Accounts counts := by
  cases step with
  | reject job => exact (accounts.submits job).1
  | enqueue job => exact (accounts.submits job).2
  | notify worker _ waits =>
    exact (accounts.setWorker (by rw [waits]; rfl) (by rw [waits]; rfl)).useNotify
  | notifyNone => exact accounts.useNotify
  | leave worker checks
  | wait worker checks => exact accounts.setWorker (by rw [checks]; rfl) (by rw [checks]; rfl)
  | take worker job rest checks queue => exact accounts.take checks queue
  | finish worker job ring result executes hasCallback replyRing =>
    have isAnswered : job.isAnswered = true := by
      rw [PgJob.isAnswered, hasCallback, replyRing]
      rfl
    exact accounts.record executes rfl (by rw [isAnswered, Bool.and_true]; rfl)
  | finishSilent worker job result executes silent =>
    exact accounts.record executes rfl (by rw [silent, Bool.and_false]; rfl)
  | reply worker job ring result answers => exact accounts.reply answers
  | wake worker waits => exact accounts.setWorker (by rw [waits]; rfl) (by rw [waits]; rfl)
  | notifyAll => exact accounts.wakeAll.setStop _
  | beginStop | joinNext | joinDone => exact accounts.setStop _

theorem accounts_of_reachable
    (reachable : (poolSystem count Query Rows).Reachable everyStep pool)
    (counts : PgJob Query → Bool) : pool.Accounts counts := by
  refine invariant_of_step (Accounts · counts) (fun _ => ?_)
    (fun accounts step => accounts.step step) reachable
  have executing : tally (WorkerState.executes counts)
      (fun _ : Fin count => (.checking : WorkerState Query Rows)) = 0 := tally_eq_zero fun _ => rfl
  have answering : tally (WorkerState.answers counts)
      (fun _ : Fin count => (.checking : WorkerState Query Rows)) = 0 := tally_eq_zero fun _ => rfl
  exact ⟨rfl, rfl, executing.symm, answering.symm⟩

/-- Every step pushes one job, pops one or leaves the queue as it is. -/
theorem Step.grows {own : Bool} (step : pool.Step own next) : pool.jobs.Grows next.jobs := by
  cases step with
  | enqueue job => exact .push job rfl rfl
  | take worker job => exact .pop job rfl rfl
  | reject | notify | notifyNone | leave | wait | finish | finishSilent | reply | wake | beginStop
  | notifyAll | joinNext | joinDone => exact .quiet rfl rfl

/-- The queue of the pool refines a first in, first out queue. -/
theorem poolSystem_refines_fifo :
    (poolSystem count Query Rows).Refines everyStep (Fifo.system (PgJob Query))
      (fun pool fifo => pool.Accounts (fun _ => true) ∧ fifo = pool.jobs) := by
  apply Fifo.refines
  · intro pool started
    refine ⟨accounts_of_reachable (.initial started) _, ?_⟩
    obtain ⟨connects, started⟩ := started
    obtain ⟨-, rfl⟩ := start_eq_some started
    rfl
  · exact fun _ accounts => accounts.inOrder
  · intro pool action next accounts _ transition
    have step := step_of_transition transition
    exact ⟨accounts.step step, step.grows⟩

theorem taken_inOrder (reachable : (poolSystem count Query Rows).Reachable everyStep pool) :
    pool.jobs.popped <+: pool.jobs.pushed := by
  obtain ⟨_, fifo, -, rfl⟩ := poolSystem_refines_fifo.exists_represented reachable
  exact Fifo.popped_prefix fifo

end PgWorkerPool

end UringServer.Storage
