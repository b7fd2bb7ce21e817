import UringServer.Storage.PgAccounts
import UringServer.Storage.PgProgress
import UringServer.Storage.PgRecords

/-!
# Every submission is answered once

With the logs of the pool and the accounts of its jobs, every callback is delivered
once and every job from the queue is executed by one worker. Since no wake-up is lost
and the pool takes only finitely many steps by itself, it gets there.
-/

namespace UringServer.Storage.PgWorkerPool

open UringServer.Semantics UringServer.Ring

variable {count : Nat} {Query Rows : Type} {pool : PgWorkerPool count Query Rows}

/-- The callback of the same call of `Submit`. -/
def isCallbackOf (job other : PgJob Query) : Bool := other.id == job.id && other.hasCallback

/-- How often the callback of a job was posted with its result or run with an empty one. -/
def deliveries (pool : PgWorkerPool count Query Rows) (job : PgJob Query) : Nat :=
  pool.posted.countP (fun entry => isCallbackOf job entry.2.1) +
    pool.rejected.countP (isCallbackOf job)

/-- How often the callback of a job is in the queue or with a worker. -/
def underway (pool : PgWorkerPool count Query Rows) (job : PgJob Query) : Nat :=
  pool.jobs.queue.countP (isCallbackOf job) +
    tally (WorkerState.executes (isCallbackOf job)) pool.workers +
    tally (WorkerState.answers (isCallbackOf job)) pool.workers

/-- How often a job is in the queue or with a worker that executes it. -/
def unexecuted (pool : PgWorkerPool count Query Rows) (job : PgJob Query) : Nat :=
  pool.jobs.queue.countP (·.id == job.id) +
    tally (WorkerState.executes (·.id == job.id)) pool.workers

/-- The workers that executed a job. -/
def executors (pool : PgWorkerPool count Query Rows) (job : PgJob Query) : List (Fin count) :=
  (pool.executed.filter (·.2.1.id == job.id)).map (·.1)

theorem Records.countP_id_le_one (records : pool.Records) (id : Nat) :
    pool.submitted.countP (·.id == id) ≤ 1 := by
  have counted : pool.submitted.countP (·.id == id) = (pool.submitted.map (·.id)).count id := by
    rw [List.count, List.countP_map]
    rfl
  rw [counted, records.numbered]
  exact List.nodup_iff_count_le_one.mp List.nodup_range id

/-- A job that was submitted with a callback is counted once. -/
theorem Records.countP_isCallbackOf (records : pool.Records) {job : PgJob Query}
    (member : job ∈ pool.submitted) (hasCallback : job.hasCallback = true) :
    pool.submitted.countP (isCallbackOf job) = 1 := by
  have once := records.countP_id_le_one job.id
  have fewer : pool.submitted.countP (isCallbackOf job) ≤ pool.submitted.countP (·.id == job.id) :=
    List.countP_mono_left fun other _ same => (Bool.and_eq_true_iff.mp same).1
  have positive : 0 < pool.submitted.countP (isCallbackOf job) :=
    List.countP_pos_iff.mpr ⟨job, member, by simp [isCallbackOf, hasCallback]⟩
  omega

theorem Records.countP_pushed (records : pool.Records) {job : PgJob Query}
    (member : job ∈ pool.jobs.pushed) : pool.jobs.pushed.countP (·.id == job.id) = 1 := by
  have once := records.countP_id_le_one job.id
  have fewer := records.inOrder.countP_le (p := (·.id == job.id))
  have positive : 0 < pool.jobs.pushed.countP (·.id == job.id) :=
    List.countP_pos_iff.mpr ⟨job, member, beq_self_eq_true job.id⟩
  omega

theorem Accounts.countP_pushed {counts : PgJob Query → Bool} (accounts : pool.Accounts counts) :
    pool.jobs.pushed.countP counts =
      pool.jobs.popped.countP counts + pool.jobs.queue.countP counts := by
  have inOrder := accounts.inOrder
  unfold Fifo.Accounted at inOrder
  rw [inOrder, List.countP_append]

/-- Every job that was executed came with a ring. -/
theorem Records.executed_withRing (records : pool.Records)
    (accounts : pool.Accounts fun job => !job.replyRing.isSome) :
    ∀ entry ∈ pool.executed, entry.2.1.replyRing.isSome = true := by
  have pushed : pool.jobs.pushed.countP (fun job => !job.replyRing.isSome) = 0 :=
    List.countP_eq_zero.mpr fun job member => by simp [records.withRing job member]
  have taken := accounts.taken
  have whole := accounts.countP_pushed
  have none : pool.executed.countP (fun entry => !entry.2.1.replyRing.isSome) = 0 := by omega
  intro entry member
  refine Option.isSome_iff_ne_none.mpr fun absent => List.countP_eq_zero.mp none entry member ?_
  rw [absent]
  rfl

/-- Where the callback of a job is. -/
theorem underway_add_deliveries (records : pool.Records)
    (accounts : ∀ counts, pool.Accounts counts) {job : PgJob Query}
    (member : job ∈ pool.submitted) (hasCallback : job.hasCallback = true) :
    pool.underway job + pool.deliveries job = 1 := by
  have once := records.countP_isCallbackOf member hasCallback
  have submitted := (accounts (isCallbackOf job)).submitted
  have pushed := (accounts (isCallbackOf job)).countP_pushed
  have taken := (accounts (isCallbackOf job)).taken
  have answered := (accounts (isCallbackOf job)).answered
  have all : pool.executed.countP
      (fun entry => isCallbackOf job entry.2.1 && entry.2.1.isAnswered) =
        pool.executed.countP (fun entry => isCallbackOf job entry.2.1) := by
    refine List.countP_congr fun entry executed => ?_
    have ring := records.executed_withRing (accounts _) entry executed
    simp [isCallbackOf, PgJob.isAnswered, ring]
  unfold underway deliveries
  omega

/-- What the pool owes to its callers. -/
structure AnswersOnce (pool : PgWorkerPool count Query Rows) : Prop where
  /-- Jobs are taken in the order in which they were submitted. -/
  inOrder : pool.jobs.popped <+: pool.jobs.pushed ∧ pool.jobs.pushed.Sublist pool.submitted
  /-- A job from the queue is executed by one worker. -/
  executedOnce : ∀ job ∈ pool.jobs.pushed, pool.unexecuted job + (pool.executors job).length = 1
  /-- A callback is delivered once, and until then it is underway. -/
  deliveredOnce : ∀ job ∈ pool.submitted, job.hasCallback = true →
    pool.underway job + pool.deliveries job = 1
  /-- A result is posted to the ring of its job after the execution that gave it. -/
  postedAfter : ∀ reply job result, (reply, job, result) ∈ pool.posted →
    job.replyRing = some reply ∧ ∃ worker, (worker, job, result) ∈ pool.executed
  /-- Only a call without a ring or to a pool that stops is rejected. -/
  rejectedLate : ∀ job ∈ pool.rejected, job.replyRing = none ∨ pool.stopping = true
  /-- When `Stop` has returned, nothing is left. -/
  stopped : pool.stop = .returned →
    pool.jobs.queue = [] ∧ ∀ worker, pool.workers worker = .left

/-- All that was submitted is executed and delivered. -/
structure AllAnswered (pool : PgWorkerPool count Query Rows) : Prop where
  executed : ∀ job ∈ pool.jobs.pushed, (pool.executors job).length = 1
  delivered : ∀ job ∈ pool.submitted, job.hasCallback = true → pool.deliveries job = 1

theorem answersOnce_of (records : pool.Records) (accounts : ∀ counts, pool.Accounts counts)
    (wakeups : pool.Wakeups) (inOrder : pool.jobs.popped <+: pool.jobs.pushed) :
    pool.AnswersOnce where
  inOrder := ⟨inOrder, records.inOrder⟩
  executedOnce job member := by
    have once := records.countP_pushed member
    have pushed := (accounts (·.id == job.id)).countP_pushed
    have taken := (accounts (·.id == job.id)).taken
    unfold unexecuted executors
    rw [List.length_map, ← List.countP_eq_length_filter]
    omega
  deliveredOnce job member hasCallback :=
    underway_add_deliveries records accounts member hasCallback
  postedAfter := records.posted
  rejectedLate job member := (records.late job member).imp_right decide_eq_true
  stopped returned := by
    have left := wakeups.returned returned
    exact ⟨(wakeups.leaves ⟨0, wakeups.positive⟩ (left _)).2, left⟩

/-- Without jobs in the queue and with the workers, all is answered. -/
theorem AnswersOnce.allAnswered (answers : pool.AnswersOnce) (empty : pool.jobs.queue = [])
    (idle : ∀ worker, pool.workers worker = .waiting ∨ pool.workers worker = .left) :
    pool.AllAnswered := by
  have executing : ∀ counts, tally (WorkerState.executes counts) pool.workers = 0 := by
    intro counts
    refine tally_eq_zero fun worker => ?_
    rcases idle worker with waiting | left
    · rw [waiting]
      rfl
    · rw [left]
      rfl
  have answering : ∀ counts, tally (WorkerState.answers counts) pool.workers = 0 := by
    intro counts
    refine tally_eq_zero fun worker => ?_
    rcases idle worker with waiting | left
    · rw [waiting]
      rfl
    · rw [left]
      rfl
  constructor
  · intro job member
    have once := answers.executedOnce job member
    unfold unexecuted at once
    rw [empty, executing, List.countP_nil] at once
    omega
  · intro job member hasCallback
    have once := answers.deliveredOnce job member hasCallback
    unfold underway at once
    rw [empty, executing, answering, List.countP_nil] at once
    omega

/-- In every state the pool owes nothing but what is underway; all is answered when `Stop` has
returned and whenever the pool can take no step by itself, when a `Stop` that was called has
returned too; and every step of its own lowers what remains. -/
theorem answers_of_reachable
    (reachable : (poolSystem count Query Rows).Reachable everyStep pool) :
    pool.AnswersOnce ∧
    (pool.stop = .returned → pool.AllAnswered) ∧
    ((∀ action, ownStep action = true → (poolSystem count Query Rows).step pool action = none) →
      pool.AllAnswered ∧ (pool.stopping = true → pool.stop = .returned)) ∧
    ∀ action next, ownStep action = true →
      (poolSystem count Query Rows).step pool action = some next →
        next.remaining < pool.remaining := by
  have wakeups := wakeups_of_reachable reachable
  have answers := answersOnce_of (records_of_reachable reachable) (accounts_of_reachable reachable)
    wakeups (taken_inOrder reachable)
  refine ⟨answers, fun returned => ?_, fun stuck => ?_, fun action next own transition => ?_⟩
  · obtain ⟨empty, left⟩ := answers.stopped returned
    exact answers.allAnswered empty fun worker => .inr (left worker)
  · have settled := wakeups.settled stuck
    refine ⟨answers.allAnswered settled.empty settled.idle, fun stopping => ?_⟩
    exact settled.stopped.resolve_left (of_decide_eq_true stopping)
  · have step := step_of_transition transition
    rw [own] at step
    exact step.remaining_lt

end UringServer.Storage.PgWorkerPool
