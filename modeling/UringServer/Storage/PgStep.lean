import UringServer.Storage.PgWorkerPool

/-!
# What a step of the pool does

The steps of the pool, each with what holds before it and the state that it leaves.
Every invariant is derived from this list.
-/

namespace UringServer.Storage

open UringServer.Semantics UringServer.Ring

variable {count : Nat} {Query Rows : Type}

/-- A job for which the result is posted. -/
def PgJob.isAnswered (job : PgJob Query) : Bool := job.hasCallback && job.replyRing.isSome

variable {worker : WorkerState Query Rows}

theorem WorkerState.eq_waiting (waits : worker.isWaiting = true) :
    worker = .waiting := by
  cases worker with
  | waiting => rfl
  | checking | executing | answering | left => cases waits

theorem WorkerState.ne_waiting (waits : worker.isWaiting = false) : worker ≠ .waiting := by
  intro same
  rw [same] at waits
  cases waits

theorem WorkerState.eq_left (gone : worker.hasLeft = true) :
    worker = .left := by
  cases worker with
  | left => rfl
  | checking | executing | answering | waiting => cases gone

namespace PgWorkerPool

/-- The callback of a job is run with an empty result. -/
def reject (pool : PgWorkerPool count Query Rows) (job : PgJob Query) :
    PgWorkerPool count Query Rows :=
  { pool with submitted := pool.submitted ++ [job], rejected := pool.rejected ++ [job] }

/-- A job is put into the queue. -/
def enqueue (pool : PgWorkerPool count Query Rows) (job : PgJob Query) :
    PgWorkerPool count Query Rows :=
  { pool with
    submitted := pool.submitted ++ [job]
    jobs := { pool.jobs with
      pushed := pool.jobs.pushed ++ [job]
      queue := pool.jobs.queue ++ [job] }
    notifies := pool.notifies + 1 }

/-- A worker takes a job out of the queue. -/
def take (pool : PgWorkerPool count Query Rows) (worker : Fin count) (job : PgJob Query)
    (rest : List (PgJob Query)) : PgWorkerPool count Query Rows :=
  { pool.setWorker worker (.executing job) with
    jobs := { pool.jobs with queue := rest, popped := pool.jobs.popped ++ [job] } }

/-- A worker has executed a job. -/
def record (pool : PgWorkerPool count Query Rows) (worker : Fin count) (job : PgJob Query)
    (result : PgResult Rows) (control : WorkerState Query Rows) : PgWorkerPool count Query Rows :=
  { pool.setWorker worker control with
    executed := pool.executed ++ [(worker, job, result)] }

/-- A worker posts a result. -/
def reply (pool : PgWorkerPool count Query Rows) (worker : Fin count) (ring : RingId)
    (job : PgJob Query) (result : PgResult Rows) : PgWorkerPool count Query Rows :=
  { pool.setWorker worker .checking with posted := pool.posted ++ [(ring, job, result)] }

/-- A notification is used up. -/
def useNotify (pool : PgWorkerPool count Query Rows) : PgWorkerPool count Query Rows :=
  { pool with notifies := pool.notifies - 1 }

def setStop (pool : PgWorkerPool count Query Rows) (stop : StopPhase) :
    PgWorkerPool count Query Rows :=
  { pool with stop := stop }

/-- The workers that wait are woken up. -/
def wakeAll (pool : PgWorkerPool count Query Rows) : PgWorkerPool count Query Rows :=
  { pool with workers := fun worker => (pool.workers worker).notified }

/-- The steps that the pool takes by itself, without a further call and without a wake-up that
nothing caused. -/
def ownStep : PoolAction count Query Rows → Bool
  | .submit .. | .wake .. | .beginStop => false
  | .notifyOne .. | .check .. | .finish .. | .answer .. | .notifyAll | .join => true

/-- What a step does, and whether it is one of the pool itself. -/
inductive Step (pool : PgWorkerPool count Query Rows) : Bool → PgWorkerPool count Query Rows → Prop
    where
  | reject (job : PgJob Query) (number : job.id = pool.submitted.length)
      (refused : job.replyRing = none ∨ pool.stop ≠ .idle) : Step pool false (pool.reject job)
  | enqueue (job : PgJob Query) (number : job.id = pool.submitted.length)
      (ring : job.replyRing.isSome = true) (idle : pool.stop = .idle) :
      Step pool false (pool.enqueue job)
  | notify (worker : Fin count) (pending : pool.notifies ≠ 0)
      (waits : pool.workers worker = .waiting) :
      Step pool true (pool.setWorker worker .checking).useNotify
  | notifyNone (pending : pool.notifies ≠ 0) (none : ∀ worker, pool.workers worker ≠ .waiting) :
      Step pool true pool.useNotify
  | leave (worker : Fin count) (checks : pool.workers worker = .checking)
      (empty : pool.jobs.queue = []) (stops : pool.stop ≠ .idle) :
      Step pool true (pool.setWorker worker .left)
  | wait (worker : Fin count) (checks : pool.workers worker = .checking)
      (empty : pool.jobs.queue = []) (idle : pool.stop = .idle) :
      Step pool true (pool.setWorker worker .waiting)
  | take (worker : Fin count) (job : PgJob Query) (rest : List (PgJob Query))
      (checks : pool.workers worker = .checking) (queue : pool.jobs.queue = job :: rest) :
      Step pool true (pool.take worker job rest)
  | finish (worker : Fin count) (job : PgJob Query) (ring : RingId) (result : PgResult Rows)
      (executes : pool.workers worker = .executing job) (hasCallback : job.hasCallback = true)
      (replyRing : job.replyRing = some ring) :
      Step pool true (pool.record worker job result (.answering job ring result))
  | finishSilent (worker : Fin count) (job : PgJob Query) (result : PgResult Rows)
      (executes : pool.workers worker = .executing job) (silent : job.isAnswered = false) :
      Step pool true (pool.record worker job result .checking)
  | reply (worker : Fin count) (job : PgJob Query) (ring : RingId) (result : PgResult Rows)
      (answers : pool.workers worker = .answering job ring result) :
      Step pool true (pool.reply worker ring job result)
  | wake (worker : Fin count) (waits : pool.workers worker = .waiting) :
      Step pool false (pool.setWorker worker .checking)
  | beginStop (idle : pool.stop = .idle) : Step pool false (pool.setStop .notifying)
  | notifyAll (notifying : pool.stop = .notifying) :
      Step pool true (pool.wakeAll.setStop (.joining 0))
  | joinNext (reached : Nat) (joining : pool.stop = .joining reached) (inside : reached < count)
      (gone : pool.workers ⟨reached, inside⟩ = .left) :
      Step pool true (pool.setStop (.joining (reached + 1)))
  | joinDone (reached : Nat) (joining : pool.stop = .joining reached) (outside : count ≤ reached) :
      Step pool true (pool.setStop .returned)

variable {pool next : PgWorkerPool count Query Rows}

theorem submit_step (query : Query) (hasCallback : Bool) (reply : Option RingId) :
    pool.Step false (pool.submit query hasCallback reply) := by
  unfold PgWorkerPool.submit
  dsimp only
  split
  · rename_i refused
    exact .reject _ rfl (refused.imp_right of_decide_eq_true)
  · rename_i accepted
    refine .enqueue _ rfl ?_ ?_
    · exact Option.isSome_iff_ne_none.mpr fun none => accepted (.inl none)
    · by_contra begun
      exact accepted (.inr (decide_eq_true begun))

theorem notifyOne_step {woken : Option (Fin count)} (notified : pool.notifyOne woken = some next) :
    pool.Step true next := by
  unfold PgWorkerPool.notifyOne at notified
  split at notified
  · cases notified
  rename_i pending
  cases woken with
  | some worker =>
    dsimp only at notified
    split at notified
    · rename_i waits
      cases notified
      exact .notify worker pending (WorkerState.eq_waiting waits)
    · cases notified
  | none =>
    dsimp only at notified
    split at notified
    · rename_i none
      cases notified
      exact .notifyNone pending fun worker => WorkerState.ne_waiting (none worker)
    · cases notified

variable {worker : Fin count}

theorem check_step (checked : pool.check worker = some next) :
    pool.Step true next := by
  unfold PgWorkerPool.check at checked
  split at checked
  case h_2 => cases checked
  rename_i checks
  split at checked
  · rename_i empty
    cases checked
    split
    · rename_i stopped
      exact .leave worker checks empty (of_decide_eq_true stopped)
    · rename_i running
      refine .wait worker checks empty ?_
      by_contra begun
      exact running (decide_eq_true begun)
  · rename_i job rest queue
    cases checked
    exact .take worker job rest checks queue

theorem finish_step {result : PgResult Rows}
    (finished : pool.finish worker result = some next) : pool.Step true next := by
  unfold PgWorkerPool.finish at finished
  split at finished
  case h_2 => cases finished
  rename_i job executes
  dsimp only at finished
  split at finished
  · rename_i ring hasCallback replyRing
    cases finished
    exact .finish worker job ring result executes hasCallback replyRing
  · rename_i notBoth
    cases finished
    refine .finishSilent worker job result executes ?_
    unfold PgJob.isAnswered
    cases hasCallback : job.hasCallback with
    | false => rfl
    | true =>
      cases replyRing : job.replyRing with
      | none => rfl
      | some ring => exact absurd replyRing (notBoth ring hasCallback)

theorem answer_step (answered : pool.answer worker = some next) :
    pool.Step true next := by
  unfold PgWorkerPool.answer at answered
  split at answered
  · rename_i job ring result answers
    cases answered
    exact .reply worker job ring result answers
  · cases answered

theorem wake_step (woke : pool.wake worker = some next) :
    pool.Step false next := by
  unfold PgWorkerPool.wake at woke
  split at woke
  · rename_i waits
    cases woke
    exact .wake worker waits
  · cases woke

theorem beginStop_step (begun : pool.beginStop = some next) : pool.Step false next := by
  unfold PgWorkerPool.beginStop at begun
  split at begun
  · rename_i idle
    cases begun
    exact .beginStop idle
  · cases begun

theorem notifyAll_step (notified : pool.notifyAll = some next) : pool.Step true next := by
  unfold PgWorkerPool.notifyAll at notified
  split at notified
  · rename_i notifying
    cases notified
    exact .notifyAll notifying
  · cases notified

theorem join_step (joined : pool.join = some next) : pool.Step true next := by
  unfold PgWorkerPool.join at joined
  split at joined
  case h_2 => cases joined
  rename_i reached joining
  split at joined
  · rename_i inside
    split at joined
    · rename_i gone
      cases joined
      exact .joinNext reached joining inside (WorkerState.eq_left gone)
    · cases joined
  · rename_i outside
    cases joined
    exact .joinDone reached joining (Nat.le_of_not_lt outside)

/-- Every transition is one of the steps. -/
theorem step_of_transition {action : PoolAction count Query Rows}
    (transition : (poolSystem count Query Rows).step pool action = some next) :
    pool.Step (ownStep action) next := by
  cases action with
  | submit query hasCallback reply =>
    cases transition
    exact submit_step query hasCallback reply
  | notifyOne woken => exact notifyOne_step transition
  | check worker => exact check_step transition
  | finish worker result => exact finish_step transition
  | answer worker => exact answer_step transition
  | wake worker => exact wake_step transition
  | beginStop => exact beginStop_step transition
  | notifyAll => exact notifyAll_step transition
  | join => exact join_step transition

/-- The pool that a successful `Start` leaves. -/
theorem start_eq_some {connects : Fin count → Bool} (started : start connects = some pool) :
    0 < count ∧ pool = {} := by
  unfold start at started
  split at started
  · cases started
  · split at started
    · cases started
      exact ⟨by omega, rfl⟩
    · cases started

/-- What holds after `Start` and is kept by every step holds always. -/
theorem invariant_of_step (Inv : PgWorkerPool count Query Rows → Prop)
    (started : 0 < count → Inv {})
    (kept : ∀ {pool own next}, Inv pool → pool.Step own next → Inv next)
    (reachable : (poolSystem count Query Rows).Reachable everyStep pool) : Inv pool := by
  refine reachable.invariant Inv ?_ fun holds _ transition =>
    kept holds (step_of_transition transition)
  rintro _ ⟨connects, isStarted⟩
  obtain ⟨positive, rfl⟩ := start_eq_some isStarted
  exact started positive

end PgWorkerPool

end UringServer.Storage
