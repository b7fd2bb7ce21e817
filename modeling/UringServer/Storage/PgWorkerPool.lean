import Mathlib.Data.Fintype.Basic
import UringServer.Ring.RunOnRing
import UringServer.Semantics.Fifo
import UringServer.Semantics.Tally

/-!
# The pool of database workers

`PgWorkerPool`: `Submit` puts jobs into a queue under the mutex, the workers take
them out, execute them and post the results to the rings they came from, and
`Stop` lets the workers leave when the queue is empty and joins them. What is done
under the mutex is one step. The notifications of the condition variable are steps
of their own, made after the mutex is released, and a worker may also wake up
without one. What a callback does is no part of these steps: `PgCallbacks` adds the
callbacks that `Submit` runs with the mutex held, `PgReentry` those that call `Submit`
to any depth.
-/

namespace UringServer.Storage

open UringServer.Semantics UringServer.Ring

/-- The rows of a statement that was executed; nothing for `PgResult{}`. -/
abbrev PgResult (Rows : Type) := Option Rows

/-- `PgWorkerPool::Job`, with the number of the call of `Submit`. -/
structure PgJob (Query : Type) where
  id : Nat
  query : Query
  hasCallback : Bool
  replyRing : Option RingId
deriving DecidableEq, Repr

/-- Where a worker is in `WorkerLoop`. -/
inductive WorkerState (Query Rows : Type) where
  /-- Before the predicate of the wait is evaluated. -/
  | checking
  | waiting
  | executing (job : PgJob Query)
  | answering (job : PgJob Query) (reply : RingId) (result : PgResult Rows)
  | left

/-- Where the call of `Stop` is. -/
inductive StopPhase where
  | idle
  | notifying
  | joining (worker : Nat)
  | returned
deriving DecidableEq, Repr

/-- The pool after `Start`, with what its calls did. -/
structure PgWorkerPool (count : Nat) (Query Rows : Type) where
  workers : Fin count → WorkerState Query Rows := fun _ => .checking
  jobs : Fifo (PgJob Query) := {}
  /-- The calls of `Submit` that have yet to call `notify_one`. -/
  notifies : Nat := 0
  stop : StopPhase := .idle
  submitted : List (PgJob Query) := []
  /-- The jobs whose callback `Submit` ran with an empty result. -/
  rejected : List (PgJob Query) := []
  executed : List (Fin count × PgJob Query × PgResult Rows) := []
  /-- What was posted to the rings. -/
  posted : List (RingId × PgJob Query × PgResult Rows) := []

variable {count : Nat} {Query Rows : Type}

def WorkerState.isWaiting : WorkerState Query Rows → Bool
  | .waiting => true
  | _ => false

def WorkerState.hasLeft : WorkerState Query Rows → Bool
  | .left => true
  | _ => false

/-- What `notify_one` and `notify_all` do with a worker. -/
def WorkerState.notified : WorkerState Query Rows → WorkerState Query Rows
  | .waiting => .checking
  | worker => worker

namespace PgWorkerPool

/-- `stopping_`. -/
def stopping (pool : PgWorkerPool count Query Rows) : Bool := pool.stop ≠ .idle

/-- `Start`, with which of the connections succeed. -/
def start (connects : Fin count → Bool) : Option (PgWorkerPool count Query Rows) :=
  if count = 0 then
    none
  else if ∀ connection, connects connection = true then
    some {}
  else
    none

def setWorker (pool : PgWorkerPool count Query Rows) (worker : Fin count)
    (control : WorkerState Query Rows) : PgWorkerPool count Query Rows :=
  { pool with workers := Function.update pool.workers worker control }

/-- `Submit` up to the release of the mutex. -/
def submit (pool : PgWorkerPool count Query Rows) (query : Query) (hasCallback : Bool)
    (reply : Option RingId) : PgWorkerPool count Query Rows :=
  let job : PgJob Query := ⟨pool.submitted.length, query, hasCallback, reply⟩
  if reply = none ∨ pool.stopping = true then
    { pool with
      submitted := pool.submitted ++ [job]
      rejected := pool.rejected ++ [job] }
  else
    { pool with
      submitted := pool.submitted ++ [job]
      jobs := { pool.jobs with
        pushed := pool.jobs.pushed ++ [job]
        queue := pool.jobs.queue ++ [job] }
      notifies := pool.notifies + 1 }

/-- `notify_one` at the end of `Submit`, for a worker that waits, or for none if none does. -/
def notifyOne (pool : PgWorkerPool count Query Rows) (woken : Option (Fin count)) :
    Option (PgWorkerPool count Query Rows) :=
  if pool.notifies = 0 then
    none
  else match woken with
    | some worker =>
      if (pool.workers worker).isWaiting = true then
        some { pool.setWorker worker .checking with notifies := pool.notifies - 1 }
      else
        none
    | none =>
      if ∀ worker, (pool.workers worker).isWaiting = false then
        some { pool with notifies := pool.notifies - 1 }
      else
        none

/-- The section of `WorkerLoop` under the mutex. -/
def check (pool : PgWorkerPool count Query Rows) (worker : Fin count) :
    Option (PgWorkerPool count Query Rows) :=
  match pool.workers worker with
  | .checking => match pool.jobs.queue with
    | [] => some (pool.setWorker worker (if pool.stopping = true then .left else .waiting))
    | job :: rest =>
      some { pool.setWorker worker (.executing job) with
        jobs := { pool.jobs with queue := rest, popped := pool.jobs.popped ++ [job] } }
  | _ => none

/-- `conn.Execute` and the check behind it. -/
def finish (pool : PgWorkerPool count Query Rows) (worker : Fin count) (result : PgResult Rows) :
    Option (PgWorkerPool count Query Rows) :=
  match pool.workers worker with
  | .executing job =>
    let pool := { pool with executed := pool.executed ++ [(worker, job, result)] }
    match job.hasCallback, job.replyRing with
    | true, some reply => some (pool.setWorker worker (.answering job reply result))
    | _, _ => some (pool.setWorker worker .checking)
  | _ => none

/-- The call of `Post`. -/
def answer (pool : PgWorkerPool count Query Rows) (worker : Fin count) :
    Option (PgWorkerPool count Query Rows) :=
  match pool.workers worker with
  | .answering job reply result =>
    some { pool.setWorker worker .checking with
      posted := pool.posted ++ [(reply, job, result)] }
  | _ => none

/-- A worker wakes up without a notification. -/
def wake (pool : PgWorkerPool count Query Rows) (worker : Fin count) :
    Option (PgWorkerPool count Query Rows) :=
  match pool.workers worker with
  | .waiting => some (pool.setWorker worker .checking)
  | _ => none

/-- The section of `Stop` under the mutex. -/
def beginStop (pool : PgWorkerPool count Query Rows) : Option (PgWorkerPool count Query Rows) :=
  match pool.stop with
  | .idle => some { pool with stop := .notifying }
  | _ => none

/-- `notify_all`. -/
def notifyAll (pool : PgWorkerPool count Query Rows) : Option (PgWorkerPool count Query Rows) :=
  match pool.stop with
  | .notifying =>
    some { pool with
      stop := .joining 0
      workers := fun worker => (pool.workers worker).notified }
  | _ => none

/-- One turn of the loop of `Stop`, or its return. -/
def join (pool : PgWorkerPool count Query Rows) : Option (PgWorkerPool count Query Rows) :=
  match pool.stop with
  | .joining worker =>
    if inside : worker < count then
      if (pool.workers ⟨worker, inside⟩).hasLeft = true then
        some { pool with stop := .joining (worker + 1) }
      else
        none
    else
      some { pool with stop := .returned }
  | _ => none

end PgWorkerPool

/-- What the callers, the workers and the thread that stops the pool do. -/
inductive PoolAction (count : Nat) (Query Rows : Type) where
  | submit (query : Query) (hasCallback : Bool) (reply : Option RingId)
  | notifyOne (woken : Option (Fin count))
  | check (worker : Fin count)
  | finish (worker : Fin count) (result : PgResult Rows)
  | answer (worker : Fin count)
  | wake (worker : Fin count)
  | beginStop
  | notifyAll
  | join

/-- The pool after a successful `Start`. -/
def poolSystem (count : Nat) (Query Rows : Type) :
    TransitionSystem (PgWorkerPool count Query Rows) (PoolAction count Query Rows) where
  Initial pool := ∃ connects : Fin count → Bool, PgWorkerPool.start connects = some pool
  step pool
    | .submit query hasCallback reply => some (pool.submit query hasCallback reply)
    | .notifyOne woken => pool.notifyOne woken
    | .check worker => pool.check worker
    | .finish worker result => pool.finish worker result
    | .answer worker => pool.answer worker
    | .wake worker => pool.wake worker
    | .beginStop => pool.beginStop
    | .notifyAll => pool.notifyAll
    | .join => pool.join

end UringServer.Storage
