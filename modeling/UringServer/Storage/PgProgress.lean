import UringServer.Storage.PgShutdown

/-!
# Progress of the pool

Every step that the pool takes by itself lowers what remains to be done, and a pool
that can take none has an empty queue, workers that wait or have left, and no call
of `Stop` that has yet to return.
-/

namespace UringServer.Storage.PgWorkerPool

open UringServer.Semantics UringServer.Ring

variable {count : Nat} {Query Rows : Type} {pool next : PgWorkerPool count Query Rows}

/-- How many steps a worker takes at most before it needs another job or a notification. -/
def stepsLeft : WorkerState Query Rows → Nat
  | .executing _ => 3
  | .answering .. => 2
  | .checking => 1
  | .waiting | .left => 0

/-- How many steps `Stop` has left, with those of the workers that it wakes up. -/
def stopSteps (count : Nat) : StopPhase → Nat
  | .notifying => 2 * count + 3
  | .joining reached => count - reached + 1
  | .idle | .returned => 0

/-- What bounds the steps that the pool still takes by itself. -/
def remaining (pool : PgWorkerPool count Query Rows) : Nat :=
  3 * pool.jobs.queue.length + 2 * pool.notifies + tally stepsLeft pool.workers +
    stopSteps count pool.stop

/-- What one worker's move does to what remains. -/
theorem tally_setWorker (pool : PgWorkerPool count Query Rows) {worker : Fin count}
    {before : WorkerState Query Rows} (control : WorkerState Query Rows)
    (here : pool.workers worker = before) :
    tally stepsLeft (pool.setWorker worker control).workers + stepsLeft before =
      tally stepsLeft pool.workers + stepsLeft control := by
  rw [← here]
  exact tally_update stepsLeft pool.workers worker control

theorem tally_wakeAll (pool : PgWorkerPool count Query Rows) :
    tally stepsLeft pool.wakeAll.workers ≤ tally stepsLeft pool.workers + count := by
  have each : ∀ worker : WorkerState Query Rows,
      stepsLeft worker.notified ≤ stepsLeft worker + 1 := by
    intro worker
    cases worker with
    | waiting => exact Nat.le_refl 1
    | checking | executing | answering | left => exact Nat.le_succ _
  calc ∑ worker, stepsLeft (pool.workers worker).notified
    _ ≤ ∑ worker, (stepsLeft (pool.workers worker) + 1) :=
        Finset.sum_le_sum fun worker _ => each (pool.workers worker)
    _ = ∑ worker, stepsLeft (pool.workers worker) + count := by
        simp [Finset.sum_add_distrib]

/-- The pool takes only finitely many steps by itself. -/
theorem Step.remaining_lt (step : pool.Step true next) : next.remaining < pool.remaining := by
  generalize isOwn : true = own at step
  cases step with
  | reject | enqueue | wake | beginStop => cases isOwn
  | notify worker pending waits =>
    have moved := tally_setWorker pool .checking waits
    dsimp only [remaining, useNotify, setWorker, stepsLeft] at moved ⊢
    omega
  | notifyNone pending =>
    dsimp only [remaining, useNotify]
    omega
  | leave worker checks =>
    have moved := tally_setWorker pool .left checks
    dsimp only [remaining, setWorker, stepsLeft] at moved ⊢
    omega
  | wait worker checks =>
    have moved := tally_setWorker pool .waiting checks
    dsimp only [remaining, setWorker, stepsLeft] at moved ⊢
    omega
  | take worker job rest checks queue =>
    have moved := tally_setWorker pool (.executing job) checks
    dsimp only [remaining, PgWorkerPool.take, setWorker, stepsLeft] at moved ⊢
    rw [queue, List.length_cons]
    omega
  | finish worker job ring result executes =>
    have moved := tally_setWorker pool (.answering job ring result) executes
    dsimp only [remaining, record, setWorker, stepsLeft] at moved ⊢
    omega
  | finishSilent worker job result executes =>
    have moved := tally_setWorker pool .checking executes
    dsimp only [remaining, record, setWorker, stepsLeft] at moved ⊢
    omega
  | reply worker job ring result answers =>
    have moved := tally_setWorker pool .checking answers
    dsimp only [remaining, PgWorkerPool.reply, setWorker, stepsLeft] at moved ⊢
    omega
  | notifyAll notifying =>
    have woken := tally_wakeAll pool
    dsimp only [remaining, setStop, wakeAll] at woken ⊢
    rw [notifying]
    dsimp only [stopSteps]
    omega
  | joinNext reached joining inside | joinDone reached joining outside =>
    dsimp only [remaining, setStop]
    rw [joining]
    dsimp only [stopSteps]
    omega

/-- Nothing is left to do. -/
structure Settled (pool : PgWorkerPool count Query Rows) : Prop where
  empty : pool.jobs.queue = []
  idle : ∀ worker, pool.workers worker = .waiting ∨ pool.workers worker = .left
  stopped : pool.stop = .idle ∨ pool.stop = .returned

section Stuck

variable (stuck : ∀ action, ownStep action = true →
  (poolSystem count Query Rows).step pool action = none)

include stuck

/-- A worker that has something to do can do it. -/
theorem idle_of_stuck (worker : Fin count) :
    pool.workers worker = .waiting ∨ pool.workers worker = .left := by
  cases control : pool.workers worker with
  | waiting => exact .inl rfl
  | left => exact .inr rfl
  | checking =>
    have checked : pool.check worker = none := stuck (.check worker) rfl
    unfold PgWorkerPool.check at checked
    rw [control] at checked
    dsimp only at checked
    split at checked <;> cases checked
  | executing job =>
    have finished : pool.finish worker none = none := stuck (.finish worker none) rfl
    unfold PgWorkerPool.finish at finished
    rw [control] at finished
    dsimp only at finished
    split at finished <;> cases finished
  | answering job reply result =>
    have answered : pool.answer worker = none := stuck (.answer worker) rfl
    unfold PgWorkerPool.answer at answered
    rw [control] at answered
    cases answered

theorem not_notifying_of_stuck : pool.stop ≠ .notifying := by
  intro notifying
  have notified : pool.notifyAll = none := stuck .notifyAll rfl
  unfold PgWorkerPool.notifyAll at notified
  rw [notifying] at notified
  cases notified

/-- A pending `notify_one` wakes a worker, or is lost if none waits. -/
theorem notifies_eq_zero_of_stuck : pool.notifies = 0 := by
  by_contra pending
  by_cases none : ∀ worker, (pool.workers worker).isWaiting = false
  · have notified : pool.notifyOne .none = .none := stuck (.notifyOne .none) rfl
    unfold PgWorkerPool.notifyOne at notified
    rw [if_neg pending] at notified
    dsimp only at notified
    rw [if_pos none] at notified
    cases notified
  · obtain ⟨worker, waits⟩ := not_forall.mp none
    have notified : pool.notifyOne (some worker) = .none := stuck (.notifyOne (some worker)) rfl
    unfold PgWorkerPool.notifyOne at notified
    rw [if_neg pending] at notified
    dsimp only at notified
    rw [if_pos (Bool.not_eq_false _ ▸ waits)] at notified
    cases notified

/-- A `Stop` that joins waits for a worker that has not left. -/
theorem unjoined_of_stuck {reached : Nat} (joining : pool.stop = .joining reached) :
    ∃ worker, (pool.workers worker).hasLeft = false := by
  have joined : pool.join = none := stuck .join rfl
  unfold PgWorkerPool.join at joined
  rw [joining] at joined
  dsimp only at joined
  split at joined
  case isTrue inside =>
    refine ⟨⟨reached, inside⟩, ?_⟩
    by_contra gone
    rw [if_pos (Bool.not_eq_false _ ▸ gone)] at joined
    cases joined
  case isFalse => cases joined

/-- A pool that can take no step by itself has nothing left to do. -/
theorem Wakeups.settled (wakeups : pool.Wakeups) : pool.Settled := by
  have idle := idle_of_stuck stuck
  have notNotifying := not_notifying_of_stuck stuck
  refine ⟨?_, idle, ?_⟩
  · by_contra queued
    rcases wakeups.awake queued with pending | notifying | ⟨worker, awake⟩
    · exact pending.ne' (notifies_eq_zero_of_stuck stuck)
    · exact notNotifying notifying
    · rcases idle worker with waiting | left
      · rw [waiting] at awake
        cases awake
      · rw [left] at awake
        cases awake
  · cases phase : pool.stop with
    | idle => exact .inl rfl
    | returned => exact .inr rfl
    | notifying => exact absurd phase notNotifying
    | joining reached =>
      obtain ⟨worker, stays⟩ := unjoined_of_stuck stuck phase
      rcases idle worker with waiting | left
      · refine absurd waiting (wakeups.notified ?_ notNotifying _)
        rw [phase]
        exact nofun
      · rw [left] at stays
        cases stays

end Stuck

end UringServer.Storage.PgWorkerPool
