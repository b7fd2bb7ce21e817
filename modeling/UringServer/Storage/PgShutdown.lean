import UringServer.Storage.PgStep

/-!
# Wake-ups and shutdown of the pool

No notification is lost: while there is a job in the queue, a worker is awake or a
notification is on its way. A worker leaves only when the pool stops and the queue is
empty, so nothing is left behind when `Stop` returns.
-/

namespace UringServer.Storage

open UringServer.Semantics UringServer.Ring

variable {count : Nat} {Query Rows : Type}

/-- Neither blocked nor gone. -/
def WorkerState.isAwake (worker : WorkerState Query Rows) : Bool :=
  !worker.isWaiting && !worker.hasLeft

theorem WorkerState.isAwake_of {worker : WorkerState Query Rows} (notWaiting : worker ≠ .waiting)
    (notLeft : worker ≠ .left) : worker.isAwake = true := by
  cases worker with
  | waiting => exact absurd rfl notWaiting
  | left => exact absurd rfl notLeft
  | checking | executing | answering => rfl

namespace PgWorkerPool

variable {pool next : PgWorkerPool count Query Rows}

/-- What holds between the steps of the workers and of `Stop`. -/
structure Wakeups (pool : PgWorkerPool count Query Rows) : Prop where
  positive : 0 < count
  leaves : ∀ worker, pool.workers worker = .left → pool.stop ≠ .idle ∧ pool.jobs.queue = []
  notified : pool.stop ≠ .idle → pool.stop ≠ .notifying → ∀ worker, pool.workers worker ≠ .waiting
  joined : ∀ reached, pool.stop = .joining reached →
    ∀ worker : Fin count, worker.val < reached → pool.workers worker = .left
  returned : pool.stop = .returned → ∀ worker, pool.workers worker = .left
  awake : pool.jobs.queue ≠ [] →
    0 < pool.notifies ∨ pool.stop = .notifying ∨ ∃ worker, (pool.workers worker).isAwake = true

/-- With a job in the queue, no worker has left. -/
theorem Wakeups.stays (wakeups : pool.Wakeups) (queued : pool.jobs.queue ≠ [])
    (worker : Fin count) : pool.workers worker ≠ .left :=
  fun left => queued (wakeups.leaves worker left).2

/-- A worker that has not left gets awake, or stays so, and may take a job. -/
theorem Wakeups.rouse (wakeups : pool.Wakeups) (worker : Fin count)
    (control : WorkerState Query Rows) (present : pool.workers worker ≠ .left)
    (awake : control.isAwake = true)
    (workers : next.workers = Function.update pool.workers worker control)
    (stop : next.stop = pool.stop)
    (drained : pool.jobs.queue = [] → next.jobs.queue = []) : next.Wakeups := by
  have notWaiting : control ≠ .waiting := fun same => by rw [same] at awake; cases awake
  have notLeft : control ≠ .left := fun same => by rw [same] at awake; cases awake
  -- The workers that have left in the new state had left before.
  have leftBefore : ∀ other, next.workers other = .left → pool.workers other = .left := by
    intro other left
    rw [workers, Function.update_apply] at left
    split at left
    · exact absurd left notLeft
    · exact left
  have leftAfter : ∀ other, pool.workers other = .left → next.workers other = .left := by
    intro other left
    have apart : other ≠ worker := fun same => present (same ▸ left)
    rw [workers, Function.update_of_ne apart]
    exact left
  constructor
  · exact wakeups.positive
  · intro other left
    rw [stop]
    exact ⟨(wakeups.leaves other (leftBefore other left)).1,
      drained (wakeups.leaves other (leftBefore other left)).2⟩
  · intro begun past other
    rw [stop] at begun past
    rw [workers, Function.update_apply]
    split
    · exact notWaiting
    · exact wakeups.notified begun past other
  · intro reached joining other less
    rw [stop] at joining
    exact leftAfter other (wakeups.joined reached joining other less)
  · intro returned other
    rw [stop] at returned
    exact leftAfter other (wakeups.returned returned other)
  · intro _
    refine .inr (.inr ⟨worker, ?_⟩)
    rw [workers, Function.update_self]
    exact awake

theorem Wakeups.reject (wakeups : pool.Wakeups) (job : PgJob Query) : (pool.reject job).Wakeups :=
  ⟨wakeups.positive, wakeups.leaves, wakeups.notified, wakeups.joined, wakeups.returned,
    wakeups.awake⟩

theorem Wakeups.enqueue (wakeups : pool.Wakeups) (job : PgJob Query) (idle : pool.stop = .idle) :
    (pool.enqueue job).Wakeups := by
  refine ⟨wakeups.positive, ?_, wakeups.notified, wakeups.joined, wakeups.returned, ?_⟩
  · intro worker left
    exact absurd idle (wakeups.leaves worker left).1
  · intro _
    exact .inl (Nat.succ_pos _)

/-- With no worker that waits, a job in the queue needs no notification. -/
theorem Wakeups.isAwake (wakeups : pool.Wakeups) (none : ∀ worker, pool.workers worker ≠ .waiting)
    (queued : pool.jobs.queue ≠ []) : ∃ worker, (pool.workers worker).isAwake = true :=
  ⟨⟨0, wakeups.positive⟩, WorkerState.isAwake_of (none _) (wakeups.stays queued _)⟩

theorem Wakeups.useNotify (wakeups : pool.Wakeups)
    (none : ∀ worker, pool.workers worker ≠ .waiting) : pool.useNotify.Wakeups :=
  ⟨wakeups.positive, wakeups.leaves, wakeups.notified, wakeups.joined, wakeups.returned,
    fun queued => .inr (.inr (wakeups.isAwake none queued))⟩

theorem Wakeups.leave (wakeups : pool.Wakeups) (worker : Fin count) (empty : pool.jobs.queue = [])
    (stops : pool.stop ≠ .idle) : (pool.setWorker worker .left).Wakeups := by
  have left : ∀ other, pool.workers other = .left →
      (pool.setWorker worker .left).workers other = .left := by
    intro other left
    show Function.update pool.workers worker .left other = .left
    rw [Function.update_apply]
    split
    · rfl
    · exact left
  refine ⟨wakeups.positive, fun _ _ => ⟨stops, empty⟩, ?_, ?_, ?_,
    fun queued => absurd empty queued⟩
  · intro _ past other
    show Function.update pool.workers worker .left other ≠ .waiting
    rw [Function.update_apply]
    split
    · exact nofun
    · exact wakeups.notified stops past other
  · exact fun reached joining other less => left other (wakeups.joined reached joining other less)
  · exact fun returned other => left other (wakeups.returned returned other)

theorem Wakeups.wait (wakeups : pool.Wakeups) (worker : Fin count) (empty : pool.jobs.queue = [])
    (idle : pool.stop = .idle) : (pool.setWorker worker .waiting).Wakeups := by
  have sameStop : (pool.setWorker worker .waiting).stop = .idle := idle
  refine ⟨wakeups.positive, ?_, fun begun => absurd idle begun, ?_, ?_,
    fun queued => absurd empty queued⟩
  · intro other left
    have before : pool.workers other = .left := by
      change Function.update pool.workers worker .waiting other = .left at left
      rw [Function.update_apply] at left
      split at left
      · cases left
      · exact left
    exact absurd idle (wakeups.leaves other before).1
  · intro reached joining
    rw [sameStop] at joining
    cases joining
  · intro returned
    rw [sameStop] at returned
    cases returned

theorem Wakeups.notifyAll (wakeups : pool.Wakeups) :
    (pool.wakeAll.setStop (.joining 0)).Wakeups := by
  have left : ∀ worker : WorkerState Query Rows, worker.notified = .left → worker = .left := by
    intro worker same
    cases worker with
    | left => rfl
    | waiting | checking | executing | answering => cases same
  have notWaiting : ∀ worker : WorkerState Query Rows, worker.notified ≠ .waiting := by
    intro worker same
    cases worker <;> cases same
  refine ⟨wakeups.positive, ?_, fun _ _ worker => notWaiting _, ?_, nofun, ?_⟩
  · intro worker same
    exact ⟨nofun, (wakeups.leaves worker (left _ same)).2⟩
  · intro reached joining worker less
    cases joining
    exact absurd less (Nat.not_lt_zero _)
  · intro queued
    refine .inr (.inr ⟨⟨0, wakeups.positive⟩, WorkerState.isAwake_of (notWaiting _) ?_⟩)
    exact fun same => wakeups.stays queued _ (left _ same)

/-- While `Stop` joins the workers, none of them waits. -/
theorem Wakeups.none_waiting (wakeups : pool.Wakeups) {reached : Nat}
    (joining : pool.stop = .joining reached) (worker : Fin count) :
    pool.workers worker ≠ .waiting := by
  refine wakeups.notified ?_ ?_ worker
  · rw [joining]
    exact nofun
  · rw [joining]
    exact nofun

theorem Wakeups.joinNext (wakeups : pool.Wakeups) {reached : Nat}
    (joining : pool.stop = .joining reached) (inside : reached < count)
    (gone : pool.workers ⟨reached, inside⟩ = .left) :
    (pool.setStop (.joining (reached + 1))).Wakeups := by
  have none := wakeups.none_waiting joining
  refine ⟨wakeups.positive, fun worker left => ⟨nofun, (wakeups.leaves worker left).2⟩,
    fun _ _ => none, ?_, nofun, fun queued => .inr (.inr (wakeups.isAwake none queued))⟩
  intro _ same worker less
  cases same
  rcases Nat.lt_succ_iff_lt_or_eq.mp less with before | here
  · exact wakeups.joined reached joining worker before
  · have isReached : worker = ⟨reached, inside⟩ := Fin.ext here
    rw [isReached]
    exact gone

theorem Wakeups.joinDone (wakeups : pool.Wakeups) {reached : Nat}
    (joining : pool.stop = .joining reached) (outside : count ≤ reached) :
    (pool.setStop .returned).Wakeups := by
  have none := wakeups.none_waiting joining
  refine ⟨wakeups.positive, fun worker left => ⟨nofun, (wakeups.leaves worker left).2⟩,
    fun _ _ => none, nofun, fun _ worker => ?_,
    fun queued => .inr (.inr (wakeups.isAwake none queued))⟩
  exact wakeups.joined reached joining worker (Nat.lt_of_lt_of_le worker.isLt outside)

/-- No step loses a wake-up. -/
theorem Wakeups.step (wakeups : pool.Wakeups) {own : Bool} (step : pool.Step own next) :
    next.Wakeups := by
  cases step with
  | reject job => exact wakeups.reject job
  | enqueue job _ _ idle => exact wakeups.enqueue job idle
  | notify worker _ waits | wake worker waits =>
    exact wakeups.rouse worker .checking (by rw [waits]; exact nofun) rfl rfl rfl id
  | notifyNone _ none => exact wakeups.useNotify none
  | leave worker _ empty stops => exact wakeups.leave worker empty stops
  | wait worker _ empty idle => exact wakeups.wait worker empty idle
  | take worker job rest checks queue =>
    refine wakeups.rouse worker (.executing job) (by rw [checks]; exact nofun) rfl rfl rfl ?_
    intro empty
    rw [queue] at empty
    cases empty
  | finish worker job ring result executes =>
    exact wakeups.rouse worker (.answering job ring result) (by rw [executes]; exact nofun)
      rfl rfl rfl id
  | finishSilent worker job result executes =>
    exact wakeups.rouse worker .checking (by rw [executes]; exact nofun) rfl rfl rfl id
  | reply worker job ring result answers =>
    exact wakeups.rouse worker .checking (by rw [answers]; exact nofun) rfl rfl rfl id
  | beginStop =>
    exact ⟨wakeups.positive, fun worker left => ⟨nofun, (wakeups.leaves worker left).2⟩,
      fun _ past => absurd rfl past, nofun, nofun, fun _ => .inr (.inl rfl)⟩
  | notifyAll => exact wakeups.notifyAll
  | joinNext reached joining inside gone => exact wakeups.joinNext joining inside gone
  | joinDone reached joining outside => exact wakeups.joinDone joining outside

theorem wakeups_of_reachable
    (reachable : (poolSystem count Query Rows).Reachable everyStep pool) : pool.Wakeups := by
  refine invariant_of_step Wakeups (fun positive => ?_) (fun wakeups step => wakeups.step step)
    reachable
  exact ⟨positive, nofun, fun begun => absurd rfl begun, nofun, nofun,
    fun queued => absurd rfl queued⟩

end PgWorkerPool

end UringServer.Storage
