import UringServer.Job.JobQueue
import UringServer.Semantics.Tally

/-!
# The accounts of a `JobQueue`

`Accounted` ties the number of holders of a queue to `job_count_`, and
`job_count_` to the jobs that are on their way into `jobs_`, in `jobs_`, or in the
hands of a worker that has not yet subtracted them. A holder is a `Push` that saw
`prev == 0` and has still to register the queue, its entry in `GlobalQueue`, or the
worker that popped it.
-/

namespace UringServer.Job

open UringServer.Semantics

variable {Queue Job PushThread WorkThread : Type} [DecidableEq Queue]

namespace Pusher

/-- The jobs of `queue` a `Push` has counted and not yet appended. -/
def appendingTo (queue : Queue) : Pusher Queue Job → Nat
  | .appending target _ _ => if target = queue then 1 else 0
  | _ => 0

/-- Whether a `Push` saw `prev == 0` and has not yet called `gq_.Push`. -/
def holds (queue : Queue) : Pusher Queue Job → Nat
  | .idle => 0
  | .appending target _ prev => if target = queue ∧ prev = 0 then 1 else 0
  | .registering target => if target = queue then 1 else 0

end Pusher

namespace Worker

/-- The queue whose `Execute` a worker is in, from `TryPop` on until the
`fetch_sub` that finds nothing left or the `gq_.Push` that re-registers it. -/
def target : Worker Queue Job → Option Queue
  | .idle => none
  | .swapping queue _ | .looping queue _ _ _ | .running queue _ _ _ | .returning queue _ _ _
  | .counting queue _ _ | .checking queue _ _ | .reregistering queue => some queue

/-- Whether a worker is in `Execute` of `queue`. -/
def executes (queue : Queue) (worker : Worker Queue Job) : Nat :=
  if worker.target = some queue then 1 else 0

/-- The jobs of `queue` a worker has taken out of `jobs_` and not yet either put
back or subtracted from `job_count_`. -/
def carries (queue : Queue) : Worker Queue Job → Nat
  | .looping target _ executed rest | .returning target _ executed rest =>
    if target = queue then executed + rest.length else 0
  | .running target _ executed rest => if target = queue then executed + 1 + rest.length else 0
  | .counting target _ executed => if target = queue then executed else 0
  | _ => 0

/-- A worker carries jobs of no queue but the one it executes. -/
theorem carries_eq_zero {queue : Queue} {worker : Worker Queue Job}
    (elsewhere : worker.target ≠ some queue) : worker.carries queue = 0 := by
  cases worker <;> simp_all [carries, target]

end Worker

section Holders

variable [Fintype PushThread] [Fintype WorkThread]

/-- How many holders a queue has: pushes that have still to register it, entries
in `GlobalQueue`, and workers executing it. -/
def holders (state : State Queue Job PushThread WorkThread) (queue : Queue) : Nat :=
  tally (Pusher.holds queue) state.pushers + state.globalQueue.count queue +
    tally (Worker.executes queue) state.workers

/-- The jobs of a queue that were counted and not yet discounted. -/
def outstanding (state : State Queue Job PushThread WorkThread) (queue : Queue) : Nat :=
  tally (Pusher.appendingTo queue) state.pushers + (state.queues queue).jobs.length +
    tally (Worker.carries queue) state.workers

/-- A step is taken only while 32 bits can count one more job of each queue. -/
def CountFits (state : State Queue Job PushThread WorkThread)
    (_ : Action Queue Job PushThread WorkThread) : Prop :=
  ∀ queue, outstanding state queue + 1 < 2147483648

instance [Fintype Queue] (state : State Queue Job PushThread WorkThread)
    (action : Action Queue Job PushThread WorkThread) : Decidable (CountFits state action) :=
  inferInstanceAs (Decidable (∀ _, _))

/-- The next value of a count. -/
theorem toInt_add_one {count : Int32} (room : count.toInt + 1 < 2147483648) :
    (count + 1).toInt = count.toInt + 1 := by
  have least := count.le_toInt
  rw [Int32.toInt_add, Int32.toInt_one]
  exact Int.bmod_eq_of_le_mul_two (by omega) (by omega)

/-- A count less some of what it counts. -/
theorem toInt_sub_ofNat {count : Int32} {executed : Nat} (counted : executed ≤ count.toInt) :
    (count - .ofNat executed).toInt = count.toInt - executed := by
  have most := count.toInt_lt
  rw [Int32.toInt_sub, Int32.toInt_ofNat_of_lt (by omega)]
  exact Int.bmod_eq_of_le_mul_two (by omega) (by omega)

/-- `job_count_` counts the outstanding jobs, and there is one holder as long as
it is positive and none when it is zero. -/
structure Accounted (state : State Queue Job PushThread WorkThread) (queue : Queue) : Prop where
  counted : (state.queues queue).jobCount.toInt = outstanding state queue
  held : (0 < (state.queues queue).jobCount.toInt ∧ holders state queue = 1) ∨
    ((state.queues queue).jobCount.toInt = 0 ∧ holders state queue = 0)

theorem accounted_initial (queue : Queue) :
    Accounted (initial : State Queue Job PushThread WorkThread) queue := by
  constructor
  · simp [outstanding, initial, Pusher.appendingTo, Worker.carries]
  · right
    simp [holders, initial, Pusher.holds, Worker.executes, Worker.target]

section Moves

variable (state : State Queue Job PushThread WorkThread) (queue : Queue)

/-- How a queue's account changes from one state to another: by how much
`job_count_` rises, and what is added to and taken from the outstanding jobs and
the holders. -/
structure Moved (next : State Queue Job PushThread WorkThread) (rise : Int)
    (takenJobs addedJobs lostHolders gainedHolders : Nat) : Prop where
  count : (next.queues queue).jobCount.toInt = (state.queues queue).jobCount.toInt + rise
  jobs : outstanding next queue + takenJobs = outstanding state queue + addedJobs
  holders : holders next queue + lostHolders = holders state queue + gainedHolders

variable {state queue} in
/-- Consecutive changes add up. -/
theorem Moved.trans {middle next : State Queue Job PushThread WorkThread} {rise rise' : Int}
    {taken added lost gained taken' added' lost' gained' : Nat}
    (first : Moved state queue middle rise taken added lost gained)
    (second : Moved middle queue next rise' taken' added' lost' gained') :
    Moved state queue next (rise + rise') (taken + taken') (added + added') (lost + lost')
      (gained + gained') := by
  obtain ⟨count, jobs, holding⟩ := first
  obtain ⟨count', jobs', holding'⟩ := second
  refine ⟨?_, ?_, ?_⟩ <;> omega

theorem moved_setPusher [DecidableEq PushThread] (pusher : PushThread)
    (control : Pusher Queue Job) :
    Moved state queue (state.setPusher pusher control) 0
      ((state.pushers pusher).appendingTo queue) (control.appendingTo queue)
      ((state.pushers pusher).holds queue) (control.holds queue) := by
  have appending := tally_update (Pusher.appendingTo queue) state.pushers pusher control
  have holding := tally_update (Pusher.holds queue) state.pushers pusher control
  refine ⟨?_, ?_, ?_⟩
  · simp
  · simp only [outstanding, State.setPusher]
    omega
  · simp only [holders, State.setPusher]
    omega

theorem moved_setWorker [DecidableEq WorkThread] (worker : WorkThread)
    (control : Worker Queue Job) :
    Moved state queue (state.setWorker worker control) 0
      ((state.workers worker).carries queue) (control.carries queue)
      ((state.workers worker).executes queue) (control.executes queue) := by
  have carrying := tally_update (Worker.carries queue) state.workers worker control
  have executing := tally_update (Worker.executes queue) state.workers worker control
  refine ⟨?_, ?_, ?_⟩
  · simp
  · simp only [outstanding, State.setWorker]
    omega
  · simp only [holders, State.setWorker]
    omega

theorem moved_setQueue (target : Queue) (members : JobQueue Job) :
    Moved state queue (state.setQueue target members)
      (if target = queue then members.jobCount.toInt - (state.queues target).jobCount.toInt else 0)
      (if target = queue then (state.queues target).jobs.length else 0)
      (if target = queue then members.jobs.length else 0) 0 0 := by
  by_cases same : target = queue
  · subst same
    refine ⟨by simp, ?_, rfl⟩
    simp only [outstanding, State.setQueue, Function.update_self, if_true]
    omega
  · refine ⟨?_, ?_, rfl⟩
    · simp [Function.update_of_ne (Ne.symm same), same]
    · simp [outstanding, Function.update_of_ne (Ne.symm same), same]

theorem moved_logPushed (target : Queue) (job : Job) :
    Moved state queue (state.logPushed target job) 0 0 0 0 0 :=
  ⟨by simp, rfl, rfl⟩

theorem moved_globalPush (target : Queue) :
    Moved state queue (state.globalPush target) 0 0 0 0 (if target = queue then 1 else 0) := by
  refine ⟨by simp, rfl, ?_⟩
  simp only [holders, State.globalPush, List.count_append, List.count_singleton, beq_iff_eq]
  omega

theorem moved_globalPop {target : Queue} {remaining : List Queue}
    (front : state.globalQueue = target :: remaining) :
    Moved state queue state.globalPop 0 0 0 (if target = queue then 1 else 0) 0 := by
  refine ⟨by simp, rfl, ?_⟩
  simp only [holders, State.globalPop, front, List.tail_cons, List.count_cons, beq_iff_eq]
  omega

end Moves

variable {state next : State Queue Job PushThread WorkThread} {queue : Queue}

/-- A change keeps the accounts if `job_count_` moves with the outstanding jobs
and the holders keep to it. -/
theorem Accounted.moved (accounted : Accounted state queue) {rise : Int}
    {taken added lost gained : Nat} (moved : Moved state queue next rise taken added lost gained)
    (balanced : rise + taken = added)
    (keeps : (0 < (state.queues queue).jobCount.toInt + rise ∧
        holders state queue + gained = 1 + lost) ∨
      ((state.queues queue).jobCount.toInt + rise = 0 ∧ holders state queue + gained = lost)) :
    Accounted next queue := by
  obtain ⟨counted, _⟩ := accounted
  obtain ⟨count, jobs, holding⟩ := moved
  constructor <;> omega

/-- What a worker carries is outstanding. -/
theorem carries_le_outstanding (state : State Queue Job PushThread WorkThread) (queue : Queue)
    (worker : WorkThread) : (state.workers worker).carries queue ≤ outstanding state queue := by
  have share := weight_le_tally (Worker.carries queue) state.workers worker
  unfold outstanding
  omega

/-- An executing worker is a holder. -/
theorem executes_le_holders (state : State Queue Job PushThread WorkThread) (queue : Queue)
    (worker : WorkThread) : (state.workers worker).executes queue ≤ holders state queue := by
  have share := weight_le_tally (Worker.executes queue) state.workers worker
  unfold holders
  omega

variable {worker : WorkThread}

/-- A worker that moves on within `Execute` with the jobs it carries changes no
account. -/
theorem Accounted.setWorker [DecidableEq WorkThread] (accounted : Accounted state queue)
    {control : Worker Queue Job} (sameTarget : (state.workers worker).target = control.target)
    (sameJobs : (state.workers worker).carries queue = control.carries queue) :
    Accounted (state.setWorker worker control) queue := by
  have held := accounted.held
  have sameHolder : (state.workers worker).executes queue = control.executes queue := by
    simp only [Worker.executes, sameTarget]
  refine accounted.moved (moved_setWorker state queue worker control) ?_ ?_
  · omega
  · omega

/-- A worker that moves on within `Execute` keeps the accounts if it leaves
`job_count_` as it is or positive and subtracts from it what it gives up. -/
theorem Accounted.setQueue_setWorker [DecidableEq WorkThread] (accounted : Accounted state queue)
    {target : Queue} {members : JobQueue Job} {control : Worker Queue Job}
    (executing : (state.workers worker).target = some target)
    (continues : control.target = some target)
    (positive : target = queue →
      members.jobCount = (state.queues target).jobCount ∨ 0 < members.jobCount.toInt)
    (balanced : target = queue → members.jobCount.toInt + (state.queues target).jobs.length +
        (state.workers worker).carries target =
      (state.queues target).jobCount.toInt + members.jobs.length + control.carries target) :
    Accounted ((state.setQueue target members).setWorker worker control) queue := by
  have held := accounted.held
  have holding := executes_le_holders state queue worker
  have sameHolder : (state.workers worker).executes queue = control.executes queue := by
    simp only [Worker.executes, executing, continues]
  refine accounted.moved
    ((moved_setQueue state queue target members).trans (moved_setWorker _ queue worker control))
    ?_ ?_
  · rw [State.setQueue_workers]
    by_cases same : target = queue
    · subst same
      have balanced := balanced rfl
      simp only [if_true]
      omega
    · have elsewhere : some target ≠ some queue := by simpa using same
      rw [Worker.carries_eq_zero (executing ▸ elsewhere),
        Worker.carries_eq_zero (continues ▸ elsewhere)]
      simp [same]
  · rw [State.setQueue_workers]
    by_cases same : target = queue
    · subst same
      have positive := (positive rfl).imp_left (congrArg Int32.toInt)
      simp only [Worker.executes, executing, if_true] at holding sameHolder ⊢
      omega
    · simp only [same, if_false]
      omega

/-- The pusher that raises `job_count_` from zero takes care of the queue. -/
theorem Accounted.fetchAdd [DecidableEq PushThread] (accounted : Accounted state queue)
    (room : outstanding state queue + 1 < 2147483648) {pusher : PushThread} (target : Queue)
    (job : Job) (found : state.pushers pusher = .idle) :
    Accounted ((state.setQueue target
        ⟨(state.queues target).jobs, (state.queues target).jobCount + 1⟩).setPusher pusher
      (.appending target job (state.queues target).jobCount)) queue := by
  have counted := accounted.counted
  have held := accounted.held
  have raised (same : target = queue) : ((state.queues target).jobCount + 1).toInt =
      (state.queues target).jobCount.toInt + 1 := by
    rw [same]
    exact toInt_add_one (by omega)
  refine accounted.moved
    ((moved_setQueue state queue target _).trans (moved_setPusher _ queue pusher _)) ?_ ?_
  · simp only [State.setQueue_pushers, found, Pusher.appendingTo]
    split_ifs with same
    · rw [raised same]
      omega
    · rfl
  · simp only [State.setQueue_pushers, found, Pusher.holds]
    by_cases same : target = queue
    · have raised := raised same
      subst same
      simp only [if_true, true_and, ← Int32.toInt_inj, Int32.toInt_zero]
      split_ifs <;> omega
    · simp only [same, if_false, false_and]
      omega

/-- The `fetch_sub` takes no more than is counted. -/
theorem Accounted.fetchSub (accounted : Accounted state queue)
    {target : Queue} {deadline : Int} {executed : Nat}
    (found : state.workers worker = .counting target deadline executed)
    (same : target = queue) : ((state.queues target).jobCount - .ofNat executed).toInt =
      (state.queues target).jobCount.toInt - executed := by
  have counted := accounted.counted
  have carried := carries_le_outstanding state queue worker
  rw [found, Worker.carries, if_pos same] at carried
  rw [same]
  exact toInt_sub_ofNat (by omega)

/-- The worker that lowers `job_count_` to zero carried the jobs that were outstanding, and was
the only holder. -/
theorem Accounted.drained [DecidableEq WorkThread] (accounted : Accounted state queue)
    {target : Queue} {deadline : Int} {executed : Nat}
    (found : state.workers worker = .counting target deadline executed)
    (nothingLeft : (state.queues target).jobCount - .ofNat executed ≤ 0) :
    Accounted ((state.setQueue target
        ⟨(state.queues target).jobs,
          (state.queues target).jobCount - .ofNat executed⟩).setWorker worker .idle) queue := by
  have counted := accounted.counted
  have held := accounted.held
  have carried := carries_le_outstanding state queue worker
  have holding := executes_le_holders state queue worker
  simp only [found, Worker.carries, Worker.executes, Worker.target, Option.some.injEq]
    at carried holding
  have lowered (same : target = queue) := accounted.fetchSub found same
  refine accounted.moved
    ((moved_setQueue state queue target _).trans (moved_setWorker _ queue worker _)) ?_ ?_
  · simp only [State.setQueue_workers, found, Worker.carries]
    split_ifs with same
    · rw [lowered same]
      omega
    · rfl
  · simp only [State.setQueue_workers, found, Worker.executes, Worker.target,
      Option.some.injEq, reduceCtorEq, if_false]
    by_cases same : target = queue
    · have lowered := lowered same
      rw [Int32.le_iff_toInt_le, lowered, Int32.toInt_zero] at nothingLeft
      subst same
      simp only [if_true] at carried holding ⊢
      omega
    · simp only [same, if_false]
      omega

variable [DecidableEq PushThread] [DecidableEq WorkThread]

/-- Every step keeps the accounts of every queue. The worker's `fetch_sub` is
the only step that can end the care for a queue, and by `counted` it subtracts
no more than is outstanding, so it never leaves a negative `remaining`. -/
theorem Accounted.effect (accounted : Accounted state queue)
    (room : outstanding state queue + 1 < 2147483648) (effect : Effect state next) :
    Accounted next queue := by
  have counted := accounted.counted
  have held := accounted.held
  cases effect with
  | fetchAdd pusher target job found => exact accounted.fetchAdd room target job found
  | pushBack pusher target job prev found =>
    refine accounted.moved (((moved_setQueue state queue target _).trans
      (moved_logPushed _ queue target job)).trans (moved_setPusher _ queue pusher _)) ?_ ?_
    · simp only [State.logPushed_pushers, State.setQueue_pushers, found]
      by_cases first : prev = 0 <;> simp [Pusher.appendingTo, first] <;> split_ifs <;> omega
    · simp only [State.logPushed_pushers, State.setQueue_pushers, found]
      by_cases first : prev = 0 <;> simpa [Pusher.holds, first] using held
  | register pusher target found =>
    refine accounted.moved
      ((moved_globalPush state queue target).trans (moved_setPusher _ queue pusher _)) ?_ ?_
    · simp [State.globalPush_pushers, found, Pusher.appendingTo]
    · simp only [State.globalPush_pushers, found, Pusher.holds]
      split_ifs <;> omega
  | tryPop worker deadline target remaining found front =>
    refine accounted.moved
      ((moved_globalPop state queue front).trans (moved_setWorker _ queue worker _)) ?_ ?_
    · simp [State.globalPop_workers, found, Worker.carries]
    · simp only [State.globalPop_workers, found, Worker.executes, Worker.target,
        Option.some.injEq, reduceCtorEq, if_false]
      omega
  | swapBatch worker target deadline found =>
    refine accounted.setQueue_setWorker (by rw [found]; rfl) ?_ (fun _ => .inl ?_) fun _ => ?_
    · rfl
    · rfl
    simp only [found, Worker.carries, if_true, List.length_nil]
    omega
  | callJob worker target deadline executed job rest found =>
    have logged : Accounted (state.logExecuted target job) queue := ⟨counted, held⟩
    apply logged.setWorker
    · rw [State.logExecuted_workers, found]
      rfl
    · simp only [State.logExecuted_workers, found, Worker.carries, List.length_cons]
      split_ifs <;> omega
  | breakLoop worker target deadline executed rest found =>
    apply accounted.setWorker <;> rw [found] <;> rfl
  | nextJob worker target deadline executed rest found =>
    apply accounted.setWorker <;> rw [found] <;> rfl
  | leaveLoop worker target deadline executed found =>
    apply accounted.setWorker <;> rw [found] <;> rfl
  | putBack worker target deadline executed rest found =>
    refine accounted.setQueue_setWorker (by rw [found]; rfl) ?_ (fun _ => .inl ?_) fun _ => ?_
    · rfl
    · rfl
    simp only [found, Worker.carries, if_true, List.length_append]
    omega
  | drained worker target deadline executed found nothingLeft =>
    exact accounted.drained found nothingLeft
  | remains worker target deadline executed found someLeft =>
    have lowered (same : target = queue) := accounted.fetchSub found same
    refine accounted.setQueue_setWorker (by rw [found]; rfl) ?_ (fun _ => .inr ?_) fun same => ?_
    · rfl
    · rw [Int32.le_iff_toInt_le, Int32.toInt_zero] at someLeft
      exact Int.not_le.mp someLeft
    · rw [lowered same]
      simp only [found, Worker.carries, if_true]
      omega
  | expired worker target deadline executed found =>
    apply accounted.setWorker <;> rw [found] <;> rfl
  | nextRound worker target deadline executed found =>
    apply accounted.setWorker <;> rw [found] <;> rfl
  | reregister worker target found =>
    refine accounted.moved
      ((moved_globalPush state queue target).trans (moved_setWorker _ queue worker _)) ?_ ?_
    · simp [State.globalPush_workers, found, Worker.carries]
    · simp only [State.globalPush_workers, found, Worker.executes, Worker.target,
        Option.some.injEq, reduceCtorEq, if_false]
      omega

/-- The accounts hold in every reachable state. -/
theorem reachable_accounted
    (reachable : (system Queue Job PushThread WorkThread).Reachable CountFits state)
    (queue : Queue) : Accounted state queue := by
  refine reachable.invariant (fun state => ∀ queue, Accounted state queue) ?_ ?_ queue
  · rintro _ rfl queue
    exact accounted_initial queue
  · intro state action next accounted countable transition queue
    exact (accounted queue).effect (countable queue) (step_effect transition)

end Holders

end UringServer.Job
