import Mathlib.Data.List.NodupEquivFin
import UringServer.Job.Accounting

/-!
# Who is responsible for a `JobQueue`

A queue with outstanding jobs is in the care of exactly one holder, and a queue
without is in nobody's. `Holds` says who is a holder; that there is one, and one
only, comes from the number of holders in the accounts.
-/

namespace UringServer.Job

open UringServer.Semantics

variable {Queue Job PushThread WorkThread : Type}

/-- The three kinds of holder, each with the thread or the position it is at. -/
inductive Holder (PushThread WorkThread : Type) where
  | push (pusher : PushThread)
  | entry (position : Nat)
  | execute (worker : WorkThread)

/-- What it means to be a holder of `queue`: a `Push` that saw `prev == 0` and has
not yet called `gq_.Push`, an entry of `GlobalQueue`, or a popped and running
`Execute` that has neither brought the count to zero nor re-registered. -/
def Holds (state : State Queue Job PushThread WorkThread) (queue : Queue) :
    Holder PushThread WorkThread → Prop
  | .push pusher => (∃ job, state.pushers pusher = .appending queue job 0) ∨
      state.pushers pusher = .registering queue
  | .entry position => state.globalQueue[position]? = some queue
  | .execute worker => (state.workers worker).target = some queue

variable [DecidableEq Queue] {state : State Queue Job PushThread WorkThread} {queue : Queue}

theorem holds_push_iff {pusher : PushThread} :
    Holds state queue (.push pusher) ↔ 0 < (state.pushers pusher).holds queue := by
  cases control : state.pushers pusher with
  | idle => simp [Holds, control, Pusher.holds]
  | appending target job prev =>
    by_cases holding : target = queue ∧ prev = 0 <;> simp [Holds, control, Pusher.holds, holding]
  | registering target =>
    by_cases holding : target = queue <;> simp [Holds, control, Pusher.holds, holding]

theorem holds_execute_iff {worker : WorkThread} :
    Holds state queue (.execute worker) ↔ 0 < (state.workers worker).executes queue := by
  by_cases executing : (state.workers worker).target = some queue <;>
    simp [Holds, Worker.executes, executing]

theorem holds_entry_pos {position : Nat} (entered : Holds state queue (.entry position)) :
    0 < state.globalQueue.count queue :=
  List.count_pos_iff.mpr (List.mem_of_getElem? entered)

private theorem two_le_count_of_positions {entries : List Queue} {first second : Nat}
    (different : first ≠ second) (atFirst : entries[first]? = some queue)
    (atSecond : entries[second]? = some queue) : 2 ≤ entries.count queue := by
  obtain ⟨firstBound, atFirst⟩ := List.getElem?_eq_some_iff.mp atFirst
  obtain ⟨secondBound, atSecond⟩ := List.getElem?_eq_some_iff.mp atSecond
  rw [← List.duplicate_iff_two_le_count, List.duplicate_iff_exists_distinct_get]
  rcases Nat.lt_or_gt_of_ne different with before | after
  · exact ⟨⟨first, firstBound⟩, ⟨second, secondBound⟩, before, atFirst.symm, atSecond.symm⟩
  · exact ⟨⟨second, secondBound⟩, ⟨first, firstBound⟩, after, atSecond.symm, atFirst.symm⟩

variable [Fintype PushThread] [Fintype WorkThread]

/-- The part of the count of holders that a holder belongs to. -/
def Holder.share (state : State Queue Job PushThread WorkThread) (queue : Queue) :
    Holder PushThread WorkThread → Nat
  | .push _ => tally (Pusher.holds queue) state.pushers
  | .entry _ => state.globalQueue.count queue
  | .execute _ => tally (Worker.executes queue) state.workers

theorem Holder.share_pos {holder : Holder PushThread WorkThread}
    (holding : Holds state queue holder) : 0 < holder.share state queue := by
  cases holder with
  | push pusher =>
    exact Nat.lt_of_lt_of_le (holds_push_iff.mp holding) (weight_le_tally _ _ pusher)
  | entry position => exact holds_entry_pos holding
  | execute worker =>
    exact Nat.lt_of_lt_of_le (holds_execute_iff.mp holding) (weight_le_tally _ _ worker)

/-- Where holders are counted there is one. -/
theorem exists_of_holders_pos (positive : 0 < holders state queue) :
    ∃ holder, Holds state queue holder := by
  have somewhere : 0 < tally (Pusher.holds queue) state.pushers ∨
      0 < state.globalQueue.count queue ∨ 0 < tally (Worker.executes queue) state.workers := by
    unfold holders at positive
    omega
  rcases somewhere with pushing | entered | executing
  · obtain ⟨pusher, holding⟩ := exists_of_tally_pos pushing
    exact ⟨.push pusher, holds_push_iff.mpr holding⟩
  · obtain ⟨position, found⟩ := List.mem_iff_getElem?.mp (List.count_pos_iff.mp entered)
    exact ⟨.entry position, found⟩
  · obtain ⟨worker, holding⟩ := exists_of_tally_pos executing
    exact ⟨.execute worker, holds_execute_iff.mpr holding⟩

/-- Every holder is counted. -/
theorem holders_pos {holder : Holder PushThread WorkThread} (holding : Holds state queue holder) :
    0 < holders state queue := by
  have share := Holder.share_pos holding
  unfold holders
  cases holder <;> simp only [Holder.share] at share <;> omega

/-- A queue with jobs in `jobs_` has a holder. -/
theorem Accounted.exists_holds (accounted : Accounted state queue)
    (nonempty : (state.queues queue).jobs ≠ []) : ∃ holder, Holds state queue holder := by
  obtain ⟨counted, held⟩ := accounted
  have present := List.length_pos_iff.mpr nonempty
  unfold outstanding at counted
  exact exists_of_holders_pos (by omega)

variable [DecidableEq PushThread] [DecidableEq WorkThread]

/-- Two different holders are counted twice. -/
theorem two_le_holders {first second : Holder PushThread WorkThread} (different : first ≠ second)
    (firstHolds : Holds state queue first) (secondHolds : Holds state queue second) :
    2 ≤ holders state queue := by
  have firstShare := Holder.share_pos firstHolds
  have secondShare := Holder.share_pos secondHolds
  unfold holders
  cases first with
  | push pusher =>
    cases second with
    | push other =>
      have apart : pusher ≠ other := fun same => different (congrArg _ same)
      have both := two_weights_le_tally (Pusher.holds queue) state.pushers apart
      have first := holds_push_iff.mp firstHolds
      have second := holds_push_iff.mp secondHolds
      omega
    | _ =>
      simp only [Holder.share] at firstShare secondShare
      omega
  | entry position =>
    cases second with
    | entry other =>
      have apart : position ≠ other := fun same => different (congrArg _ same)
      have both := two_le_count_of_positions apart firstHolds secondHolds
      omega
    | _ =>
      simp only [Holder.share] at firstShare secondShare
      omega
  | execute worker =>
    cases second with
    | execute other =>
      have apart : worker ≠ other := fun same => different (congrArg _ same)
      have both := two_weights_le_tally (Worker.executes queue) state.workers apart
      have first := holds_execute_iff.mp firstHolds
      have second := holds_execute_iff.mp secondHolds
      omega
    | _ =>
      simp only [Holder.share] at firstShare secondShare
      omega

/-- Accounts that hold leave room for one holder. -/
theorem Accounted.holder_unique (accounted : Accounted state queue)
    {first second : Holder PushThread WorkThread} (firstHolds : Holds state queue first)
    (secondHolds : Holds state queue second) : first = second := by
  by_contra different
  have twice := two_le_holders different firstHolds secondHolds
  have held := accounted.held
  omega

/-- No two workers execute one queue. -/
theorem Accounted.executor_unique (accounted : Accounted state queue) {first second : WorkThread}
    (firstExecutes : (state.workers first).target = some queue)
    (secondExecutes : (state.workers second).target = some queue) : first = second := by
  have firstHolds : Holds state queue (.execute first) := firstExecutes
  exact Holder.execute.inj (accounted.holder_unique firstHolds secondExecutes)

/-- As long as `job_count_` can count the outstanding jobs, a queue where it is positive
has exactly one holder and one where it is zero has none. So no two workers execute
the same queue, and a queue with jobs is registered, about to be, or executed. -/
theorem jobQueue_exactly_one_holder
    (reachable : (system Queue Job PushThread WorkThread).Reachable CountFits state)
    (queue : Queue) :
    (0 < (state.queues queue).jobCount → ∃! holder, Holds state queue holder) ∧
    ((state.queues queue).jobCount = 0 → ∀ holder, ¬ Holds state queue holder) ∧
    0 ≤ (state.queues queue).jobCount ∧
    (∀ first second, (state.workers first).target = some queue →
      (state.workers second).target = some queue → first = second) ∧
    ((state.queues queue).jobs ≠ [] → ∃ holder, Holds state queue holder) := by
  have accounted := reachable_accounted reachable queue
  have held := accounted.held
  refine ⟨?_, ?_, ?_, ?_, ?_⟩
  · intro positive
    rw [Int32.lt_iff_toInt_lt, Int32.toInt_zero] at positive
    have one : 0 < holders state queue := by omega
    obtain ⟨holder, holding⟩ := exists_of_holders_pos one
    exact ⟨holder, holding, fun other otherHolds => accounted.holder_unique otherHolds holding⟩
  · intro zero holder holding
    have counted := holders_pos holding
    rw [zero, Int32.toInt_zero] at held
    omega
  · rw [Int32.le_iff_toInt_le, Int32.toInt_zero]
    omega
  · intro first second
    exact accounted.executor_unique
  · exact accounted.exists_holds

/-- Two pushes, and a worker whose deadline passes after the first job: the queue
it re-registers with one job left has exactly one holder again. -/
theorem jobQueue_exactly_one_holder_after_deadline :
    ∃ state : State Unit Nat (Fin 1) (Fin 1),
      (system Unit Nat (Fin 1) (Fin 1)).Reachable CountFits state ∧
      (state.queues ()).jobCount = 1 ∧ ∃! holder, Holds state () holder := by
  obtain ⟨state, executed, remaining⟩ : ∃ state : State Unit Nat (Fin 1) (Fin 1),
      (system Unit Nat (Fin 1) (Fin 1)).execute CountFits initial
        [.fetchAdd 0 () 7, .pushBack 0, .register 0, .fetchAdd 0 () 8, .pushBack 0,
          .tryPop 0 10, .swapBatch 0, .callJob 0, .jobReturned 0 10, .putBack 0, .fetchSub 0,
          .checkDeadline 0 11, .reregister 0] = some state ∧
      (state.queues ()).jobCount = 1 := ⟨_, rfl, rfl⟩
  have reachable := TransitionSystem.Reachable.execute (.initial rfl) executed
  exact ⟨state, reachable, remaining,
    (jobQueue_exactly_one_holder reachable ()).1 (by rw [remaining]; decide)⟩

end UringServer.Job
