import UringServer.Job.Accounting

/-!
# The queues that are in use

A raw pointer to a `JobQueue` is held by `GlobalQueue`, by the worker that popped
it until its `Execute` returns, and by a call of `Push` until that returns. Only
the call of a `Push` brings a queue into use that was not.
-/

namespace UringServer.Job

variable {Queue Task PushThread WorkThread : Type}

/-- The queue a `Push` is called on. -/
def Pusher.target : Pusher Queue Task → Option Queue
  | .idle => none
  | .appending queue _ _ | .registering queue => some queue

namespace State

/-- A pointer to `queue` is in `GlobalQueue`, or a worker executes it. -/
def Scheduled (state : State Queue Task PushThread WorkThread) (queue : Queue) : Prop :=
  queue ∈ state.globalQueue ∨ ∃ worker, (state.workers worker).target = some queue

/-- The queue is scheduled, or a call of `Push` on it has not returned. -/
def InUse (state : State Queue Task PushThread WorkThread) (queue : Queue) : Prop :=
  state.Scheduled queue ∨ ∃ pusher, (state.pushers pusher).target = some queue

instance [DecidableEq Queue] [Fintype PushThread] [Fintype WorkThread]
    (state : State Queue Task PushThread WorkThread) (queue : Queue) :
    Decidable (state.InUse queue) := by
  unfold InUse Scheduled
  infer_instance

variable {state : State Queue Task PushThread WorkThread}

theorem InUse.of_globalQueue {queue : Queue}
    (queued : queue ∈ state.globalQueue) : state.InUse queue :=
  .inl (.inl queued)

theorem InUse.of_worker {queue : Queue}
    {worker : WorkThread} {control : Worker Queue Task} (found : state.workers worker = control)
    (target : control.target = some queue) : state.InUse queue :=
  .inl (.inr ⟨worker, found ▸ target⟩)

theorem InUse.of_pusher {queue : Queue}
    {pusher : PushThread} {control : Pusher Queue Task} (found : state.pushers pusher = control)
    (target : control.target = some queue) : state.InUse queue :=
  .inr ⟨pusher, found ▸ target⟩

variable {state : State Queue Task PushThread WorkThread} {queue : Queue}

theorem InUse.setWorker [DecidableEq WorkThread] {worker : WorkThread} {control : Worker Queue Task}
    (used : (state.setWorker worker control).InUse queue) :
    state.InUse queue ∨ control.target = some queue := by
  obtain (queued | ⟨other, executes⟩) | pushes := used
  · exact .inl (.of_globalQueue queued)
  · by_cases same : other = worker
    · subst same
      simp only [setWorker_workers, Function.update_self] at executes
      exact .inr executes
    · simp only [setWorker_workers, Function.update_of_ne same] at executes
      exact .inl (.of_worker rfl executes)
  · exact .inl (.inr pushes)

theorem InUse.setPusher [DecidableEq PushThread] {pusher : PushThread} {control : Pusher Queue Task}
    (used : (state.setPusher pusher control).InUse queue) :
    state.InUse queue ∨ control.target = some queue := by
  obtain scheduled | ⟨other, pushes⟩ := used
  · exact .inl (.inl scheduled)
  · by_cases same : other = pusher
    · subst same
      simp only [setPusher_pushers, Function.update_self] at pushes
      exact .inr pushes
    · simp only [setPusher_pushers, Function.update_of_ne same] at pushes
      exact .inl (.of_pusher rfl pushes)

theorem InUse.globalPush {pushed : Queue} (used : (state.globalPush pushed).InUse queue) :
    state.InUse queue ∨ pushed = queue := by
  obtain (queued | executes) | pushes := used
  · simp only [globalPush_globalQueue, List.mem_append, List.mem_singleton] at queued
    exact queued.imp .of_globalQueue Eq.symm
  · exact .inl (.inl (.inr executes))
  · exact .inl (.inr pushes)

theorem InUse.globalPop (used : state.globalPop.InUse queue) : state.InUse queue := by
  obtain (queued | executes) | pushes := used
  · exact .of_globalQueue (List.mem_of_mem_tail queued)
  · exact .inl (.inr executes)
  · exact .inr pushes

/-- A step that moves a worker within `Execute` brings no other queue into use. -/
theorem InUse.of_execute [DecidableEq WorkThread] {worker : WorkThread}
    {before after : Worker Queue Task} (found : state.workers worker = before)
    (used : (state.setWorker worker after).InUse queue)
    (target : after.target = some queue → before.target = some queue) : state.InUse queue := by
  obtain earlier | executes := used.setWorker
  · exact earlier
  · exact .of_worker found (target executes)

end State

variable [DecidableEq Queue] [DecidableEq PushThread] [DecidableEq WorkThread]
  {state next : State Queue Task PushThread WorkThread} {queue : Queue}

/-- Only the call of a `Push` brings a queue into use. -/
theorem inUse_of_step {action : Action Queue Task PushThread WorkThread}
    (transition : step state action = some next) (used : next.InUse queue) :
    state.InUse queue ∨ ∃ pusher task, action = .fetchAdd pusher queue task := by
  cases action with
  | fetchAdd pusher target task =>
    simp only [step] at transition
    split at transition <;> cases transition
    obtain earlier | pushes := used.setPusher
    · exact .inl earlier
    · cases pushes
      exact .inr ⟨pusher, task, rfl⟩
  | pushBack pusher =>
    simp only [step] at transition
    split at transition <;> cases transition
    case h_1 found =>
      obtain earlier | pushes := used.setPusher
      · exact .inl earlier
      · refine .inl (.of_pusher found ?_)
        split_ifs at pushes
        · exact pushes
        · cases pushes
  | register pusher =>
    simp only [step] at transition
    split at transition <;> cases transition
    case h_1 found =>
      obtain registered | idle := used.setPusher
      · obtain earlier | same := registered.globalPush
        · exact .inl earlier
        · exact .inl (.of_pusher found (congrArg some same))
      · cases idle
  | tryPop worker deadline =>
    simp only [step] at transition
    split at transition <;> cases transition
    case h_1 front =>
      obtain popped | executes := used.setWorker
      · exact .inl popped.globalPop
      · cases executes
        exact .inl (.of_globalQueue (front ▸ List.mem_cons_self))
  | swapBatch worker | callJob worker | leaveLoop worker | putBack worker =>
    simp only [step] at transition
    split at transition <;> cases transition
    case h_1 found => exact .inl (.of_execute found used id)
  | jobReturned worker now | checkDeadline worker now =>
    simp only [step] at transition
    split at transition <;> cases transition
    case h_1 found => exact .inl (.of_execute found used (by split_ifs <;> exact id))
  | fetchSub worker =>
    simp only [step] at transition
    split at transition <;> cases transition
    case h_1 found => exact .inl (.of_execute found used (by split_ifs <;> simp [Worker.target]))
  | reregister worker =>
    simp only [step] at transition
    split at transition <;> cases transition
    case h_1 found =>
      obtain registered | idle := used.setWorker
      · obtain earlier | same := registered.globalPush
        · exact .inl earlier
        · exact .inl (.of_worker found (congrArg some same))
      · cases idle

end UringServer.Job
