import Mathlib.Tactic.Simps.Basic
import UringServer.Semantics.TransitionSystem

/-!
# `JobQueue` and `GlobalQueue` as atomic steps

Any number of `JobQueue`s share one `GlobalQueue`. Threads run `Push`, workers
run `TryPop` and then `Execute(deadline)` on the queue they popped. The atomic
steps are the `fetch_add` and `fetch_sub` on `job_count_`, each section under
the mutex of a `JobQueue`, and each `GlobalQueue` operation. Every reading of
the clock is an argument of the step that takes it, so it is arbitrary.

A `Push` made by a job while the job runs is a `Push` of its own pusher here,
which allows every interleaving the nested call has. `job_count_` has 32 bits, so
what follows about it is for queues with fewer than `2 ^ 31` outstanding jobs.
-/

namespace UringServer.Job

open UringServer.Semantics

/-- The members of a `JobQueue` that its operations read and write. -/
structure JobQueue (Job : Type) where
  jobs : List Job
  jobCount : Int32

/-- Where a call of `JobQueue::Push` stands. -/
inductive Pusher (Queue Job : Type) where
  | idle
  /-- After the `fetch_add`, before the `push_back`. -/
  | appending (queue : Queue) (job : Job) (prev : Int32)
  /-- After the `push_back` with `prev == 0`, before `gq_.Push(this)`. -/
  | registering (queue : Queue)

/-- Where a worker stands. `executed` is `executed_count` and `rest` is the part
of `batch` from index `executed_count` on, less a job being run. -/
inductive Worker (Queue Job : Type) where
  | idle
  /-- At the head of the loop in `Execute`, before the swap under the mutex. -/
  | swapping (queue : Queue) (deadline : Int)
  /-- In the loop over the batch, before the next job. -/
  | looping (queue : Queue) (deadline : Int) (executed : Nat) (rest : List Job)
  /-- Inside `job()`. -/
  | running (queue : Queue) (deadline : Int) (executed : Nat) (rest : List Job)
  /-- Past the loop, before unexecuted jobs are put back. -/
  | returning (queue : Queue) (deadline : Int) (executed : Nat) (rest : List Job)
  /-- Before the `fetch_sub`. -/
  | counting (queue : Queue) (deadline : Int) (executed : Nat)
  /-- After a `fetch_sub` that left `remaining > 0`, before the deadline check. -/
  | checking (queue : Queue) (deadline : Int) (executed : Nat)
  /-- Past the deadline, before `gq_.Push(this)`. -/
  | reregistering (queue : Queue)

/-- One atomic step. `now` is the reading of the steady clock in that step. -/
inductive Action (Queue Job PushThread WorkThread : Type) where
  | fetchAdd (pusher : PushThread) (queue : Queue) (job : Job)
  | pushBack (pusher : PushThread)
  | register (pusher : PushThread)
  | tryPop (worker : WorkThread) (deadline : Int)
  | swapBatch (worker : WorkThread)
  | callJob (worker : WorkThread)
  | jobReturned (worker : WorkThread) (now : Int)
  | leaveLoop (worker : WorkThread)
  | putBack (worker : WorkThread)
  | fetchSub (worker : WorkThread)
  | checkDeadline (worker : WorkThread) (now : Int)
  | reregister (worker : WorkThread)

/-- The queues, the `GlobalQueue`, and where every thread stands. `pushed` and
`executed` record for each queue the jobs in the order of their `push_back` and
of their calls; no step reads them. -/
structure State (Queue Job PushThread WorkThread : Type) where
  queues : Queue → JobQueue Job
  globalQueue : List Queue
  pushers : PushThread → Pusher Queue Job
  workers : WorkThread → Worker Queue Job
  pushed : Queue → List Job
  executed : Queue → List Job

variable {Queue Job PushThread WorkThread : Type}

/-- Nothing pushed, nothing registered, every thread idle. -/
def initial : State Queue Job PushThread WorkThread where
  queues := fun _ => ⟨[], 0⟩
  globalQueue := []
  pushers := fun _ => .idle
  workers := fun _ => .idle
  pushed := fun _ => []
  executed := fun _ => []

variable [DecidableEq Queue] [DecidableEq PushThread] [DecidableEq WorkThread]

namespace State

/-- Replace the members of one queue. -/
@[simps -fullyApplied]
def setQueue (state : State Queue Job PushThread WorkThread) (queue : Queue)
    (members : JobQueue Job) : State Queue Job PushThread WorkThread :=
  { state with queues := Function.update state.queues queue members }

/-- Move one pusher. -/
@[simps -fullyApplied]
def setPusher (state : State Queue Job PushThread WorkThread) (pusher : PushThread)
    (control : Pusher Queue Job) : State Queue Job PushThread WorkThread :=
  { state with pushers := Function.update state.pushers pusher control }

/-- Move one worker. -/
@[simps -fullyApplied]
def setWorker (state : State Queue Job PushThread WorkThread) (worker : WorkThread)
    (control : Worker Queue Job) : State Queue Job PushThread WorkThread :=
  { state with workers := Function.update state.workers worker control }

/-- Record a `push_back` of `job`. -/
@[simps -fullyApplied]
def logPushed (state : State Queue Job PushThread WorkThread) (queue : Queue) (job : Job) :
    State Queue Job PushThread WorkThread :=
  { state with pushed := Function.update state.pushed queue (state.pushed queue ++ [job]) }

/-- Record a call of `job`. -/
@[simps -fullyApplied]
def logExecuted (state : State Queue Job PushThread WorkThread) (queue : Queue) (job : Job) :
    State Queue Job PushThread WorkThread :=
  { state with executed := Function.update state.executed queue (state.executed queue ++ [job]) }

/-- `GlobalQueue::Push`. -/
@[simps -fullyApplied]
def globalPush (state : State Queue Job PushThread WorkThread) (queue : Queue) :
    State Queue Job PushThread WorkThread :=
  { state with globalQueue := state.globalQueue ++ [queue] }

/-- The `pop_front` of `GlobalQueue::TryPop`. -/
@[simps -fullyApplied]
def globalPop (state : State Queue Job PushThread WorkThread) :
    State Queue Job PushThread WorkThread :=
  { state with globalQueue := state.globalQueue.tail }

end State

/-- The steps of `JobQueue::Push`, `GlobalQueue::TryPop` and
`JobQueue::Execute(deadline)`. A `TryPop` on an empty `GlobalQueue` returns
`nullptr` and changes nothing, so it is no step. -/
def step (state : State Queue Job PushThread WorkThread) :
    Action Queue Job PushThread WorkThread → Option (State Queue Job PushThread WorkThread)
  | .fetchAdd pusher queue job =>
    match state.pushers pusher with
    | .idle =>
      let members := state.queues queue
      some ((state.setQueue queue { members with jobCount := members.jobCount + 1 }).setPusher
        pusher (.appending queue job members.jobCount))
    | _ => none
  | .pushBack pusher =>
    match state.pushers pusher with
    | .appending queue job prev =>
      let members := state.queues queue
      some (((state.setQueue queue { members with jobs := members.jobs ++ [job] }).logPushed
        queue job).setPusher pusher (if prev = 0 then .registering queue else .idle))
    | _ => none
  | .register pusher =>
    match state.pushers pusher with
    | .registering queue => some ((state.globalPush queue).setPusher pusher .idle)
    | _ => none
  | .tryPop worker deadline =>
    match state.workers worker, state.globalQueue with
    | .idle, queue :: _ => some (state.globalPop.setWorker worker (.swapping queue deadline))
    | _, _ => none
  | .swapBatch worker =>
    match state.workers worker with
    | .swapping queue deadline =>
      let members := state.queues queue
      some ((state.setQueue queue { members with jobs := [] }).setWorker worker
        (.looping queue deadline 0 members.jobs))
    | _ => none
  | .callJob worker =>
    match state.workers worker with
    | .looping queue deadline executed (job :: rest) =>
      some ((state.logExecuted queue job).setWorker worker
        (.running queue deadline executed rest))
    | _ => none
  | .jobReturned worker now =>
    match state.workers worker with
    | .running queue deadline executed rest =>
      some (state.setWorker worker
        (if now ≥ deadline then .returning queue deadline (executed + 1) rest
         else .looping queue deadline (executed + 1) rest))
    | _ => none
  | .leaveLoop worker =>
    match state.workers worker with
    | .looping queue deadline executed [] =>
      some (state.setWorker worker (.returning queue deadline executed []))
    | _ => none
  | .putBack worker =>
    match state.workers worker with
    | .returning queue deadline executed rest =>
      -- With no job left over the source takes no lock and inserts nothing.
      let members := state.queues queue
      some ((state.setQueue queue { members with jobs := rest ++ members.jobs }).setWorker
        worker (.counting queue deadline executed))
    | _ => none
  | .fetchSub worker =>
    match state.workers worker with
    | .counting queue deadline executed =>
      let members := state.queues queue
      let remaining := members.jobCount - .ofNat executed
      some ((state.setQueue queue { members with jobCount := remaining }).setWorker worker
        (if remaining ≤ 0 then .idle else .checking queue deadline executed))
    | _ => none
  | .checkDeadline worker now =>
    match state.workers worker with
    | .checking queue deadline _ =>
      -- `executed_count == 0` only yields the processor before the next round.
      some (state.setWorker worker
        (if now ≥ deadline then .reregistering queue else .swapping queue deadline))
    | _ => none
  | .reregister worker =>
    match state.workers worker with
    | .reregistering queue => some ((state.globalPush queue).setWorker worker .idle)
    | _ => none

/-- What one step does, by the branch of the source it takes. -/
inductive Effect (state : State Queue Job PushThread WorkThread) :
    State Queue Job PushThread WorkThread → Prop where
  | fetchAdd (pusher : PushThread) (queue : Queue) (job : Job)
      (found : state.pushers pusher = .idle) :
      Effect state ((state.setQueue queue
          ⟨(state.queues queue).jobs, (state.queues queue).jobCount + 1⟩).setPusher pusher
        (.appending queue job (state.queues queue).jobCount))
  | pushBack (pusher : PushThread) (queue : Queue) (job : Job) (prev : Int32)
      (found : state.pushers pusher = .appending queue job prev) :
      Effect state (((state.setQueue queue
          ⟨(state.queues queue).jobs ++ [job], (state.queues queue).jobCount⟩).logPushed
        queue job).setPusher pusher (if prev = 0 then .registering queue else .idle))
  | register (pusher : PushThread) (queue : Queue)
      (found : state.pushers pusher = .registering queue) :
      Effect state ((state.globalPush queue).setPusher pusher .idle)
  | tryPop (worker : WorkThread) (deadline : Int) (queue : Queue) (remaining : List Queue)
      (found : state.workers worker = .idle) (front : state.globalQueue = queue :: remaining) :
      Effect state (state.globalPop.setWorker worker (.swapping queue deadline))
  | swapBatch (worker : WorkThread) (queue : Queue) (deadline : Int)
      (found : state.workers worker = .swapping queue deadline) :
      Effect state ((state.setQueue queue ⟨[], (state.queues queue).jobCount⟩).setWorker worker
        (.looping queue deadline 0 (state.queues queue).jobs))
  | callJob (worker : WorkThread) (queue : Queue) (deadline : Int) (executed : Nat) (job : Job)
      (rest : List Job)
      (found : state.workers worker = .looping queue deadline executed (job :: rest)) :
      Effect state ((state.logExecuted queue job).setWorker worker
        (.running queue deadline executed rest))
  | breakLoop (worker : WorkThread) (queue : Queue) (deadline : Int) (executed : Nat)
      (rest : List Job) (found : state.workers worker = .running queue deadline executed rest) :
      Effect state (state.setWorker worker (.returning queue deadline (executed + 1) rest))
  | nextJob (worker : WorkThread) (queue : Queue) (deadline : Int) (executed : Nat)
      (rest : List Job) (found : state.workers worker = .running queue deadline executed rest) :
      Effect state (state.setWorker worker (.looping queue deadline (executed + 1) rest))
  | leaveLoop (worker : WorkThread) (queue : Queue) (deadline : Int) (executed : Nat)
      (found : state.workers worker = .looping queue deadline executed []) :
      Effect state (state.setWorker worker (.returning queue deadline executed []))
  | putBack (worker : WorkThread) (queue : Queue) (deadline : Int) (executed : Nat)
      (rest : List Job) (found : state.workers worker = .returning queue deadline executed rest) :
      Effect state ((state.setQueue queue
          ⟨rest ++ (state.queues queue).jobs, (state.queues queue).jobCount⟩).setWorker worker
        (.counting queue deadline executed))
  | drained (worker : WorkThread) (queue : Queue) (deadline : Int) (executed : Nat)
      (found : state.workers worker = .counting queue deadline executed)
      (nothingLeft : (state.queues queue).jobCount - .ofNat executed ≤ 0) :
      Effect state ((state.setQueue queue
          ⟨(state.queues queue).jobs,
            (state.queues queue).jobCount - .ofNat executed⟩).setWorker worker
        .idle)
  | remains (worker : WorkThread) (queue : Queue) (deadline : Int) (executed : Nat)
      (found : state.workers worker = .counting queue deadline executed)
      (someLeft : ¬ (state.queues queue).jobCount - .ofNat executed ≤ 0) :
      Effect state ((state.setQueue queue
          ⟨(state.queues queue).jobs,
            (state.queues queue).jobCount - .ofNat executed⟩).setWorker worker
        (.checking queue deadline executed))
  | expired (worker : WorkThread) (queue : Queue) (deadline : Int) (executed : Nat)
      (found : state.workers worker = .checking queue deadline executed) :
      Effect state (state.setWorker worker (.reregistering queue))
  | nextRound (worker : WorkThread) (queue : Queue) (deadline : Int) (executed : Nat)
      (found : state.workers worker = .checking queue deadline executed) :
      Effect state (state.setWorker worker (.swapping queue deadline))
  | reregister (worker : WorkThread) (queue : Queue)
      (found : state.workers worker = .reregistering queue) :
      Effect state ((state.globalPush queue).setWorker worker .idle)

/-- Every step has one of the listed effects. -/
theorem step_effect {state next : State Queue Job PushThread WorkThread}
    {action : Action Queue Job PushThread WorkThread}
    (transition : step state action = some next) : Effect state next := by
  cases action with
  | fetchAdd pusher queue job =>
    simp only [step] at transition
    split at transition <;> cases transition
    exact .fetchAdd pusher queue job ‹_›
  | pushBack pusher =>
    simp only [step] at transition
    split at transition <;> cases transition
    exact .pushBack pusher _ _ _ ‹_›
  | register pusher =>
    simp only [step] at transition
    split at transition <;> cases transition
    exact .register pusher _ ‹_›
  | tryPop worker deadline =>
    simp only [step] at transition
    split at transition <;> cases transition
    exact .tryPop worker deadline _ _ ‹_› ‹_›
  | swapBatch worker =>
    simp only [step] at transition
    split at transition <;> cases transition
    exact .swapBatch worker _ _ ‹_›
  | callJob worker =>
    simp only [step] at transition
    split at transition <;> cases transition
    exact .callJob worker _ _ _ _ _ ‹_›
  | jobReturned worker now =>
    simp only [step] at transition
    split at transition <;> cases transition
    split
    · exact .breakLoop worker _ _ _ _ ‹_›
    · exact .nextJob worker _ _ _ _ ‹_›
  | leaveLoop worker =>
    simp only [step] at transition
    split at transition <;> cases transition
    exact .leaveLoop worker _ _ _ ‹_›
  | putBack worker =>
    simp only [step] at transition
    split at transition <;> cases transition
    exact .putBack worker _ _ _ _ ‹_›
  | fetchSub worker =>
    simp only [step] at transition
    split at transition <;> cases transition
    split
    case isTrue found nothingLeft => exact .drained worker _ _ _ ‹_› nothingLeft
    case isFalse found someLeft => exact .remains worker _ _ _ ‹_› someLeft
  | checkDeadline worker now =>
    simp only [step] at transition
    split at transition <;> cases transition
    split
    · exact .expired worker _ _ _ ‹_›
    · exact .nextRound worker _ _ _ ‹_›
  | reregister worker =>
    simp only [step] at transition
    split at transition <;> cases transition
    exact .reregister worker _ ‹_›

/-- The queues, pushers and workers as one program. -/
def system (Queue Job PushThread WorkThread : Type)
    [DecidableEq Queue] [DecidableEq PushThread] [DecidableEq WorkThread] :
    TransitionSystem (State Queue Job PushThread WorkThread)
      (Action Queue Job PushThread WorkThread) where
  Initial := fun state => state = initial
  step := step

end UringServer.Job
