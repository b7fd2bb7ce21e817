import Mathlib.Tactic.Simps.Basic
import UringServer.Semantics.PriorityQueue
import UringServer.Semantics.TransitionSystem

/-!
# `JobTimer` as atomic steps

Any number of threads reserve jobs and distribute the expired ones. A call of
`Reserve` or `DistributeExpired` reads the steady clock before it takes the
mutex, so other threads may come between. `DistributeExpired` keeps the mutex
for its whole loop, in which the clock goes on and targets may still go away;
each pass of the loop is a step. Which of several jobs with the same time the
priority queue has on top is left open.
-/

namespace UringServer.Job

open UringServer.Semantics

/-- `ReservedJob`, with the time in nanoseconds. -/
structure ReservedJob (Target Job : Type) where
  executeAt : Int
  target : Target
  job : Job
deriving DecidableEq

/-- Where a thread stands. -/
inductive TimerCaller (Target Job : Type) where
  | idle
  /-- In `Reserve`, after reading the clock, before the mutex. -/
  | reserving (reserved : ReservedJob Target Job)
  /-- In `DistributeExpired`, after reading the clock, before the mutex. -/
  | locking (now : Int)
  /-- In the loop of `DistributeExpired`, with the jobs that it has taken out. -/
  | looping (now : Int) (taken : List (ReservedJob Target Job))

/-- One atomic step. -/
inductive TimerAction (Thread Target Job : Type) where
  /-- The steady clock goes on. -/
  | elapse (later : Int)
  /-- The last owner of a `JobQueue` lets it go. -/
  | expire (target : Target)
  | readDelay (thread : Thread) (milliseconds : Int) (target : Target) (job : Job)
  | push (thread : Thread)
  | readNow (thread : Thread)
  | lock (thread : Thread)
  | popTop (thread : Thread)
  | leave (thread : Thread)

/-- The timer, the clock and the threads. `reserved`, `delivered` and `dropped` record what has
been put into the queue, pushed to its target, with the time then, and thrown away; no step reads
them. -/
structure TimerState (Thread Target Job : Type) where
  clock : Int
  alive : Target → Bool
  queue : List (ReservedJob Target Job)
  /-- The owner of `mutex_` within the loop. -/
  holder : Option Thread
  callers : Thread → TimerCaller Target Job
  reserved : List (ReservedJob Target Job)
  delivered : List (ReservedJob Target Job × Int)
  dropped : List (ReservedJob Target Job)

variable {Thread Target Job : Type} [DecidableEq Thread] [DecidableEq Target]

namespace TimerState

/-- An empty timer, with every target alive. -/
def initial (clock : Int) : TimerState Thread Target Job where
  clock := clock
  alive := fun _ => true
  queue := []
  holder := none
  callers := fun _ => .idle
  reserved := []
  delivered := []
  dropped := []

omit [DecidableEq Target] in
/-- Move one thread. -/
@[simps -fullyApplied]
def setCaller (state : TimerState Thread Target Job) (thread : Thread)
    (caller : TimerCaller Target Job) : TimerState Thread Target Job :=
  { state with callers := Function.update state.callers thread caller }

/-- `target.lock()` and, with an owner, `owner->Push`. -/
def deliver (state : TimerState Thread Target Job) (job : ReservedJob Target Job) :
    TimerState Thread Target Job :=
  if state.alive job.target then
    { state with delivered := state.delivered ++ [(job, state.clock)] }
  else { state with dropped := state.dropped ++ [job] }

end TimerState

variable (order : LeastFirst (ReservedJob Target Job) ReservedJob.executeAt)

/-- The steps of `Reserve` and `DistributeExpired`, of the clock and of the targets. -/
def timerStep (state : TimerState Thread Target Job) :
    TimerAction Thread Target Job → Option (TimerState Thread Target Job)
  | .elapse later => if state.clock ≤ later then some { state with clock := later } else none
  | .expire target => some { state with alive := Function.update state.alive target false }
  | .readDelay thread milliseconds target job =>
    match state.callers thread with
    | .idle => some (state.setCaller thread
        (.reserving ⟨state.clock + milliseconds * 1000000, target, job⟩))
    | _ => none
  | .push thread =>
    match state.callers thread, state.holder with
    | .reserving job, none =>
      some ({ state with
        queue := state.queue ++ [job]
        reserved := state.reserved ++ [job] }.setCaller thread .idle)
    | _, _ => none
  | .readNow thread =>
    match state.callers thread with
    | .idle => some (state.setCaller thread (.locking state.clock))
    | _ => none
  | .lock thread =>
    match state.callers thread, state.holder with
    | .locking now, none =>
      some ({ state with holder := some thread }.setCaller thread (.looping now []))
    | _, _ => none
  | .popTop thread =>
    match state.callers thread, order.pop state.queue with
    | .looping now taken, some (job, rest) =>
      if job.executeAt ≤ now then
        some (({ state with queue := rest }.deliver job).setCaller thread
          (.looping now (taken ++ [job])))
      else none
    | _, _ => none
  | .leave thread =>
    match state.callers thread, order.pop state.queue with
    | .looping _ _, none => some ({ state with holder := none }.setCaller thread .idle)
    | .looping now _, some (job, _) =>
      if job.executeAt ≤ now then none
      else some ({ state with holder := none }.setCaller thread .idle)
    | _, _ => none

/-- The timer with its threads. -/
def timerSystem : TransitionSystem (TimerState Thread Target Job) (TimerAction Thread Target Job)
    where
  Initial := fun state => ∃ clock, state = .initial clock
  step := timerStep order

theorem timerSystem_initial (clock : Int) :
    (timerSystem order).Initial (.initial clock : TimerState Thread Target Job) := ⟨clock, rfl⟩

/-- What one step does. -/
inductive TimerEffect (state : TimerState Thread Target Job) :
    TimerAction Thread Target Job → TimerState Thread Target Job → Prop where
  | elapse (later : Int) (forward : state.clock ≤ later) :
      TimerEffect state (.elapse later) { state with clock := later }
  | expire (target : Target) :
      TimerEffect state (.expire target)
        { state with alive := Function.update state.alive target false }
  | readDelay (thread : Thread) (milliseconds : Int) (target : Target) (job : Job)
      (found : state.callers thread = .idle) :
      TimerEffect state (.readDelay thread milliseconds target job) (state.setCaller thread
        (.reserving ⟨state.clock + milliseconds * 1000000, target, job⟩))
  | push (thread : Thread) (job : ReservedJob Target Job)
      (found : state.callers thread = .reserving job) (free : state.holder = none) :
      TimerEffect state (.push thread) ({ state with
        queue := state.queue ++ [job]
        reserved := state.reserved ++ [job] }.setCaller thread .idle)
  | readNow (thread : Thread) (found : state.callers thread = .idle) :
      TimerEffect state (.readNow thread) (state.setCaller thread (.locking state.clock))
  | lock (thread : Thread) (now : Int) (found : state.callers thread = .locking now)
      (free : state.holder = none) :
      TimerEffect state (.lock thread)
        ({ state with holder := some thread }.setCaller thread (.looping now []))
  | popTop (thread : Thread) (now : Int) (taken : List (ReservedJob Target Job))
      (job : ReservedJob Target Job) (rest : List (ReservedJob Target Job))
      (found : state.callers thread = .looping now taken)
      (perm : state.queue.Perm (job :: rest))
      (least : ∀ other ∈ rest, job.executeAt ≤ other.executeAt) (due : job.executeAt ≤ now) :
      TimerEffect state (.popTop thread)
        (({ state with queue := rest }.deliver job).setCaller thread
          (.looping now (taken ++ [job])))
  | leave (thread : Thread) (now : Int) (taken : List (ReservedJob Target Job))
      (found : state.callers thread = .looping now taken)
      (notDue : ∀ job ∈ state.queue, now < job.executeAt) :
      TimerEffect state (.leave thread) ({ state with holder := none }.setCaller thread .idle)

variable {order}

/-- Every step has one of the listed effects. -/
theorem timerStep_effect {state next : TimerState Thread Target Job}
    {action : TimerAction Thread Target Job}
    (transition : timerStep order state action = some next) :
    TimerEffect state action next := by
  cases action with
  | elapse later =>
    simp only [timerStep] at transition
    split at transition <;> cases transition
    exact .elapse later ‹_›
  | expire target =>
    cases transition
    exact .expire target
  | readDelay thread milliseconds target job =>
    simp only [timerStep] at transition
    split at transition <;> cases transition
    exact .readDelay thread milliseconds target job ‹_›
  | push thread =>
    simp only [timerStep] at transition
    split at transition <;> cases transition
    exact .push thread _ ‹_› ‹_›
  | readNow thread =>
    simp only [timerStep] at transition
    split at transition <;> cases transition
    exact .readNow thread ‹_›
  | lock thread =>
    simp only [timerStep] at transition
    split at transition <;> cases transition
    exact .lock thread _ ‹_› ‹_›
  | popTop thread =>
    simp only [timerStep] at transition
    split at transition
    case h_1 now taken job rest found popped =>
      split at transition <;> cases transition
      exact .popTop thread now taken job rest found (order.perm popped) (order.least popped) ‹_›
    case h_2 => cases transition
  | leave thread =>
    simp only [timerStep] at transition
    split at transition
    case h_1 now taken found nothing =>
      cases transition
      refine .leave thread now taken found fun job member => ?_
      rw [order.empty nothing] at member
      cases member
    case h_2 now taken job rest found popped =>
      split at transition
      case isTrue => cases transition
      case isFalse later =>
        cases transition
        refine .leave thread now taken found fun other member => ?_
        rcases (LeastFirst.mem_iff popped).mp member with rfl | behind
        · omega
        · have least := order.least popped other behind
          omega
    case h_3 => cases transition

end UringServer.Job
