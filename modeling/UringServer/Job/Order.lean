import UringServer.Job.Serialization
import UringServer.Semantics.Fifo

/-!
# Jobs run once and in the order of their `push_back`

A batch is swapped out of `jobs_`, run in part, and the rest is put back in front
of the jobs pushed meanwhile, by one worker after another. `Ordered` says that
this never disturbs the sequence: the jobs run so far, then what the executing
worker has left of its batch, then `jobs_`, are the jobs in the order of their
`push_back`. `Accounted` is what makes the executing worker unique. To its users a
`JobQueue` is then a first in, first out queue that is popped by calling a job.
-/

namespace UringServer.Job

open UringServer.Semantics

variable {Queue Job PushThread WorkThread : Type}

/-- The jobs of its batch that a worker has not run yet. -/
def Worker.unrun : Worker Queue Job → List Job
  | .looping _ _ _ rest | .running _ _ _ rest | .returning _ _ _ rest => rest
  | _ => []

/-- The jobs of a queue, read off in order, are the jobs pushed to it. -/
structure Ordered (state : State Queue Job PushThread WorkThread) (queue : Queue) : Prop where
  executing : ∀ worker, (state.workers worker).target = some queue →
    state.executed queue ++ (state.workers worker).unrun ++ (state.queues queue).jobs =
      state.pushed queue
  unattended : (∀ worker, (state.workers worker).target ≠ some queue) →
    state.executed queue ++ (state.queues queue).jobs = state.pushed queue

theorem ordered_initial (queue : Queue) :
    Ordered (initial : State Queue Job PushThread WorkThread) queue := by
  constructor
  · intro worker executing
    cases executing
  · intro _
    rfl

variable {state next : State Queue Job PushThread WorkThread} {queue : Queue}

/-- The order of a queue does not depend on threads that do not execute it. -/
theorem Ordered.congr (ordered : Ordered state queue)
    (executed : next.executed queue = state.executed queue)
    (jobs : (next.queues queue).jobs = (state.queues queue).jobs)
    (pushed : next.pushed queue = state.pushed queue)
    (workers : ∀ worker, next.workers worker = state.workers worker ∨
      ((next.workers worker).target ≠ some queue ∧ (state.workers worker).target ≠ some queue)) :
    Ordered next queue := by
  constructor
  · intro worker executing
    rw [executed, jobs, pushed]
    rcases workers worker with same | ⟨elsewhere, _⟩
    · rw [same] at executing ⊢
      exact ordered.executing worker executing
    · exact absurd executing elsewhere
  · intro unattended
    rw [executed, jobs, pushed]
    apply ordered.unattended
    intro worker
    rcases workers worker with same | ⟨_, elsewhere⟩
    · rw [← same]
      exact unattended worker
    · exact elsewhere

/-- The jobs run so far are a prefix of the jobs pushed. -/
theorem Ordered.executed_prefix (ordered : Ordered state queue) :
    state.executed queue <+: state.pushed queue := by
  by_cases attended : ∃ worker, (state.workers worker).target = some queue
  · obtain ⟨worker, executing⟩ := attended
    rw [← ordered.executing worker executing, List.append_assoc]
    exact List.prefix_append _ _
  · rw [← ordered.unattended (not_exists.mp attended)]
    exact List.prefix_append _ _

section Threads

variable [DecidableEq WorkThread] {worker : WorkThread} {control : Worker Queue Job}

/-- A worker's step decides the order of a queue that no other worker executes,
and leaves alone one that it does not execute. -/
theorem Ordered.worker_moved (moved : next.workers = Function.update state.workers worker control)
    (only : ∀ other, other ≠ worker → (state.workers other).target ≠ some queue)
    (continues : control.target = some queue ∨ control.unrun = [])
    (equation : next.executed queue ++ control.unrun ++ (next.queues queue).jobs =
      next.pushed queue) :
    Ordered next queue := by
  constructor
  · intro other executing
    rw [moved] at executing ⊢
    by_cases same : other = worker
    · rw [same, Function.update_self]
      exact equation
    · rw [Function.update_of_ne same] at executing
      exact absurd executing (only other same)
  · intro unattended
    have elsewhere := unattended worker
    rw [moved, Function.update_self] at elsewhere
    rw [continues.resolve_left elsewhere, List.append_nil] at equation
    exact equation

/-- A worker's step within `Execute` of `target` keeps the order of every queue
if it keeps that of `target` and touches the jobs of no other. -/
theorem Ordered.within_execute (ordered : Ordered state queue)
    (single : ∀ first second, (state.workers first).target = some queue →
      (state.workers second).target = some queue → first = second)
    {target : Queue} (moved : next.workers = Function.update state.workers worker control)
    (was : (state.workers worker).target = some target)
    (becomes : control.target = some target ∨ (control.target = none ∧ control.unrun = []))
    (elsewhere : target ≠ queue → next.executed queue = state.executed queue ∧
      (next.queues queue).jobs = (state.queues queue).jobs ∧
      next.pushed queue = state.pushed queue)
    (here : target = queue →
      state.executed queue ++ (state.workers worker).unrun ++ (state.queues queue).jobs =
        state.pushed queue →
      next.executed queue ++ control.unrun ++ (next.queues queue).jobs = next.pushed queue) :
    Ordered next queue := by
  by_cases same : target = queue
  · rw [same] at was becomes
    apply Ordered.worker_moved moved
    · intro other different executing
      exact different (single other worker executing was)
    · exact becomes.imp_right And.right
    · exact here same (ordered.executing worker was)
  · obtain ⟨executed, jobs, pushed⟩ := elsewhere same
    apply ordered.congr executed jobs pushed
    intro other
    rw [moved]
    by_cases own : other = worker
    · right
      rw [own, Function.update_self, was]
      have apart : some target ≠ some queue := by simpa using same
      refine ⟨?_, apart⟩
      rcases becomes with stays | ⟨leaves, _⟩
      · rwa [stays]
      · rw [leaves]
        exact Option.some_ne_none queue |>.symm
    · left
      rw [Function.update_of_ne own]

/-- A worker that moves on within `Execute` with what it has left of its batch
keeps the order. -/
theorem Ordered.setWorker (ordered : Ordered state queue)
    (single : ∀ first second, (state.workers first).target = some queue →
      (state.workers second).target = some queue → first = second)
    {target : Queue}
    (was : (state.workers worker).target = some target) (stays : control.target = some target)
    (unrun : (state.workers worker).unrun = control.unrun) :
    Ordered (state.setWorker worker control) queue := by
  refine ordered.within_execute single rfl was (.inl stays) ?_ ?_
  · exact fun _ => ⟨rfl, rfl, rfl⟩
  · intro _ before
    rw [← unrun]
    exact before

variable [DecidableEq Queue] [DecidableEq PushThread] [Fintype PushThread] [Fintype WorkThread]

/-- The popped entry was the queue's only holder, so nobody executes it yet. -/
theorem Ordered.tryPop (ordered : Ordered state queue) (accounted : Accounted state queue)
    (deadline : Int) {target : Queue} {remaining : List Queue}
    (found : state.workers worker = .idle) (front : state.globalQueue = target :: remaining) :
    Ordered (state.globalPop.setWorker worker (.swapping target deadline)) queue := by
  by_cases same : target = queue
  · subst same
    have entered : Holds state target (.entry 0) := by simp [Holds, front]
    have idle : ∀ other, (state.workers other).target ≠ some target := by
      intro other executing
      have executes : Holds state target (.execute other) := executing
      cases accounted.holder_unique entered executes
    apply Ordered.worker_moved rfl
    · exact fun other _ => idle other
    · exact .inl rfl
    · simpa [Worker.unrun] using ordered.unattended idle
  · refine ordered.congr ?_ ?_ ?_ ?_
    · rfl
    · rfl
    · rfl
    intro other
    by_cases own : other = worker
    · right
      simp [own, found, Worker.target, same]
    · left
      simp [Function.update_of_ne own]

/-- Every step keeps the order of every queue. -/
theorem Ordered.effect (ordered : Ordered state queue) (accounted : Accounted state queue)
    (effect : Effect state next) : Ordered next queue := by
  have single : ∀ first second, (state.workers first).target = some queue →
      (state.workers second).target = some queue → first = second := by
    intro first second
    exact accounted.executor_unique
  cases effect with
  | fetchAdd pusher target job found =>
    refine ordered.congr rfl ?_ rfl fun _ => .inl rfl
    by_cases same : queue = target
    · simp [same]
    · simp [Function.update_of_ne same]
  | pushBack pusher target job prev found =>
    by_cases same : queue = target
    · subst same
      constructor
      · intro worker executing
        have before := ordered.executing worker executing
        simp [← before]
      · intro unattended
        have before := ordered.unattended unattended
        simp [← before]
    · refine ordered.congr rfl ?_ ?_ fun _ => .inl rfl
      · simp [Function.update_of_ne same]
      · simp [Function.update_of_ne same]
  | register pusher target found => exact ordered.congr rfl rfl rfl fun _ => .inl rfl
  | tryPop worker deadline target remaining found front =>
    exact ordered.tryPop accounted deadline found front
  | swapBatch worker target deadline found
  | callJob worker target deadline executed job rest found
  | putBack worker target deadline executed rest found
  | remains worker target deadline executed found someLeft =>
    refine ordered.within_execute single rfl (by rw [found]; rfl) (.inl rfl) ?_ ?_
    · intro other
      simp [Function.update_of_ne other.symm]
    · rintro rfl before
      simpa [found, Worker.unrun] using before
  | breakLoop worker target deadline executed rest found
  | nextJob worker target deadline executed rest found
  | leaveLoop worker target deadline executed found
  | expired worker target deadline executed found
  | nextRound worker target deadline executed found =>
    exact ordered.setWorker single (by rw [found]; rfl) rfl (by rw [found]; rfl)
  | drained worker target deadline executed found nothingLeft =>
    refine ordered.within_execute single rfl (by rw [found]; rfl) (.inr ⟨rfl, rfl⟩) ?_ ?_
    · intro other
      simp [Function.update_of_ne other.symm]
    · rintro rfl before
      simpa [found, Worker.unrun] using before
  | reregister worker target found =>
    refine ordered.within_execute single rfl (by rw [found]; rfl) (.inr ⟨rfl, rfl⟩) ?_ ?_
    · exact fun _ => ⟨rfl, rfl, rfl⟩
    · rintro rfl before
      simpa [found, Worker.unrun] using before

/-- The queue of jobs that a state stands for. -/
def State.fifo (queue : Queue) (state : State Queue Job PushThread WorkThread) : Fifo Job where
  pushed := state.pushed queue
  queue := (state.pushed queue).drop (state.executed queue).length
  popped := state.executed queue

omit [Fintype PushThread] [Fintype WorkThread] in
/-- A `push_back` pushes, the call of a job pops, and no other step does either. -/
theorem Effect.grows (effect : Effect state next) (queue : Queue) :
    (state.fifo queue).Grows (next.fifo queue) := by
  cases effect with
  | pushBack pusher target job prev found =>
    by_cases same : queue = target
    · subst same
      exact .push job (Function.update_self ..) rfl
    · exact .quiet (Function.update_of_ne same ..) rfl
  | callJob worker target deadline executed job rest found =>
    by_cases same : queue = target
    · subst same
      exact .pop job rfl (Function.update_self ..)
    · exact .quiet rfl (Function.update_of_ne same ..)
  | _ => exact .quiet rfl rfl

/-- Every queue refines a first in, first out queue. -/
theorem system_refines_fifo (queue : Queue) :
    (system Queue Job PushThread WorkThread).Refines CountFits (Fifo.system Job)
      (fun state fifo => (∀ queue, Accounted state queue ∧ Ordered state queue) ∧
        fifo = state.fifo queue) := by
  apply Fifo.refines
  · rintro _ rfl
    exact ⟨fun queue => ⟨accounted_initial queue, ordered_initial queue⟩, rfl⟩
  · intro state holds
    obtain ⟨_, ordered⟩ := holds queue
    exact (List.prefix_iff_eq_append.mp ordered.executed_prefix).symm
  · intro state action next holds countable transition
    have effect := step_effect transition
    refine ⟨?_, effect.grows queue⟩
    intro other
    obtain ⟨accounted, ordered⟩ := holds other
    exact ⟨accounted.effect (countable other) effect, ordered.effect accounted effect⟩

/-- Every queue is in order in every reachable state. -/
theorem reachable_ordered
    (reachable : (system Queue Job PushThread WorkThread).Reachable CountFits state)
    (queue : Queue) : Ordered state queue := by
  obtain ⟨_, _, holds, _⟩ := (system_refines_fifo queue).exists_represented reachable
  exact (holds queue).2

/-- As long as `job_count_` can count the outstanding jobs, the executed jobs, the jobs its
executor has not yet run, and `jobs_` are together the pushed jobs in order. No job runs twice, and
once every thread is idle and `GlobalQueue` is empty every pushed job has run. -/
theorem jobQueue_runs_once_in_order
    (reachable : (system Queue Job PushThread WorkThread).Reachable CountFits state)
    (queue : Queue) :
    (∀ worker, (state.workers worker).target = some queue →
      state.executed queue ++ (state.workers worker).unrun ++ (state.queues queue).jobs =
        state.pushed queue) ∧
    ((∀ worker, (state.workers worker).target ≠ some queue) →
      state.executed queue ++ (state.queues queue).jobs = state.pushed queue) ∧
    state.executed queue <+: state.pushed queue ∧
    ((state.pushed queue).Nodup → (state.executed queue).Nodup) ∧
    ((∀ pusher, state.pushers pusher = .idle) → (∀ worker, state.workers worker = .idle) →
      state.globalQueue = [] → state.executed queue = state.pushed queue) := by
  have ordered := reachable_ordered reachable queue
  refine ⟨ordered.executing, ordered.unattended, ordered.executed_prefix, ?_, ?_⟩
  · intro distinct
    exact distinct.sublist ordered.executed_prefix.sublist
  · intro pushersIdle workersIdle nothingRegistered
    have unattended : ∀ worker, (state.workers worker).target ≠ some queue := by
      intro worker
      rw [workersIdle worker]
      exact Option.some_ne_none queue |>.symm
    have nobody : ∀ holder, ¬ Holds state queue holder := by
      rintro (pusher | position | worker) holding
      · simp [Holds, pushersIdle] at holding
      · simp [Holds, nothingRegistered] at holding
      · exact unattended worker holding
    have empty : (state.queues queue).jobs = [] := by
      by_contra nonempty
      obtain ⟨holder, holding⟩ := (reachable_accounted reachable queue).exists_holds nonempty
      exact nobody holder holding
    have inOrder := ordered.unattended unattended
    rwa [empty, List.append_nil] at inOrder

end Threads

/-- The second of two jobs, put back at the deadline, still runs before a third
that was pushed while the first ran; with everything idle all three have run. -/
theorem jobQueue_runs_once_in_order_across_deadline :
    ∃ state : State Unit Nat (Fin 1) (Fin 2),
      (system Unit Nat (Fin 1) (Fin 2)).Reachable CountFits state ∧
      state.executed () = state.pushed () ∧ state.pushed () = [7, 8, 9] := by
  obtain ⟨state, executed, pushed, pushers, workers, registered⟩ :
      ∃ state : State Unit Nat (Fin 1) (Fin 2),
      (system Unit Nat (Fin 1) (Fin 2)).execute CountFits initial
        [.fetchAdd 0 () 7, .pushBack 0, .register 0, .fetchAdd 0 () 8, .pushBack 0,
          .tryPop 0 10, .swapBatch 0, .callJob 0, .fetchAdd 0 () 9, .pushBack 0,
          .jobReturned 0 10, .putBack 0, .fetchSub 0, .checkDeadline 0 11, .reregister 0,
          .tryPop 1 50, .swapBatch 1, .callJob 1, .jobReturned 1 20, .callJob 1,
          .jobReturned 1 21, .leaveLoop 1, .putBack 1, .fetchSub 1] = some state ∧
      state.pushed () = [7, 8, 9] ∧ state.pushers 0 = .idle ∧
      (state.workers 0 = .idle ∧ state.workers 1 = .idle) ∧ state.globalQueue = [] :=
    ⟨_, rfl, rfl, rfl, ⟨rfl, rfl⟩, rfl⟩
  have reachable := TransitionSystem.Reachable.execute (.initial rfl) executed
  obtain ⟨_, _, _, _, finished⟩ := jobQueue_runs_once_in_order reachable ()
  refine ⟨state, reachable, finished ?_ ?_ registered, pushed⟩
  · intro pusher
    rwa [Subsingleton.elim pusher 0]
  · intro worker
    match worker with
    | 0 => exact workers.1
    | 1 => exact workers.2

end UringServer.Job
