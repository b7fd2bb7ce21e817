import UringServer.Storage.PgDelivery

/-!
# Callbacks in the scope of the lock

On a pool that stops `Submit` runs the callback with `mutex_` held. Until it returns
nobody else gets the mutex: no worker takes a job, no other call of `Submit` goes on and
`Stop` does not begin. If the callback calls `Submit` itself, its thread waits for a
mutex that it holds, and then it never returns.
-/

namespace UringServer.Storage

open UringServer.Semantics UringServer.Ring

variable {count : Nat} {Query Rows : Type}

/-- The pool, with the callback that runs in the scope of the lock. -/
structure LockedPool (count : Nat) (Query Rows : Type) where
  pool : PgWorkerPool count Query Rows := {}
  /-- The ring whose thread holds `mutex_` while it runs the callback. -/
  holder : Option RingId := none
  /-- That callback has called `Submit`. -/
  relocked : Bool := false

/-- The steps of the pool, and the return of the callback that runs in the scope of the lock. -/
inductive LockedAction (count : Nat) (Query Rows : Type) where
  | pool (action : PoolAction count Query Rows)
  | callbackReturns

/-- The ring of the thread that calls `Submit`. -/
def PoolAction.submitter : PoolAction count Query Rows → Option RingId
  | .submit _ _ reply => reply
  | _ => none

/-- Whether a step needs the mutex. -/
def PoolAction.locks : PoolAction count Query Rows → Bool
  | .submit _ _ reply => reply.isSome
  | .check _ | .beginStop => true
  | .notifyOne _ | .finish .. | .answer _ | .wake _ | .notifyAll | .join => false

namespace LockedPool

/-- Who runs a callback in the scope of the lock after a step that found the mutex free. -/
def entered (pool : PgWorkerPool count Query Rows) : PoolAction count Query Rows → Option RingId
  | .submit _ true reply => if pool.stopping = true then reply else none
  | _ => none

/-- A step of the pool, as far as the mutex allows it. -/
def poolStep (state : LockedPool count Query Rows) (action : PoolAction count Query Rows) :
    Option (LockedPool count Query Rows) :=
  match state.holder with
  | none =>
    ((poolSystem count Query Rows).step state.pool action).map fun pool =>
      { state with pool := pool, holder := entered state.pool action }
  | some holder =>
    if action.submitter = some holder then
      if state.relocked = true then none else some { state with relocked := true }
    else if action.locks = true then
      none
    else
      ((poolSystem count Query Rows).step state.pool action).map fun pool =>
        { state with pool := pool }

/-- The callback returns, and with it the call of `Submit`, which releases the mutex. -/
def callbackReturns (state : LockedPool count Query Rows) : Option (LockedPool count Query Rows) :=
  if state.holder.isSome = true ∧ state.relocked = false then
    some { state with holder := none }
  else
    none

end LockedPool

/-- The pool after a successful `Start`, with callbacks that may call `Submit`. -/
def lockedSystem (count : Nat) (Query Rows : Type) :
    TransitionSystem (LockedPool count Query Rows) (LockedAction count Query Rows) where
  Initial state :=
    (poolSystem count Query Rows).Initial state.pool ∧ state.holder = none ∧ state.relocked = false
  step state
    | .pool action => state.poolStep action
    | .callbackReturns => state.callbackReturns

namespace LockedPool

variable {state next : LockedPool count Query Rows}

/-- A callback that `Submit` runs in the scope of the lock does not call `Submit`. -/
def NoNestedSubmit (state : LockedPool count Query Rows) : LockedAction count Query Rows → Prop
  | .pool action => state.holder.isSome = true → action.submitter ≠ state.holder
  | .callbackReturns => True

instance (state : LockedPool count Query Rows) (action : LockedAction count Query Rows) :
    Decidable (state.NoNestedSubmit action) := by
  cases action <;> unfold NoNestedSubmit <;> infer_instance

/-- The steps that need neither a caller nor a wake-up from outside. -/
def ownStep : LockedAction count Query Rows → Bool
  | .pool action => PgWorkerPool.ownStep action
  | .callbackReturns => true

/-- What bounds the steps that the pool and the callback still take by themselves. -/
def remaining (state : LockedPool count Query Rows) : Nat :=
  state.pool.remaining + if state.holder.isSome = true then 1 else 0

/-- What a step of the pool does if it is not a call of `Submit` from within the callback. -/
theorem poolStep_cases {action : PoolAction count Query Rows}
    (outside : state.NoNestedSubmit (.pool action)) (stepped : state.poolStep action = some next) :
    (poolSystem count Query Rows).step state.pool action = some next.pool ∧
      next.relocked = state.relocked ∧
      next.holder = if state.holder.isSome = true then state.holder
        else entered state.pool action := by
  unfold poolStep at stepped
  split at stepped
  case h_1 free =>
    obtain ⟨pool, moved, rfl⟩ := Option.map_eq_some_iff.mp stepped
    exact ⟨moved, rfl, by rw [free]; rfl⟩
  case h_2 holder held =>
    have apart : action.submitter ≠ some holder := held ▸ outside (by rw [held]; rfl)
    rw [if_neg apart] at stepped
    obtain ⟨pool, moved, rfl⟩ :=
      Option.map_eq_some_iff.mp (Option.ite_none_left_eq_some.mp stepped).2
    exact ⟨moved, rfl, by rw [held]; rfl⟩

theorem callbackReturns_cases (returned : state.callbackReturns = some next) :
    state.holder.isSome = true ∧ next = { state with holder := none } := by
  obtain ⟨allowed, same⟩ := Option.ite_none_right_eq_some.mp returned
  exact ⟨allowed.1, (Option.some.inj same).symm⟩

/-- Without calls from within the callback the mutex is never locked again, and the pool itself
goes through the states that it has with callbacks of one step. -/
theorem pool_reachable
    (reachable : (lockedSystem count Query Rows).Reachable NoNestedSubmit state) :
    (poolSystem count Query Rows).Reachable everyStep state.pool ∧ state.relocked = false := by
  induction reachable with
  | initial start => exact ⟨.initial start.1, start.2.2⟩
  | @step before action after _ admitted transition ih =>
    obtain ⟨pool, free⟩ := ih
    cases action with
    | pool action =>
      obtain ⟨moved, same, -⟩ := poolStep_cases admitted transition
      exact ⟨pool.step trivial moved, same.trans free⟩
    | callbackReturns =>
      obtain ⟨-, rfl⟩ := callbackReturns_cases transition
      exact ⟨pool, free⟩

/-- What can take no step runs no callback, and its pool can take no step either. -/
theorem pool_stuck (free : state.relocked = false)
    (stuck : ∀ action, ownStep action = true →
      (lockedSystem count Query Rows).step state action = none)
    (action : PoolAction count Query Rows) (own : PgWorkerPool.ownStep action = true) :
    (poolSystem count Query Rows).step state.pool action = none := by
  have unheld : state.holder = none := by
    by_contra held
    have returned : state.callbackReturns = none := stuck .callbackReturns rfl
    unfold callbackReturns at returned
    rw [if_pos ⟨Option.isSome_iff_ne_none.mpr held, free⟩] at returned
    cases returned
  have stepped : state.poolStep action = none := stuck (.pool action) own
  unfold poolStep at stepped
  rw [unheld] at stepped
  exact Option.map_eq_none_iff.mp stepped

/-- No step that they take by themselves is a call of `Submit`. -/
theorem submitter_of_ownStep {action : PoolAction count Query Rows}
    (own : PgWorkerPool.ownStep action = true) : action.submitter = none := by
  cases action with
  | submit => cases own
  | notifyOne | check | finish | answer | wake | beginStop | notifyAll | join => rfl

/-- Every step that they take by themselves lowers what remains. -/
theorem remaining_lt (reachable : (poolSystem count Query Rows).Reachable everyStep state.pool)
    {action : LockedAction count Query Rows} (own : ownStep action = true)
    (transition : (lockedSystem count Query Rows).step state action = some next) :
    next.remaining < state.remaining := by
  cases action with
  | pool action =>
    have outside : state.NoNestedSubmit (.pool action) := fun held same => by
      rw [← same, submitter_of_ownStep own] at held
      cases held
    obtain ⟨moved, -, holder⟩ := poolStep_cases outside transition
    have lower := (PgWorkerPool.answers_of_reachable reachable).2.2.2 action next.pool own moved
    have enters : entered state.pool action = none := by
      cases action with
      | submit => cases own
      | notifyOne | check | finish | answer | wake | beginStop | notifyAll | join => rfl
    unfold remaining
    rw [holder, enters]
    by_cases held : state.holder.isSome = true
    · rw [if_pos held]
      exact Nat.add_lt_add_right lower _
    · rw [if_neg held, if_neg held]
      exact lower
  | callbackReturns =>
    obtain ⟨held, rfl⟩ := callbackReturns_cases transition
    unfold remaining
    rw [if_pos held]
    exact Nat.lt_succ_self _

/-- If no callback that runs in the scope of the lock calls `Submit`, the pool answers every
submission once: in every state it owes nothing but what is underway; all is answered when `Stop`
has returned and whenever the pool can take no step by itself, when a `Stop` that was called has
returned too; and it gets there, since every step of its own lowers what remains. -/
theorem pool_answers_every_submission_once
    (reachable : (lockedSystem count Query Rows).Reachable NoNestedSubmit state) :
    state.pool.AnswersOnce ∧
    (state.pool.stop = .returned → state.pool.AllAnswered) ∧
    ((∀ action, ownStep action = true → (lockedSystem count Query Rows).step state action = none) →
      state.pool.AllAnswered ∧ (state.pool.stopping = true → state.pool.stop = .returned)) ∧
    ∀ action next, ownStep action = true →
      (lockedSystem count Query Rows).step state action = some next →
        next.remaining < state.remaining := by
  obtain ⟨within, free⟩ := pool_reachable reachable
  obtain ⟨answers, returned, settled, -⟩ := PgWorkerPool.answers_of_reachable within
  exact ⟨answers, returned, fun stuck => settled (pool_stuck free stuck),
    fun _ _ own transition => remaining_lt within own transition⟩

theorem start_initial (positive : count ≠ 0) :
    (lockedSystem count Query Rows).Initial {} :=
  ⟨⟨fun _ => true, by simp [PgWorkerPool.start, positive]⟩, rfl, rfl⟩

/-- One job is answered, one comes too late and has its callback run in the scope of the lock, and
the two workers leave. -/
theorem pool_answers_every_submission_once_two :
    ∃ state : LockedPool 2 Nat Nat, state.pool.stop = .returned ∧
      state.pool.submitted = [⟨0, 7, true, some 3⟩, ⟨1, 8, true, some 4⟩] ∧
      state.pool.posted = [(3, ⟨0, 7, true, some 3⟩, some 9)] ∧
      state.pool.rejected = [⟨1, 8, true, some 4⟩] ∧ state.pool.AllAnswered := by
  obtain ⟨state, executed, returned, submitted, posted, rejected⟩ :
      ∃ state : LockedPool 2 Nat Nat, (lockedSystem 2 Nat Nat).execute NoNestedSubmit {}
        [.pool (.check 1), .pool (.submit 7 true (some 3)), .pool (.check 0),
          .pool (.notifyOne (some 1)), .pool (.finish 0 (some 9)), .pool .beginStop,
          .pool (.submit 8 true (some 4)), .pool (.answer 0), .callbackReturns, .pool .notifyAll,
          .pool (.check 1), .pool (.check 0), .pool .join, .pool .join, .pool .join] =
            some state ∧
        state.pool.stop = .returned ∧
        state.pool.submitted = [⟨0, 7, true, some 3⟩, ⟨1, 8, true, some 4⟩] ∧
        state.pool.posted = [(3, ⟨0, 7, true, some 3⟩, some 9)] ∧
        state.pool.rejected = [⟨1, 8, true, some 4⟩] :=
    ⟨_, rfl, rfl, rfl, rfl, rfl⟩
  have reachable := TransitionSystem.Reachable.execute (.initial (start_initial (by decide)))
    executed
  exact ⟨state, returned, submitted, posted, rejected,
    (pool_answers_every_submission_once reachable).2.1 returned⟩

/-- The callback of a submission that comes too late calls `Submit` while a job is in the queue:
nobody gets the mutex any more, the job is not executed and `Stop` does not return. -/
theorem nested_submit_hangs :
    ∃ state : LockedPool 1 Nat Nat, (lockedSystem 1 Nat Nat).Reachable everyStep state ∧
      state.pool.jobs.queue = [⟨0, 7, true, some 3⟩] ∧ state.pool.executed = [] ∧
      state.pool.stop = .joining 0 ∧
      ∀ action, ownStep action = true → (lockedSystem 1 Nat Nat).step state action = none := by
  obtain ⟨state, executed, queue, none, joining, held, relocked, settled, workers⟩ :
      ∃ state : LockedPool 1 Nat Nat, (lockedSystem 1 Nat Nat).execute everyStep {}
        [.pool (.submit 7 true (some 3)), .pool (.notifyOne .none), .pool .beginStop,
          .pool .notifyAll, .pool (.submit 8 true (some 4)), .pool (.submit 9 true (some 4))] =
            some state ∧
        state.pool.jobs.queue = [⟨0, 7, true, some 3⟩] ∧ state.pool.executed = [] ∧
        state.pool.stop = .joining 0 ∧ state.holder = some 4 ∧ state.relocked = true ∧
        state.pool.notifies = 0 ∧ state.pool.workers = fun _ => .checking :=
    ⟨_, rfl, rfl, rfl, rfl, rfl, rfl, rfl, rfl⟩
  refine ⟨state, TransitionSystem.Reachable.execute (.initial (start_initial (by decide))) executed,
    queue, none, joining, fun action own => ?_⟩
  cases action with
  | callbackReturns => simp [lockedSystem, callbackReturns, relocked]
  | pool action =>
    cases action with
    | submit | wake | beginStop => cases own
    | check => simp [lockedSystem, poolStep, held, PoolAction.submitter, PoolAction.locks]
    | notifyOne | finish | answer | notifyAll | join =>
      simp [lockedSystem, poolStep, held, PoolAction.submitter, PoolAction.locks, poolSystem,
        PgWorkerPool.notifyOne, PgWorkerPool.finish, PgWorkerPool.answer,
        PgWorkerPool.notifyAll, PgWorkerPool.join, settled, workers, joining,
        WorkerState.hasLeft]

end LockedPool

end UringServer.Storage
