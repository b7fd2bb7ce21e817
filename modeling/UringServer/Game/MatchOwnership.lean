import UringServer.Job.QueueUse

/-!
# Who owns the queues that `GlobalQueue` points to

A `Match` is a `JobQueue` owned by the `shared_ptr` in `MatchRegistry::matches_`.
`GlobalQueue` and the workers hold raw pointers to it. `CreateMatch` owns the
match through its local `match` until it moves that into `matches_`, and
`JobTimer::DistributeExpired` owns it through `owner` while it pushes the tick.
`RemoveMatch` erases the entry of `matches_` and looks at nothing else.

The requests, the ticks and the workers are the steps of `Job.JobQueue`. A match
whose last owner is gone stays in the model, so that a pointer to it can be seen.
-/

namespace UringServer.Game

open UringServer.Semantics

/-- Where the `shared_ptr` that `CreateMatch` made is. -/
inductive MatchPlace where
  | unmade
  /-- In the local `match` of `CreateMatch`. -/
  | created
  /-- In `matches_`. -/
  | registered
  | removed
  deriving DecidableEq

/-- `locked` lists the threads that are in `DistributeExpired` between the
`lock` of a `weak_ptr` and the end of `owner`, each with the match it owns. -/
structure OwnerState (Queue Task PushThread WorkThread : Type) where
  jobs : Job.State Queue Task PushThread WorkThread
  place : Queue → MatchPlace
  locked : List (PushThread × Queue)

/-- `jobs` is any step of the queues; a request of a match is a `Push`. -/
inductive OwnerAction (Queue Task PushThread WorkThread : Type) where
  | createMatch (game : Queue)
  | insertMatch (game : Queue)
  | removeMatch (game : Queue)
  | lock (timer : PushThread) (game : Queue)
  | release (timer : PushThread)
  | jobs (action : Job.Action Queue Task PushThread WorkThread)

variable {Queue Task PushThread WorkThread : Type}

namespace OwnerState

/-- No match made, nothing queued, every thread idle. -/
def initial : OwnerState Queue Task PushThread WorkThread where
  jobs := Job.initial
  place := fun _ => .unmade
  locked := []

/-- Some timer owns the match through a locked `weak_ptr`. -/
def Locked (state : OwnerState Queue Task PushThread WorkThread) (game : Queue) : Prop :=
  game ∈ state.locked.map Prod.snd

/-- Some `shared_ptr` owns the match. -/
def Owned (state : OwnerState Queue Task PushThread WorkThread) (game : Queue) : Prop :=
  state.place game = .created ∨ state.place game = .registered ∨ state.Locked game

/-- Every queue that `GlobalQueue` points to or a worker executes is that of an
owned match. -/
def Safe (state : OwnerState Queue Task PushThread WorkThread) : Prop :=
  ∀ game, state.jobs.Scheduled game → state.Owned game

variable [DecidableEq Queue]

instance (state : OwnerState Queue Task PushThread WorkThread) (game : Queue) :
    Decidable (state.Locked game) := by
  unfold Locked
  infer_instance

instance (state : OwnerState Queue Task PushThread WorkThread) (game : Queue) :
    Decidable (state.Owned game) := by
  unfold Owned
  infer_instance

/-- Move the `shared_ptr` of a match. -/
def setPlace (state : OwnerState Queue Task PushThread WorkThread) (game : Queue)
    (place : MatchPlace) : OwnerState Queue Task PushThread WorkThread :=
  { state with place := Function.update state.place game place }

variable [DecidableEq PushThread]

/-- The `owner` of a timer goes out of scope. -/
def unlock (state : OwnerState Queue Task PushThread WorkThread) (timer : PushThread) :
    OwnerState Queue Task PushThread WorkThread :=
  { state with locked := state.locked.filter fun entry => entry.1 ≠ timer }

/-- A `Push` is made on a match that was created, and by a timer that owns a
match on that one only. -/
def Permits (state : OwnerState Queue Task PushThread WorkThread) :
    Job.Action Queue Task PushThread WorkThread → Prop
  | .fetchAdd pusher game _ =>
    state.place game ≠ .unmade ∧ ∀ entry ∈ state.locked, entry.1 = pusher → entry.2 = game
  | _ => True

instance (state : OwnerState Queue Task PushThread WorkThread)
    (action : Job.Action Queue Task PushThread WorkThread) : Decidable (state.Permits action) := by
  unfold Permits
  split <;> infer_instance

variable [DecidableEq WorkThread]

/-- `MatchRegistry::CreateMatch` in two steps, `RemoveMatch`, the two ends of
`owner` in `DistributeExpired`, and the steps of the queues. A `lock` that finds no
owner gives a null pointer, and `DistributeExpired` drops the job. -/
def step (state : OwnerState Queue Task PushThread WorkThread) :
    OwnerAction Queue Task PushThread WorkThread →
      Option (OwnerState Queue Task PushThread WorkThread)
  | .createMatch game =>
    if state.place game = .unmade then some (state.setPlace game .created) else none
  | .insertMatch game =>
    if state.place game = .created then some (state.setPlace game .registered) else none
  | .removeMatch game =>
    -- `erase` of a key that is not in `matches_` does nothing.
    some (if state.place game = .registered then state.setPlace game .removed else state)
  | .lock timer game =>
    if state.Owned game ∧ (state.jobs.pushers timer).target = none ∧
        timer ∉ state.locked.map Prod.fst then
      some { state with locked := (timer, game) :: state.locked }
    else none
  | .release timer =>
    if (state.jobs.pushers timer).target = none then some (state.unlock timer) else none
  | .jobs action =>
    if state.Permits action then
      (Job.step state.jobs action).map ({ state with jobs := · })
    else none

/-- A match is asked only while it is owned, and the `shared_ptr` that goes is not
the last one of a match whose queue is in use. -/
def KeepsUsed (state : OwnerState Queue Task PushThread WorkThread) :
    OwnerAction Queue Task PushThread WorkThread → Prop
  | .removeMatch game => state.place game = .registered → state.jobs.InUse game → state.Locked game
  | .release timer =>
    ∀ game ∈ state.locked.map Prod.snd, state.jobs.InUse game → (state.unlock timer).Owned game
  | .jobs (.fetchAdd _ game _) => state.Owned game
  | _ => True

instance [Fintype PushThread] [Fintype WorkThread]
    (state : OwnerState Queue Task PushThread WorkThread)
    (action : OwnerAction Queue Task PushThread WorkThread) :
    Decidable (state.KeepsUsed action) := by
  unfold KeepsUsed
  split <;> infer_instance

end OwnerState

/-- The registry, the timers, the requests and the workers as one program. -/
def ownerSystem (Queue Task PushThread WorkThread : Type)
    [DecidableEq Queue] [DecidableEq PushThread] [DecidableEq WorkThread] :
    TransitionSystem (OwnerState Queue Task PushThread WorkThread)
      (OwnerAction Queue Task PushThread WorkThread) where
  Initial := fun state => state = OwnerState.initial
  step := OwnerState.step

namespace OwnerState

variable {state next : OwnerState Queue Task PushThread WorkThread} {game other : Queue}

/-- Every match whose queue is in use is owned. -/
def Guarded (state : OwnerState Queue Task PushThread WorkThread) : Prop :=
  ∀ game, state.jobs.InUse game → state.Owned game

theorem Guarded.safe (guarded : state.Guarded) : state.Safe :=
  fun game scheduled => guarded game (.inl scheduled)

variable [DecidableEq Queue]

/-- Moving the `shared_ptr` of one match leaves the owners of the others alone. -/
theorem owned_setPlace_of_ne {place : MatchPlace} (different : other ≠ game) :
    (state.setPlace game place).Owned other ↔ state.Owned other := by
  simp only [Owned, Locked, setPlace, Function.update_of_ne different]

/-- A match that is held after the move is owned, and so are those that were. -/
theorem owned_setPlace {place : MatchPlace} (holds : place = .created ∨ place = .registered)
    (owned : state.Owned other) : (state.setPlace game place).Owned other := by
  by_cases same : other = game
  · subst same
    simp only [Owned, setPlace, Function.update_self]
    exact holds.elim .inl (.inr ∘ .inl)
  · exact (owned_setPlace_of_ne same).mpr owned

/-- `RemoveMatch` of a match that a timer owns, or whose queue is not in use. -/
theorem Guarded.removeMatch (guarded : state.Guarded)
    (kept : state.jobs.InUse game → state.Locked game) :
    (state.setPlace game .removed).Guarded := by
  intro other used
  by_cases same : other = game
  · subst same
    exact .inr (.inr (kept used))
  · exact (owned_setPlace_of_ne same).mpr (guarded other used)

variable [DecidableEq PushThread] [DecidableEq WorkThread]

/-- A step of the queues that makes requests only on owned matches. -/
theorem Guarded.jobs {action : Job.Action Queue Task PushThread WorkThread}
    {jobs : Job.State Queue Task PushThread WorkThread} (guarded : state.Guarded)
    (kept : state.KeepsUsed (.jobs action)) (transition : Job.step state.jobs action = some jobs) :
    Guarded { state with jobs := jobs } := by
  intro game used
  obtain earlier | ⟨pusher, task, rfl⟩ := Job.inUse_of_step transition used
  · exact guarded game earlier
  · exact kept

/-- One step. -/
theorem Guarded.step {action : OwnerAction Queue Task PushThread WorkThread}
    (guarded : state.Guarded) (kept : state.KeepsUsed action)
    (transition : state.step action = some next) : next.Guarded := by
  cases action with
  | createMatch game =>
    simp only [OwnerState.step, Option.ite_none_right_eq_some, Option.some.injEq] at transition
    obtain ⟨_, rfl⟩ := transition
    exact fun other used => owned_setPlace (.inl rfl) (guarded other used)
  | insertMatch game =>
    simp only [OwnerState.step, Option.ite_none_right_eq_some, Option.some.injEq] at transition
    obtain ⟨_, rfl⟩ := transition
    exact fun other used => owned_setPlace (.inr rfl) (guarded other used)
  | removeMatch game =>
    cases transition
    split_ifs with registered
    · exact guarded.removeMatch (kept registered)
    · exact guarded
  | lock timer game =>
    simp only [OwnerState.step, Option.ite_none_right_eq_some, Option.some.injEq] at transition
    obtain ⟨_, rfl⟩ := transition
    exact fun other used => (guarded other used).imp id (.imp id (List.mem_cons_of_mem _))
  | release timer =>
    simp only [OwnerState.step, Option.ite_none_right_eq_some, Option.some.injEq] at transition
    obtain ⟨_, rfl⟩ := transition
    intro game used
    obtain created | registered | locked := guarded game used
    · exact .inl created
    · exact .inr (.inl registered)
    · exact kept game locked used
  | jobs action =>
    simp only [OwnerState.step, Option.ite_none_right_eq_some, Option.map_eq_some_iff]
      at transition
    obtain ⟨_, jobs, executed, rfl⟩ := transition
    exact guarded.jobs kept executed

/-- Every state of a run whose steps keep the matches in use owned. -/
theorem guarded_of_reachable
    (reachable : (ownerSystem Queue Task PushThread WorkThread).Reachable KeepsUsed state) :
    state.Guarded := by
  refine TransitionSystem.Reachable.invariant Guarded ?_ Guarded.step reachable
  rintro _ rfl game ((queued | ⟨worker, executes⟩) | ⟨pusher, pushes⟩)
  · cases queued
  · cases executes
  · cases pushes

/-- As long as requests are made on owned matches and no match in use loses its last
`shared_ptr`, every queue that `GlobalQueue` points to or a worker executes is that of
an owned match. `RemoveMatch` of a scheduled match that no timer owns ends that. -/
theorem globalQueue_owned
    (reachable : (ownerSystem Queue Task PushThread WorkThread).Reachable KeepsUsed state) :
    state.Safe ∧
      ∀ game next, state.place game = .registered → ¬ state.Locked game →
        state.jobs.Scheduled game → state.step (.removeMatch game) = some next → ¬ next.Safe := by
  refine ⟨(guarded_of_reachable reachable).safe, ?_⟩
  rintro game next registered unlocked scheduled transition safe
  simp only [step, if_pos registered, Option.some.injEq] at transition
  subst transition
  obtain created | registered | locked := safe game scheduled
  · simp [setPlace] at created
  · simp [setPlace] at registered
  · exact unlocked locked

/-- A timer locks the match, pushes its tick and lets go. -/
theorem globalQueue_owned_ticked :
    ∃ state : OwnerState Unit Unit Unit Unit,
      (ownerSystem Unit Unit Unit Unit).Reachable KeepsUsed state ∧
        state.jobs.Scheduled () ∧ ¬ state.Locked () ∧ state.Safe := by
  obtain ⟨state, executed, scheduled, unlocked⟩ : ∃ state,
      (ownerSystem Unit Unit Unit Unit).execute KeepsUsed initial
        [.createMatch (), .lock () (), .jobs (.fetchAdd () () ()), .insertMatch (),
          .jobs (.pushBack ()), .jobs (.register ()), .release ()] = some state ∧
        state.jobs.globalQueue = [()] ∧ ¬ state.Locked () := ⟨_, rfl, rfl, by decide⟩
  have reachable := TransitionSystem.Reachable.execute (.initial rfl) executed
  have queued : state.jobs.Scheduled () := .inl (scheduled ▸ List.mem_singleton_self ())
  exact ⟨state, reachable, queued, unlocked, (globalQueue_owned reachable).1⟩

/-- A request puts the match into `GlobalQueue`, then the match is removed. -/
theorem removed_match_scheduled :
    ∃ state : OwnerState Unit Unit Unit Unit,
      (ownerSystem Unit Unit Unit Unit).Reachable everyStep state ∧
        () ∈ state.jobs.globalQueue ∧ ¬ state.Owned () := by
  obtain ⟨state, executed, scheduled, unowned⟩ : ∃ state,
      (ownerSystem Unit Unit Unit Unit).execute everyStep initial
        [.createMatch (), .insertMatch (), .jobs (.fetchAdd () () ()), .jobs (.pushBack ()),
          .jobs (.register ()), .removeMatch ()] = some state ∧
        state.jobs.globalQueue = [()] ∧ ¬ state.Owned () := ⟨_, rfl, rfl, by decide⟩
  have reachable := TransitionSystem.Reachable.execute (.initial rfl) executed
  exact ⟨state, reachable, scheduled ▸ List.mem_singleton_self (), unowned⟩

end OwnerState

end UringServer.Game
