import UringServer.Semantics.TransitionSystem

/-!
# Submissions from within callbacks

`PgWorkerPool::Submit` with its callbacks run step by step. A callback runs at one of
three places: in `Submit` on a thread without a ring, in `Submit` on a pool that
stops, and from the list of posted tasks of the ring it was submitted from. Wherever
it runs it may call `Submit` again, to any depth. `PgConnectionPool::Execute` is a
call of `Submit`. A thread that locks the mutex while it holds it goes no further.
-/

namespace UringServer.Storage

open UringServer.Semantics

abbrev ThreadId := Nat

/-- Where a callback runs. -/
inductive CallbackFrame where
  | noRing
  | stopping
  | posted
deriving DecidableEq, Repr

/-- The mutex, the queue and the callbacks that the threads run, the innermost first. -/
structure ReentryState where
  /-- `IoRing::Current()` is set. -/
  hasRing : ThreadId → Bool
  /-- The thread that holds `mutex_`. -/
  owner : Option ThreadId := none
  stopping : Bool := false
  /-- The thread a job came from and whether it has a callback. -/
  queue : List (ThreadId × Bool) := []
  posted : List ThreadId := []
  frames : ThreadId → List CallbackFrame := fun _ => []
  /-- The threads that tried to lock the mutex while they held it. -/
  relocks : List ThreadId := []

namespace ReentryState

def push (state : ReentryState) (thread : ThreadId) (frame : CallbackFrame) : ReentryState :=
  { state with
    frames := Function.update state.frames thread (frame :: state.frames thread) }

/-- `Submit` up to the call of the callback, or to its end if it calls none. -/
def submit (state : ReentryState) (thread : ThreadId) (hasCallback : Bool) :
    Option ReentryState :=
  if thread ∈ state.relocks then
    none
  else if state.hasRing thread = false then
    some (if hasCallback = true then state.push thread .noRing else state)
  else match state.owner with
    | some holder =>
      if holder = thread then some { state with relocks := state.relocks ++ [thread] } else none
    | none =>
      if state.stopping = true then
        -- The callback runs in the scope of the lock.
        some (if hasCallback = true then
          { state.push thread .stopping with owner := some thread } else state)
      else
        some { state with queue := state.queue ++ [(thread, hasCallback)] }

/-- The innermost callback of a thread returns, and with it the call of `Submit` it ran in. -/
def callbackReturns (state : ReentryState) (thread : ThreadId) : Option ReentryState :=
  if thread ∈ state.relocks then
    none
  else match state.frames thread with
    | [] => none
    | frame :: rest =>
      some { state with
        frames := Function.update state.frames thread rest
        owner := if frame = .stopping then none else state.owner }

/-- The section of `Stop` under the mutex. -/
def beginStop (state : ReentryState) : Option ReentryState :=
  match state.owner with
  | none => some { state with stopping := true }
  | some _ => none

/-- A worker takes a job under the mutex, executes it and posts the callback. -/
def work (state : ReentryState) : Option ReentryState :=
  match state.owner, state.queue with
  | none, (thread, hasCallback) :: rest =>
    some { state with
      queue := rest
      posted := if hasCallback = true then state.posted ++ [thread] else state.posted }
  | _, _ => none

/-- The thread of a ring runs a callback that was posted to it. -/
def runPosted (state : ReentryState) (thread : ThreadId) : Option ReentryState :=
  if thread ∈ state.posted ∧ thread ∉ state.relocks ∧ state.frames thread = [] then
    some { state.push thread .posted with posted := state.posted.erase thread }
  else
    none

end ReentryState

/-- What the threads do. A call of `Submit` is made by the innermost callback of its thread, or
by the thread itself if it runs none. -/
inductive ReentryAction where
  | submit (thread : ThreadId) (hasCallback : Bool)
  | callbackReturns (thread : ThreadId)
  | beginStop
  | work
  | runPosted (thread : ThreadId)
deriving DecidableEq, Repr

/-- The pool with callbacks that do what they like. -/
def reentrySystem : TransitionSystem ReentryState ReentryAction where
  Initial state := ∃ hasRing, state = { hasRing := hasRing }
  step state
    | .submit thread hasCallback => state.submit thread hasCallback
    | .callbackReturns thread => state.callbackReturns thread
    | .beginStop => state.beginStop
    | .work => state.work
    | .runPosted thread => state.runPosted thread

namespace ReentryState

variable {state next : ReentryState}

/-- A callback that `Submit` runs because the pool stops does not call `Submit`. -/
def NoNestedSubmit (state : ReentryState) : ReentryAction → Prop
  | .submit thread _ => .stopping ∉ state.frames thread
  | _ => True

instance (state : ReentryState) (action : ReentryAction) :
    Decidable (state.NoNestedSubmit action) := by
  cases action <;> unfold NoNestedSubmit <;> infer_instance

/-- The thread that holds the mutex between its steps, and no other, runs a callback because the
pool stops. -/
structure Held (state : ReentryState) : Prop where
  owner : ∀ thread, state.owner = some thread → state.hasRing thread = true ∧
    ∃ rest, state.frames thread = .stopping :: rest ∧ .stopping ∉ rest
  others : ∀ thread, state.owner ≠ some thread → .stopping ∉ state.frames thread

theorem Held.owner_iff (held : state.Held) (thread : ThreadId) :
    state.owner = some thread ↔ .stopping ∈ state.frames thread := by
  constructor
  · intro owns
    obtain ⟨-, rest, frames, -⟩ := held.owner thread owns
    rw [frames]
    exact List.mem_cons_self
  · intro runs
    by_contra other
    exact held.others thread other runs

variable {thread : ThreadId}

/-- A callback begins that does not run in the scope of the lock. -/
theorem Held.push (held : state.Held) {frame : CallbackFrame}
    (unlocked : frame ≠ .stopping) (free : state.owner ≠ some thread) :
    (state.push thread frame).Held where
  owner other owns := by
    have apart : other ≠ thread := fun same => free (same ▸ owns)
    obtain ⟨ring, rest, frames, once⟩ := held.owner other owns
    refine ⟨ring, rest, ?_, once⟩
    show Function.update state.frames thread _ other = _
    rw [Function.update_of_ne apart]
    exact frames
  others other notOwner := by
    show _ ∉ Function.update state.frames thread _ other
    rw [Function.update_apply]
    split
    · rename_i same
      rintro (_ | ⟨_, inside⟩)
      · exact unlocked rfl
      · exact held.others thread free inside
    · exact held.others other notOwner

/-- A callback begins in the scope of the lock. -/
theorem Held.lock (held : state.Held) (ring : state.hasRing thread = true)
    (free : state.owner = none) :
    ({ state.push thread .stopping with owner := some thread } : ReentryState).Held where
  owner other owns := by
    cases owns
    refine ⟨ring, state.frames thread, Function.update_self .., held.others thread ?_⟩
    rw [free]
    exact nofun
  others other notOwner := by
    have apart : other ≠ thread := fun same => notOwner (same ▸ rfl)
    show _ ∉ Function.update state.frames thread _ other
    rw [Function.update_of_ne apart]
    refine held.others other ?_
    rw [free]
    exact nofun

/-- `Submit` keeps who holds the mutex. -/
theorem Held.submit (held : state.Held) {hasCallback : Bool}
    (submitted : state.submit thread hasCallback = some next) : next.Held := by
  unfold ReentryState.submit at submitted
  split at submitted
  · cases submitted
  split at submitted
  · rename_i noRing
    cases submitted
    split
    · refine held.push nofun fun owns => ?_
      rw [(held.owner thread owns).1] at noRing
      cases noRing
    · exact held
  rename_i ring
  split at submitted
  · split at submitted
    · cases submitted
      exact ⟨held.owner, held.others⟩
    · cases submitted
  · rename_i free
    split at submitted
    · cases submitted
      split
      · exact held.lock (Bool.not_eq_false _ ▸ ring) free
      · exact held
    · cases submitted
      exact ⟨held.owner, held.others⟩

/-- A callback returns; the lock goes with a stopping one. -/
theorem Held.callbackReturns (held : state.Held)
    (returned : state.callbackReturns thread = some next) : next.Held := by
  unfold ReentryState.callbackReturns at returned
  split at returned
  · cases returned
  split at returned
  · cases returned
  rename_i frame rest frames
  cases returned
  by_cases locked : frame = .stopping
  · have owns : state.owner = some thread := by
      rw [held.owner_iff, frames, locked]
      exact List.mem_cons_self
    obtain ⟨-, others, same, once⟩ := held.owner thread owns
    rw [frames] at same
    cases same
    refine ⟨fun other free => ?_, fun other _ => ?_⟩
    · rw [if_pos locked] at free
      cases free
    · show _ ∉ Function.update state.frames thread rest other
      rw [Function.update_apply]
      split
      · exact once
      · rename_i apart
        refine held.others other fun also => apart ?_
        rw [owns] at also
        exact (Option.some.inj also).symm
  · have notOwner : state.owner ≠ some thread := by
      intro owns
      obtain ⟨-, others, same, -⟩ := held.owner thread owns
      rw [frames] at same
      cases same
      exact locked rfl
    rw [if_neg locked]
    refine ⟨fun other owns => ?_, fun other free => ?_⟩
    · have apart : other ≠ thread := fun same => notOwner (same ▸ owns)
      obtain ⟨ring, others, same, once⟩ := held.owner other owns
      refine ⟨ring, others, ?_, once⟩
      show Function.update state.frames thread rest other = _
      rw [Function.update_of_ne apart]
      exact same
    · show _ ∉ Function.update state.frames thread rest other
      rw [Function.update_apply]
      split
      · intro inside
        refine held.others thread notOwner ?_
        rw [frames]
        exact List.mem_cons_of_mem _ inside
      · exact held.others other free

/-- Every step keeps who holds the mutex. -/
theorem Held.step (held : state.Held) {action : ReentryAction}
    (transition : reentrySystem.step state action = some next) : next.Held := by
  cases action with
  | submit thread hasCallback => exact held.submit transition
  | callbackReturns thread => exact held.callbackReturns transition
  | beginStop =>
    change state.beginStop = some next at transition
    unfold ReentryState.beginStop at transition
    split at transition
    · cases transition
      exact ⟨held.owner, held.others⟩
    · cases transition
  | work =>
    change state.work = some next at transition
    unfold ReentryState.work at transition
    split at transition
    · cases transition
      exact ⟨held.owner, held.others⟩
    · cases transition
  | runPosted thread =>
    change state.runPosted thread = some next at transition
    unfold ReentryState.runPosted at transition
    split at transition
    · rename_i idle
      cases transition
      have free : state.owner ≠ some thread := by
        rw [ne_eq, held.owner_iff, idle.2.2]
        exact List.not_mem_nil
      have pushed : (state.push thread .posted).Held := held.push nofun free
      exact ⟨pushed.owner, pushed.others⟩
    · cases transition

theorem held_of_reachable (reachable : reentrySystem.Reachable everyStep state) : state.Held := by
  refine reachable.invariant Held ?_ fun held _ transition => held.step transition
  rintro _ ⟨hasRing, rfl⟩
  exact ⟨nofun, fun _ _ => List.not_mem_nil⟩

/-- A call of `Submit` locks the mutex again exactly if it is made from within a callback that
runs in the scope of the lock. -/
theorem Held.relocks_submit (held : state.Held) {hasCallback : Bool}
    (submitted : state.submit thread hasCallback = some next) :
    next.relocks = [] ↔ state.relocks = [] ∧ .stopping ∉ state.frames thread := by
  have scope := held.owner_iff thread
  unfold ReentryState.submit at submitted
  split at submitted
  · cases submitted
  split at submitted
  · rename_i noRing
    have outside : .stopping ∉ state.frames thread := by
      rw [← scope]
      intro owns
      rw [(held.owner thread owns).1] at noRing
      cases noRing
    cases submitted
    rw [and_iff_left outside]
    split <;> rfl
  split at submitted
  · rename_i holder held
    split at submitted
    · rename_i same
      cases submitted
      have inside : .stopping ∈ state.frames thread := scope.mp (same ▸ held)
      exact ⟨fun none => absurd none (List.append_ne_nil_of_right_ne_nil _ (List.cons_ne_nil _ _)),
        fun outside => absurd inside outside.2⟩
    · cases submitted
  · rename_i free
    have outside : .stopping ∉ state.frames thread := by
      rw [← scope, free]
      exact nofun
    rw [and_iff_left outside]
    split at submitted
    · cases submitted
      split <;> rfl
    · cases submitted
      rfl

/-- No call of `Submit` locks the mutex again exactly in the runs in which no callback that
`Submit` runs because the pool stops calls `Submit`. -/
theorem submit_never_relocks_iff (reachable : reentrySystem.Reachable everyStep state) :
    state.relocks = [] ↔ reentrySystem.Reachable NoNestedSubmit state := by
  refine reachable.iff_admitted (fun state => state.relocks = []) ?_ ?_
  · rintro _ ⟨hasRing, rfl⟩
    rfl
  · intro before action after prior transition
    cases action with
    | submit thread hasCallback => exact (held_of_reachable prior).relocks_submit transition
    | callbackReturns thread =>
      change before.callbackReturns thread = some after at transition
      unfold ReentryState.callbackReturns at transition
      rw [and_iff_left (show before.NoNestedSubmit (.callbackReturns thread) from trivial)]
      split at transition
      · cases transition
      · split at transition
        · cases transition
        · cases transition
          rfl
    | beginStop =>
      change before.beginStop = some after at transition
      unfold ReentryState.beginStop at transition
      rw [and_iff_left (show before.NoNestedSubmit .beginStop from trivial)]
      split at transition <;> cases transition
      rfl
    | work =>
      change before.work = some after at transition
      unfold ReentryState.work at transition
      rw [and_iff_left (show before.NoNestedSubmit .work from trivial)]
      split at transition <;> cases transition
      rfl
    | runPosted thread =>
      change before.runPosted thread = some after at transition
      unfold ReentryState.runPosted at transition
      rw [and_iff_left (show before.NoNestedSubmit (.runPosted thread) from trivial)]
      split at transition <;> cases transition
      rfl

/-- Thread 0 is that of a ring. -/
def oneRing : ReentryState where
  hasRing thread := thread = 0

theorem oneRing_initial : reentrySystem.Initial oneRing := ⟨_, rfl⟩

/-- Callbacks at all three places, and one that is run because the pool stops. -/
theorem submit_never_relocks_three :
    ∃ state, reentrySystem.Reachable NoNestedSubmit state ∧ state.owner = some 0 ∧
      state.frames 0 = [.stopping, .posted] ∧ state.frames 1 = [.noRing, .noRing] := by
  obtain ⟨state, executed, owner, first, second, none⟩ : ∃ state,
      reentrySystem.execute everyStep oneRing
        [.submit 0 true, .work, .runPosted 0, .submit 1 true, .submit 1 true, .beginStop,
          .submit 0 true] = some state ∧
      state.owner = some 0 ∧ state.frames 0 = [.stopping, .posted] ∧
      state.frames 1 = [.noRing, .noRing] ∧ state.relocks = [] :=
    ⟨_, rfl, rfl, rfl, rfl, rfl⟩
  have reachable := TransitionSystem.Reachable.execute (.initial oneRing_initial) executed
  exact ⟨state, (submit_never_relocks_iff reachable).mp none, owner, first, second⟩

/-- The callback of a login asks for the insertion of a user when it gets an empty result. On a
pool that stops it gets one in the scope of the lock. -/
theorem login_relocks :
    ∃ state, reentrySystem.Reachable everyStep state ∧ state.relocks = [0] := by
  refine TransitionSystem.exists_reachable oneRing_initial
    [.beginStop, .submit 0 true, .submit 0 true] ⟨_, rfl, fun _ => ?_⟩
  exact rfl

end ReentryState

end UringServer.Storage
