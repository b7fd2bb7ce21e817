import UringServer.Game.Match
import UringServer.Job.TimerTally

/-!
# The ticks of matches

`CreateMatch` reserves the first tick of a match with the `JobTimer`, and each
tick that finds the match active reserves the next one when `OnTick` has
returned. Matches and timer run together here, under any interleaving of the
threads and with any other jobs of the matches in between. At most one tick of a
match is ever on its way, exactly one while the match is active and owned, and
`OnTick` is never told of less than the tick interval.
-/

namespace UringServer.Game

open UringServer.Semantics UringServer.Job

/-- The matches with their timer. The queue of a match holds the ticks that the timer has pushed,
without the first `ran`, and requests, which may come at any time. -/
structure TickState (Thread : Type) where
  timer : TimerState Thread MatchId Unit
  games : MatchId → Option Match
  /-- The thread that is about to reserve the next tick of the match, and the delay. -/
  scheduling : MatchId → Option (Thread × Nat)
  ran : MatchId → Nat
  /-- What the jobs of the match have called. -/
  calls : MatchId → List MatchCall

inductive TickAction (Thread : Type) where
  /-- A step of the timer other than a call of `Reserve`. -/
  | timer (action : TimerAction Thread MatchId Unit)
  | createMatch (thread : Thread) (id : MatchId) (config : MatchConfig)
  /-- The call of `Reserve` in `ScheduleTick`. -/
  | reserve (id : MatchId)
  | runJob (thread : Thread) (id : MatchId) (job : MatchJob)

/-- The delay of the call of `Reserve`, if it is one. -/
def MatchCall.delay? : MatchCall → Option Nat
  | .reserve milliseconds => some milliseconds
  | _ => none

/-- Whether the job is a tick. -/
def MatchJob.isTick : MatchJob → Bool
  | .tick _ => true
  | _ => false

/-- The time between two ticks, in milliseconds. -/
def MatchConfig.interval (config : MatchConfig) : Nat := 1000 / config.tickRate

variable {Thread : Type}

namespace TickState

/-- No match yet. -/
def initial (clock : Int) : TickState Thread where
  timer := .initial clock
  games := fun _ => none
  scheduling := fun _ => none
  ran := fun _ => 0
  calls := fun _ => []

/-- A tick runs after it was pushed and reads the clock then; other jobs may run at any time. -/
def Permits (state : TickState Thread) (id : MatchId) : MatchJob → Prop
  | .tick now => now = state.timer.clock ∧ state.ran id < state.timer.arrived id
  | _ => True

instance (state : TickState Thread) (id : MatchId) : DecidablePred (state.Permits id)
  | .tick now => inferInstanceAs
      (Decidable (now = state.timer.clock ∧ state.ran id < state.timer.arrived id))
  | .join .. | .leave _ | .message .. | .terminate _ => .isTrue trivial

/-- A match that made its calls, on the thread. -/
def scheduleAfter (state : TickState Thread) (thread : Thread) (id : MatchId)
    (made : List MatchCall) : TickState Thread :=
  { state with
    scheduling := Function.update state.scheduling id
      ((made.findSome? MatchCall.delay?).map fun delay => (thread, delay)) }

/-- A match that ran a job with the given result. -/
def finishJob (state : TickState Thread) (thread : Thread) (id : MatchId) (job : MatchJob)
    (game : Match) (made : List MatchCall) : TickState Thread :=
  { state with
    games := Function.update state.games id (some game)
    ran := Function.update state.ran id (state.ran id + if job.isTick then 1 else 0)
    calls := Function.update state.calls id (state.calls id ++ made) }.scheduleAfter thread id made

end TickState

section Order

variable [DecidableEq Thread] (order : LeastFirst (ReservedJob MatchId Unit) ReservedJob.executeAt)

/-- The steps of the timer, of `CreateMatch`, of `ScheduleTick` and of the jobs of the matches. A
match runs one job at a time. -/
def tickStep (state : TickState Thread) : TickAction Thread → Option (TickState Thread)
  | .timer action =>
    if action.reserves then none
    else (timerStep order state.timer action).map fun timer => { state with timer }
  | .createMatch thread id config =>
    match state.games id with
    | some _ => none
    | none =>
      let game : Match := { id, config, lastTick := state.timer.clock }
      some ({ state with games := Function.update state.games id (some game) }.scheduleAfter
        thread id game.scheduleTick)
  | .reserve id =>
    match state.scheduling id with
    | some (thread, delay) =>
      (timerStep order state.timer (.readDelay thread delay id ())).map fun timer =>
        { state with timer, scheduling := Function.update state.scheduling id none }
    | none => none
  | .runJob thread id job =>
    match state.games id, state.scheduling id with
    | some game, none =>
      if state.Permits id job then
        (game.handle job).map fun done => state.finishJob thread id job done.1 done.2
      else none
    | _, _ => none

/-- The matches with their timer. -/
def tickSystem : TransitionSystem (TickState Thread) (TickAction Thread) where
  Initial := fun state => ∃ clock, state = .initial clock
  step := tickStep order

theorem tickSystem_initial (clock : Int) :
    (tickSystem order).Initial (.initial clock : TickState Thread) := ⟨clock, rfl⟩

/-- What one step does. -/
inductive TickEffect (state : TickState Thread) : TickState Thread → Prop where
  | timer (action : TimerAction Thread MatchId Unit) (timer : TimerState Thread MatchId Unit)
      (effect : TimerEffect state.timer action timer) (other : action.reserves = false) :
      TickEffect state { state with timer }
  | createMatch (thread : Thread) (id : MatchId) (config : MatchConfig)
      (fresh : state.games id = none) :
      TickEffect state ({ state with
        games := Function.update state.games id
          (some { id, config, lastTick := state.timer.clock }) }.scheduleAfter thread id
            (Match.scheduleTick { id, config, lastTick := state.timer.clock }))
  | reserve (id : MatchId) (thread : Thread) (delay : Nat)
      (scheduled : state.scheduling id = some (thread, delay))
      (free : state.timer.callers thread = .idle) :
      TickEffect state { state with
        timer := state.timer.setCaller thread
          (.reserving ⟨state.timer.clock + delay * 1000000, id, ()⟩)
        scheduling := Function.update state.scheduling id none }
  | runJob (thread : Thread) (id : MatchId) (job : MatchJob) (game next : Match)
      (made : List MatchCall) (found : state.games id = some game)
      (settled : state.scheduling id = none) (permitted : state.Permits id job)
      (handled : game.Handled job next made) :
      TickEffect state (state.finishJob thread id job next made)

variable {order}

/-- Every step has one of the listed effects. -/
theorem tickStep_effect {state next : TickState Thread} {action : TickAction Thread}
    (transition : tickStep order state action = some next) : TickEffect state next := by
  cases action with
  | timer action =>
    rw [tickStep] at transition
    split at transition
    case isTrue => cases transition
    case isFalse other =>
      obtain ⟨timer, stepped, rfl⟩ := Option.map_eq_some_iff.mp transition
      exact .timer action timer (timerStep_effect stepped) (eq_false_of_ne_true other)
  | createMatch thread id config =>
    rw [tickStep] at transition
    split at transition <;> cases transition
    exact .createMatch thread id config ‹_›
  | reserve id =>
    rw [tickStep] at transition
    split at transition
    case h_1 thread delay scheduled =>
      obtain ⟨timer, stepped, rfl⟩ := Option.map_eq_some_iff.mp transition
      cases timerStep_effect stepped with
      | readDelay _ _ _ _ free => exact .reserve id thread delay scheduled free
    case h_2 => cases transition
  | runJob thread id job =>
    rw [tickStep] at transition
    split at transition
    case h_1 game found settled =>
      split at transition
      case isTrue permitted =>
        obtain ⟨⟨game', made⟩, done, rfl⟩ := Option.map_eq_some_iff.mp transition
        exact .runJob thread id job game game' made found settled permitted (Match.handled done)
      case isFalse => cases transition
    case h_2 => cases transition

end Order

/-- The job is no tick, and leaves what ticks depend on as it was, except that it may end the
match. -/
structure Match.Calm (game next : Match) (made : List MatchCall) : Prop where
  config : next.config = game.config
  lastTick : next.lastTick = game.lastTick
  active : next.active = true → game.active = true
  noDelay : made.findSome? MatchCall.delay? = none
  noTick : ∀ milliseconds, .onTick milliseconds ∉ made

theorem Match.Handled.calm {game next : Match} {job : MatchJob} {made : List MatchCall}
    (handled : game.Handled job next made) (other : job.isTick = false) :
    game.Calm next made := by
  cases handled with
  | ticked now active => cases other
  | late now inactive => cases other
  | terminated order walk =>
    refine ⟨rfl, rfl, nofun, ?_, by simp⟩
    rw [List.findSome?_eq_none_iff]
    intro call member
    simp only [List.mem_cons, List.mem_flatMap, List.not_mem_nil, or_false] at member
    rcases member with rfl | ⟨player, -, rfl | rfl⟩ <;> rfl
  | _ => exact ⟨rfl, rfl, fun active => active, rfl, by simp⟩

/-- What `ScheduleTick` is about to do. -/
theorem map_findSome?_scheduleTick (game : Match) (thread : Thread) :
    (game.scheduleTick.findSome? MatchCall.delay?).map (fun delay => (thread, delay)) =
      if game.config.tickRate = 0 then none else some (thread, game.config.interval) := by
  unfold Match.scheduleTick
  split <;> rfl

theorem onTick_not_mem_scheduleTick (game : Match) (milliseconds : Int) :
    .onTick milliseconds ∉ game.scheduleTick := by
  unfold Match.scheduleTick
  split <;> simp

/-- What the state has for one match, apart from the timer. -/
structure TickView (Thread : Type) where
  game : Option Match
  scheduling : Option (Thread × Nat)
  ran : Nat
  calls : List MatchCall

/-- Whether a thread is about to reserve a tick. -/
def TickView.scheduled (view : TickView Thread) : Nat := if view.scheduling.isSome then 1 else 0

theorem TickView.scheduled_le (view : TickView Thread) : view.scheduled ≤ 1 := by
  unfold scheduled
  split <;> omega

theorem TickView.scheduled_none {view : TickView Thread} (none : view.scheduling = none) :
    view.scheduled = 0 := by
  rw [scheduled, none]
  rfl

theorem TickView.scheduled_some {view : TickView Thread} {call : Thread × Nat}
    (some : view.scheduling = some call) : view.scheduled = 1 := by
  rw [scheduled, some]
  rfl

def TickState.view (state : TickState Thread) (id : MatchId) : TickView Thread :=
  ⟨state.games id, state.scheduling id, state.ran id, state.calls id⟩

namespace TickState

/-- What running a job does to the views. -/
theorem view_finishJob (state : TickState Thread) (thread : Thread) (id : MatchId) (job : MatchJob)
    (game : Match) (made : List MatchCall) :
    (state.finishJob thread id job game made).view = Function.update state.view id
      ⟨some game, (made.findSome? MatchCall.delay?).map fun delay => (thread, delay),
        state.ran id + if job.isTick then 1 else 0, state.calls id ++ made⟩ := by
  funext other
  by_cases same : other = id
  · subst same
    simp only [view, finishJob, scheduleAfter, Function.update_self]
  · simp only [view, finishJob, scheduleAfter, ne_eq, same, not_false_eq_true,
      Function.update_of_ne]

/-- What creating a match does to the views. -/
theorem view_createMatch (state : TickState Thread) (thread : Thread) (id : MatchId)
    (game : Match) :
    ({ state with games := Function.update state.games id (some game) }.scheduleAfter thread id
      game.scheduleTick).view = Function.update state.view id
        { state.view id with
          game := some game
          scheduling := (game.scheduleTick.findSome? MatchCall.delay?).map fun delay =>
            (thread, delay) } := by
  funext other
  by_cases same : other = id
  · subst same
    simp only [view, scheduleAfter, Function.update_self]
  · simp only [view, scheduleAfter, ne_eq, same, not_false_eq_true, Function.update_of_ne]

/-- What the call of `Reserve` does to the views. -/
theorem view_reserve (state : TickState Thread) (id : MatchId)
    (timer : TimerState Thread MatchId Unit) :
    ({ state with
      timer, scheduling := Function.update state.scheduling id none } : TickState Thread).view =
      Function.update state.view id { state.view id with scheduling := none } := by
  funext other
  by_cases same : other = id
  · subst same
    simp only [view, Function.update_self]
  · simp only [view, ne_eq, same, not_false_eq_true, Function.update_of_ne]

end TickState

end UringServer.Game
