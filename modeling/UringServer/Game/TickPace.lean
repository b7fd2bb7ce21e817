import UringServer.Game.MatchTicks

/-!
# The pace of a match

The invariant behind `MatchTicks`: of the ticks of a match that are with a
thread, in the timer or in the queue of the match there is at most one, and its
time is at least the tick interval after the tick before it.
-/

namespace UringServer.Game

open UringServer.Semantics UringServer.Job

variable {Thread : Type}

variable [Fintype Thread]

/-- What holds of a match that has been created. -/
structure Keeps (timer : TimerState Thread MatchId Unit) (id : MatchId) (view : TickView Thread)
    (game : Match) : Prop where
  ticking : game.active = true → game.config.tickRate ≠ 0 → timer.alive id = true →
    timer.issued id + view.scheduled = view.ran + 1
  read : game.lastTick ≤ timer.clock
  delay : ∀ {thread delay}, view.scheduling = some (thread, delay) → delay = game.config.interval
  due : timer.DueFrom id view.ran (game.lastTick + game.config.interval * 1000000)
  told : ∀ milliseconds, .onTick milliseconds ∈ view.calls →
    (game.config.interval : Int) ≤ milliseconds

/-- What holds of every match. -/
structure Paced (timer : TimerState Thread MatchId Unit) (id : MatchId) (view : TickView Thread) :
    Prop where
  ran : view.ran ≤ timer.arrived id
  most : timer.issued id + view.scheduled ≤ view.ran + 1
  unborn : view.game = none → timer.issued id = 0 ∧ view.scheduling = none ∧ view.calls = []
  keeps : ∀ {game}, view.game = some game → Keeps timer id view game

namespace Paced

variable {clocked next : TimerState Thread MatchId Unit} {id : MatchId} {view : TickView Thread}
  {action : TimerAction Thread MatchId Unit} {game : Match}

section Timer

variable [DecidableEq Thread]

/-- A step of the timer keeps the pace. -/
theorem timer (paced : Paced clocked id view) (ordered : clocked.Ordered)
    (effect : TimerEffect clocked action next) (other : action.reserves = false) :
    Paced next id view := by
  obtain ⟨fewer, same⟩ := effect.issued other id
  obtain ⟨forward, more, stays⟩ := effect.progress id
  refine ⟨paced.ran.trans more, (Nat.add_le_add_right fewer _).trans paced.most,
    fun unborn => ?_, fun found => ?_⟩
  · obtain ⟨nothing, rest⟩ := paced.unborn unborn
    exact ⟨Nat.le_zero.mp (nothing ▸ fewer), rest⟩
  · have keeps := paced.keeps found
    refine ⟨fun active rate alive => ?_, keeps.read.trans forward, keeps.delay,
      effect.dueFrom other ordered keeps.due, keeps.told⟩
    rw [same alive]
    exact keeps.ticking active rate (stays alive)

/-- The call of `Reserve` puts the tick on its way that was about to be reserved. -/
theorem reserve {thread : Thread} {delay : Nat} (paced : Paced clocked id view)
    (scheduled : view.scheduling = some (thread, delay)) (free : clocked.callers thread = .idle) :
    Paced (clocked.setCaller thread (.reserving ⟨clocked.clock + delay * 1000000, id, ()⟩)) id
      { view with scheduling := none } := by
  have one := TickView.scheduled_some scheduled
  have zero : ({ view with scheduling := none } : TickView Thread).scheduled = 0 := rfl
  have more := TimerState.issued_reserving free ⟨clocked.clock + delay * 1000000, id, ()⟩ id
  rw [if_pos rfl] at more
  have most := paced.most
  have nothing : clocked.issued id ≤ view.ran := by omega
  refine ⟨paced.ran, ?_, fun unborn => ?_, fun found => ?_⟩
  · rw [more, zero]
    exact Nat.succ_le_succ nothing
  · cases (paced.unborn unborn).2.1.symm.trans scheduled
  · obtain ⟨ticking, read, sameDelay, due, told⟩ := paced.keeps found
    refine ⟨fun active rate alive => ?_, read, nofun, ?_, told⟩
    · have ticks := ticking active rate alive
      rw [more, zero]
      dsimp only
      omega
    · -- nothing else is on its way, so that only the new reservation counts
      refine (TimerState.DueFrom.of_issued nothing paced.ran _).setCaller ?_
      rintro _ ⟨⟩ -
      rw [sameDelay scheduled]
      exact Int.add_le_add_right read _

/-- A reservation for another match. -/
theorem reserve_other {thread : Thread} {reserved : ReservedJob MatchId Unit}
    (paced : Paced clocked id view) (different : reserved.target ≠ id)
    (free : clocked.callers thread = .idle) :
    Paced (clocked.setCaller thread (.reserving reserved)) id view := by
  have same := TimerState.issued_reserving free reserved id
  rw [if_neg different, Nat.add_zero] at same
  refine ⟨paced.ran, same ▸ paced.most, same ▸ paced.unborn, fun found => ?_⟩
  obtain ⟨ticking, read, delay, due, told⟩ := paced.keeps found
  refine ⟨same ▸ ticking, read, delay, due.setCaller ?_, told⟩
  rintro _ ⟨⟩ target
  exact absurd target different

end Timer

/-- A new match. -/
theorem createMatch (paced : Paced clocked id view) (fresh : view.game = none) (thread : Thread)
    (config : MatchConfig) :
    Paced clocked id { view with
      game := some { id, config, lastTick := clocked.clock }
      scheduling := ((Match.scheduleTick { id, config, lastTick := clocked.clock }).findSome?
        MatchCall.delay?).map fun delay => (thread, delay) } := by
  obtain ⟨nothing, -, quiet⟩ := paced.unborn fresh
  have ran := paced.ran
  have noneRan : view.ran = 0 := by
    unfold TimerState.issued at nothing
    omega
  rw [map_findSome?_scheduleTick]
  refine ⟨ran, ?_, nofun, ?_⟩
  · rw [nothing, Nat.zero_add]
    exact (TickView.scheduled_le _).trans (Nat.le_add_left _ _)
  · rintro _ ⟨⟩
    refine ⟨fun active rate alive => ?_, le_rfl, ?_, ?_, ?_⟩
    · rw [nothing, TickView.scheduled_some (if_neg rate), noneRan]
    · intro _ _ scheduled
      split at scheduled <;> cases scheduled
      rfl
    · exact .of_issued (nothing.le.trans (Nat.zero_le _)) ran _
    · simp [quiet]

/-- A tick that calls `OnTick` and is about to reserve the next one. -/
theorem ticked (paced : Paced clocked id view) (found : view.game = some game)
    (settled : view.scheduling = none) (pushed : view.ran < clocked.arrived id)
    (thread : Thread) :
    Paced clocked id {
      game := some { game with lastTick := clocked.clock }
      scheduling := ((MatchCall.onTick ((clocked.clock - game.lastTick).tdiv 1000000) ::
        game.scheduleTick).findSome? MatchCall.delay?).map fun delay => (thread, delay)
      ran := view.ran + 1
      calls := view.calls ++ (.onTick ((clocked.clock - game.lastTick).tdiv 1000000) ::
        game.scheduleTick) } := by
  obtain ⟨ticking, read, delay, due, told⟩ := paced.keeps found
  have zero := TickView.scheduled_none settled
  have most := paced.most
  simp only [List.findSome?_cons, MatchCall.delay?]
  rw [map_findSome?_scheduleTick]
  refine ⟨pushed, ?_, nofun, ?_⟩
  · exact Nat.add_le_add (show clocked.issued id ≤ view.ran + 1 by omega) (TickView.scheduled_le _)
  · rintro _ ⟨⟩
    refine ⟨fun active rate alive => ?_, le_rfl, ?_, ?_, ?_⟩
    · have ticks := ticking active rate alive
      rw [TickView.scheduled_some (if_neg rate)]
      dsimp only
      omega
    · intro _ _ scheduled
      split at scheduled <;> cases scheduled
      rfl
    · exact .of_issued (show clocked.issued id ≤ view.ran + 1 by omega) pushed _
    · intro milliseconds member
      have passed := due.pushed pushed
      simp only [List.mem_append, List.mem_cons] at member
      rcases member with before | new | after
      · exact told milliseconds before
      · cases new
        dsimp only
        refine Int.le_tdiv_of_mul_le ?_ ?_ <;> omega
      · exact absurd after (onTick_not_mem_scheduleTick game milliseconds)

/-- A tick that comes too late. -/
theorem late (paced : Paced clocked id view) (found : view.game = some game)
    (pushed : view.ran < clocked.arrived id) (inactive : game.active = false) :
    Paced clocked id { view with ran := view.ran + 1 } := by
  refine ⟨pushed, paced.most.trans (Nat.le_succ _), paced.unborn, ?_⟩
  intro same again
  cases found.symm.trans again
  obtain ⟨ticking, read, delay, due, told⟩ := paced.keeps found
  refine ⟨fun active => ?_, read, delay, ⟨due.reserving, due.waiting, fun _ => due.pushed pushed⟩,
    told⟩
  exact Bool.noConfusion (active.symm.trans inactive)

/-- Another job. -/
theorem calm {after : Match} {made : List MatchCall} (paced : Paced clocked id view)
    (found : view.game = some game) (calm : game.Calm after made) :
    Paced clocked id { view with game := some after, calls := view.calls ++ made } := by
  obtain ⟨ticking, read, delay, due, told⟩ := paced.keeps found
  refine ⟨paced.ran, paced.most, nofun, ?_⟩
  rintro _ ⟨⟩
  refine ⟨fun active rate alive => ?_, ?_, ?_, ?_, ?_⟩
  · rw [calm.config] at rate
    exact ticking (calm.active active) rate alive
  · rw [calm.lastTick]
    exact read
  · rw [calm.config]
    exact delay
  · rw [calm.config, calm.lastTick]
    exact due
  · intro milliseconds member
    rw [calm.config]
    rcases List.mem_append.mp member with before | new
    · exact told milliseconds before
    · exact absurd new (calm.noTick milliseconds)

end Paced

namespace TickState

variable {state next : TickState Thread}

/-- The invariants of timer and matches. -/
structure Good (state : TickState Thread) : Prop where
  ordered : state.timer.Ordered
  paced : ∀ id, Paced state.timer id (state.view id)

/-- A job keeps the pace of every match. -/
theorem Good.finishJob {thread : Thread} {id : MatchId} {job : MatchJob} {game after : Match}
    {made : List MatchCall} (good : state.Good) (found : state.games id = some game)
    (settled : state.scheduling id = none) (permitted : state.Permits id job)
    (handled : game.Handled job after made) (other : MatchId) :
    Paced state.timer other ((state.finishJob thread id job after made).view other) := by
  rw [view_finishJob]
  by_cases different : other = id
  case neg =>
    rw [Function.update_of_ne different]
    exact good.paced other
  subst different
  have paced := good.paced other
  rw [Function.update_self]
  cases tick : job.isTick with
  | false =>
    have calm := handled.calm tick
    rw [calm.noDelay]
    have kept := paced.calm found calm
    rwa [show (state.view other).scheduling = none from settled] at kept
  | true =>
    cases handled with
    | ticked now active =>
      obtain ⟨rfl, pushed⟩ : now = state.timer.clock ∧
        state.ran other < state.timer.arrived other := permitted
      exact paced.ticked found settled pushed thread
    | late now inactive =>
      have kept := paced.late found (And.right permitted) inactive
      rw [show state.view other = ⟨some game, none, state.ran other, state.calls other⟩ by
        rw [view, found, settled]] at kept
      simpa using kept
    | _ => cases tick

variable [DecidableEq Thread]

/-- One step keeps the invariants. -/
theorem Good.step (good : state.Good) (effect : TickEffect state next) : next.Good := by
  cases effect with
  | timer action timer effect other =>
    exact ⟨good.ordered.step effect, fun id => (good.paced id).timer good.ordered effect other⟩
  | createMatch thread id config fresh =>
    refine ⟨good.ordered, fun other => ?_⟩
    rw [view_createMatch]
    by_cases different : other = id
    · subst different
      rw [Function.update_self]
      exact (good.paced other).createMatch fresh thread config
    · rw [Function.update_of_ne different]
      exact good.paced other
  | reserve id thread delay scheduled free =>
    refine ⟨good.ordered.step (.readDelay thread delay id () free), fun other => ?_⟩
    rw [view_reserve]
    by_cases different : other = id
    · subst different
      rw [Function.update_self]
      exact (good.paced other).reserve scheduled free
    · rw [Function.update_of_ne different]
      exact (good.paced other).reserve_other (Ne.symm different) free
  | runJob thread id job game after made found settled permitted handled =>
    exact ⟨good.ordered, good.finishJob found settled permitted handled⟩

/-- The ticks of the match on their way: with a thread, in the timer, or in the queue of the
match. -/
def outstanding (state : TickState Thread) (id : MatchId) : Nat :=
  tally (TimerCaller.heading id) state.timer.callers + state.timer.waiting id +
    (state.timer.arrived id - state.ran id) + if (state.scheduling id).isSome then 1 else 0

end TickState

variable [DecidableEq Thread]
  {order : LeastFirst (ReservedJob MatchId Unit) ReservedJob.executeAt} {state : TickState Thread}
  {id : MatchId}

theorem good_of_reachable (reachable : (tickSystem order).Reachable everyStep state) :
    state.Good := by
  refine reachable.invariant TickState.Good ?_ fun good _ transition =>
    good.step (tickStep_effect transition)
  rintro _ ⟨clock, rfl⟩
  refine ⟨fun thread => trivial, fun id => ?_⟩
  have nothing : (TimerState.initial clock : TimerState Thread MatchId Unit).issued id = 0 := by
    simp [TimerState.issued, TimerState.initial, TimerState.waiting, TimerState.arrived,
      TimerCaller.heading]
  refine ⟨Nat.zero_le _, nothing.le.trans (Nat.zero_le _), fun _ => ⟨nothing, rfl, rfl⟩, ?_⟩
  intro game found
  cases found

omit [DecidableEq Thread] in
theorem outstanding_add_ran (paced : Paced state.timer id (state.view id)) :
    state.outstanding id + state.ran id = state.timer.issued id + (state.view id).scheduled := by
  have ran : state.ran id ≤ state.timer.arrived id := paced.ran
  unfold TickState.outstanding TimerState.issued TickView.scheduled TickState.view
  dsimp only
  omega

/-- At most one tick of a match is on its way, exactly one while the match is active and owned and
has a tick rate. -/
theorem one_tick_outstanding (reachable : (tickSystem order).Reachable everyStep state)
    (id : MatchId) :
    state.outstanding id ≤ 1 ∧
      ∀ game, state.games id = some game → game.active = true → game.config.tickRate ≠ 0 →
        state.timer.alive id = true → state.outstanding id = 1 := by
  have paced := (good_of_reachable reachable).paced id
  have balance := outstanding_add_ran paced
  have most : _ ≤ state.ran id + 1 := paced.most
  refine ⟨by omega, fun game found active rate alive => ?_⟩
  have ticks : _ = state.ran id + 1 := (paced.keeps found).ticking active rate alive
  omega

/-- Two matches, of which one was removed and the other has had a late tick. -/
def lateTick : List (TickAction (Fin 2)) :=
  [.createMatch 0 1 {}, .reserve 1, .timer (.push 0), .createMatch 0 2 { tickRate := 10 },
    .reserve 2, .timer (.push 0), .timer (.expire 2), .timer (.elapse 73000000),
    .timer (.readNow 1), .timer (.lock 1), .timer (.popTop 1), .timer (.leave 1),
    .runJob 1 1 (.tick 73000000), .reserve 1, .timer (.elapse 110000000), .timer (.push 1),
    .timer (.readNow 0), .timer (.lock 0), .timer (.popTop 0), .timer (.leave 0)]

theorem one_tick_outstanding_late : ∃ state : TickState (Fin 2),
    (tickSystem (LeastFirst.first ReservedJob.executeAt)).Reachable everyStep state ∧
    state.ran 1 = 1 ∧ state.outstanding 1 = 1 := by
  obtain ⟨state, game, executed, ran, found, active, rate, alive⟩ :
      ∃ (state : TickState (Fin 2)) (game : Match),
        (tickSystem (LeastFirst.first ReservedJob.executeAt)).execute everyStep (.initial 0)
          lateTick = some state ∧
        state.ran 1 = 1 ∧ state.games 1 = some game ∧ game.active = true ∧
        game.config.tickRate ≠ 0 ∧ state.timer.alive 1 = true :=
    ⟨_, _, rfl, rfl, rfl, rfl, by decide, rfl⟩
  have reachable := TransitionSystem.Reachable.execute (.initial (tickSystem_initial _ 0)) executed
  exact ⟨state, reachable, ran, (one_tick_outstanding reachable 1).2 game found active rate alive⟩

/-- `OnTick` is told of no less than the tick interval, which the clock has gone on by since the
tick before. -/
theorem onTick_at_least_interval (reachable : (tickSystem order).Reachable everyStep state)
    {id : MatchId} {game : Match} (found : state.games id = some game) {milliseconds : Int}
    (told : .onTick milliseconds ∈ state.calls id) :
    ((1000 / game.config.tickRate : Nat) : Int) ≤ milliseconds :=
  (((good_of_reachable reachable).paced id).keeps found).told milliseconds told

theorem onTick_at_least_interval_late : ∃ (state : TickState (Fin 2)) (game : Match),
    (tickSystem (LeastFirst.first ReservedJob.executeAt)).Reachable everyStep state ∧
    state.games 1 = some game ∧ .onTick 73 ∈ state.calls 1 ∧
    ((1000 / game.config.tickRate : Nat) : Int) ≤ 73 := by
  obtain ⟨state, game, executed, found, told⟩ : ∃ (state : TickState (Fin 2)) (game : Match),
      (tickSystem (LeastFirst.first ReservedJob.executeAt)).execute everyStep (.initial 0)
        lateTick = some state ∧
      state.games 1 = some game ∧ state.calls 1 = [.onTick 73, .reserve 50] :=
    ⟨_, _, rfl, rfl, rfl⟩
  have member : .onTick 73 ∈ state.calls 1 := told ▸ List.mem_cons_self
  have reachable := TransitionSystem.Reachable.execute (.initial (tickSystem_initial _ 0)) executed
  exact ⟨state, game, reachable, found, member, onTick_at_least_interval reachable found member⟩

end UringServer.Game
