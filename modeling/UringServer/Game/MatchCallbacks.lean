import Mathlib.Data.List.Chain
import UringServer.Game.Match

/-!
# `OnJoin` and `OnLeave`

The calls of these two for one player, in their order, and what they tell about
`players_`. `HandleJoin` does not ask whether the player has joined already, so it
may call `OnJoin` twice in a row; nothing else breaks the alternation.
-/

namespace UringServer.Game

open UringServer.Semantics

/-- Whether a call tells the handler that a player has joined or that they have left. -/
def MatchCall.presence (player : PlayerId) : MatchCall → Option Bool
  | .onJoin joined => if joined = player then some true else none
  | .onLeave left => if left = player then some false else none
  | _ => none

/-- They take turns, and a join comes first. -/
def Alternates (history : List Bool) : Prop := (false :: history).IsChain (· ≠ ·)

theorem alternates_append_singleton {history : List Bool} {joins : Bool} :
    Alternates (history ++ [joins]) ↔
      Alternates history ∧ (history.getLast? = some true ↔ joins = false) := by
  have last : history.getLast?.getD false ≠ joins ↔
      (history.getLast? = some true ↔ joins = false) := by
    rcases history.getLast? with _ | _ | _ <;> cases joins <;> decide
  unfold Alternates
  rw [← List.cons_append, List.isChain_append, List.getLast?_cons, ← last]
  simp

namespace MatchRun

variable {run next : MatchRun} {job : MatchJob}

/-- The calls of `OnJoin` (`true`) and `OnLeave` (`false`) for a player. -/
def history (run : MatchRun) (player : PlayerId) : List Bool :=
  run.calls.filterMap (MatchCall.presence player)

theorem history_append (run : MatchRun) (game : Match) (made : List MatchCall)
    (player : PlayerId) : history ⟨game, run.calls ++ made⟩ player =
      run.history player ++ made.filterMap (MatchCall.presence player) :=
  List.filterMap_append

theorem presence_joined (player other : PlayerId) (id : MatchId) :
    [MatchCall.joinAttempt player, .updateStatus player (ascii "in_game"),
      .updateMatch player id, .onJoin player].filterMap (MatchCall.presence other) =
        if player = other then [true] else [] := by
  simp only [List.filterMap_cons, List.filterMap_nil, MatchCall.presence]
  split_ifs <;> rfl

theorem presence_left (player other : PlayerId) :
    [MatchCall.updateStatus player (ascii "online"), .updateMatch player 0,
      .onLeave player].filterMap (MatchCall.presence other) =
        if player = other then [false] else [] := by
  simp only [List.filterMap_cons, List.filterMap_nil, MatchCall.presence]
  split_ifs <;> rfl

/-- The calls of a tick tell the handler nothing about a player. -/
theorem presence_ticked (game : Match) (dt : Int) (player : PlayerId) :
    (.onTick dt :: game.scheduleTick).filterMap (MatchCall.presence player) = [] := by
  unfold Match.scheduleTick
  split_ifs <;> rfl

/-- Nor do those of a termination. -/
theorem presence_terminated (player : PlayerId) (order : List PlayerId) :
    (MatchCall.onTerminate :: order.flatMap fun player =>
      [.updateStatus player (ascii "online"), .updateMatch player 0]).filterMap
        (MatchCall.presence player) = [] := by
  induction order with
  | nil => rfl
  | cons next order ih => exact ih

/-- What the calls tell is what `players_` has, until the match is terminated. -/
structure Tracked (run : MatchRun) : Prop where
  active : run.game.active = true ↔ .onTerminate ∉ run.calls
  inside : ∀ player, player ∈ run.game.players ↔
    (run.history player).getLast? = some true ∧ run.game.active = true

/-- A job that neither adds nor takes away a player. -/
theorem Tracked.quiet (tracked : run.Tracked) {game : Match} {made : List MatchCall}
    (samePlayers : game.players = run.game.players) (sameActive : game.active = run.game.active)
    (goesOn : .onTerminate ∉ made)
    (silent : ∀ player, made.filterMap (MatchCall.presence player) = []) :
    Tracked ⟨game, run.calls ++ made⟩ := by
  constructor
  · rw [sameActive, tracked.active, List.mem_append, not_or]
    exact (and_iff_left goesOn).symm
  · intro player
    rw [samePlayers, sameActive, history_append, silent, List.append_nil]
    exact tracked.inside player

/-- Every job keeps `players_` and the calls in step. -/
theorem Tracked.step (tracked : run.Tracked)
    (transition : matchSystem.step run job = some next) : next.Tracked := by
  obtain ⟨game, made, handled, rfl⟩ := matchSystem_step transition
  cases handled with
  | joined player reactor active room =>
    constructor
    · simpa using tracked.active
    · intro other
      rw [AList.mem_insert, history_append, presence_joined]
      by_cases same : player = other
      · simp [same, active]
      · simp [same, Ne.symm same, tracked.inside other]
  | left player inside =>
    constructor
    · simpa using tracked.active
    · intro other
      rw [AList.mem_erase, history_append, presence_left]
      by_cases same : player = other
      · simp [same]
      · simp [same, Ne.symm same, tracked.inside other]
  | terminated order walk =>
    constructor
    · simp
    · simp
  | ticked now active =>
    refine tracked.quiet rfl rfl ?_ (presence_ticked run.game _)
    unfold Match.scheduleTick
    split_ifs <;> simp
  | declined | ignored | absent | message | late =>
    exact tracked.quiet rfl rfl (by simp) (by simp [MatchCall.presence])

/-- A terminated match has no players. -/
theorem Tracked.nobody (tracked : run.Tracked) (inactive : run.game.active = false)
    (player : PlayerId) : player ∉ run.game.players := by
  intro inside
  have active := ((tracked.inside player).mp inside).2
  rw [inactive] at active
  cases active

theorem tracked_of_reachable (reachable : matchSystem.Reachable everyStep run) : run.Tracked := by
  refine reachable.invariant Tracked ?_ fun tracked _ transition => tracked.step transition
  rintro _ ⟨id, config, lastTick, rfl⟩
  exact ⟨by simp, by simp [history]⟩

/-- A join that is let through is one of a player that is not in the match. -/
def JoinsOutsider (run : MatchRun) : MatchJob → Prop
  | .join player _ answer => run.game.active = true → ¬ run.game.isFull → answer = true →
      player ∉ run.game.players
  | _ => True

instance (run : MatchRun) (job : MatchJob) : Decidable (run.JoinsOutsider job) := by
  cases job <;> unfold JoinsOutsider <;> infer_instance

/-- The calls of a job that tells the handler nothing. -/
theorem alternates_quiet {game : Match} {made : List MatchCall}
    (silent : ∀ player, made.filterMap (MatchCall.presence player) = []) :
    (∀ player, Alternates (history ⟨game, run.calls ++ made⟩ player)) ↔
      ∀ player, Alternates (run.history player) := by
  refine forall_congr' fun player => ?_
  rw [history_append, silent, List.append_nil]

/-- The calls of a job that tells the handler that one player joined or left. -/
theorem alternates_told {game : Match} {made : List MatchCall} {player : PlayerId} {joins : Bool}
    (tells : ∀ other, made.filterMap (MatchCall.presence other) =
      if player = other then [joins] else []) :
    (∀ other, Alternates (history ⟨game, run.calls ++ made⟩ other)) ↔
      (∀ other, Alternates (run.history other)) ∧
        ((run.history player).getLast? = some true ↔ joins = false) := by
  constructor
  · intro after
    have here := after player
    rw [history_append, tells, if_pos rfl, alternates_append_singleton] at here
    refine ⟨fun other => ?_, here.2⟩
    have there := after other
    rw [history_append, tells] at there
    split_ifs at there with same
    · exact (alternates_append_singleton.mp there).1
    · rwa [List.append_nil] at there
  · rintro ⟨before, turn⟩ other
    rw [history_append, tells]
    split_ifs with same
    · subst same
      exact alternates_append_singleton.mpr ⟨before player, turn⟩
    · rw [List.append_nil]
      exact before other

/-- Only the join of a player inside breaks the turns. -/
theorem alternates_step (tracked : run.Tracked)
    (transition : matchSystem.step run job = some next) :
    (∀ player, Alternates (next.history player)) ↔
      (∀ player, Alternates (run.history player)) ∧ run.JoinsOutsider job := by
  obtain ⟨game, made, handled, rfl⟩ := matchSystem_step transition
  cases handled with
  | joined player reactor active room =>
    have outside : run.JoinsOutsider (.join player reactor true) ↔
        ((run.history player).getLast? = some true ↔ true = false) := by
      simp [JoinsOutsider, active, room, tracked.inside player]
    rw [alternates_told (presence_joined player · _), outside]
  | left player inside =>
    have joined := ((tracked.inside player).mp inside).1
    rw [alternates_told (presence_left player)]
    simp [JoinsOutsider, joined]
  | terminated order walk =>
    rw [alternates_quiet (presence_terminated · order)]
    simp [JoinsOutsider]
  | ticked now active =>
    rw [alternates_quiet (presence_ticked run.game _)]
    simp [JoinsOutsider]
  | declined player reactor | absent | message | late =>
    rw [alternates_quiet (by simp [MatchCall.presence])]
    simp [JoinsOutsider]
  | ignored player reactor answer closed =>
    have outside : run.JoinsOutsider (.join player reactor answer) := by
      intro active room _
      rcases closed with inactive | full
      · rw [inactive] at active
        cases active
      · exact absurd full room
    rw [alternates_quiet fun _ => rfl]
    simp [outside]

/-- In every run the player is in `players_` exactly if the last of the two calls was `OnJoin` and
the match has not been terminated. The two alternate exactly in the runs in which no player
who is in the match is let in again. -/
theorem join_leave_alternate_iff (reachable : matchSystem.Reachable everyStep run) :
    (∀ player, Alternates (run.history player) ∧
      (player ∈ run.game.players ↔
        (run.history player).getLast? = some true ∧ .onTerminate ∉ run.calls)) ↔
      matchSystem.Reachable JoinsOutsider run := by
  have tracked := tracked_of_reachable reachable
  have inside : ∀ player, player ∈ run.game.players ↔
      (run.history player).getLast? = some true ∧ .onTerminate ∉ run.calls := by
    intro player
    rw [← tracked.active]
    exact tracked.inside player
  rw [← reachable.iff_admitted (fun run => ∀ player, Alternates (run.history player))]
  · exact ⟨fun both player => (both player).1, fun turns player => ⟨turns player, inside player⟩⟩
  · rintro _ ⟨id, config, lastTick, rfl⟩ player
    exact .singleton false
  · intro state action after prior transition
    exact alternates_step (tracked_of_reachable prior) transition

/-- A match of two that a player joins, leaves and joins again. -/
theorem join_leave_alternate_rejoin : ∃ run : MatchRun,
    run.history 7 = [true, false, true] ∧ matchSystem.Reachable JoinsOutsider run ∧
      Alternates (run.history 7) := by
  obtain ⟨run, executed, calls⟩ : ∃ run,
      matchSystem.execute JoinsOutsider { game := { id := 1, config := { maxPlayers := 2 } } }
        [.join 7 0 true, .leave 7, .leave 7, .join 7 1 true] = some run ∧
      run.history 7 = [true, false, true] := ⟨_, rfl, rfl⟩
  have reachable : matchSystem.Reachable JoinsOutsider run :=
    TransitionSystem.Reachable.execute (.initial ⟨_, _, _, rfl⟩) executed
  have anyRun := reachable.mono fun _ _ _ => trivial
  exact ⟨run, calls, reachable, ((join_leave_alternate_iff anyRun).mpr reachable 7).1⟩

/-- A player who asks to join twice. -/
theorem joined_twice : ∃ run : MatchRun, matchSystem.Reachable everyStep run ∧
    run.history 7 = [true, true] ∧ ¬ Alternates (run.history 7) := by
  obtain ⟨run, executed, calls⟩ : ∃ run,
      matchSystem.execute everyStep { game := { id := 1 } } [.join 7 0 true, .join 7 1 true] =
        some run ∧ run.history 7 = [true, true] := ⟨_, rfl, rfl⟩
  refine ⟨run, TransitionSystem.Reachable.execute (.initial ⟨_, _, _, rfl⟩) executed, calls, ?_⟩
  rw [calls]
  unfold Alternates
  decide

end MatchRun

end UringServer.Game
