import UringServer.Game.RegistryConsistent

/-!
# The registry and the matches agree

Without a write of 0 for a player whom a match keeps, the registry is right whenever
no job is under way. The first such write makes it wrong, and what the running jobs
have left to call does not put it right.
-/

namespace UringServer.Game

open UringServer.Semantics

namespace GameState

variable {state next : GameState} {action : GameAction}

/-- A registered player who is in a match without the registry knowing, and no call will tell
it. -/
structure Misplaced (state : GameState) (player : PlayerId) : Prop where
  unplaced : ∃ entry, state.registry player = some entry ∧ entry.matchId = 0
  inside : ∃ id ∈ state.matchIds, player ∈ state.kept id
  noJoin : ∀ id, ∀ value ≠ 0, .updateMatch player value ∉ state.pending id

theorem Misplaced.not_agrees {player : PlayerId} (misplaced : state.Misplaced player) :
    ¬ state.Agrees := by
  intro agrees
  obtain ⟨entry, found, zero⟩ := misplaced.unplaced
  obtain ⟨id, member, here⟩ := misplaced.inside
  exact (agrees player entry found).1.mp zero id member (mem_players_of_kept here)

/-- What is wrong stays wrong while the running jobs go on. -/
theorem Misplaced.call {player : PlayerId} (misplaced : state.Misplaced player) {id : MatchId}
    (transition : state.step (.call id) = some next) : next.Misplaced player := by
  obtain ⟨call, rest, called⟩ := exists_called transition
  obtain ⟨before, present, zero⟩ := misplaced.unplaced
  obtain ⟨entry, found⟩ :=
    PlayerRegistry.exists_perform (Option.isSome_iff_exists.mpr ⟨before, present⟩) call
  refine ⟨⟨entry, called.registry ▸ found, ?_⟩, ?_, ?_⟩
  · rcases PlayerRegistry.matchId_perform found with ⟨rfl, -⟩ | ⟨-, same, stored, kept⟩
    · by_contra nonzero
      exact misplaced.noJoin id _ nonzero (called.running ▸ List.mem_cons_self)
    · rw [present, Option.some.injEq] at stored
      rw [← kept, ← stored]
      exact zero
  · rw [called.matchIds, called.kept]
    exact misplaced.inside
  · intro other value nonzero write
    rw [called.pending] at write
    exact misplaced.noJoin other value nonzero (mem_of_mem_pending_call called.running write)

/-- A step that sets the match of a player to 0 who is not clear. -/
theorem Consistent.misplaced (consistent : state.Consistent) (fails : ¬ state.ResetsClear action)
    (transition : gameSystem.step state action = some next) :
    ∃ player, next.Misplaced player := by
  have notClear : ∀ {player}, ¬ state.Clear player →
      (∃ id ∈ state.matchIds, player ∈ state.kept id) ∧
        ∀ id, ∀ value ≠ 0, .updateMatch player value ∉ state.pending id := by
    intro player notClear
    simp only [Clear, not_or, not_forall, not_not, not_exists, not_and] at notClear
    obtain ⟨⟨id, member, inside⟩, noJoin⟩ := notClear
    refine ⟨⟨id, member, inside⟩, ?_⟩
    intro other value nonzero write
    obtain ⟨rfl, -⟩ := (consistent.written write).resolve_left nonzero
    by_cases isMatch : value ∈ state.matchIds
    · exact noJoin value isMatch write
    · rw [consistent.unused value isMatch] at write
      cases write
  cases action with
  | createMatch | start | onPlayerDisconnected => exact absurd trivial fails
  | onPlayerConnected player reactor =>
    cases transition
    obtain ⟨inside, noJoin⟩ := notClear fails
    exact ⟨player, ⟨_, state.registry.register_self player reactor, rfl⟩, inside, noJoin⟩
  | call id =>
    simp only [ResetsClear, Classical.not_forall] at fails
    obtain ⟨player, head, present, unclear⟩ := fails
    obtain ⟨inside, noJoin⟩ := notClear unclear
    obtain ⟨call, rest, called⟩ := exists_called transition
    have isReset : call = .updateMatch player 0 := by
      rw [called.running, List.head?_cons, Option.bind_some] at head
      unfold MatchCall.resets at head
      split at head
      · split_ifs at head with zero <;> cases head
        rw [zero]
      · cases head
    obtain ⟨entry, found⟩ := PlayerRegistry.exists_perform present call
    refine ⟨player, ⟨entry, called.registry ▸ found, ?_⟩, ?_, ?_⟩
    · rcases PlayerRegistry.matchId_perform found with ⟨written, -⟩ | ⟨other, -⟩
      · exact (MatchCall.updateMatch.inj (isReset.symm.trans written)).2.symm
      · exact absurd isReset (other 0)
    · rw [called.matchIds, called.kept]
      exact inside
    · intro other value nonzero write
      rw [called.pending] at write
      exact noJoin other value nonzero (mem_of_mem_pending_call called.running write)

theorem Misplaced.execute {player : PlayerId} (misplaced : state.Misplaced player)
    {ids : List MatchId} {final : GameState}
    (finished : gameSystem.execute everyStep state (ids.map .call) = some final) :
    final.Misplaced player := by
  induction ids generalizing state with
  | nil =>
    cases finished
    exact misplaced
  | cons id ids ih =>
    have admitted : everyStep state (GameAction.call id) := trivial
    rw [List.map_cons, TransitionSystem.execute, if_pos admitted] at finished
    obtain ⟨next, called, rest⟩ := Option.bind_eq_some_iff.mp finished
    exact ih (misplaced.call called) rest

/-- In every run that sets the match of a registered player to 0 only when the player is clear,
the registry agrees with the matches whenever no job is halfway. The first step that does not
meet this leaves the registry wrong, also when the running jobs go on to their ends. -/
theorem registry_agrees (reachable : gameSystem.Reachable ResetsClear state) :
    (state.Idle → state.Agrees) ∧
    ∀ action next, gameSystem.step state action = some next → ¬ state.ResetsClear action →
      ∀ (ids : List MatchId) final, gameSystem.execute everyStep next (ids.map .call) = some final →
        ¬ final.Agrees := by
  have consistent := consistent_of_reachable reachable
  refine ⟨consistent.agrees, ?_⟩
  intro action next transition fails ids final finished
  obtain ⟨player, misplaced⟩ := consistent.misplaced fails transition
  exact (misplaced.execute finished).not_agrees

/-- The matches there are decide whether a job is halfway. -/
theorem Consistent.idle (consistent : state.Consistent)
    (done : ∀ id ∈ state.matchIds, state.pending id = []) : state.Idle := by
  intro id
  by_cases isMatch : id ∈ state.matchIds
  · exact done id isMatch
  · exact consistent.unused id isMatch

/-- Two matches, and a player who joins the first. -/
def oneJoin : List GameAction :=
  [.createMatch {} 0, .createMatch {} 0, .onPlayerConnected 7 0, .start 1 (.join 7 0 true),
    .call 1, .call 1, .call 1, .call 1]

/-- The first match is terminated, and the player joins the second. -/
theorem registry_agrees_two_matches : ∃ state : GameState, state.Idle ∧ state.Agrees ∧
    (state.registry 7).map (·.matchId) = some 2 := by
  obtain ⟨state, executed, done, placed⟩ : ∃ state,
      gameSystem.execute ResetsClear {} (oneJoin ++
        [.start 1 (.terminate [7]), .call 1, .call 1, .call 1, .start 2 (.join 7 0 true), .call 2,
          .call 2, .call 2, .call 2]) = some state ∧
      (∀ id ∈ state.matchIds, state.pending id = []) ∧
      (state.registry 7).map (·.matchId) = some 2 :=
    ⟨_, rfl, by decide, rfl⟩
  have reachable := TransitionSystem.Reachable.execute (.initial rfl) executed
  have idle := (consistent_of_reachable reachable).idle done
  exact ⟨state, idle, (registry_agrees reachable).1 idle, placed⟩

/-- A player who connects again while a match has the player. -/
theorem reconnected_player_misplaced : ∃ state : GameState,
    gameSystem.Reachable everyStep state ∧ state.Idle ∧ ¬ state.Agrees := by
  obtain ⟨state, executed, done, inside⟩ : ∃ state,
      gameSystem.execute ResetsClear {} oneJoin = some state ∧
      (∀ id ∈ state.matchIds, state.pending id = []) ∧
      1 ∈ state.matchIds ∧ 7 ∈ (state.games 1).players :=
    ⟨_, rfl, by decide, by decide, by decide⟩
  have reachable := TransitionSystem.Reachable.execute (.initial rfl) executed
  have idle := (consistent_of_reachable reachable).idle done
  obtain ⟨next, transition, same, again⟩ : ∃ next,
      gameSystem.step state (.onPlayerConnected 7 0) = some next ∧
      next = { state with registry := next.registry } ∧
      next.registry 7 = some { contextId := 0 } := ⟨_, rfl, rfl, state.registry.register_self 7 0⟩
  refine ⟨next, .step (reachable.mono fun _ _ _ => trivial) trivial transition, ?_, ?_⟩
  · rw [same]
    exact idle
  · intro agrees
    have nowhere := (agrees 7 _ again).1.mp rfl
    rw [same] at nowhere
    exact nowhere 1 inside.1 inside.2

end GameState

end UringServer.Game
