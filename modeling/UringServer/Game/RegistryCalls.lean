import UringServer.Game.PlayerRegistry

/-!
# What the calls of a job write into the registry

`Match.Writes` ties the `UpdateMatch` calls of a job to the players that it adds to
its match and takes away; `matchId_perform` and `exists_perform` say what a call
leaves in the entry of a player.
-/

namespace UringServer.Game

/-- What the calls of a job write about the players it adds and takes away. -/
structure Match.Writes (game next : Match) (calls : List MatchCall) : Prop where
  sameId : next.id = game.id
  written : ∀ {player value}, .updateMatch player value ∈ calls →
    value = 0 ∨ value = game.id ∧ player ∈ next.players
  added : ∀ {player}, player ∈ next.players →
    player ∈ game.players ∨ .updateMatch player game.id ∈ calls
  removed : ∀ {player}, player ∈ game.players →
    player ∈ next.players ∨ .updateMatch player 0 ∈ calls

/-- A job that leaves `players_` as it is and calls no `UpdateMatch`. -/
theorem Match.Writes.none {game next : Match} {calls : List MatchCall} (sameId : next.id = game.id)
    (samePlayers : next.players = game.players)
    (silent : ∀ player value, .updateMatch player value ∉ calls) : game.Writes next calls where
  sameId := sameId
  written write := absurd write (silent _ _)
  added inside := .inl (samePlayers ▸ inside)
  removed inside := .inl (samePlayers ▸ inside)

theorem Match.Handled.writes {game next : Match} {job : MatchJob} {calls : List MatchCall}
    (handled : game.Handled job next calls) : game.Writes next calls := by
  cases handled with
  | joined player reactor active room =>
    refine ⟨rfl, ?_, ?_, ?_⟩
    · intro other value write
      simp only [List.mem_cons, List.not_mem_nil, reduceCtorEq, or_false, false_or,
        MatchCall.updateMatch.injEq] at write
      exact .inr ⟨write.2, AList.mem_insert _ |>.mpr (.inl write.1)⟩
    · intro other inside
      rcases (AList.mem_insert _).mp inside with rfl | before
      · exact .inr (by simp)
      · exact .inl before
    · intro other inside
      exact .inl ((AList.mem_insert _).mpr (.inr inside))
  | left player inside =>
    refine ⟨rfl, ?_, ?_, ?_⟩
    · intro other value write
      simp only [List.mem_cons, List.not_mem_nil, reduceCtorEq, or_false, false_or,
        MatchCall.updateMatch.injEq] at write
      exact .inl write.2
    · intro other remains
      exact .inl (AList.mem_erase.mp remains).2
    · intro other before
      by_cases same : other = player
      · exact .inr (by simp [same])
      · exact .inl (AList.mem_erase.mpr ⟨same, before⟩)
  | terminated order walk =>
    refine ⟨rfl, ?_, ?_, ?_⟩
    · intro other value write
      simp only [List.mem_cons, List.mem_flatMap, List.not_mem_nil, reduceCtorEq, or_false,
        false_or, MatchCall.updateMatch.injEq] at write
      obtain ⟨_, _, _, zero⟩ := write
      exact .inl zero
    · intro other inside
      exact absurd inside (AList.notMem_empty other)
    · intro other inside
      have walked : other ∈ order := walk.mem_iff.mpr inside
      exact .inr (List.mem_cons_of_mem _ (List.mem_flatMap.mpr ⟨other, walked, by simp⟩))
  | ticked now active =>
    refine .none rfl rfl ?_
    intro player value
    unfold Match.scheduleTick
    split_ifs <;> simp
  | declined | ignored | absent | message | late => exact .none rfl rfl (by simp)

/-- Where an entry has its match from after a call. -/
theorem PlayerRegistry.matchId_perform {registry : PlayerRegistry} {call : MatchCall}
    {player : PlayerId} {entry : PlayerEntry} (found : registry.perform call player = some entry) :
    call = .updateMatch player entry.matchId ∧ (registry player).isSome = true ∨
      (∀ value, call ≠ .updateMatch player value) ∧
        ∃ before, registry player = some before ∧ before.matchId = entry.matchId := by
  cases call with
  | updateMatch other value =>
    rw [PlayerRegistry.perform, PlayerRegistry.updateMatch] at found
    by_cases same : player = other
    · subst same
      rw [Function.update_self] at found
      obtain ⟨before, present, rfl⟩ := Option.map_eq_some_iff.mp found
      exact .inl ⟨rfl, Option.isSome_iff_exists.mpr ⟨before, present⟩⟩
    · rw [Function.update_of_ne same] at found
      refine .inr ⟨?_, entry, found, rfl⟩
      intro written clash
      exact same (MatchCall.updateMatch.inj clash).1.symm
  | updateStatus other status =>
    rw [PlayerRegistry.perform, PlayerRegistry.updateStatus] at found
    refine .inr ⟨by simp, ?_⟩
    by_cases same : player = other
    · subst same
      rw [Function.update_self] at found
      obtain ⟨before, present, rfl⟩ := Option.map_eq_some_iff.mp found
      exact ⟨before, present, rfl⟩
    · rw [Function.update_of_ne same] at found
      exact ⟨entry, found, rfl⟩
  | joinAttempt | onJoin | onLeave | onMessage | onTick | onTerminate | reserve =>
    exact .inr ⟨by simp, entry, found, rfl⟩

/-- No call registers or unregisters a player. -/
theorem PlayerRegistry.exists_perform {registry : PlayerRegistry} {player : PlayerId}
    (present : (registry player).isSome = true) (call : MatchCall) :
    ∃ entry, registry.perform call player = some entry := by
  rw [← Option.isSome_iff_exists]
  cases call with
  | updateMatch other | updateStatus other =>
    rw [PlayerRegistry.perform]
    by_cases same : player = other
    · subst same
      simpa [PlayerRegistry.updateMatch, PlayerRegistry.updateStatus] using present
    · simpa [PlayerRegistry.updateMatch, PlayerRegistry.updateStatus, same] using present
  | joinAttempt | onJoin | onLeave | onMessage | onTick | onTerminate | reserve => exact present

end UringServer.Game
