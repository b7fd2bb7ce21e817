import UringServer.Game.RegistryCalls

/-!
# What the registry says while jobs are under way

An entry of the registry names the match that wrote it last. A match that a player
leaves writes 0, whatever other match the player is in, and so does a new
connection of the player. `Consistent` is what holds between the calls as long as
each such write finds the player in no match but one that is being terminated, or a
join of the player has yet to be written.
-/

namespace UringServer.Game

open UringServer.Semantics

/-- The player whose match a call sets to 0. -/
def MatchCall.resets : MatchCall → Option PlayerId
  | .updateMatch player value => if value = 0 then some player else none
  | _ => none

namespace GameState

variable {state next : GameState} {action : GameAction}

/-- No job is halfway. -/
def Idle (state : GameState) : Prop := ∀ id, state.pending id = []

/-- The match of a registered player is one that has the player, and there is none exactly if no
match has the player. -/
def Agrees (state : GameState) : Prop := ∀ player entry, state.registry player = some entry →
  (entry.matchId = 0 ↔ ∀ id ∈ state.matchIds, player ∉ (state.games id).players) ∧
  (entry.matchId ≠ 0 → entry.matchId ∈ state.matchIds ∧
    player ∈ (state.games entry.matchId).players)

/-- The players whom a match keeps: none while a termination of it is running. -/
def kept (state : GameState) (id : MatchId) : AList fun _ : PlayerId => ContextId :=
  if state.terminating id then ∅ else (state.games id).players

variable {id : MatchId}

/-- A match that keeps a player has the player. -/
theorem mem_players_of_kept {player : PlayerId} (inside : player ∈ state.kept id) :
    player ∈ (state.games id).players := by
  unfold kept at inside
  split_ifs at inside
  · exact absurd inside (AList.notMem_empty player)
  · exact inside

/-- No match keeps the player, or a join of the player has yet to be written. -/
def Clear (state : GameState) (player : PlayerId) : Prop :=
  (∀ id ∈ state.matchIds, player ∉ state.kept id) ∨
    ∃ id ∈ state.matchIds, .updateMatch player id ∈ state.pending id

instance (state : GameState) (player : PlayerId) : Decidable (state.Clear player) :=
  inferInstanceAs (Decidable (_ ∨ _))

/-- A step that sets the match of a registered player to 0 finds the player clear. -/
def ResetsClear (state : GameState) : GameAction → Prop
  | .call id => ∀ player ∈ (state.pending id).head?.bind MatchCall.resets,
      (state.registry player).isSome = true → state.Clear player
  | .onPlayerConnected player _ => state.Clear player
  | _ => True

instance (state : GameState) (action : GameAction) : Decidable (state.ResetsClear action) := by
  cases action with
  | call id => exact Option.decidableForallMem _
  | createMatch | start | onPlayerConnected | onPlayerDisconnected =>
    unfold ResetsClear
    infer_instance

/-- What holds also while jobs are under way. -/
structure Consistent (state : GameState) : Prop where
  ids : ∀ id ∈ state.matchIds, (state.games id).id = id
  unused : ∀ id ∉ state.matchIds, state.pending id = []
  running : ∀ id, state.pending id = [] → state.terminating id = false
  written : ∀ {id player value}, .updateMatch player value ∈ state.pending id →
    value = 0 ∨ value = id ∧ player ∈ state.kept id
  unplaced : ∀ {player entry}, state.registry player = some entry → entry.matchId = 0 →
    state.Clear player
  placed : ∀ {player entry}, state.registry player = some entry → entry.matchId ≠ 0 →
    entry.matchId ∈ state.matchIds ∧ (player ∈ state.kept entry.matchId ∨
      .updateMatch player 0 ∈ state.pending entry.matchId)

/-- Without running jobs a match keeps all its players. -/
theorem Consistent.kept_eq (consistent : state.Consistent) (idle : state.Idle) (id : MatchId) :
    state.kept id = (state.games id).players := by
  rw [kept, consistent.running id (idle id), if_neg Bool.false_ne_true]

theorem Consistent.agrees (consistent : state.Consistent) (idle : state.Idle) : state.Agrees := by
  intro player entry found
  have inside : entry.matchId ≠ 0 → entry.matchId ∈ state.matchIds ∧
      player ∈ (state.games entry.matchId).players := by
    intro placed
    obtain ⟨isMatch, here | leaving⟩ := consistent.placed found placed
    · exact ⟨isMatch, mem_players_of_kept here⟩
    · rw [idle] at leaving
      cases leaving
  refine ⟨⟨?_, ?_⟩, inside⟩
  · intro zero id member
    rcases consistent.unplaced found zero with nowhere | ⟨other, _, joining⟩
    · rw [← consistent.kept_eq idle]
      exact nowhere id member
    · rw [idle] at joining
      cases joining
  · intro nowhere
    by_contra placed
    exact nowhere _ (inside placed).1 (inside placed).2

theorem mem_matchIds {id : Nat} : id ∈ state.matchIds ↔ 0 < id ∧ id < state.nextId := by
  rw [matchIds, List.mem_range'_1]
  omega

theorem zero_notMem_matchIds (state : GameState) : 0 ∉ state.matchIds := fun member =>
  absurd (mem_matchIds.mp member).1 (Nat.lt_irrefl 0)

/-- A match that is made joins the others, without players. -/
theorem Consistent.createMatch (consistent : state.Consistent) {config : MatchConfig} {now : Int}
    (created : state.step (.createMatch config now) = some next) : next.Consistent := by
  cases created
  have fresh : state.nextId ∉ state.matchIds := fun member =>
    absurd (mem_matchIds.mp member).2 (Nat.lt_irrefl _)
  have differs : ∀ {id}, id ∈ state.matchIds → id ≠ state.nextId := by
    rintro id member rfl
    exact fresh member
  have older : ∀ {id : Nat}, id ∈ matchIds { state with nextId := state.nextId + 1 } →
      id ∈ state.matchIds ∨ id = state.nextId := by
    intro id member
    rw [mem_matchIds] at member ⊢
    dsimp only at member
    omega
  have still : ∀ {id : Nat}, id ∈ state.matchIds →
      id ∈ matchIds { state with nextId := state.nextId + 1 } := by
    intro id member
    rw [mem_matchIds] at member ⊢
    dsimp only
    omega
  have quiet : state.terminating state.nextId = false :=
    consistent.running _ (consistent.unused _ fresh)
  have keeps : ∀ {id : Nat}, id ≠ state.nextId → kept { state with
      nextId := state.nextId + 1
      games := Function.update state.games state.nextId
        { id := state.nextId, config, lastTick := now } } id = state.kept id := by
    intro id different
    unfold kept
    dsimp only
    rw [Function.update_of_ne different]
  refine ⟨?_, ?_, consistent.running, ?_, ?_, ?_⟩
  · intro id member
    dsimp only
    by_cases new : id = state.nextId
    · rw [new, Function.update_self]
    · rw [Function.update_of_ne new]
      exact consistent.ids id ((older member).resolve_right new)
  · intro id outside
    exact consistent.unused id fun member => outside (still member)
  · intro id player value write
    have different : id ≠ state.nextId := by
      rintro rfl
      rw [show _ = _ from consistent.unused _ fresh] at write
      cases write
    rw [keeps different]
    exact consistent.written write
  · intro player entry found zero
    rcases consistent.unplaced found zero with nowhere | ⟨id, member, joining⟩
    · left
      intro id member
      by_cases new : id = state.nextId
      · simp [kept, new, quiet, AList.notMem_empty]
      · rw [keeps new]
        exact nowhere id ((older member).resolve_right new)
    · exact .inr ⟨id, still member, joining⟩
  · intro player entry found nonzero
    obtain ⟨member, place⟩ := consistent.placed found nonzero
    rw [keeps (differs member)]
    exact ⟨still member, place⟩

/-- What the start of a job does. -/
structure Started (state : GameState) (id : MatchId) (game : Match) (calls : List MatchCall)
    (next : GameState) : Prop where
  isMatch : id ∈ state.matchIds
  idle : state.pending id = []
  writes : (state.games id).Writes game calls
  registry : next.registry = state.registry
  matchIds : next.matchIds = state.matchIds
  pending : next.pending = Function.update state.pending id calls
  kept : next.kept = Function.update state.kept id game.players
  sameIds : ∀ other, (next.games other).id = (state.games other).id
  running : ∀ other, next.terminating other = true →
    other = id ∧ calls ≠ [] ∨ other ≠ id ∧ state.terminating other = true

theorem exists_started {job : MatchJob} (started : state.step (.start id job) = some next) :
    ∃ game calls, state.Started id game calls next := by
  rw [step] at started
  obtain ⟨free, ran⟩ := Option.ite_none_right_eq_some.mp started
  obtain ⟨⟨game, calls⟩, done, rfl⟩ := Option.map_eq_some_iff.mp ran
  have handled := Match.handled done
  have writes := handled.writes
  have cleared : job.terminates = true → game.players = ∅ ∧ calls ≠ [] := by
    cases handled with
    | terminated => exact fun _ => ⟨rfl, List.cons_ne_nil _ _⟩
    | joined | declined | ignored | left | absent | message | ticked | late => exact nofun
  refine ⟨game, calls, free.1, free.2, writes, rfl, rfl, rfl, ?_, fun other => ?_, fun other => ?_⟩
  · funext other
    by_cases same : other = id
    · subst same
      cases terminates : job.terminates with
      | true => simp [GameState.kept, cleared terminates]
      | false => simp [GameState.kept]
    · simp [GameState.kept, same]
  · by_cases same : other = id
    · subst same
      simpa using writes.sameId
    · simp [same]
  · by_cases same : other = id
    · subst same
      exact fun terminates => .inl ⟨rfl, (cleared (by simpa using terminates)).2⟩
    · exact fun running => .inr ⟨same, by simpa [same] using running⟩

/-- A job that adds the player has yet to write that. -/
theorem Clear.start {player : PlayerId} {game : Match} {calls : List MatchCall}
    (clear : state.Clear player) (ownId : (state.games id).id = id)
    (keeps : state.terminating id = false) (started : state.Started id game calls next) :
    next.Clear player := by
  unfold Clear at clear ⊢
  rw [started.matchIds, started.kept, started.pending]
  rcases clear with nowhere | ⟨other, member, joining⟩
  · by_cases added : player ∈ game.players
    · right
      have before : player ∉ (state.games id).players := by
        simpa [GameState.kept, keeps] using nowhere id started.isMatch
      have write := (started.writes.added added).resolve_left before
      refine ⟨id, started.isMatch, ?_⟩
      rwa [Function.update_self, ← ownId]
    · left
      intro other member
      by_cases same : other = id
      · rw [same, Function.update_self]
        exact added
      · rw [Function.update_of_ne same]
        exact nowhere other member
  · right
    refine ⟨other, member, ?_⟩
    have different : other ≠ id := by
      rintro rfl
      rw [started.idle] at joining
      cases joining
    rwa [Function.update_of_ne different]

/-- A job that starts on an idle match. -/
theorem Consistent.start (consistent : state.Consistent) {job : MatchJob}
    (transition : state.step (.start id job) = some next) : next.Consistent := by
  obtain ⟨game, calls, started⟩ := exists_started transition
  have ownId := consistent.ids id started.isMatch
  have quiet := consistent.running id started.idle
  refine ⟨?_, ?_, ?_, ?_, ?_, ?_⟩
  · intro other member
    rw [started.sameIds]
    exact consistent.ids other (started.matchIds ▸ member)
  · intro other outside
    rw [started.matchIds] at outside
    have different : other ≠ id := by
      rintro rfl
      exact outside started.isMatch
    rw [started.pending, Function.update_of_ne different]
    exact consistent.unused other outside
  · intro other done
    refine eq_false_of_ne_true fun running => ?_
    rw [started.pending] at done
    obtain ⟨rfl, calling⟩ | ⟨different, running⟩ := started.running other running
    · exact calling (by rwa [Function.update_self] at done)
    · rw [Function.update_of_ne different] at done
      rw [consistent.running other done] at running
      cases running
  · intro other player value write
    rw [started.pending] at write
    rw [started.kept]
    by_cases same : other = id
    · rw [same, Function.update_self] at write ⊢
      rw [← ownId]
      exact started.writes.written write
    · rw [Function.update_of_ne same] at write ⊢
      exact consistent.written write
  · intro player entry found zero
    rw [started.registry] at found
    exact (consistent.unplaced found zero).start ownId quiet started
  · intro player entry found nonzero
    rw [started.registry] at found
    obtain ⟨member, place⟩ := consistent.placed found nonzero
    rw [started.matchIds, started.kept, started.pending]
    refine ⟨member, ?_⟩
    by_cases same : entry.matchId = id
    · rw [same, Function.update_self, Function.update_self]
      rw [same, started.idle] at place
      exact started.writes.removed (mem_players_of_kept (place.resolve_right List.not_mem_nil))
    · rw [Function.update_of_ne same, Function.update_of_ne same]
      exact place

/-- What the next call of a job does. -/
structure Called (state : GameState) (id : MatchId) (call : MatchCall) (rest : List MatchCall)
    (next : GameState) : Prop where
  running : state.pending id = call :: rest
  registry : next.registry = state.registry.perform call
  matchIds : next.matchIds = state.matchIds
  pending : next.pending = Function.update state.pending id rest
  kept : next.kept = state.kept
  sameIds : ∀ other, (next.games other).id = (state.games other).id
  ended : ∀ other, next.terminating other = true →
    state.terminating other = true ∧ (other = id → rest ≠ [])

theorem exists_called (transition : state.step (.call id) = some next) :
    ∃ call rest, state.Called id call rest next := by
  rw [step] at transition
  split at transition
  case h_1 => cases transition
  case h_2 call rest running =>
  dsimp only at transition
  split_ifs at transition with last <;> cases transition
  · refine ⟨call, rest, running, rfl, rfl, rfl, ?_, fun other => ?_, fun other => ?_⟩
    · funext other
      by_cases same : other = id
      · subst same
        simp [GameState.kept, last.2]
      · simp [GameState.kept, same]
    · by_cases same : other = id
      · subst same
        simp
      · simp [same]
    · by_cases same : other = id
      · subst same
        simp
      · simp [same]
  · refine ⟨call, rest, running, rfl, rfl, rfl, rfl, fun _ => rfl, fun other terminating => ?_⟩
    refine ⟨terminating, fun same done => last ⟨done, ?_⟩⟩
    rw [← same]
    exact terminating

/-- A call that is made leaves the others to be made. -/
theorem mem_pending_call {id other : MatchId} {call write : MatchCall} {rest : List MatchCall}
    (running : state.pending id = call :: rest) (different : call ≠ write)
    (member : write ∈ state.pending other) :
    write ∈ Function.update state.pending id rest other := by
  by_cases same : other = id
  · rw [same, running] at member
    rw [same, Function.update_self]
    exact (List.mem_cons.mp member).resolve_left different.symm
  · rwa [Function.update_of_ne same]

theorem mem_of_mem_pending_call {id other : MatchId} {call write : MatchCall}
    {rest : List MatchCall} (running : state.pending id = call :: rest)
    (member : write ∈ Function.update state.pending id rest other) :
    write ∈ state.pending other := by
  by_cases same : other = id
  · rw [same, Function.update_self] at member
    rw [same, running]
    exact List.mem_cons_of_mem _ member
  · rwa [Function.update_of_ne same] at member

theorem Clear.call {player : PlayerId} {call : MatchCall} {rest : List MatchCall}
    (clear : state.Clear player) (called : state.Called id call rest next)
    (noJoin : ∀ value ≠ 0, call ≠ .updateMatch player value) : next.Clear player := by
  unfold Clear at clear ⊢
  rw [called.matchIds, called.kept, called.pending]
  rcases clear with nowhere | ⟨other, member, joining⟩
  · exact .inl nowhere
  · have nonzero : other ≠ 0 := by
      rintro rfl
      exact zero_notMem_matchIds state member
    exact .inr ⟨other, member, mem_pending_call called.running (noJoin other nonzero) joining⟩

/-- The next call of a job. -/
theorem Consistent.call (consistent : state.Consistent)
    (resets : state.ResetsClear (.call id)) (transition : state.step (.call id) = some next) :
    next.Consistent := by
  obtain ⟨call, rest, called⟩ := exists_called transition
  have running := called.running
  have isMatch : id ∈ state.matchIds := by
    by_contra outside
    rw [consistent.unused id outside] at running
    cases running
  refine ⟨?_, ?_, ?_, ?_, ?_, ?_⟩
  · intro other member
    rw [called.sameIds]
    exact consistent.ids other (called.matchIds ▸ member)
  · intro other outside
    rw [called.matchIds] at outside
    have different : other ≠ id := by
      rintro rfl
      exact outside isMatch
    rw [called.pending, Function.update_of_ne different]
    exact consistent.unused other outside
  · intro other done
    refine eq_false_of_ne_true fun terminating => ?_
    obtain ⟨before, more⟩ := called.ended other terminating
    rw [called.pending] at done
    by_cases same : other = id
    · rw [same, Function.update_self] at done
      exact more same done
    · rw [Function.update_of_ne same] at done
      rw [consistent.running other done] at before
      cases before
  · intro other player value write
    rw [called.pending] at write
    rw [called.kept]
    exact consistent.written (mem_of_mem_pending_call running write)
  · intro player entry found zero
    rw [called.registry] at found
    rcases PlayerRegistry.matchId_perform found with ⟨rfl, present⟩ | ⟨other, before, present, same⟩
    · have clear : state.Clear player := by
        refine resets player ?_ present
        rw [running, zero]
        rfl
      refine clear.call called ?_
      intro value nonzero clash
      exact nonzero (zero ▸ (MatchCall.updateMatch.inj clash).2).symm
    · refine (consistent.unplaced present (same.trans zero)).call called ?_
      intro value _
      exact other value
  · intro player entry found nonzero
    rw [called.registry] at found
    rw [called.matchIds, called.kept, called.pending]
    rcases PlayerRegistry.matchId_perform found with ⟨rfl, -⟩ | ⟨other, before, present, same⟩
    · have own := consistent.written (running ▸ List.mem_cons_self)
      obtain ⟨value, inside⟩ := own.resolve_left nonzero
      rw [value]
      exact ⟨isMatch, .inl inside⟩
    · rw [← same] at nonzero ⊢
      obtain ⟨member, place⟩ := consistent.placed present nonzero
      exact ⟨member, place.imp_right (mem_pending_call running (other 0))⟩

/-- Every step keeps the registry consistent. -/
theorem Consistent.step (consistent : state.Consistent) (resets : state.ResetsClear action)
    (transition : gameSystem.step state action = some next) : next.Consistent := by
  cases action with
  | createMatch config now => exact consistent.createMatch transition
  | start id job => exact consistent.start transition
  | call id => exact consistent.call resets transition
  | onPlayerConnected player reactor =>
    cases transition
    refine ⟨consistent.ids, consistent.unused, consistent.running, consistent.written, ?_, ?_⟩
    · intro other entry found zero
      dsimp only at found
      by_cases same : other = player
      · subst same
        exact resets
      · rw [PlayerRegistry.register_of_ne same] at found
        exact consistent.unplaced found zero
    · intro other entry found nonzero
      dsimp only at found
      by_cases same : other = player
      · rw [same, PlayerRegistry.register_self, Option.some.injEq] at found
        exact absurd (found ▸ rfl) nonzero
      · rw [PlayerRegistry.register_of_ne same] at found
        exact consistent.placed found nonzero
  | onPlayerDisconnected player =>
    cases transition
    have stays : ∀ {other entry}, state.registry.unregister player other = some entry →
        state.registry other = some entry := by
      intro other entry found
      by_cases same : other = player
      · rw [same, PlayerRegistry.unregister_self] at found
        cases found
      · rwa [PlayerRegistry.unregister_of_ne same] at found
    exact ⟨consistent.ids, consistent.unused, consistent.running, consistent.written,
      fun found => consistent.unplaced (stays found),
      fun found => consistent.placed (stays found)⟩

theorem consistent_of_reachable (reachable : gameSystem.Reachable ResetsClear state) :
    state.Consistent := by
  refine reachable.invariant Consistent ?_ fun consistent resets transition =>
    consistent.step resets transition
  rintro _ rfl
  exact ⟨nofun, fun _ _ => rfl, fun _ _ => rfl, nofun, nofun, nofun⟩

end GameState

end UringServer.Game
