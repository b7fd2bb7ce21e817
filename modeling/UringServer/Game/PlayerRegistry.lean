import Mathlib.Logic.Function.Basic
import UringServer.Game.Match

/-!
# `PlayerRegistry` and the matches that share it

Every match runs its jobs one after the other, but the jobs of different matches
run at the same time, and players connect and disconnect meanwhile. What is atomic
is one call of the registry, which is made under its mutex. `players_` of a match
is touched by the jobs of this match only: a join and a leave change it before their
calls, a termination clears it behind them.
-/

namespace UringServer.Game

open UringServer.Semantics UringServer.Web

/-- `PlayerRegistry::Entry`. -/
structure PlayerEntry where
  contextId : ContextId
  status : Text := ascii "online"
  matchId : MatchId := 0
deriving DecidableEq, Repr

/-- `players_` of a `PlayerRegistry`. -/
abbrev PlayerRegistry := PlayerId → Option PlayerEntry

namespace PlayerRegistry

/-- `PlayerRegistry::Register`. -/
def register (registry : PlayerRegistry) (player : PlayerId) (reactor : ContextId) :
    PlayerRegistry :=
  Function.update registry player (some { contextId := reactor })

/-- `PlayerRegistry::Unregister`. -/
def unregister (registry : PlayerRegistry) (player : PlayerId) : PlayerRegistry :=
  Function.update registry player none

/-- `PlayerRegistry::UpdateStatus`. -/
def updateStatus (registry : PlayerRegistry) (player : PlayerId) (status : Text) :
    PlayerRegistry :=
  Function.update registry player ((registry player).map fun entry => { entry with status })

/-- `PlayerRegistry::UpdateMatch`. -/
def updateMatch (registry : PlayerRegistry) (player : PlayerId) (matchId : MatchId) :
    PlayerRegistry :=
  Function.update registry player ((registry player).map fun entry => { entry with matchId })

variable (registry : PlayerRegistry) (player : PlayerId)

@[simp] theorem register_self (reactor : ContextId) :
    registry.register player reactor player = some { contextId := reactor } :=
  Function.update_self ..

@[simp] theorem unregister_self : registry.unregister player player = none :=
  Function.update_self ..

variable {registry player}

theorem register_of_ne {other : PlayerId} (different : other ≠ player) (reactor : ContextId) :
    registry.register player reactor other = registry other :=
  Function.update_of_ne different ..

theorem unregister_of_ne {other : PlayerId} (different : other ≠ player) :
    registry.unregister player other = registry other :=
  Function.update_of_ne different ..

/-- What a call of a job does to the registry. -/
def perform (registry : PlayerRegistry) : MatchCall → PlayerRegistry
  | .updateStatus player status => registry.updateStatus player status
  | .updateMatch player matchId => registry.updateMatch player matchId
  | _ => registry

end PlayerRegistry

/-- The registry with the matches that `MatchRegistry::CreateMatch` has made. -/
structure GameState where
  registry : PlayerRegistry := fun _ => none
  nextId : Nat := 1
  games : MatchId → Match := fun id => { id }
  /-- The calls that the running job of a match has yet to make. -/
  pending : MatchId → List MatchCall := fun _ => []
  /-- Whether the running job of a match is a termination. -/
  terminating : MatchId → Bool := fun _ => false

/-- Whether a job is a termination. -/
def MatchJob.terminates : MatchJob → Bool
  | .terminate _ => true
  | .join .. | .leave _ | .message .. | .tick _ => false

/-- One step of a thread. -/
inductive GameAction where
  | createMatch (config : MatchConfig) (now : Int)
  /-- A match starts its next job. -/
  | start (id : MatchId) (job : MatchJob)
  /-- The running job of a match makes its next call. -/
  | call (id : MatchId)
  /-- `PresenceTracker::OnPlayerConnected`. -/
  | onPlayerConnected (player : PlayerId) (reactor : ContextId)
  /-- `PresenceTracker::OnPlayerDisconnected`. -/
  | onPlayerDisconnected (player : PlayerId)
deriving DecidableEq, Repr

namespace GameState

/-- The matches there are. -/
def matchIds (state : GameState) : List MatchId := List.range' 1 (state.nextId - 1)

def step (state : GameState) : GameAction → Option GameState
  | .createMatch config now =>
    some { state with
      nextId := state.nextId + 1
      games := Function.update state.games state.nextId
        { id := state.nextId, config, lastTick := now } }
  | .start id job =>
    if id ∈ state.matchIds ∧ state.pending id = [] then
      ((state.games id).handle job).map fun done =>
        -- `HandleTerminate` leaves `players_` as it is until its calls are made
        let players := if job.terminates then (state.games id).players else done.1.players
        { state with
          games := Function.update state.games id { done.1 with players }
          pending := Function.update state.pending id done.2
          terminating := Function.update state.terminating id job.terminates }
    else
      none
  | .call id =>
    match state.pending id with
    | [] => none
    | call :: rest =>
      let called := { state with
        registry := state.registry.perform call
        pending := Function.update state.pending id rest }
      if rest = [] ∧ state.terminating id then
        some { called with
          games := Function.update state.games id { state.games id with players := ∅ }
          terminating := Function.update state.terminating id false }
      else
        some called
  | .onPlayerConnected player reactor =>
    some { state with registry := state.registry.register player reactor }
  | .onPlayerDisconnected player =>
    some { state with registry := state.registry.unregister player }

end GameState

/-- The matches and the connections as one program. -/
def gameSystem : TransitionSystem GameState GameAction where
  Initial state := state = {}
  step := GameState.step

end UringServer.Game
