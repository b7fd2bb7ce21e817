import Mathlib.Data.List.AList
import UringServer.Semantics.TransitionSystem
import UringServer.Web.RadixTree

/-!
# The jobs of a `Match`

A `Match` is a `JobQueue`: its requests push jobs, and its jobs run one after the
other. Each job is a function of the members of the match here, together with the
calls it makes to others: to the handler, to the `PlayerRegistry` and to the
`JobTimer`, in their order. What `JoinAttempt` answers, the time and the order in
which `players_` is walked through are arguments of the job.
-/

namespace UringServer.Game

open UringServer.Semantics UringServer.Web

abbrev PlayerId := UInt64

abbrev ContextId := UInt16

/-- What `MatchRegistry::next_id_` counts. -/
abbrev MatchId := Nat

/-- The fields of `MatchConfig` that the jobs read. -/
structure MatchConfig where
  /-- In Hz. -/
  tickRate : Nat := 20
  /-- 0 is no limit. -/
  maxPlayers : Nat := 0
deriving DecidableEq, Repr

/-- A call that a job makes. -/
inductive MatchCall where
  | joinAttempt (player : PlayerId)
  | onJoin (player : PlayerId)
  | onLeave (player : PlayerId)
  | onMessage (sender : PlayerId) (opcode : Int64) (data : List UInt8)
  | onTick (milliseconds : Int)
  | onTerminate
  /-- `PlayerRegistry::UpdateStatus`. -/
  | updateStatus (player : PlayerId) (status : Text)
  /-- `PlayerRegistry::UpdateMatch`. -/
  | updateMatch (player : PlayerId) (matchId : MatchId)
  /-- `JobTimer::Reserve` of the next tick. -/
  | reserve (milliseconds : Nat)
deriving DecidableEq, Repr

/-- The members of a `Match`. -/
structure Match where
  id : MatchId
  config : MatchConfig := {}
  players : AList (fun _ : PlayerId => ContextId) := ∅
  active : Bool := true
  /-- In nanoseconds. -/
  lastTick : Int := 0

namespace Match

/-- Whether the match is full. -/
def isFull (game : Match) : Prop :=
  0 < game.config.maxPlayers ∧ game.config.maxPlayers ≤ game.players.keys.length

instance (game : Match) : Decidable game.isFull := inferInstanceAs (Decidable (_ ∧ _))

/-- `Match::HandleJoin`, with the answer of `JoinAttempt`. -/
def handleJoin (game : Match) (player : PlayerId) (reactor : ContextId) (answer : Bool) :
    Match × List MatchCall :=
  if game.active = false then
    (game, [])
  else if game.isFull then
    (game, [])
  else if answer = false then
    (game, [.joinAttempt player])
  else
    ({ game with players := game.players.insert player reactor },
      [.joinAttempt player, .updateStatus player (ascii "in_game"), .updateMatch player game.id,
        .onJoin player])

/-- `Match::HandleLeave`. -/
def handleLeave (game : Match) (player : PlayerId) : Match × List MatchCall :=
  if player ∈ game.players then
    ({ game with players := game.players.erase player },
      [.updateStatus player (ascii "online"), .updateMatch player 0, .onLeave player])
  else
    (game, [])

/-- `Match::HandleMessage`. -/
def handleMessage (game : Match) (sender : PlayerId) (opcode : Int64) (data : List UInt8) :
    Match × List MatchCall :=
  (game, [.onMessage sender opcode data])

/-- `Match::ScheduleTick`. -/
def scheduleTick (game : Match) : List MatchCall :=
  if game.config.tickRate = 0 then [] else [.reserve (1000 / game.config.tickRate)]

/-- `Match::HandleTick`. -/
def handleTick (game : Match) (now : Int) : Match × List MatchCall :=
  if game.active = false then
    (game, [])
  else
    ({ game with lastTick := now },
      .onTick ((now - game.lastTick).tdiv 1000000) :: game.scheduleTick)

/-- `Match::HandleTerminate`, with the players in the order in which they are walked through. -/
def handleTerminate (game : Match) (order : List PlayerId) : Match × List MatchCall :=
  ({ game with active := false, players := ∅ },
    .onTerminate :: order.flatMap fun player =>
      [.updateStatus player (ascii "online"), .updateMatch player 0])

end Match

/-- The jobs that the requests of a match and its timer push. -/
inductive MatchJob where
  | join (player : PlayerId) (reactor : ContextId) (answer : Bool)
  | leave (player : PlayerId)
  | message (sender : PlayerId) (opcode : Int64) (data : List UInt8)
  | tick (now : Int)
  | terminate (order : List PlayerId)
deriving DecidableEq, Repr

/-- What a job does. A termination walks through the players of the match. -/
def Match.handle (game : Match) : MatchJob → Option (Match × List MatchCall)
  | .join player reactor answer => some (game.handleJoin player reactor answer)
  | .leave player => some (game.handleLeave player)
  | .message sender opcode data => some (game.handleMessage sender opcode data)
  | .tick now => some (game.handleTick now)
  | .terminate order =>
    if order.Perm game.players.keys then some (game.handleTerminate order) else none

/-- What a job did, by the branch it took. -/
inductive Match.Handled (game : Match) : MatchJob → Match → List MatchCall → Prop where
  | joined (player : PlayerId) (reactor : ContextId) (active : game.active = true)
      (room : ¬ game.isFull) :
      Handled game (.join player reactor true)
        { game with players := game.players.insert player reactor }
        [.joinAttempt player, .updateStatus player (ascii "in_game"), .updateMatch player game.id,
          .onJoin player]
  | declined (player : PlayerId) (reactor : ContextId) (active : game.active = true)
      (room : ¬ game.isFull) :
      Handled game (.join player reactor false) game [.joinAttempt player]
  | ignored (player : PlayerId) (reactor : ContextId) (answer : Bool)
      (closed : game.active = false ∨ game.isFull) :
      Handled game (.join player reactor answer) game []
  | left (player : PlayerId) (inside : player ∈ game.players) :
      Handled game (.leave player) { game with players := game.players.erase player }
        [.updateStatus player (ascii "online"), .updateMatch player 0, .onLeave player]
  | absent (player : PlayerId) (outside : player ∉ game.players) :
      Handled game (.leave player) game []
  | message (sender : PlayerId) (opcode : Int64) (data : List UInt8) :
      Handled game (.message sender opcode data) game [.onMessage sender opcode data]
  | ticked (now : Int) (active : game.active = true) :
      Handled game (.tick now) { game with lastTick := now }
        (.onTick ((now - game.lastTick).tdiv 1000000) :: game.scheduleTick)
  | late (now : Int) (inactive : game.active = false) : Handled game (.tick now) game []
  | terminated (order : List PlayerId) (walk : order.Perm game.players.keys) :
      Handled game (.terminate order) { game with active := false, players := ∅ }
        (.onTerminate :: order.flatMap fun player =>
          [.updateStatus player (ascii "online"), .updateMatch player 0])

/-- What each job of a match can do. -/
theorem Match.handled {game next : Match} {job : MatchJob} {calls : List MatchCall}
    (done : game.handle job = some (next, calls)) : game.Handled job next calls := by
  cases job with
  | join player reactor answer =>
    rw [Match.handle, Option.some.injEq, Match.handleJoin] at done
    split_ifs at done with inactive full declines <;> cases done
    · exact .ignored player reactor answer (.inl inactive)
    · exact .ignored player reactor answer (.inr full)
    · subst declines
      exact .declined player reactor (Bool.not_eq_false _ ▸ inactive) full
    · rw [Bool.not_eq_false] at declines inactive
      subst declines
      exact .joined player reactor inactive full
  | leave player =>
    rw [Match.handle, Option.some.injEq, Match.handleLeave] at done
    split_ifs at done with inside <;> cases done
    · exact .left player inside
    · exact .absent player inside
  | message sender opcode data =>
    cases done
    exact .message sender opcode data
  | tick now =>
    rw [Match.handle, Option.some.injEq, Match.handleTick] at done
    split_ifs at done with inactive <;> cases done
    · exact .late now inactive
    · exact .ticked now (Bool.not_eq_false _ ▸ inactive)
  | terminate order =>
    rw [Match.handle] at done
    split_ifs at done with walk
    cases done
    exact .terminated order walk

/-- A match with the calls its jobs have made. -/
structure MatchRun where
  game : Match
  calls : List MatchCall := []

/-- A match that runs jobs. -/
def matchSystem : TransitionSystem MatchRun MatchJob where
  Initial run := ∃ id config lastTick, run = { game := { id, config, lastTick } }
  step run job := (run.game.handle job).map fun done =>
    { game := done.1, calls := run.calls ++ done.2 }

theorem matchSystem_step {run next : MatchRun} {job : MatchJob}
    (transition : matchSystem.step run job = some next) :
    ∃ game made, run.game.Handled job game made ∧ next = ⟨game, run.calls ++ made⟩ := by
  obtain ⟨⟨game, made⟩, done, rfl⟩ := Option.map_eq_some_iff.mp transition
  exact ⟨game, made, Match.handled done, rfl⟩

end UringServer.Game
