import UringServer.Game.TicketPartition

/-!
# Players in the matches of one tick

`TryMatch` goes by the tickets and does not look at their players. The players of
the tickets it joins are distinct because those of the queued tickets are, and that
is up to the callers of `AddTicket`.
-/

namespace UringServer.Game

open UringServer.Semantics UringServer.Web MatchmakerTicket

namespace MatchmakerQueue

variable {Double : Type}
  {accepts : MatchmakerTicket Double → MatchmakerTicket Double → Bool}
  {queue : MatchmakerQueue Double}

/-- A ticket is added only for a player who has none in the queue. -/
def AddsNewPlayer (queue : MatchmakerQueue Double) : MatchmakerJob Double → Prop
  | .addTicket ticket _ => ticket.playerId ∉ queue.tickets.map playerId
  | _ => True

instance (queue : MatchmakerQueue Double) (job : MatchmakerJob Double) :
    Decidable (queue.AddsNewPlayer job) :=
  match job with
  | .addTicket ticket _ => inferInstanceAs (Decidable (ticket.playerId ∉ _))
  | .removeTicket _ | .removeByPlayer _ | .tick _ _ => .isTrue trivial

theorem nodup_players_handle {job : MatchmakerJob Double}
    (distinct : (queue.tickets.map playerId).Nodup) (admitted : queue.AddsNewPlayer job) :
    ((queue.handle accepts job).tickets.map playerId).Nodup := by
  cases job with
  | addTicket ticket now =>
    change ((queue.tickets ++ [_]).map playerId).Nodup
    rw [List.map_append]
    exact distinct.append (List.nodup_singleton _) (List.disjoint_singleton.mpr admitted)
  | removeTicket | removeByPlayer | tick =>
    exact distinct.sublist ((handle_sublist (by simp)).1.map playerId)

theorem nodup_players_of_reachable
    (reachable : (matchmakerSystem accepts).Reachable AddsNewPlayer queue) :
    (queue.tickets.map playerId).Nodup := by
  refine TransitionSystem.Reachable.invariant
    (fun queue => (queue.tickets.map playerId).Nodup) ?_ ?_ reachable
  · rintro _ rfl
    exact .nil
  · intro state job next distinct admitted transition
    cases transition
    exact nodup_players_handle distinct admitted

/-- As long as tickets are added only for players without one, no two tickets that a tick joins
to matches are of one player. -/
theorem players_matched_once
    (reachable : (matchmakerSystem accepts).Reachable AddsNewPlayer queue) (now : Int)
    (create : Nat → Text → Option MatchId) :
    ((queue.processTick accepts now create).joined.map playerId).Nodup := by
  have perm := (processTick_perm (queue.processTick accepts now create) rfl).map playerId
  have distinct := perm.nodup_iff.mpr (nodup_players_of_reachable reachable)
  rw [List.map_append, List.map_append] at distinct
  exact distinct.of_append_left.of_append_right

/-- Two players, one of whom has left the queue and come back. -/
theorem players_matched_once_two : ∃ (queue : MatchmakerQueue Unit) (tick : Tick Unit),
    tick = queue.processTick (MatchmakerTicket.accepts Numerals.unread) 10 (fun _ _ => some 1) ∧
      tick.joined.map playerId = [8, 7] ∧ (tick.joined.map playerId).Nodup ∧
      queue.tickets.map ticketId = [2, 3] := by
  obtain ⟨queue, executed, ids, joined⟩ : ∃ queue,
      (matchmakerSystem (MatchmakerTicket.accepts Numerals.unread)).execute AddsNewPlayer {}
        [.addTicket { playerId := 7 } 5, .addTicket { playerId := 8 } 5, .removeByPlayer 7,
          .addTicket { playerId := 7 } 5] = some queue ∧
      queue.tickets.map ticketId = [2, 3] ∧
      (queue.processTick (MatchmakerTicket.accepts Numerals.unread) 10
        fun _ _ => some 1).joined.map playerId = [8, 7] :=
    ⟨_, rfl, by decide, by decide⟩
  have reachable := TransitionSystem.Reachable.execute (.initial rfl) executed
  exact ⟨queue, _, rfl, joined, players_matched_once reachable 10 fun _ _ => some 1, ids⟩

/-- A player who adds two tickets is matched with themselves. -/
theorem player_matched_twice : ∃ queue : MatchmakerQueue Unit,
    (matchmakerSystem (MatchmakerTicket.accepts Numerals.unread)).Reachable everyStep queue ∧
      (queue.processTick (MatchmakerTicket.accepts Numerals.unread) 10
        fun _ _ => some 1).joined.map playerId = [7, 7] := by
  obtain ⟨queue, executed, joined⟩ : ∃ queue,
      (matchmakerSystem (MatchmakerTicket.accepts Numerals.unread)).execute everyStep {}
        [.addTicket { playerId := 7 } 5, .addTicket { playerId := 7 } 5] = some queue ∧
      (queue.processTick (MatchmakerTicket.accepts Numerals.unread) 10
        fun _ _ => some 1).joined.map playerId = [7, 7] :=
    ⟨_, rfl, by decide⟩
  exact ⟨queue, TransitionSystem.Reachable.execute (.initial rfl) executed, joined⟩

end MatchmakerQueue

end UringServer.Game
