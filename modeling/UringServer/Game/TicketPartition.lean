import UringServer.Game.Matchmaker

/-!
# What a tick does with the tickets it finds

`Formed` says of the attempts of `TryMatch` that their groups are taken out of the
tickets, and that no group has a ticket which an earlier one joined to a match. So
the tickets that are joined and those that remain are all tickets, each once.
-/

namespace UringServer.Game

open UringServer.Semantics UringServer.Web MatchmakerTicket

variable {Double : Type}
  {accepts : MatchmakerTicket Double → MatchmakerTicket Double → Bool}
  {create : Nat → Text → Option MatchId}

theorem Attempt.mem_joined {attempt : Attempt Double} {slot : Slot Double} :
    slot ∈ attempt.joined ↔ attempt.created.isSome ∧ slot ∈ attempt.group := by
  unfold Attempt.joined
  split <;> simp_all

theorem Attempt.joined_sublist (attempt : Attempt Double) :
    attempt.joined.Sublist attempt.group := by
  unfold Attempt.joined
  split
  · exact .refl _
  · exact List.nil_sublist _

/-- What is known of the attempts at any time, over the slots they are made from. -/
structure Formed (slots : List (Slot Double)) (matching : Matching Double) : Prop where
  used : matching.used = matching.joined.map Prod.snd
  inside : ∀ attempt ∈ matching.attempts, attempt.group.Sublist slots
  apart : matching.attempts.Pairwise fun earlier later =>
    ∀ slot ∈ later.group, slot.2 ∉ earlier.joined.map Prod.snd

namespace Formed

variable {slots : List (Slot Double)} {matching next : Matching Double}

/-- One attempt more, with a group of unused slots. -/
theorem attempt (formed : Formed slots matching) {group : List (Slot Double)}
    (inside : group.Sublist slots) (unused : ∀ slot ∈ group, slot.2 ∉ matching.used)
    (created : Option MatchId) :
    Formed slots ⟨matching.used ++ (Attempt.joined ⟨group, created⟩).map Prod.snd,
      matching.attempts ++ [⟨group, created⟩]⟩ where
  used := by
    rw [formed.used, Matching.joined, Matching.joined, List.flatMap_append, List.map_append,
      List.flatMap_singleton]
  inside := by
    intro attempt member
    obtain earlier | new := List.mem_append.mp member
    · exact formed.inside attempt earlier
    · cases List.mem_singleton.mp new
      exact inside
  apart := by
    refine List.pairwise_append.mpr ⟨formed.apart, List.pairwise_singleton _ _, ?_⟩
    intro earlier member later new slot inGroup joined
    cases List.mem_singleton.mp new
    refine unused slot inGroup ?_
    rw [formed.used, Matching.joined, List.map_flatMap]
    exact List.mem_flatMap.mpr ⟨earlier, member, joined⟩

/-- One pass of the outer loop. -/
theorem pass {leader : Slot Double} {rest : List (Slot Double)}
    (behind : leader :: rest <:+ slots) (formed : Formed slots matching)
    (pass : Pass accepts create matching leader rest next) : Formed slots next := by
  have inside : (groupOf accepts matching.used leader rest).Sublist slots :=
    groupOf_sublist.trans behind.sublist
  cases pass with
  | used | small => exact formed
  | failed free =>
    have grown := formed.attempt inside (fun _ => unused_of_mem_groupOf free) none
    rwa [Attempt.joined, if_neg (by simp), List.map_nil, List.append_nil] at grown
  | created free _ id =>
    exact formed.attempt inside (fun _ => unused_of_mem_groupOf free) (some id)

/-- No index is joined twice. -/
theorem nodup_joined (formed : Formed slots matching) (distinct : (slots.map Prod.snd).Nodup) :
    (matching.joined.map Prod.snd).Nodup := by
  rw [Matching.joined, List.map_flatMap, List.nodup_flatMap]
  constructor
  · intro attempt member
    have sublist := attempt.joined_sublist.trans (formed.inside attempt member)
    exact distinct.sublist (sublist.map Prod.snd)
  · refine formed.apart.imp ?_
    intro earlier later apart index joinedEarlier joinedLater
    obtain ⟨slot, inLater, rfl⟩ := List.mem_map.mp joinedLater
    exact apart slot (later.joined_sublist.subset inLater) joinedEarlier

theorem joined_subset (formed : Formed slots matching) : matching.joined ⊆ slots := by
  intro slot joined
  obtain ⟨attempt, member, inJoined⟩ := List.mem_flatMap.mp joined
  exact (formed.inside attempt member).subset (attempt.joined_sublist.subset inJoined)

/-- The slots that are joined and those that remain are all slots. -/
theorem perm (formed : Formed slots matching) (distinct : (slots.map Prod.snd).Nodup) :
    (matching.joined ++ slots.filter (·.2 ∉ matching.used)).Perm slots := by
  have joinedOnce : matching.joined.Nodup := (formed.nodup_joined distinct).of_map
  have remainOnce : (slots.filter (·.2 ∉ matching.used)).Nodup := distinct.of_map.filter _
  have apart : matching.joined.Disjoint (slots.filter (·.2 ∉ matching.used)) := by
    intro slot joined remains
    simp only [formed.used, List.mem_filter, decide_eq_true_eq] at remains
    exact remains.2 (List.mem_map_of_mem joined)
  refine (List.perm_ext_iff_of_nodup (joinedOnce.append remainOnce apart) distinct.of_map).mpr ?_
  intro slot
  rw [List.mem_append, List.mem_filter, decide_eq_true_eq]
  constructor
  · rintro (joined | ⟨inside, -⟩)
    · exact formed.joined_subset joined
    · exact inside
  · intro inside
    by_cases flagged : slot.2 ∈ matching.used
    · rw [formed.used] at flagged
      obtain ⟨other, joined, same⟩ := List.mem_map.mp flagged
      -- An index belongs to one slot.
      cases List.inj_on_of_nodup_map distinct (formed.joined_subset joined) inside same
      exact .inl joined
    · exact .inr ⟨inside, flagged⟩

/-- A slot of a failed attempt remains, or a later attempt joined it. -/
theorem failed (formed : Formed slots matching) (distinct : (slots.map Prod.snd).Nodup)
    {before after : List (Attempt Double)} {attempt : Attempt Double}
    (made : matching.attempts = before ++ attempt :: after) (failed : attempt.created = none)
    {slot : Slot Double} (member : slot ∈ attempt.group) :
    slot ∈ slots.filter (·.2 ∉ matching.used) ∨ ∃ later ∈ after, slot ∈ later.joined := by
  have inside : slot ∈ slots :=
    (formed.inside attempt (made ▸ List.mem_append_right _ List.mem_cons_self)).subset member
  by_cases flagged : slot.2 ∈ matching.used
  case neg => exact .inl (List.mem_filter.mpr ⟨inside, decide_eq_true flagged⟩)
  rw [formed.used] at flagged
  obtain ⟨other, joined, same⟩ := List.mem_map.mp flagged
  cases List.inj_on_of_nodup_map distinct (formed.joined_subset joined) inside same
  obtain ⟨maker, isMade, inJoined⟩ := List.mem_flatMap.mp joined
  rw [made] at isMade
  have apart := formed.apart
  rw [made] at apart
  obtain isBefore | here := List.mem_append.mp isMade
  · have earlier := (List.pairwise_append.mp apart).2.2 maker isBefore attempt List.mem_cons_self
    exact absurd (List.mem_map_of_mem inJoined) (earlier slot member)
  · obtain rfl | isAfter := List.mem_cons.mp here
    · rw [Attempt.mem_joined, failed] at inJoined
      exact absurd inJoined.1 (by simp)
    · exact .inr ⟨maker, isAfter, inJoined⟩

end Formed

theorem tryMatch_formed (tickets : List (MatchmakerTicket Double)) :
    Formed tickets.zipIdx (tryMatch accepts create tickets).matching := by
  refine tryMatch_rule (Formed tickets.zipIdx) ?_ ?_
  · exact fun _ _ _ _ behind formed pass => formed.pass behind pass
  · exact ⟨rfl, by simp, .nil⟩

namespace MatchmakerQueue

variable {queue : MatchmakerQueue Double} {now : Int}

/-- What a tick reports, joins and keeps are the tickets it found. -/
theorem processTick_perm (tick : Tick Double) (done : queue.processTick accepts now create = tick) :
    (tick.timeouts ++ tick.joined ++ tick.queue.tickets).Perm queue.tickets := by
  subst done
  let alive := queue.tickets.filter (!expired now ·)
  have matched : ((tryMatch accepts create alive).matching.joined ++
      (tryMatch accepts create alive).remaining).Perm alive.zipIdx := by
    rw [remaining_tryMatch]
    exact (tryMatch_formed alive).perm (List.nodup_zipIdx_map_snd alive)
  have together := matched.map Prod.fst
  rw [List.map_append, List.zipIdx_map_fst] at together
  rw [List.append_assoc]
  exact (together.append_left _).trans (List.filter_append_perm (expired now) queue.tickets)

/-- A tick keeps tickets in their order. -/
theorem processTick_sublist :
    (queue.processTick accepts now create).queue.tickets.Sublist queue.tickets := by
  let alive := queue.tickets.filter (!expired now ·)
  have remaining : ((tryMatch accepts create alive).remaining.map Prod.fst).Sublist alive := by
    have sublist := (List.filter_sublist (l := alive.zipIdx) (p := fun slot =>
      slot.2 ∉ (tryMatch accepts create alive).matching.used)).map Prod.fst
    rwa [List.zipIdx_map_fst, ← remaining_tryMatch] at sublist
  exact remaining.trans List.filter_sublist

/-- A job other than `AddTicket` keeps some of the tickets, in their order. -/
theorem handle_sublist {job : MatchmakerJob Double}
    (keeps : ∀ ticket now, job ≠ .addTicket ticket now) :
    (queue.handle accepts job).tickets.Sublist queue.tickets ∧
      (queue.handle accepts job).nextTicketId = queue.nextTicketId := by
  cases job with
  | addTicket ticket now => exact absurd rfl (keeps ticket now)
  | removeTicket ticketId => exact ⟨List.filter_sublist, rfl⟩
  | removeByPlayer player => exact ⟨List.filter_sublist, rfl⟩
  | tick now create => exact ⟨processTick_sublist, rfl⟩

/-- A ticket is added only while there is an id behind `next_ticket_id_`. -/
def Numbered (queue : MatchmakerQueue Double) : MatchmakerJob Double → Prop
  | .addTicket _ _ => queue.nextTicketId.toNat + 1 < 2 ^ 64
  | _ => True

instance (queue : MatchmakerQueue Double) (job : MatchmakerJob Double) :
    Decidable (queue.Numbered job) :=
  match job with
  | .addTicket _ _ => inferInstanceAs (Decidable (_ < _))
  | .removeTicket _ | .removeByPlayer _ | .tick _ _ => .isTrue trivial

/-- The ids go up, and the next one is above them. -/
structure Ordered (queue : MatchmakerQueue Double) : Prop where
  increasing : queue.tickets.Pairwise fun earlier later => earlier.ticketId < later.ticketId
  below : ∀ ticket ∈ queue.tickets, ticket.ticketId < queue.nextTicketId

theorem Ordered.sublist (ordered : queue.Ordered) {next : MatchmakerQueue Double}
    (kept : next.tickets.Sublist queue.tickets ∧ next.nextTicketId = queue.nextTicketId) :
    next.Ordered where
  increasing := ordered.increasing.sublist kept.1
  below := fun ticket member => kept.2 ▸ ordered.below ticket (kept.1.subset member)

/-- Every job keeps the ids in order. -/
theorem Ordered.handle (ordered : queue.Ordered) {job : MatchmakerJob Double}
    (numbered : queue.Numbered job) : (queue.handle accepts job).Ordered := by
  cases job with
  | addTicket ticket now =>
    have higher : queue.nextTicketId < queue.nextTicketId + 1 := by
      rw [UInt64.lt_iff_toNat_lt, UInt64.toNat_add, UInt64.toNat_one, Nat.mod_eq_of_lt numbered]
      exact Nat.lt_succ_self _
    constructor
    · refine List.pairwise_append.mpr ⟨ordered.increasing, List.pairwise_singleton _ _, ?_⟩
      intro earlier member added new
      cases List.mem_singleton.mp new
      exact ordered.below earlier member
    · intro other member
      obtain earlier | new := List.mem_append.mp member
      · exact UInt64.lt_trans (ordered.below other earlier) higher
      · cases List.mem_singleton.mp new
        exact higher
  | removeTicket | removeByPlayer | tick => exact ordered.sublist (handle_sublist (by simp))

theorem ordered_of_reachable (reachable : (matchmakerSystem accepts).Reachable Numbered queue) :
    queue.Ordered := by
  refine TransitionSystem.Reachable.invariant Ordered ?_ ?_ reachable
  · rintro _ rfl
    exact ⟨.nil, by simp⟩
  · intro state job next ordered numbered transition
    cases transition
    exact ordered.handle numbered

theorem Ordered.nodup (ordered : queue.Ordered) : queue.tickets.Nodup :=
  ordered.increasing.imp fun less same => UInt64.ne_of_lt less (congrArg ticketId same)

/-- As long as the ids do not wrap, they go up in every state. Every tick reports a timeout for,
joins to one new match, or keeps in order each of the tickets, and does one of these once. A ticket
of a group for which no match could be made is kept, or a later group of the tick took it. -/
theorem tickets_partitioned (reachable : (matchmakerSystem accepts).Reachable Numbered queue)
    (now : Int) (create : Nat → Text → Option MatchId) (tick : Tick Double)
    (done : queue.processTick accepts now create = tick) :
    (queue.tickets.Pairwise fun earlier later => earlier.ticketId < later.ticketId) ∧
      (tick.timeouts ++ tick.joined ++ tick.queue.tickets).Perm queue.tickets ∧
      (tick.timeouts ++ tick.joined ++ tick.queue.tickets).Nodup ∧
      tick.queue.tickets.Sublist queue.tickets ∧
      ∀ before attempt after, tick.attempts = before ++ attempt :: after →
        attempt.created = none → ∀ slot ∈ attempt.group,
          slot.1 ∈ tick.queue.tickets ∨ ∃ later ∈ after, slot ∈ later.joined := by
  have ordered := ordered_of_reachable reachable
  have perm := processTick_perm tick done
  refine ⟨ordered.increasing, perm, perm.nodup_iff.mpr ordered.nodup, ?_, ?_⟩
  · subst done
    exact processTick_sublist
  · subst done
    intro before attempt after made failed slot member
    let alive := queue.tickets.filter (!expired now ·)
    have formed : Formed alive.zipIdx (tryMatch accepts create alive).matching :=
      tryMatch_formed alive
    refine (formed.failed (List.nodup_zipIdx_map_snd alive) made failed member).imp_left ?_
    intro remains
    rw [← remaining_tryMatch] at remains
    exact List.mem_map_of_mem remains

/-- The first of four tickets times out, the next two are matched, the last one is kept. -/
theorem tickets_partitioned_four : ∃ (queue : MatchmakerQueue Unit) (tick : Tick Unit),
    tick = queue.processTick (MatchmakerTicket.accepts Numerals.unread) 2000000000
      (fun _ _ => some 1) ∧ tick.timeouts.map ticketId = [1] ∧ tick.joined.map ticketId = [2, 3] ∧
      tick.queue.tickets.map ticketId = [4] ∧
      (tick.timeouts ++ tick.joined ++ tick.queue.tickets).Perm queue.tickets := by
  obtain ⟨queue, executed, timeouts, joined, kept⟩ : ∃ queue,
      (matchmakerSystem (MatchmakerTicket.accepts Numerals.unread)).execute Numbered {}
        [.addTicket { playerId := 7, timeout := 1 } 5, .addTicket { playerId := 8 } 5,
          .addTicket { playerId := 9 } 5, .addTicket { playerId := 10 } 5] = some queue ∧
      (queue.processTick (MatchmakerTicket.accepts Numerals.unread) 2000000000
        fun _ _ => some 1).timeouts.map ticketId = [1] ∧
      (queue.processTick (MatchmakerTicket.accepts Numerals.unread) 2000000000
        fun _ _ => some 1).joined.map ticketId = [2, 3] ∧
      (queue.processTick (MatchmakerTicket.accepts Numerals.unread) 2000000000
        fun _ _ => some 1).queue.tickets.map ticketId = [4] :=
    ⟨_, rfl, by decide, by decide, by decide⟩
  have reachable := TransitionSystem.Reachable.execute (.initial rfl) executed
  have split := tickets_partitioned reachable 2000000000 (fun _ _ => some 1) _ rfl
  exact ⟨queue, _, rfl, timeouts, joined, kept, split.2.1⟩

end MatchmakerQueue

end UringServer.Game
