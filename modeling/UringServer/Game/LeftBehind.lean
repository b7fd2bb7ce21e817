import UringServer.Game.Matchmaker

/-!
# What `TryMatch` leaves behind

A leader whose flag is never set had too small a group when its turn came. The flags
that are set later only make the group smaller, so none of the tickets that remain
behind it are enough for it.
-/

namespace UringServer.Game

open UringServer.Web MatchmakerTicket

variable {Double : Type}
  {accepts : MatchmakerTicket Double → MatchmakerTicket Double → Bool}
  {create : Nat → Text → Option MatchId} {matching next : Matching Double}
  {leader : Slot Double} {rest slots : List (Slot Double)}

/-- A pass sets flags and clears none. -/
theorem Pass.used_subset (pass : Pass accepts create matching leader rest next) :
    matching.used ⊆ next.used := by
  cases pass with
  | used | small | failed => exact List.Subset.refl _
  | created => exact List.subset_append_left _ _

theorem matchFrom_used_subset (matching : Matching Double) (slots : List (Slot Double)) :
    matching.used ⊆ (matchFrom accepts create matching slots).used := by
  refine matchFrom_rule (fun later => matching.used ⊆ later.used) ?_ (List.Subset.refl _)
  exact fun _ _ _ _ _ subset pass => List.Subset.trans subset pass.used_subset

/-- With more flags set, fewer slots are eligible. -/
theorem countP_eligible_le {used later : List Nat} (subset : used ⊆ later)
    (ticket : MatchmakerTicket Double) :
    rest.countP (eligible accepts later ticket) ≤ rest.countP (eligible accepts used ticket) := by
  refine List.countP_mono_left ?_
  intro slot _ isEligible
  simp only [eligible, Bool.and_eq_true, decide_eq_true_eq] at isEligible ⊢
  exact ⟨fun isUsed => isEligible.1 (subset isUsed), isEligible.2⟩

/-- A group that is smaller than `max_count` has all eligible slots. -/
theorem length_groupOf_of_lt {used : List Nat} (several : 2 ≤ leader.1.maxCount)
    (small : (groupOf accepts used leader rest).length < leader.1.maxCount) :
    (groupOf accepts used leader rest).length =
      1 + rest.countP (eligible accepts used leader.1) := by
  rw [groupOf_eq, List.length_cons, List.length_take, ← List.countP_eq_length_filter] at *
  omega

/-- A leader whose flag is not set behind its own pass had too small a group. -/
theorem Pass.few_eligible (pass : Pass accepts create matching leader rest next)
    (limits : 2 ≤ leader.1.minCount ∧ leader.1.minCount ≤ leader.1.maxCount)
    (succeeds : ∀ attempt handler, (create attempt handler).isSome)
    (unused : leader.2 ∉ next.used) :
    1 + rest.countP (eligible accepts next.used leader.1) < leader.1.minCount := by
  cases pass with
  | used isUsed => exact absurd isUsed unused
  | small free few =>
    have all := length_groupOf_of_lt (limits.1.trans limits.2) (few.trans_le limits.2)
    rwa [all] at few
  | failed free enough refused =>
    have made := succeeds matching.attempts.length leader.1.handlerName
    rw [refused] at made
    cases made
  | created free enough id =>
    have inGroup : leader ∈ groupOf accepts matching.used leader rest := by
      rw [groupOf_eq]
      exact List.mem_cons_self
    have index : leader.2 ∈ (groupOf accepts matching.used leader rest).map Prod.snd :=
      List.mem_map_of_mem inGroup
    exact absurd (List.mem_append_right _ index) unused

/-- The same for every leader, with the flags there are in the end. -/
theorem few_eligible_matchFrom
    (limits : ∀ slot ∈ slots, 2 ≤ slot.1.minCount ∧ slot.1.minCount ≤ slot.1.maxCount)
    (succeeds : ∀ attempt handler, (create attempt handler).isSome)
    (behind : leader :: rest <:+ slots)
    (unused : leader.2 ∉ (matchFrom accepts create matching slots).used) :
    1 + rest.countP (eligible accepts (matchFrom accepts create matching slots).used leader.1) <
      leader.1.minCount := by
  induction slots generalizing matching with
  | nil => exact absurd (List.suffix_nil.mp behind) (List.cons_ne_nil _ _)
  | cons first others ih =>
    rw [matchFrom] at unused ⊢
    obtain here | later := List.suffix_cons_iff.mp behind
    · cases here
      let after := tryLeader accepts create matching leader rest
      have subset : after.used ⊆ (matchFrom accepts create after rest).used :=
        matchFrom_used_subset after rest
      have few : 1 + rest.countP (eligible accepts after.used leader.1) < leader.1.minCount :=
        tryLeader_pass.few_eligible (limits leader List.mem_cons_self) succeeds
          (fun isUsed => unused (subset isUsed))
      exact (Nat.add_le_add_left (countP_eligible_le subset leader.1) 1).trans_lt few
    · exact ih (fun slot member => limits slot (List.mem_cons_of_mem _ member))
        later unused

/-- A ticket that remains, as a leader among the slots, with the remaining ones behind it. -/
theorem exists_leader_of_remaining
    (accepts : MatchmakerTicket Double → MatchmakerTicket Double → Bool) {used : List Nat}
    {before after : List (MatchmakerTicket Double)} {ticket : MatchmakerTicket Double}
    (remains : (slots.filter (·.2 ∉ used)).map Prod.fst = before ++ ticket :: after) :
    ∃ leader rest, leader :: rest <:+ slots ∧ leader.1 = ticket ∧ leader.2 ∉ used ∧
      after.countP (fits accepts ticket) = rest.countP (eligible accepts used ticket) := by
  obtain ⟨earlier, later, split, -, mapped⟩ := List.map_eq_append_iff.mp remains
  obtain ⟨leader, behind, rfl, rfl, rfl⟩ := List.map_eq_cons_iff.mp mapped
  obtain ⟨front, back, rfl, -, kept⟩ := List.filter_eq_append_iff.mp split
  obtain ⟨gap, rest, rfl, -, unused, rfl⟩ := List.filter_eq_cons_iff.mp kept
  rw [decide_eq_true_eq] at unused
  refine ⟨leader, rest, ?_, rfl, unused, ?_⟩
  · exact (List.suffix_append gap _).trans (List.suffix_append front _)
  · rw [List.countP_map, List.countP_filter]
    refine List.countP_congr ?_
    intro slot _
    simp [eligible, and_comm]

/-- With limits `2 ≤ min_count ≤ max_count` and no failed `CreateMatch`, no ticket that remains
finds enough others behind it that also remain, have its handler, accept it and are accepted. -/
theorem no_match_left_behind {tickets : List (MatchmakerTicket Double)}
    (limits : ∀ ticket ∈ tickets, 2 ≤ ticket.minCount ∧ ticket.minCount ≤ ticket.maxCount)
    (succeeds : ∀ attempt handler, (create attempt handler).isSome)
    {before after : List (MatchmakerTicket Double)} {ticket : MatchmakerTicket Double}
    (remains : (tryMatch accepts create tickets).remaining.map Prod.fst =
      before ++ ticket :: after) :
    1 + after.countP (fits accepts ticket) < ticket.minCount := by
  have slotLimits : ∀ slot ∈ tickets.zipIdx,
      2 ≤ slot.1.minCount ∧ slot.1.minCount ≤ slot.1.maxCount :=
    fun slot member => limits slot.1 (List.fst_mem_of_mem_zipIdx member)
  unfold tryMatch at remains
  split at remains
  case isTrue single =>
    rw [List.zipIdx_map_fst] at remains
    subst remains
    rw [List.length_append, List.length_cons] at single
    have alone : after = [] := List.eq_nil_of_length_eq_zero (by omega)
    rw [alone, List.countP_nil]
    exact (limits ticket (List.mem_append_right _ List.mem_cons_self)).1
  case isFalse =>
    obtain ⟨leader, rest, behind, rfl, unused, counted⟩ :=
      exists_leader_of_remaining accepts remains
    rw [counted]
    exact few_eligible_matchFrom slotLimits succeeds behind unused

/-- Of three tickets for matches of two and one for a match of three, the latter and the one
behind it remain. -/
theorem no_match_left_behind_third :
    let first : MatchmakerTicket Unit := { playerId := 7 }
    let second : MatchmakerTicket Unit := { playerId := 8 }
    let third : MatchmakerTicket Unit := { playerId := 9, minCount := 3, maxCount := 4 }
    let fourth : MatchmakerTicket Unit := { playerId := 10 }
    (tryMatch (MatchmakerTicket.accepts Numerals.unread) (fun _ _ => some 1)
        [first, second, third, fourth]).remaining.map Prod.fst = [third, fourth] ∧
      1 + [fourth].countP (fits (MatchmakerTicket.accepts Numerals.unread) third) < 3 := by
  intro first second third fourth
  have remains : (tryMatch (MatchmakerTicket.accepts Numerals.unread) (fun _ _ => some 1)
      [first, second, third, fourth]).remaining.map Prod.fst = [] ++ third :: [fourth] := by
    decide
  exact ⟨remains, no_match_left_behind (by decide) (fun _ _ => rfl) remains⟩

end UringServer.Game
