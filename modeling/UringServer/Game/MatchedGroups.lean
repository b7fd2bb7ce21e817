import UringServer.Game.Matchmaker

/-!
# The groups that `TryMatch` forms

A group is a leader with the first tickets behind it that fit the leader. Nothing is
asked of two others, and only the limits of the leader count; its `max_count` is looked
at when there are two already. Whether a match suits all its members is therefore up to
the tickets that fit its leader when its turn comes.
-/

namespace UringServer.Game

open UringServer.Semantics UringServer.Web MatchmakerTicket

variable {Double : Type}
  {accepts : MatchmakerTicket Double → MatchmakerTicket Double → Bool}
  {create : Nat → Text → Option MatchId} {tickets : List (MatchmakerTicket Double)}
  {matching : Matching Double} {leader : Slot Double} {rest : List (Slot Double)}

/-- What `TryMatch` has done when a pass of its outer loop begins, with the slots from the leader
of the pass on. -/
inductive AtPass (accepts : MatchmakerTicket Double → MatchmakerTicket Double → Bool)
    (create : Nat → Text → Option MatchId) (tickets : List (MatchmakerTicket Double)) :
    Matching Double → List (Slot Double) → Prop where
  | first : AtPass accepts create tickets {} tickets.zipIdx
  | next {matching : Matching Double} {leader : Slot Double} {rest : List (Slot Double)}
      (before : AtPass accepts create tickets matching (leader :: rest)) :
      AtPass accepts create tickets (tryLeader accepts create matching leader rest) rest

/-- The tickets behind a leader that fit it and are in no match yet. -/
def candidates (accepts : MatchmakerTicket Double → MatchmakerTicket Double → Bool)
    (matching : Matching Double) (leader : Slot Double) (rest : List (Slot Double)) :
    List (Slot Double) :=
  rest.filter (eligible accepts matching.used leader.1)

/-- A match is made for a leader: when its turn comes it is in none, it has enough candidates, and
`CreateMatch` succeeds. -/
structure Leads (accepts : MatchmakerTicket Double → MatchmakerTicket Double → Bool)
    (create : Nat → Text → Option MatchId) (tickets : List (MatchmakerTicket Double))
    (matching : Matching Double) (leader : Slot Double) (rest : List (Slot Double)) : Prop where
  atPass : AtPass accepts create tickets matching (leader :: rest)
  free : leader.2 ∉ matching.used
  enough : leader.1.minCount ≤
    min ((candidates accepts matching leader rest).length + 1) (max 2 leader.1.maxCount)
  created : (create matching.attempts.length leader.1.handlerName).isSome

/-- The group of a leader by its candidates. -/
theorem groupOf_candidates :
    groupOf accepts matching.used leader rest =
      leader :: (candidates accepts matching leader rest).take (max 2 leader.1.maxCount - 1) := by
  have same : max 2 leader.1.maxCount - 1 = max 1 (leader.1.maxCount - 1) := by omega
  rw [groupOf_eq, same]
  rfl

/-- The size of a group by the number of candidates. -/
theorem length_groupOf :
    (groupOf accepts matching.used leader rest).length =
      min ((candidates accepts matching leader rest).length + 1) (max 2 leader.1.maxCount) := by
  rw [groupOf_candidates, List.length_cons, List.length_take]
  omega

/-- A candidate fits the leader. -/
theorem fits_of_mem_candidates {slot : Slot Double}
    (member : slot ∈ candidates accepts matching leader rest) : fits accepts leader.1 slot.1 := by
  have isEligible := List.of_mem_filter member
  simp only [eligible, Bool.and_eq_true] at isEligible
  exact isEligible.2

variable {slots : List (Slot Double)}

/-- The slots of a pass are the last ones of the queue. -/
theorem AtPass.suffix
    (atPass : AtPass accepts create tickets matching slots) : slots <:+ tickets.zipIdx := by
  induction atPass with
  | first => exact List.suffix_rfl
  | next _ ih => exact (List.suffix_cons _ _).trans ih

/-- The passes from here on end where the whole loop ends. -/
theorem AtPass.matchFrom_eq (atPass : AtPass accepts create tickets matching slots) :
    matchFrom accepts create matching slots = matchFrom accepts create {} tickets.zipIdx := by
  induction atPass with
  | first => rfl
  | next _ ih => exact ih

/-- Attempts stay. -/
theorem attempts_subset_matchFrom (matching : Matching Double) (slots : List (Slot Double)) :
    matching.attempts ⊆ (matchFrom accepts create matching slots).attempts := by
  refine matchFrom_rule (fun later => matching.attempts ⊆ later.attempts) ?_ (List.Subset.refl _)
  intro leader rest before after _ subset pass
  cases pass with
  | used | small => exact subset
  | failed | created => exact List.Subset.trans subset (List.subset_append_left _ _)

/-- The match of a leader is among those that the loop makes. -/
theorem Leads.mem_attempts (leads : Leads accepts create tickets matching leader rest) :
    ∃ id, ⟨groupOf accepts matching.used leader rest, some id⟩ ∈
      (matchFrom accepts create {} tickets.zipIdx).attempts := by
  obtain ⟨id, made⟩ := Option.isSome_iff_exists.mp leads.created
  have enough := leads.enough
  rw [← length_groupOf] at enough
  refine ⟨id, ?_⟩
  rw [← leads.atPass.matchFrom_eq, matchFrom]
  refine attempts_subset_matchFrom _ _ ?_
  simp [tryLeader, leads.free, enough, made]

/-- Every match that the loop makes from a pass on is that of a leader. -/
theorem exists_leads {attempt : Attempt Double}
    (atPass : AtPass accepts create tickets matching slots) (created : attempt.created.isSome)
    (made : attempt ∈ (matchFrom accepts create matching slots).attempts) :
    attempt ∈ matching.attempts ∨ ∃ before leader rest,
      Leads accepts create tickets before leader rest ∧
        attempt.group = groupOf accepts before.used leader rest := by
  induction slots generalizing matching with
  | nil => exact .inl made
  | cons leader rest ih =>
    obtain earlier | leads := ih atPass.next made
    · generalize after : tryLeader accepts create matching leader rest = next at earlier
      have pass : Pass accepts create matching leader rest next := after ▸ tryLeader_pass
      cases pass with
      | used | small => exact .inl earlier
      | failed =>
        refine (List.mem_append.mp earlier).imp_right fun new => ?_
        cases List.mem_singleton.mp new
        cases created
      | created free enough id succeeded =>
        refine (List.mem_append.mp earlier).imp_right fun new => ?_
        cases List.mem_singleton.mp new
        rw [length_groupOf] at enough
        exact ⟨matching, leader, rest, ⟨atPass, free, enough, by rw [succeeded]; rfl⟩, rfl⟩
    · exact .inr leads

/-- What holds of the groups of all matches, by their leaders. A ticket alone is not looked at. -/
theorem forall_matches_iff (P : List (Slot Double) → Prop)
    (alone : ∀ leader ∈ tickets.zipIdx, leader.1.minCount ≤ 1 → P [leader]) :
    (∀ attempt ∈ (tryMatch accepts create tickets).matching.attempts,
      attempt.created.isSome → P attempt.group) ↔
    ∀ matching leader rest, Leads accepts create tickets matching leader rest →
      P (groupOf accepts matching.used leader rest) := by
  unfold tryMatch
  split
  · rename_i few
    refine iff_of_true (fun _ made => absurd made List.not_mem_nil) ?_
    intro matching leader rest leads
    have suffix := leads.atPass.suffix
    have short := suffix.length_le
    rw [List.length_zipIdx, List.length_cons] at short
    obtain rfl : rest = [] := List.eq_nil_of_length_eq_zero (by omega)
    have single : groupOf accepts matching.used leader [] = [leader] := rfl
    have enough := leads.enough
    rw [← length_groupOf, single] at enough
    rw [single]
    exact alone leader (suffix.subset List.mem_cons_self) enough
  · constructor
    · intro holds matching leader rest leads
      obtain ⟨id, made⟩ := leads.mem_attempts
      exact holds _ made rfl
    · intro holds attempt made created
      obtain earlier | ⟨matching, leader, rest, leads, group⟩ := exists_leads .first created made
      · exact absurd earlier List.not_mem_nil
      · rw [group]
        exact holds matching leader rest leads

/-- The limits of a leader and of those candidates that it takes: the leader has room for another
if there is one, and the size that results suits each of the first `max_count - 1` candidates. -/
structure LimitsAgree (leader : Slot Double) (candidates : List (Slot Double)) : Prop where
  room : candidates ≠ [] → 2 ≤ leader.1.maxCount
  others : ∀ slot ∈ candidates.take (leader.1.maxCount - 1),
    slot.1.minCount ≤ min leader.1.maxCount (candidates.length + 1) ∧
      min leader.1.maxCount (candidates.length + 1) ≤ slot.1.maxCount

/-- The same as limits of the members of a group. -/
theorem limitsAgree_iff {found : List (Slot Double)} (positive : 1 ≤ leader.1.maxCount)
    (enough : leader.1.minCount ≤ min (found.length + 1) (max 2 leader.1.maxCount)) :
    (∀ slot ∈ leader :: found.take (max 2 leader.1.maxCount - 1),
      slot.1.minCount ≤ min (found.length + 1) (max 2 leader.1.maxCount) ∧
        min (found.length + 1) (max 2 leader.1.maxCount) ≤ slot.1.maxCount) ↔
      LimitsAgree leader found := by
  rw [List.forall_mem_cons]
  by_cases room : 2 ≤ leader.1.maxCount
  · have size : min (found.length + 1) (max 2 leader.1.maxCount) =
        min leader.1.maxCount (found.length + 1) := by omega
    rw [size, Nat.max_eq_right room]
    exact ⟨fun members => ⟨fun _ => room, members.2⟩,
      fun agree => ⟨⟨size ▸ enough, Nat.min_le_left _ _⟩, agree.others⟩⟩
  · cases found with
    | nil => exact iff_of_true ⟨⟨enough, by simpa using positive⟩, by simp⟩ ⟨by simp, by simp⟩
    | cons slot rest =>
      refine iff_of_false (fun members => ?_) fun agree =>
        room (agree.room (List.cons_ne_nil _ _))
      have notAbove := members.1.2
      rw [List.length_cons] at notAbove
      omega

/-- Every match that is made has a size within the limits of all its members exactly if the limits
agree at every leader for which one is made. -/
theorem group_within_limits_iff
    (limits : ∀ ticket ∈ tickets, 1 ≤ ticket.minCount ∧ ticket.minCount ≤ ticket.maxCount) :
    (∀ attempt ∈ (tryMatch accepts create tickets).matching.attempts, attempt.created.isSome →
      ∀ slot ∈ attempt.group, slot.1.minCount ≤ attempt.group.length ∧
        attempt.group.length ≤ slot.1.maxCount) ↔
    ∀ matching leader rest, Leads accepts create tickets matching leader rest →
      LimitsAgree leader (candidates accepts matching leader rest) := by
  have within : ∀ slot ∈ tickets.zipIdx, 1 ≤ slot.1.maxCount := by
    intro slot member
    have own := limits slot.1 (List.fst_mem_of_mem_zipIdx member)
    exact own.1.trans own.2
  rw [forall_matches_iff fun group => ∀ slot ∈ group, slot.1.minCount ≤ group.length ∧
    group.length ≤ slot.1.maxCount]
  · refine forall₃_congr fun matching leader rest => forall_congr' fun leads => ?_
    rw [← limitsAgree_iff (within leader (leads.atPass.suffix.subset List.mem_cons_self))
      leads.enough, ← length_groupOf, ← groupOf_candidates]
  · intro leader member small slot same
    cases List.mem_singleton.mp same
    exact ⟨small, within leader member⟩

/-- Two tickets that fit each other, for matches of two or three and of two. -/
theorem group_within_limits_two :
    let first : MatchmakerTicket Unit := { minCount := 2, maxCount := 3 }
    let second : MatchmakerTicket Unit := { minCount := 2, maxCount := 2 }
    ∀ matching leader rest, Leads (MatchmakerTicket.accepts Numerals.unread) (fun _ _ => some 1)
      [first, second] matching leader rest →
        LimitsAgree leader (candidates (MatchmakerTicket.accepts Numerals.unread) matching leader
          rest) := by
  intro first second
  refine (group_within_limits_iff (by decide)).mp fun attempt made _ => ?_
  obtain rfl : attempt = ⟨[(first, 0), (second, 1)], some 1⟩ := List.mem_singleton.mp made
  decide

/-- Two tickets for matches of one are put into one match. -/
theorem group_above_limit :
    let single : MatchmakerTicket Unit := { minCount := 1, maxCount := 1 }
    ∃ attempt ∈ (tryMatch (MatchmakerTicket.accepts Numerals.unread) (fun _ _ => some 1)
      [single, single]).matching.attempts, attempt.created = some 1 ∧
        ∃ slot ∈ attempt.group, slot.1.maxCount < attempt.group.length := by
  intro single
  exact ⟨⟨[(single, 0), (single, 1)], some 1⟩, List.mem_singleton_self _, rfl, (single, 0),
    List.mem_cons_self, by decide⟩

variable {numerals : Numerals Double}

/-- Two tickets have one handler, and the query of each holds of the other. -/
def AcceptEachOther (numerals : Numerals Double) (first second : Slot Double) : Prop :=
  first.1.handlerName = second.1.handlerName ∧
    evaluate numerals (parse numerals first.1.query) second.1.toProps ∧
    evaluate numerals (parse numerals second.1.query) first.1.toProps

/-- A leader and a ticket that fits it. -/
theorem acceptEachOther_of_fits {slot : Slot Double}
    (fitting : fits (MatchmakerTicket.accepts numerals) leader.1 slot.1) :
    AcceptEachOther numerals leader slot := by
  simp only [fits, Bool.and_eq_true, decide_eq_true_eq] at fitting
  exact ⟨fitting.1.1.symm, fitting.1.2, fitting.2⟩

/-- A group of two has one candidate, of which nothing is asked. -/
theorem pairwise_take_iff {R : Slot Double → Slot Double → Prop} (found : List (Slot Double))
    (most : Nat) :
    (found.take (max 2 most - 1)).Pairwise R ↔ (found.take (most - 1)).Pairwise R := by
  have few : ∀ {slots : List (Slot Double)}, slots.length ≤ 1 → slots.Pairwise R := by
    intro slots short
    match slots, short with
    | [], _ => exact .nil
    | [_], _ => exact List.pairwise_singleton _ _
  by_cases large : 2 ≤ most
  · rw [Nat.max_eq_right large]
  · refine iff_of_true (few ?_) (few ?_) <;> rw [List.length_take] <;> omega

/-- Any two members of a match have one handler and the query of each holds of the other, exactly
if at every leader for which a match is made this is so of the first `max_count - 1` candidates. -/
theorem members_accept_each_other_iff :
    (∀ attempt ∈ (tryMatch (MatchmakerTicket.accepts numerals) create tickets).matching.attempts,
      attempt.created.isSome → attempt.group.Pairwise (AcceptEachOther numerals)) ↔
    ∀ matching leader rest,
      Leads (MatchmakerTicket.accepts numerals) create tickets matching leader rest →
        ((candidates (MatchmakerTicket.accepts numerals) matching leader rest).take
          (leader.1.maxCount - 1)).Pairwise (AcceptEachOther numerals) := by
  rw [forall_matches_iff fun group => group.Pairwise (AcceptEachOther numerals)]
  · refine forall₃_congr fun matching leader rest => forall_congr' fun leads => ?_
    rw [groupOf_candidates, List.pairwise_cons, pairwise_take_iff]
    refine and_iff_right fun slot member => acceptEachOther_of_fits ?_
    exact fits_of_mem_candidates (List.mem_of_mem_take member)
  · exact fun leader _ _ => List.pairwise_singleton _ leader

/-- The first ticket accepts everyone, the second one nobody of the red team, the third one is
of the red team. -/
theorem member_rejects_other :
    let first : MatchmakerTicket Unit := { minCount := 3, maxCount := 3 }
    let second : MatchmakerTicket Unit :=
      { minCount := 3, maxCount := 3, query := ascii "-team:red" }
    let third : MatchmakerTicket Unit :=
      { minCount := 3, maxCount := 3, stringProps := [(ascii "team", ascii "red")] }
    ∃ attempt ∈ (tryMatch (MatchmakerTicket.accepts Numerals.unread) (fun _ _ => some 1)
      [first, second, third]).matching.attempts, attempt.created = some 1 ∧
        (second, 1) ∈ attempt.group ∧ (third, 2) ∈ attempt.group ∧
        evaluate Numerals.unread (parse Numerals.unread second.query) third.toProps = false := by
  intro first second third
  exact ⟨⟨[(first, 0), (second, 1), (third, 2)], some 1⟩, List.mem_singleton_self _, rfl,
    by simp, by simp, by decide⟩

end UringServer.Game
