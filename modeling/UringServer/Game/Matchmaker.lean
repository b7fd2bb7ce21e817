import UringServer.Game.Match
import UringServer.Game.QueryParser

/-!
# `MatchmakerQueue`

The tickets of `MatchmakerQueue` and the jobs that change them: `AddTicket`,
`RemoveTicket`, `RemoveByPlayer` and the tick, which is `ExpireTimeouts` and then
`TryMatch`. Every reading of the clock and every outcome of `CreateMatch` is an
argument of the job, and so is what a ticket accepts; `accepts` is what the source
computes from the queries.

`ticket_id` and `next_ticket_id_` are counters of 64 bits that count the calls of
`AddTicket`, and are natural numbers here.
-/

namespace UringServer.Game

open UringServer.Semantics UringServer.Web

/-- `MatchmakerTicket`. Times are in nanoseconds of the steady clock, `timeout` in
seconds. -/
structure MatchmakerTicket (Double : Type) where
  ticketId : UInt64 := 0
  playerId : PlayerId := 0
  contextId : ContextId := 0
  minCount : Nat := 2
  maxCount : Nat := 2
  query : Text := []
  handlerName : Text := []
  stringProps : List (Text × Text) := []
  numericProps : List (Text × Double) := []
  submittedAt : Int := 0
  timeout : Int := 30
  deriving DecidableEq

/-- An element of `tickets_` with its index. -/
abbrev Slot (Double : Type) := MatchmakerTicket Double × Nat

variable {Double : Type}

namespace MatchmakerTicket

/-- `MatchmakerQueue::TicketToProps`. -/
def toProps (ticket : MatchmakerTicket Double) : Properties Double :=
  ⟨ticket.stringProps, ticket.numericProps⟩

/-- Whether the query of a ticket holds of another one, as `TryMatch` asks it. -/
def accepts (numerals : Numerals Double) (ticket other : MatchmakerTicket Double) : Bool :=
  evaluate numerals (parse numerals ticket.query) other.toProps

/-- The test of `ExpireTimeouts`. -/
def expired (now : Int) (ticket : MatchmakerTicket Double) : Bool :=
  now - ticket.submittedAt ≥ ticket.timeout * 1000000000

/-- The test for a later ticket in `TryMatch`. -/
def fits (accepts : MatchmakerTicket Double → MatchmakerTicket Double → Bool)
    (leader other : MatchmakerTicket Double) : Bool :=
  other.handlerName = leader.handlerName && accepts leader other && accepts other leader

end MatchmakerTicket

open MatchmakerTicket

/-- A group for which `CreateMatch` was called, and the match it made. -/
structure Attempt (Double : Type) where
  group : List (Slot Double)
  created : Option MatchId

/-- The tickets that were joined to the new match. -/
def Attempt.joined (attempt : Attempt Double) : List (Slot Double) :=
  if attempt.created.isSome then attempt.group else []

/-- `used` lists the indices whose flag is set. The attempts are in the order in which
they were made. -/
structure Matching (Double : Type) where
  used : List Nat := []
  attempts : List (Attempt Double) := []

/-- All tickets that were joined to new matches. -/
def Matching.joined (matching : Matching Double) : List (Slot Double) :=
  matching.attempts.flatMap Attempt.joined

section TryMatch

variable (accepts : MatchmakerTicket Double → MatchmakerTicket Double → Bool)
  (create : Nat → Text → Option MatchId)

/-- A later ticket that is not used and fits. -/
def eligible (used : List Nat) (leader : MatchmakerTicket Double) (slot : Slot Double) : Bool :=
  slot.2 ∉ used && fits accepts leader slot.1

/-- The inner loop of `TryMatch`; `max_count` is looked at behind each insertion. -/
def collect (used : List Nat) (leader : MatchmakerTicket Double) :
    List (Slot Double) → List (Slot Double) → List (Slot Double)
  | group, [] => group
  | group, slot :: rest =>
    if eligible accepts used leader slot then
      if (group ++ [slot]).length ≥ leader.maxCount then group ++ [slot]
      else collect used leader (group ++ [slot]) rest
    else
      collect used leader group rest

/-- The group of a leader. -/
def groupOf (used : List Nat) (leader : Slot Double) (rest : List (Slot Double)) :
    List (Slot Double) :=
  collect accepts used leader.1 [leader] rest

/-- One pass of the outer loop of `TryMatch`, at the leader with the slots behind it. The
outcome of `CreateMatch` depends on the attempt and the handler. -/
def tryLeader (matching : Matching Double) (leader : Slot Double) (rest : List (Slot Double)) :
    Matching Double :=
  if leader.2 ∈ matching.used then matching
  else
    let group := groupOf accepts matching.used leader rest
    if group.length ≥ leader.1.minCount then
      match create matching.attempts.length leader.1.handlerName with
      | none => { matching with attempts := matching.attempts ++ [⟨group, none⟩] }
      | some id =>
        { used := matching.used ++ group.map Prod.snd
          attempts := matching.attempts ++ [⟨group, some id⟩] }
    else
      matching

/-- The outer loop of `TryMatch`. -/
def matchFrom : Matching Double → List (Slot Double) → Matching Double
  | matching, [] => matching
  | matching, leader :: rest => matchFrom (tryLeader accepts create matching leader rest) rest

/-- The attempts of a call of `TryMatch`, and the tickets it leaves in `tickets_`. -/
structure TryMatchResult (Double : Type) where
  matching : Matching Double
  remaining : List (Slot Double)

/-- `MatchmakerQueue::TryMatch`. -/
def tryMatch (tickets : List (MatchmakerTicket Double)) : TryMatchResult Double :=
  if tickets.length < 2 then ⟨{}, tickets.zipIdx⟩
  else
    let matching := matchFrom accepts create {} tickets.zipIdx
    ⟨matching, tickets.zipIdx.filter (·.2 ∉ matching.used)⟩

end TryMatch

/-- The members of `MatchmakerQueue` that its jobs read and write. -/
structure MatchmakerQueue (Double : Type) where
  tickets : List (MatchmakerTicket Double) := []
  nextTicketId : UInt64 := 1

/-- What a tick does: the calls of `NotifyTimeout`, the attempts of `TryMatch`, and the
queue it leaves. -/
structure Tick (Double : Type) where
  timeouts : List (MatchmakerTicket Double)
  attempts : List (Attempt Double)
  queue : MatchmakerQueue Double

/-- The tickets that the tick joined to new matches. -/
def Tick.joined (tick : Tick Double) : List (MatchmakerTicket Double) :=
  (tick.attempts.flatMap Attempt.joined).map Prod.fst

/-- The jobs of a `MatchmakerQueue`. `now` is a reading of the clock, `create` the
outcome of `CreateMatch` by the number of the attempt in the tick and the handler. -/
inductive MatchmakerJob (Double : Type) where
  | addTicket (ticket : MatchmakerTicket Double) (now : Int)
  | removeTicket (ticketId : UInt64)
  | removeByPlayer (player : PlayerId)
  | tick (now : Int) (create : Nat → Text → Option MatchId)

namespace MatchmakerQueue

variable (accepts : MatchmakerTicket Double → MatchmakerTicket Double → Bool)

/-- `MatchmakerQueue::HandleAddTicket`. -/
def handleAddTicket (queue : MatchmakerQueue Double) (ticket : MatchmakerTicket Double)
    (now : Int) : MatchmakerQueue Double where
  tickets := queue.tickets ++
    [{ ticket with
        ticketId := queue.nextTicketId
        submittedAt := if ticket.submittedAt = 0 then now else ticket.submittedAt }]
  nextTicketId := queue.nextTicketId + 1

/-- `MatchmakerQueue::HandleRemoveTicket`. -/
def handleRemoveTicket (queue : MatchmakerQueue Double) (ticketId : UInt64) :
    MatchmakerQueue Double :=
  { queue with tickets := queue.tickets.filter (·.ticketId ≠ ticketId) }

/-- `MatchmakerQueue::HandleRemoveByPlayer`. -/
def handleRemoveByPlayer (queue : MatchmakerQueue Double) (player : PlayerId) :
    MatchmakerQueue Double :=
  { queue with tickets := queue.tickets.filter (·.playerId ≠ player) }

/-- `MatchmakerQueue::ProcessTick` without the reservation of the next one. -/
def processTick (queue : MatchmakerQueue Double) (now : Int)
    (create : Nat → Text → Option MatchId) : Tick Double :=
  let alive := queue.tickets.filter (!expired now ·)
  let result := tryMatch accepts create alive
  { timeouts := queue.tickets.filter (expired now)
    attempts := result.matching.attempts
    queue := { queue with tickets := result.remaining.map Prod.fst } }

/-- The queue that a job leaves. -/
def handle (queue : MatchmakerQueue Double) : MatchmakerJob Double → MatchmakerQueue Double
  | .addTicket ticket now => queue.handleAddTicket ticket now
  | .removeTicket ticketId => queue.handleRemoveTicket ticketId
  | .removeByPlayer player => queue.handleRemoveByPlayer player
  | .tick now create => (queue.processTick accepts now create).queue

end MatchmakerQueue

/-- A queue that executes jobs, from the empty one on. -/
def matchmakerSystem (accepts : MatchmakerTicket Double → MatchmakerTicket Double → Bool) :
    TransitionSystem (MatchmakerQueue Double) (MatchmakerJob Double) where
  Initial := fun queue => queue = {}
  step := fun queue job => some (queue.handle accepts job)

section Groups

variable {accepts : MatchmakerTicket Double → MatchmakerTicket Double → Bool}
  {create : Nat → Text → Option MatchId} {used : List Nat}

/-- The inner loop takes the first eligible slots up to `max_count`, and at least one if
there is one. -/
theorem collect_eq (leader : MatchmakerTicket Double) (group rest : List (Slot Double)) :
    collect accepts used leader group rest =
      group ++ (rest.filter (eligible accepts used leader)).take
        (max 1 (leader.maxCount - group.length)) := by
  induction rest generalizing group with
  | nil => simp [collect]
  | cons slot rest ih =>
    unfold collect
    split_ifs with isEligible full
    · have last : max 1 (leader.maxCount - group.length) = 1 := by
        rw [List.length_append, List.length_singleton] at full
        omega
      rw [List.filter_cons_of_pos isEligible, last, List.take_succ_cons, List.take_zero]
    · have more : max 1 (leader.maxCount - group.length) =
          max 1 (leader.maxCount - (group ++ [slot]).length) + 1 := by
        rw [List.length_append, List.length_singleton] at *
        omega
      rw [ih, List.filter_cons_of_pos isEligible, more, List.take_succ_cons,
        List.append_assoc, List.singleton_append]
    · rw [ih, List.filter_cons_of_neg isEligible]

/-- The group is the leader and the first eligible slots behind it. -/
theorem groupOf_eq (leader : Slot Double) (rest : List (Slot Double)) :
    groupOf accepts used leader rest =
      leader :: (rest.filter (eligible accepts used leader.1)).take
        (max 1 (leader.1.maxCount - 1)) :=
  collect_eq leader.1 [leader] rest

variable {matching : Matching Double} {leader : Slot Double} {rest : List (Slot Double)}

theorem groupOf_sublist : (groupOf accepts used leader rest).Sublist (leader :: rest) := by
  rw [groupOf_eq]
  exact ((List.take_sublist _ _).trans List.filter_sublist).cons_cons leader

theorem unused_of_mem_groupOf (free : leader.2 ∉ used) {slot : Slot Double}
    (member : slot ∈ groupOf accepts used leader rest) : slot.2 ∉ used := by
  rw [groupOf_eq] at member
  obtain rfl | collected := List.mem_cons.mp member
  · exact free
  · have isEligible := List.of_mem_filter (List.mem_of_mem_take collected)
    simp only [eligible, Bool.and_eq_true, decide_eq_true_eq] at isEligible
    exact isEligible.1

/-- What one pass of the outer loop can do. -/
inductive Pass (accepts : MatchmakerTicket Double → MatchmakerTicket Double → Bool)
    (create : Nat → Text → Option MatchId) (matching : Matching Double) (leader : Slot Double)
    (rest : List (Slot Double)) : Matching Double → Prop where
  | used (isUsed : leader.2 ∈ matching.used) : Pass accepts create matching leader rest matching
  | small (free : leader.2 ∉ matching.used)
      (few : (groupOf accepts matching.used leader rest).length < leader.1.minCount) :
      Pass accepts create matching leader rest matching
  | failed (free : leader.2 ∉ matching.used)
      (enough : leader.1.minCount ≤ (groupOf accepts matching.used leader rest).length)
      (refused : create matching.attempts.length leader.1.handlerName = none) :
      Pass accepts create matching leader rest
        ⟨matching.used,
          matching.attempts ++ [⟨groupOf accepts matching.used leader rest, none⟩]⟩
  | created (free : leader.2 ∉ matching.used)
      (enough : leader.1.minCount ≤ (groupOf accepts matching.used leader rest).length)
      (id : MatchId) (made : create matching.attempts.length leader.1.handlerName = some id) :
      Pass accepts create matching leader rest
        ⟨matching.used ++ (groupOf accepts matching.used leader rest).map Prod.snd,
          matching.attempts ++ [⟨groupOf accepts matching.used leader rest, some id⟩]⟩

theorem tryLeader_pass :
    Pass accepts create matching leader rest (tryLeader accepts create matching leader rest) := by
  unfold tryLeader
  split
  case isTrue isUsed => exact .used isUsed
  case isFalse free =>
    dsimp only
    split
    case isFalse few => exact .small free (Nat.lt_of_not_le few)
    case isTrue enough =>
      split
      case h_1 refused => exact .failed free enough refused
      case h_2 id made => exact .created free enough id made

/-- What every pass keeps, the outer loop keeps; each pass is at a slot with the ones
behind it. -/
theorem matchFrom_rule {slots : List (Slot Double)} (Inv : Matching Double → Prop)
    (pass : ∀ leader rest matching next, leader :: rest <:+ slots → Inv matching →
      Pass accepts create matching leader rest next → Inv next)
    (start : Inv matching) : Inv (matchFrom accepts create matching slots) := by
  have general : ∀ left, left <:+ slots → ∀ matching, Inv matching →
      Inv (matchFrom accepts create matching left) := by
    intro left
    induction left with
    | nil => exact fun _ _ holds => holds
    | cons leader rest ih =>
      intro behind matching holds
      exact ih ((List.suffix_cons leader rest).trans behind) _
        (pass leader rest matching _ behind holds tryLeader_pass)
  exact general slots List.suffix_rfl matching start

variable {tickets : List (MatchmakerTicket Double)}

/-- What holds before any attempt and is kept by every pass holds of what `TryMatch` did. -/
theorem tryMatch_rule (Inv : Matching Double → Prop)
    (pass : ∀ leader rest matching next, leader :: rest <:+ tickets.zipIdx → Inv matching →
      Pass accepts create matching leader rest next → Inv next)
    (start : Inv {}) : Inv (tryMatch accepts create tickets).matching := by
  unfold tryMatch
  split
  · exact start
  · exact matchFrom_rule Inv pass start

/-- `tickets_` keeps the tickets whose flag is not set. -/
theorem remaining_tryMatch :
    (tryMatch accepts create tickets).remaining =
      tickets.zipIdx.filter (·.2 ∉ (tryMatch accepts create tickets).matching.used) := by
  unfold tryMatch
  split
  · simp
  · rfl

end Groups

end UringServer.Game
