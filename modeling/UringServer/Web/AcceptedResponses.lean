import UringServer.Io.Calm
import UringServer.Web.Answers

/-!
# Responses that the session below accepts

A response handed to `Session::Send` while nothing has gone wrong has a place
among the accepted buffers, and keeps it.
-/

namespace UringServer.Web

open UringServer.Io UringServer.Semantics

namespace HttpSession

variable {Parser : Type}

/-- The response to a request is among the first `count` buffers that were accepted. -/
def AnsweredWithin (count : Nat) (state : HttpSession Parser) (request : Nat) : Prop :=
  ∃ bytes, ∃ position < count,
    ⟨request, some bytes, some position⟩ ∈ state.history.responses ∧
      state.io.history.accepted[position]? = some ⟨bytes⟩

variable {env : Environment} {state next : HttpSession Parser}

theorem AnsweredWithin.mono {count more number : Nat} (answered : state.AnsweredWithin count number)
    (longer : count ≤ more) (accepted : state.io.history.accepted <+: next.io.history.accepted)
    (kept : ∀ response ∈ state.history.responses, response ∈ next.history.responses) :
    next.AnsweredWithin more number := by
  obtain ⟨bytes, position, below, member, found⟩ := answered
  obtain ⟨later, same⟩ := accepted
  refine ⟨bytes, position, by omega, kept _ member, ?_⟩
  rw [← same, List.getElem?_append_left (List.getElem?_eq_some_iff.mp found).1]
  exact found

section HandOver

variable {number : Nat} {buf : Text}
variable (accepts : next.io.history.accepted = state.io.history.accepted ++ [⟨buf⟩])
variable (responds : next.history.responses = state.history.responses ++
  [⟨number, some buf, some state.io.history.accepted.length⟩])

include accepts responds

/-- The response that was handed over last. -/
theorem answeredWithin_last : next.AnsweredWithin next.io.history.accepted.length number := by
  refine ⟨buf, state.io.history.accepted.length, ?_, ?_, ?_⟩
  · rw [accepts, List.length_append, List.length_singleton]
    exact Nat.lt_succ_self _
  · rw [responds]
    exact List.mem_append_right _ (.head _)
  · rw [accepts, List.getElem?_concat_length]

/-- The responses that were handed over before. -/
theorem AnsweredWithin.earlier {other : Nat}
    (answered : state.AnsweredWithin state.io.history.accepted.length other) :
    next.AnsweredWithin next.io.history.accepted.length other := by
  have longer : state.io.history.accepted <+: next.io.history.accepted :=
    accepts ▸ List.prefix_append _ _
  refine answered.mono longer.length_le longer fun response member => ?_
  rw [responds]
  exact List.mem_append_left _ member

end HandOver

/-- Handing over a response while nothing has gone wrong. -/
theorem handResponse_accepts (state : HttpSession Parser) (undisturbed : Undisturbed state.io)
    (room : (env.sqes state.history.operations).room = true)
    (fits : ¬ state.io.session.sendQueue.full) (number : Nat) (buf : Text) :
    Undisturbed (state.handResponse env number buf).io ∧
      (state.handResponse env number buf).io.history.accepted =
        state.io.history.accepted ++ [⟨buf⟩] ∧
      (state.handResponse env number buf).history.responses =
        state.history.responses ++
          [⟨number, some buf, some state.io.history.accepted.length⟩] := by
  have accepts : (state.handResponse env number buf).io.history.accepted =
      state.io.history.accepted ++ [⟨buf⟩] := send_accepts undisturbed.runs fits
  refine ⟨undisturbed.send room fits _, accepts, ?_⟩
  have longer : state.io.history.accepted.length <
      (state.send env buf).io.history.accepted.length := by
    change _ < (state.handResponse env number buf).io.history.accepted.length
    rw [accepts, List.length_append, List.length_singleton]
    omega
  unfold handResponse
  dsimp only
  rw [if_pos longer]
  rfl

/-- A handler that answers at once hands over one response when the pool has room. -/
theorem answered_hands {request : HttpRequest}
    (allocates : ∀ use size, (env.allocate use size).isSome = true)
    (synchronous : Synchronous (env.onRequest state.calls request)) :
    ∃ allocations buf, state.answered env request =
      { state.recordRequest request with history.allocations := allocations }.handResponse env
        state.history.dispatched buf := by
  rcases answered_synchronous synchronous with ⟨response, same⟩ | ⟨buf, same⟩
  · have built : (response.build (env.allocate (state.recordRequest request).history.allocations)
        env.date).isSome = true := by
      rw [HttpResponse.build, Option.isSome_map]
      exact allocates _ _
    obtain ⟨buf, found⟩ := Option.isSome_iff_exists.mp built
    refine ⟨state.history.allocations + 1, buf, ?_⟩
    rw [same, sendResponse, found]
    rfl
  · exact ⟨state.history.allocations, buf, same⟩

/-- A response handed over with no message in flight is submitted at once. -/
theorem answered_submits (room : ∀ use, (env.sqes use).room = true)
    (allocates : ∀ use size, (env.allocate use size).isSome = true) (grounded : Grounded state)
    (undisturbed : Undisturbed state.io)
    (fits : ¬ state.io.session.sendQueue.full)
    (registered : state.io.session.sendQueue.registered = false) {request : HttpRequest}
    (synchronous : Synchronous (env.onRequest state.calls request)) :
    (state.answered env request).io.history.submitted.flatten =
      (state.answered env request).io.history.accepted := by
  obtain ⟨allocations, buf, same⟩ := answered_hands allocates synchronous
  have after := undisturbed.send (room state.history.operations) fits ⟨buf⟩
  rw [same]
  exact send_submits (reachable_pipeline grounded.io) undisturbed.runs fits registered after.runs

end HttpSession

end UringServer.Web
