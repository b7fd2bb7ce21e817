import UringServer.Web.HttpRun

/-!
# How a handler answers

A handler answers at once, through `response.Send()`, through the response that
`HandleRequest` sends for it, or through `SendJson` and the like with the
response marked as sent; or it defers the answer to a callback. What it sets in
the response before does not matter for which of these it does.
-/

namespace UringServer.Web

open UringServer.Io UringServer.Semantics

/-- Whether a call of a handler does more than set fields of the response. -/
def RequestOp.acts : RequestOp → Bool
  | .set _ => false
  | _ => true

/-- A handler that answers at once. -/
inductive Synchronous (ops : List RequestOp) : Prop where
  /-- By `response.Send()`, or by what `HandleRequest` sends if it was not called. -/
  | respond (plain : ∀ op ∈ ops.filter RequestOp.acts, op = .respond)
  /-- By bytes of its own, with the response marked as sent. -/
  | handOver (buf : Text) (acts : ops.filter RequestOp.acts = [.markSent, .handOver (some buf)] ∨
      ops.filter RequestOp.acts = [.handOver (some buf), .markSent])

/-- A handler that leaves the answer to a callback. -/
def Deferring (ops : List RequestOp) : Prop := ops.filter RequestOp.acts = [.defer]

instance (ops : List RequestOp) : Decidable (Deferring ops) :=
  inferInstanceAs (Decidable (ops.filter RequestOp.acts = [.defer]))

namespace HttpSession

variable {Parser : Type} (env : Environment)

/-- Handlings that differ in the fields of the response only. -/
structure Handling.Alike (handling other : Handling Parser) : Prop where
  sent : other.sent = handling.sent
  session : other.session = handling.session

/-- Without `response.Send()` the fields of the response do not matter. -/
theorem Handling.runOps_acts (request : Nat) {ops : List RequestOp} (unsent : .respond ∉ ops)
    {handling other : Handling Parser} (alike : handling.Alike other) :
    (ops.foldl (Handling.runOp env request) handling).Alike
      ((ops.filter RequestOp.acts).foldl (Handling.runOp env request) other) := by
  induction ops generalizing handling other with
  | nil => exact alike
  | cons op rest ih =>
    have later : .respond ∉ rest := fun member => unsent (.tail _ member)
    obtain ⟨sent, session⟩ := alike
    cases op with
    | respond => exact absurd (.head _) unsent
    | set response => exact ih later ⟨sent, session⟩
    | handOver buf =>
      cases buf with
      | none
      | some buf => exact ih later ⟨sent, by simp [Handling.runOp, session]⟩
    | markSent => exact ih later ⟨rfl, session⟩
    | defer => exact ih later ⟨rfl, by simp [Handling.runOp, session]⟩
    | upgrade
    | session op => exact ih later ⟨sent, by simp [Handling.runOp, session]⟩

theorem Handling.send_sent (request : Nat) (handling : Handling Parser)
    (sent : handling.sent = true) : handling.send env request = handling := if_pos sent

theorem Handling.send_marks (request : Nat) (handling : Handling Parser) :
    (handling.send env request).sent = true := by
  unfold Handling.send
  split_ifs with sent
  · exact sent
  · rfl

/-- `response.Send()` is called, or `HandleRequest` calls it: once, with some response. -/
theorem Handling.runOps_respond (request : Nat) {ops : List RequestOp}
    (plain : ∀ op ∈ ops.filter RequestOp.acts, op = .respond) (handling : Handling Parser) :
    ∃ response, ((ops.foldl (Handling.runOp env request) handling).send env request).session =
      (Handling.send env request { handling with response }).session := by
  induction ops generalizing handling with
  | nil => exact ⟨handling.response, rfl⟩
  | cons op rest ih =>
    cases op with
    | set response => exact ih plain { handling with response }
    | respond =>
      obtain ⟨response, session⟩ := ih
        (fun op member => plain op (.tail _ member)) (handling.send env request)
      have again : (Handling.send env request
          { handling.send env request with response }).session =
            (handling.send env request).session := by
        rw [Handling.send_sent env request _ (by exact handling.send_marks env request)]
      exact ⟨handling.response, session.trans again⟩
    | handOver | markSent | defer | upgrade | session =>
      have wrong := plain _ (.head _)
      cases wrong

variable (state : HttpSession Parser) (request : HttpRequest)

/-- A request as `HandleRequest` passes it to the router. -/
def handling : Handling Parser where
  response := { keepAlive := request.keepAlive }
  session := state.recordRequest request

/-- `Send` of a response that was not sent yet. -/
def sendResponse (request : Nat) (response : HttpResponse) (state : HttpSession Parser) :
    HttpSession Parser :=
  (response.build (env.allocate state.history.allocations) env.date).elim state.recordAllocation
    fun buf => state.recordAllocation.handResponse env request buf

variable {env state request}

/-- A handler that does not call `response.Send()` and marks it as sent. -/
theorem answered_of_acts {acts : List RequestOp}
    (same : (env.onRequest state.calls request).filter RequestOp.acts = acts)
    (unsent : .respond ∉ acts)
    (marked : (acts.foldl (Handling.runOp env state.history.dispatched)
      (state.handling request)).sent = true) :
    state.answered env request = (acts.foldl (Handling.runOp env state.history.dispatched)
      (state.handling request)).session := by
  subst same
  have never : .respond ∉ env.onRequest state.calls request := fun member =>
    unsent (List.mem_filter.mpr ⟨member, rfl⟩)
  have alike := Handling.runOps_acts env state.history.dispatched never
    (⟨rfl, rfl⟩ : (state.handling request).Alike (state.handling request))
  have unchanged := Handling.send_sent env state.history.dispatched _
    (alike.sent.symm.trans marked)
  rw [answered, dispatch]
  exact (congrArg Handling.session unchanged).trans alike.session.symm

/-- What a handler that answers at once does: it sends some response, or hands over bytes. -/
theorem answered_synchronous
    (synchronous : Synchronous (env.onRequest state.calls request)) :
    (∃ response, state.answered env request = (state.recordRequest request).sendResponse env
        state.history.dispatched response) ∨
      ∃ buf, state.answered env request = (state.recordRequest request).handResponse env
        state.history.dispatched buf := by
  rcases synchronous with plain | ⟨buf, acts⟩
  · obtain ⟨response, session⟩ :=
      Handling.runOps_respond env state.history.dispatched plain (state.handling request)
    exact .inl ⟨response, session⟩
  · refine .inr ⟨buf, ?_⟩
    rcases acts with same | same
    · exact answered_of_acts same (by simp) rfl
    · exact answered_of_acts same (by simp) rfl

/-- What a handler that defers does. -/
theorem answered_deferring (deferring : Deferring (env.onRequest state.calls request)) :
    state.answered env request =
      (state.recordRequest request).recordDeferred state.history.dispatched :=
  answered_of_acts deferring (by simp) rfl

/-- What is kept about requests and their answers. -/
structure Ledger where
  dispatched : Nat
  deferred : List Nat
  responses : List ResponseRecord

/-- The ledger of a session. -/
def ledger (state : HttpSession Parser) : Ledger where
  dispatched := state.history.dispatched
  deferred := state.history.deferred
  responses := state.history.responses

/-- The request that the next pass dispatches. -/
def arriving (llhttp : Llhttp Parser) (state : HttpSession Parser) : Option HttpRequest :=
  match state.control with
  | .feedHttp _ rest _ =>
    if rest.isEmpty || state.parserError then
      none
    else
      match llhttp.execute state.parser rest with
      | .paused _ request _ => some request
      | _ => none
  | _ => none

variable {llhttp : Llhttp Parser}

theorem arriving_of_paused {length consumed : Nat} {rest : Text} {buffered : Bool}
    {request : HttpRequest} {parser : Parser} (at_ : state.control = .feedHttp length rest buffered)
    (more : rest ≠ []) (running : state.parserError = false)
    (executed : llhttp.execute state.parser rest = .paused consumed request parser) :
    state.arriving llhttp = some request := by
  simp [arriving, at_, more, running, executed]

end HttpSession

section Ledger

variable {Parser : Type} {state next : HttpSession Parser}

theorem SessionCalls.ledger (calls : SessionCalls state next) : next.ledger = state.ledger := by
  rw [calls.rest]
  rfl

theorem Finished.ledger (finished : Finished state next) : next.ledger = state.ledger := by
  rw [finished.rest]
  rfl

theorem Entered.ledger (entered : Entered state next) : next.ledger = state.ledger := by
  rw [entered.rest]
  rfl

end Ledger

namespace HttpSession

variable {Parser : Type} {env : Environment} {state : HttpSession Parser} {request : HttpRequest}

theorem runMade_ledger (made : Option WsFrameParser.Callback) :
    (state.runMade env made).ledger = state.ledger := by
  rcases made with _ | ⟨opcode, payload⟩ | _
  · rfl
  · rcases onFrame_cases env opcode payload state with ⟨_, calls⟩ | ⟨call, _, calls, _⟩
    · exact calls.ledger
    · exact calls.ledger
  · rfl

theorem handleRequest_ledger :
    (state.handleRequest env request).ledger = (state.answered env request).ledger := by
  cases keepAlive : request.keepAlive with
  | true => rw [handleRequest_keepAlive env keepAlive]
  | false =>
    rw [handleRequest_close env keepAlive]
    rfl

/-- A handler that answers at once hands over one response, or none if the pool is empty. -/
theorem answered_ledger (synchronous : Synchronous (env.onRequest state.calls request)) :
    ∃ handed : List ResponseRecord,
      (handed = [] ∨ ∃ bytes position, handed = [⟨state.history.dispatched, bytes, position⟩]) ∧
      (state.answered env request).ledger = {
        dispatched := state.history.dispatched + 1
        deferred := state.history.deferred
        responses := state.history.responses ++ handed } := by
  rcases answered_synchronous synchronous with ⟨response, same⟩ | ⟨buf, same⟩
  · rw [same, sendResponse]
    cases response.build _ _ with
    | none => exact ⟨[], .inl rfl, by rw [List.append_nil]; rfl⟩
    | some buf => exact ⟨_, .inr ⟨_, _, rfl⟩, rfl⟩
  · rw [same]
    exact ⟨_, .inr ⟨_, _, rfl⟩, rfl⟩

end HttpSession

end UringServer.Web
