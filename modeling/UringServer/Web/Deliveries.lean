import UringServer.Web.LateCalls

/-!
# The calls that are due

The `OnOpen` and `OnMessage` calls that a stream of an upgrade request and frames
calls for, and those that the session makes while it handles the request and the
frames.
-/

namespace UringServer.Web

open UringServer.Io UringServer.Semantics

/-- Whether a call is one of `OnOpen` or `OnMessage`. -/
def Call.isDelivery : Call → Bool
  | .onOpen => true
  | .onMessage _ _ => true
  | _ => false

/-- The `OnMessage` calls for some callbacks of the frame parser. -/
def messagesOf (callbacks : List WsFrameParser.Callback) : List Call :=
  (callbacks.filterMap HttpSession.frameCall).filter Call.isDelivery

/-- The `OnMessage` calls for the frames of a stream of bytes. -/
def messages (frames : Text) : List Call := messagesOf (WsFrameParser.feed {} frames).callbacks

/-- The calls that are due when `received` has arrived of a stream that begins with
`request`. -/
def due (request received : Text) : List Call :=
  if received.length < request.length then []
  else .onOpen :: messages (received.drop request.length)

theorem Llhttp.Incremental.ok_of_append {Parser : Type} {llhttp : Llhttp Parser}
    (incremental : llhttp.Incremental) {parser next : Parser} {first second : Text}
    {consumed : Nat} {request : HttpRequest}
    (paused : llhttp.execute parser (first ++ second) = .paused consumed request next)
    (short : first.length < consumed) : ∃ middle, llhttp.execute parser first = .ok middle := by
  cases executed : llhttp.execute parser first with
  | ok middle => exact ⟨middle, rfl⟩
  | paused count other after =>
    have same := (incremental.paused_append executed second).symm.trans paused
    have bound := (llhttp.paused_bounds executed).2
    cases same
    omega
  | failed count =>
    have same := (incremental.failed_append executed second).symm.trans paused
    cases same

theorem due_of_lt {request received : Text} (short : received.length < request.length) :
    due request received = [] := if_pos short

theorem due_of_le {request received : Text} (past : request.length ≤ received.length) :
    due request received = .onOpen :: messages (received.drop request.length) :=
  if_neg (by omega)

namespace HttpSession

variable {Parser : Type}

/-- The `OnOpen` and `OnMessage` calls made, in order. -/
def deliveries (state : HttpSession Parser) : List Call := state.calls.filter Call.isDelivery

section Upgrade

variable {env : Environment} {llhttp : Llhttp Parser} {bytes : Text}
variable {request : HttpRequest} {after : Parser} {state : HttpSession Parser}
variable (incremental : llhttp.Incremental)
variable (complete : llhttp.execute llhttp.initial bytes = .paused bytes.length request after)
variable (upgrades : (env.onRequest [] request).count .upgrade = 1)

include incremental complete in
/-- What `llhttp` makes of the next bytes of the request. -/
theorem execute_rest {seen rest : Text} {parser : Parser}
    (parsed : llhttp.execute llhttp.initial seen = .ok parser)
    (begins : seen ++ rest <+: bytes) :
    ((seen ++ rest).length < bytes.length ∧ ∃ middle, llhttp.execute parser rest = .ok middle ∧
        llhttp.execute llhttp.initial (seen ++ rest) = .ok middle) ∨
      (seen ++ rest = bytes ∧ llhttp.execute parser rest = .paused rest.length request after) := by
  obtain ⟨tail, whole⟩ := begins
  have appended := incremental.ok_append parsed rest
  rcases tail with _ | ⟨byte, tail⟩
  · rw [List.append_nil] at whole
    refine .inr ⟨whole, ?_⟩
    rw [whole, complete, ← whole] at appended
    cases outcome : llhttp.execute parser rest with
    | ok middle => simp [outcome, Executed.after] at appended
    | failed count => simp [outcome, Executed.after] at appended
    | paused consumed other middle =>
      simp only [outcome, Executed.after, List.length_append, Executed.paused.injEq,
        Nat.add_left_cancel_iff] at appended
      obtain ⟨rfl, rfl, rfl⟩ := appended
      rfl
  · have short : (seen ++ rest).length < bytes.length := by
      have total := congrArg List.length whole
      simp only [List.length_append, List.length_cons] at total ⊢
      omega
    rw [← whole] at complete
    obtain ⟨middle, executed⟩ := incremental.ok_of_append complete (by rw [whole]; exact short)
    refine .inl ⟨short, middle, ?_, executed⟩
    rw [executed] at appended
    cases outcome : llhttp.execute parser rest with
    | ok other =>
      simp only [outcome, Executed.after, Executed.ok.injEq] at appended
      rw [appended]
    | failed count => simp [outcome, Executed.after] at appended
    | paused consumed other middle => simp [outcome, Executed.after] at appended

include upgrades in
/-- Handling the upgrade request opens the handler once. -/
theorem handleRequest_upgrades (quiet : state.calls = []) :
    (state.handleRequest env request).deliveries = [.onOpen] ∧
      (state.handleRequest env request).mode = .webSocket := by
  refine ⟨?_, ?_⟩
  · obtain ⟨opened, calls, opens⟩ := handleRequest_opened env request state
    rw [quiet, upgrades] at opens
    have before : (state.recordRequest request).history.calls.map CallRecord.call =
        state.calls ++ [.request request] := List.map_append
    rw [deliveries, HttpSession.calls, calls, List.map_append, before, opens, quiet]
    rfl
  · have member : .upgrade ∈ env.onRequest state.calls request := by
      rw [quiet]
      exact List.count_pos_iff.mp (by omega)
    have switched := answered_mode env request state member
    cases keepAlive : request.keepAlive with
    | true => rwa [handleRequest_keepAlive env keepAlive]
    | false =>
      rw [handleRequest_close env keepAlive]
      exact switched

theorem runMade_deliveries (made : Option WsFrameParser.Callback) :
    (state.runMade env made).deliveries = state.deliveries ++ messagesOf made.toList := by
  have silent {after : HttpSession Parser}
      (same : after.history.calls = state.history.calls) :
      after.deliveries = state.deliveries ++ [] := by
    rw [deliveries, HttpSession.calls, same, List.append_nil]
    rfl
  rcases made with _ | ⟨opcode, payload⟩ | _
  · exact silent rfl
  · rcases onFrame_cases env opcode payload state with ⟨none_, calls⟩ | ⟨call, some_, calls, _⟩
    · rw [messagesOf, Option.toList_some, List.filterMap_cons_none none_]
      exact silent calls.calls_eq
    · rw [messagesOf, Option.toList_some, List.filterMap_cons_some some_, deliveries,
        HttpSession.calls]
      change (List.map _ (state.onFrame env opcode payload).history.calls).filter _ = _
      rw [calls.calls_eq, record, List.map_append, List.filter_append]
      rfl
  · exact silent rfl

end Upgrade

end HttpSession

end UringServer.Web
