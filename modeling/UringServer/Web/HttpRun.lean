import UringServer.Web.HttpTurn

/-!
# The steps of an `HttpSession`

`Moves` says what a step can do. The `Session` below takes the steps of its own
system, so what holds of every reachable `Session` holds here.
-/

namespace UringServer.Web

open UringServer.Io UringServer.Ring UringServer.Semantics

namespace HttpSession

variable {Parser : Type} (env : Environment) (llhttp : Llhttp Parser)

/-- What a step does. -/
inductive Moves (state : HttpSession Parser) : WebAction → HttpSession Parser → Prop where
  | dropped {sqes data flags io} (idle : state.control = .idle)
      (stops : state.disconnecting = true) (some_ : data ≠ [])
      (completed : Io.step state.io (.recvCompleted sqes data.length flags) = some io) :
      Moves state (.recv sqes data flags) (state.takeIn io data)
  | entered {sqes data flags io} (idle : state.control = .idle)
      (runs : state.disconnecting = false) (some_ : data ≠ [])
      (completed : Io.step state.io (.recvCompleted sqes data.length flags) = some io)
      (still : io.session.disconnecting = false) :
      Moves state (.recv sqes data flags) ((state.takeIn io data).onRecv env data)
  | turn {next} (turn : Turn env llhttp state next) : Moves state .parse next
  | answer {request built} (idle : state.control = .idle)
      (waits : request ∈ state.history.deferred) :
      Moves state (.answer request built) (state.answer env request built)
  | io {action io} (idle : state.control = .idle) (enabled : ioEnabled action = true)
      (moved : Io.step state.io action = some io) : Moves state (.io action) { state with io }

variable {env llhttp} {state next : HttpSession Parser}

/-- `Session` hands a buffer on without looking at anything else. -/
theorem recvCompleted_disconnecting {io after : Io.State} {sqes : Sqes} {data : Text}
    {flags : UInt32} (some_ : data ≠ []) (buffer : hasBuffer flags = true)
    (runs : io.session.disconnecting = false)
    (completed : Io.step io (.recvCompleted sqes data.length flags) = some after) :
    after.session.disconnecting = false := by
  have positive : 0 < data.length := List.length_pos_iff.mpr some_
  simp only [Io.step] at completed
  split at completed <;> cases completed
  unfold State.finishRecv State.onRecv State.recvBuffer
  split_ifs <;> simp_all

/-- What each step of a session can do. -/
theorem step_cases {action : WebAction} (transition : step env llhttp state action = some next) :
    Moves env llhttp state action next := by
  cases action with
  | recv sqes data flags =>
    simp only [step] at transition
    split at transition
    case isFalse => cases transition
    case isTrue enabled =>
    obtain ⟨idle, some_, buffer⟩ := enabled
    obtain ⟨io, completed, rfl⟩ := Option.map_eq_some_iff.mp transition
    cases runs : state.disconnecting with
    | true =>
      rw [if_pos rfl]
      exact .dropped idle runs some_ completed
    | false =>
      rw [if_neg (by simp)]
      exact .entered idle runs some_ completed
        (recvCompleted_disconnecting some_ buffer runs completed)
  | parse => exact .turn (parse_cases transition)
  | answer request built =>
    simp only [step] at transition
    split at transition
    case isFalse => cases transition
    case isTrue enabled =>
    cases transition
    exact .answer enabled.1 enabled.2
  | io action =>
    simp only [step] at transition
    split at transition
    case isFalse => cases transition
    case isTrue enabled =>
    obtain ⟨io, moved, rfl⟩ := Option.map_eq_some_iff.mp transition
    exact .io enabled.1 enabled.2 moved

theorem handleRequest_io (request : HttpRequest) (state : HttpSession Parser) :
    IoCalls state.io (state.handleRequest env request).io := by
  have calls := (answered_handled env request state).io
  cases keepAlive : request.keepAlive with
  | true =>
    rw [handleRequest_keepAlive env keepAlive]
    exact calls
  | false =>
    rw [handleRequest_close env keepAlive]
    exact calls.tail (.disconnect _)

variable (env) in
/-- Handling a request does not touch what was received. -/
theorem handleRequest_untouched (request : HttpRequest) (state : HttpSession Parser) :
    (state.handleRequest env request).history.received = state.history.received ∧
      (state.handleRequest env request).recvBuf = state.recvBuf ∧
      (state.handleRequest env request).wsParser = state.wsParser := by
  have handled := answered_handled env request state
  cases keepAlive : request.keepAlive with
  | true =>
    rw [handleRequest_keepAlive env keepAlive, handled.rest]
    exact ⟨rfl, rfl, rfl⟩
  | false =>
    rw [handleRequest_close env keepAlive, handled.rest]
    exact ⟨rfl, rfl, rfl⟩

variable (env) in
/-- The calls that handling a request makes. -/
theorem handleRequest_opened (request : HttpRequest) (state : HttpSession Parser) :
    OpenedBy ((env.onRequest state.calls request).count .upgrade)
      (state.recordRequest request) (state.handleRequest env request) := by
  have opened := answered_opened env request state
  cases keepAlive : request.keepAlive with
  | true =>
    rw [handleRequest_keepAlive env keepAlive]
    exact opened
  | false =>
    rw [handleRequest_close env keepAlive]
    exact opened

theorem Turn.io (turn : Turn env llhttp state next) : IoCalls state.io next.io := by
  cases turn with
  | leave => exact (finishHttp_finished env _ _ _ state).io
  | @incomplete _ _ _ parser => exact (finishHttp_finished env _ _ _ { state with parser }).io
  | request => exact handleRequest_io _ state
  | failed => exact (finishHttp_finished env _ _ _ { state with parserError := true }).io
  | wsLeave => exact (finishWs_finished env _ _ state).io
  | @frame _ _ wsParser => exact (runMade_handled env { state with wsParser } _).io

theorem Turn.ready (turn : Turn env llhttp state next) (ready : state.wsParser.Ready) :
    next.wsParser.Ready := by
  cases turn with
  | leave =>
    rw [(finishHttp_finished env _ _ _ state).rest]
    exact ready
  | incomplete =>
    rw [(finishHttp_finished env _ _ _ { state with parser := _ }).rest]
    exact ready
  | request =>
    change (state.handleRequest env _).wsParser.Ready
    rw [(handleRequest_untouched env _ state).2.2]
    exact ready
  | failed =>
    rw [(finishHttp_finished env _ _ _ { state with parserError := true }).rest]
    exact ready
  | wsLeave =>
    rw [(finishWs_finished env _ _ state).rest]
    exact ready
  | frame _ taken =>
    rw [(runMade_handled env { state with wsParser := _ } _).rest]
    exact ready.pass (WsFrameParser.parseStep_cases taken).2

theorem onRecv_ready (data : Text) (state : HttpSession Parser) (ready : state.wsParser.Ready) :
    (state.onRecv env data).wsParser.Ready := by
  have fed (data : Text) (buffered : Bool) (state : HttpSession Parser)
      (ready : state.wsParser.Ready) : (state.feedWs data buffered).wsParser.Ready := by
    unfold feedWs
    split_ifs
    · exact ready
    · exact ready.extend data
  unfold onRecv handleHttpRecv handleWsRecv
  split
  · split_ifs
    · exact ready
    · cases state.recvBuf.append data with
      | none => exact ready
      | some recvBuf => exact ready
  · split_ifs
    · exact fed data false state ready
    · cases state.recvBuf.append data with
      | none => exact ready
      | some recvBuf => exact fed _ true { state with recvBuf } ready

/-- What holds of the parts of every session: the `Session` below is a state of its own
system, and the frame parser keeps its invariant. -/
structure Grounded (state : HttpSession Parser) : Prop where
  io : Io.system.Reachable everyStep state.io
  ready : state.wsParser.Ready

theorem Moves.grounded {action : WebAction} (moves : Moves env llhttp state action next)
    (grounded : Grounded state) : Grounded next := by
  have stepped {action : Io.Action} {io : Io.State} (moved : Io.step state.io action = some io) :
      Io.system.Reachable everyStep io := .step grounded.io trivial moved
  cases moves with
  | dropped _ _ _ completed => exact ⟨stepped completed, grounded.ready⟩
  | @entered _ data _ io _ _ _ completed =>
    refine ⟨?_, onRecv_ready _ _ grounded.ready⟩
    exact (onRecv_entered env data (state.takeIn io data)).io.reachable (stepped completed)
  | turn turn => exact ⟨turn.io.reachable grounded.io, turn.ready grounded.ready⟩
  | @answer request built =>
    cases built with
    | none => exact ⟨grounded.io, grounded.ready⟩
    | some buf =>
      have handled := handResponse_handled env request buf
        { state with history.deferred := state.history.deferred.erase request }
      exact ⟨handled.io.reachable grounded.io, grounded.ready⟩
  | io _ _ moved => exact ⟨stepped moved, grounded.ready⟩

theorem reachable_grounded {Admits : HttpSession Parser → WebAction → Prop}
    (reachable : (system env llhttp).Reachable Admits state) : Grounded state := by
  apply reachable.invariant Grounded
  · rintro _ ⟨onConnected, onDisconnect, rfl⟩
    exact ⟨.initial ⟨onConnected, onDisconnect, false, rfl⟩, WsFrameParser.fresh_ready⟩
  · intro _ _ _ grounded _ transition
    exact (step_cases transition).grounded grounded

/-- What holds at the start and is kept by the admitted steps of a grounded session. -/
theorem reachable_invariant {Admits : HttpSession Parser → WebAction → Prop}
    (Inv : HttpSession Parser → Prop)
    (initial : ∀ onConnected onDisconnect, Inv (start llhttp onConnected onDisconnect))
    (kept : ∀ {state action next}, Grounded state → Inv state → Admits state action →
      (system env llhttp).step state action = some next → Inv next)
    (reachable : (system env llhttp).Reachable Admits state) : Grounded state ∧ Inv state := by
  apply reachable.invariant fun state => Grounded state ∧ Inv state
  · intro state valid
    have fresh : (system env llhttp).Reachable everyStep state := .initial valid
    obtain ⟨onConnected, onDisconnect, rfl⟩ := valid
    exact ⟨reachable_grounded fresh, initial onConnected onDisconnect⟩
  · intro _ _ _ holds admitted transition
    exact ⟨(step_cases transition).grounded holds.1, kept holds.1 holds.2 admitted transition⟩

end HttpSession

end UringServer.Web
