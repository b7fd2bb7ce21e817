import UringServer.Web.SessionCalls
import UringServer.Web.WsCut

/-!
# One pass over a received span

`Turn` says what a pass can do: leave the loop of `HttpParser::Feed`, keep an
incomplete message, handle a request, meet an error, or one turn of the loop of
`ParseBuffer`, which makes at most one callback.
-/

namespace UringServer.Web

open UringServer.Io UringServer.Semantics

namespace WsFrameParser

/-- `next` has made at most one callback more. -/
def OneMore (parser next : WsFrameParser) : Prop :=
  ∃ made : Option Callback, next.callbacks = parser.callbacks ++ made.toList

theorem OneMore.same {parser next : WsFrameParser} (same : next.callbacks = parser.callbacks) :
    OneMore parser next :=
  ⟨none, by simp [same]⟩

theorem processFrame_oneMore (parser : WsFrameParser) : OneMore parser parser.processFrame := by
  unfold processFrame
  dsimp only
  split_ifs
  · exact ⟨some _, rfl⟩
  · exact ⟨some _, rfl⟩
  · exact .same rfl
  · exact ⟨some _, rfl⟩
  · exact ⟨some _, rfl⟩
  · exact .same rfl

theorem unmask_callbacks (parser : WsFrameParser) :
    parser.unmask.callbacks = parser.callbacks := by
  unfold unmask
  split_ifs <;> rfl

theorem finishFrame_oneMore (parser : WsFrameParser) : OneMore parser parser.finishFrame := by
  obtain ⟨made, callbacks⟩ := processFrame_oneMore parser.unmask
  rw [unmask_callbacks] at callbacks
  exact ⟨made, callbacks⟩

theorem readPayload_oneMore (parser : WsFrameParser) : OneMore parser parser.readPayload := by
  unfold readPayload finishPayload
  dsimp only
  split_ifs
  · exact finishFrame_oneMore (parser.copyPayload _)
  · exact .same rfl

/-- A pass of the frame parser makes at most one callback. -/
theorem Pass.oneMore {parser next : WsFrameParser} (pass : Pass parser next) :
    OneMore parser next := by
  cases pass with
  | header =>
    unfold readHeader
    dsimp only
    split_ifs
    · exact .same rfl
    · exact processFrame_oneMore { parser with
        buffer := _, current := _, payloadReceived := 0 }
    · exact .same rfl
    · exact .same rfl
    · exact .same rfl
  | length16 => exact .same rfl
  | length64 =>
    unfold readLength64
    split_ifs
    · exact ⟨some _, rfl⟩
    · exact .same rfl
  | maskKey =>
    unfold readMaskKey
    dsimp only
    split_ifs
    · exact finishFrame_oneMore { parser with buffer := _, current := _ }
    · exact .same rfl
  | payload => exact readPayload_oneMore parser

/-- Parsing adds to the callbacks made. -/
theorem Ready.callbacks_parseBuffer {parser : WsFrameParser} (ready : parser.Ready) :
    parser.callbacks <+: parser.parseBuffer.callbacks := by
  have pass (state next final : WsFrameParser) (_ : parseLoop.Inv state)
      (taken : parseLoop.body state = some next) (later : next.callbacks <+: final.callbacks) :
      state.callbacks <+: final.callbacks := by
    obtain ⟨made, callbacks⟩ := (parseStep_cases taken).2.oneMore
    rw [callbacks] at later
    exact (List.prefix_append _ _).trans later
  exact parseLoop.run_rule (fun _ _ _ => List.prefix_rfl) pass parser ready

end WsFrameParser

/-- Whether a call is one of `OnClose`. -/
def Call.isClose : Call → Bool
  | .onClose _ _ => true
  | _ => false

namespace HttpSession

variable {Parser : Type} (env : Environment) (llhttp : Llhttp Parser)

/-- The call of the handler that a callback of the frame parser leads to. -/
def frameCall : WsFrameParser.Callback → Option Call
  | .onFrame opcode payload =>
    if opcode = .kText ∨ opcode = .kBinary then
      some (.onMessage payload (opcode = .kText))
    else if opcode = .kClose then
      some (.onClose (closeCode payload) (payload.drop 2))
    else
      none
  | .onError _ => none

/-- The callback of the frame parser, if there is one. -/
def runMade (state : HttpSession Parser) (made : Option WsFrameParser.Callback) :
    HttpSession Parser :=
  made.elim state (runCallback env state)

theorem onFrame_cases (opcode : WsOpcode) (payload : Text) (state : HttpSession Parser) :
    (frameCall (.onFrame opcode payload) = none ∧
        SessionCalls state (state.onFrame env opcode payload)) ∨
      ∃ call, frameCall (.onFrame opcode payload) = some call ∧
        SessionCalls (state.record call) (state.onFrame env opcode payload) ∧
        (call.isClose = true → (state.onFrame env opcode payload).disconnecting = true) := by
  unfold frameCall onFrame
  dsimp only
  by_cases message : opcode = .kText ∨ opcode = .kBinary
  · simp only [if_pos message]
    exact .inr ⟨_, rfl, callHandler_calls env _ _, by simp [Call.isClose]⟩
  by_cases ping : opcode = .kPing
  · have other : opcode ≠ .kClose := by
      rw [ping]
      decide
    simp only [if_neg message, if_pos ping, if_neg other]
    exact .inl ⟨trivial, sendBuilt_calls env _ _⟩
  by_cases close : opcode = .kClose
  · simp only [if_neg message, if_neg ping, if_pos close]
    refine .inr ⟨_, rfl, ?_, fun _ => disconnect_disconnecting env _⟩
    exact (callHandler_calls env _ _).trans
      ((sendBuilt_calls env _ _).trans (disconnect_calls env _))
  · simp only [if_neg message, if_neg ping, if_neg close]
    exact .inl ⟨trivial, .refl _⟩

theorem runMade_handled (state : HttpSession Parser) (made : Option WsFrameParser.Callback) :
    Handled state (state.runMade env made) := by
  rcases made with _ | ⟨opcode, payload⟩ | _
  · exact .refl _
  · rcases onFrame_cases env opcode payload state with ⟨_, calls⟩ | ⟨call, _, calls, _⟩
    · exact .of_calls calls
    · have recorded : Handled state (state.record call) := ⟨.refl, rfl⟩
      exact recorded.trans (.of_calls calls)
  · exact .refl _

theorem runMade_mode (state : HttpSession Parser) (made : Option WsFrameParser.Callback) :
    (state.runMade env made).mode = state.mode := by
  rcases made with _ | ⟨opcode, payload⟩ | _
  · rfl
  · rcases onFrame_cases env opcode payload state with ⟨_, calls⟩ | ⟨call, _, calls, _⟩
    · exact calls.mode
    · exact calls.mode
  · rfl

/-- What a pass does. -/
inductive Turn (state : HttpSession Parser) : HttpSession Parser → Prop where
  | leave {length rest buffered} (at_ : state.control = .feedHttp length rest buffered)
      (left : rest = [] ∨ state.parserError = true) :
      Turn state (state.finishHttp env length rest buffered)
  | incomplete {length rest buffered parser}
      (at_ : state.control = .feedHttp length rest buffered)
      (more : rest ≠ []) (running : state.parserError = false)
      (executed : llhttp.execute state.parser rest = .ok parser) :
      Turn state ({ state with parser }.finishHttp env length [] buffered)
  | request {length rest buffered consumed request parser}
      (at_ : state.control = .feedHttp length rest buffered)
      (more : rest ≠ []) (running : state.parserError = false)
      (executed : llhttp.execute state.parser rest = .paused consumed request parser) :
      Turn state { state.handleRequest env request with
        parser, control := .feedHttp length (rest.drop consumed) buffered }
  | failed {length rest buffered consumed}
      (at_ : state.control = .feedHttp length rest buffered)
      (more : rest ≠ []) (running : state.parserError = false)
      (executed : llhttp.execute state.parser rest = .failed consumed) :
      Turn state
        ({ state with parserError := true }.finishHttp env length (rest.drop consumed) buffered)
  | wsLeave {length buffered} (at_ : state.control = .feedWs length buffered)
      (left : state.wsParser.parseStep = none) : Turn state (state.finishWs env length buffered)
  | frame {length buffered wsParser made} (at_ : state.control = .feedWs length buffered)
      (taken : state.wsParser.parseStep = some wsParser)
      (callbacks : wsParser.callbacks = state.wsParser.callbacks ++ made.toList) :
      Turn state ({ state with wsParser }.runMade env made)

variable {env llhttp} {state next : HttpSession Parser}

theorem parse_cases (taken : state.parse env llhttp = some next) :
    Turn env llhttp state next := by
  unfold parse at taken
  split at taken
  case h_1 => cases taken
  case h_2 at_ =>
    cases taken
    unfold httpPass
    split
    case isTrue left => exact .leave at_ (by simpa using left)
    case isFalse running =>
      simp only [Bool.or_eq_true, List.isEmpty_iff, not_or, Bool.not_eq_true] at running
      split
      case h_1 executed => exact .incomplete at_ running.1 running.2 executed
      case h_2 executed => exact .request at_ running.1 running.2 executed
      case h_3 executed => exact .failed at_ running.1 running.2 executed
  case h_3 at_ =>
    cases taken
    unfold wsPass
    split
    case h_1 left => exact .wsLeave at_ left
    case h_2 wsParser stepped =>
      obtain ⟨made, callbacks⟩ := (WsFrameParser.parseStep_cases stepped).2.oneMore
      rw [callbacks, List.drop_left]
      have folded : made.toList.foldl (runCallback env) { state with wsParser } =
          { state with wsParser }.runMade env made := by cases made <;> rfl
      rw [folded]
      exact .frame at_ stepped callbacks

theorem Turn.parse (turn : Turn env llhttp state next) :
    state.parse env llhttp = some next := by
  unfold HttpSession.parse
  cases turn with
  | @leave _ rest _ at_ left =>
    have left : (rest.isEmpty || state.parserError) = true := by simpa using left
    rw [at_]
    exact congrArg some (if_pos left)
  | incomplete at_ more running executed => simp [at_, httpPass, more, running, executed]
  | request at_ more running executed => simp [at_, httpPass, more, running, executed]
  | failed at_ more running executed => simp [at_, httpPass, more, running, executed]
  | wsLeave at_ left => simp [at_, wsPass, left]
  | @frame _ _ _ made at_ taken callbacks =>
    simp only [at_, wsPass, taken, callbacks, List.drop_left]
    cases made <;> rfl

theorem Turn.not_idle (turn : Turn env llhttp state next) :
    state.control ≠ .idle := by
  intro idle
  have stopped : state.parse env llhttp = none := by simp [HttpSession.parse, idle]
  cases stopped.symm.trans turn.parse

/-- A pass does one thing. -/
theorem Turn.unique {state next other : HttpSession Parser} (turn : Turn env llhttp state next)
    (known : Turn env llhttp state other) : next = other :=
  Option.some.inj (turn.parse.symm.trans known.parse)

end HttpSession

/-- What the end of a span leaves alone: all but the `Session` and the buffer. -/
structure Finished {Parser : Type} (state next : HttpSession Parser) : Prop where
  io : IoCalls state.io next.io
  rest : next = { state with
    io := next.io
    recvBuf := next.recvBuf
    control := .idle
    history.operations := next.history.operations
    history.allocations := next.history.allocations }

theorem Finished.of_calls {Parser : Type} {state next : HttpSession Parser}
    (calls : SessionCalls { state with control := .idle } next) : Finished state next := by
  refine ⟨calls.io, ?_⟩
  rw [calls.rest]

/-- What the beginning of `OnRecv` leaves alone: all but the `Session`, the buffer and the
frame parser. -/
structure Entered {Parser : Type} (state next : HttpSession Parser) : Prop where
  io : IoCalls state.io next.io
  rest : next = { state with
    io := next.io
    recvBuf := next.recvBuf
    wsParser := next.wsParser
    control := next.control
    history.operations := next.history.operations }

namespace HttpSession

variable {Parser : Type} (env : Environment)

theorem finishHttp_error {state : HttpSession Parser} (error : state.parserError = true)
    (length : Nat) (rest : Text) (buffered : Bool) : state.finishHttp env length rest buffered =
      ({ state with control := .idle }.sendBuilt env fun allocate =>
        badRequest.build allocate env.date).disconnect env := if_pos error

theorem finishHttp_all {state : HttpSession Parser} (fine : state.parserError = false)
    (length : Nat) : state.finishHttp env length [] false = { state with control := .idle } := by
  simp [finishHttp, fine]

theorem finishHttp_finished (length : Nat) (rest : Text) (buffered : Bool)
    (state : HttpSession Parser) :
    Finished state (state.finishHttp env length rest buffered) := by
  unfold finishHttp
  dsimp only
  split_ifs
  · exact .of_calls ((sendBuilt_calls env _ _).trans (disconnect_calls env _))
  · exact ⟨.refl, rfl⟩
  · exact ⟨.refl, rfl⟩
  · cases state.recvBuf.append rest with
    | none => exact .of_calls (disconnect_calls env _)
    | some recvBuf => exact ⟨.refl, rfl⟩

theorem finishWs_finished (length : Nat) (buffered : Bool) (state : HttpSession Parser) :
    Finished state (state.finishWs env length buffered) := by
  unfold finishWs
  cases buffered with
  | false =>
    simp only [Bool.false_eq_true, if_false]
    split_ifs
    · exact .of_calls (disconnect_calls env _)
    · exact ⟨.refl, rfl⟩
  | true =>
    simp only [if_true]
    split_ifs
    · exact ⟨.single (.disconnect _), rfl⟩
    · exact ⟨.refl, rfl⟩

theorem feedWs_entered (data : Text) (buffered : Bool) (state : HttpSession Parser) :
    Entered state (state.feedWs data buffered) := by
  unfold feedWs
  split_ifs <;> exact ⟨.refl, rfl⟩

theorem onRecv_entered (data : Text) (state : HttpSession Parser) :
    Entered state (state.onRecv env data) := by
  unfold onRecv handleHttpRecv handleWsRecv
  split
  · split_ifs
    · exact ⟨.refl, rfl⟩
    · cases state.recvBuf.append data with
      | none => exact ⟨.single (.disconnect _), rfl⟩
      | some recvBuf => exact ⟨.refl, rfl⟩
  · split_ifs
    · exact feedWs_entered data false state
    · cases state.recvBuf.append data with
      | none => exact ⟨.single (.disconnect _), rfl⟩
      | some recvBuf =>
        have entered := feedWs_entered recvBuf.readRegion true { state with recvBuf }
        refine ⟨entered.io, ?_⟩
        rw [Option.elim_some, entered.rest]

end HttpSession

end UringServer.Web
