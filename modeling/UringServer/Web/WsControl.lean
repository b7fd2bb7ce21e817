import UringServer.Web.LateCalls
import UringServer.Web.WsStream

/-!
# The control frames that a session sends

An `HttpSession` hands control frames to `Session::Send` to answer a ping or a close
frame, and when the application calls `SendPing` or `WsClose`. They are final. Their
payload is that of the frame answered, or what the application gives, of any length:
`ControlRun.long_ping_is_echoed`. What a handler sends from a callback stands after the
pass that makes the callback.
-/

namespace UringServer.Web

open UringServer.Semantics

/-- A control frame handed to `Session::Send`: what it was built of, and its bytes. -/
structure SentControl where
  opcode : ControlOpcode
  payload : Text
  bytes : Text

/-- A control frame as RFC 6455 asks for it: final, and with at most 125 bytes, so that their
number stands in the second byte. -/
structure SentControl.Legal (sent : SentControl) : Prop where
  final : ∃ first rest, sent.bytes = first :: rest ∧ first &&& 0x80 ≠ 0
  short : sent.payload.length ≤ 125
  bytes : sent.bytes = [0x80 ||| sent.opcode.opcode.value, UInt8.ofNat sent.payload.length] ++
    sent.payload

/-- `BuildWsFrame` of a control frame. -/
def buildControl (allocate : Allocate) (opcode : ControlOpcode) (payload : Text) :
    Option SentControl :=
  (buildWsFrame allocate opcode.opcode payload).map fun bytes => ⟨opcode, payload, bytes⟩

/-- A control frame that is built is legal exactly if its payload is short. -/
theorem legal_buildControl_iff {allocate : Allocate} {opcode : ControlOpcode} {payload : Text}
    {sent : SentControl} (built : buildControl allocate opcode payload = some sent) :
    sent.Legal ↔ payload.length ≤ 125 := by
  obtain ⟨bytes, written, rfl⟩ := Option.map_eq_some_iff.mp built
  refine ⟨SentControl.Legal.short, fun short => ?_⟩
  have encoded := buildFrame_eq (by simp only [WsFrameParser.maxPayload]; omega) written
  have minimal : minimalLen7 payload.length = payload.length := if_pos (by omega)
  have extension : minimalExtension payload.length = [] := if_pos (by omega)
  rw [minimal, extension, List.append_nil] at encoded
  refine ⟨⟨_, _, encoded, ?_⟩, short, encoded⟩
  cases opcode <;> decide

/-- The opcode of the frame that answers a frame. -/
def replyOpcode (opcode : WsOpcode) : Option ControlOpcode :=
  if opcode = .kPing then some .pong else if opcode = .kClose then some .close else none

/-- The answer to a callback of the frame parser. -/
def reply (allocate : Allocate) : WsFrameParser.Callback → Option SentControl
  | .onFrame opcode payload =>
    (replyOpcode opcode).bind fun answer => buildControl allocate answer payload
  | .onError _ => none

/-- A ping or a close frame is short, or the pool has no buffer for the answer. -/
def AnsweredShort (allocate : Allocate) : WsFrameParser.Callback → Prop
  | .onFrame opcode payload => ∀ answer ∈ replyOpcode opcode,
      (buildControl allocate answer payload).isSome → payload.length ≤ 125
  | .onError _ => True

instance (allocate : Allocate) (callback : WsFrameParser.Callback) :
    Decidable (AnsweredShort allocate callback) :=
  match callback with
  | .onFrame _ _ => Option.decidableForallMem _
  | .onError _ => .isTrue trivial

/-- The payload of the frame that `WsClose` sends. -/
def closePayload (code : UInt16) (reason : Text) : Text :=
  ((code >>> 8) &&& 0xFF).toUInt8 :: (code &&& 0xFF).toUInt8 :: reason

namespace HttpSession

variable {Parser : Type} (env : Environment)

/-- `HttpSession::SendPing`. -/
def sendPing (payload : Text) (state : HttpSession Parser) : HttpSession Parser :=
  state.sendBuilt env fun allocate => buildWsFrame allocate .kPing payload

/-- `HttpSession::WsClose`. -/
def wsClose (code : UInt16) (reason : Text) (state : HttpSession Parser) : HttpSession Parser :=
  state.sendBuilt env fun allocate => buildWsFrame allocate .kClose (closePayload code reason)

/-- What the pool gives next. -/
def allocate (state : HttpSession Parser) : Allocate := env.allocate state.history.allocations

/-- The callbacks that the next pass over a span makes. -/
def made (state : HttpSession Parser) : List WsFrameParser.Callback :=
  match state.control with
  | .feedWs _ _ => state.wsParser.parseStep.elim [] fun next =>
    next.callbacks.drop state.wsParser.callbacks.length
  | _ => []

/-- A pass makes one callback, so `made` is all that it does. -/
theorem parse_makes {env : Environment} {llhttp : Llhttp Parser} {state next : HttpSession Parser}
    {callback : WsFrameParser.Callback} (member : callback ∈ state.made)
    (parsed : state.parse env llhttp = some next) :
    ∃ wsParser, next = { state with wsParser }.runCallback env callback := by
  unfold made at member
  cases parse_cases parsed with
  | leave at_ _ => simp [at_] at member
  | incomplete at_ _ _ _ => simp [at_] at member
  | request at_ _ _ _ => simp [at_] at member
  | failed at_ _ _ _ => simp [at_] at member
  | wsLeave at_ left => simp [at_, left] at member
  | @frame _ _ wsParser made at_ taken callbacks =>
    simp only [at_, taken, callbacks, Option.elim_some, List.drop_left, Option.mem_toList]
      at member
    subst member
    exact ⟨wsParser, rfl⟩

/-- `Send` of a control frame, if it was built. -/
def hand (sent : Option SentControl) (state : HttpSession Parser) : HttpSession Parser :=
  sent.elim state.recordAllocation fun control => state.recordAllocation.send env control.bytes

/-- A handler is called without a use of the pool. -/
theorem callHandler_allocations (call : Call) (state : HttpSession Parser) :
    (state.callHandler env call).history.allocations = state.history.allocations := by
  have ops : ∀ (ops : List SessionOp) (state : HttpSession Parser),
      (ops.foldl (runOp env) state).history.allocations = state.history.allocations := by
    intro ops
    induction ops with
    | nil => exact fun state => rfl
    | cons op rest ih =>
      intro state
      rw [List.foldl_cons, ih]
      cases op <;> rfl
  exact ops _ _

theorem sendBuilt_hands (opcode : ControlOpcode) (payload : Text) (state : HttpSession Parser) :
    (state.sendBuilt env fun allocate => buildWsFrame allocate opcode.opcode payload) =
      state.hand env (buildControl (state.allocate env) opcode payload) := by
  unfold sendBuilt hand buildControl allocate
  dsimp only
  cases buildWsFrame (env.allocate state.history.allocations) opcode.opcode payload <;> rfl

/-- The callback of `UpgradeToWebSocket` hands on `reply`: at once for a ping, and after `OnClose`
and before `Disconnect` for a close frame. -/
theorem onFrame_hands {opcode : WsOpcode} {answer : ControlOpcode}
    (answered : replyOpcode opcode = some answer) (payload : Text) (state : HttpSession Parser) :
    state.onFrame env opcode payload =
      match answer with
      | .close => ((state.callHandler env (.onClose (closeCode payload) (payload.drop 2))).hand env
          (reply (state.allocate env) (.onFrame opcode payload))).disconnect env
      | _ => state.hand env (reply (state.allocate env) (.onFrame opcode payload)) := by
  unfold replyOpcode at answered
  split_ifs at answered with ping close
  · cases answered
    subst ping
    exact sendBuilt_hands env .pong payload state
  · cases answered
    subst close
    have called := sendBuilt_hands env .close payload
      (state.callHandler env (.onClose (closeCode payload) (payload.drop 2)))
    have sameBuffers : (state.callHandler env (.onClose (closeCode payload)
        (payload.drop 2))).allocate env = state.allocate env := by
      unfold allocate
      rw [callHandler_allocations]
    rw [sameBuffers] at called
    exact congrArg (disconnect env) called

/-- A frame that answers a callback is handed on by it, last but for `Disconnect`. -/
theorem runCallback_hands {callback : WsFrameParser.Callback} (state : HttpSession Parser)
    {sent : SentControl} (replied : reply (state.allocate env) callback = some sent) :
    ∃ asked : HttpSession Parser, state.runCallback env callback = asked.hand env (some sent) ∨
      state.runCallback env callback = (asked.hand env (some sent)).disconnect env := by
  cases callback with
  | onError reason => cases replied
  | onFrame opcode payload =>
    obtain ⟨answer, answered, _⟩ := Option.bind_eq_some_iff.mp replied
    have handed := onFrame_hands env answered payload state
    rw [replied] at handed
    cases answer with
    | close => exact ⟨_, .inr handed⟩
    | ping => exact ⟨_, .inl handed⟩
    | pong => exact ⟨_, .inl handed⟩

end HttpSession

/-- A session and the control frames that it has handed to `Session::Send`. -/
structure ControlRun (Parser : Type) where
  session : HttpSession Parser
  handed : List SentControl := []

/-- What can happen to a session, with the calls of the application that send control frames. -/
inductive ControlAction where
  | web (action : WebAction)
  | sendPing (payload : Text)
  | wsClose (code : UInt16) (reason : Text)

namespace ControlRun

variable {Parser : Type} (env : Environment) (llhttp : Llhttp Parser)

/-- What an action does to the session. -/
def move (session : HttpSession Parser) : ControlAction → Option (HttpSession Parser)
  | .web action => session.step env llhttp action
  | .sendPing payload => some (session.sendPing env payload)
  | .wsClose code reason => some (session.wsClose env code reason)

/-- The control frames that an action hands to `Session::Send`. -/
def hands (session : HttpSession Parser) : ControlAction → List SentControl
  | .web .parse => session.made.filterMap (reply (session.allocate env))
  | .web _ => []
  | .sendPing payload => (buildControl (session.allocate env) .ping payload).toList
  | .wsClose code reason =>
    (buildControl (session.allocate env) .close (closePayload code reason)).toList

variable {env llhttp} in
/-- The frames of `hands` are those that the action passes to `Session::Send`. -/
theorem move_hands {session next : HttpSession Parser} {action : ControlAction} {sent : SentControl}
    (moved : move env llhttp session action = some next)
    (member : sent ∈ hands env session action) :
    ∃ asked : HttpSession Parser, next = asked.hand env (some sent) ∨
      next = (asked.hand env (some sent)).disconnect env := by
  have built : ∀ opcode payload, sent ∈
      (buildControl (session.allocate env) opcode payload).toList →
        (session.sendBuilt env fun allocate => buildWsFrame allocate opcode.opcode payload) =
          session.hand env (some sent) := by
    intro opcode payload member
    rw [session.sendBuilt_hands env, Option.mem_toList.mp member]
  cases action with
  | sendPing payload =>
    cases moved
    exact ⟨session, .inl (built .ping payload member)⟩
  | wsClose code reason =>
    cases moved
    exact ⟨session, .inl (built .close (closePayload code reason) member)⟩
  | web action =>
    cases action with
    | recv _ _ _ => cases member
    | answer _ _ => cases member
    | io _ => cases member
    | parse =>
      obtain ⟨callback, made, replied⟩ := List.mem_filterMap.mp member
      obtain ⟨wsParser, rfl⟩ := session.parse_makes made moved
      exact HttpSession.runCallback_hands env { session with wsParser } replied

/-- The life of a session with the control frames it sends. -/
def system : TransitionSystem (ControlRun Parser) ControlAction where
  Initial state := (HttpSession.system env llhttp).Initial state.session ∧ state.handed = []
  step state action := (move env llhttp state.session action).map fun session =>
    { session, handed := state.handed ++ hands env state.session action }

/-- The payloads of the control frames that are answered, and of those that the application
sends, are short, unless the pool has no buffer for the frame. -/
def ShortPayloads (state : ControlRun Parser) : ControlAction → Prop
  | .web .parse => ∀ callback ∈ state.session.made,
      AnsweredShort (state.session.allocate env) callback
  | .web _ => True
  | .sendPing payload =>
    (buildControl (state.session.allocate env) .ping payload).isSome → payload.length ≤ 125
  | .wsClose code reason =>
    (buildControl (state.session.allocate env) .close (closePayload code reason)).isSome →
      2 + reason.length ≤ 125

variable {env llhttp}

theorem legal_toList_iff {allocate : Allocate} {opcode : ControlOpcode} {payload : Text} :
    (∀ sent ∈ (buildControl allocate opcode payload).toList, sent.Legal) ↔
      ((buildControl allocate opcode payload).isSome → payload.length ≤ 125) := by
  cases built : buildControl allocate opcode payload with
  | none => simp
  | some sent => simp [legal_buildControl_iff built]

theorem legal_reply_iff {allocate : Allocate} {callback : WsFrameParser.Callback} :
    (∀ sent ∈ reply allocate callback, sent.Legal) ↔ AnsweredShort allocate callback := by
  cases callback with
  | onError reason => simp [reply, AnsweredShort]
  | onFrame opcode payload =>
    simp only [reply, AnsweredShort]
    cases answered : replyOpcode opcode with
    | none => simp
    | some answer =>
      have one := @legal_toList_iff allocate answer payload
      simpa using one

/-- An action hands on legal frames exactly if the payloads are short. -/
theorem legal_hands_iff {state : ControlRun Parser} {action : ControlAction} :
    (∀ sent ∈ hands env state.session action, sent.Legal) ↔ ShortPayloads env state action := by
  cases action with
  | web action =>
    cases action with
    | parse =>
      simp only [hands, ShortPayloads, ← legal_reply_iff, List.mem_filterMap]
      constructor
      · intro legal callback member sent replied
        exact legal sent ⟨callback, member, replied⟩
      · rintro legal sent ⟨callback, member, replied⟩
        exact legal callback member sent replied
    | recv _ _ _ => simp [hands, ShortPayloads]
    | answer _ _ => simp [hands, ShortPayloads]
    | io _ => simp [hands, ShortPayloads]
  | sendPing payload => exact legal_toList_iff
  | wsClose code reason =>
    have length : (closePayload code reason).length = 2 + reason.length := by
      simp only [closePayload, List.length_cons]
      omega
    simp only [hands, ShortPayloads, ← length]
    exact legal_toList_iff

/-- The control frames that a session has handed to `Session::Send` are all legal exactly if in
its run every ping and close frame answered had at most 125 bytes of payload, and so had every
ping and close frame of the application. -/
theorem control_frames_legal_iff {state : ControlRun Parser}
    (reachable : (system env llhttp).Reachable everyStep state) :
    (∀ sent ∈ state.handed, sent.Legal) ↔
      (system env llhttp).Reachable (ShortPayloads env) state := by
  refine reachable.iff_admitted (fun state => ∀ sent ∈ state.handed, sent.Legal) ?_ ?_
  · rintro state ⟨_, none_⟩ sent member
    rw [none_] at member
    cases member
  · intro state action next _ transition
    obtain ⟨session, _, rfl⟩ := Option.map_eq_some_iff.mp transition
    rw [List.forall_mem_append, legal_hands_iff]

section Runs

instance (env : Environment) (state : ControlRun Parser) (action : ControlAction) :
    Decidable (ShortPayloads env state action) :=
  match action with
  | .web .parse => List.decidableBAll _ _
  | .web (.recv _ _ _) | .web (.answer _ _) | .web (.io _) => .isTrue trivial
  | .sendPing _ => inferInstanceAs (Decidable (_ → _))
  | .wsClose _ _ => inferInstanceAs (Decidable (_ → _))

theorem start_initial : (system env llhttp).Initial ⟨HttpSession.start llhttp false false, []⟩ :=
  ⟨HttpSession.start_initial env llhttp, rfl⟩

/-- The upgrade of a new session and the bytes it receives then, with a number of passes. -/
def receiving (data : Text) (passes : Nat) : List ControlAction :=
  (HttpSession.upgradeActions ++ WebAction.recv {} data 3 :: List.replicate passes .parse).map .web

/-- A ping is answered, and the application sends a ping and a close frame. -/
theorem control_frames_legal_iff_ping :
    ∃ state : ControlRun Text, (system HttpSession.upgrading headParser).Reachable everyStep state ∧
      state.handed.map SentControl.bytes =
        [[0x8A, 0x01, 0x68], [0x89, 0x00], [0x88, 0x02, 0x03, 0xE8]] ∧
      ∀ sent ∈ state.handed, sent.Legal := by
  have run : ((system HttpSession.upgrading headParser).execute
      (ShortPayloads HttpSession.upgrading) ⟨HttpSession.start headParser false false, []⟩
      (receiving [0x89, 0x01, 0x68] 2 ++ [.sendPing [], .wsClose 1000 []])).map
      (fun state => state.handed.map SentControl.bytes) =
      some [[0x8A, 0x01, 0x68], [0x89, 0x00], [0x88, 0x02, 0x03, 0xE8]] := by decide +kernel
  obtain ⟨state, executed, handed⟩ := Option.map_eq_some_iff.mp run
  have short := TransitionSystem.Reachable.execute (.initial start_initial) executed
  have reachable := short.mono (fun _ _ _ => trivial : ∀ state action, _ → everyStep state action)
  exact ⟨state, reachable, handed, (control_frames_legal_iff reachable).mpr short⟩

/-- A ping with a payload of 126 bytes in the 16-bit form of the length. -/
def longPing : Text := [0x89, 0x7E, 0x00, 0x7E] ++ List.replicate 126 0x00

/-- The ping is answered with a pong as long. -/
theorem long_ping_is_echoed :
    ∃ state : ControlRun Text, (system HttpSession.upgrading headParser).Reachable everyStep state ∧
      ∃ sent ∈ state.handed, sent.opcode = .pong ∧ sent.payload.length = 126 ∧ ¬ sent.Legal := by
  have run : ((system HttpSession.upgrading headParser).execute everyStep
      ⟨HttpSession.start headParser false false, []⟩ (receiving longPing 3)).map
      (fun state => state.handed.map fun sent => (sent.opcode, sent.payload.length)) =
      some [(.pong, 126)] := by decide +kernel
  obtain ⟨state, executed, handed⟩ := Option.map_eq_some_iff.mp run
  obtain ⟨sent, member, same⟩ := List.mem_map.mp (handed ▸ List.mem_singleton_self _)
  obtain ⟨pong, length⟩ := Prod.mk.inj same
  refine ⟨state, TransitionSystem.Reachable.execute (.initial start_initial) executed, sent, member,
    pong, length, ?_⟩
  intro legal
  have short := legal.short
  omega

end Runs

end ControlRun

end UringServer.Web
