import UringServer.Buffer.RecvBuffer
import UringServer.Io.Session
import UringServer.Web.Llhttp
import UringServer.Web.WsFeed

/-!
# `HttpSession`

The session of `HttpSession.cpp` on top of `Session`, with `HttpParser` and
`WsFrameParser`.

What the application does in a callback is given by the `Environment` as the
calls it makes into the session. A received span is parsed in passes, one for
each turn of the loop of `HttpParser::Feed` or of `ParseBuffer`; `control` says
where the thread stands. `OnDisconnected` is not overridden, so that it returns
only after the span has been parsed makes no difference.
-/

namespace UringServer.Web

open UringServer.Buffer UringServer.Io UringServer.Semantics

/-- A call from the session to the application. -/
inductive Call where
  /-- `Router::Dispatch`. -/
  | request (request : HttpRequest)
  | onOpen
  | onMessage (data : Text) (isText : Bool)
  | onClose (code : Nat) (reason : Text)
deriving DecidableEq

/-- A call from the application to the session. -/
inductive SessionOp where
  | send (buf : Text)
  | disconnect
deriving DecidableEq

/-- What the handler of a request does with its context. -/
inductive RequestOp where
  /-- Set the fields of `response`. -/
  | set (response : HttpResponse)
  /-- `response.Send()`. -/
  | respond
  /-- `session.SendResponse` with the bytes given, as `SendJson` and `SendError` call it, or
  with a null buffer. -/
  | handOver (buf : Option Text)
  /-- `response.MarkSent()`. -/
  | markSent
  /-- `Defer()`, to answer from a callback. -/
  | defer
  /-- `session.UpgradeToWebSocket(handler)`. -/
  | upgrade
  | session (op : SessionOp)
deriving DecidableEq

/-- What is not decided by the session: the application, which may depend on all calls made
to it so far, what the ring and the pool give at each use of them, and the clock. -/
structure Environment where
  onRequest : List Call → HttpRequest → List RequestOp
  onWebSocket : List Call → Call → List SessionOp
  sqes : Nat → Sqes
  allocate : Nat → Allocate
  date : Text

/-- An application that answers by itself only, on a ring and a pool with room. -/
def Environment.quiet : Environment where
  onRequest _ _ := []
  onWebSocket _ _ := []
  sqes _ := {}
  allocate _ := allocateZeros
  date := ascii "Sun, 06 Nov 1994 08:49:37 GMT"

/-- `HttpSession::Mode`. -/
inductive Mode where
  | http
  | webSocket
deriving DecidableEq

/-- Where the thread stands in `HttpSession::OnRecv`. -/
inductive Control where
  | idle
  /-- In the loop of `HttpParser::Feed`, called with `length` bytes of which `rest` are not
  consumed; `buffered` if they are those of `recv_buf_`. -/
  | feedHttp (length : Nat) (rest : Text) (buffered : Bool)
  /-- In the loop of `WsFrameParser::ParseBuffer`; `buffered` as above. -/
  | feedWs (length : Nat) (buffered : Bool)
deriving DecidableEq

/-- A call and whether `Disconnect` had been called before it. -/
structure CallRecord where
  call : Call
  late : Bool
deriving DecidableEq

/-- A response handed to `Session::Send`: the request it is for, its bytes unless the buffer
is null and, if it was accepted, its place among the accepted buffers. -/
structure ResponseRecord where
  request : Nat
  bytes : Option Text
  position : Option Nat
deriving DecidableEq

/-- What has happened so far. The counters number the uses of ring and pool. -/
structure WebHistory where
  received : Text := []
  calls : List CallRecord := []
  operations : Nat := 0
  allocations : Nat := 0
  dispatched : Nat := 0
  deferred : List Nat := []
  responses : List ResponseRecord := []

/-- The members of an `HttpSession`. -/
structure HttpSession (Parser : Type) where
  io : Io.State
  parser : Parser
  parserError : Bool := false
  recvBuf : RecvBuffer := {}
  mode : Mode := .http
  wsParser : WsFrameParser := {}
  control : Control := .idle
  history : WebHistory := {}

namespace HttpSession

variable {Parser : Type} (env : Environment)

/-- Whether `Disconnect` has been called. -/
def disconnecting (state : HttpSession Parser) : Bool := state.io.session.disconnecting

/-- `Session::Send`. -/
def send (buf : Text) (state : HttpSession Parser) : HttpSession Parser :=
  { state with
    io := (state.io.send (env.sqes state.history.operations) ⟨buf⟩).2
    history.operations := state.history.operations + 1 }

/-- `Session::Disconnect`. -/
def disconnect (state : HttpSession Parser) : HttpSession Parser :=
  { state with
    io := state.io.disconnect (env.sqes state.history.operations)
    history.operations := state.history.operations + 1 }

/-- Keep that the pool was asked for a buffer. -/
def recordAllocation (state : HttpSession Parser) : HttpSession Parser :=
  { state with history.allocations := state.history.allocations + 1 }

/-- Build a buffer and `Session::Send` it if the pool had one. -/
def sendBuilt (build : Allocate → Option Text) (state : HttpSession Parser) :
    HttpSession Parser :=
  (build (env.allocate state.history.allocations)).elim state.recordAllocation fun buf =>
    state.recordAllocation.send env buf

/-- Keep a call to the application in the history. -/
def record (call : Call) (state : HttpSession Parser) : HttpSession Parser :=
  { state with
    history.calls := state.history.calls ++ [⟨call, state.disconnecting⟩] }

/-- The calls made to the application, in order. -/
def calls (state : HttpSession Parser) : List Call := state.history.calls.map CallRecord.call

/-- A call of the application. -/
def runOp (state : HttpSession Parser) : SessionOp → HttpSession Parser
  | .send buf => state.send env buf
  | .disconnect => state.disconnect env

/-- A call of `ws_handler_`, with what the handler does. -/
def callHandler (call : Call) (state : HttpSession Parser) : HttpSession Parser :=
  (env.onWebSocket state.calls call).foldl (runOp env) (state.record call)

/-- `HttpSession::UpgradeToWebSocket`. -/
def upgradeToWebSocket (state : HttpSession Parser) : HttpSession Parser :=
  { state with mode := .webSocket }.callHandler env .onOpen

/-- A request is passed to `Router::Dispatch`. -/
def recordRequest (request : HttpRequest) (state : HttpSession Parser) : HttpSession Parser :=
  { state with history.dispatched := state.history.dispatched + 1 }.record (.request request)

/-- Keep that the answer to a request is left to a callback. -/
def recordDeferred (request : Nat) (state : HttpSession Parser) : HttpSession Parser :=
  { state with history.deferred := state.history.deferred ++ [request] }

/-- Hand a response to `Session::Send` and keep for which request it is. -/
def handResponse (request : Nat) (buf : Text) (state : HttpSession Parser) :
    HttpSession Parser :=
  let position := state.io.history.accepted.length
  let state := state.send env buf
  { state with
    history.responses := state.history.responses ++
      [⟨request, some buf,
        if position < state.io.history.accepted.length then some position else none⟩] }

/-- Hand a null buffer to `Session::Send`. `SendBatch` would read its bytes, so what follows
is undefined and only the call is kept. -/
def handNull (request : Nat) (state : HttpSession Parser) : HttpSession Parser :=
  { state with history.responses := state.history.responses ++ [⟨request, none, none⟩] }

/-- A request that is being handled: `sent_` of its response, the response's fields and the
session. -/
structure Handling (Parser : Type) where
  sent : Bool := false
  response : HttpResponse
  session : HttpSession Parser

/-- `HttpResponse::Send`. -/
def Handling.send (request : Nat) (handling : Handling Parser) : Handling Parser :=
  if handling.sent then
    handling
  else
    let session := handling.session
    let built := handling.response.build (env.allocate session.history.allocations) env.date
    { handling with
      sent := true
      session := built.elim session.recordAllocation fun buf =>
        session.recordAllocation.handResponse env request buf }

/-- One call of the handler of request number `request`. -/
def Handling.runOp (request : Nat) (handling : Handling Parser) : RequestOp → Handling Parser
  | .set response => { handling with response }
  | .respond => handling.send env request
  | .handOver (some buf) =>
    { handling with session := handling.session.handResponse env request buf }
  | .handOver none => { handling with session := handling.session.handNull request }
  | .markSent => { handling with sent := true }
  | .defer => { handling with sent := true, session := handling.session.recordDeferred request }
  | .upgrade => { handling with session := handling.session.upgradeToWebSocket env }
  | .session op => { handling with session := handling.session.runOp env op }

/-- `Router::Dispatch` of request number `dispatched`. -/
def dispatch (request : HttpRequest) (state : HttpSession Parser) : Handling Parser :=
  (env.onRequest state.calls request).foldl (Handling.runOp env state.history.dispatched)
    { response := { keepAlive := request.keepAlive }, session := state.recordRequest request }

/-- `HttpSession::HandleRequest`, with the `error_` that `OnMessageComplete` sets when it
returns `false`. -/
def handleRequest (request : HttpRequest) (state : HttpSession Parser) : HttpSession Parser :=
  let answered := ((state.dispatch env request).send env state.history.dispatched).session
  if request.keepAlive then
    answered
  else
    { answered.disconnect env with parserError := true }

/-- The response to bytes that are no request. -/
def badRequest : HttpResponse where
  status := .kBadRequest
  contentType := ascii "text/plain"
  body := ascii "Bad Request"
  keepAlive := false

/-- `OnRead` and what follows it. -/
def consume (count : Nat) (state : HttpSession Parser) : HttpSession Parser :=
  let recvBuf := state.recvBuf.onRead count
  { state with recvBuf := if recvBuf.shouldCompact then recvBuf.compact else recvBuf }

/-- `HandleHttpRecv` after `Feed`, which left `rest` of `length` bytes. -/
def finishHttp (length : Nat) (rest : Text) (buffered : Bool) (state : HttpSession Parser) :
    HttpSession Parser :=
  let state := { state with control := .idle }
  if state.parserError then
    (state.sendBuilt env fun allocate => badRequest.build allocate env.date).disconnect env
  else if buffered then
    state.consume (length - rest.length)
  else if rest.isEmpty then
    state
  else
    (state.recvBuf.append rest).elim (state.disconnect env) fun recvBuf => { state with recvBuf }

/-- One turn of the loop of `HttpParser::Feed`, or what follows the loop. -/
def httpPass (llhttp : Llhttp Parser) (length : Nat) (rest : Text) (buffered : Bool)
    (state : HttpSession Parser) : HttpSession Parser :=
  if rest.isEmpty || state.parserError then
    state.finishHttp env length rest buffered
  else
    match llhttp.execute state.parser rest with
    | .ok next => { state with parser := next }.finishHttp env length [] buffered
    | .paused consumed request next =>
      { state.handleRequest env request with
        parser := next
        control := .feedHttp length (rest.drop consumed) buffered }
    | .failed consumed =>
      { state with parserError := true }.finishHttp env length (rest.drop consumed) buffered

/-- The status code of a close frame. -/
def closeCode (payload : Text) : Nat :=
  match payload with
  | high :: low :: _ => (high.toNat <<< 8) ||| low.toNat
  | _ => 1000

/-- The callback that `UpgradeToWebSocket` gives to the frame parser. -/
def onFrame (opcode : WsOpcode) (payload : Text) (state : HttpSession Parser) :
    HttpSession Parser :=
  if opcode = .kText ∨ opcode = .kBinary then
    state.callHandler env (.onMessage payload (opcode = .kText))
  else if opcode = .kPing then
    state.sendBuilt env fun allocate => buildWsFrame allocate .kPong payload
  else if opcode = .kClose then
    let state := state.callHandler env (.onClose (closeCode payload) (payload.drop 2))
    (state.sendBuilt env fun allocate => buildWsFrame allocate .kClose payload).disconnect env
  else
    state

/-- A callback of the frame parser; `on_error_` is not set. -/
def runCallback (state : HttpSession Parser) : WsFrameParser.Callback → HttpSession Parser
  | .onFrame opcode payload => state.onFrame env opcode payload
  | .onError _ => state

/-- `HandleWsRecv` after `Feed` of `length` bytes. -/
def finishWs (length : Nat) (buffered : Bool) (state : HttpSession Parser) :
    HttpSession Parser :=
  let state := { state with control := .idle }
  let state := if buffered then state.consume length else state
  if state.wsParser.hasError then state.disconnect env else state

/-- One turn of the loop of `WsFrameParser::ParseBuffer` with the callbacks it makes, or what
follows the loop. -/
def wsPass (length : Nat) (buffered : Bool) (state : HttpSession Parser) : HttpSession Parser :=
  match state.wsParser.parseStep with
  | none => state.finishWs env length buffered
  | some next =>
    (next.callbacks.drop state.wsParser.callbacks.length).foldl (runCallback env)
      { state with wsParser := next }

/-- `HandleHttpRecv` up to the loop of `Feed`. -/
def handleHttpRecv (data : Text) (state : HttpSession Parser) : HttpSession Parser :=
  if state.recvBuf.isEmpty then
    { state with control := .feedHttp data.length data false }
  else
    (state.recvBuf.append data).elim (state.disconnect env) fun recvBuf =>
      { state with
        recvBuf
        control := .feedHttp recvBuf.readRegion.length recvBuf.readRegion true }

/-- `WsFrameParser::Feed` up to its loop, which returns `length` or at once. -/
def feedWs (data : Text) (buffered : Bool) (state : HttpSession Parser) : HttpSession Parser :=
  if state.wsParser.error then
    { state with control := .feedWs 0 buffered }
  else
    { state with
      wsParser := state.wsParser.extend data
      control := .feedWs data.length buffered }

/-- `HandleWsRecv` up to the loop of `Feed`. -/
def handleWsRecv (data : Text) (state : HttpSession Parser) : HttpSession Parser :=
  if state.recvBuf.isEmpty then
    state.feedWs data false
  else
    (state.recvBuf.append data).elim (state.disconnect env) fun recvBuf =>
      { state with recvBuf }.feedWs recvBuf.readRegion true

/-- `HttpSession::OnRecv` up to the loop of the parser. -/
def onRecv (data : Text) (state : HttpSession Parser) : HttpSession Parser :=
  match state.mode with
  | .http => state.handleHttpRecv env data
  | .webSocket => state.handleWsRecv env data

/-- The next pass over the span being parsed. -/
def parse (llhttp : Llhttp Parser) (state : HttpSession Parser) : Option (HttpSession Parser) :=
  match state.control with
  | .idle => none
  | .feedHttp length rest buffered => some (state.httpPass env llhttp length rest buffered)
  | .feedWs length buffered => some (state.wsPass env length buffered)

end HttpSession

end UringServer.Web
