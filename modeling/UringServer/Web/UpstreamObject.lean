import UringServer.Web.UpstreamSession

/-!
# An `UpstreamSession` as an object

The same session with what keeps it alive: `self_ref_`, the `upstream_` of a
`WsProxyHandler`, the references that the callbacks of `UpstreamPool::Forward`
capture, and the batch in which `IoRing::Dispatch` handles its completions. The
object is destroyed when the last of them is dropped. An operation is in flight
from its submission to its completion, whether or not `Close` has been called.
-/

namespace UringServer.Web

open UringServer.Semantics

/-- The operations that use the events of the session. -/
inductive UpstreamOp where
  | connect
  | sendMsg
  | recv
deriving DecidableEq

/-- Who calls `Connect`. -/
inductive UpstreamDriver where
  | forward
  | wsProxy
deriving DecidableEq

/-- The operation that completes. -/
def UpstreamAction.op : UpstreamAction → UpstreamOp
  | .connected .. => .connect
  | .sent .. => .sendMsg
  | .received .. => .recv
  | .closedByUpstream => .recv
  | .recvFailed .. => .recv

/-- The members of an `UpstreamSession`, its references, and what has happened: the callbacks
that were called, whether it still exists, and whether it was destroyed while an operation was
in flight. -/
structure UpstreamObject where
  driver : UpstreamDriver
  recvBuffer : Text := []
  callbacks : Bool := true
  calls : List UpstreamCall := []
  inFlight : List UpstreamOp := []
  selfRef : Bool := true
  upstream : Bool := false
  batch : Bool := false
  alive : Bool := true
  orphaned : Bool := false
deriving DecidableEq

/-- How `Connect` ends. -/
inductive ConnectOutcome where
  | unresolved (reason : Text)
  | noSocket (reason : Text)
  | ringFull
  | submitted
deriving DecidableEq

/-- What happens to a session: a completion, the end of a batch, a close frame of the client,
or the end of the handler without one. -/
inductive ObjectAction where
  | complete (action : UpstreamAction)
  | endBatch
  | clientClose
  | handlerGone
deriving DecidableEq

namespace UpstreamObject

/-- Call a callback, if there is one. -/
def invoke (call : UpstreamCall) (state : UpstreamObject) : UpstreamObject :=
  if state.callbacks then { state with calls := state.calls ++ [call] } else state

/-- `UpstreamSession::Close`. -/
def close (state : UpstreamObject) : UpstreamObject :=
  { state with callbacks := false, selfRef := false }

/-- Call a callback and `Close()`. -/
def finish (call : UpstreamCall) (state : UpstreamObject) : UpstreamObject :=
  (state.invoke call).close

/-- Report an error and `Close()`. -/
def fail (error : Text) (state : UpstreamObject) : UpstreamObject := state.finish (.onError error)

/-- Submit an operation, or fail if the ring is full. -/
def submit (op : UpstreamOp) (sqe : Bool) (full : Text) (state : UpstreamObject) :
    UpstreamObject :=
  if sqe then { state with inFlight := state.inFlight ++ [op] } else state.fail full

/-- `UpstreamSession::StartRecv`. -/
def startRecv (sqe : Bool) (state : UpstreamObject) : UpstreamObject :=
  state.submit .recv sqe (ascii "PrepRecv failed: SQE ring full")

/-- `UpstreamSession::SendRequest`. -/
def sendRequest (allocated sqe : Bool) (state : UpstreamObject) : UpstreamObject :=
  if allocated = false then
    state.fail (ascii "failed to allocate send buffer")
  else
    state.submit .sendMsg sqe (ascii "PrepSendMsg failed: SQE ring full")

/-- `UpstreamSession::OnRecv` with data; without a buffer the data is empty. -/
def onRecv (data : Text) (sqe : Bool) (state : UpstreamObject) : UpstreamObject :=
  let state := { state with recvBuffer := state.recvBuffer ++ data }
  if complete state.recvBuffer then
    state.finish (parseResponse state.recvBuffer)
  else
    state.startRecv sqe

/-- `UpstreamSession::OnConnect`, `OnSend` and `OnRecv`. -/
def handle (state : UpstreamObject) : UpstreamAction → UpstreamObject
  | .connected failure allocated sqe =>
    failure.elim (state.sendRequest allocated sqe) fun reason =>
      state.fail (ascii "connect failed: " ++ reason)
  | .sent failure sqe =>
    failure.elim (state.startRecv sqe) fun reason => state.fail (ascii "send failed: " ++ reason)
  | .received data sqe => state.onRecv data sqe
  | .closedByUpstream => state.finish (parseResponse state.recvBuffer)
  | .recvFailed reason => state.fail (ascii "recv failed: " ++ reason)

/-- A strong reference exists. The callbacks of `Forward` capture one. -/
def held (state : UpstreamObject) : Bool :=
  state.selfRef || state.upstream || state.batch || (state.driver = .forward && state.callbacks)

/-- Destroy the object if it is no longer held. -/
def settle (state : UpstreamObject) : UpstreamObject :=
  if state.alive && !state.held then
    { state with alive := false, orphaned := state.inFlight ≠ [] }
  else
    state

/-- `UpstreamSession::Connect`. The first two failures do not call `Close`. -/
def connect (key : Text) (outcome : ConnectOutcome) (state : UpstreamObject) : UpstreamObject :=
  match outcome with
  | .unresolved reason =>
    { state.invoke
        (.onError (ascii "getaddrinfo failed for " ++ key ++ ascii ": " ++ reason)) with
      selfRef := false }
  | .noSocket reason =>
    { state.invoke (.onError (ascii "socket() failed: " ++ reason)) with selfRef := false }
  | .ringFull => state.fail (ascii "PrepConnect failed: SQE ring full")
  | .submitted => state.submit .connect true []

/-- The session after `UpstreamPool::Forward` or `WsProxyHandler::OnOpen`. -/
def opened (driver : UpstreamDriver) (key : Text) (outcome : ConnectOutcome) : UpstreamObject :=
  settle (connect key outcome { driver, upstream := driver = .wsProxy })

/-- The batch lets go of the session. -/
def leaveBatch (state : UpstreamObject) : UpstreamObject := { state with batch := false }

/-- `upstream_.reset()`. -/
def dropUpstream (state : UpstreamObject) : UpstreamObject := { state with upstream := false }

/-- What happens to the session. A completion is handled in a batch that holds the owner of its
event, if it still exists. -/
def step (state : UpstreamObject) : ObjectAction → Option UpstreamObject
  | .complete action =>
    if state.alive ∧ action.op ∈ state.inFlight then
      some (settle (handle
        { state with inFlight := state.inFlight.erase action.op, batch := true } action))
    else
      none
  | .endBatch => if state.batch then some state.leaveBatch.settle else none
  | .clientClose =>
    if state.driver = .wsProxy then
      some (if state.upstream then state.close.dropUpstream.settle else state)
    else
      none
  | .handlerGone =>
    if state.driver = .wsProxy then some state.dropUpstream.settle else none

/-- The life of a session. -/
def system : TransitionSystem UpstreamObject ObjectAction where
  Initial state := ∃ driver key outcome, state = opened driver key outcome
  step := step

end UpstreamObject

end UringServer.Web
