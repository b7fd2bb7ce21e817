import UringServer.Buffer.SendQueue
import UringServer.Ring.IoRing
import UringServer.Semantics.TransitionSystem

/-!
# `Session` on its I/O thread

A state is a moment at which control is outside the functions of `Session` or
inside a user callback one of them called. The callbacks running are a stack of
frames; each frame is the point in `Session` to which its callback returns. A
step is one call into `Session`, one completion dispatched to it, or the return
of the innermost callback, up to the next such moment.

The user may call `Send` and `Disconnect` at any moment. Completions are
dispatched by the loop, so only when no callback runs, and arrive in any order
with any result and flags.
-/

namespace UringServer.Io

open UringServer.Buffer UringServer.Ring UringServer.Semantics

/-- A send buffer, as its `Data()`. -/
structure SendBuffer where
  data : List UInt8
deriving DecidableEq

/-- `io::IoError`. -/
inductive IoError where
  | connectionRefused
  | disconnected
  | timeout
  | sendFailed
  | malformedPacket
  | bindFailed
  | listenFailed
deriving DecidableEq

/-- `-ENOBUFS`. -/
def noBuffers : Int := -105

/-- The members of a `Session`; a callback is present or not. -/
structure Session where
  sendQueue : SendQueue SendBuffer := {}
  onConnected : Bool := false
  onDisconnect : Bool := false
  onSendOverflow : Bool := false
  disconnecting : Bool := false
  pendingIo : Int := 0
  selfRef : Bool := false
  requestedBytes : Nat := 0
  sendIovecs : List (List UInt8) := []
  inFlightBufs : List SendBuffer := []
deriving DecidableEq

/-- A user callback that is running, and where it returns to. -/
inductive Frame where
  /-- `OnConnected()` in `Start`. -/
  | connected
  /-- `on_connected_` in `Start`. -/
  | connectedCallback
  /-- `OnRecv(view)` in the handler of a receive completion. -/
  | recv (res : Int) (more : Bool) (bufId : UInt16)
  /-- `on_send_overflow_` in `Send`. -/
  | sendOverflow
  /-- `OnDisconnected()` in `TryRelease`. -/
  | disconnected
  /-- `on_disconnect_` in `TryRelease`. -/
  | disconnectCallback
deriving DecidableEq

/-- A finished `sendmsg`: the bytes it was given and the ones that left. -/
structure Completion where
  requested : List UInt8
  transmitted : List UInt8
deriving DecidableEq

/-- What has happened so far; no function of `Session` reads it. -/
structure History where
  accepted : List SendBuffer := []
  submitted : List (List SendBuffer) := []
  completions : List Completion := []
  disconnectedCalls : Nat := 0
  disconnectCallbacks : Nat := 0
deriving DecidableEq

/-- A session, its operations on the ring, and the callbacks running, innermost first. -/
structure State where
  session : Session := {}
  ring : IoRing := {}
  stack : List Frame := []
  history : History := {}
deriving DecidableEq

/-- Whether each `Prep` call finds a submission entry, should the step make it.
No step makes one of them twice. -/
structure Sqes where
  recvMultishot : Bool := true
  sendMsg : Bool := true
  disconnect : Bool := true
  cancel : Bool := true
deriving DecidableEq

namespace State

/-- `Session::TryRelease`, up to the call of `OnDisconnected`. -/
def tryRelease (state : State) : State :=
  if state.session.pendingIo > 0 then
    state
  else
    { state with
      stack := .disconnected :: state.stack
      history.disconnectedCalls := state.history.disconnectedCalls + 1 }

/-- `Session::Disconnect`. -/
def disconnect (sqes : Sqes) (state : State) : State :=
  if state.session.disconnecting then
    state
  else
    let state := { state with session.disconnecting := true }
    match state.ring.prepDisconnect sqes.disconnect with
    | none => { state with session.pendingIo := 0 }.tryRelease
    | some ring =>
      { state with
        session.pendingIo := state.session.pendingIo + 1
        ring := (ring.prepCancel sqes.cancel).getD ring }

theorem disconnect_again {state : State} {sqes : Sqes}
    (stops : state.session.disconnecting = true) : state.disconnect sqes = state := if_pos stops

/-- `Disconnect` on a full ring. -/
theorem disconnect_full {state : State} {sqes : Sqes}
    (running : state.session.disconnecting = false) (full : sqes.disconnect = false) :
    state.disconnect sqes =
      { state with session.disconnecting := true, session.pendingIo := 0 }.tryRelease := by
  simp [disconnect, running, full]

theorem disconnect_room {state : State} {sqes : Sqes}
    (running : state.session.disconnecting = false) (room : sqes.disconnect = true) :
    state.disconnect sqes = { state with
      session.disconnecting := true
      session.pendingIo := state.session.pendingIo + 1
      ring := let ring := { state.ring with shutdowns := state.ring.shutdowns + 1 }
        (ring.prepCancel sqes.cancel).getD ring } := by
  simp [disconnect, running, room]

/-- `Session::RegisterRecv`. -/
def registerRecv (sqes : Sqes) (state : State) : State :=
  if state.session.disconnecting then
    state
  else
    let state := { state with session.pendingIo := state.session.pendingIo + 1 }
    match state.ring.prepRecvMultishot sqes.recvMultishot with
    | none =>
      { state with session.pendingIo := state.session.pendingIo - 1 }.disconnect sqes
    | some ring => { state with ring }

/-- `Session::SendBatch`. -/
def sendBatch (sqes : Sqes) (bufs : List SendBuffer) (state : State) : State :=
  if state.session.disconnecting || bufs.isEmpty then
    state
  else
    let state := { state with
      session.sendIovecs := bufs.map SendBuffer.data
      session.inFlightBufs := bufs
      session.pendingIo := state.session.pendingIo + 1 }
    match state.ring.prepSendMsg sqes.sendMsg ⟨state.session.sendIovecs⟩ with
    | none =>
      { state with
        session.pendingIo := state.session.pendingIo - 1
        session.inFlightBufs := []
        session.sendIovecs := [] }.disconnect sqes
    | some (total, ring) =>
      { state with
        session.requestedBytes := total
        ring
        history.submitted := state.history.submitted ++ [bufs] }

/-- `Session::RegisterSend`. -/
def registerSend (sqes : Sqes) (state : State) : State :=
  if state.session.disconnecting then
    state
  else
    let (bufs, sendQueue) := state.session.sendQueue.drain
    let state := { state with session.sendQueue := sendQueue }
    if bufs.isEmpty then state else state.sendBatch sqes bufs

/-- Keep a buffer that `Send` took in the history. -/
def recordAccepted (buf : SendBuffer) (state : State) : State :=
  { state with history.accepted := state.history.accepted ++ [buf] }

/-- `Session::Send`, with the result it returns once the callbacks it calls have. -/
def send (sqes : Sqes) (buf : SendBuffer) (state : State) : Except IoError Unit × State :=
  if state.session.disconnecting then
    (.error .disconnected, state)
  else
    let (result, sendQueue) := state.session.sendQueue.push buf
    let state := { state with session.sendQueue := sendQueue }
    if result.overflowed then
      if state.session.onSendOverflow then
        (.error .sendFailed, { state with stack := .sendOverflow :: state.stack })
      else
        (.error .sendFailed, state.disconnect sqes)
    else if result.needsRegister then
      (.ok (), (state.recordAccepted buf).registerSend sqes)
    else
      (.ok (), state.recordAccepted buf)

section Send

variable {state : State} {sqes : Sqes} {buf : SendBuffer}

theorem send_disconnecting (stops : state.session.disconnecting = true) :
    state.send sqes buf = (.error .disconnected, state) := if_pos stops

theorem send_overflow (running : state.session.disconnecting = false)
    (full : state.session.sendQueue.full) :
    state.send sqes buf = (.error .sendFailed,
      if state.session.onSendOverflow then
        { state with stack := .sendOverflow :: state.stack }
      else
        state.disconnect sqes) := by
  unfold send
  rw [if_neg (by simp [running]), SendQueue.push_of_full full]
  exact (apply_ite (Prod.mk _) _ _ _).symm

/-- `Send` while a message is in flight. -/
theorem send_registered (running : state.session.disconnecting = false)
    (room : ¬ state.session.sendQueue.full)
    (registered : state.session.sendQueue.registered = true) :
    state.send sqes buf = (.ok (), { state with session.sendQueue :=
      { state.session.sendQueue with
        pending := state.session.sendQueue.pending ++ [buf]
        registered := true } }.recordAccepted buf) := by
  unfold send
  rw [if_neg (by simp [running]), SendQueue.push_of_not_full room, registered]
  rfl

/-- `Send` as the first of a cycle. -/
theorem send_first (running : state.session.disconnecting = false)
    (room : ¬ state.session.sendQueue.full)
    (registered : state.session.sendQueue.registered = false)
    (empty : state.session.sendQueue.pending = []) :
    state.send sqes buf = (.ok (), ({ state with session.sendQueue :=
      { state.session.sendQueue with
        pending := []
        registered := true } }.recordAccepted buf).sendBatch sqes [buf]) := by
  unfold send
  rw [if_neg (by simp [running]), SendQueue.push_of_not_full room, registered, empty]
  unfold registerSend
  exact congrArg (Prod.mk _) (if_neg (by simp [recordAccepted, running]))

end Send

/-- The handler of a receive completion, from the end of its buffer branch on. -/
def afterRecv (sqes : Sqes) (res : Int) (more : Bool) (state : State) : State :=
  if state.session.disconnecting then
    state.tryRelease
  else if res = 0 then
    state.disconnect sqes
  else if res = noBuffers then
    state.registerRecv sqes
  else if res < 0 then
    state.disconnect sqes
  else if !more then
    state.registerRecv sqes
  else
    state

/-- The handler of a receive completion from its buffer branch on, up to the call
of `OnRecv(view)` if it makes it. -/
def recvBuffer (sqes : Sqes) (res : Int) (flags : UInt32) (state : State) : State :=
  let more := hasMore flags
  if hasBuffer flags then
    if res > 0 && !state.session.disconnecting then
      { state with stack := .recv res more (bufferId flags) :: state.stack }
    else
      { state with ring := state.ring.returnBuffer (bufferId flags) }.afterRecv sqes res more
  else
    state.afterRecv sqes res more

/-- `Session::OnRecv(ev, res, flags)`. -/
def onRecv (sqes : Sqes) (res : Int) (flags : UInt32) (state : State) : State :=
  let state :=
    if !hasMore flags then
      { state with session.pendingIo := state.session.pendingIo - 1 }
    else
      state
  state.recvBuffer sqes res flags

/-- `Session::OnSend`. -/
def onSend (sqes : Sqes) (res : Int) (state : State) : State :=
  let state := { state with
    session.inFlightBufs := []
    session.sendIovecs := []
    session.pendingIo := state.session.pendingIo - 1 }
  if state.session.disconnecting then
    state.tryRelease
  else if res < 0 then
    state.disconnect sqes
  else
    let (pending, sendQueue) := state.session.sendQueue.markSent.drain
    let state := { state with session.sendQueue := sendQueue }
    if pending.isEmpty then state else state.sendBatch sqes pending

/-- `Session::OnDisconnect`. -/
def onDisconnect (state : State) : State :=
  { state with session.pendingIo := state.session.pendingIo - 1 }.tryRelease

end State

/-- `Session::Start`, up to the call of `OnConnected`. -/
def start (session : Session) : State :=
  { session := { session with selfRef := true }, stack := [.connected] }

namespace State

/-- What a function of `Session` does when the callback it called returns. -/
def resume (sqes : Sqes) (state : State) : Frame → State
  | .connected =>
    if state.session.onConnected then
      { state with stack := .connectedCallback :: state.stack }
    else
      state.registerRecv sqes
  | .connectedCallback => state.registerRecv sqes
  | .recv res more bufId =>
    { state with ring := state.ring.returnBuffer bufId }.afterRecv sqes res more
  | .sendOverflow => state.disconnect sqes
  | .disconnected =>
    if state.session.onDisconnect then
      { state with
        stack := .disconnectCallback :: state.stack
        history.disconnectCallbacks := state.history.disconnectCallbacks + 1 }
    else
      { state with session.selfRef := false }
  | .disconnectCallback => { state with session.selfRef := false }

/-- The kernel's side of a receive completion. -/
def finishRecv (flags : UInt32) (state : State) : State :=
  if hasMore flags then state else { state with ring.recvs := state.ring.recvs - 1 }

/-- The kernel's side of a send completion: a result `r ≥ 0` says that the first
`r` bytes of the message left, an error that none did. -/
def finishSend (position : Nat) (message : Message) (res : Int) (state : State) : State :=
  { state with
    ring.sendMsgs := state.ring.sendMsgs.eraseIdx position
    history.completions := state.history.completions ++
      [⟨message.bytes, message.bytes.take res.toNat⟩] }

@[simp] theorem finishSend_session (position : Nat) (message : Message) (res : Int)
    (state : State) : (state.finishSend position message res).session = state.session := rfl

@[simp] theorem finishSend_accepted (position : Nat) (message : Message) (res : Int)
    (state : State) :
    (state.finishSend position message res).history.accepted = state.history.accepted := rfl

@[simp] theorem finishSend_submitted (position : Nat) (message : Message) (res : Int)
    (state : State) :
    (state.finishSend position message res).history.submitted = state.history.submitted := rfl

end State

/-- What can happen to a session. -/
inductive Action where
  | send (sqes : Sqes) (buf : SendBuffer)
  | disconnect (sqes : Sqes)
  | setConnectedCallback (present : Bool)
  | setDisconnectCallback (present : Bool)
  | setSendOverflowCallback (present : Bool)
  | callbackReturned (sqes : Sqes)
  | recvCompleted (sqes : Sqes) (res : Int) (flags : UInt32)
  | sendCompleted (sqes : Sqes) (position : Nat) (res : Int)
  | disconnectCompleted (res : Int)

/-- One step. A completion needs its operation in flight and no callback running. -/
def step (state : State) : Action → Option State
  | .send sqes buf => some (state.send sqes buf).2
  | .disconnect sqes => some (state.disconnect sqes)
  | .setConnectedCallback present => some { state with session.onConnected := present }
  | .setDisconnectCallback present => some { state with session.onDisconnect := present }
  | .setSendOverflowCallback present => some { state with session.onSendOverflow := present }
  | .callbackReturned sqes =>
    match state.stack with
    | [] => none
    | frame :: rest => some ({ state with stack := rest }.resume sqes frame)
  | .recvCompleted sqes res flags =>
    if state.stack = [] ∧ 0 < state.ring.recvs then
      some ((state.finishRecv flags).onRecv sqes res flags)
    else
      none
  | .sendCompleted sqes position res =>
    match state.stack, state.ring.sendMsgs[position]? with
    | [], some message => some ((state.finishSend position message res).onSend sqes res)
    | _, _ => none
  | .disconnectCompleted _ =>
    if state.stack = [] ∧ 0 < state.ring.shutdowns then
      some { state with ring.shutdowns := state.ring.shutdowns - 1 }.onDisconnect
    else
      none

/-- A new session with any of its callbacks set, at the start of `OnConnected`. -/
def Initial (state : State) : Prop :=
  ∃ onConnected onDisconnect onSendOverflow,
    state = start { onConnected, onDisconnect, onSendOverflow }

/-- The life of a started session. -/
def system : TransitionSystem State Action where
  Initial := Initial
  step := step

theorem start_initial : system.Initial (start {}) := ⟨false, false, false, rfl⟩

end UringServer.Io
