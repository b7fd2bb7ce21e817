import UringServer.Web.UpstreamLifetime

/-!
# The object refines the session

`UpstreamSession` says what a session waits for and what it calls. The object has
the same behaviour as long as its callbacks are set: what it waits for is the
operation in flight.
-/

namespace UringServer.Web

open UringServer.Semantics

namespace UpstreamObject

variable {object next : UpstreamObject} {session : UpstreamSession} {stream : Text}

/-- What the session waits for. -/
def phase : List UpstreamOp → UpstreamPhase
  | [.connect] => .connecting
  | [.sendMsg] => .sending
  | [.recv] => .receiving
  | _ => .closed

/-- The object is in the state of the session. -/
structure Refines (object : UpstreamObject) (session : UpstreamSession) : Prop where
  recvBuffer : session.recvBuffer = object.recvBuffer
  calls : session.calls = object.calls
  phase : session.phase = phase object.inFlight

theorem opened_refines (driver : UpstreamDriver) (key : Text) :
    Refines (opened driver key .submitted) {} := by
  cases driver <;> exact ⟨rfl, rfl, rfl⟩

/-- The two agree on everything but what is waited for, and nothing is in flight. -/
structure Handles (object : UpstreamObject) (session : UpstreamSession) : Prop where
  recvBuffer : session.recvBuffer = object.recvBuffer
  calls : session.calls = object.calls
  callbacks : object.callbacks = true
  idle : object.inFlight = []

theorem Handles.finish (handles : Handles object session) (call : UpstreamCall) :
    Refines (UpstreamObject.finish call object) (session.finish call) := by
  unfold UpstreamObject.finish invoke
  rw [if_pos handles.callbacks]
  refine ⟨handles.recvBuffer, ?_, ?_⟩
  · change session.calls ++ [call] = object.calls ++ [call]
    rw [handles.calls]
  · change UpstreamPhase.closed = UpstreamObject.phase object.inFlight
    rw [handles.idle]
    rfl

theorem Handles.startRecv (handles : Handles object session) (sqe : Bool) :
    Refines (object.startRecv sqe) (session.startRecv sqe) := by
  cases sqe with
  | false => exact handles.finish _
  | true =>
    refine ⟨handles.recvBuffer, handles.calls, ?_⟩
    change UpstreamPhase.receiving = UpstreamObject.phase (object.inFlight ++ [.recv])
    rw [handles.idle]
    rfl

theorem Handles.sendRequest (handles : Handles object session) (allocated sqe : Bool) :
    Refines (object.sendRequest allocated sqe) (session.sendRequest allocated sqe) := by
  cases allocated with
  | false => exact handles.finish _
  | true =>
    cases sqe with
    | false => exact handles.finish _
    | true =>
      refine ⟨handles.recvBuffer, handles.calls, ?_⟩
      change UpstreamPhase.sending = UpstreamObject.phase (object.inFlight ++ [.sendMsg])
      rw [handles.idle]
      rfl

theorem Handles.onRecv (handles : Handles object session) (data : Text) (sqe : Bool) :
    Refines (object.onRecv data sqe) (session.onRecv data sqe) := by
  have more : Handles { object with recvBuffer := object.recvBuffer ++ data }
      { session with recvBuffer := session.recvBuffer ++ data } :=
    ⟨by rw [handles.recvBuffer], handles.calls, handles.callbacks, handles.idle⟩
  unfold UpstreamObject.onRecv UpstreamSession.onRecv
  rw [handles.recvBuffer] at more ⊢
  dsimp only
  split
  · exact more.finish _
  · exact more.startRecv sqe

/-- A completion that the object handles, the session handles in the same way, if its data comes
from the stream of the upstream. -/
theorem complete_refines {completion : UpstreamAction} (sound : Sound object)
    (refines : Refines object session) (callbacks : object.callbacks = true)
    (sent : ∀ data sqe, completion = .received data sqe →
      data ≠ [] ∧ object.recvBuffer ++ data <+: stream)
    (transition : object.step (.complete completion) = some next) :
    ∃ after, session.step stream completion = some after ∧ Refines next after := by
  obtain ⟨-, only, rfl, -⟩ := complete_eq sound.one transition
  have handles : Handles { object with inFlight := [], batch := true } session :=
    ⟨refines.recvBuffer, refines.calls, callbacks, rfl⟩
  have waits := refines.phase
  rw [only] at waits
  cases completion with
  | connected failure allocated sqe =>
    refine ⟨session.onConnect failure allocated sqe, if_pos waits, ?_⟩
    cases failure with
    | some reason => exact handles.finish _
    | none => exact handles.sendRequest allocated sqe
  | sent failure sqe =>
    refine ⟨session.onSend failure sqe, if_pos waits, ?_⟩
    cases failure with
    | some reason => exact handles.finish _
    | none => exact handles.startRecv sqe
  | received data sqe =>
    obtain ⟨some, ofStream⟩ := sent data sqe rfl
    rw [← refines.recvBuffer] at ofStream
    exact ⟨session.onRecv data sqe, if_pos ⟨waits, some, ofStream⟩, handles.onRecv data sqe⟩
  | closedByUpstream =>
    refine ⟨session.onEof, if_pos waits, ?_⟩
    have ended : Handles { object with inFlight := [], batch := true }
        { session with ended := true } :=
      ⟨refines.recvBuffer, refines.calls, callbacks, rfl⟩
    have answer := ended.finish (parseResponse session.recvBuffer)
    rw [refines.recvBuffer] at answer
    unfold UpstreamSession.onEof
    rw [refines.recvBuffer]
    exact answer
  | recvFailed reason =>
    exact ⟨session.fail (ascii "recv failed: " ++ reason), if_pos waits, handles.finish _⟩

end UpstreamObject

end UringServer.Web
