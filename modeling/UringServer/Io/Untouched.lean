import UringServer.Io.Session

/-!
# The functions of `Session` that do not send

Receiving, disconnecting and releasing leave the send queue, the messages in flight
and the history of sends as they are, and never undo a disconnect.
-/

namespace UringServer.Io

open UringServer.Buffer UringServer.Ring UringServer.Semantics

/-- What a function that only deals with the connection leaves alone. -/
structure Untouched (state next : State) : Prop where
  sendQueue : next.session.sendQueue = state.session.sendQueue
  sendMsgs : next.ring.sendMsgs = state.ring.sendMsgs
  accepted : next.history.accepted = state.history.accepted
  submitted : next.history.submitted = state.history.submitted
  completions : next.history.completions = state.history.completions
  disconnecting : state.session.disconnecting = true → next.session.disconnecting = true

namespace Untouched

variable {state middle next : State} {sqes : Sqes}

theorem refl (state : State) : Untouched state state := ⟨rfl, rfl, rfl, rfl, rfl, id⟩

theorem trans (first : Untouched state middle) (second : Untouched middle next) :
    Untouched state next :=
  ⟨second.sendQueue.trans first.sendQueue, second.sendMsgs.trans first.sendMsgs,
    second.accepted.trans first.accepted, second.submitted.trans first.submitted,
    second.completions.trans first.completions, second.disconnecting ∘ first.disconnecting⟩

theorem tryRelease (state : State) : Untouched state state.tryRelease := by
  unfold State.tryRelease
  split
  · exact refl state
  · exact ⟨rfl, rfl, rfl, rfl, rfl, id⟩

theorem disconnect (sqes : Sqes) (state : State) : Untouched state (state.disconnect sqes) := by
  cases running : state.session.disconnecting with
  | true =>
    rw [State.disconnect_again running]
    exact refl state
  | false =>
  cases found : sqes.disconnect with
  | false =>
    rw [State.disconnect_full running found]
    have forced : Untouched state { state with
        session.disconnecting := true, session.pendingIo := 0 } :=
      ⟨rfl, rfl, rfl, rfl, rfl, fun _ => rfl⟩
    exact forced.trans (tryRelease _)
  | true =>
    rw [State.disconnect_room running found]
    exact ⟨rfl, by simp, rfl, rfl, rfl, fun _ => rfl⟩

theorem registerRecv (sqes : Sqes) (state : State) :
    Untouched state (state.registerRecv sqes) := by
  unfold State.registerRecv
  split
  · exact refl state
  · cases sqes.recvMultishot with
    | false =>
      have dropped : Untouched state { state with
          session.pendingIo := state.session.pendingIo + 1 - 1 } :=
        ⟨rfl, rfl, rfl, rfl, rfl, id⟩
      exact dropped.trans (disconnect sqes _)
    | true => exact ⟨rfl, rfl, rfl, rfl, rfl, id⟩

theorem afterRecv (sqes : Sqes) (res : Int) (more : Bool) (state : State) :
    Untouched state (state.afterRecv sqes res more) := by
  unfold State.afterRecv
  split
  · exact tryRelease state
  split
  · exact disconnect sqes state
  split
  · exact registerRecv sqes state
  split
  · exact disconnect sqes state
  split
  · exact registerRecv sqes state
  · exact refl state

theorem returnBuffer (bufId : UInt16) (state : State) :
    Untouched state { state with ring := state.ring.returnBuffer bufId } :=
  ⟨rfl, rfl, rfl, rfl, rfl, id⟩

theorem recvBuffer (sqes : Sqes) (res : Int) (flags : UInt32) (state : State) :
    Untouched state (state.recvBuffer sqes res flags) := by
  unfold State.recvBuffer
  simp only
  split
  · split
    · exact ⟨rfl, rfl, rfl, rfl, rfl, id⟩
    · exact (returnBuffer _ _).trans (afterRecv sqes res _ _)
  · exact afterRecv sqes res _ _

theorem onRecv (sqes : Sqes) (res : Int) (flags : UInt32) (state : State) :
    Untouched state ((state.finishRecv flags).onRecv sqes res flags) := by
  have finished : Untouched state (state.finishRecv flags) := by
    unfold State.finishRecv
    split <;> exact ⟨rfl, rfl, rfl, rfl, rfl, id⟩
  apply finished.trans
  unfold State.onRecv
  simp only
  split
  · refine trans ?_ (recvBuffer sqes res flags _)
    exact ⟨rfl, rfl, rfl, rfl, rfl, id⟩
  · exact recvBuffer sqes res flags _

theorem resume (sqes : Sqes) (frame : Frame) (rest : List Frame) (state : State) :
    Untouched state ({ state with stack := rest }.resume sqes frame) := by
  have left : Untouched state { state with stack := rest } := ⟨rfl, rfl, rfl, rfl, rfl, id⟩
  cases frame with
  | connected =>
    simp only [State.resume]
    split
    · exact ⟨rfl, rfl, rfl, rfl, rfl, id⟩
    · exact left.trans (registerRecv sqes _)
  | connectedCallback => exact left.trans (registerRecv sqes _)
  | recv res more bufId =>
    exact left.trans ((returnBuffer bufId _).trans (afterRecv sqes res more _))
  | sendOverflow => exact left.trans (disconnect sqes _)
  | disconnected =>
    simp only [State.resume]
    split <;> exact ⟨rfl, rfl, rfl, rfl, rfl, id⟩
  | disconnectCallback => exact ⟨rfl, rfl, rfl, rfl, rfl, id⟩

end Untouched

/-- No step undoes a disconnect. -/
theorem disconnecting_step {state next : State} {action : Action}
    (transition : step state action = some next) (stops : state.session.disconnecting = true) :
    next.session.disconnecting = true := by
  cases action with
  | send sqes buf =>
    cases transition
    rw [State.send_disconnecting stops]
    exact stops
  | disconnect sqes =>
    cases transition
    exact (Untouched.disconnect sqes state).disconnecting stops
  | setConnectedCallback present | setDisconnectCallback present
  | setSendOverflowCallback present =>
    cases transition
    exact stops
  | callbackReturned sqes =>
    simp only [step] at transition
    split at transition <;> cases transition
    exact (Untouched.resume sqes _ _ state).disconnecting stops
  | recvCompleted sqes res flags =>
    simp only [step] at transition
    split at transition <;> cases transition
    exact (Untouched.onRecv sqes res flags state).disconnecting stops
  | sendCompleted sqes position res =>
    simp only [step] at transition
    split at transition <;> cases transition
    unfold State.onSend
    dsimp only
    rw [if_pos (by exact stops)]
    exact (Untouched.tryRelease _).disconnecting stops
  | disconnectCompleted res =>
    simp only [step] at transition
    split at transition <;> cases transition
    exact (Untouched.tryRelease _).disconnecting stops

end UringServer.Io
