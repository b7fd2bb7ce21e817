import UringServer.Io.Pipeline

/-!
# A `Session` without errors

`Calm` excludes what makes `Session` disconnect by itself: a full ring, a queue
that overflows, an error or the end of the stream. In such runs a session stops
only when it is told to; one that has stopped submits nothing more.
-/

namespace UringServer.Io

open UringServer.Buffer UringServer.Ring UringServer.Semantics

/-- The ring has room for what a running session submits. -/
def Sqes.room (sqes : Sqes) : Bool := sqes.recvMultishot && sqes.sendMsg

/-- No I/O error, no overflow, no end of the stream, and no `Disconnect`. -/
def Calm (state : State) : Action → Prop
  | .send sqes _ => sqes.room = true ∧ ¬ state.session.sendQueue.full
  | .disconnect _ => False
  | .callbackReturned sqes => sqes.room = true
  | .recvCompleted sqes res _ => sqes.room = true ∧ (0 < res ∨ res = noBuffers)
  | .sendCompleted sqes _ res => sqes.room = true ∧ 0 ≤ res
  | _ => True

instance (state : State) (action : Action) : Decidable (Calm state action) :=
  match action with
  | .send sqes _ => inferInstanceAs (Decidable (sqes.room = true ∧ ¬ state.session.sendQueue.full))
  | .disconnect _ => .isFalse id
  | .callbackReturned sqes => inferInstanceAs (Decidable (sqes.room = true))
  | .recvCompleted sqes res _ =>
    inferInstanceAs (Decidable (sqes.room = true ∧ (0 < res ∨ res = noBuffers)))
  | .sendCompleted sqes _ res => inferInstanceAs (Decidable (sqes.room = true ∧ 0 ≤ res))
  | .setConnectedCallback _ | .setDisconnectCallback _ | .setSendOverflowCallback _
  | .disconnectCompleted _ => .isTrue trivial

variable {state next : State}

theorem onSend_accepted (sqes : Sqes) (res : Int) (state : State) :
    (state.onSend sqes res).history.accepted = state.history.accepted := by
  unfold State.onSend
  dsimp only
  split_ifs
  · exact (Untouched.tryRelease _).accepted
  · exact (Untouched.disconnect sqes _).accepted
  · rfl
  · exact sendBatch_accepted sqes _ _

/-- What was accepted stays accepted. -/
theorem accepted_step {action : Action} (transition : step state action = some next) :
    state.history.accepted <+: next.history.accepted := by
  have same (accepted : next.history.accepted = state.history.accepted) :
      state.history.accepted <+: next.history.accepted := accepted ▸ List.prefix_rfl
  cases action with
  | send sqes buf =>
    cases transition
    rw [send_accepted]
    exact List.prefix_append _ _
  | disconnect sqes =>
    cases transition
    exact same (Untouched.disconnect sqes state).accepted
  | setConnectedCallback present | setDisconnectCallback present
  | setSendOverflowCallback present =>
    cases transition
    exact same rfl
  | callbackReturned sqes =>
    simp only [step] at transition
    split at transition <;> cases transition
    exact same (Untouched.resume sqes _ _ state).accepted
  | recvCompleted sqes res flags =>
    simp only [step] at transition
    split at transition <;> cases transition
    exact same (Untouched.onRecv sqes res flags state).accepted
  | sendCompleted sqes position res =>
    simp only [step] at transition
    split at transition <;> cases transition
    exact same (onSend_accepted sqes res _)
  | disconnectCompleted res =>
    simp only [step] at transition
    split at transition <;> cases transition
    exact same (Untouched.tryRelease _).accepted

/-- A session that has stopped accepts and submits nothing. -/
theorem stopped_step {action : Action} (transition : step state action = some next)
    (stops : state.session.disconnecting = true) :
    next.history.accepted = state.history.accepted ∧
      next.history.submitted = state.history.submitted := by
  have same (untouched : Untouched state next) :
      next.history.accepted = state.history.accepted ∧
        next.history.submitted = state.history.submitted :=
    ⟨untouched.accepted, untouched.submitted⟩
  cases action with
  | send sqes buf =>
    cases transition
    rw [State.send_disconnecting stops]
    exact ⟨rfl, rfl⟩
  | disconnect sqes =>
    cases transition
    exact same (.disconnect sqes state)
  | setConnectedCallback present | setDisconnectCallback present
  | setSendOverflowCallback present =>
    cases transition
    exact ⟨rfl, rfl⟩
  | callbackReturned sqes =>
    simp only [step] at transition
    split at transition <;> cases transition
    exact same (.resume sqes _ _ state)
  | recvCompleted sqes res flags =>
    simp only [step] at transition
    split at transition <;> cases transition
    exact same (.onRecv sqes res flags state)
  | sendCompleted sqes position res =>
    simp only [step] at transition
    split at transition <;> cases transition
    unfold State.onSend
    dsimp only
    rw [if_pos (by exact stops)]
    exact ⟨(Untouched.tryRelease _).accepted, (Untouched.tryRelease _).submitted⟩
  | disconnectCompleted res =>
    simp only [step] at transition
    split at transition <;> cases transition
    exact ⟨(Untouched.tryRelease _).accepted, (Untouched.tryRelease _).submitted⟩

/-- The callbacks that run while nothing has gone wrong. -/
def Frame.harmless : Frame → Bool
  | .connected => true
  | .connectedCallback => true
  | .recv res _ _ => 0 < res
  | _ => false

/-- A session that has not been told to stop. -/
structure Undisturbed (state : State) : Prop where
  runs : state.session.disconnecting = false
  shutdowns : state.ring.shutdowns = 0
  frames : ∀ frame ∈ state.stack, frame.harmless = true

namespace Undisturbed

variable {sqes : Sqes}

theorem of_same (undisturbed : Undisturbed state)
    (runs : next.session.disconnecting = state.session.disconnecting)
    (shutdowns : next.ring.shutdowns = state.ring.shutdowns) (stack : next.stack = state.stack) :
    Undisturbed next :=
  ⟨runs.trans undisturbed.runs, shutdowns.trans undisturbed.shutdowns,
    stack ▸ undisturbed.frames⟩

theorem registerRecv (undisturbed : Undisturbed state) (room : sqes.room = true) :
    Undisturbed (state.registerRecv sqes) := by
  simp only [Sqes.room, Bool.and_eq_true] at room
  unfold State.registerRecv
  rw [if_neg (by simp [undisturbed.runs]), room.1]
  exact undisturbed.of_same rfl rfl rfl

theorem sendBatch (undisturbed : Undisturbed state) (room : sqes.room = true)
    (bufs : List SendBuffer) : Undisturbed (state.sendBatch sqes bufs) := by
  simp only [Sqes.room, Bool.and_eq_true] at room
  unfold State.sendBatch
  split
  · exact undisturbed
  · rw [room.2]
    exact undisturbed.of_same rfl rfl rfl

theorem send (undisturbed : Undisturbed state) (room : sqes.room = true)
    (fits : ¬ state.session.sendQueue.full) (buf : SendBuffer) :
    Undisturbed (state.send sqes buf).2 := by
  unfold State.send
  rw [if_neg (by simp [undisturbed.runs]), SendQueue.push_of_not_full fits]
  simp only [Bool.false_eq_true, if_false]
  split
  · unfold State.registerSend
    rw [if_neg (by simp [State.recordAccepted, undisturbed.runs])]
    simp only
    split
    · exact undisturbed.of_same rfl rfl rfl
    · refine Undisturbed.sendBatch ?_ room _
      exact undisturbed.of_same rfl rfl rfl
  · exact undisturbed.of_same rfl rfl rfl

theorem afterRecv (undisturbed : Undisturbed state) (room : sqes.room = true) {res : Int}
    (fine : 0 < res ∨ res = noBuffers) (more : Bool) :
    Undisturbed (state.afterRecv sqes res more) := by
  unfold State.afterRecv
  have nonzero : res ≠ 0 := by
    rcases fine with positive | rfl
    · omega
    · decide
  rw [if_neg (by simp [undisturbed.runs]), if_neg nonzero]
  split_ifs with noBuffer negative last
  · exact undisturbed.registerRecv room
  · omega
  · exact undisturbed.registerRecv room
  · exact undisturbed

theorem onRecv (undisturbed : Undisturbed state) (room : sqes.room = true) {res : Int}
    (fine : 0 < res ∨ res = noBuffers) (flags : UInt32) :
    Undisturbed (state.onRecv sqes res flags) := by
  have counted : Undisturbed (if !hasMore flags then
      { state with session.pendingIo := state.session.pendingIo - 1 } else state) := by
    split
    · exact undisturbed.of_same rfl rfl rfl
    · exact undisturbed
  unfold State.onRecv State.recvBuffer
  generalize (if !hasMore flags then
    { state with session.pendingIo := state.session.pendingIo - 1 } else state) = counts at counted
  dsimp only
  split_ifs with buffer positive
  · refine ⟨counted.runs, counted.shutdowns, ?_⟩
    intro frame member
    rcases List.mem_cons.mp member with rfl | below
    · simp only [Bool.and_eq_true, decide_eq_true_eq] at positive
      simpa [Frame.harmless] using positive.1
    · exact counted.frames frame below
  · refine Undisturbed.afterRecv ?_ room fine _
    exact counted.of_same rfl rfl rfl
  · exact counted.afterRecv room fine _

theorem onSend (undisturbed : Undisturbed state) (room : sqes.room = true) {res : Int}
    (fine : 0 ≤ res) : Undisturbed (state.onSend sqes res) := by
  unfold State.onSend
  simp only
  rw [if_neg (by simp [undisturbed.runs]), if_neg (by omega)]
  split
  · exact undisturbed.of_same rfl rfl rfl
  · refine Undisturbed.sendBatch ?_ room _
    exact undisturbed.of_same rfl rfl rfl

theorem resume (undisturbed : Undisturbed state) (room : sqes.room = true) {frame : Frame}
    (harmless : frame.harmless = true) : Undisturbed (state.resume sqes frame) := by
  cases frame with
  | connected =>
    simp only [State.resume]
    split
    · refine ⟨undisturbed.runs, undisturbed.shutdowns, ?_⟩
      intro frame member
      rcases List.mem_cons.mp member with rfl | below
      · rfl
      · exact undisturbed.frames frame below
    · exact undisturbed.registerRecv room
  | connectedCallback => exact undisturbed.registerRecv room
  | recv res more bufId =>
    have positive : 0 < res := by simpa [Frame.harmless] using harmless
    refine Undisturbed.afterRecv ?_ room (.inl positive) more
    exact undisturbed.of_same rfl rfl rfl
  | sendOverflow | disconnected | disconnectCallback => cases harmless

/-- A calm step leaves a session that was not told to stop running. -/
theorem step (undisturbed : Undisturbed state) {action : Action} (calm : Calm state action)
    (transition : Io.step state action = some next) : Undisturbed next := by
  cases action with
  | send sqes buf =>
    cases transition
    exact undisturbed.send calm.1 calm.2 buf
  | disconnect sqes => exact calm.elim
  | setConnectedCallback present | setDisconnectCallback present
  | setSendOverflowCallback present =>
    cases transition
    exact undisturbed.of_same rfl rfl rfl
  | callbackReturned sqes =>
    simp only [Io.step] at transition
    split at transition <;> cases transition
    case h_2 frame rest stack =>
      have left : Undisturbed { state with stack := rest } :=
        ⟨undisturbed.runs, undisturbed.shutdowns, fun other member =>
          undisturbed.frames other (stack ▸ .tail _ member)⟩
      exact left.resume calm (undisturbed.frames frame (stack ▸ .head _))
  | recvCompleted sqes res flags =>
    simp only [Io.step] at transition
    split at transition <;> cases transition
    refine Undisturbed.onRecv ?_ calm.1 calm.2 flags
    unfold State.finishRecv
    split
    · exact undisturbed
    · exact undisturbed.of_same rfl rfl rfl
  | sendCompleted sqes position res =>
    simp only [Io.step] at transition
    split at transition <;> cases transition
    refine Undisturbed.onSend ?_ calm.1 calm.2
    exact undisturbed.of_same rfl rfl rfl
  | disconnectCompleted res =>
    simp only [Io.step] at transition
    split at transition
    case isTrue enabled => exact absurd enabled.2 (by simp [undisturbed.shutdowns])
    case isFalse => cases transition

end Undisturbed

section Send

variable {sqes : Sqes} {buf : SendBuffer}

theorem send_accepts (runs : state.session.disconnecting = false)
    (fits : ¬ state.session.sendQueue.full) :
    (state.send sqes buf).2.history.accepted = state.history.accepted ++ [buf] := by
  have taken : (state.send sqes buf).1 = .ok () := by
    unfold State.send
    rw [if_neg (by simp [runs]), SendQueue.push_of_not_full fits]
    simp only [Bool.false_eq_true, if_false]
    split <;> rfl
  rw [send_accepted, taken]

/-- A buffer sent with no message in flight is submitted at once. -/
theorem send_submits (pipeline : Pipeline state) (runs : state.session.disconnecting = false)
    (fits : ¬ state.session.sendQueue.full)
    (registered : state.session.sendQueue.registered = false)
    (after : (state.send sqes buf).2.session.disconnecting = false) :
    (state.send sqes buf).2.history.submitted.flatten =
      (state.send sqes buf).2.history.accepted := by
  have empty := (pipeline.flow runs).drained registered
  have flow := (pipeline.send sqes buf).flow after
  have left : (state.send sqes buf).2.session.sendQueue.pending = [] := by
    rw [State.send_first runs fits registered empty]
    unfold State.sendBatch
    split
    · rfl
    · cases sqes.sendMsg with
      | false => exact congrArg SendQueue.pending (Untouched.disconnect sqes _).sendQueue
      | true => rfl
  have queued := flow.queued
  rwa [left, List.append_nil] at queued

end Send

end UringServer.Io
