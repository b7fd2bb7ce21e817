import UringServer.Io.Session

/-!
# The lifetime of a `Session`

`pending_io_` counts the operations in flight, and the session lets go of itself
once, after the last of them. Every function of `Session` keeps `Lifetime`, so
each handler is checked by composing the functions it calls.

The exception is `Disconnect` on a full submission ring, which releases at once.
`Lifetime` is kept as long as `PrepDisconnect` fails only where that does no harm,
which `ReleasesSafely` describes.
-/

namespace UringServer.Io

open UringServer.Buffer UringServer.Ring UringServer.Semantics

/-- Whether a frame returns into the handler of a receive completion. -/
def Frame.isRecv : Frame → Bool
  | .recv _ _ _ => true
  | _ => false

/-- The handlers of receive completions whose `OnRecv(view)` is running. -/
def recvFrames (stack : List Frame) : Nat := stack.countP Frame.isRecv

/-- The accounting that holds whenever control is outside `Session` or in a callback. -/
structure Lifetime (state : State) : Prop where
  counted : state.session.pendingIo = state.ring.inFlight
  shutdown : 0 < state.ring.shutdowns → state.session.disconnecting = true
  once : state.history.disconnectedCalls ≤ 1
  settled : 0 < state.history.disconnectedCalls →
    state.session.disconnecting = true ∧ state.ring.inFlight = 0 ∧ recvFrames state.stack = 0
  owned : state.session.selfRef = false → 0 < state.history.disconnectedCalls
  notified : state.history.disconnectCallbacks + state.stack.count .disconnected ≤
    state.history.disconnectedCalls
  notifying : state.stack.count .disconnectCallback ≤ state.history.disconnectCallbacks
  oneRecv : recvFrames state.stack ≤ 1

/-- `PrepDisconnect` succeeds, or nothing is in flight and no `OnRecv(view)` runs. -/
def MayRelease (sqes : Sqes) (inFlight : Nat) (stack : List Frame) : Prop :=
  sqes.disconnect = true ∨ inFlight = 0 ∧ recvFrames stack = 0

instance (sqes : Sqes) (inFlight : Nat) (stack : List Frame) :
    Decidable (MayRelease sqes inFlight stack) := inferInstanceAs (Decidable (_ ∨ _))

/-- `PrepDisconnect` fails only where no operation is left in flight and no
`OnRecv(view)` is left running. -/
def ReleasesSafely (state : State) : Action → Prop
  | .send sqes _ | .disconnect sqes => MayRelease sqes state.ring.inFlight state.stack
  | .callbackReturned sqes => MayRelease sqes state.ring.inFlight state.stack.tail
  | .recvCompleted sqes _ flags =>
    MayRelease sqes (state.finishRecv flags).ring.inFlight state.stack
  | .sendCompleted sqes _ _ => MayRelease sqes (state.ring.inFlight - 1) state.stack
  | _ => True

variable {state : State} {sqes : Sqes}

namespace Lifetime

/-- A step that only submits or completes operations keeps the accounting if it
counts them. -/
theorem recount (lifetime : Lifetime state) {next : State}
    (counted : next.session.pendingIo = next.ring.inFlight)
    (shutdowns : next.ring.shutdowns ≤ state.ring.shutdowns)
    (settled : 0 < state.history.disconnectedCalls → next.ring.inFlight = 0)
    (same : next.session.disconnecting = state.session.disconnecting ∧
      next.session.selfRef = state.session.selfRef ∧ next.stack = state.stack ∧
      next.history.disconnectedCalls = state.history.disconnectedCalls ∧
      next.history.disconnectCallbacks = state.history.disconnectCallbacks) : Lifetime next := by
  obtain ⟨disconnecting, selfRef, stack, calls, callbacks⟩ := same
  refine ⟨counted, ?_, ?_, ?_, ?_, ?_, ?_, ?_⟩
  · intro submitted
    rw [disconnecting]
    exact lifetime.shutdown (by omega)
  · rw [calls]
    exact lifetime.once
  · intro called
    rw [calls] at called
    obtain ⟨stops, _, outside⟩ := lifetime.settled called
    exact ⟨by rw [disconnecting, stops], settled called, by rw [stack, outside]⟩
  · rw [selfRef, calls]
    exact lifetime.owned
  · rw [callbacks, stack, calls]
    exact lifetime.notified
  · rw [stack, callbacks]
    exact lifetime.notifying
  · rw [stack]
    exact lifetime.oneRecv

/-- Before the release there has been no call of `OnDisconnected`. -/
theorem unreleased (lifetime : Lifetime state) (running : state.session.disconnecting = false) :
    state.history.disconnectedCalls = 0 := by
  by_contra called
  obtain ⟨stops, _⟩ := lifetime.settled (Nat.pos_of_ne_zero called)
  simp [running] at stops

theorem unreleased_of_inFlight (lifetime : Lifetime state) (busy : 0 < state.ring.inFlight) :
    state.history.disconnectedCalls = 0 := by
  by_contra called
  obtain ⟨_, nothing, _⟩ := lifetime.settled (Nat.pos_of_ne_zero called)
  omega

theorem tryRelease (lifetime : Lifetime state) (stops : state.session.disconnecting = true)
    (first : state.history.disconnectedCalls = 0) (outside : recvFrames state.stack = 0) :
    Lifetime state.tryRelease := by
  unfold State.tryRelease
  split
  · exact lifetime
  case isFalse drained =>
  have counted := lifetime.counted
  have notified := lifetime.notified
  have left : recvFrames (.disconnected :: state.stack) = 0 := outside
  refine ⟨counted, lifetime.shutdown, ?_, ?_, ?_, ?_, ?_, ?_⟩
  · simp [first]
  · intro _
    exact ⟨stops, by change state.ring.inFlight = 0; omega, left⟩
  · intro _
    exact Nat.succ_pos _
  · simp only [List.count_cons_self]
    omega
  · simpa using lifetime.notifying
  · simp [left]

theorem disconnect (lifetime : Lifetime state)
    (safe : MayRelease sqes state.ring.inFlight state.stack) :
    Lifetime (state.disconnect sqes) := by
  cases running : state.session.disconnecting with
  | true =>
    rw [State.disconnect_again running]
    exact lifetime
  | false =>
  have first := lifetime.unreleased running
  cases found : sqes.disconnect with
  | false =>
    obtain ⟨nothing, outside⟩ := safe.resolve_left (by simp [found])
    have emptied : Lifetime { state with
        session.disconnecting := true, session.pendingIo := 0 } :=
      ⟨by simp [nothing], fun _ => rfl, lifetime.once, by simp [first], lifetime.owned,
        lifetime.notified, lifetime.notifying, lifetime.oneRecv⟩
    rw [State.disconnect_full running found]
    exact emptied.tryRelease rfl first outside
  | true =>
    rw [State.disconnect_room running found]
    refine ⟨?_, fun _ => rfl, lifetime.once, by simp [first], lifetime.owned,
      lifetime.notified, lifetime.notifying, lifetime.oneRecv⟩
    have counted := lifetime.counted
    simp only [IoRing.inFlight_prepCancel]
    simp only [IoRing.inFlight] at counted ⊢
    omega

theorem registerRecv (lifetime : Lifetime state)
    (safe : MayRelease sqes state.ring.inFlight state.stack) :
    Lifetime (state.registerRecv sqes) := by
  unfold State.registerRecv
  split
  · exact lifetime
  case isFalse running =>
  have first := lifetime.unreleased (by simpa using running)
  cases found : sqes.recvMultishot with
  | false =>
    simp only [IoRing.prepRecvMultishot_full, Int.add_sub_cancel]
    exact lifetime.disconnect safe
  | true =>
    have counted := lifetime.counted
    apply lifetime.recount
    · simp only [IoRing.inFlight, IoRing.prepRecvMultishot_room] at counted ⊢
      omega
    · exact Nat.le_refl _
    · simp [first]
    · exact ⟨rfl, rfl, rfl, rfl, rfl⟩

theorem sendBatch (lifetime : Lifetime state) (bufs : List SendBuffer)
    (safe : MayRelease sqes state.ring.inFlight state.stack) :
    Lifetime (state.sendBatch sqes bufs) := by
  unfold State.sendBatch
  split
  · exact lifetime
  case isFalse sends =>
  have first := lifetime.unreleased (by simp_all)
  cases found : sqes.sendMsg with
  | false =>
    have dropped : Lifetime { state with
        session.inFlightBufs := [], session.sendIovecs := [] } :=
      ⟨lifetime.counted, lifetime.shutdown, lifetime.once, lifetime.settled, lifetime.owned,
        lifetime.notified, lifetime.notifying, lifetime.oneRecv⟩
    simp only [IoRing.prepSendMsg_full, Int.add_sub_cancel]
    exact dropped.disconnect safe
  | true =>
    have counted := lifetime.counted
    apply lifetime.recount
    · simp only [IoRing.inFlight, IoRing.prepSendMsg_room, List.length_append,
        List.length_singleton] at counted ⊢
      omega
    · exact Nat.le_refl _
    · simp [first]
    · exact ⟨rfl, rfl, rfl, rfl, rfl⟩

/-- The accounting does not look at the send queue. -/
theorem withSendQueue (lifetime : Lifetime state) (sendQueue : SendQueue SendBuffer) :
    Lifetime { state with session.sendQueue := sendQueue } :=
  ⟨lifetime.counted, lifetime.shutdown, lifetime.once, lifetime.settled, lifetime.owned,
    lifetime.notified, lifetime.notifying, lifetime.oneRecv⟩

theorem recordAccepted (lifetime : Lifetime state) (buf : SendBuffer) :
    Lifetime (state.recordAccepted buf) :=
  ⟨lifetime.counted, lifetime.shutdown, lifetime.once, lifetime.settled, lifetime.owned,
    lifetime.notified, lifetime.notifying, lifetime.oneRecv⟩

theorem registerSend (lifetime : Lifetime state)
    (safe : MayRelease sqes state.ring.inFlight state.stack) :
    Lifetime (state.registerSend sqes) := by
  unfold State.registerSend
  split
  · exact lifetime
  · have drained := lifetime.withSendQueue state.session.sendQueue.drain.2
    simp only
    split
    · exact drained
    · exact drained.sendBatch _ safe

/-- Entering `on_connected_` or `on_send_overflow_`. -/
theorem enter (lifetime : Lifetime state) {frame : Frame}
    (entered : frame = .connectedCallback ∨ frame = .sendOverflow) :
    Lifetime { state with stack := frame :: state.stack } := by
  have frames : recvFrames (frame :: state.stack) = recvFrames state.stack := by
    rcases entered with rfl | rfl <;> rfl
  refine ⟨lifetime.counted, lifetime.shutdown, lifetime.once, ?_, lifetime.owned, ?_, ?_, ?_⟩
  · simpa only [frames] using lifetime.settled
  · rcases entered with rfl | rfl <;> simpa using lifetime.notified
  · rcases entered with rfl | rfl <;> simpa using lifetime.notifying
  · simpa only [frames] using lifetime.oneRecv

theorem send (lifetime : Lifetime state) (buf : SendBuffer)
    (safe : MayRelease sqes state.ring.inFlight state.stack) :
    Lifetime (state.send sqes buf).2 := by
  have pushed := lifetime.withSendQueue (state.session.sendQueue.push buf).2
  have accepted := pushed.recordAccepted buf
  unfold State.send
  split
  · exact lifetime
  · simp only
    split
    · split
      · exact pushed.enter (.inr rfl)
      · exact pushed.disconnect safe
    · split
      · exact accepted.registerSend safe
      · exact accepted

theorem afterRecv (lifetime : Lifetime state) (res : Int) (more : Bool)
    (first : state.history.disconnectedCalls = 0) (outside : recvFrames state.stack = 0)
    (safe : MayRelease sqes state.ring.inFlight state.stack) :
    Lifetime (state.afterRecv sqes res more) := by
  unfold State.afterRecv
  split
  case isTrue stops => exact lifetime.tryRelease stops first outside
  split
  · exact lifetime.disconnect safe
  split
  · exact lifetime.registerRecv safe
  split
  · exact lifetime.disconnect safe
  split
  · exact lifetime.registerRecv safe
  · exact lifetime

/-- Returning a provided buffer touches no operation. -/
theorem returnBuffer (lifetime : Lifetime state) (bufId : UInt16) :
    Lifetime { state with ring := state.ring.returnBuffer bufId } :=
  ⟨lifetime.counted, lifetime.shutdown, lifetime.once, lifetime.settled, lifetime.owned,
    lifetime.notified, lifetime.notifying, lifetime.oneRecv⟩

/-- Entering `OnRecv(view)` from the handler of a completion. -/
theorem enterRecv (lifetime : Lifetime state) (res : Int) (more : Bool) (bufId : UInt16)
    (running : state.session.disconnecting = false) (outside : recvFrames state.stack = 0) :
    Lifetime { state with stack := .recv res more bufId :: state.stack } := by
  have first := lifetime.unreleased running
  have one : recvFrames (.recv res more bufId :: state.stack) = 1 := by
    rw [recvFrames, List.countP_cons_of_pos rfl]
    exact congrArg (· + 1) outside
  refine ⟨lifetime.counted, lifetime.shutdown, lifetime.once, ?_, lifetime.owned, ?_, ?_, ?_⟩
  · simp [first]
  · simpa using lifetime.notified
  · simpa using lifetime.notifying
  · exact Nat.le_of_eq one

theorem recvBuffer (lifetime : Lifetime state) (res : Int) (flags : UInt32)
    (first : state.history.disconnectedCalls = 0) (outside : recvFrames state.stack = 0)
    (safe : MayRelease sqes state.ring.inFlight state.stack) :
    Lifetime (state.recvBuffer sqes res flags) := by
  unfold State.recvBuffer
  simp only
  split
  · split
    case isTrue delivers =>
      simp only [Bool.and_eq_true, Bool.not_eq_true'] at delivers
      exact lifetime.enterRecv res _ _ delivers.2 outside
    case isFalse =>
      exact (lifetime.returnBuffer _).afterRecv res _ first outside safe
  · exact lifetime.afterRecv res _ first outside safe

theorem onRecv (lifetime : Lifetime state) (res : Int) (flags : UInt32)
    (outside : state.stack = []) (busy : 0 < state.ring.recvs)
    (safe : MayRelease sqes (state.finishRecv flags).ring.inFlight state.stack) :
    Lifetime ((state.finishRecv flags).onRecv sqes res flags) := by
  have counted := lifetime.counted
  have first : state.history.disconnectedCalls = 0 := by
    apply lifetime.unreleased_of_inFlight
    simp only [IoRing.inFlight]
    omega
  unfold State.onRecv
  cases more : hasMore flags with
  | true =>
    simp only [State.finishRecv, more, if_true] at safe ⊢
    exact lifetime.recvBuffer res flags first (by simp [outside, recvFrames]) safe
  | false =>
    simp only [State.finishRecv, more, Bool.false_eq_true, if_false, Bool.not_false,
      if_true] at safe ⊢
    have received : Lifetime { state with
        session.pendingIo := state.session.pendingIo - 1
        ring.recvs := state.ring.recvs - 1 } := by
      apply lifetime.recount
      · simp only [IoRing.inFlight] at counted ⊢
        omega
      · exact Nat.le_refl _
      · simp [first]
      · exact ⟨rfl, rfl, rfl, rfl, rfl⟩
    exact received.recvBuffer res flags first (by simp [outside, recvFrames]) safe

theorem onSend (lifetime : Lifetime state) {position : Nat} {message : Message} (res : Int)
    (outside : state.stack = []) (found : state.ring.sendMsgs[position]? = some message)
    (safe : MayRelease sqes (state.ring.inFlight - 1) state.stack) :
    Lifetime ((state.finishSend position message res).onSend sqes res) := by
  obtain ⟨bounded, _⟩ := List.getElem?_eq_some_iff.mp found
  have counted := lifetime.counted
  have first : state.history.disconnectedCalls = 0 := by
    apply lifetime.unreleased_of_inFlight
    simp only [IoRing.inFlight]
    omega
  have fewer : (state.finishSend position message res).ring.inFlight =
      state.ring.inFlight - 1 := by
    simp only [State.finishSend, IoRing.inFlight, List.length_eraseIdx_of_lt bounded]
    omega
  have sent : Lifetime { state.finishSend position message res with
      session.inFlightBufs := []
      session.sendIovecs := []
      session.pendingIo := state.session.pendingIo - 1 } := by
    apply lifetime.recount
    · rw [fewer, counted]
      simp only [IoRing.inFlight]
      omega
    · exact Nat.le_refl _
    · simp [first]
    · exact ⟨rfl, rfl, rfl, rfl, rfl⟩
  rw [← fewer] at safe
  unfold State.onSend
  simp only
  split
  case isTrue stops =>
    exact sent.tryRelease stops first (by simp [outside, State.finishSend, recvFrames])
  split
  · exact sent.disconnect safe
  split
  · exact sent.withSendQueue _
  · exact (sent.withSendQueue _).sendBatch _ safe

theorem onDisconnect (lifetime : Lifetime state) (outside : state.stack = [])
    (busy : 0 < state.ring.shutdowns) :
    Lifetime { state with ring.shutdowns := state.ring.shutdowns - 1 }.onDisconnect := by
  have counted := lifetime.counted
  have first : state.history.disconnectedCalls = 0 := by
    apply lifetime.unreleased_of_inFlight
    simp only [IoRing.inFlight]
    omega
  have completed : Lifetime { state with
      session.pendingIo := state.session.pendingIo - 1
      ring.shutdowns := state.ring.shutdowns - 1 } := by
    apply lifetime.recount
    · simp only [IoRing.inFlight] at counted ⊢
      omega
    · exact Nat.sub_le _ _
    · simp [first]
    · exact ⟨rfl, rfl, rfl, rfl, rfl⟩
  exact completed.tryRelease (lifetime.shutdown busy) first (by simp [outside, recvFrames])

/-- Leaving a callback, before what its caller does next. -/
theorem leave (lifetime : Lifetime state) {frame : Frame} {rest : List Frame}
    (running : state.stack = frame :: rest) : Lifetime { state with stack := rest } := by
  have shorter : rest.Sublist state.stack := by
    rw [running]
    exact List.sublist_cons_self frame rest
  have frames : recvFrames rest ≤ recvFrames state.stack := shorter.countP_le
  refine ⟨lifetime.counted, lifetime.shutdown, lifetime.once, ?_, lifetime.owned, ?_, ?_, ?_⟩
  · intro called
    obtain ⟨stops, nothing, outside⟩ := lifetime.settled called
    exact ⟨stops, nothing, by change recvFrames rest = 0; omega⟩
  · exact Nat.le_trans (Nat.add_le_add_left (shorter.count_le _) _) lifetime.notified
  · exact Nat.le_trans (shorter.count_le _) lifetime.notifying
  · exact Nat.le_trans frames lifetime.oneRecv

theorem resume (lifetime : Lifetime state) {frame : Frame} {rest : List Frame}
    (running : state.stack = frame :: rest) (safe : MayRelease sqes state.ring.inFlight rest) :
    Lifetime ({ state with stack := rest }.resume sqes frame) := by
  have left := lifetime.leave running
  have notified := lifetime.notified
  have notifying := lifetime.notifying
  have oneRecv := lifetime.oneRecv
  rw [running] at notified notifying oneRecv
  cases frame with
  | connected =>
    simp only [State.resume]
    split
    · exact left.enter (.inl rfl)
    · exact left.registerRecv safe
  | connectedCallback => exact left.registerRecv safe
  | recv res more bufId =>
    have outside : recvFrames rest = 0 := by
      rw [recvFrames, List.countP_cons_of_pos rfl] at oneRecv
      exact Nat.le_zero.mp (Nat.le_of_succ_le_succ oneRecv)
    have first : state.history.disconnectedCalls = 0 := by
      by_contra called
      obtain ⟨_, _, none⟩ := lifetime.settled (Nat.pos_of_ne_zero called)
      simp [running, recvFrames, Frame.isRecv] at none
    exact (left.returnBuffer bufId).afterRecv res more first outside safe
  | sendOverflow => exact left.disconnect safe
  | disconnected =>
    simp only [List.count_cons_self] at notified
    simp only [State.resume]
    split
    · refine ⟨left.counted, left.shutdown, left.once, left.settled, left.owned, ?_, ?_,
        left.oneRecv⟩
      · simp only [List.count_cons, beq_iff_eq, reduceCtorEq, if_false]
        omega
      · simp only [List.count_cons, beq_iff_eq, reduceCtorEq, if_false] at notifying ⊢
        simp only [if_true]
        omega
    · refine ⟨left.counted, left.shutdown, left.once, left.settled, ?_, left.notified,
        left.notifying, left.oneRecv⟩
      intro _
      change 0 < state.history.disconnectedCalls
      omega
  | disconnectCallback =>
    simp only [List.count_cons_self] at notifying
    refine ⟨left.counted, left.shutdown, left.once, left.settled, ?_, left.notified,
      left.notifying, left.oneRecv⟩
    intro _
    change 0 < state.history.disconnectedCalls
    omega

/-- Every admitted step keeps the accounting. -/
theorem step (lifetime : Lifetime state) {action : Action} {next : State}
    (safe : ReleasesSafely state action) (transition : step state action = some next) :
    Lifetime next := by
  cases action with
  | send sqes buf =>
    cases transition
    exact lifetime.send buf safe
  | disconnect sqes =>
    cases transition
    exact lifetime.disconnect safe
  | setConnectedCallback present | setDisconnectCallback present
  | setSendOverflowCallback present =>
    cases transition
    exact ⟨lifetime.counted, lifetime.shutdown, lifetime.once, lifetime.settled,
      lifetime.owned, lifetime.notified, lifetime.notifying, lifetime.oneRecv⟩
  | callbackReturned sqes =>
    simp only [Io.step] at transition
    split at transition <;> cases transition
    case h_2 frame rest running =>
      simp only [ReleasesSafely, running, List.tail_cons] at safe
      exact lifetime.resume running safe
  | recvCompleted sqes res flags =>
    simp only [Io.step] at transition
    split at transition <;> cases transition
    case recvCompleted.isTrue.refl enabled =>
      exact lifetime.onRecv res flags enabled.1 enabled.2 safe
  | sendCompleted sqes position res =>
    simp only [Io.step] at transition
    split at transition <;> cases transition
    case h_1 message outside found =>
      exact lifetime.onSend res outside found safe
  | disconnectCompleted res =>
    simp only [Io.step] at transition
    split at transition <;> cases transition
    case disconnectCompleted.isTrue.refl enabled =>
      exact lifetime.onDisconnect enabled.1 enabled.2

end Lifetime

theorem lifetime_initial (valid : Initial state) : Lifetime state := by
  obtain ⟨_, _, _, rfl⟩ := valid
  refine ⟨rfl, ?_, ?_, ?_, ?_, ?_, ?_, ?_⟩ <;> simp [start, recvFrames, Frame.isRecv]

theorem reachable_lifetime (reachable : system.Reachable ReleasesSafely state) :
    Lifetime state := by
  apply reachable.invariant Lifetime
  · intro initial valid
    exact lifetime_initial valid
  · intro _ _ _ lifetime safe transition
    exact lifetime.step safe transition

end UringServer.Io
