import UringServer.Io.Lifetime

/-!
# When a `Session` lets go of itself

While `PrepDisconnect` succeeds, `pending_io_` is exact and the release comes once,
after the last operation. On a full submission ring `Disconnect` sets `pending_io_`
to zero and releases at once, whatever is in flight, and inside `OnRecv(view)` the
handler around it then releases again: `session_released_twice`.
-/

namespace UringServer.Io

open UringServer.Buffer UringServer.Ring UringServer.Semantics

/-- `PrepDisconnect` succeeds whenever it is called. -/
def DisconnectSubmits (_ : State) : Action → Prop
  | .send sqes _ | .disconnect sqes | .callbackReturned sqes | .recvCompleted sqes _ _
  | .sendCompleted sqes _ _ => sqes.disconnect = true
  | _ => True

variable {state : State}

/-- While `PrepDisconnect` succeeds, `pending_io_` is the number of operations in
flight, the session lets go of itself only at zero, and `OnDisconnected` runs at
most once, at zero. -/
theorem session_pending_io_exact (reachable : system.Reachable DisconnectSubmits state) :
    state.session.pendingIo = state.ring.inFlight ∧ 0 ≤ state.session.pendingIo ∧
      (state.session.selfRef = false → state.ring.inFlight = 0) ∧
      (0 < state.history.disconnectedCalls → state.ring.inFlight = 0) ∧
      state.history.disconnectedCalls ≤ 1 := by
  have lifetime : Lifetime state := by
    apply reachable_lifetime
    apply reachable.mono
    intro state action submits
    cases action <;> first | exact .inl submits | exact submits
  have counted := lifetime.counted
  refine ⟨counted, by omega, ?_, ?_, lifetime.once⟩
  · intro released
    obtain ⟨_, nothing, _⟩ := lifetime.settled (lifetime.owned released)
    exact nothing
  · intro called
    obtain ⟨_, nothing, _⟩ := lifetime.settled called
    exact nothing

/-- As long as `PrepDisconnect` fails only with nothing in flight and outside
`OnRecv(view)`, the notifications run at most once and the session lets go of
itself only with nothing in flight. -/
theorem session_released_once (reachable : system.Reachable ReleasesSafely state) :
    state.history.disconnectedCalls ≤ 1 ∧ state.history.disconnectCallbacks ≤ 1 ∧
      (state.session.selfRef = false → state.ring.inFlight = 0) := by
  have lifetime := reachable_lifetime reachable
  have once := lifetime.once
  have notified := lifetime.notified
  refine ⟨once, by omega, ?_⟩
  intro released
  obtain ⟨_, nothing, _⟩ := lifetime.settled (lifetime.owned released)
  exact nothing

section Runs

instance (state : State) (action : Action) : Decidable (ReleasesSafely state action) :=
  match action with
  | .send _ _ | .disconnect _ | .callbackReturned _ | .recvCompleted _ _ _
  | .sendCompleted _ _ _ => inferInstanceAs (Decidable (MayRelease _ _ _))
  | .setConnectedCallback _ | .setDisconnectCallback _ | .setSendOverflowCallback _
  | .disconnectCompleted _ => .isTrue trivial

instance (state : State) (action : Action) : Decidable (DisconnectSubmits state action) :=
  match action with
  | .send _ _ | .disconnect _ | .callbackReturned _ | .recvCompleted _ _ _
  | .sendCompleted _ _ _ => inferInstanceAs (Decidable (_ = true))
  | .setConnectedCallback _ | .setDisconnectCallback _ | .setSendOverflowCallback _
  | .disconnectCompleted _ => .isTrue trivial

/-- The peer closes while a send is in flight; the session goes once both the
send and the shutdown have completed. -/
theorem session_pending_io_exact_peer_close :
    ∃ state : State, system.Reachable DisconnectSubmits state ∧
      state.session.selfRef = false ∧ state.history.disconnectedCalls = 1 ∧
      state.ring.inFlight = 0 := by
  obtain ⟨state, executed, released, called⟩ : ∃ state : State,
      system.execute DisconnectSubmits (start {})
        [.callbackReturned {}, .send {} ⟨[1]⟩, .recvCompleted {} 0 0, .sendCompleted {} 0 1,
          .disconnectCompleted 0, .callbackReturned {}] = some state ∧
      state.session.selfRef = false ∧ state.history.disconnectedCalls = 1 :=
    ⟨_, rfl, rfl, rfl⟩
  have reachable := TransitionSystem.Reachable.execute (.initial start_initial) executed
  obtain ⟨_, _, onlyAtZero, _, _⟩ := session_pending_io_exact reachable
  exact ⟨state, reachable, released, called, onlyAtZero released⟩

/-- The peer closes with nothing else in flight, and the ring is full. -/
theorem session_released_once_full_ring :
    ∃ state : State, system.Reachable ReleasesSafely state ∧
      state.session.selfRef = false ∧ state.ring.inFlight = 0 := by
  refine TransitionSystem.exists_reachable start_initial
    [.callbackReturned {}, .recvCompleted { disconnect := false } 0 0,
      .callbackReturned {}] ⟨_, rfl, ?_⟩
  intro reachable
  obtain ⟨_, _, onlyAtZero⟩ := session_released_once reachable
  exact ⟨rfl, onlyAtZero rfl⟩

/-- `OnRecv(view)` calls `Disconnect` on a full ring while the multishot receive
stays in flight. The session lets go of itself at once, and the handler around
`OnRecv(view)` then calls `OnDisconnected` and the callback again. -/
theorem session_released_twice :
    ∃ state : State, system.Reachable everyStep state ∧
      state.history.disconnectedCalls = 2 ∧ state.history.disconnectCallbacks = 2 ∧
      state.session.selfRef = false ∧ state.ring.inFlight = 1 := by
  have started : system.Initial (start { onDisconnect := true }) := ⟨false, true, false, rfl⟩
  refine TransitionSystem.exists_reachable started
    [.callbackReturned {}, .recvCompleted {} 1 (cqeMore ||| cqeBuffer),
      .disconnect { disconnect := false }, .callbackReturned {}, .callbackReturned {},
      .callbackReturned {}, .callbackReturned {}] ⟨_, rfl, fun _ => ?_⟩
  exact ⟨rfl, rfl, rfl, rfl⟩

end Runs

end UringServer.Io
