import UringServer.Io.Untouched

/-!
# Where the buffers of a `Session` are

`Send` queues a buffer; the first of a cycle starts a `sendmsg`, and the
completion of each `sendmsg` starts the next with what was queued meanwhile.
`Pipeline` says where every accepted buffer is: in a batch that completed, in the
one batch in flight, or in the queue.
-/

namespace UringServer.Io

open UringServer.Buffer UringServer.Ring UringServer.Semantics

/-- The bytes of some buffers, in order. -/
def bytes (bufs : List SendBuffer) : List UInt8 := bufs.flatMap SendBuffer.data

/-- What was submitted is the beginning of what was accepted, and was handed to
the kernel one message at a time. -/
structure Stream (state : State) : Prop where
  sent : state.history.completions.map Completion.requested ++
      state.ring.sendMsgs.map Message.bytes = state.history.submitted.map bytes
  short : ∀ completion ∈ state.history.completions,
    completion.transmitted <+: completion.requested
  single : state.ring.sendMsgs.length ≤ 1
  ordered : state.history.submitted.flatten <+: state.history.accepted

/-- What was accepted and not submitted is in the queue, and a queue that holds
something has a message in flight. -/
structure Flow (state : State) : Prop where
  queued : state.history.submitted.flatten ++ state.session.sendQueue.pending =
    state.history.accepted
  attended : state.session.sendQueue.registered = true ↔ state.ring.sendMsgs ≠ []
  drained : state.session.sendQueue.registered = false → state.session.sendQueue.pending = []

/-- Where the accepted buffers are. -/
structure Pipeline (state : State) : Prop where
  stream : Stream state
  flow : state.session.disconnecting = false → Flow state

variable {state next : State} {sqes : Sqes}

theorem Stream.of_untouched (stream : Stream state) (untouched : Untouched state next) :
    Stream next := by
  refine ⟨?_, ?_, ?_, ?_⟩
  · rw [untouched.completions, untouched.sendMsgs, untouched.submitted]
    exact stream.sent
  · rw [untouched.completions]
    exact stream.short
  · rw [untouched.sendMsgs]
    exact stream.single
  · rw [untouched.submitted, untouched.accepted]
    exact stream.ordered

theorem Flow.of_untouched (flow : Flow state) (untouched : Untouched state next) : Flow next := by
  refine ⟨?_, ?_, ?_⟩
  · rw [untouched.submitted, untouched.sendQueue, untouched.accepted]
    exact flow.queued
  · rw [untouched.sendQueue, untouched.sendMsgs]
    exact flow.attended
  · rw [untouched.sendQueue]
    exact flow.drained

theorem Pipeline.of_untouched (pipeline : Pipeline state) (untouched : Untouched state next) :
    Pipeline next := by
  refine ⟨pipeline.stream.of_untouched untouched, ?_⟩
  intro runs
  cases running : state.session.disconnecting with
  | false => exact (pipeline.flow running).of_untouched untouched
  | true =>
    have stops := untouched.disconnecting running
    simp [runs] at stops

theorem disconnect_disconnecting (sqes : Sqes) (state : State) :
    (state.disconnect sqes).session.disconnecting = true := by
  cases running : state.session.disconnecting with
  | true => rw [State.disconnect_again running, running]
  | false =>
  cases found : sqes.disconnect with
  | false =>
    rw [State.disconnect_full running found]
    exact (Untouched.tryRelease _).disconnecting rfl
  | true => rw [State.disconnect_room running found]

/-- Disconnecting keeps what was submitted, whatever became of the queue. -/
theorem Stream.disconnect (stream : Stream state) (sqes : Sqes) :
    Pipeline (state.disconnect sqes) := by
  refine ⟨stream.of_untouched (Untouched.disconnect sqes state), ?_⟩
  intro runs
  simp [disconnect_disconnecting sqes state] at runs

/-- Sending a batch that was just drained, with no message in flight. -/
theorem Stream.sendBatch (stream : Stream state) {bufs : List SendBuffer} (sqes : Sqes)
    (nonempty : bufs ≠ []) (running : state.session.disconnecting = false)
    (empty : state.session.sendQueue.pending = [])
    (registered : state.session.sendQueue.registered = true)
    (idle : state.ring.sendMsgs = [])
    (rest : state.history.submitted.flatten ++ bufs = state.history.accepted) :
    Pipeline (state.sendBatch sqes bufs) := by
  have sends : (state.session.disconnecting || bufs.isEmpty) = false := by
    simpa [running] using nonempty
  unfold State.sendBatch
  rw [if_neg (by simp [sends])]
  cases found : sqes.sendMsg with
  | false =>
    have dropped : Untouched state { state with
        session.pendingIo := state.session.pendingIo + 1 - 1
        session.inFlightBufs := []
        session.sendIovecs := [] } := ⟨rfl, rfl, rfl, rfl, rfl, id⟩
    exact (stream.of_untouched dropped).disconnect sqes
  | true =>
    have message : Message.bytes ⟨bufs.map SendBuffer.data⟩ = bytes bufs := by
      simp [Message.bytes, bytes, List.flatMap]
    have sent := stream.sent
    simp only [idle, List.map_nil, List.append_nil] at sent
    refine ⟨⟨?_, stream.short, ?_, ?_⟩, fun _ => ⟨?_, ?_, ?_⟩⟩
    · simp [idle, sent, message]
    · simp [idle]
    · simp [rest]
    · simp [rest, empty]
    · simp [registered]
    · simp [registered]

theorem sendBatch_accepted (sqes : Sqes) (bufs : List SendBuffer) (state : State) :
    (state.sendBatch sqes bufs).history.accepted = state.history.accepted := by
  unfold State.sendBatch
  split
  · rfl
  · cases sqes.sendMsg with
    | false => exact (Untouched.disconnect sqes _).accepted
    | true => rfl

theorem registerSend_accepted (sqes : Sqes) (state : State) :
    (state.registerSend sqes).history.accepted = state.history.accepted := by
  unfold State.registerSend
  split
  · rfl
  · simp only
    split
    · rfl
    · exact sendBatch_accepted sqes _ _

/-- The history accepts a buffer exactly when `Send` reports success. -/
theorem send_accepted (sqes : Sqes) (buf : SendBuffer) (state : State) :
    (state.send sqes buf).2.history.accepted = state.history.accepted ++
      match (state.send sqes buf).1 with
      | .ok () => [buf]
      | .error _ => [] := by
  unfold State.send
  split
  · exact (List.append_nil _).symm
  simp only
  split
  · split
    · exact (List.append_nil _).symm
    · rw [(Untouched.disconnect sqes _).accepted]
      exact (List.append_nil _).symm
  · split
    · exact registerSend_accepted sqes _
    · rfl

/-- `Send` keeps the pipeline. -/
theorem Pipeline.send (pipeline : Pipeline state) (sqes : Sqes) (buf : SendBuffer) :
    Pipeline (state.send sqes buf).2 := by
  have stream := pipeline.stream
  cases running : state.session.disconnecting with
  | true =>
    rw [State.send_disconnecting running]
    exact pipeline
  | false =>
  have flow := pipeline.flow running
  by_cases full : state.session.sendQueue.full
  · rw [State.send_overflow running full]
    simp only
    split
    · exact pipeline.of_untouched ⟨rfl, rfl, rfl, rfl, rfl, id⟩
    · exact stream.disconnect sqes
  · have longer : state.history.submitted.flatten <+: state.history.accepted ++ [buf] :=
      stream.ordered.trans (List.prefix_append _ _)
    cases registered : state.session.sendQueue.registered with
    | true =>
      rw [State.send_registered running full registered]
      refine ⟨⟨stream.sent, stream.short, stream.single, longer⟩, fun _ => ⟨?_, ?_, ?_⟩⟩
      · simp [State.recordAccepted, ← flow.queued]
      · simpa [State.recordAccepted, registered] using flow.attended
      · simp [State.recordAccepted]
    | false =>
      have empty := flow.drained registered
      have queued := flow.queued
      rw [empty, List.append_nil] at queued
      have idle : state.ring.sendMsgs = [] := by
        by_contra busy
        simp [flow.attended.mpr busy] at registered
      rw [State.send_first running full registered empty]
      apply Stream.sendBatch
      · exact ⟨stream.sent, stream.short, stream.single, longer⟩
      · simp
      · exact running
      · rfl
      · rfl
      · exact idle
      · simp [State.recordAccepted, queued]

/-- The one message in flight completes. -/
theorem Stream.finishSend (stream : Stream state) {position : Nat} {message : Message} (res : Int)
    (found : state.ring.sendMsgs[position]? = some message) :
    state.ring.sendMsgs = [message] ∧
      (state.finishSend position message res).ring.sendMsgs = [] ∧
      Stream (state.finishSend position message res) := by
  have single := stream.single
  obtain ⟨bounded, atPosition⟩ := List.getElem?_eq_some_iff.mp found
  obtain ⟨only, alone⟩ : ∃ only, state.ring.sendMsgs = [only] :=
    List.length_eq_one_iff.mp (by omega)
  have here : position = 0 := by omega
  subst here
  simp only [alone, List.getElem_cons_zero] at atPosition
  subst atPosition
  have sent := stream.sent
  refine ⟨alone, ?_, ?_, ?_, ?_, ?_⟩
  · simp [State.finishSend, alone]
  · simpa [State.finishSend, alone] using sent
  · intro completion member
    simp only [State.finishSend, List.mem_append, List.mem_singleton] at member
    rcases member with earlier | rfl
    · exact stream.short completion earlier
    · exact List.take_prefix _ _
  · simp [State.finishSend, alone]
  · exact stream.ordered

/-- `OnSend` keeps the pipeline. -/
theorem Pipeline.onSend (pipeline : Pipeline state) (sqes : Sqes) {position : Nat}
    {message : Message} (res : Int) (found : state.ring.sendMsgs[position]? = some message) :
    Pipeline ((state.finishSend position message res).onSend sqes res) := by
  obtain ⟨alone, idle, finished⟩ := pipeline.stream.finishSend res found
  unfold State.onSend
  simp only
  split
  case isTrue stops =>
    refine Pipeline.of_untouched ⟨?_, ?_⟩ (Untouched.tryRelease _)
    · exact ⟨finished.sent, finished.short, finished.single, finished.ordered⟩
    · intro runs
      cases stops.symm.trans runs
  case isFalse running =>
  have runs : state.session.disconnecting = false := by simpa using running
  have flow := pipeline.flow runs
  have registered := flow.attended.mpr (by simp [alone])
  have marked := SendQueue.markSent_registered state.session.sendQueue
  split
  · apply Stream.disconnect
    exact ⟨finished.sent, finished.short, finished.single, finished.ordered⟩
  · simp only [SendQueue.drain, SendQueue.markSent_pending]
    split
    case isTrue empty =>
      have emptied : state.session.sendQueue.pending = [] := by simpa using empty
      simp only [registered, emptied, List.isEmpty_nil, Bool.not_true, Bool.and_false] at marked
      refine ⟨⟨finished.sent, finished.short, finished.single, finished.ordered⟩,
        fun _ => ⟨?_, ?_, ?_⟩⟩
      · simpa [emptied] using flow.queued
      · simp [marked, idle]
      · intro _
        rfl
    case isFalse nonempty =>
      have left : state.session.sendQueue.pending ≠ [] := by simpa using nonempty
      apply Stream.sendBatch
      · exact ⟨finished.sent, finished.short, finished.single, finished.ordered⟩
      · exact left
      · exact runs
      · rfl
      · simp [marked, registered, left]
      · exact idle
      · exact flow.queued

/-- Every step keeps the pipeline. -/
theorem Pipeline.step (pipeline : Pipeline state) {action : Action}
    (transition : step state action = some next) : Pipeline next := by
  cases action with
  | send sqes buf =>
    cases transition
    exact pipeline.send sqes buf
  | disconnect sqes =>
    cases transition
    exact pipeline.of_untouched (Untouched.disconnect sqes state)
  | setConnectedCallback present | setDisconnectCallback present
  | setSendOverflowCallback present =>
    cases transition
    exact pipeline.of_untouched ⟨rfl, rfl, rfl, rfl, rfl, id⟩
  | callbackReturned sqes =>
    simp only [Io.step] at transition
    split at transition <;> cases transition
    exact pipeline.of_untouched (Untouched.resume sqes _ _ state)
  | recvCompleted sqes res flags =>
    simp only [Io.step] at transition
    split at transition <;> cases transition
    exact pipeline.of_untouched (Untouched.onRecv sqes res flags state)
  | sendCompleted sqes position res =>
    simp only [Io.step] at transition
    split at transition <;> cases transition
    case h_1 found => exact pipeline.onSend sqes res found
  | disconnectCompleted res =>
    simp only [Io.step] at transition
    split at transition <;> cases transition
    refine pipeline.of_untouched (Untouched.trans ?_ (Untouched.tryRelease _))
    exact ⟨rfl, rfl, rfl, rfl, rfl, id⟩

theorem reachable_pipeline (reachable : system.Reachable everyStep state) : Pipeline state := by
  apply reachable.invariant Pipeline
  · rintro _ ⟨_, _, _, rfl⟩
    refine ⟨⟨rfl, ?_, ?_, ?_⟩, fun _ => ⟨rfl, ?_, fun _ => rfl⟩⟩ <;> simp [start]
  · intro _ _ _ pipeline _ transition
    exact pipeline.step transition

end UringServer.Io
