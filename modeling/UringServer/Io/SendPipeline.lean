import UringServer.Io.Pipeline

/-!
# What a `Session` sends

Until it disconnects, a session submits the accepted buffers in order, one message
at a time, and never leaves a buffer waiting with nothing in flight.

A completion that reports fewer bytes than requested is taken for a complete one,
so the rest of its batch is never sent (`session_short_send_drops_bytes`). Up to
the first short completion the bytes sent are the bytes accepted.
-/

namespace UringServer.Io

open UringServer.Buffer UringServer.Ring UringServer.Semantics

variable {state : State}

/-- Until the session disconnects, the batches submitted so far followed by the
queue are the accepted buffers, at most one message is in flight, and one is
whenever the queue holds something. -/
theorem session_send_pipeline (reachable : system.Reachable everyStep state)
    (running : state.session.disconnecting = false) :
    state.history.submitted.flatten ++ state.session.sendQueue.pending =
        state.history.accepted ∧
      state.ring.sendMsgs.length ≤ 1 ∧
      (state.session.sendQueue.pending ≠ [] → state.ring.sendMsgs.length = 1) := by
  have pipeline := reachable_pipeline reachable
  have single := pipeline.stream.single
  have flow := pipeline.flow running
  refine ⟨flow.queued, single, ?_⟩
  intro waiting
  cases registered : state.session.sendQueue.registered with
  | false => exact absurd (flow.drained registered) waiting
  | true =>
    have busy := List.length_pos_of_ne_nil (flow.attended.mp registered)
    omega

theorem bytes_flatten (batches : List (List SendBuffer)) :
    bytes batches.flatten = (batches.map bytes).flatten := by
  induction batches with
  | nil => rfl
  | cons batch rest ih =>
    rw [List.flatten_cons, List.map_cons, List.flatten_cons, ← ih]
    exact List.flatMap_append

/-- Prefixes of the requested bytes join up as long as nothing follows a short one. -/
theorem transmitted_prefix_requested {completions : List Completion}
    (short : ∀ completion ∈ completions, completion.transmitted <+: completion.requested)
    (noneAfterShort : completions.Pairwise fun earlier later =>
      earlier.transmitted = earlier.requested ∨ later.transmitted = []) :
    completions.flatMap Completion.transmitted <+: completions.flatMap Completion.requested := by
  induction completions with
  | nil => exact List.prefix_rfl
  | cons first rest ih =>
    rw [List.pairwise_cons] at noneAfterShort
    obtain ⟨fromFirst, fromRest⟩ := noneAfterShort
    have firstShort := short first List.mem_cons_self
    have restShort := ih
      (fun completion member => short completion (List.mem_cons_of_mem first member)) fromRest
    rw [List.flatMap_cons, List.flatMap_cons]
    by_cases full : first.transmitted = first.requested
    · rw [full]
      exact (List.prefix_append_right_inj _).mpr restShort
    · have nothing : rest.flatMap Completion.transmitted = [] := by
        rw [List.flatMap_eq_nil_iff]
        intro later member
        exact (fromFirst later member).resolve_left full
      rw [nothing, List.append_nil]
      exact firstShort.trans (List.prefix_append _ _)

/-- As long as no completion transmits anything after one that fell short of its
requested bytes, the bytes transmitted are the beginning of the bytes accepted. -/
theorem session_transmits_in_order (reachable : system.Reachable everyStep state)
    (noneAfterShort : state.history.completions.Pairwise fun earlier later =>
      earlier.transmitted = earlier.requested ∨ later.transmitted = []) :
    state.history.completions.flatMap Completion.transmitted <+:
      bytes state.history.accepted := by
  have stream := (reachable_pipeline reachable).stream
  have submitted : state.history.completions.flatMap Completion.requested <+:
      bytes state.history.submitted.flatten := by
    have joined := congrArg List.flatten stream.sent
    rw [List.flatten_append, ← List.flatMap_def] at joined
    exact ⟨_, joined.trans (bytes_flatten _).symm⟩
  have accepted : bytes state.history.submitted.flatten <+: bytes state.history.accepted := by
    obtain ⟨later, whole⟩ := stream.ordered
    rw [← whole, bytes, bytes, List.flatMap_append]
    exact List.prefix_append _ _
  exact (transmitted_prefix_requested stream.short noneAfterShort).trans
    (submitted.trans accepted)

section Runs

/-- A buffer sent while a message is in flight waits in the queue. -/
theorem session_send_pipeline_waiting :
    ∃ state : State, system.Reachable everyStep state ∧
      state.session.sendQueue.pending = [⟨[2]⟩] ∧ state.ring.sendMsgs.length = 1 := by
  obtain ⟨state, executed, running, waiting⟩ : ∃ state : State,
      system.execute everyStep (start {})
        [.callbackReturned {}, .send {} ⟨[1]⟩, .send {} ⟨[2]⟩] = some state ∧
      state.session.disconnecting = false ∧ state.session.sendQueue.pending = [⟨[2]⟩] :=
    ⟨_, rfl, rfl, rfl⟩
  have reachable := TransitionSystem.Reachable.execute (.initial start_initial) executed
  obtain ⟨_, _, attended⟩ := session_send_pipeline reachable running
  exact ⟨state, reachable, waiting, attended (by simp [waiting])⟩

/-- Two messages, the second cut short with nothing after it. -/
theorem session_transmits_in_order_last_short :
    ∃ state : State, system.Reachable everyStep state ∧
      state.history.completions.flatMap Completion.transmitted = [1, 2, 3] ∧
      state.history.completions.flatMap Completion.transmitted <+:
        bytes state.history.accepted := by
  obtain ⟨state, executed, completed⟩ : ∃ state : State,
      system.execute everyStep (start {})
        [.callbackReturned {}, .send {} ⟨[1, 2]⟩, .send {} ⟨[3, 4]⟩, .sendCompleted {} 0 2,
          .sendCompleted {} 0 1] = some state ∧
      state.history.completions = [⟨[1, 2], [1, 2]⟩, ⟨[3, 4], [3]⟩] :=
    ⟨_, rfl, rfl⟩
  have reachable := TransitionSystem.Reachable.execute (.initial start_initial) executed
  refine ⟨state, reachable, by rw [completed]; rfl, session_transmits_in_order reachable ?_⟩
  simp [completed]

/-- One byte of a message of two leaves, then the next message: the second byte
is missing from the stream. -/
theorem session_short_send_drops_bytes :
    ∃ state : State, system.Reachable everyStep state ∧
      state.history.completions.flatMap Completion.transmitted = [1, 3] ∧
      bytes state.history.accepted = [1, 2, 3] ∧
      ¬ state.history.completions.flatMap Completion.transmitted <+:
        bytes state.history.accepted := by
  obtain ⟨state, executed, transmitted, accepted⟩ : ∃ state : State,
      system.execute everyStep (start {})
        [.callbackReturned {}, .send {} ⟨[1, 2]⟩, .sendCompleted {} 0 1, .send {} ⟨[3]⟩,
          .sendCompleted {} 0 1] = some state ∧
      state.history.completions.flatMap Completion.transmitted = [1, 3] ∧
      bytes state.history.accepted = [1, 2, 3] :=
    ⟨_, rfl, rfl, rfl⟩
  have reachable := TransitionSystem.Reachable.execute (.initial start_initial) executed
  refine ⟨state, reachable, transmitted, accepted, ?_⟩
  rw [transmitted, accepted]
  decide

end Runs

end UringServer.Io
