import UringServer.Web.ChunkedBody
import UringServer.Web.HeaderBlock

/-!
# Chunked upstream responses

A stream whose header block declares the chunked coding and no length. `OnRecv`
does not follow the chunks but looks for the mark of an empty last chunk, so that
a response is read too early where the mark is part of the data.
-/

namespace UringServer.Web

open UringServer.Semantics

/-- A stream with a header block that declares the chunked coding and a chunked body. -/
structure ChunkedStream extends HeadedStream where
  body : Text
  chunked : ChunkedBody body
  starts : body <+: rest
  declared : ∃ coding ∈ fieldsNamed (ascii "Transfer-Encoding") head,
    caseInsensitiveEqual coding (ascii "chunked") = true
  noLength : fieldsNamed (ascii "Content-Length") head = []

/-- Where the last chunk and the trailer section end. -/
def ChunkedStream.bodyEnd (stream : ChunkedStream) : Nat := stream.bodyStart + stream.body.length

namespace UpstreamSession

variable {stream : ChunkedStream} {state next : UpstreamSession} {action : UpstreamAction}

/-- Before the end of the stream `on_response` is called only when a complete chunked body
has been received. -/
def NeverShort (stream : ChunkedStream) (state : UpstreamSession) : Prop :=
  state.ended = false → ∀ code headers body, .onResponse code headers body ∈ state.calls →
    ∃ whole, ChunkedBody whole ∧ whole <+: state.recvBuffer.drop stream.bodyStart

/-- What looks complete when more has been received has all of the chunked body. -/
def LooksRight (stream : ChunkedStream) (state : UpstreamSession) : UpstreamAction → Prop
  | .received data _ => LooksComplete (state.recvBuffer ++ data) →
      HasStatus (state.recvBuffer ++ data) → stream.bodyEnd ≤ (state.recvBuffer ++ data).length
  | _ => True

instance (stream : ChunkedStream) (state : UpstreamSession) :
    DecidablePred (LooksRight stream state)
  | .received data _ => inferInstanceAs (Decidable (LooksComplete (state.recvBuffer ++ data) →
      HasStatus (state.recvBuffer ++ data) → stream.bodyEnd ≤ (state.recvBuffer ++ data).length))
  | .connected .. | .sent .. | .closedByUpstream | .recvFailed _ => .isTrue trivial

theorem Unanswered.neverShort (unanswered : state.Unanswered) : state.NeverShort stream :=
  fun _ code headers body member => absurd member (unanswered.calls code headers body)

/-- A part of the stream holds a complete chunked body just if it holds that of the stream. -/
theorem whole_received_iff {part : Text} (received : part <+: stream.bytes)
    (long : stream.bodyStart ≤ part.length) :
    (∃ whole, ChunkedBody whole ∧ whole <+: part.drop stream.bodyStart) ↔
      stream.bodyEnd ≤ part.length := by
  rw [stream.drop_received received, ChunkedStream.bodyEnd]
  constructor
  · rintro ⟨whole, chunked, starts⟩
    have same := chunked.unique stream.chunked (starts.trans (List.take_prefix _ _)) stream.starts
    have bound := starts.length_le
    rw [List.length_take, same] at bound
    omega
  · intro enough
    refine ⟨stream.body, stream.chunked, ?_⟩
    rw [List.prefix_take_iff]
    exact ⟨stream.starts, by omega⟩

/-- Data that looks complete is read: the response is short just if the body is. -/
theorem neverShort_received {data : Text} {sqe : Bool} (fresh : state.Fresh)
    (received : state.recvBuffer ++ data <+: stream.bytes)
    (looks : LooksComplete (state.recvBuffer ++ data)) :
    (state.onRecv data sqe).NeverShort stream ↔ LooksRight stream state (.received data sqe) := by
  have outcome := onRecv_outcome fresh data sqe
  obtain ⟨calls, ended⟩ := outcome.read looks
  change _ = [parseResponse (state.recvBuffer ++ data)] at calls
  rcases parseResponse_cases (state.recvBuffer ++ data) with
    ⟨error, parsed, malformed⟩ | ⟨headerEnd, code, headers, head, status, parsed⟩
  · rw [parsed] at calls
    refine iff_of_true (fun _ _ _ _ member => ?_) fun _ status => ?_
    · rw [calls] at member
      simp at member
    · exact absurd ⟨looks.head, status⟩ malformed
  · rw [parsed] at calls
    have whole := whole_received_iff received (stream.bodyStart_le received head)
    have buffer : (state.onRecv data sqe).recvBuffer = state.recvBuffer ++ data :=
      outcome.recvBuffer
    constructor
    · intro neverShort _ _
      have holds := neverShort ended _ _ _ (calls ▸ List.mem_singleton.mpr rfl)
      rw [buffer] at holds
      exact whole.mp holds
    · intro right _ _ _ _ _
      rw [buffer]
      exact whole.mpr (right looks status)

/-- One step keeps the response from being short just if what looks complete is. -/
theorem neverShort_step (waiting : state.Waiting stream.bytes)
    (transition : step stream.bytes state action = some next) :
    next.NeverShort stream ↔ state.NeverShort stream ∧ LooksRight stream state action := by
  obtain ⟨fresh, outcome, received⟩ := step_outcome waiting transition
  rw [and_iff_right fresh.unanswered.neverShort]
  by_cases reads : state.Reads action
  · cases action with
    | received data sqe =>
      obtain ⟨-, taken⟩ := Option.ite_none_right_eq_some.mp transition
      cases taken
      exact neverShort_received fresh received reads
    | closedByUpstream =>
      have ended := (outcome.read reads).2
      refine iff_of_true (fun open_ => ?_) trivial
      rw [ended] at open_
      cases open_
    | connected | sent | recvFailed => exact absurd reads id
  · refine iff_of_true (outcome.unread reads).neverShort ?_
    cases action with
    | received data sqe => exact fun looks => absurd looks reads
    | connected | sent | closedByUpstream | recvFailed => trivial

/-- In every run on a chunked stream no response is cut short if and only if whatever looks
complete has all of the chunked body. -/
theorem upstream_chunked_whole (stream : ChunkedStream) {state : UpstreamSession}
    (reachable : (system stream.bytes).Reachable everyStep state) :
    state.NeverShort stream ↔ (system stream.bytes).Reachable (LooksRight stream) state := by
  refine reachable.iff_admitted (NeverShort stream) ?_ ?_
  · rintro _ rfl
    exact (Fresh.unanswered ⟨rfl, rfl⟩).neverShort
  · intro state action next prior transition
    exact neverShort_step (reachable_waiting prior) transition

/-- The chunks of `markedStream`. -/
def markedBody : Text := ascii "3\r\n0\r\n\r\n1\r\na\r\n0\r\n\r\n"

theorem markedBody_chunked : ChunkedBody markedBody := by
  have last : ChunkedBody (ascii "0\r\n\r\n") :=
    @ChunkedBody.last (ascii "0") crlf (by decide) (by decide) .empty
  have second : ChunkedBody (ascii "1\r\na\r\n0\r\n\r\n") :=
    @ChunkedBody.chunk (ascii "1") (ascii "a") _ (by decide) (by decide) (by decide) last
  exact @ChunkedBody.chunk (ascii "3") (ascii "0\r\n") _ (by decide) (by decide) (by decide) second

/-- A chunked response with the mark of the last chunk in the data of the first one. -/
def markedStream : ChunkedStream where
  head := ascii "HTTP/1.1 200 OK\r\nTransfer-Encoding: chunked"
  rest := markedBody
  terminated := find_headerTerminator.mp rfl
  body := markedBody
  chunked := markedBody_chunked
  starts := List.prefix_rfl
  declared := by decide
  noLength := by decide

/-- The header of `markedStream` as it is handed on. -/
def chunkedHeaders : List (Text × Text) := [(ascii "Transfer-Encoding", ascii "chunked")]

/-- The whole response in one read. -/
theorem upstream_chunked_whole_one_read :
    ∃ state, (system markedStream.bytes).Reachable everyStep state ∧
      state.calls = [.onResponse 200 chunkedHeaders markedBody] ∧
      state.NeverShort markedStream := by
  obtain ⟨state, executed, calls⟩ : ∃ state,
      (system markedStream.bytes).execute (LooksRight markedStream) {}
        (requestActions ++ [.received markedStream.bytes true]) = some state ∧
      state.calls = [.onResponse 200 chunkedHeaders markedBody] := ⟨_, rfl, rfl⟩
  have admitted := TransitionSystem.Reachable.execute (.initial rfl) executed
  have reachable := admitted.mono fun _ _ _ => trivial
  exact ⟨state, reachable, calls, (upstream_chunked_whole markedStream reachable).mpr admitted⟩

/-- A read that ends after the first chunk is taken for the whole response. -/
theorem upstream_chunked_short :
    ∃ state, (system markedStream.bytes).Reachable everyStep state ∧ state.ended = false ∧
      state.calls = [.onResponse 200 chunkedHeaders (ascii "3\r\n0\r\n\r\n")] ∧
      ¬ state.NeverShort markedStream := by
  obtain ⟨state, executed, buffer, ended, calls⟩ : ∃ state,
      (system markedStream.bytes).execute everyStep {}
        (requestActions ++ [.received (markedStream.bytes.take 55) true]) = some state ∧
      state.recvBuffer = markedStream.bytes.take 55 ∧ state.ended = false ∧
      state.calls = [.onResponse 200 chunkedHeaders (ascii "3\r\n0\r\n\r\n")] :=
    ⟨_, rfl, rfl, rfl, rfl⟩
  refine ⟨state, .execute (.initial rfl) executed, ended, calls, fun neverShort => ?_⟩
  have whole := neverShort ended _ _ _ (calls ▸ List.mem_singleton.mpr rfl)
  rw [buffer, whole_received_iff (List.take_prefix _ _) (by decide)] at whole
  revert whole
  decide

end UpstreamSession

end UringServer.Web
