import UringServer.Web.HeaderBlock

/-!
# Upstream responses with a length

A stream whose header block has one `Content-Length` field and is not chunked.
What is handed to `on_response` is exact if the session reads the response just
when the last byte of the body has come, and not earlier or later.
-/

namespace UringServer.Web

open UringServer.Semantics

/-- A stream with a header block that gives the length of the body. -/
structure SizedStream extends HeadedStream where
  value : Text
  oneLength : fieldsNamed (ascii "Content-Length") head = [value]
  digits : value ≠ [] ∧ ∀ byte ∈ value, isDigit byte = true
  small : ofDigits value < 2 ^ 64
  notChunked : ∀ coding ∈ fieldsNamed (ascii "Transfer-Encoding") head,
    caseInsensitiveContains coding (ascii "chunked") = false

namespace SizedStream

/-- The number in the `Content-Length` field. -/
def length (stream : SizedStream) : Nat := ofDigits stream.value

/-- Where the body ends. -/
def bodyEnd (stream : SizedStream) : Nat := stream.bodyStart + stream.length

end SizedStream

namespace UpstreamSession

variable {stream : SizedStream} {state next : UpstreamSession} {action : UpstreamAction}

/-- `on_response` is called only with the bytes that the length counts, and if the connection
ends before they have come then `on_error` is called instead. -/
structure Exact (stream : SizedStream) (state : UpstreamSession) : Prop where
  whole : ∀ code headers body, .onResponse code headers body ∈ state.calls →
    stream.length ≤ stream.rest.length ∧ body = stream.rest.take stream.length
  short : state.ended = true → state.recvBuffer.length < stream.bodyEnd →
    ∃ error, state.calls = [.onError error]

/-- Where a response is read, from a header block with a status code, the last byte received
is the last one of the body. -/
def ReadsAtEnd (stream : SizedStream) (state : UpstreamSession) (action : UpstreamAction) :
    Prop :=
  state.Reads action → headerTerminator <:+: state.fed action → HasStatus (state.fed action) →
    (state.fed action).length = stream.bodyEnd

instance (stream : SizedStream) (state : UpstreamSession) (action : UpstreamAction) :
    Decidable (ReadsAtEnd stream state action) :=
  inferInstanceAs (Decidable (state.Reads action → headerTerminator <:+: state.fed action →
    HasStatus (state.fed action) → (state.fed action).length = stream.bodyEnd))

theorem Unanswered.exact (unanswered : state.Unanswered) : state.Exact stream := by
  refine ⟨fun code headers body member => ?_, fun ended => ?_⟩
  · exact absurd member (unanswered.calls code headers body)
  · rw [unanswered.ended] at ended
    cases ended

/-- The part of the stream after the header block is the body as its length says exactly if
it ends with the body. -/
theorem body_exact_iff {part : Text} (received : part <+: stream.bytes)
    (long : stream.bodyStart ≤ part.length) :
    (stream.length ≤ stream.rest.length ∧
        part.drop stream.bodyStart = stream.rest.take stream.length) ↔
      part.length = stream.bodyEnd := by
  rw [stream.drop_received received, SizedStream.bodyEnd]
  have bound := stream.length_received received
  constructor
  · rintro ⟨fits, same⟩
    have lengths := congrArg List.length same
    rw [List.length_take, List.length_take] at lengths
    omega
  · intro same
    have count : part.length - stream.bodyStart = stream.length := by omega
    exact ⟨by omega, by rw [count]⟩

/-- One step keeps the calls exact just if it reads at the end of the body. -/
theorem exact_step (waiting : state.Waiting stream.bytes)
    (transition : step stream.bytes state action = some next) :
    next.Exact stream ↔ state.Exact stream ∧ ReadsAtEnd stream state action := by
  obtain ⟨fresh, outcome, received⟩ := step_outcome waiting transition
  have before : state.Exact stream := fresh.unanswered.exact
  by_cases reads : state.Reads action
  · obtain ⟨calls, ended⟩ := outcome.read reads
    rcases parseResponse_cases (state.fed action) with
      ⟨error, parsed, malformed⟩ | ⟨headerEnd, code, headers, head, status, parsed⟩
    · rw [parsed] at calls
      have exact_ : next.Exact stream := ⟨by simp [calls], fun _ _ => ⟨error, calls⟩⟩
      exact iff_of_true exact_ ⟨before, fun _ head status => absurd ⟨head, status⟩ malformed⟩
    · rw [parsed] at calls
      cases stream.headerEnd_eq received head
      have body := body_exact_iff received (stream.bodyStart_le received head)
      constructor
      · intro exact_
        have whole := exact_.whole _ _ _ (calls ▸ List.mem_singleton.mpr rfl)
        exact ⟨before, fun _ _ _ => body.mp whole⟩
      · rintro ⟨-, admitted⟩
        have ends := admitted reads head.isInfix status
        refine ⟨fun otherCode otherHeaders otherBody member => ?_, fun _ tooShort => ?_⟩
        · rw [calls, List.mem_singleton] at member
          cases member
          exact body.mpr ends
        · rw [outcome.recvBuffer, ends] at tooShort
          exact absurd tooShort (Nat.lt_irrefl _)
  · have unanswered := outcome.unread reads
    exact iff_of_true unanswered.exact ⟨before, fun read => absurd read reads⟩

/-- In every run on a stream with a length the calls are exact if and only if each response is
read just when the last byte of its body has come. -/
theorem upstream_length_exact (stream : SizedStream) {state : UpstreamSession}
    (reachable : (system stream.bytes).Reachable everyStep state) :
    state.Exact stream ↔ (system stream.bytes).Reachable (ReadsAtEnd stream) state := by
  refine reachable.iff_admitted (Exact stream) ?_ ?_
  · rintro _ rfl
    exact (Fresh.unanswered ⟨rfl, rfl⟩).exact
  · intro state action next prior transition
    exact exact_step (reachable_waiting prior) transition

/-- A response of two bytes and one more byte after it. -/
def surplusStream : SizedStream where
  head := ascii "HTTP/1.1 200 OK\r\nContent-Length: 2"
  rest := ascii "hi!"
  terminated := find_headerTerminator.mp rfl
  value := ascii "2"
  oneLength := by decide
  digits := ⟨by decide, List.all_eq_true.mp rfl⟩
  small := by decide
  notChunked := by decide

/-- The head and the first byte of the body of `surplusStream`. -/
def firstBytes : Text := surplusStream.bytes.take 39

/-- The header of `surplusStream` as it is handed on. -/
def sizedHeaders : List (Text × Text) := [(ascii "Content-Length", ascii "2")]

/-- Two reads of which the second ends with the body. -/
theorem upstream_length_exact_two_reads :
    ∃ state, (system surplusStream.bytes).Reachable everyStep state ∧
      state.calls = [.onResponse 200 sizedHeaders (ascii "hi")] ∧ state.Exact surplusStream := by
  obtain ⟨state, executed, calls⟩ : ∃ state,
      (system surplusStream.bytes).execute (ReadsAtEnd surplusStream) {}
        (requestActions ++ [.received firstBytes true, .received (ascii "i") true]) = some state ∧
      state.calls = [.onResponse 200 sizedHeaders (ascii "hi")] := ⟨_, rfl, rfl⟩
  have admitted := TransitionSystem.Reachable.execute (.initial rfl) executed
  have reachable := admitted.mono fun _ _ _ => trivial
  exact ⟨state, reachable, calls, (upstream_length_exact surplusStream reachable).mpr admitted⟩

/-- A read past the end of the body hands on what follows it, and a connection that ends
inside the body hands on what has come. -/
theorem upstream_length_inexact :
    (∃ state, (system surplusStream.bytes).Reachable everyStep state ∧
      state.calls = [.onResponse 200 sizedHeaders (ascii "hi!")] ∧ ¬ state.Exact surplusStream) ∧
    ∃ state, (system surplusStream.bytes).Reachable everyStep state ∧ state.ended = true ∧
      state.calls = [.onResponse 200 sizedHeaders (ascii "h")] ∧ ¬ state.Exact surplusStream := by
  constructor
  · obtain ⟨state, executed, calls⟩ : ∃ state,
        (system surplusStream.bytes).execute everyStep {}
          (requestActions ++ [.received surplusStream.bytes true]) = some state ∧
        state.calls = [.onResponse 200 sizedHeaders (ascii "hi!")] := ⟨_, rfl, rfl⟩
    refine ⟨state, .execute (.initial rfl) executed, calls, fun exact_ => ?_⟩
    have body := (exact_.whole _ _ _ (calls ▸ List.mem_singleton.mpr rfl)).2
    revert body
    decide
  · obtain ⟨state, executed, ended, calls⟩ : ∃ state,
        (system surplusStream.bytes).execute everyStep {}
          (requestActions ++ [.received firstBytes true, .closedByUpstream]) = some state ∧
        state.ended = true ∧
        state.calls = [.onResponse 200 sizedHeaders (ascii "h")] := ⟨_, rfl, rfl, rfl⟩
    refine ⟨state, .execute (.initial rfl) executed, ended, calls, fun exact_ => ?_⟩
    have body := (exact_.whole _ _ _ (calls ▸ List.mem_singleton.mpr rfl)).2
    revert body
    decide

end UpstreamSession

end UringServer.Web
