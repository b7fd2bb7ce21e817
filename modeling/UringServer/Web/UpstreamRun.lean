import UringServer.Web.UpstreamSession

/-!
# When an upstream session calls back

An `UpstreamSession` calls one callback, once. It reads a response from what has
been received when that looks complete or when the upstream closes the
connection; what looks complete is said here in terms of the bytes alone.
-/

namespace UringServer.Web

open UringServer.Semantics

/-- A length field as `OnRecv` looks for it: the first of the one spelling, and the first of
the other if the one does not occur at all. -/
inductive LengthAt (data : Text) (position : Nat) : Prop where
  | capitals (first : FirstAt (ascii "Content-Length:") data position)
  | small (noCapitals : ¬ ascii "Content-Length:" <:+: data)
      (first : FirstAt (ascii "content-length:") data position)

/-- What looks like a complete response: it has its header block, and in this a length field
with a number that is reached, or else there is the announcement of chunks and the mark of the
last one somewhere. -/
inductive LooksComplete (data : Text) : Prop where
  | length {headerEnd position number : Nat} (head : FirstAt headerTerminator data headerEnd)
      (field : LengthAt data position) (inside : position < headerEnd)
      (reads : contentLength data headerEnd position = some number)
      (reached : (headerEnd + 4 + number) % 2 ^ 64 ≤ data.length)
  | chunked {headerEnd : Nat} (head : FirstAt headerTerminator data headerEnd)
      (noLength : ∀ position, LengthAt data position → headerEnd ≤ position)
      (announced : ascii "Transfer-Encoding: chunked" <:+: data ∨
        ascii "transfer-encoding: chunked" <:+: data)
      (marked : ascii "\r\n0\r\n\r\n" <:+: data)

section Bytes

variable {data : Text} {headerEnd position : Nat}

theorem LengthAt.unique {other : Nat} (first : LengthAt data position)
    (second : LengthAt data other) : position = other := by
  cases first with
  | capitals first =>
    cases second with
    | capitals second => exact first.unique second
    | small noCapitals => exact absurd first.isInfix noCapitals
  | small noCapitals first =>
    cases second with
    | capitals second => exact absurd second.isInfix noCapitals
    | small _ second => exact first.unique second

theorem lengthPosition_eq_some : lengthPosition data = some position ↔ LengthAt data position := by
  unfold lengthPosition
  cases capitals : find data (ascii "Content-Length:") 0 with
  | none =>
    rw [Option.none_or, find_eq_some (by decide)]
    have absent := find_eq_none.mp capitals
    refine ⟨.small absent, fun found => ?_⟩
    cases found with
    | capitals first => exact absurd first.isInfix absent
    | small _ first => exact first
  | some found =>
    have first := (find_eq_some (by decide)).mp capitals
    rw [Option.some_or, Option.some.injEq]
    constructor
    · rintro rfl
      exact .capitals first
    · exact fun other => LengthAt.unique (.capitals first) other

theorem contains_iff {pattern : Text} : contains data pattern = true ↔ pattern <:+: data := by
  unfold contains
  cases found : find data pattern 0 with
  | none => simpa using find_eq_none.mp found
  | some position =>
    simp only [Option.isSome_some, true_iff]
    by_contra absent
    rw [find_eq_none.mpr absent] at found
    cases found

theorem find_headerTerminator :
    find data headerTerminator 0 = some headerEnd ↔ FirstAt headerTerminator data headerEnd :=
  find_eq_some (by decide)

theorem chunkedComplete_iff : chunkedComplete data = true ↔
    (ascii "Transfer-Encoding: chunked" <:+: data ∨
        ascii "transfer-encoding: chunked" <:+: data) ∧ ascii "\r\n0\r\n\r\n" <:+: data := by
  simp only [chunkedComplete, Bool.and_eq_true, Bool.or_eq_true, contains_iff]

theorem LooksComplete.head (looks : LooksComplete data) : headerTerminator <:+: data := by
  cases looks with
  | length head => exact head.isInfix
  | chunked head => exact head.isInfix

/-- With a length field in the header block only its number counts. -/
theorem looksComplete_length_iff (head : FirstAt headerTerminator data headerEnd)
    (field : LengthAt data position) (inside : position < headerEnd) :
    LooksComplete data ↔ ∃ number, contentLength data headerEnd position = some number ∧
      (headerEnd + 4 + number) % 2 ^ 64 ≤ data.length := by
  constructor
  · intro looks
    cases looks with
    | length other otherField _ reads reached =>
      cases head.unique other
      cases field.unique otherField
      exact ⟨_, reads, reached⟩
    | chunked other noLength =>
      cases head.unique other
      exact absurd inside (Nat.not_lt.mpr (noLength position field))
  · rintro ⟨number, reads, reached⟩
    exact .length head field inside reads reached

/-- Without one the announcement of chunks and the mark of the last one do. -/
theorem looksComplete_chunked_iff (head : FirstAt headerTerminator data headerEnd)
    (noLength : ∀ position, LengthAt data position → headerEnd ≤ position) :
    LooksComplete data ↔ (ascii "Transfer-Encoding: chunked" <:+: data ∨
      ascii "transfer-encoding: chunked" <:+: data) ∧ ascii "\r\n0\r\n\r\n" <:+: data := by
  constructor
  · intro looks
    cases looks with
    | length other field inside =>
      cases head.unique other
      exact absurd inside (Nat.not_lt.mpr (noLength _ field))
    | chunked _ _ announced marked => exact ⟨announced, marked⟩
  · rintro ⟨announced, marked⟩
    exact .chunked head noLength announced marked

/-- The check of `OnRecv` in terms of the bytes. -/
theorem complete_iff : complete data = true ↔ LooksComplete data := by
  unfold complete
  cases ends : find data headerTerminator 0 with
  | none => exact ⟨nofun, fun looks => absurd looks.head (find_eq_none.mp ends)⟩
  | some headerEnd =>
    have head := find_headerTerminator.mp ends
    dsimp only
    cases seen : (lengthPosition data).filter (· < headerEnd) with
    | some clPos =>
      obtain ⟨found, inside⟩ := Option.filter_eq_some_iff.mp seen
      rw [looksComplete_length_iff head (lengthPosition_eq_some.mp found)
        (decide_eq_true_iff.mp inside)]
      cases reads : contentLength data headerEnd clPos with
      | none => simp [reads]
      | some number => simp [reads]
    | none =>
      have noLength : ∀ position, LengthAt data position → headerEnd ≤ position := by
        intro position field
        have outside := Option.filter_eq_none_iff.mp seen position
          (lengthPosition_eq_some.mpr field)
        simpa using outside
      rw [looksComplete_chunked_iff head noLength]
      exact chunkedComplete_iff

/-- The first line has a status code. -/
def HasStatus (data : Text) : Prop := ∃ code, statusCode data = .ok code

instance (data : Text) : Decidable (LooksComplete data) := decidable_of_iff _ complete_iff

instance (data : Text) : Decidable (HasStatus data) :=
  match read : statusCode data with
  | .ok code => .isTrue ⟨code, read⟩
  | .error _ => .isFalse fun ⟨_, other⟩ => nomatch read.symm.trans other

/-- What `ParseResponse` reads. -/
theorem parseResponse_cases (data : Text) :
    (∃ error, parseResponse data = .onError error ∧
      ¬ (headerTerminator <:+: data ∧ HasStatus data)) ∨
    ∃ headerEnd code headers, FirstAt headerTerminator data headerEnd ∧ HasStatus data ∧
      parseResponse data = .onResponse code headers (data.drop (headerEnd + 4)) := by
  unfold parseResponse
  cases ends : find data headerTerminator 0 with
  | none =>
    refine .inl ⟨_, rfl, fun whole => ?_⟩
    exact find_eq_none.mp ends whole.1
  | some headerEnd =>
    have head := find_headerTerminator.mp ends
    cases status : statusCode data with
    | error error =>
      refine .inl ⟨error, rfl, ?_⟩
      rintro ⟨-, code, readable⟩
      rw [status] at readable
      cases readable
    | ok code => exact .inr ⟨headerEnd, code, _, head, ⟨code, status⟩, rfl⟩

end Bytes

namespace UpstreamSession

variable {stream : Text} {state next : UpstreamSession} {action : UpstreamAction}

/-- What has been received when a completion is looked at. -/
def fed (state : UpstreamSession) : UpstreamAction → Text
  | .received data _ => state.recvBuffer ++ data
  | _ => state.recvBuffer

/-- Whether a response is read at a completion. -/
def Reads (state : UpstreamSession) : UpstreamAction → Prop
  | .received data _ => LooksComplete (state.recvBuffer ++ data)
  | .closedByUpstream => True
  | _ => False

instance (state : UpstreamSession) : DecidablePred state.Reads
  | .received data _ => inferInstanceAs (Decidable (LooksComplete (state.recvBuffer ++ data)))
  | .closedByUpstream => .isTrue trivial
  | .connected .. | .sent .. | .recvFailed _ => .isFalse id

/-- A session that has called nothing yet. -/
structure Fresh (state : UpstreamSession) : Prop where
  calls : state.calls = []
  ended : state.ended = false

/-- A session that has called at most `on_error`. -/
structure Unanswered (state : UpstreamSession) : Prop where
  calls : ∀ code headers body, .onResponse code headers body ∉ state.calls
  ended : state.ended = false

/-- A step that calls at most `on_error` and does not look at what has been received. -/
structure Quiet (state next : UpstreamSession) : Prop where
  recvBuffer : next.recvBuffer = state.recvBuffer
  unanswered : next.Unanswered
  fresh : next.phase ≠ .closed → next.Fresh

theorem Fresh.unanswered (fresh : state.Fresh) : state.Unanswered :=
  ⟨by simp [fresh.calls], fresh.ended⟩

theorem fail_quiet (fresh : state.Fresh) (error : Text) : state.Quiet (state.fail error) :=
  ⟨rfl, ⟨by simp [fail, finish, fresh.calls], fresh.ended⟩, fun opened => absurd rfl opened⟩

theorem phase_quiet (fresh : state.Fresh) (phase : UpstreamPhase) :
    state.Quiet { state with phase } :=
  ⟨rfl, ⟨fresh.unanswered.calls, fresh.ended⟩, fun _ => ⟨fresh.calls, fresh.ended⟩⟩

theorem startRecv_quiet (fresh : state.Fresh) (sqe : Bool) :
    state.Quiet (state.startRecv sqe) := by
  cases sqe with
  | true => exact phase_quiet fresh _
  | false => exact fail_quiet fresh _

theorem sendRequest_quiet (fresh : state.Fresh) (allocated sqe : Bool) :
    state.Quiet (state.sendRequest allocated sqe) := by
  unfold sendRequest
  split_ifs
  · exact fail_quiet fresh _
  · exact phase_quiet fresh _
  · exact fail_quiet fresh _

theorem onConnect_quiet (fresh : state.Fresh) (failure : Option Text) (allocated sqe : Bool) :
    state.Quiet (state.onConnect failure allocated sqe) := by
  cases failure with
  | none => exact sendRequest_quiet fresh allocated sqe
  | some reason => exact fail_quiet fresh _

theorem onSend_quiet (fresh : state.Fresh) (failure : Option Text) (sqe : Bool) :
    state.Quiet (state.onSend failure sqe) := by
  cases failure with
  | none => exact startRecv_quiet fresh sqe
  | some reason => exact fail_quiet fresh _

/-- What a step of a session that has called nothing yet does. -/
structure Outcome (state : UpstreamSession) (action : UpstreamAction) (next : UpstreamSession) :
    Prop where
  recvBuffer : next.recvBuffer = state.fed action
  read : state.Reads action → next.calls = [parseResponse (state.fed action)] ∧
    next.ended = decide (action = .closedByUpstream)
  unread : ¬ state.Reads action → next.Unanswered
  fresh : next.phase ≠ .closed → next.Fresh

theorem Quiet.outcome (quiet : state.Quiet next) (unread : ¬ state.Reads action)
    (same : state.fed action = state.recvBuffer) : state.Outcome action next :=
  ⟨quiet.recvBuffer.trans same.symm, fun reads => absurd reads unread, fun _ => quiet.unanswered,
    quiet.fresh⟩

theorem onRecv_outcome (fresh : state.Fresh) (data : Text) (sqe : Bool) :
    state.Outcome (.received data sqe) (state.onRecv data sqe) := by
  have grown : Fresh { state with recvBuffer := state.recvBuffer ++ data } :=
    ⟨fresh.calls, fresh.ended⟩
  unfold onRecv
  dsimp only
  split_ifs with looks
  · refine ⟨rfl, fun _ => ⟨?_, fresh.ended⟩, fun unread => ?_, fun opened => absurd rfl opened⟩
    · rw [finish, fresh.calls]
      rfl
    · exact absurd (complete_iff.mp looks) unread
  · have quiet := startRecv_quiet grown sqe
    refine ⟨quiet.recvBuffer, fun reads => ?_, fun _ => quiet.unanswered, quiet.fresh⟩
    exact absurd (complete_iff.mpr reads) looks

theorem onEof_outcome (fresh : state.Fresh) :
    state.Outcome .closedByUpstream state.onEof := by
  have calls : state.onEof.calls = [parseResponse state.recvBuffer] := by
    rw [onEof, finish, fresh.calls]
    rfl
  exact ⟨rfl, fun _ => ⟨calls, rfl⟩, fun unread => absurd trivial unread,
    fun opened => absurd rfl opened⟩

/-- The invariant of all runs. -/
structure Waiting (stream : Text) (state : UpstreamSession) : Prop where
  received : state.recvBuffer <+: stream
  fresh : state.phase ≠ .closed → state.Fresh

/-- Only a session that is not closed takes steps. -/
theorem step_outcome (waiting : state.Waiting stream)
    (transition : step stream state action = some next) :
    state.Fresh ∧ state.Outcome action next ∧ state.fed action <+: stream := by
  cases action with
  | connected failure allocated sqe =>
    obtain ⟨phase, taken⟩ := Option.ite_none_right_eq_some.mp transition
    cases taken
    have fresh := waiting.fresh (by simp [phase])
    exact ⟨fresh, (onConnect_quiet fresh failure allocated sqe).outcome id rfl, waiting.received⟩
  | sent failure sqe =>
    obtain ⟨phase, taken⟩ := Option.ite_none_right_eq_some.mp transition
    cases taken
    have fresh := waiting.fresh (by simp [phase])
    exact ⟨fresh, (onSend_quiet fresh failure sqe).outcome id rfl, waiting.received⟩
  | received data sqe =>
    obtain ⟨⟨phase, -, sent⟩, taken⟩ := Option.ite_none_right_eq_some.mp transition
    cases taken
    have fresh := waiting.fresh (by simp [phase])
    exact ⟨fresh, onRecv_outcome fresh data sqe, sent⟩
  | closedByUpstream =>
    obtain ⟨phase, taken⟩ := Option.ite_none_right_eq_some.mp transition
    cases taken
    have fresh := waiting.fresh (by simp [phase])
    exact ⟨fresh, onEof_outcome fresh, waiting.received⟩
  | recvFailed reason =>
    obtain ⟨phase, taken⟩ := Option.ite_none_right_eq_some.mp transition
    cases taken
    have fresh := waiting.fresh (by simp [phase])
    exact ⟨fresh, (fail_quiet fresh _).outcome id rfl, waiting.received⟩

theorem step_waiting (waiting : state.Waiting stream)
    (transition : step stream state action = some next) : next.Waiting stream := by
  obtain ⟨-, outcome, received⟩ := step_outcome waiting transition
  exact ⟨outcome.recvBuffer ▸ received, outcome.fresh⟩

theorem start_waiting (stream : Text) : Waiting stream {} :=
  ⟨List.nil_prefix, fun _ => ⟨rfl, rfl⟩⟩

theorem reachable_waiting {Admits : UpstreamSession → UpstreamAction → Prop}
    (reachable : (system stream).Reachable Admits state) : state.Waiting stream := by
  refine reachable.invariant (Waiting stream) ?_ ?_
  · rintro _ rfl
    exact start_waiting stream
  · intro state action next waiting _ transition
    exact step_waiting waiting transition

/-- The actions up to the first receive. -/
def requestActions : List UpstreamAction := [.connected none true true, .sent none true]

end UpstreamSession

end UringServer.Web
