import UringServer.Buffer.BufferPool
import UringServer.Web.HttpMessage
import UringServer.Web.UpstreamSession

/-!
# The sizes that the serializers ask for

`HttpResponse::Build`, the two frame builders and `SendRequest` compute a length in
64 bits, narrow it to 32 bits for `Allocate` and for `Commit`, and write as many bytes
as they computed. A length from `2 ^ 32` on gets a buffer that is too small:
`Serializer.writes_past_buffer`.
-/

namespace UringServer.Web

open UringServer.Buffer.Pool UringServer.Semantics

/-- `SendBufferChunk::kDefaultChunkSize`. -/
def defaultChunkSize : UInt32 := 4 * 1024 * 1024

/-- A `BufferPool` built with the default arguments. -/
def newPool : BufferPool where
  chunkSize := defaultChunkSize
  maxChunks := 256

/-- The first buffer of a new pool; its chunk holds zeros. -/
def firstBuffer (fresh : ChunkPtr) : Allocate := fun size =>
  match (newPool.allocate size 0 fresh).1 with
  | .ok _ => allocateZeros size
  | .error _ => none

/-- The first buffer is refused exactly if it is larger than a chunk. -/
theorem firstBuffer_eq (fresh : ChunkPtr) (size : UInt32) :
    firstBuffer fresh size = if size ≤ defaultChunkSize then allocateZeros size else none := by
  unfold firstBuffer
  by_cases fits : size ≤ defaultChunkSize
  · have opens : ¬ size > defaultChunkSize := UInt32.not_lt.mpr fits
    simp [BufferPool.allocate, BufferPool.flushPendingGc, BufferPool.openBack,
      BufferPool.acquireChunk, SendBufferChunk.openBuffer, newPool, opens, fits]
  · have refuses : size > defaultChunkSize := UInt32.not_le.mp fits
    simp [BufferPool.allocate, BufferPool.flushPendingGc, BufferPool.openBack,
      BufferPool.acquireChunk, SendBufferChunk.openBuffer, newPool, refuses, fits]

/-- What a serializer has done with its buffer: the number of bytes that it was given, the number
of those it has written from its start on, and the number it has committed. -/
structure Serialization where
  allocated : Nat
  copied : Nat
  committed : UInt32

namespace Serialization

/-- The buffer has as many bytes as are written and committed. -/
structure Exact (done : Serialization) : Prop where
  copied : done.copied = done.allocated
  committed : done.committed.toNat = done.allocated

/-- Nothing is written past the buffer. -/
def Inside (done : Serialization) : Prop := done.copied ≤ done.allocated

end Serialization

/-- A call of one of the serializers. -/
inductive Serializer where
  /-- `HttpResponse::Build`. -/
  | build (response : HttpResponse) (date : Text)
  /-- `HttpSession::BuildWsFrame`. -/
  | buildWsFrame (opcode : WsOpcode) (payload : Text)
  /-- `servergame::BuildWsTextFrame`. -/
  | buildWsTextFrame (text : Text)
  /-- `UpstreamSession::SendRequest`, with whether the ring has an entry for the send. -/
  | sendRequest (session : UpstreamSession) (pendingRequest : Text) (sqe : Bool)

namespace Serializer

/-- The number of bytes that are to be written. -/
def length : Serializer → Nat
  | .build response date => (response.serialize date).length
  | .buildWsFrame _ payload => headerSize payload.length + payload.length
  | .buildWsTextFrame text => headerSize text.length + text.length
  | .sendRequest _ pendingRequest _ => pendingRequest.length

/-- `Allocate`, the copy and `Commit`. -/
def write (allocate : Allocate) (serializer : Serializer) : Option Serialization :=
  let total := UInt32.ofNat serializer.length
  (allocate total).map fun writable =>
    { allocated := writable.val.length, copied := serializer.length, committed := total }

/-- The serializer returns no buffer or calls the callback for errors. -/
def ReportsFailure (allocate : Allocate) : Serializer → Prop
  | .build response date => response.build allocate date = none
  | .buildWsFrame opcode payload => Web.buildWsFrame allocate opcode payload = none
  | .buildWsTextFrame text => Web.buildWsTextFrame allocate text = none
  | .sendRequest session pendingRequest sqe =>
    ∃ error,
      (session.sendRequest (allocate (UInt32.ofNat pendingRequest.length)).isSome sqe).calls =
        session.calls ++ [.onError error]

variable {allocate : Allocate} {serializer : Serializer} {done : Serialization}

/-- Whether the bytes that were written are handed on. -/
def queued : Serializer → Bool
  | .sendRequest _ _ sqe => sqe
  | _ => true

theorem write_eq_none_iff :
    serializer.write allocate = none ↔ allocate (UInt32.ofNat serializer.length) = none :=
  Option.map_eq_none_iff

/-- A failure is reported for want of a buffer, or of a place in the ring. -/
theorem reportsFailure_iff :
    serializer.ReportsFailure allocate ↔
      allocate (UInt32.ofNat serializer.length) = none ∨ serializer.queued = false := by
  cases serializer with
  | build response date => simp [ReportsFailure, HttpResponse.build, length, queued]
  | buildWsFrame opcode payload =>
    simp [ReportsFailure, Web.buildWsFrame, buildFrame, length, queued]
  | buildWsTextFrame text =>
    simp [ReportsFailure, Web.buildWsTextFrame, buildFrame, length, queued]
  | sendRequest session pendingRequest sqe =>
    simp only [ReportsFailure, length, queued]
    cases allocate (UInt32.ofNat pendingRequest.length) with
    | none => simp [UpstreamSession.sendRequest, UpstreamSession.fail, UpstreamSession.finish]
    | some writable =>
      cases sqe <;>
        simp [UpstreamSession.sendRequest, UpstreamSession.fail, UpstreamSession.finish]

theorem write_sizes (written : serializer.write allocate = some done) :
    done.allocated = serializer.length % 2 ^ 32 ∧ done.copied = serializer.length ∧
      done.committed.toNat = serializer.length % 2 ^ 32 := by
  obtain ⟨writable, _, rfl⟩ := Option.map_eq_some_iff.mp written
  exact ⟨writable.property.trans UInt32.toNat_ofNat', rfl, UInt32.toNat_ofNat'⟩

theorem exact_iff (written : serializer.write allocate = some done) :
    done.Exact ↔ serializer.length < 2 ^ 32 := by
  obtain ⟨allocated, copied, committed⟩ := write_sizes written
  constructor
  · intro exact_
    have same := exact_.copied
    rw [allocated, copied] at same
    exact same ▸ Nat.mod_lt _ (by decide)
  · intro below
    rw [Nat.mod_eq_of_lt below] at allocated committed
    exact ⟨copied.trans allocated.symm, committed.trans allocated.symm⟩

theorem inside_iff (written : serializer.write allocate = some done) :
    done.Inside ↔ serializer.length < 2 ^ 32 := by
  obtain ⟨allocated, copied, _⟩ := write_sizes written
  rw [Serialization.Inside, allocated, copied]
  omega

/-- A serializer reports a failure or has allocated as many bytes as it copies and commits exactly
if `Allocate` gives nothing, the ring has no entry for the send or the length is below `2 ^ 32`;
and it writes past no buffer exactly if it gets none or the length is below `2 ^ 32`. -/
theorem allocates_exactly_iff (allocate : Allocate) (serializer : Serializer) :
    ((serializer.ReportsFailure allocate ∨ ∃ done ∈ serializer.write allocate, done.Exact) ↔
      allocate (UInt32.ofNat serializer.length) = none ∨ serializer.queued = false ∨
        serializer.length < 2 ^ 32) ∧
    ((∀ done ∈ serializer.write allocate, done.Inside) ↔
      allocate (UInt32.ofNat serializer.length) = none ∨ serializer.length < 2 ^ 32) := by
  rw [reportsFailure_iff, ← write_eq_none_iff]
  cases written : serializer.write allocate with
  | none => simp
  | some done => simp [exact_iff written, inside_iff written]

/-- A length that is narrowed to one that fits into a chunk gets the first buffer of a pool, and
more is written than the buffer holds. -/
theorem past_firstBuffer {serializer : Serializer} (fresh : ChunkPtr)
    (queued : serializer.queued = true) (wrapped : 2 ^ 32 ≤ serializer.length)
    (fits : serializer.length % 2 ^ 32 ≤ defaultChunkSize.toNat) :
    ¬ serializer.ReportsFailure (firstBuffer fresh) ∧
      ∃ done ∈ serializer.write (firstBuffer fresh), ¬ done.Exact ∧ ¬ done.Inside := by
  have narrowed : UInt32.ofNat serializer.length ≤ defaultChunkSize := by
    rw [UInt32.le_iff_toNat_le, UInt32.toNat_ofNat']
    exact fits
  obtain ⟨done, written⟩ : ∃ done, serializer.write (firstBuffer fresh) = some done := by
    rw [write, firstBuffer_eq, if_pos narrowed]
    exact ⟨_, rfl⟩
  refine ⟨?_, done, written, ?_, ?_⟩
  · simp [reportsFailure_iff, ← write_eq_none_iff, written, queued]
  · rw [exact_iff written]
    exact Nat.not_lt.mpr wrapped
  · rw [inside_iff written]
    exact Nat.not_lt.mpr wrapped

/-- With a body of `2 ^ 32` bytes each serializer writes past a buffer of a new pool. -/
theorem writes_past_buffer :
    ∃ body : Text, ∀ serializer ∈
        [.build { body } (ascii "Sun, 06 Nov 1994 08:49:37 GMT"), .buildWsFrame .kBinary body,
          .buildWsTextFrame body, Serializer.sendRequest {} body true],
      ¬ serializer.ReportsFailure (firstBuffer 0) ∧
      ∃ done ∈ serializer.write (firstBuffer 0), ¬ done.Exact ∧ ¬ done.Inside := by
  obtain ⟨body, size⟩ : ∃ body : Text, body.length = 2 ^ 32 :=
    ⟨List.replicate (2 ^ 32) 0, List.length_replicate⟩
  have header : headerSize (2 ^ 32) = 10 := rfl
  have head : HttpResponse.headLength { body } (ascii "Sun, 06 Nov 1994 08:49:37 GMT") ≤ 143 := by
    have digits : (decimal body.length).length ≤ 10 :=
      length_decimal_le (by decide) (by rw [size]; decide)
    have date : (ascii "Sun, 06 Nov 1994 08:49:37 GMT").length = 29 := rfl
    have status : (decimal HttpStatus.kOk.code).length +
        (ascii (httpStatusToString .kOk)).length = 5 := by decide
    refine (HttpResponse.headLength_le _ _).trans ?_
    simp only [List.map_nil, List.sum_nil, List.length_nil]
    omega
  have past : ∀ serializer : Serializer, serializer.queued = true →
      2 ^ 32 ≤ serializer.length ∧ serializer.length ≤ 2 ^ 32 + 143 → _ :=
    fun serializer queued length => past_firstBuffer 0 queued length.1 (by
      have chunk : defaultChunkSize.toNat = 4194304 := rfl
      omega)
  refine ⟨body, List.forall_mem_cons.mpr ⟨past _ rfl ?_, List.forall_mem_cons.mpr ⟨past _ rfl ?_,
    List.forall_mem_cons.mpr ⟨past _ rfl ?_, List.forall_mem_singleton.mpr (past _ rfl ?_)⟩⟩⟩⟩
  · rw [length, HttpResponse.length_serialize, size]
    omega
  · rw [length, size, header]
    omega
  · rw [length, size, header]
    omega
  · rw [length, size]
    omega

end Serializer

end UringServer.Web
