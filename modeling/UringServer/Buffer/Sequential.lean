import UringServer.Buffer.Spans

/-!
# A `BufferPool` used by one thread

With one thread a release is a single step: nothing runs between the decrement, the
`Full()` check and `OnChunkUnused`, whose `try_lock` succeeds. Each step is a run of
the pool with its threads, `Sequential.reachable_system`.

Sizes are any 32-bit numbers. `Open` compares a sum that wraps, so a request of
nearly `2 ^ 32` bytes can pass the comparison, and gets a buffer that leaves its
chunk: `allocate_outside_chunk`.
-/

namespace UringServer.Buffer.Pool

open UringServer.Semantics

/-- `SendBufferChunk::OnRelease` of the chunk at an address, with nothing in between. -/
def BufferPool.onRelease (pool : BufferPool) (ptr : ChunkPtr) : BufferPool :=
  let chunk := pool.chunks ptr
  let dropped := pool.setChunk ptr { chunk with refCount := chunk.refCount - 1 }
  if chunk.refCount = 1 ∧ chunk.full pool.chunkSize then dropped.moveToFree ptr else dropped

/-- The pool and the buffers handed out and not released. -/
structure Sequential where
  pool : BufferPool
  live : List SendBuffer := []

namespace Sequential

/-- A call of the one thread. -/
inductive Call where
  /-- `Allocate`, with the address of a chunk that may be built. -/
  | allocate (size : UInt32) (fresh : ChunkPtr)
  /-- The last reference to the buffer at a position goes away. -/
  | release (position : Nat)

/-- One call. -/
def step (state : Sequential) : Call → Option Sequential
  | .allocate size fresh =>
    if fresh ∈ state.pool.active ++ state.pool.free then
      none
    else
      match state.pool.allocate size state.pool.pendingGc.length fresh with
      | (.ok buf, pool) => some { pool, live := buf :: state.live }
      | (.error _, pool) => some { state with pool }
  | .release position =>
    (state.live[position]?).map fun buf =>
      { pool := state.pool.onRelease buf.owner, live := state.live.eraseIdx position }

/-- The histories of one thread with a new pool. -/
def system : TransitionSystem Sequential Call where
  Initial state := ∃ chunkSize maxChunks, state = { pool := { chunkSize, maxChunks } }
  step := step

theorem initial (chunkSize maxChunks : UInt32) :
    system.Initial { pool := { chunkSize, maxChunks } } := ⟨chunkSize, maxChunks, rfl⟩

/-- If the last active chunk lets a request through, the sum in `Open` is below `2 ^ 32`, and so is
the number of the buffers of that chunk. -/
def Unwrapped (state : Sequential) : Call → Prop
  | .allocate size _ => ∀ ptr ∈ state.pool.active.getLast?,
    (state.pool.chunks ptr).offset + size ≤ state.pool.chunkSize →
      (state.pool.chunks ptr).offset.toNat + size.toNat < 2 ^ 32 ∧
        held state.live ptr + 1 < 2 ^ 32
  | .release _ => True

instance (state : Sequential) (call : Call) : Decidable (Unwrapped state call) :=
  match call with
  | .allocate _ _ => Option.decidableForallMem _
  | .release _ => .isTrue trivial

/-- The buffer that a request gets: it has the size asked for, and ends inside of its chunk exactly
if the sum in `Open` does not wrap. -/
theorem allocate_span {pool next : BufferPool} {size : UInt32} {visible : Nat} {fresh : ChunkPtr}
    {buf : SendBuffer} (allocated : pool.allocate size visible fresh = (.ok buf, next)) :
    buf.allocSize = size ∧
      (buf.start.toNat + size.toNat ≤ pool.chunkSize.toNat ↔
        buf.start.toNat + size.toNat < 2 ^ 32) := by
  have opened : ∃ back : BufferPool, back.chunkSize = pool.chunkSize ∧
      back.openBack size = some (buf, next) := by
    have sameSize := pool.flushPendingGc_chunkSize visible
    have allocation := pool.allocate_allocation size visible fresh
    rw [allocated] at allocation
    cases allocation with
    | current opened => exact ⟨_, sameSize, opened⟩
    | another _ acquired opened =>
      have acquiredSize := BufferPool.acquireChunk_chunkSize acquired
      exact ⟨_, (by exact acquiredSize.trans sameSize), opened⟩
  obtain ⟨back, sameSize, opened⟩ := opened
  obtain ⟨ptr, _, fits, rfl, _⟩ := BufferPool.openBack_cases opened
  rw [sameSize] at fits
  refine ⟨rfl, ?_, ?_⟩
  · intro inside
    exact Nat.lt_of_le_of_lt inside pool.chunkSize.toNat_lt
  · intro unwrapped
    rw [← toNat_add_of_lt unwrapped]
    exact UInt32.le_iff_toNat_le.mp fits

/-- What holds between any two calls. -/
structure Sound (state : Sequential) : Prop where
  spans : Spans state.pool state.live
  flushed : state.pool.pendingGc = []

variable {state next : Sequential}

theorem openBack_pendingGc {pool next : BufferPool} {size : UInt32} {buf : SendBuffer}
    (opened : pool.openBack size = some (buf, next)) : next.pendingGc = pool.pendingGc := by
  obtain ⟨ptr, _, _, _, rfl⟩ := BufferPool.openBack_cases opened
  rfl

/-- A call of `Allocate` keeps the buffers apart if its sums do not wrap. -/
theorem Sound.allocate (sound : Sound state) {size : UInt32} {fresh : ChunkPtr}
    (unwrapped : Unwrapped state (.allocate size fresh))
    (transition : state.step (.allocate size fresh) = some next) : Sound next := by
  have noneDeferred := BufferPool.flushPendingGc_nil sound.flushed state.pool.pendingGc.length
  have allocation := state.pool.allocate_allocation size state.pool.pendingGc.length fresh
  rw [noneDeferred] at allocation
  simp only [step] at transition
  split at transition
  case isTrue => cases transition
  case isFalse unused =>
  generalize state.pool.allocate size state.pool.pendingGc.length fresh = outcome
    at allocation transition
  cases allocation with
  | current opened =>
    cases transition
    obtain ⟨ptr, back, fits, rfl, _⟩ := BufferPool.openBack_cases opened
    obtain ⟨below, countable⟩ := unwrapped ptr back fits
    exact ⟨sound.spans.openBack opened below countable,
      (openBack_pendingGc opened).trans sound.flushed⟩
  | exhausted _ _ =>
    cases transition
    exact sound
  | another _ acquired opened =>
    cases transition
    have ready := sound.spans.acquireChunk unused acquired
    have leaves := sound.spans.acquired unused acquired
    obtain ⟨ptr, back, _, rfl, _⟩ := BufferPool.openBack_cases opened
    -- The chunk was not active, so nothing of it is handed out.
    obtain rfl : _ = ptr := by simpa using back
    refine ⟨ready.openBack opened ?_ ?_,
      (openBack_pendingGc opened).trans (leaves.samePending.trans sound.flushed)⟩
    · simpa [leaves.unfilled] using size.toNat_lt
    · simp [sound.spans.inactive leaves.gone]
  | tooLarge _ acquired _ =>
    cases transition
    exact ⟨sound.spans.acquireChunk unused acquired,
      (sound.spans.acquired unused acquired).samePending.trans sound.flushed⟩

/-- A release gives a chunk back only with its last buffer. -/
theorem Sound.release (sound : Sound state) {position : Nat}
    (transition : state.step (.release position) = some next) : Sound next := by
  obtain ⟨buf, found, rfl⟩ := Option.map_eq_some_iff.mp transition
  have dropped := sound.spans.dropBuffer found
  obtain ⟨active, _⟩ := sound.spans.placed buf (List.mem_of_getElem? found)
  simp only [BufferPool.onRelease]
  split
  case isTrue last =>
    have counted := sound.spans.counted buf.owner active
    have fewer := held_eraseIdx found buf.owner
    rw [if_pos rfl] at fewer
    rw [last.1, UInt32.toNat_one] at counted
    refine ⟨dropped.moveToFree active (by omega), ?_⟩
    rw [BufferPool.moveToFree_pendingGc]
    exact sound.flushed
  case isFalse => exact ⟨dropped, sound.flushed⟩

theorem reachable_sound (reachable : system.Reachable Unwrapped state) : Sound state := by
  apply reachable.invariant Sound
  · rintro _ ⟨chunkSize, maxChunks, rfl⟩
    exact ⟨⟨⟨List.nodup_nil, by simp, by simp⟩, by simp, by simp, by simp, .nil⟩, rfl⟩
  · intro state call next sound unwrapped transition
    cases call with
    | allocate size fresh => exact sound.allocate unwrapped transition
    | release position => exact sound.release transition

/-- In every history of one thread in which no sum of an `Open` that succeeds wraps, every live
buffer lies inside of an active chunk and live buffers have no byte in common. A buffer that is
returned has the size asked for; it leaves its chunk as soon as the sum wraps. -/
theorem buffers_inside_chunks (reachable : system.Reachable Unwrapped state) :
    (∀ buf ∈ state.live, buf.owner ∈ state.pool.active ∧
      buf.start.toNat + buf.allocSize.toNat ≤ state.pool.chunkSize.toNat) ∧
    state.live.Pairwise SendBuffer.Apart ∧
    ∀ size visible fresh buf next,
      state.pool.allocate size visible fresh = (.ok buf, next) →
        buf.allocSize = size ∧
          (buf.start.toNat + buf.allocSize.toNat ≤ state.pool.chunkSize.toNat ↔
            buf.start.toNat + size.toNat < 2 ^ 32) := by
  have sound := reachable_sound reachable
  refine ⟨?_, sound.spans.apart, ?_⟩
  · intro buf member
    exact ⟨(sound.spans.placed buf member).1, sound.spans.inside member⟩
  · intro size visible fresh buf next allocated
    obtain ⟨rfl, inside⟩ := allocate_span allocated
    exact ⟨rfl, inside⟩

/-- A chunk is filled, emptied and given back, and then cut again; an empty buffer counts too. -/
theorem buffers_inside_chunks_reuse :
    ∃ state, system.Reachable Unwrapped state ∧
      state.live = [⟨0, 7, 0⟩, ⟨0, 0, 7⟩, ⟨1, 0, 3⟩] ∧
      state.live.Pairwise SendBuffer.Apart := by
  refine TransitionSystem.exists_reachable (initial 10 4)
    [.allocate 6 0, .allocate 4 1, .allocate 3 1, .release 1, .release 1, .allocate 11 2,
      .allocate 7 3, .allocate 0 3] ⟨_, rfl, ?_⟩
  intro reachable
  exact ⟨rfl, (buffers_inside_chunks reachable).2.1⟩

/-- Five bytes of a chunk of ten are taken. A request of `2 ^ 32 - 5` bytes brings the sum to zero
and gets a buffer that starts at five. -/
theorem allocate_outside_chunk :
    ∃ state, system.Reachable everyStep state ∧ state.pool.chunkSize = 10 ∧
      state.live = [⟨0, 5, 4294967291⟩, ⟨0, 0, 5⟩] := by
  refine TransitionSystem.exists_reachable (initial 10 4)
    [.allocate 5 0, .allocate 4294967291 1] ⟨_, rfl, fun _ => ?_⟩
  exact ⟨rfl, rfl⟩

/-- The state of the pool with its threads in which no release is under way. -/
def settled (state : Sequential) : State Unit := { pool := state.pool, live := state.live }

theorem setReleaser_unit (state : State Unit) (releaser : Releaser) :
    state.setReleaser () releaser = { state with releasers := fun _ => releaser } := by
  unfold State.setReleaser
  congr 1

/-- A release of one thread is up to three steps of the pool with its threads. -/
theorem reachable_release {position : Nat} {buf : SendBuffer}
    (found : state.live[position]? = some buf)
    (reachable : (Pool.system Unit).Reachable everyStep state.settled) :
    (Pool.system Unit).Reachable everyStep (settled
      { pool := state.pool.onRelease buf.owner, live := state.live.eraseIdx position }) := by
  have dropped : (Pool.system Unit).step state.settled (.release () position) =
      some { state.settled.dropBuffer position buf.owner with
        releasers := fun _ => if (state.pool.chunks buf.owner).refCount = 1 then
          .checking buf.owner else .idle } := by
    simp only [Pool.system, Pool.step, setReleaser_unit]
    simp only [settled, found]
    rfl
  have released := TransitionSystem.Reachable.step reachable trivial dropped
  by_cases last : (state.pool.chunks buf.owner).refCount = 1
  · simp only [if_pos last] at released
    have checked : (Pool.system Unit).step { state.settled.dropBuffer position buf.owner with
        releasers := fun _ => .checking buf.owner } (.checkFull ()) =
        some { state.settled.dropBuffer position buf.owner with
          releasers := fun _ => if (state.pool.chunks buf.owner).full state.pool.chunkSize then
            .unused buf.owner else .idle } := by
      simp [Pool.system, Pool.step, setReleaser_unit, State.dropBuffer, settled,
        SendBufferChunk.full]
    have looked := TransitionSystem.Reachable.step released trivial checked
    by_cases full : (state.pool.chunks buf.owner).full state.pool.chunkSize
    · simp only [if_pos full] at looked
      have given : (Pool.system Unit).step { state.settled.dropBuffer position buf.owner with
          releasers := fun _ => .unused buf.owner } (.chunkUnused () true) =
          some { state.settled.dropBuffer position buf.owner with
            pool := (state.settled.dropBuffer position buf.owner).pool.moveToFree buf.owner
            releasers := fun _ => .idle } := by
        simp [Pool.system, Pool.step, setReleaser_unit]
      have freed := TransitionSystem.Reachable.step looked trivial given
      simpa [settled, BufferPool.onRelease, last, full, State.dropBuffer] using freed
    · simp only [if_neg full] at looked
      simpa [settled, BufferPool.onRelease, last, full, State.dropBuffer] using looked
  · simp only [if_neg last] at released
    simpa [settled, BufferPool.onRelease, last, State.dropBuffer] using released

/-- A history of one thread is a run of the pool with its threads. -/
theorem reachable_system (reachable : system.Reachable everyStep state) :
    (Pool.system Unit).Reachable everyStep state.settled := by
  induction reachable with
  | initial valid =>
    obtain ⟨chunkSize, maxChunks, rfl⟩ := valid
    exact .initial (initial_pool chunkSize maxChunks)
  | @step state call next _ _ transition ih =>
    cases call with
    | allocate size fresh =>
      have allocates : (Pool.system Unit).step state.settled
          (.allocate size state.pool.pendingGc.length fresh) = some next.settled := by
        simp only [system, step] at transition
        simp only [Pool.system, Pool.step, settled]
        split at transition
        case isTrue => cases transition
        case isFalse unused =>
          rw [if_neg unused]
          split at transition
          case h_1 buf pool allocated =>
            cases transition
            rw [allocated]
          case h_2 error pool allocated =>
            cases transition
            rw [allocated]
      exact .step ih trivial allocates
    | release position =>
      obtain ⟨buf, found, rfl⟩ := Option.map_eq_some_iff.mp transition
      exact reachable_release found ih

end Sequential

end UringServer.Buffer.Pool
