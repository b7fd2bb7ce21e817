import UringServer.Buffer.BufferPool

/-!
# The shape of a `BufferPool`

The active and the free chunks are different ones, the free ones are empty, and
none is filled beyond its end. Every operation keeps that.
-/

namespace UringServer.Buffer.Pool

open UringServer.Semantics

/-- Active and free chunks are different chunks, free ones are empty, and no
chunk is filled beyond its end. -/
structure Shape (pool : BufferPool) : Prop where
  distinct : (pool.active ++ pool.free).Nodup
  empty : ∀ ptr ∈ pool.free, (pool.chunks ptr).offset = 0
  bounded : ∀ ptr ∈ pool.active, (pool.chunks ptr).offset ≤ pool.chunkSize

namespace Shape

variable {pool : BufferPool}

theorem not_mem_free (shape : Shape pool) {ptr : ChunkPtr} (member : ptr ∈ pool.active) :
    ptr ∉ pool.free := (List.nodup_append'.mp shape.distinct).2.2 member

/-- What is left of the active chunks without one of them. -/
theorem mem_active_erase (shape : Shape pool) {ptr other : ChunkPtr}
    (remains : other ∈ pool.active.erase ptr) : other ∈ pool.active ∧ other ≠ ptr := by
  have distinct := (List.nodup_append'.mp shape.distinct).1
  refine ⟨List.mem_of_mem_erase remains, ?_⟩
  rintro rfl
  exact distinct.not_mem_erase remains

theorem setChunk (shape : Shape pool) {ptr : ChunkPtr} {chunk : SendBufferChunk}
    (emptied : ptr ∈ pool.free → chunk.offset = 0)
    (fits : ptr ∈ pool.active → chunk.offset ≤ pool.chunkSize) :
    Shape (pool.setChunk ptr chunk) := by
  refine ⟨shape.distinct, ?_, ?_⟩
  · intro other member
    by_cases same : other = ptr
    · subst same
      simpa using emptied member
    · rw [BufferPool.setChunk_chunks_of_ne _ _ same]
      exact shape.empty other member
  · intro other member
    by_cases same : other = ptr
    · subst same
      simpa using fits member
    · rw [BufferPool.setChunk_chunks_of_ne _ _ same]
      exact shape.bounded other member

theorem moveToFree (shape : Shape pool) (ptr : ChunkPtr) : Shape (pool.moveToFree ptr) := by
  unfold BufferPool.moveToFree
  split
  case isFalse => exact shape
  case isTrue member =>
  obtain ⟨activeDistinct, freeDistinct, apart⟩ := List.nodup_append'.mp shape.distinct
  refine ⟨?_, ?_, ?_⟩
  · apply List.nodup_append'.mpr
    refine ⟨activeDistinct.erase ptr, ?_, ?_⟩
    · simp only
      split
      · exact List.nodup_append'.mpr ⟨freeDistinct, by simp, by
          simpa using shape.not_mem_free member⟩
      · exact freeDistinct
    · intro other remains
      obtain ⟨before, different⟩ := shape.mem_active_erase remains
      have unfreed := shape.not_mem_free before
      simp only
      split
      · simp [unfreed, different]
      · exact unfreed
  · intro other freed
    by_cases same : other = ptr
    · simp [same, BufferPool.setChunk, SendBufferChunk.reset]
    · have before : other ∈ pool.free := by
        simp only at freed
        split at freed
        · simpa [same] using freed
        · exact freed
      simpa [BufferPool.setChunk, Function.update_of_ne same] using shape.empty other before
  · intro other remains
    obtain ⟨before, different⟩ := shape.mem_active_erase remains
    simpa [BufferPool.setChunk, Function.update_of_ne different] using
      shape.bounded other before

theorem flushPendingGc (shape : Shape pool) (visible : Nat) :
    Shape (pool.flushPendingGc visible) := by
  apply BufferPool.flushPendingGc_induction _ visible shape
  intro pool ptr rest _ shape
  have shorter : Shape { pool with pendingGc := rest } :=
    ⟨shape.distinct, shape.empty, shape.bounded⟩
  exact shorter.moveToFree ptr

/-- The chunk that was acquired becomes the last active one, and is empty. -/
theorem acquireChunk (shape : Shape pool) {fresh ptr : ChunkPtr} {next : BufferPool}
    (unused : fresh ∉ pool.active ++ pool.free)
    (acquired : pool.acquireChunk fresh = some (ptr, next)) :
    Shape { next with active := next.active ++ [ptr] } ∧ (next.chunks ptr).offset = 0 := by
  rcases BufferPool.acquireChunk_cases acquired with ⟨rest, whole, rfl⟩ | ⟨none, rfl, rfl⟩
  · have atBack : (pool.chunks ptr).offset = 0 := shape.empty ptr (by simp [whole])
    have distinct := shape.distinct
    rw [whole] at distinct
    refine ⟨⟨?_, ?_, ?_⟩, atBack⟩
    · refine distinct.perm ?_
      simp only [List.append_assoc]
      exact List.Perm.append_left _ List.perm_append_comm
    · intro other member
      exact shape.empty other (by simp [whole, member])
    · intro other member
      rcases List.mem_append.mp member with earlier | last
      · exact shape.bounded other earlier
      · rw [List.mem_singleton.mp last]
        simp [atBack]
  · have built : Shape (pool.setChunk ptr {}) := shape.setChunk (by simp) (by simp)
    refine ⟨⟨?_, ?_, ?_⟩, by simp⟩
    · simpa [BufferPool.setChunk, none] using
        (List.nodup_append'.mpr ⟨shape.distinct, by simp, by simpa using unused⟩ :
          ((pool.active ++ pool.free) ++ [ptr]).Nodup)
    · exact built.empty
    · intro other member
      rcases List.mem_append.mp member with earlier | last
      · exact built.bounded other earlier
      · rw [List.mem_singleton.mp last]
        simp

theorem openBack (shape : Shape pool) {size : UInt32} {buf : SendBuffer} {next : BufferPool}
    (opened : pool.openBack size = some (buf, next)) : Shape next := by
  obtain ⟨ptr, back, fits, rfl, rfl⟩ := BufferPool.openBack_cases opened
  have member := List.mem_of_getLast? back
  exact shape.setChunk (fun freed => absurd freed (shape.not_mem_free member)) fun _ => fits

theorem allocate (shape : Shape pool) (size : UInt32) (visible : Nat) {fresh : ChunkPtr}
    (unused : fresh ∉ pool.active ++ pool.free) :
    Shape (pool.allocate size visible fresh).2 := by
  have flushed := shape.flushPendingGc visible
  have stillUnused := BufferPool.unused_flushPendingGc visible unused
  have allocation := pool.allocate_allocation size visible fresh
  generalize pool.allocate size visible fresh = outcome at allocation ⊢
  cases allocation with
  | current opened => exact flushed.openBack opened
  | exhausted noRoom refused => exact flushed
  | another noRoom acquired opened =>
    exact (flushed.acquireChunk stillUnused acquired).1.openBack opened
  | tooLarge noRoom acquired larger => exact (flushed.acquireChunk stillUnused acquired).1

end Shape

variable {Thread : Type} [DecidableEq Thread] {state : State Thread}

/-- The pool keeps its shape along every run. -/
theorem reachable_shape (reachable : (system Thread).Reachable everyStep state) :
    Shape state.pool := by
  apply reachable.invariant fun state => Shape state.pool
  · rintro _ ⟨chunkSize, maxChunks, rfl⟩
    exact ⟨List.nodup_nil, by simp, by simp⟩
  · intro state action next shape _ transition
    cases action with
    | allocate size visible fresh =>
      simp only [system, step] at transition
      split at transition
      case isTrue => cases transition
      case isFalse unused =>
        have allocated := shape.allocate size visible unused
        split at transition <;> cases transition <;> exact allocated
    | release thread position =>
      simp only [system, step] at transition
      split at transition <;> cases transition
      case h_1 buf idle found =>
        exact shape.setChunk (shape.empty buf.owner) (shape.bounded buf.owner)
    | checkFull thread =>
      simp only [system, step] at transition
      split at transition <;> cases transition
      exact shape
    | chunkUnused thread locked =>
      simp only [system, step] at transition
      split at transition <;> cases transition
      case h_1 ptr found =>
      cases locked with
      | true => exact shape.moveToFree ptr
      | false => exact ⟨shape.distinct, shape.empty, shape.bounded⟩

end UringServer.Buffer.Pool
