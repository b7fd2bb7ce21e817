import Mathlib.Data.Fintype.EquivFin
import UringServer.Buffer.PoolShape

/-!
# Whether a `BufferPool` can serve the next request

A chunk goes back to `free_chunks_` only if it is full when its last buffer is
released. A chunk that is partly used then stays active at its fill level, and
once such chunks are all the pool may have, requests fail with nothing handed
out: `allocate_fails_after_release`. `Serves` says exactly when every request
that fits a chunk succeeds.
-/

namespace UringServer.Buffer.Pool

open UringServer.Semantics

variable {Thread : Type} [DecidableEq Thread] {state : State Thread}

/-- A chunk is free or about to be, another one may be built, or the last active
one is empty. In a pool of the largest chunk size the sum in `Open` never exceeds
the size, so the last active chunk always takes the request. -/
def Serves (pool : BufferPool) : Prop :=
  pool.free ≠ [] ∨ (∃ ptr ∈ pool.pendingGc, ptr ∈ pool.active) ∨
    pool.active.length < pool.maxChunks.toNat ∨
    ∃ ptr, pool.active.getLast? = some ptr ∧
      ((pool.chunks ptr).offset = 0 ∨ pool.chunkSize = 4294967295)

variable {pool : BufferPool}

theorem free_of_moveToFree {ptr : ChunkPtr}
    (available : pool.free ≠ [] ∨ ptr ∈ pool.active) : (pool.moveToFree ptr).free ≠ [] := by
  by_cases active : ptr ∈ pool.active
  · rw [BufferPool.moveToFree_of_active active]
    simp only
    split
    case isTrue => simp
    case isFalse crowded =>
      rintro none
      simp [none, maxFreeChunks] at crowded
  · rw [BufferPool.moveToFree_of_not_active active]
    exact available.resolve_right active

/-- A complete flush that meets an active chunk, or a free one, leaves a free one. -/
theorem free_of_flushPendingGc {visible : Nat} (whole : pool.pendingGc.length ≤ visible)
    (available : pool.free ≠ [] ∨ ∃ ptr ∈ pool.pendingGc, ptr ∈ pool.active) :
    (pool.flushPendingGc visible).free ≠ [] := by
  induction visible generalizing pool with
  | zero =>
    have none : pool.pendingGc = [] := List.eq_nil_of_length_eq_zero (by omega)
    rw [BufferPool.flushPendingGc_nil none]
    simpa [none] using available
  | succ visible ih =>
    cases pending : pool.pendingGc with
    | nil =>
      rw [BufferPool.flushPendingGc_nil pending]
      simpa [pending] using available
    | cons ptr rest =>
      rw [BufferPool.flushPendingGc_cons pending]
      rw [pending, List.length_cons] at whole
      apply ih
      · rw [BufferPool.moveToFree_pendingGc]
        simp only
        omega
      · rcases available with free | ⟨other, member, active⟩
        · exact .inl (free_of_moveToFree (.inl free))
        · by_cases first : ptr ∈ pool.active
          · exact .inl (free_of_moveToFree (.inr first))
          · have later : other ∈ rest := by
              rw [pending, List.mem_cons] at member
              exact member.resolve_left (by rintro rfl; exact first active)
            rw [BufferPool.moveToFree_of_not_active (by exact first)]
            exact .inr ⟨other, later, active⟩

/-- A flush with nothing to move only shortens the deferred list. -/
theorem flushPendingGc_of_none (visible : Nat) (none : ∀ ptr ∈ pool.pendingGc, ptr ∉ pool.active) :
    ∃ left, pool.flushPendingGc visible = { pool with pendingGc := left } := by
  induction visible generalizing pool with
  | zero => exact ⟨pool.pendingGc, rfl⟩
  | succ visible ih =>
    cases pending : pool.pendingGc with
    | nil =>
      rw [BufferPool.flushPendingGc_nil pending]
      exact ⟨pool.pendingGc, rfl⟩
    | cons ptr rest =>
      have gone : ptr ∉ pool.active := none ptr (by simp [pending])
      rw [BufferPool.flushPendingGc_cons pending,
        BufferPool.moveToFree_of_not_active (by exact gone)]
      apply ih
      intro other later
      exact none other (by simp [pending, later])

theorem openBack_eq_none_iff {ptr : ChunkPtr} {size : UInt32}
    (back : pool.active.getLast? = some ptr) :
    pool.openBack size = none ↔ pool.chunkSize < (pool.chunks ptr).offset + size := by
  unfold BufferPool.openBack SendBufferChunk.openBuffer
  rw [back]
  simp

/-- A request that fits a chunk succeeds once a chunk can be acquired. -/
theorem allocate_ok_of_acquires (shape : Shape pool) {size : UInt32}
    {visible : Nat} {fresh : ChunkPtr} (unused : fresh ∉ pool.active ++ pool.free)
    (fits : size ≤ (pool.flushPendingGc visible).chunkSize)
    (acquires : (pool.flushPendingGc visible).acquireChunk fresh ≠ none) :
    ∃ buf next, pool.allocate size visible fresh = (.ok buf, next) := by
  have flushed := shape.flushPendingGc visible
  have stillUnused := BufferPool.unused_flushPendingGc visible unused
  have allocation := pool.allocate_allocation size visible fresh
  generalize pool.allocate size visible fresh = outcome at allocation ⊢
  cases allocation with
  | current opened => exact ⟨_, _, rfl⟩
  | exhausted noRoom refused => exact absurd refused acquires
  | another noRoom acquired opened => exact ⟨_, _, rfl⟩
  | @tooLarge ptr pool noRoom acquired larger =>
    obtain ⟨_, empty⟩ := flushed.acquireChunk stillUnused acquired
    have sameSize := BufferPool.acquireChunk_chunkSize acquired
    rw [openBack_eq_none_iff (List.getLast?_concat), empty, UInt32.zero_add] at larger
    rw [← sameSize] at fits
    exact absurd larger (UInt32.not_lt.mpr fits)

theorem exists_unused (pool : BufferPool) : ∃ fresh, fresh ∉ pool.active ++ pool.free := by
  obtain ⟨fresh, unused⟩ := Infinite.exists_notMem_finset (pool.active ++ pool.free).toFinset
  exact ⟨fresh, by simpa using unused⟩

/-- In a chunk that is filled above its start, some request that fits a chunk has no room. -/
theorem exists_size_without_room {offset chunkSize : UInt32} (started : offset ≠ 0)
    (bounded : offset ≤ chunkSize) (smaller : chunkSize ≠ 4294967295) :
    ∃ size, 0 < size ∧ size ≤ chunkSize ∧ chunkSize < offset + size := by
  have nonzero : offset.toNat ≠ 0 := by
    intro zero
    exact started (UInt32.toNat_inj.mp zero)
  have belowLimit : chunkSize.toNat ≠ 4294967295 := by
    intro limit
    exact smaller (UInt32.toNat_inj.mp limit)
  have inside : offset.toNat ≤ chunkSize.toNat := UInt32.le_iff_toNat_le.mp bounded
  have width := chunkSize.toNat_lt
  have rest : (chunkSize - offset + 1).toNat = chunkSize.toNat - offset.toNat + 1 := by
    rw [UInt32.toNat_add, UInt32.toNat_sub_of_le _ _ bounded, UInt32.toNat_one]
    omega
  refine ⟨chunkSize - offset + 1, ?_, ?_, ?_⟩
  · rw [UInt32.lt_iff_toNat_lt, rest, UInt32.toNat_zero]
    omega
  · rw [UInt32.le_iff_toNat_le, rest]
    omega
  · rw [UInt32.lt_iff_toNat_lt, UInt32.toNat_add, rest]
    omega

/-- A pool that does not serve refuses some request that fits a chunk. -/
theorem exists_refused (shape : Shape pool) (chunked : 0 < pool.maxChunks)
    (unserved : ¬ Serves pool) :
    ∃ size, 0 < size ∧ size ≤ pool.chunkSize ∧ ∀ visible fresh buf next,
      pool.allocate size visible fresh ≠ (.ok buf, next) := by
  simp only [Serves, not_or, not_exists, not_and, Nat.not_lt, ne_eq, not_not] at unserved
  obtain ⟨noFree, nonePending, atLimit, filled⟩ := unserved
  have limit : 0 < pool.maxChunks.toNat := UInt32.lt_iff_toNat_lt.mp chunked
  have nonempty : pool.active ≠ [] := List.ne_nil_of_length_pos (by omega)
  have back := List.getLast?_eq_some_getLast nonempty
  obtain ⟨started, smaller⟩ := filled _ back
  obtain ⟨size, positive, fits, noRoom⟩ :=
    exists_size_without_room started (shape.bounded _ (List.getLast_mem nonempty)) smaller
  refine ⟨size, positive, fits, ?_⟩
  intro visible fresh buf next succeeded
  obtain ⟨left, unmoved⟩ := flushPendingGc_of_none visible nonePending
  have full : { pool with pendingGc := left }.openBack size = none := by
    rw [openBack_eq_none_iff (by exact back)]
    exact noRoom
  have refused : { pool with pendingGc := left }.acquireChunk fresh = none :=
    BufferPool.acquireChunk_eq_none_iff.mpr ⟨noFree, atLimit⟩
  have allocation := pool.allocate_allocation size visible fresh
  rw [unmoved, succeeded] at allocation
  cases allocation with
  | current opened =>
    rw [full] at opened
    cases opened
  | another _ acquired _ =>
    rw [refused] at acquired
    cases acquired

/-- A pool that serves takes every request that fits a chunk, once the deferred
chunks are all seen. -/
theorem allocate_ok_of_serves (shape : Shape pool) (serves : Serves pool)
    {size : UInt32} {fresh : ChunkPtr} (fits : size ≤ pool.chunkSize)
    (unused : fresh ∉ pool.active ++ pool.free) :
    ∃ buf next, pool.allocate size pool.pendingGc.length fresh = (.ok buf, next) := by
  have sameSize := pool.flushPendingGc_chunkSize pool.pendingGc.length
  by_cases available : pool.free ≠ [] ∨ ∃ ptr ∈ pool.pendingGc, ptr ∈ pool.active
  · have free := free_of_flushPendingGc (Nat.le_refl _) available
    apply allocate_ok_of_acquires shape unused (by rwa [sameSize])
    rw [ne_eq, BufferPool.acquireChunk_eq_none_iff]
    exact fun refused => free refused.1
  · have rest : pool.active.length < pool.maxChunks.toNat ∨ ∃ ptr,
        pool.active.getLast? = some ptr ∧
          ((pool.chunks ptr).offset = 0 ∨ pool.chunkSize = 4294967295) := by
      rw [not_or] at available
      exact (serves.resolve_left available.1).resolve_left available.2
    have nonePending : ∀ ptr ∈ pool.pendingGc, ptr ∉ pool.active := by
      intro ptr pending active
      exact available (.inr ⟨ptr, pending, active⟩)
    obtain ⟨left, unmoved⟩ := flushPendingGc_of_none pool.pendingGc.length nonePending
    rcases rest with more | ⟨ptr, back, takes⟩
    · apply allocate_ok_of_acquires shape unused (by rwa [sameSize])
      rw [unmoved, ne_eq, BufferPool.acquireChunk_eq_none_iff]
      intro refused
      exact absurd refused.2 (Nat.not_le.mpr more)
    · have opens : { pool with pendingGc := left }.openBack size ≠ none := by
        rw [ne_eq, openBack_eq_none_iff (by exact back), UInt32.not_lt]
        rcases takes with empty | largest
        · simpa [empty] using fits
        · rw [UInt32.le_iff_toNat_le, largest]
          exact Nat.le_of_lt_succ (UInt32.toNat_lt _)
      have allocation := pool.allocate_allocation size pool.pendingGc.length fresh
      rw [unmoved] at allocation
      generalize pool.allocate size pool.pendingGc.length fresh = outcome at allocation ⊢
      cases allocation with
      | current opened => exact ⟨_, _, rfl⟩
      | exhausted noRoom refused => exact absurd noRoom opens
      | another noRoom acquired opened => exact ⟨_, _, rfl⟩
      | tooLarge noRoom acquired larger => exact absurd noRoom opens

/-- Every request that fits a chunk succeeds exactly when the pool `Serves`,
whatever was allocated and released before. -/
theorem allocate_succeeds_iff_serves (reachable : (system Thread).Reachable everyStep state)
    (chunked : 0 < state.pool.maxChunks) :
    (∀ size fresh, 0 < size → size ≤ state.pool.chunkSize →
      fresh ∉ state.pool.active ++ state.pool.free →
      ∃ buf next, state.pool.allocate size state.pool.pendingGc.length fresh = (.ok buf, next)) ↔
      Serves state.pool := by
  have shape := reachable_shape reachable
  constructor
  · intro succeeds
    by_contra unserved
    obtain ⟨size, positive, fits, refused⟩ := exists_refused shape chunked unserved
    obtain ⟨fresh, unused⟩ := exists_unused state.pool
    obtain ⟨buf, next, succeeded⟩ := succeeds size fresh positive fits unused
    exact refused _ fresh buf next succeeded
  · intro serves size fresh _ fits unused
    exact allocate_ok_of_serves shape serves fits unused

section Runs

/-- A pool of ten bytes a chunk after one request of four, whose buffer is released. -/
theorem allocate_succeeds_iff_serves_small :
    ∃ state : State (Fin 1), (system (Fin 1)).Reachable everyStep state ∧
      state.live = [] ∧ state.releasers 0 = .idle ∧
      ∀ size fresh, 0 < size → size ≤ 10 → fresh ∉ state.pool.active ++ state.pool.free →
        ∃ buf next,
          state.pool.allocate size state.pool.pendingGc.length fresh = (.ok buf, next) := by
  obtain ⟨state, executed, released, idle, size, limit, active⟩ : ∃ state : State (Fin 1),
      (system (Fin 1)).execute everyStep { pool := { chunkSize := 10, maxChunks := 2 } }
        [.allocate 4 0 0, .release 0 0, .checkFull 0] = some state ∧
      state.live = [] ∧ state.releasers 0 = .idle ∧ state.pool.chunkSize = 10 ∧
      state.pool.maxChunks = 2 ∧ state.pool.active = [0] :=
    ⟨_, rfl, rfl, rfl, rfl, rfl, rfl⟩
  have reachable := TransitionSystem.Reachable.execute (.initial (initial_pool 10 2)) executed
  have serves : Serves state.pool := .inr (.inr (.inl (by rw [active, limit]; decide)))
  refine ⟨state, reachable, released, idle, ?_⟩
  rw [← size]
  exact (allocate_succeeds_iff_serves reachable (by rw [limit]; decide)).mpr serves

/-- In a pool of one chunk of ten bytes, six are allocated and released. The chunk
was not full, so it keeps its fill level and a request of five fails. -/
theorem allocate_fails_after_release :
    ∃ state : State (Fin 1), (system (Fin 1)).Reachable everyStep state ∧
      state.pool.chunkSize = 10 ∧ state.pool.maxChunks = 1 ∧
      state.live = [] ∧ state.releasers 0 = .idle ∧ state.pool.pendingGc = [] ∧
      (state.pool.allocate 5 0 1).1 = .error .resourceExhausted := by
  refine TransitionSystem.exists_reachable (initial_pool 10 1)
    [.allocate 6 0 0, .release 0 0, .checkFull 0] ⟨_, rfl, fun _ => ?_⟩
  exact ⟨rfl, rfl, rfl, rfl, rfl, rfl⟩

end Runs

end UringServer.Buffer.Pool
