import UringServer.Buffer.Reclaim

/-!
# The limits of a `BufferPool`

`Capped` bounds both lists of chunks together: a chunk from `free_chunks_` only
changes lists, and a new one is built when there is no free one and fewer than
`max_chunks_` are active.

A request larger than a chunk takes a chunk before it fails, unless the pool is at
its limit. `CostsNothing` are the requests that cannot: `failed_allocate_unchanged_iff`.
-/

namespace UringServer.Buffer.Pool

open UringServer.Semantics

/-- The chunks of both lists are as many as allowed. -/
structure Capped (pool : BufferPool) : Prop where
  free : pool.free.length ≤ maxFreeChunks
  total : pool.active.length + pool.free.length ≤ pool.maxChunks.toNat

namespace Capped

variable {pool next : BufferPool} {ptr fresh : ChunkPtr}

theorem moveToFree (capped : Capped pool) (ptr : ChunkPtr) : Capped (pool.moveToFree ptr) := by
  by_cases active : ptr ∈ pool.active
  · rw [BufferPool.moveToFree_of_active active]
    have total := capped.total
    have removed := List.length_erase_of_mem active
    have nonempty := List.length_pos_of_mem active
    by_cases room : pool.free.length < maxFreeChunks
    · simp only [if_pos room]
      refine ⟨?_, ?_⟩
      · rw [List.length_append]
        exact room
      · simp only [List.length_append, List.length_singleton, removed,
          BufferPool.setChunk_maxChunks]
        omega
    · simp only [if_neg room]
      refine ⟨capped.free, ?_⟩
      simp only [removed, BufferPool.setChunk_maxChunks]
      omega
  · rw [BufferPool.moveToFree_of_not_active active]
    exact capped

theorem flushPendingGc (capped : Capped pool) (visible : Nat) :
    Capped (pool.flushPendingGc visible) := by
  apply BufferPool.flushPendingGc_induction _ visible capped
  intro pool ptr rest _ capped
  have shorter : Capped { pool with pendingGc := rest } := ⟨capped.free, capped.total⟩
  exact shorter.moveToFree ptr

/-- An acquired chunk was free, or there was none and one less than allowed. -/
theorem acquireChunk (capped : Capped pool)
    (acquired : pool.acquireChunk fresh = some (ptr, next)) :
    Capped { next with active := next.active ++ [ptr] } := by
  have available : pool.acquireChunk fresh ≠ none := by simp [acquired]
  rw [ne_eq, BufferPool.acquireChunk_eq_none_iff, not_and, Nat.not_le] at available
  have free := capped.free
  have total := capped.total
  rcases BufferPool.acquireChunk_cases acquired with ⟨rest, whole, rfl⟩ | ⟨none, rfl, rfl⟩
  · rw [whole, List.length_append, List.length_singleton] at free total
    refine ⟨Nat.le_of_succ_le free, ?_⟩
    simp only [List.length_append, List.length_singleton]
    omega
  · have below := available none
    refine ⟨free, ?_⟩
    simp only [BufferPool.setChunk_active, BufferPool.setChunk_free, BufferPool.setChunk_maxChunks,
      none, List.length_append, List.length_singleton, List.length_nil]
    omega

theorem openBack (capped : Capped pool) {size : UInt32} {buf : SendBuffer}
    (opened : pool.openBack size = some (buf, next)) : Capped next := by
  obtain ⟨ptr, _, _, _, rfl⟩ := BufferPool.openBack_cases opened
  exact ⟨capped.free, capped.total⟩

theorem allocate (capped : Capped pool) (size : UInt32) (visible : Nat) (fresh : ChunkPtr) :
    Capped (pool.allocate size visible fresh).2 := by
  have flushed := capped.flushPendingGc visible
  have allocation := pool.allocate_allocation size visible fresh
  generalize pool.allocate size visible fresh = outcome at allocation ⊢
  cases allocation with
  | current opened => exact flushed.openBack opened
  | exhausted noRoom refused => exact flushed
  | another noRoom acquired opened => exact (flushed.acquireChunk acquired).openBack opened
  | tooLarge noRoom acquired larger => exact flushed.acquireChunk acquired

end Capped

section Threads

variable {Thread : Type} [DecidableEq Thread] {state : State Thread}

/-- The limits hold along every run. -/
theorem reachable_capped (reachable : (system Thread).Reachable everyStep state) :
    Capped state.pool := by
  apply reachable.invariant fun state => Capped state.pool
  · rintro _ ⟨chunkSize, maxChunks, rfl⟩
    exact ⟨Nat.zero_le _, Nat.zero_le _⟩
  · intro state action next capped _ transition
    cases action with
    | allocate size visible fresh =>
      have allocated := capped.allocate size visible fresh
      simp only [system, step] at transition
      split at transition
      case isTrue => cases transition
      case isFalse => split at transition <;> cases transition <;> exact allocated
    | release thread position =>
      simp only [system, step] at transition
      split at transition <;> cases transition
      exact ⟨capped.free, capped.total⟩
    | checkFull thread =>
      simp only [system, step] at transition
      split at transition <;> cases transition
      exact capped
    | chunkUnused thread locked =>
      simp only [system, step] at transition
      split at transition <;> cases transition
      case h_1 ptr found =>
      cases locked with
      | true => exact capped.moveToFree ptr
      | false => exact ⟨capped.free, capped.total⟩

/-- In every interleaving of allocations and releases no chunk is in both lists, or twice in one,
`free_chunks_` has at most `kMaxFreeChunks` chunks and both lists together at most
`max_chunks_`. -/
theorem pool_is_capped (reachable : (system Thread).Reachable everyStep state) :
    (state.pool.active ++ state.pool.free).Nodup ∧
      state.pool.free.length ≤ maxFreeChunks ∧
      state.pool.active.length + state.pool.free.length ≤ state.pool.maxChunks.toNat := by
  have capped := reachable_capped reachable
  exact ⟨(reachable_shape reachable).distinct, capped.free, capped.total⟩

/-- Two chunks are filled and given back, one of them over `pending_gc_`, and one is taken
again. -/
theorem pool_is_capped_reuse :
    ∃ state : State (Fin 1), (system (Fin 1)).Reachable everyStep state ∧
      state.pool.active = [0] ∧ state.pool.free = [1] ∧
      state.pool.active.length + state.pool.free.length ≤ state.pool.maxChunks.toNat := by
  refine TransitionSystem.exists_reachable (initial_pool 10 2)
    [.allocate 10 0 0, .allocate 10 0 1, .release 0 0, .checkFull 0, .chunkUnused 0 true,
      .release 0 0, .checkFull 0, .chunkUnused 0 false, .allocate 4 1 2] ⟨_, rfl, ?_⟩
  intro reachable
  exact ⟨rfl, rfl, (pool_is_capped reachable).2.2⟩

end Threads

/-- The lists of chunks are the same, and so is the fill level of every chunk. -/
structure SameChunks (pool next : BufferPool) : Prop where
  active : next.active = pool.active
  free : next.free = pool.free
  offset : ∀ ptr, (next.chunks ptr).offset = (pool.chunks ptr).offset

/-- A request takes no chunk in vain: it fits a chunk, or there is none to take. -/
def CostsNothing (pool : BufferPool) (size : UInt32) : Prop :=
  size ≤ pool.chunkSize ∨ (pool.free = [] ∧ pool.maxChunks.toNat ≤ pool.active.length)

instance (pool : BufferPool) (size : UInt32) : Decidable (CostsNothing pool size) :=
  inferInstanceAs (Decidable (_ ∨ _))

/-- The pool after requests of the sizes given that all fail; a new chunk is built at the
address given with the size. -/
def BufferPool.afterFailed (pool : BufferPool) (requests : List (UInt32 × ChunkPtr)) :
    Option BufferPool :=
  requests.foldlM (fun pool (size, fresh) =>
    match pool.allocate size pool.pendingGc.length fresh with
    | (.error _, next) => some next
    | (.ok _, _) => none) pool

variable {pool next : BufferPool}

/-- A chunk is empty when it is acquired. -/
theorem Shape.acquired_empty {fresh ptr : ChunkPtr} (shape : Shape pool)
    (acquired : pool.acquireChunk fresh = some (ptr, next)) : (next.chunks ptr).offset = 0 := by
  rcases BufferPool.acquireChunk_cases acquired with ⟨rest, whole, rfl⟩ | ⟨_, rfl, rfl⟩
  · exact shape.empty ptr (by simp [whole])
  · simp

/-- A failed request that costs nothing leaves the flushed pool as it is. -/
theorem Shape.failed_eq (shape : Shape pool) {size : UInt32}
    {visible : Nat} {fresh : ChunkPtr} {error : CoreError}
    (costless : CostsNothing (pool.flushPendingGc visible) size)
    (failed : pool.allocate size visible fresh = (.error error, next)) :
    next = pool.flushPendingGc visible := by
  have flushed := shape.flushPendingGc visible
  have allocation := pool.allocate_allocation size visible fresh
  rw [failed] at allocation
  cases allocation with
  | exhausted noRoom refused => rfl
  | @tooLarge ptr taken noRoom acquired larger =>
    rcases costless with fits | limit
    · have sameSize := BufferPool.acquireChunk_chunkSize acquired
      rw [openBack_eq_none_iff List.getLast?_concat, flushed.acquired_empty acquired,
        UInt32.zero_add] at larger
      rw [← sameSize] at fits
      exact absurd larger (UInt32.not_lt.mpr fits)
    · rw [BufferPool.acquireChunk_eq_none_iff.mpr limit] at acquired
      cases acquired

/-- Any other failed request takes a chunk. -/
theorem failed_takes {size : UInt32} {visible : Nat} {fresh : ChunkPtr} {error : CoreError}
    (taking : ¬ CostsNothing (pool.flushPendingGc visible) size)
    (failed : pool.allocate size visible fresh = (.error error, next)) :
    next.active.length = (pool.flushPendingGc visible).active.length + 1 := by
  have allocation := pool.allocate_allocation size visible fresh
  rw [failed] at allocation
  cases allocation with
  | exhausted noRoom refused =>
    exact absurd (.inr (BufferPool.acquireChunk_eq_none_iff.mp refused)) taking
  | tooLarge noRoom acquired larger =>
    rcases BufferPool.acquireChunk_cases acquired with ⟨rest, _, rfl⟩ | ⟨_, rfl, rfl⟩
    · exact List.length_append
    · exact List.length_append

/-- Failed requests that cost nothing leave a flushed pool as it is. -/
theorem Shape.afterFailed_eq (shape : Shape pool)
    (flushed : pool.pendingGc = []) {requests : List (UInt32 × ChunkPtr)}
    (costless : ∀ request ∈ requests, CostsNothing pool request.1)
    (failed : pool.afterFailed requests = some next) : next = pool := by
  induction requests with
  | nil =>
    cases failed
    rfl
  | cons request rest ih =>
    rw [BufferPool.afterFailed, List.foldlM_cons] at failed
    obtain ⟨size, fresh⟩ := request
    obtain ⟨between, first, others⟩ := Option.bind_eq_some_iff.mp failed
    dsimp only at first
    split at first
    case h_1 error after refused =>
      cases first
      have unchanged := shape.failed_eq (by
        rw [BufferPool.flushPendingGc_nil flushed]
        exact costless _ (List.mem_cons_self ..)) refused
      rw [BufferPool.flushPendingGc_nil flushed] at unchanged
      subst unchanged
      exact ih (fun other member =>
        costless other (List.mem_cons_of_mem _ member)) others
    case h_2 => cases first

section Failures

variable {Thread : Type} [DecidableEq Thread] {state : State Thread}

/-- A failed request leaves the chunks of the flushed pool as they are exactly if it is not larger
than a chunk or the pool has none to take. Any number of such requests leave a flushed pool as it
is, and so whatever is asked for later. -/
theorem failed_allocate_unchanged_iff (reachable : (system Thread).Reachable everyStep state) :
    (∀ size visible fresh error next,
      state.pool.allocate size visible fresh = (.error error, next) →
        (SameChunks (state.pool.flushPendingGc visible) next ↔
          CostsNothing (state.pool.flushPendingGc visible) size)) ∧
    (state.pool.pendingGc = [] → ∀ requests next,
      (∀ request ∈ requests, CostsNothing state.pool request.1) →
        state.pool.afterFailed requests = some next → next = state.pool) := by
  have shape := reachable_shape reachable
  refine ⟨?_, ?_⟩
  · intro size visible fresh error next failed
    constructor
    · intro same
      by_contra taking
      have longer := failed_takes taking failed
      rw [same.active] at longer
      omega
    · intro costless
      rw [shape.failed_eq costless failed]
      exact ⟨rfl, rfl, fun _ => rfl⟩
  · intro flushed requests next costless failed
    exact shape.afterFailed_eq flushed costless failed

/-- Two requests in a row that a pool at its limit has no room for. -/
theorem failed_allocate_unchanged_iff_full :
    ∃ state : State (Fin 1), (system (Fin 1)).Reachable everyStep state ∧
      ∃ next, state.pool.afterFailed [(5, 1), (11, 1)] = some next ∧ next = state.pool := by
  obtain ⟨state, executed, flushed, costless, failed⟩ : ∃ state : State (Fin 1),
      (system (Fin 1)).execute everyStep { pool := { chunkSize := 10, maxChunks := 1 } }
        [.allocate 6 0 0] = some state ∧ state.pool.pendingGc = [] ∧
      (∀ request ∈ [((5 : UInt32), 1), (11, 1)], CostsNothing state.pool request.1) ∧
      (state.pool.afterFailed [(5, 1), (11, 1)]).isSome :=
    ⟨_, rfl, rfl, by decide, by decide⟩
  have reachable := TransitionSystem.Reachable.execute (.initial (initial_pool 10 1)) executed
  obtain ⟨next, after⟩ := Option.isSome_iff_exists.mp failed
  exact ⟨state, reachable, next, after,
    (failed_allocate_unchanged_iff reachable).2 flushed _ next costless after⟩

/-- A chunk of ten bytes has four left. A request of eleven bytes fails but makes another chunk
the last active one, so four bytes are cut from that one, and ten bytes have no room any more. -/
theorem failed_allocate_takes_chunk :
    ∃ state : State (Fin 1), (system (Fin 1)).Reachable everyStep state ∧
      state.pool.pendingGc = [] ∧
      ∃ next, state.pool.allocate 11 0 1 = (.error .resourceExhausted, next) ∧
        state.pool.active = [0] ∧ next.active = [0, 1] ∧
        ((next.allocate 4 0 1).2.allocate 10 0 2).1 = .error .resourceExhausted ∧
        ((state.pool.allocate 4 0 1).2.allocate 10 0 2).1 = .ok ⟨2, 0, 10⟩ := by
  refine TransitionSystem.exists_reachable (initial_pool 10 2)
    [.allocate 6 0 0] ⟨_, rfl, fun _ => ?_⟩
  exact ⟨rfl, _, rfl, rfl, rfl, rfl, rfl⟩

end Failures

end UringServer.Buffer.Pool
