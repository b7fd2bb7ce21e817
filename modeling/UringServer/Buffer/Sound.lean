import UringServer.Buffer.Spans
import UringServer.Semantics.Tally

/-!
# Which chunks of a `BufferPool` may be given back

A thread whose release brought the count of a chunk down to zero holds a token of
it until it finds the chunk not full or gives it back. A chunk in `pending_gc_`
has one too. `Sound` says that a full chunk has at most one token, and no live
buffers while it has one, so a chunk that is given back is unused.

`OpensSafely` are the runs in which no `Open` fills a chunk between the decrement
to zero and the `Full()` check of a release of it, and no sum in `Open` wraps. In
these `Allocate` keeps `Sound`.
-/

namespace UringServer.Buffer.Pool

open UringServer.Semantics

/-- Whether a release under way may give a chunk back. -/
def Releaser.token (ptr : ChunkPtr) : Releaser → Nat
  | .idle => 0
  | .checking other | .unused other => if other = ptr then 1 else 0

@[simp] theorem Releaser.token_idle (ptr : ChunkPtr) : Releaser.idle.token ptr = 0 := rfl

/-- No `Open` fills a chunk of which a release is between its decrement to zero and
its `Full()` check, or wraps. Requests are of one byte up to a chunk. -/
def OpensSafely {Thread : Type} (state : State Thread) : Action Thread → Prop
  | .allocate size visible _ =>
    let flushed := state.pool.flushPendingGc visible
    0 < size ∧ size ≤ state.pool.chunkSize ∧
      ∀ ptr ∈ flushed.active.getLast?, (flushed.openBack size).isSome →
        (flushed.chunks ptr).offset.toNat + size.toNat < 2 ^ 32 ∧
          (state.pool.chunkSize ≤ (flushed.chunks ptr).offset + size →
            ∀ thread, state.releasers thread ≠ .checking ptr)
  | _ => True

section Threads

variable {Thread : Type} [Fintype Thread]

/-- The releases and deferrals that may give a chunk back. -/
def tokens (pending : List ChunkPtr) (releasers : Thread → Releaser) (ptr : ChunkPtr) : Nat :=
  pending.count ptr + tally (Releaser.token ptr) releasers

/-- What holds between any two steps of the pool and its threads. -/
structure Sound (state : State Thread) : Prop where
  shape : Shape state.pool
  freed : ∀ ptr ∈ state.pool.free, (state.pool.chunks ptr).refCount = 0
  counted : ∀ ptr ∈ state.pool.active,
    (state.pool.chunks ptr).refCount.toNat = held state.live ptr
  filled : ∀ ptr ∈ state.pool.active,
    held state.live ptr ≤ (state.pool.chunks ptr).offset.toNat
  placed : ∀ buf ∈ state.live, buf.owner ∈ state.pool.active ∧
    buf.start.toNat + buf.allocSize.toNat ≤ (state.pool.chunks buf.owner).offset.toNat
  sized : ∀ buf ∈ state.live, 0 < buf.allocSize
  apart : state.live.Pairwise SendBuffer.Apart
  single : ∀ ptr, state.pool.chunkSize ≤ (state.pool.chunks ptr).offset →
    tokens state.pool.pendingGc state.releasers ptr ≤ 1
  marked : ∀ ptr, 0 < tokens state.pool.pendingGc state.releasers ptr → ptr ∈ state.pool.active
  dropped : ∀ ptr, 0 < tokens state.pool.pendingGc state.releasers ptr →
    state.pool.chunkSize ≤ (state.pool.chunks ptr).offset → held state.live ptr = 0
  full : ∀ ptr, (ptr ∈ state.pool.pendingGc ∨ ∃ thread, state.releasers thread = .unused ptr) →
    state.pool.chunkSize ≤ (state.pool.chunks ptr).offset

variable {state : State Thread}

/-- The live buffers are spans of the chunks. -/
theorem Sound.spans (sound : Sound state) : Spans state.pool state.live :=
  ⟨sound.shape, sound.freed, sound.counted, sound.placed, sound.apart⟩

theorem tokens_pos {pending : List ChunkPtr} {releasers : Thread → Releaser} {ptr : ChunkPtr}
    (given : ptr ∈ pending ∨ ∃ thread, releasers thread = .unused ptr) :
    0 < tokens pending releasers ptr := by
  unfold tokens
  rcases given with deferred | ⟨thread, found⟩
  · have counted := List.count_pos_iff.mpr deferred
    omega
  · have share := weight_le_tally (Releaser.token ptr) releasers thread
    rw [found, Releaser.token, if_pos rfl] at share
    omega

/-- Giving back a chunk that has a token, when that was the token. -/
theorem Sound.recycle (sound : Sound state) {ptr : ChunkPtr} {pending : List ChunkPtr}
    {releasers : Thread → Releaser}
    (given : ptr ∈ state.pool.pendingGc ∨ ∃ thread, state.releasers thread = .unused ptr)
    (used : tokens pending releasers ptr = 0)
    (fewer : ∀ other, tokens pending releasers other ≤
      tokens state.pool.pendingGc state.releasers other)
    (remaining : ∀ other, (other ∈ pending ∨ ∃ thread, releasers thread = .unused other) →
      other ∈ state.pool.pendingGc ∨ ∃ thread, state.releasers thread = .unused other) :
    Sound { state with
      pool := { state.pool with pendingGc := pending }.moveToFree ptr, releasers } := by
  have active := sound.marked ptr (tokens_pos given)
  have none := sound.dropped ptr (tokens_pos given) (sound.full ptr given)
  obtain ⟨shape, freed, counted, placed, apart⟩ :=
    (sound.spans.setPending pending).moveToFree active none
  have different : ∀ other, 0 < tokens pending releasers other → other ≠ ptr := by
    rintro other positive rfl
    omega
  have before : ∀ other, 0 < tokens pending releasers other →
      0 < tokens state.pool.pendingGc state.releasers other := by
    intro other positive
    exact Nat.lt_of_lt_of_le positive (fewer other)
  refine ⟨shape, freed, counted, ?_, placed, sound.sized, apart, ?_, ?_, ?_, ?_⟩
  all_goals rw [BufferPool.moveToFree_of_active (by exact active)]
  · intro other remains
    obtain ⟨before, different⟩ := sound.shape.mem_active_erase remains
    simpa [BufferPool.setChunk, Function.update_of_ne different] using sound.filled other before
  · intro other full
    by_cases same : other = ptr
    · rw [same]
      exact used.trans_le (Nat.zero_le 1)
    · have single := sound.single other
        (by simpa [BufferPool.setChunk, Function.update_of_ne same] using full)
      exact (fewer other).trans single
  · intro other positive
    have active := sound.marked other (before other positive)
    exact (List.mem_erase_of_ne (different other positive)).mpr active
  · intro other positive full
    apply sound.dropped other (before other positive)
    simpa [BufferPool.setChunk, Function.update_of_ne (different other positive)] using full
  · intro other given
    have apart := different other (tokens_pos given)
    simpa [BufferPool.setChunk, Function.update_of_ne apart] using
      sound.full other (remaining other given)

theorem Sound.flushPendingGc (sound : Sound state) (visible : Nat) :
    Sound { state with pool := state.pool.flushPendingGc visible } := by
  let Inv (pool : BufferPool) : Prop := Sound { state with pool }
  have start : Inv state.pool := sound
  refine BufferPool.flushPendingGc_induction ?_ visible start
  intro pool ptr rest pending sound
  have deferred : ptr ∈ pool.pendingGc := by simp [pending]
  have single := sound.single ptr (sound.full ptr (.inl deferred))
  simp only [tokens, pending, List.count_cons_self] at single
  refine sound.recycle (.inl deferred) ?_ ?_ ?_
  · simp only [tokens]
    omega
  · intro other
    simp only [tokens, pending]
    exact Nat.add_le_add_right List.count_le_count_cons _
  · intro other given
    exact given.imp_left fun deferred => by simp [pending, deferred]

/-- A chunk with room and no release before its `Full()` check has no token. -/
theorem Sound.tokens_eq_zero (sound : Sound state) {ptr : ChunkPtr}
    (room : (state.pool.chunks ptr).offset < state.pool.chunkSize)
    (unchecked : ∀ thread, state.releasers thread ≠ .checking ptr) :
    tokens state.pool.pendingGc state.releasers ptr = 0 := by
  obtain ⟨undeferred, unmarked⟩ : ptr ∉ state.pool.pendingGc ∧
      ∀ thread, state.releasers thread ≠ .unused ptr := by
    rw [← not_exists, ← not_or]
    intro given
    exact UInt32.not_le.mpr room (sound.full ptr given)
  have weightless : tally (Releaser.token ptr) state.releasers = 0 := by
    apply tally_eq_zero
    intro thread
    cases found : state.releasers thread with
    | idle => rfl
    | checking other =>
      have different : other ≠ ptr := by
        rintro rfl
        exact unchecked thread found
      simp [Releaser.token, different]
    | unused other =>
      have different : other ≠ ptr := by
        rintro rfl
        exact unmarked thread found
      simp [Releaser.token, different]
  rw [tokens, weightless, List.count_eq_zero.mpr undeferred]

/-- A chunk that takes a request without wrapping was not full. -/
theorem offset_lt_of_fits {offset size chunkSize : UInt32} (positive : 0 < size)
    (fits : offset + size ≤ chunkSize) (unwrapped : offset.toNat + size.toNat < 2 ^ 32) :
    offset < chunkSize := by
  have atLeast : 0 < size.toNat := UInt32.lt_iff_toNat_lt.mp positive
  rw [UInt32.le_iff_toNat_le, toNat_add_of_lt unwrapped] at fits
  rw [UInt32.lt_iff_toNat_lt]
  omega

/-- Cutting a buffer from a chunk, which has no token if that fills it. -/
theorem Sound.openBack (sound : Sound state) {size : UInt32} {buf : SendBuffer}
    {next : BufferPool} (opened : state.pool.openBack size = some (buf, next))
    (positive : 0 < size)
    (careful : state.pool.chunkSize ≤ (state.pool.chunks buf.owner).offset + size →
      tokens state.pool.pendingGc state.releasers buf.owner = 0)
    (unwrapped : (state.pool.chunks buf.owner).offset.toNat + size.toNat < 2 ^ 32) :
    Sound { state with pool := next, live := buf :: state.live } := by
  have countable : held state.live buf.owner + 1 < 2 ^ 32 := by
    obtain ⟨ptr, back, _, rfl, _⟩ := BufferPool.openBack_cases opened
    have filled := sound.filled ptr (List.mem_of_getLast? back)
    have atLeast : 0 < size.toNat := UInt32.lt_iff_toNat_lt.mp positive
    simp only at unwrapped ⊢
    omega
  obtain ⟨shape, freed, counted, placed, apart⟩ := sound.spans.openBack opened unwrapped countable
  obtain ⟨ptr, back, fits, rfl, rfl⟩ := BufferPool.openBack_cases opened
  simp only at careful unwrapped
  have filled := sound.filled ptr (List.mem_of_getLast? back)
  have room := offset_lt_of_fits positive fits unwrapped
  have atLeast : 0 < size.toNat := UInt32.lt_iff_toNat_lt.mp positive
  have level := toNat_add_of_lt unwrapped
  refine ⟨shape, freed, counted, ?_, placed, ?_, apart, ?_, sound.marked, ?_, ?_⟩
  · intro other member
    by_cases same : other = ptr
    · subst same
      rw [held_cons_self, BufferPool.setChunk_chunks_self, level]
      simp only
      omega
    · rw [held_cons_of_ne same, BufferPool.setChunk_chunks_of_ne _ _ same]
      exact sound.filled other member
  · intro other member
    rcases List.mem_cons.mp member with rfl | earlier
    · exact positive
    · exact sound.sized other earlier
  · intro other full
    by_cases same : other = ptr
    · subst same
      rw [BufferPool.setChunk_chunks_self] at full
      exact (careful full).trans_le (Nat.zero_le 1)
    · rw [BufferPool.setChunk_chunks_of_ne _ _ same] at full
      exact sound.single other full
  · intro other marked full
    by_cases same : other = ptr
    · subst same
      rw [BufferPool.setChunk_chunks_self] at full
      exact absurd (careful full) (Nat.pos_iff_ne_zero.mp marked)
    · rw [BufferPool.setChunk_chunks_of_ne _ _ same] at full
      rw [held_cons_of_ne same]
      exact sound.dropped other marked full
  · intro other given
    have before := sound.full other given
    have apart : other ≠ ptr := by
      rintro rfl
      exact UInt32.not_le.mpr room before
    rw [BufferPool.setChunk_chunks_of_ne _ _ apart]
    exact before

/-- A chunk that is not active has no tokens. -/
theorem Sound.inactive (sound : Sound state) {ptr : ChunkPtr} (gone : ptr ∉ state.pool.active) :
    tokens state.pool.pendingGc state.releasers ptr = 0 := by
  by_contra marked
  exact gone (sound.marked ptr (Nat.pos_of_ne_zero marked))

/-- The chunk that was acquired becomes the last active one. -/
theorem Sound.acquireChunk (sound : Sound state) {fresh ptr : ChunkPtr} {next : BufferPool}
    (unused : fresh ∉ state.pool.active ++ state.pool.free)
    (acquired : state.pool.acquireChunk fresh = some (ptr, next)) :
    Sound { state with pool := { next with active := next.active ++ [ptr] } } ∧
      tokens next.pendingGc state.releasers ptr = 0 := by
  obtain ⟨shape, freed, counted, placed, apart⟩ := sound.spans.acquireChunk unused acquired
  have acquisition := sound.spans.acquired unused acquired
  have unheld := sound.spans.inactive acquisition.gone
  have unmarked := sound.inactive acquisition.gone
  have samePending := acquisition.samePending
  have sameSize := acquisition.sameSize
  have others := acquisition.others
  rw [← samePending] at unmarked
  refine ⟨⟨shape, freed, counted, ?_, placed, sound.sized, apart, ?_, ?_, ?_, ?_⟩, unmarked⟩
  · intro other member
    by_cases same : other = ptr
    · simp [same, unheld]
    · simpa [others other same] using sound.filled other (acquisition.mem_active member same)
  · intro other full
    by_cases same : other = ptr
    · rw [same]
      exact unmarked.trans_le (Nat.zero_le 1)
    · simpa [samePending] using
        sound.single other (by simpa [others other same, sameSize] using full)
  · intro other marked
    exact (acquisition.mem_append (sound.marked other (by simpa [samePending] using marked))).1
  · intro other marked full
    simp only [samePending] at marked
    obtain ⟨_, different⟩ := acquisition.mem_append (sound.marked other marked)
    exact sound.dropped other marked (by simpa [others other different, sameSize] using full)
  · intro other given
    have marked := tokens_pos given
    have different : other ≠ ptr := by
      rintro rfl
      simp only at marked
      omega
    simp only [samePending] at given
    simpa [others other different, sameSize] using sound.full other given

theorem Sound.allocate (sound : Sound state) {size : UInt32} {visible : Nat} {fresh : ChunkPtr}
    (safe : OpensSafely state (.allocate size visible fresh))
    (unused : fresh ∉ state.pool.active ++ state.pool.free) :
    match state.pool.allocate size visible fresh with
    | (.ok buf, pool) => Sound { state with pool, live := buf :: state.live }
    | (.error _, pool) => Sound { state with pool } := by
  obtain ⟨positive, fits, careful⟩ := safe
  have flushed := sound.flushPendingGc visible
  have stillUnused := BufferPool.unused_flushPendingGc visible unused
  have allocation := state.pool.allocate_allocation size visible fresh
  generalize state.pool.allocate size visible fresh = outcome at allocation ⊢
  cases allocation with
  | @current buf next opened =>
    obtain ⟨ptr, back, room, rfl, _⟩ := BufferPool.openBack_cases opened
    obtain ⟨unwrapped, unchecked⟩ := careful ptr back (by simp [opened])
    refine flushed.openBack opened positive ?_ unwrapped
    intro fills
    rw [BufferPool.flushPendingGc_chunkSize] at fills
    exact flushed.tokens_eq_zero (offset_lt_of_fits positive room unwrapped) (unchecked fills)
  | exhausted noRoom refused => exact flushed
  | another noRoom acquired opened =>
    obtain ⟨ready, unmarked⟩ := flushed.acquireChunk stillUnused acquired
    obtain ⟨_, empty⟩ := flushed.shape.acquireChunk stillUnused acquired
    obtain ⟨last, back, _, rfl, _⟩ := BufferPool.openBack_cases opened
    obtain rfl := Option.some.inj (List.getLast?_concat.symm.trans back)
    refine ready.openBack opened positive (fun _ => unmarked) ?_
    simpa [empty] using size.toNat_lt
  | tooLarge noRoom acquired larger => exact (flushed.acquireChunk stillUnused acquired).1

end Threads

end UringServer.Buffer.Pool
