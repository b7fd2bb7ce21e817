import UringServer.Buffer.Sound

/-!
# Chunks are not recycled under live buffers

The steps of a release keep `Sound`, so in a run of safe `Open`s every live buffer
keeps its chunk and its bytes.

An `Open` that fills a chunk between the decrement to zero and the `Full()` check
of a release breaks that: the check then finds the chunk full, and it is reset
under the new buffer, `pool_recycles_live_buffer`.
-/

namespace UringServer.Buffer.Pool

open UringServer.Semantics

section Threads

variable {Thread : Type} [Fintype Thread] {state : State Thread}

variable [DecidableEq Thread]

/-- Moving one thread exchanges its token of each chunk. -/
theorem tokens_setReleaser (pending : List ChunkPtr) (releasers : Thread → Releaser)
    (thread : Thread) (releaser : Releaser) (ptr : ChunkPtr) :
    tokens pending (Function.update releasers thread releaser) ptr +
        (releasers thread).token ptr =
      tokens pending releasers ptr + releaser.token ptr := by
  have moved := tally_update (Releaser.token ptr) releasers thread releaser
  simp only [tokens]
  omega

omit [Fintype Thread] in
theorem unused_of_update {releasers : Thread → Releaser} {thread : Thread}
    {releaser : Releaser} {ptr : ChunkPtr} (moved : releaser ≠ .unused ptr)
    (found : ∃ other, Function.update releasers thread releaser other = .unused ptr) :
    ∃ other, releasers other = .unused ptr := by
  obtain ⟨other, there⟩ := found
  by_cases same : other = thread
  · subst same
    rw [Function.update_self] at there
    exact absurd there moved
  · rw [Function.update_of_ne same] at there
    exact ⟨other, there⟩

omit [Fintype Thread] [DecidableEq Thread] in
theorem dropBuffer_offset (state : State Thread) (position : Nat) (owner ptr : ChunkPtr) :
    ((state.dropBuffer position owner).pool.chunks ptr).offset =
      (state.pool.chunks ptr).offset := by
  by_cases same : ptr = owner
  · simp [State.dropBuffer, same]
  · simp [State.dropBuffer, BufferPool.setChunk_chunks_of_ne _ _ same]

/-- A release takes a token of its chunk when it drops the count to zero. -/
theorem tokens_release {pending : List ChunkPtr} {releasers : Thread → Releaser} {thread : Thread}
    {owner : ChunkPtr} {refCount : UInt32} (idle : releasers thread = .idle) (ptr : ChunkPtr) :
    tokens pending (Function.update releasers thread
        (if refCount = 1 then .checking owner else .idle)) ptr =
      tokens pending releasers ptr + if owner = ptr ∧ refCount = 1 then 1 else 0 := by
  have moved := tokens_setReleaser pending releasers thread
    (if refCount = 1 then .checking owner else .idle) ptr
  rw [idle, Releaser.token_idle, Nat.add_zero] at moved
  rw [moved]
  by_cases alone : refCount = 1 <;> simp [alone, Releaser.token]

/-- A release takes its token only with the last buffer of the chunk. -/
theorem Sound.release (sound : Sound state) {thread : Thread} {position : Nat}
    {buf : SendBuffer} (idle : state.releasers thread = .idle)
    (found : state.live[position]? = some buf) :
    Sound ((state.dropBuffer position buf.owner).setReleaser thread
      (if (state.pool.chunks buf.owner).refCount = 1 then .checking buf.owner else .idle)) := by
  obtain ⟨active, _⟩ := sound.placed buf (List.mem_of_getElem? found)
  have counted := sound.counted buf.owner active
  have fewer := held_eraseIdx found
  have last := fewer buf.owner
  rw [if_pos rfl] at last
  have unmarked : state.pool.chunkSize ≤ (state.pool.chunks buf.owner).offset →
      tokens state.pool.pendingGc state.releasers buf.owner = 0 := by
    intro full
    by_contra marked
    have none := sound.dropped buf.owner (Nat.pos_of_ne_zero marked) full
    omega
  obtain ⟨shape, freed, countedAfter, placed, apart⟩ := sound.spans.dropBuffer found
  refine ⟨shape, freed, countedAfter, ?_, placed, ?_, apart, ?_, ?_, ?_, ?_⟩
  · intro ptr member
    have before := sound.filled ptr member
    have rest := fewer ptr
    simp only [State.setReleaser, dropBuffer_offset]
    simp only [State.dropBuffer]
    omega
  · intro other member
    exact sound.sized other (List.mem_of_mem_eraseIdx member)
  · intro ptr full
    simp only [State.setReleaser, dropBuffer_offset] at full
    refine (tokens_release idle ptr).trans_le ?_
    change tokens state.pool.pendingGc state.releasers ptr + _ ≤ 1
    by_cases takes : buf.owner = ptr ∧ (state.pool.chunks buf.owner).refCount = 1
    · rw [if_pos takes, ← takes.1, unmarked (takes.1 ▸ full)]
    · rw [if_neg takes]
      exact sound.single ptr full
  · intro ptr marked
    have after := (tokens_release idle ptr).symm.trans_gt marked
    by_cases takes : buf.owner = ptr ∧ (state.pool.chunks buf.owner).refCount = 1
    · rw [← takes.1]
      exact active
    · rw [if_neg takes] at after
      exact sound.marked ptr after
  · intro ptr marked full
    simp only [State.setReleaser, dropBuffer_offset] at full
    have after := (tokens_release idle ptr).symm.trans_gt marked
    have rest := fewer ptr
    change held (state.live.eraseIdx position) ptr = 0
    by_cases takes : buf.owner = ptr ∧ (state.pool.chunks buf.owner).refCount = 1
    · obtain ⟨rfl, alone⟩ := takes
      rw [alone, UInt32.toNat_one] at counted
      omega
    · rw [if_neg takes] at after
      have none := sound.dropped ptr after full
      omega
  · intro ptr given
    simp only [State.setReleaser, dropBuffer_offset]
    apply sound.full
    refine given.imp_right fun unused => unused_of_update ?_ unused
    split <;> simp

theorem Sound.checkFull (sound : Sound state) {thread : Thread} {ptr : ChunkPtr}
    (found : state.releasers thread = .checking ptr) :
    Sound (state.setReleaser thread
      (if (state.pool.chunks ptr).full state.pool.chunkSize then .unused ptr else .idle)) := by
  generalize moved : (if (state.pool.chunks ptr).full state.pool.chunkSize then
    Releaser.unused ptr else .idle) = releaser
  have fewer : ∀ other, tokens state.pool.pendingGc
      (Function.update state.releasers thread releaser) other ≤
        tokens state.pool.pendingGc state.releasers other := by
    intro other
    have after := tokens_setReleaser state.pool.pendingGc state.releasers thread releaser other
    have lighter : releaser.token other ≤ (state.releasers thread).token other := by
      rw [← moved, found]
      split <;> simp [Releaser.token]
    omega
  refine ⟨sound.shape, sound.freed, sound.counted, sound.filled, sound.placed, sound.sized,
    sound.apart, ?_, ?_, ?_, ?_⟩
  · intro other full
    exact (fewer other).trans (sound.single other full)
  · intro other marked
    exact sound.marked other (Nat.lt_of_lt_of_le marked (fewer other))
  · intro other marked
    exact sound.dropped other (Nat.lt_of_lt_of_le marked (fewer other))
  · intro other given
    by_cases same : releaser = .unused other
    · rw [← moved] at same
      split at same
      case isTrue full =>
        cases same
        exact of_decide_eq_true full
      case isFalse => cases same
    · exact sound.full other (given.imp_right (unused_of_update same))

/-- `OnChunkUnused`, with or without the lock. -/
theorem Sound.chunkUnused (sound : Sound state) {thread : Thread} {ptr : ChunkPtr}
    (found : state.releasers thread = .unused ptr) (locked : Bool) :
    Sound ({ state with pool := if locked then state.pool.moveToFree ptr
        else { state.pool with pendingGc := state.pool.pendingGc ++ [ptr] } }.setReleaser thread
      .idle) := by
  have single := sound.single ptr (sound.full ptr (.inr ⟨thread, found⟩))
  have after := tokens_setReleaser state.pool.pendingGc state.releasers thread .idle
  have here := after ptr
  simp only [found, Releaser.token_idle, Nat.add_zero] at after here
  rw [Releaser.token, if_pos rfl] at here
  cases locked with
  | true =>
    change Sound { state with
      pool := { state.pool with pendingGc := state.pool.pendingGc }.moveToFree ptr
      releasers := Function.update state.releasers thread .idle }
    refine sound.recycle (.inr ⟨thread, found⟩) ?_ ?_ ?_
    · omega
    · intro other
      have rest := after other
      omega
    · intro other given
      exact given.imp_right (unused_of_update (by simp))
  | false =>
    have same : ∀ other, tokens (state.pool.pendingGc ++ [ptr])
        (Function.update state.releasers thread .idle) other =
          tokens state.pool.pendingGc state.releasers other := by
      intro other
      have rest := after other
      simp only [tokens, List.count_append, List.count_singleton, beq_iff_eq,
        Releaser.token] at rest ⊢
      omega
    refine ⟨⟨sound.shape.distinct, sound.shape.empty, sound.shape.bounded⟩, sound.freed,
      sound.counted, sound.filled, sound.placed, sound.sized, sound.apart, ?_, ?_, ?_, ?_⟩
    · intro other full
      exact (same other).trans_le (sound.single other full)
    · intro other marked
      exact sound.marked other (marked.trans_eq (same other))
    · intro other marked
      exact sound.dropped other (marked.trans_eq (same other))
    · rintro other (deferred | unused)
      · rcases List.mem_append.mp deferred with before | last
        · exact sound.full other (.inl before)
        · rw [List.mem_singleton.mp last]
          exact sound.full ptr (.inr ⟨thread, found⟩)
      · exact sound.full other (.inr (unused_of_update (by simp) unused))

/-- Soundness holds along every run. -/
theorem reachable_sound (reachable : (system Thread).Reachable OpensSafely state) :
    Sound state := by
  apply reachable.invariant Sound
  · rintro _ ⟨chunkSize, maxChunks, rfl⟩
    have none : ∀ ptr, tokens [] (fun _ : Thread => Releaser.idle) ptr = 0 := by
      intro ptr
      simp [tokens]
    refine ⟨⟨List.nodup_nil, ?_, ?_⟩, ?_, ?_, ?_, ?_, ?_, List.Pairwise.nil, ?_, ?_, ?_, ?_⟩ <;>
      simp [none]
  · intro state action next sound safe transition
    cases action with
    | allocate size visible fresh =>
      simp only [system, step] at transition
      split at transition
      case isTrue => cases transition
      case isFalse unused =>
        have allocated := sound.allocate safe unused
        revert transition allocated
        rcases state.pool.allocate size visible fresh with ⟨result, pool⟩
        cases result <;> rintro ⟨⟩ allocated <;> exact allocated
    | release thread position =>
      simp only [system, step] at transition
      split at transition <;> cases transition
      case h_1 buf idle found => exact sound.release idle found
    | checkFull thread =>
      simp only [system, step] at transition
      split at transition <;> cases transition
      case h_1 ptr found => exact sound.checkFull found
    | chunkUnused thread locked =>
      simp only [system, step] at transition
      split at transition <;> cases transition
      case h_1 ptr found => exact sound.chunkUnused found locked

/-- In every run in which no `Open` fills a chunk between the decrement to zero and
the `Full()` check of a release of it, or wraps, the chunk of a live buffer is
active and filled at least to the end of the buffer, which is not empty, and live
buffers have no byte in common. A chunk that is reset, freed or destroyed is filled
to zero or not active. -/
theorem pool_keeps_live_buffers (reachable : (system Thread).Reachable OpensSafely state) :
    (∀ buf ∈ state.live, buf.owner ∈ state.pool.active ∧ buf.owner ∉ state.pool.free ∧
      0 < buf.allocSize.toNat ∧
      buf.start.toNat + buf.allocSize.toNat ≤ (state.pool.chunks buf.owner).offset.toNat) ∧
      state.live.Pairwise SendBuffer.Apart := by
  have sound := reachable_sound reachable
  refine ⟨?_, sound.apart⟩
  intro buf member
  obtain ⟨active, inside⟩ := sound.placed buf member
  exact ⟨active, sound.shape.not_mem_free active,
    UInt32.lt_iff_toNat_lt.mp (sound.sized buf member), inside⟩

end Threads

section Runs

instance {Thread : Type} [Fintype Thread] (state : State Thread) (action : Action Thread) :
    Decidable (OpensSafely state action) :=
  match action with
  | .allocate _ _ _ => inferInstanceAs (Decidable (_ ∧ _ ∧ ∀ ptr ∈ _, _ → _ ∧ _))
  | .release _ _ | .checkFull _ | .chunkUnused _ _ => .isTrue trivial

/-- A buffer is cut from a chunk just when the release of the only other one is about
to look whether the chunk is full; another chunk is given back and cut again. -/
theorem pool_keeps_live_buffers_reuse :
    ∃ state : State (Fin 1), (system (Fin 1)).Reachable OpensSafely state ∧
      state.live = [⟨0, 0, 6⟩, ⟨1, 4, 3⟩] ∧ state.live.Pairwise SendBuffer.Apart := by
  refine TransitionSystem.exists_reachable (initial_pool 10 4)
    [.allocate 10 0 0, .allocate 4 0 1, .release 0 0, .allocate 3 0 2, .checkFull 0,
      .release 0 1, .checkFull 0, .chunkUnused 0 true, .allocate 6 0 2] ⟨_, rfl, ?_⟩
  intro reachable
  exact ⟨rfl, (pool_keeps_live_buffers reachable).2⟩

/-- Thread 0 releases the one buffer of a half full chunk and stops before its
`Full()` check. A second buffer fills the chunk. The check now finds it full, and
the chunk is reset under the second buffer, whose bytes are handed out again. -/
theorem pool_recycles_live_buffer :
    ∃ state : State (Fin 1), (system (Fin 1)).Reachable everyStep state ∧
      state.live = [⟨0, 5, 5⟩, ⟨0, 0, 5⟩, ⟨0, 5, 5⟩] ∧
      ¬ state.live.Pairwise SendBuffer.Apart := by
  obtain ⟨state, executed, live⟩ : ∃ state : State (Fin 1),
      (system (Fin 1)).execute everyStep { pool := { chunkSize := 10, maxChunks := 4 } }
        [.allocate 5 0 0, .release 0 0, .allocate 5 0 1, .checkFull 0, .chunkUnused 0 true,
          .allocate 5 0 1, .allocate 5 0 1] = some state ∧
      state.live = [⟨0, 5, 5⟩, ⟨0, 0, 5⟩, ⟨0, 5, 5⟩] :=
    ⟨_, rfl, rfl⟩
  have reachable := TransitionSystem.Reachable.execute (.initial (initial_pool 10 4)) executed
  refine ⟨state, reachable, live, ?_⟩
  rw [live]
  simp [SendBuffer.Apart]

end Runs

end UringServer.Buffer.Pool
