import Mathlib.Algebra.GroupWithZero.Nat
import Mathlib.Data.List.Perm.Basic
import UringServer.Buffer.PoolShape

/-!
# Buffers as spans of chunks

`Spans` relates a pool to the buffers that are handed out: each lies in an active
chunk below its fill level, no two share a byte, and `ref_count_` is their number.
It says nothing of the releases under way. Giving a chunk back keeps it only if the
chunk has no buffers, and `Open` only if neither of its two sums wraps.
-/

namespace UringServer.Buffer.Pool

open UringServer.Semantics

/-- Two buffers with no byte in common. -/
def SendBuffer.Apart (first second : SendBuffer) : Prop :=
  first.owner ≠ second.owner ∨
    first.start.toNat + first.allocSize.toNat ≤ second.start.toNat ∨
    second.start.toNat + second.allocSize.toNat ≤ first.start.toNat

/-- How many live buffers a chunk has. -/
def held (live : List SendBuffer) (ptr : ChunkPtr) : Nat :=
  live.countP fun buf => buf.owner = ptr

variable {live : List SendBuffer}

/-- A chunk with live buffers is the owner of one of them. -/
theorem held_eq_zero_of_forall {ptr : ChunkPtr}
    (other : ∀ buf ∈ live, buf.owner ≠ ptr) : held live ptr = 0 := by
  apply List.countP_eq_zero.mpr
  simpa using other

theorem owner_ne_of_held {ptr : ChunkPtr} {buf : SendBuffer}
    (none : held live ptr = 0) (member : buf ∈ live) : buf.owner ≠ ptr := by
  simpa using List.countP_eq_zero.mp none buf member

theorem held_cons_self (live : List SendBuffer) (buf : SendBuffer) :
    held (buf :: live) buf.owner = held live buf.owner + 1 := by
  simp [held]

theorem held_cons_of_ne {buf : SendBuffer} {ptr : ChunkPtr}
    (different : ptr ≠ buf.owner) : held (buf :: live) ptr = held live ptr := by
  simp [held, different.symm]

theorem held_eraseIdx {position : Nat} {buf : SendBuffer}
    (found : live[position]? = some buf) (ptr : ChunkPtr) :
    held live ptr = held (live.eraseIdx position) ptr + if buf.owner = ptr then 1 else 0 := by
  obtain ⟨bounded, rfl⟩ := List.getElem?_eq_some_iff.mp found
  have same := (List.getElem_cons_eraseIdx_perm bounded).countP_eq fun buf => buf.owner = ptr
  rw [List.countP_cons] at same
  simpa [held] using same.symm

theorem toNat_add_of_lt {offset size : UInt32} (unwrapped : offset.toNat + size.toNat < 2 ^ 32) :
    (offset + size).toNat = offset.toNat + size.toNat := by
  rw [UInt32.toNat_add]
  exact Nat.mod_eq_of_lt unwrapped

/-- What `AcquireChunk` leaves alone, and what its chunk is like. -/
structure Acquired (pool next : BufferPool) (ptr : ChunkPtr) : Prop where
  gone : ptr ∉ pool.active
  sameActive : next.active = pool.active
  samePending : next.pendingGc = pool.pendingGc
  sameSize : next.chunkSize = pool.chunkSize
  fewer : ∀ other ∈ next.free, other ∈ pool.free
  unreferenced : (next.chunks ptr).refCount = 0
  unfilled : (next.chunks ptr).offset = 0
  others : ∀ other, other ≠ ptr → next.chunks other = pool.chunks other

/-- The chunks that become active again by an acquisition, apart from the acquired one, were
active before. -/
theorem Acquired.mem_active {pool next : BufferPool} {ptr other : ChunkPtr}
    (acquired : Acquired pool next ptr) (member : other ∈ next.active ++ [ptr])
    (different : other ≠ ptr) : other ∈ pool.active := by
  rw [acquired.sameActive] at member
  simpa [different] using member

theorem Acquired.mem_append {pool next : BufferPool} {ptr other : ChunkPtr}
    (acquired : Acquired pool next ptr) (active : other ∈ pool.active) :
    other ∈ next.active ++ [ptr] ∧ other ≠ ptr := by
  refine ⟨by simp [acquired.sameActive, active], ?_⟩
  rintro rfl
  exact acquired.gone active

/-- The live buffers are disjoint parts of the active chunks, which count them. -/
structure Spans (pool : BufferPool) (live : List SendBuffer) : Prop where
  shape : Shape pool
  freed : ∀ ptr ∈ pool.free, (pool.chunks ptr).refCount = 0
  counted : ∀ ptr ∈ pool.active, (pool.chunks ptr).refCount.toNat = held live ptr
  placed : ∀ buf ∈ live, buf.owner ∈ pool.active ∧
    buf.start.toNat + buf.allocSize.toNat ≤ (pool.chunks buf.owner).offset.toNat
  apart : live.Pairwise SendBuffer.Apart

namespace Spans

variable {pool next : BufferPool} {live : List SendBuffer} {ptr fresh : ChunkPtr}
  {buf : SendBuffer} {size : UInt32}

/-- A chunk that is not active has no live buffers. -/
theorem inactive (spans : Spans pool live) (gone : ptr ∉ pool.active) : held live ptr = 0 := by
  apply held_eq_zero_of_forall
  rintro buf member rfl
  exact gone (spans.placed buf member).1

/-- A live buffer lies inside of its chunk. -/
theorem inside (spans : Spans pool live) (member : buf ∈ live) :
    buf.start.toNat + buf.allocSize.toNat ≤ pool.chunkSize.toNat := by
  obtain ⟨active, below⟩ := spans.placed buf member
  have bounded := UInt32.le_iff_toNat_le.mp (spans.shape.bounded buf.owner active)
  omega

theorem setPending (spans : Spans pool live) (pending : List ChunkPtr) :
    Spans { pool with pendingGc := pending } live :=
  ⟨⟨spans.shape.distinct, spans.shape.empty, spans.shape.bounded⟩, spans.freed, spans.counted,
    spans.placed, spans.apart⟩

/-- Giving back a chunk that has no buffers. -/
theorem moveToFree (spans : Spans pool live) (active : ptr ∈ pool.active)
    (none : held live ptr = 0) : Spans (pool.moveToFree ptr) live := by
  have shape := spans.shape.moveToFree ptr
  have freed : ∀ other ∈ (pool.moveToFree ptr).free, other ∈ pool.free ∨ other = ptr := by
    intro other freed
    exact (BufferPool.mem_free_moveToFree freed).imp_right fun moved => moved.1
  rw [BufferPool.moveToFree_of_active active] at shape freed ⊢
  refine ⟨shape, ?_, ?_, ?_, spans.apart⟩
  · intro other member
    by_cases same : other = ptr
    · have zero := spans.counted ptr active
      rw [none] at zero
      simpa [same, BufferPool.setChunk, SendBufferChunk.reset] using UInt32.toNat_inj.mp zero
    · have before := (freed other member).resolve_right same
      simpa [BufferPool.setChunk, Function.update_of_ne same] using spans.freed other before
  · intro other remains
    obtain ⟨before, different⟩ := spans.shape.mem_active_erase remains
    simpa [BufferPool.setChunk, Function.update_of_ne different] using spans.counted other before
  · intro buf member
    obtain ⟨owned, below⟩ := spans.placed buf member
    have different := owner_ne_of_held none member
    refine ⟨(List.mem_erase_of_ne different).mpr owned, ?_⟩
    simpa [BufferPool.setChunk, Function.update_of_ne different] using below

/-- Cutting a buffer from a chunk, where neither the fill level nor the count wraps. -/
theorem openBack (spans : Spans pool live) (opened : pool.openBack size = some (buf, next))
    (unwrapped : (pool.chunks buf.owner).offset.toNat + size.toNat < 2 ^ 32)
    (countable : held live buf.owner + 1 < 2 ^ 32) : Spans next (buf :: live) := by
  have shape := spans.shape.openBack opened
  obtain ⟨ptr, back, fits, rfl, rfl⟩ := BufferPool.openBack_cases opened
  simp only at unwrapped countable
  have active := List.mem_of_getLast? back
  have level := toNat_add_of_lt unwrapped
  refine ⟨shape, ?_, ?_, ?_, ?_⟩
  · intro other member
    have apart : other ≠ ptr := by
      rintro rfl
      exact spans.shape.not_mem_free active member
    rw [BufferPool.setChunk_chunks_of_ne _ _ apart]
    exact spans.freed other member
  · intro other member
    by_cases same : other = ptr
    · subst same
      rw [held_cons_self, BufferPool.setChunk_chunks_self, UInt32.toNat_add,
        spans.counted other member, UInt32.toNat_one]
      exact Nat.mod_eq_of_lt countable
    · rw [held_cons_of_ne same, BufferPool.setChunk_chunks_of_ne _ _ same]
      exact spans.counted other member
  · intro other member
    rcases List.mem_cons.mp member with rfl | earlier
    · simp only [BufferPool.setChunk_chunks_self, level]
      exact ⟨active, Nat.le_refl _⟩
    · obtain ⟨owned, below⟩ := spans.placed other earlier
      refine ⟨owned, ?_⟩
      by_cases same : other.owner = ptr
      · rw [same] at below
        rw [same, BufferPool.setChunk_chunks_self, level]
        omega
      · rw [BufferPool.setChunk_chunks_of_ne _ _ same]
        exact below
  · rw [List.pairwise_cons]
    refine ⟨?_, spans.apart⟩
    intro other earlier
    obtain ⟨_, below⟩ := spans.placed other earlier
    by_cases same : other.owner = ptr
    · rw [same] at below
      exact .inr (.inr below)
    · exact .inl (Ne.symm same)

theorem acquired (spans : Spans pool live) (unused : fresh ∉ pool.active ++ pool.free)
    (acquired : pool.acquireChunk fresh = some (ptr, next)) : Acquired pool next ptr := by
  rcases BufferPool.acquireChunk_cases acquired with ⟨rest, whole, rfl⟩ | ⟨none, rfl, rfl⟩
  · have free : ptr ∈ pool.free := by simp [whole]
    refine ⟨?_, rfl, rfl, rfl, ?_, spans.freed ptr free, spans.shape.empty ptr free,
      fun _ _ => rfl⟩
    · intro active
      exact spans.shape.not_mem_free active free
    · intro other member
      simp [whole, member]
  · refine ⟨?_, rfl, rfl, rfl, fun _ member => member, by simp, by simp, ?_⟩
    · intro active
      exact unused (List.mem_append_left _ active)
    · intro other different
      exact BufferPool.setChunk_chunks_of_ne _ _ different

/-- The chunk that was acquired becomes the last active one. -/
theorem acquireChunk (spans : Spans pool live) (unused : fresh ∉ pool.active ++ pool.free)
    (found : pool.acquireChunk fresh = some (ptr, next)) :
    Spans { next with active := next.active ++ [ptr] } live := by
  have acquired := spans.acquired unused found
  have unheld := spans.inactive acquired.gone
  refine ⟨(spans.shape.acquireChunk unused found).1, ?_, ?_, ?_, spans.apart⟩
  · intro other member
    by_cases same : other = ptr
    · rw [same]
      exact acquired.unreferenced
    · simpa [acquired.others other same] using spans.freed other (acquired.fewer other member)
  · intro other member
    by_cases same : other = ptr
    · simp [same, acquired.unreferenced, unheld]
    · simpa [acquired.others other same] using
        spans.counted other (acquired.mem_active member same)
  · intro buf member
    obtain ⟨owned, below⟩ := spans.placed buf member
    obtain ⟨active, different⟩ := acquired.mem_append owned
    exact ⟨active, by simpa [acquired.others buf.owner different] using below⟩

/-- The count of a chunk whose buffer is destroyed. -/
theorem dropBuffer (spans : Spans pool live) {position : Nat}
    (found : live[position]? = some buf) :
    Spans (pool.setChunk buf.owner { pool.chunks buf.owner with
      refCount := (pool.chunks buf.owner).refCount - 1 }) (live.eraseIdx position) := by
  obtain ⟨active, _⟩ := spans.placed buf (List.mem_of_getElem? found)
  refine ⟨spans.shape.setChunk (spans.shape.empty buf.owner) (spans.shape.bounded buf.owner),
    ?_, ?_, ?_, spans.apart.sublist (List.eraseIdx_sublist _ _)⟩
  · intro other member
    have different : other ≠ buf.owner := by
      rintro rfl
      exact spans.shape.not_mem_free active member
    rw [BufferPool.setChunk_chunks_of_ne _ _ different]
    exact spans.freed other member
  · intro other member
    have before := spans.counted other member
    have fewer := held_eraseIdx found other
    by_cases same : buf.owner = other
    · subst same
      rw [if_pos rfl] at fewer
      have atLeast : 1 ≤ (pool.chunks buf.owner).refCount := by
        rw [UInt32.le_iff_toNat_le, UInt32.toNat_one]
        omega
      simp only [BufferPool.setChunk_chunks_self, UInt32.toNat_sub_of_le _ _ atLeast,
        UInt32.toNat_one]
      omega
    · rw [if_neg same] at fewer
      rw [BufferPool.setChunk_chunks_of_ne _ _ (Ne.symm same)]
      omega
  · intro other member
    obtain ⟨owned, below⟩ := spans.placed other (List.mem_of_mem_eraseIdx member)
    refine ⟨owned, ?_⟩
    by_cases same : other.owner = buf.owner
    · rw [same] at below ⊢
      rw [BufferPool.setChunk_chunks_self]
      exact below
    · rw [BufferPool.setChunk_chunks_of_ne _ _ same]
      exact below

end Spans

end UringServer.Buffer.Pool
