import Mathlib.Data.List.Nodup
import Mathlib.Logic.Function.Basic
import Mathlib.Tactic.Simps.Basic
import UringServer.Semantics.TransitionSystem

/-!
# `SendBufferChunk` and `BufferPool`

Send buffers are cut one after another out of chunks. The pool opens them in the
last active chunk, and takes another chunk when that one has no room. The release
of the last buffer of a full chunk gives the chunk back.

`Allocate` runs under the mutex of the pool and is one step. A release is up to
three: the decrement of `ref_count_`, the `Full()` check if the count came down to
zero, and `OnChunkUnused` if the chunk is full, whose `try_lock` succeeds or
leaves the chunk to `pending_gc_`. Any number of threads release.
-/

namespace UringServer.Buffer.Pool

open UringServer.Semantics

/-- `CoreError`. -/
inductive CoreError where
  | invalidArgument
  | resourceExhausted
  | alreadyExists
  | notFound
deriving DecidableEq

/-- The address of a chunk. -/
abbrev ChunkPtr := Nat

/-- A `SendBuffer`: its chunk, and the bytes of it that it was given. -/
structure SendBuffer where
  owner : ChunkPtr
  start : UInt32
  allocSize : UInt32
deriving DecidableEq

/-- The counters of a `SendBufferChunk`. -/
structure SendBufferChunk where
  offset : UInt32 := 0
  refCount : UInt32 := 0
deriving DecidableEq

namespace SendBufferChunk

/-- `SendBufferChunk::Open` on the chunk at an address; the sum wraps. -/
def openBuffer (chunk : SendBufferChunk) (self : ChunkPtr) (chunkSize size : UInt32) :
    Option (SendBuffer × SendBufferChunk) :=
  if chunk.offset + size > chunkSize then
    none
  else
    some (⟨self, chunk.offset, size⟩,
      { offset := chunk.offset + size, refCount := chunk.refCount + 1 })

/-- `SendBufferChunk::Reset`. -/
def reset (chunk : SendBufferChunk) : SendBufferChunk := { chunk with offset := 0 }

/-- `SendBufferChunk::Full`. -/
def full (chunk : SendBufferChunk) (chunkSize : UInt32) : Bool := chunk.offset ≥ chunkSize

end SendBufferChunk

/-- `BufferPool::kMaxFreeChunks`. -/
def maxFreeChunks : Nat := 8

/-- The members of a `BufferPool`, and the chunks at their addresses. -/
structure BufferPool where
  chunkSize : UInt32
  maxChunks : UInt32
  active : List ChunkPtr := []
  free : List ChunkPtr := []
  pendingGc : List ChunkPtr := []
  chunks : ChunkPtr → SendBufferChunk := fun _ => {}

namespace BufferPool

/-- Change the chunk at an address. -/
@[simps -fullyApplied chunkSize maxChunks active free pendingGc]
def setChunk (pool : BufferPool) (ptr : ChunkPtr) (chunk : SendBufferChunk) : BufferPool :=
  { pool with chunks := Function.update pool.chunks ptr chunk }

/-- `BufferPool::MoveToFree`. A chunk that `free_chunks_` has no place for is destroyed. -/
def moveToFree (pool : BufferPool) (ptr : ChunkPtr) : BufferPool :=
  if ptr ∈ pool.active then
    { pool.setChunk ptr (pool.chunks ptr).reset with
      free := if pool.free.length < maxFreeChunks then pool.free ++ [ptr] else pool.free
      active := pool.active.erase ptr }
  else
    pool

/-- `BufferPool::FlushPendingGc`. A push to `pending_gc_` that is half done hides
what is behind it, so `Drain` sees the first `visible` chunks. -/
def flushPendingGc (pool : BufferPool) (visible : Nat) : BufferPool :=
  (pool.pendingGc.take visible).foldl moveToFree
    { pool with pendingGc := pool.pendingGc.drop visible }

/-- `BufferPool::AcquireChunk`; a new chunk is built at the address `fresh`. -/
def acquireChunk (pool : BufferPool) (fresh : ChunkPtr) : Option (ChunkPtr × BufferPool) :=
  match pool.free.getLast? with
  | some ptr => some (ptr, { pool with free := pool.free.dropLast })
  | none =>
    if pool.active.length ≥ pool.maxChunks.toNat then
      none
    else
      some (fresh, pool.setChunk fresh {})

/-- `active_chunks_.back()->Open(size)`. -/
def openBack (pool : BufferPool) (size : UInt32) : Option (SendBuffer × BufferPool) :=
  match pool.active.getLast? with
  | some ptr =>
    ((pool.chunks ptr).openBuffer ptr pool.chunkSize size).map fun (buf, chunk) =>
      (buf, pool.setChunk ptr chunk)
  | none => none

/-- `BufferPool::Allocate`. -/
def allocate (pool : BufferPool) (size : UInt32) (visible : Nat) (fresh : ChunkPtr) :
    Except CoreError SendBuffer × BufferPool :=
  let pool := pool.flushPendingGc visible
  match pool.openBack size with
  | some (buf, pool) => (.ok buf, pool)
  | none =>
    match pool.acquireChunk fresh with
    | none => (.error .resourceExhausted, pool)
    | some (ptr, pool) =>
      let pool := { pool with active := pool.active ++ [ptr] }
      match pool.openBack size with
      | some (buf, pool) => (.ok buf, pool)
      | none => (.error .resourceExhausted, pool)

@[simp] theorem setChunk_chunks_self (pool : BufferPool) (ptr : ChunkPtr)
    (chunk : SendBufferChunk) : (pool.setChunk ptr chunk).chunks ptr = chunk :=
  Function.update_self ..

theorem setChunk_chunks_of_ne (pool : BufferPool) {ptr other : ChunkPtr}
    (chunk : SendBufferChunk) (different : other ≠ ptr) :
    (pool.setChunk ptr chunk).chunks other = pool.chunks other :=
  Function.update_of_ne different ..

@[simp] theorem moveToFree_chunkSize (pool : BufferPool) (ptr : ChunkPtr) :
    (pool.moveToFree ptr).chunkSize = pool.chunkSize := by
  unfold moveToFree
  split <;> rfl

@[simp] theorem moveToFree_pendingGc (pool : BufferPool) (ptr : ChunkPtr) :
    (pool.moveToFree ptr).pendingGc = pool.pendingGc := by
  unfold moveToFree
  split <;> rfl

variable {pool : BufferPool}

theorem moveToFree_of_active {ptr : ChunkPtr} (active : ptr ∈ pool.active) :
    pool.moveToFree ptr = { pool.setChunk ptr (pool.chunks ptr).reset with
      free := if pool.free.length < maxFreeChunks then pool.free ++ [ptr] else pool.free
      active := pool.active.erase ptr } := if_pos active

theorem moveToFree_of_not_active {ptr : ChunkPtr}
    (gone : ptr ∉ pool.active) : pool.moveToFree ptr = pool := if_neg gone

theorem mem_free_moveToFree {ptr other : ChunkPtr} (freed : other ∈ (pool.moveToFree ptr).free) :
    other ∈ pool.free ∨ other = ptr ∧ ptr ∈ pool.active := by
  unfold moveToFree at freed
  split at freed
  case isFalse => exact .inl freed
  case isTrue active =>
  simp only at freed
  split at freed
  · rcases List.mem_append.mp freed with before | last
    · exact .inl before
    · exact .inr ⟨List.mem_singleton.mp last, active⟩
  · exact .inl freed

theorem mem_active_moveToFree {ptr other : ChunkPtr}
    (remains : other ∈ (pool.moveToFree ptr).active) : other ∈ pool.active := by
  unfold moveToFree at remains
  split at remains
  · exact List.mem_of_mem_erase remains
  · exact remains

theorem flushPendingGc_nil (none : pool.pendingGc = []) (visible : Nat) :
    pool.flushPendingGc visible = pool := by
  unfold flushPendingGc
  rw [none, List.take_nil, List.drop_nil, List.foldl_nil, ← none]

/-- A flush that sees anything moves the first chunk, then goes on. -/
theorem flushPendingGc_cons {ptr : ChunkPtr} {rest : List ChunkPtr}
    (pending : pool.pendingGc = ptr :: rest) (visible : Nat) :
    pool.flushPendingGc (visible + 1) =
      ({ pool with pendingGc := rest }.moveToFree ptr).flushPendingGc visible := by
  unfold flushPendingGc
  rw [pending, moveToFree_pendingGc]
  simp only [List.take_succ_cons, List.drop_succ_cons, List.foldl_cons]
  congr 1
  unfold moveToFree
  simp only
  split <;> rfl

/-- What a flush keeps, one chunk after another. -/
theorem flushPendingGc_induction {Inv : BufferPool → Prop}
    (moved : ∀ {pool ptr rest}, pool.pendingGc = ptr :: rest → Inv pool →
      Inv ({ pool with pendingGc := rest }.moveToFree ptr))
    (visible : Nat) (holds : Inv pool) :
    Inv (pool.flushPendingGc visible) := by
  induction visible generalizing pool with
  | zero => exact holds
  | succ visible ih =>
    cases pending : pool.pendingGc with
    | nil =>
      rw [flushPendingGc_nil pending]
      exact holds
    | cons ptr rest =>
      rw [flushPendingGc_cons pending]
      exact ih (moved pending holds)

theorem flushPendingGc_chunkSize (pool : BufferPool) (visible : Nat) :
    (pool.flushPendingGc visible).chunkSize = pool.chunkSize := by
  let Inv (next : BufferPool) : Prop := next.chunkSize = pool.chunkSize
  have start : Inv pool := rfl
  refine flushPendingGc_induction ?_ visible start
  intro next ptr rest _ same
  exact (moveToFree_chunkSize _ ptr).trans same

/-- How `AcquireChunk` comes by a chunk. -/
theorem acquireChunk_cases {pool next : BufferPool} {fresh ptr : ChunkPtr}
    (acquired : pool.acquireChunk fresh = some (ptr, next)) :
    (∃ rest, pool.free = rest ++ [ptr] ∧ next = { pool with free := rest }) ∨
      (pool.free = [] ∧ ptr = fresh ∧ next = pool.setChunk fresh {}) := by
  unfold acquireChunk at acquired
  split at acquired
  case h_1 last found =>
    cases acquired
    obtain ⟨rest, whole⟩ := List.getLast?_eq_some_iff.mp found
    exact .inl ⟨rest, whole, by simp [whole]⟩
  case h_2 none =>
    split at acquired <;> cases acquired
    exact .inr ⟨List.getLast?_eq_none_iff.mp none, rfl, rfl⟩

theorem acquireChunk_chunkSize {pool next : BufferPool} {fresh ptr : ChunkPtr}
    (acquired : pool.acquireChunk fresh = some (ptr, next)) :
    next.chunkSize = pool.chunkSize := by
  rcases acquireChunk_cases acquired with ⟨_, _, rfl⟩ | ⟨_, _, rfl⟩ <;> rfl

theorem acquireChunk_eq_none_iff {fresh : ChunkPtr} :
    pool.acquireChunk fresh = none ↔
      pool.free = [] ∧ pool.maxChunks.toNat ≤ pool.active.length := by
  unfold acquireChunk
  split
  case h_1 ptr found =>
    have nonempty : pool.free ≠ [] := by
      rintro empty
      simp [empty] at found
    simp [nonempty]
  case h_2 none =>
    simp [List.getLast?_eq_none_iff.mp none]

/-- What `Open` on the last active chunk does when it succeeds. -/
theorem openBack_cases {pool next : BufferPool} {size : UInt32} {buf : SendBuffer}
    (opened : pool.openBack size = some (buf, next)) :
    ∃ ptr, pool.active.getLast? = some ptr ∧
      (pool.chunks ptr).offset + size ≤ pool.chunkSize ∧
      buf = ⟨ptr, (pool.chunks ptr).offset, size⟩ ∧
      next = pool.setChunk ptr
        { offset := (pool.chunks ptr).offset + size
          refCount := (pool.chunks ptr).refCount + 1 } := by
  unfold openBack at opened
  split at opened
  case h_2 => cases opened
  case h_1 ptr found =>
    unfold SendBufferChunk.openBuffer at opened
    split at opened <;> cases opened
    case isFalse fits => exact ⟨ptr, found, UInt32.not_lt.mp fits, rfl, rfl⟩

/-- A flush builds no chunk, so an address without one stays without. -/
theorem unused_flushPendingGc {fresh : ChunkPtr} (visible : Nat)
    (unused : fresh ∉ pool.active ++ pool.free) :
    fresh ∉ (pool.flushPendingGc visible).active ++ (pool.flushPendingGc visible).free := by
  let Inv (next : BufferPool) : Prop := fresh ∉ next.active ++ next.free
  have start : Inv pool := unused
  refine flushPendingGc_induction ?_ visible start
  intro next ptr rest _ absent member
  apply absent
  rcases List.mem_append.mp member with remains | freed
  · have before := mem_active_moveToFree remains
    exact List.mem_append_left _ before
  · rcases mem_free_moveToFree freed with before | ⟨rfl, active⟩
    · exact List.mem_append_right _ before
    · exact List.mem_append_left _ active

/-- The ways `Allocate` can go once the deferred chunks are flushed. -/
inductive Allocation (flushed : BufferPool) (size : UInt32) (fresh : ChunkPtr) :
    Except CoreError SendBuffer × BufferPool → Prop where
  | current {buf next} (opened : flushed.openBack size = some (buf, next)) :
      Allocation flushed size fresh (.ok buf, next)
  | exhausted (noRoom : flushed.openBack size = none)
      (refused : flushed.acquireChunk fresh = none) :
      Allocation flushed size fresh (.error .resourceExhausted, flushed)
  | another {ptr pool buf next} (noRoom : flushed.openBack size = none)
      (acquired : flushed.acquireChunk fresh = some (ptr, pool))
      (opened : { pool with active := pool.active ++ [ptr] }.openBack size = some (buf, next)) :
      Allocation flushed size fresh (.ok buf, next)
  | tooLarge {ptr pool} (noRoom : flushed.openBack size = none)
      (acquired : flushed.acquireChunk fresh = some (ptr, pool))
      (larger : { pool with active := pool.active ++ [ptr] }.openBack size = none) :
      Allocation flushed size fresh
        (.error .resourceExhausted, { pool with active := pool.active ++ [ptr] })

theorem allocate_allocation (pool : BufferPool) (size : UInt32) (visible : Nat)
    (fresh : ChunkPtr) :
    Allocation (pool.flushPendingGc visible) size fresh (pool.allocate size visible fresh) := by
  unfold allocate
  simp only
  split
  case h_1 opened => exact .current opened
  case h_2 noRoom =>
  split
  case h_1 refused => exact .exhausted noRoom refused
  case h_2 acquired =>
  split
  case h_1 opened => exact .another noRoom acquired opened
  case h_2 larger => exact .tooLarge noRoom acquired larger

end BufferPool

/-- Where a thread stands in a release. -/
inductive Releaser where
  | idle
  /-- In `OnRelease`, the count came down to zero, before `Full()`. -/
  | checking (ptr : ChunkPtr)
  /-- The chunk is full, before `OnChunkUnused`. -/
  | unused (ptr : ChunkPtr)
deriving DecidableEq

/-- The pool, the buffers handed out and not released, and where every thread stands. -/
structure State (Thread : Type) where
  pool : BufferPool
  live : List SendBuffer := []
  releasers : Thread → Releaser := fun _ => .idle

/-- One step of an allocation or of a release. -/
inductive Action (Thread : Type) where
  | allocate (size : UInt32) (visible : Nat) (fresh : ChunkPtr)
  | release (thread : Thread) (position : Nat)
  | checkFull (thread : Thread)
  | chunkUnused (thread : Thread) (locked : Bool)

variable {Thread : Type} [DecidableEq Thread]

/-- Move one thread. -/
def State.setReleaser (state : State Thread) (thread : Thread) (releaser : Releaser) :
    State Thread :=
  { state with releasers := Function.update state.releasers thread releaser }

/-- `ref_count_.fetch_sub(1)` of the chunk of a buffer that is destroyed. -/
def State.dropBuffer (state : State Thread) (position : Nat) (ptr : ChunkPtr) : State Thread :=
  let chunk := state.pool.chunks ptr
  { state with
    pool := state.pool.setChunk ptr { chunk with refCount := chunk.refCount - 1 }
    live := state.live.eraseIdx position }

/-- One step. A new chunk is never built at the address of one that exists. -/
def step (state : State Thread) : Action Thread → Option (State Thread)
  | .allocate size visible fresh =>
    if fresh ∈ state.pool.active ++ state.pool.free then
      none
    else
      let (result, pool) := state.pool.allocate size visible fresh
      match result with
      | .ok buf => some { state with pool, live := buf :: state.live }
      | .error _ => some { state with pool }
  | .release thread position =>
    match state.releasers thread, state.live[position]? with
    | .idle, some buf =>
      some ((state.dropBuffer position buf.owner).setReleaser thread
        (if (state.pool.chunks buf.owner).refCount = 1 then .checking buf.owner else .idle))
    | _, _ => none
  | .checkFull thread =>
    match state.releasers thread with
    | .checking ptr =>
      some (state.setReleaser thread
        (if (state.pool.chunks ptr).full state.pool.chunkSize then .unused ptr else .idle))
    | _ => none
  | .chunkUnused thread locked =>
    match state.releasers thread with
    | .unused ptr =>
      let pool := if locked then state.pool.moveToFree ptr
        else { state.pool with pendingGc := state.pool.pendingGc ++ [ptr] }
      some ({ state with pool }.setReleaser thread .idle)
    | _ => none

/-- A new pool, nothing handed out, no release under way. -/
def Initial (state : State Thread) : Prop :=
  ∃ chunkSize maxChunks, state = { pool := { chunkSize, maxChunks } }

/-- The pool with its allocating and releasing threads. -/
def system (Thread : Type) [DecidableEq Thread] :
    TransitionSystem (State Thread) (Action Thread) where
  Initial := Initial
  step := step

theorem initial_pool (chunkSize maxChunks : UInt32) :
    (system Thread).Initial { pool := { chunkSize, maxChunks } } := ⟨chunkSize, maxChunks, rfl⟩

end UringServer.Buffer.Pool
