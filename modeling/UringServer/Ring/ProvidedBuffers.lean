import Mathlib.Tactic.Simps.Basic
import UringServer.Ring.RingBuffer
import UringServer.Semantics.TransitionSystem

/-!
# Provided buffers in use

The kernel picks the buffer at its own 16-bit head, receives into it and posts a
completion that names the buffer. `Session::OnRecv` looks at the bytes with
`View` and gives the buffer back with `Return`, which writes the entry and moves
the tail under the mutex, in two steps that the kernel may come between, and
counts the buffer as available after it. Any number of threads handle
completions.
-/

namespace UringServer.Ring

open UringServer.Semantics

/-- Where a thread stands in `OnRecv`. -/
inductive BufUser where
  | idle
  /-- With the buffer of a completion, into which the bytes were received. -/
  | handling (bufId : Nat) (received : List UInt8)
  /-- In `Return`, with the mutex, after `io_uring_buf_ring_add`. -/
  | adding (bufId : Nat)
  /-- In `Return`, before `available_.fetch_add`. -/
  | counting

/-- One atomic step. -/
inductive BufferAction (Thread : Type) where
  /-- The kernel receives into the buffer at its head. -/
  | receive (data : List UInt8)
  /-- A thread takes the next completion. -/
  | take (thread : Thread)
  /-- `View`, or a later look at the span that it gave. -/
  | view (thread : Thread)
  | add (thread : Thread)
  | advance (thread : Thread)
  | count (thread : Thread)

/-- The buffers, the kernel and the threads. `published`, `picked` and `seen` record the entries
behind which the tail has moved, the buffers that the kernel has picked and what `View` has shown,
with the bytes that were received; no step reads them. -/
structure BufferState (Thread : Type) where
  buffer : RingBuffer
  head : Nat
  completions : List (Nat × List UInt8)
  mutex : Option Thread
  users : Thread → BufUser
  published : List BufEntry
  picked : List Nat
  seen : List (List UInt8 × List UInt8)

variable {Thread : Type} [DecidableEq Thread]

namespace BufferState

omit [DecidableEq Thread] in
/-- After `Create`. -/
def initial (buffer : RingBuffer) : BufferState Thread where
  buffer := buffer
  head := 0
  completions := []
  mutex := none
  users := fun _ => .idle
  published := (List.range buffer.cfg.bufCount).map buffer.cfg.entry
  picked := []
  seen := []

/-- Move one thread. -/
@[simps -fullyApplied]
def setUser (state : BufferState Thread) (thread : Thread) (user : BufUser) : BufferState Thread :=
  { state with users := Function.update state.users thread user }

omit [DecidableEq Thread] in
/-- The entry at the kernel's head. -/
def front (state : BufferState Thread) : BufEntry :=
  state.buffer.ring.bufs (state.head &&& bufRingMask state.buffer.cfg.bufCount)

omit [DecidableEq Thread] in
/-- The kernel has picked the entry at its head and received into its buffer. -/
def received (state : BufferState Thread) (data : List UInt8) : BufferState Thread :=
  { state with
    buffer := { state.buffer with
      memory := overwrite state.buffer.memory state.front.addr data }
    head := (state.head + 1) % 65536
    completions := state.completions ++ [(state.front.bid, data)]
    picked := state.picked ++ [state.front.bid] }

omit [DecidableEq Thread] in
/-- `io_uring_buf_ring_add` in `Return`. -/
def added (state : BufferState Thread) (bufId : Nat) : BufferState Thread :=
  { state with
    buffer := { state.buffer with
      ring := state.buffer.ring.add (state.buffer.cfg.entry bufId)
        (bufRingMask state.buffer.cfg.bufCount) 0 } }

omit [DecidableEq Thread] in
/-- `io_uring_buf_ring_advance` in `Return`. -/
def advanced (state : BufferState Thread) (bufId : Nat) : BufferState Thread :=
  { state with
    buffer := { state.buffer with ring := state.buffer.ring.advance 1 }
    published := state.published ++ [state.buffer.cfg.entry bufId] }

end BufferState

/-- The steps of the kernel, of `OnRecv`, `View` and `Return`. -/
def bufferStep (state : BufferState Thread) : BufferAction Thread → Option (BufferState Thread)
  | .receive data =>
    if state.head = state.buffer.ring.tail then none
    else if state.front.len < data.length then none
    else some (state.received data)
  | .take thread =>
    match state.users thread, state.completions with
    | .idle, (bufId, data) :: rest =>
      some ({ state with completions := rest }.setUser thread (.handling bufId data))
    | _, _ => none
  | .view thread =>
    match state.users thread with
    | .handling bufId data => some { state with
        seen := state.seen ++ [(data, state.buffer.view bufId data.length)] }
    | _ => none
  | .add thread =>
    match state.users thread with
    | .handling bufId _ =>
      if state.buffer.cfg.bufCount ≤ bufId then some (state.setUser thread .idle)
      else if state.mutex.isSome then none
      else some ({ state.added bufId with mutex := some thread }.setUser thread (.adding bufId))
    | _ => none
  | .advance thread =>
    match state.users thread with
    | .adding bufId =>
      some ({ state.advanced bufId with mutex := none }.setUser thread .counting)
    | _ => none
  | .count thread =>
    match state.users thread with
    | .counting => some ({ state with
        buffer := { state.buffer with available := state.buffer.available + 1 } }.setUser
          thread .idle)
    | _ => none

/-- A `RingBuffer` with its users. -/
def bufferSystem (Thread : Type) [DecidableEq Thread] :
    TransitionSystem (BufferState Thread) (BufferAction Thread) where
  Initial := fun state => ∃ cfg buffer, RingBuffer.create cfg = some buffer ∧
    state = .initial buffer
  step := bufferStep

theorem bufferSystem_initial {cfg : RingBufferConfig} {buffer : RingBuffer}
    (created : RingBuffer.create cfg = some buffer) :
    (bufferSystem Thread).Initial (.initial buffer) := ⟨cfg, buffer, created, rfl⟩

/-- What one step does. -/
inductive BufferEffect (state : BufferState Thread) :
    BufferAction Thread → BufferState Thread → Prop where
  | receive (data : List UInt8) (some : state.head ≠ state.buffer.ring.tail)
      (fits : data.length ≤ state.front.len) :
      BufferEffect state (.receive data) (state.received data)
  | take (thread : Thread) (bufId : Nat) (data : List UInt8) (rest : List (Nat × List UInt8))
      (found : state.users thread = .idle) (next : state.completions = (bufId, data) :: rest) :
      BufferEffect state (.take thread)
        ({ state with completions := rest }.setUser thread (.handling bufId data))
  | view (thread : Thread) (bufId : Nat) (data : List UInt8)
      (found : state.users thread = .handling bufId data) :
      BufferEffect state (.view thread)
        { state with seen := state.seen ++ [(data, state.buffer.view bufId data.length)] }
  | refused (thread : Thread) (bufId : Nat) (data : List UInt8)
      (found : state.users thread = .handling bufId data)
      (large : state.buffer.cfg.bufCount ≤ bufId) :
      BufferEffect state (.add thread) (state.setUser thread .idle)
  | add (thread : Thread) (bufId : Nat) (data : List UInt8)
      (found : state.users thread = .handling bufId data) (free : state.mutex = none)
      (small : bufId < state.buffer.cfg.bufCount) :
      BufferEffect state (.add thread)
        ({ state.added bufId with mutex := some thread }.setUser thread (.adding bufId))
  | advance (thread : Thread) (bufId : Nat) (found : state.users thread = .adding bufId) :
      BufferEffect state (.advance thread)
        ({ state.advanced bufId with mutex := none }.setUser thread .counting)
  | count (thread : Thread) (found : state.users thread = .counting) :
      BufferEffect state (.count thread) ({ state with
        buffer := { state.buffer with available := state.buffer.available + 1 } }.setUser
          thread .idle)

/-- Every step has one of the listed effects. -/
theorem bufferStep_effect {state next : BufferState Thread} {action : BufferAction Thread}
    (transition : bufferStep state action = some next) : BufferEffect state action next := by
  cases action with
  | receive data =>
    rw [bufferStep] at transition
    split at transition
    case isTrue => cases transition
    case isFalse some =>
      split at transition
      case isTrue => cases transition
      case isFalse fits =>
        cases transition
        exact .receive data some (Nat.le_of_not_lt fits)
  | take thread =>
    rw [bufferStep] at transition
    split at transition <;> cases transition
    exact .take thread _ _ _ ‹_› ‹_›
  | view thread =>
    rw [bufferStep] at transition
    split at transition <;> cases transition
    exact .view thread _ _ ‹_›
  | add thread =>
    rw [bufferStep] at transition
    split at transition
    case h_1 bufId data found =>
      split at transition
      case isTrue large =>
        cases transition
        exact .refused thread bufId data found large
      case isFalse small =>
        split at transition <;> cases transition
        exact .add thread bufId data found (Option.not_isSome_iff_eq_none.mp ‹_›)
          (Nat.lt_of_not_le small)
    case h_2 => cases transition
  | advance thread =>
    rw [bufferStep] at transition
    split at transition <;> cases transition
    exact .advance thread _ ‹_›
  | count thread =>
    rw [bufferStep] at transition
    split at transition <;> cases transition
    exact .count thread ‹_›

end UringServer.Ring
