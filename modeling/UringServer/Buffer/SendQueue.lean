import Mathlib.Data.List.Basic

/-!
# `SendQueue`

The list of buffers waiting to be sent, and the flag that says whether somebody
is already looking after them. Each operation is one section under the mutex.
-/

namespace UringServer.Buffer

/-- The members of a `SendQueue`. -/
structure SendQueue (Buffer : Type) where
  pending : List Buffer := []
  registered : Bool := false
  maxPending : Nat := 4096
deriving DecidableEq

/-- What `SendQueue::Push` reports to its caller. -/
structure PushResult where
  needsRegister : Bool
  overflowed : Bool
deriving DecidableEq

namespace SendQueue

variable {Buffer : Type}

/-- `SendQueue::Push`. -/
def push (queue : SendQueue Buffer) (buf : Buffer) : PushResult × SendQueue Buffer :=
  if queue.pending.length ≥ queue.maxPending then
    (⟨false, true⟩, queue)
  else
    (⟨!queue.registered, false⟩,
      { queue with pending := queue.pending ++ [buf], registered := true })

/-- `SendQueue::Drain`. -/
def drain (queue : SendQueue Buffer) : List Buffer × SendQueue Buffer :=
  (queue.pending, { queue with pending := [] })

/-- `SendQueue::MarkSent`. -/
def markSent (queue : SendQueue Buffer) : SendQueue Buffer :=
  if queue.pending.isEmpty then { queue with registered := false } else queue

/-- Whether a `Push` would exceed the capacity. -/
def full (queue : SendQueue Buffer) : Prop := queue.maxPending ≤ queue.pending.length

instance (queue : SendQueue Buffer) : Decidable queue.full :=
  inferInstanceAs (Decidable (_ ≤ _))

theorem push_of_full {queue : SendQueue Buffer} (full : queue.full) (buf : Buffer) :
    queue.push buf = (⟨false, true⟩, queue) := if_pos full

theorem push_of_not_full {queue : SendQueue Buffer} (room : ¬ queue.full) (buf : Buffer) :
    queue.push buf = (⟨!queue.registered, false⟩,
      { queue with pending := queue.pending ++ [buf], registered := true }) := if_neg room

@[simp] theorem drain_fst (queue : SendQueue Buffer) : queue.drain.1 = queue.pending := rfl

@[simp] theorem drain_snd (queue : SendQueue Buffer) :
    queue.drain.2 = { queue with pending := [] } := rfl

@[simp] theorem markSent_pending (queue : SendQueue Buffer) :
    queue.markSent.pending = queue.pending := by
  unfold markSent
  split <;> rfl

theorem markSent_registered (queue : SendQueue Buffer) :
    queue.markSent.registered = (queue.registered && !queue.pending.isEmpty) := by
  unfold markSent
  split <;> simp_all

end SendQueue

end UringServer.Buffer
