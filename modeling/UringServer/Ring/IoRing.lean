import Mathlib.Algebra.GroupWithZero.Nat
import Mathlib.Data.List.Basic

/-!
# The submission side of `IoRing`

The operations one owner has submitted and the kernel has not finally completed.
A `Prep` call takes a submission entry; it fails, and changes nothing, when
`GetSqe` finds the ring full. Whether it does is decided by everything else on
the ring, so it is an argument here.

An operation counts as submitted from the moment it is prepared: `Submit` hands
over what was prepared and prepares nothing itself.
-/

namespace UringServer.Ring

/-- `IORING_CQE_F_BUFFER`: the completion used a provided buffer. -/
def cqeBuffer : UInt32 := 1

/-- `IORING_CQE_F_MORE`: the operation will complete again. -/
def cqeMore : UInt32 := 2

/-- `IORING_CQE_BUFFER_SHIFT`. -/
def cqeBufferShift : UInt32 := 16

/-- Whether a completion promises another one. -/
def hasMore (flags : UInt32) : Bool := flags &&& cqeMore != 0

/-- Whether a completion carries a provided buffer. -/
def hasBuffer (flags : UInt32) : Bool := flags &&& cqeBuffer != 0

/-- The provided buffer a completion names, truncated to `uint16_t`. -/
def bufferId (flags : UInt32) : UInt16 := (flags >>> cqeBufferShift).toUInt16

/-- A `msghdr`: what each of its `iovec`s points at. -/
structure Message where
  iov : List (List UInt8)
deriving DecidableEq

/-- The bytes a message asks to be sent. -/
def Message.bytes (message : Message) : List UInt8 := message.iov.flatten

/-- What an owner has in flight, and what it gave back to the buffer ring. -/
structure IoRing where
  recvs : Nat := 0
  sendMsgs : List Message := []
  shutdowns : Nat := 0
  cancels : Nat := 0
  returned : List UInt16 := []
deriving DecidableEq

namespace IoRing

/-- The operations submitted and not finally completed. -/
def inFlight (ring : IoRing) : Nat := ring.recvs + ring.sendMsgs.length + ring.shutdowns

/-- `GetSqe`, then the entry filled in. -/
def prep (ring : IoRing) (sqe : Bool) (fill : IoRing → IoRing) : Option IoRing :=
  if sqe then some (fill ring) else none

/-- `IoRing::PrepRecvMultishot`. -/
def prepRecvMultishot (ring : IoRing) (sqe : Bool) : Option IoRing :=
  ring.prep sqe fun ring => { ring with recvs := ring.recvs + 1 }

/-- `IoRing::PrepSendMsg`, with the `RequestedBytes` it sets in the event. -/
def prepSendMsg (ring : IoRing) (sqe : Bool) (message : Message) : Option (Nat × IoRing) :=
  (ring.prep sqe fun ring => { ring with sendMsgs := ring.sendMsgs ++ [message] }).map
    fun ring => ((message.iov.map List.length).sum, ring)

/-- `IoRing::PrepDisconnect`. -/
def prepDisconnect (ring : IoRing) (sqe : Bool) : Option IoRing :=
  ring.prep sqe fun ring => { ring with shutdowns := ring.shutdowns + 1 }

/-- `IoRing::PrepCancel`. Its completion has no owner and is ignored. -/
def prepCancel (ring : IoRing) (sqe : Bool) : Option IoRing :=
  ring.prep sqe fun ring => { ring with cancels := ring.cancels + 1 }

/-- `RingBuffer::Return`. -/
def returnBuffer (ring : IoRing) (bufId : UInt16) : IoRing :=
  { ring with returned := ring.returned ++ [bufId] }

variable (ring : IoRing)

@[simp] theorem prepRecvMultishot_full : ring.prepRecvMultishot false = none := rfl

@[simp] theorem prepRecvMultishot_room :
    ring.prepRecvMultishot true = some { ring with recvs := ring.recvs + 1 } := rfl

@[simp] theorem prepSendMsg_full (message : Message) : ring.prepSendMsg false message = none := rfl

@[simp] theorem prepSendMsg_room (message : Message) :
    ring.prepSendMsg true message = some ((message.iov.map List.length).sum,
      { ring with sendMsgs := ring.sendMsgs ++ [message] }) := rfl

@[simp] theorem prepDisconnect_full : ring.prepDisconnect false = none := rfl

@[simp] theorem prepDisconnect_room :
    ring.prepDisconnect true = some { ring with shutdowns := ring.shutdowns + 1 } := rfl

@[simp] theorem inFlight_prepCancel (sqe : Bool) :
    ((ring.prepCancel sqe).getD ring).inFlight = ring.inFlight := by
  cases sqe <;> rfl

@[simp] theorem sendMsgs_prepCancel (sqe : Bool) :
    ((ring.prepCancel sqe).getD ring).sendMsgs = ring.sendMsgs := by
  cases sqe <;> rfl

end IoRing

end UringServer.Ring
