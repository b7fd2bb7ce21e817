import UringServer.Semantics.Bytes

/-!
# `RecvBuffer`

The reassembly buffer of a session: storage of a fixed size with a read and a
write position in it.
-/

namespace UringServer.Buffer

open UringServer.Semantics

/-- The members of a `RecvBuffer`. -/
structure RecvBuffer where
  storage : List UInt8 := List.replicate 65536 0
  capacity : Nat := 65536
  readPos : Nat := 0
  writePos : Nat := 0

namespace RecvBuffer

/-- `RecvBuffer::IsEmpty`. -/
def isEmpty (buffer : RecvBuffer) : Bool := buffer.readPos = buffer.writePos

/-- `RecvBuffer::WritableSize`. -/
def writableSize (buffer : RecvBuffer) : Nat := buffer.capacity - buffer.writePos

/-- `RecvBuffer::ReadRegion`. -/
def readRegion (buffer : RecvBuffer) : List UInt8 :=
  (buffer.storage.drop buffer.readPos).take (buffer.writePos - buffer.readPos)

/-- `RecvBuffer::ShouldCompact`. -/
def shouldCompact (buffer : RecvBuffer) : Bool := buffer.readPos > buffer.capacity / 2

/-- `RecvBuffer::Compact`. -/
def compact (buffer : RecvBuffer) : RecvBuffer :=
  if buffer.readPos = 0 then
    buffer
  else
    { buffer with
      storage := overwrite buffer.storage 0 buffer.readRegion
      readPos := 0
      writePos := buffer.writePos - buffer.readPos }

/-- `RecvBuffer::OnRead`. -/
def onRead (buffer : RecvBuffer) (count : Nat) : RecvBuffer :=
  let buffer := { buffer with readPos := buffer.readPos + count }
  if buffer.readPos = buffer.writePos then { buffer with readPos := 0, writePos := 0 } else buffer

/-- `RecvBuffer::Append`; without room there is no buffer, as for `kResourceExhausted`. -/
def append (buffer : RecvBuffer) (data : List UInt8) : Option RecvBuffer :=
  let buffer := if buffer.writableSize < data.length then buffer.compact else buffer
  if buffer.writableSize < data.length then
    none
  else
    some { buffer with
      storage := overwrite buffer.storage buffer.writePos data
      writePos := buffer.writePos + data.length }

end RecvBuffer

end UringServer.Buffer
