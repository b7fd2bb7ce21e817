import UringServer.Buffer.RecvBuffer
import UringServer.Semantics.TransitionSystem

/-!
# `RecvBuffer` in 32-bit arithmetic

The positions and sizes of a `RecvBuffer` are `std::uint32_t`, whose differences
wrap around. As long as its callers keep to the sizes it reports, it is a bounded
queue of bytes: no difference wraps, and whether there is room for more does not
depend on where the bytes lie. What the sessions use is the same buffer with
natural numbers.
-/

namespace UringServer.Buffer.Machine

open UringServer.Semantics

/-- The members of a `RecvBuffer`. -/
structure RecvBuffer where
  storage : List UInt8
  capacity : UInt32
  readPos : UInt32 := 0
  writePos : UInt32 := 0
deriving DecidableEq

namespace RecvBuffer

/-- The constructor. -/
def create (size : UInt32) : RecvBuffer :=
  { storage := List.replicate size.toNat 0, capacity := size }

/-- `RecvBuffer::ReadableSize`. -/
def readableSize (buffer : RecvBuffer) : UInt32 := buffer.writePos - buffer.readPos

/-- `RecvBuffer::WritableSize`. -/
def writableSize (buffer : RecvBuffer) : UInt32 := buffer.capacity - buffer.writePos

/-- `RecvBuffer::ReadRegion`. -/
def readRegion (buffer : RecvBuffer) : List UInt8 :=
  (buffer.storage.drop buffer.readPos.toNat).take (buffer.writePos - buffer.readPos).toNat

/-- `RecvBuffer::WriteRegion`. -/
def writeRegion (buffer : RecvBuffer) : List UInt8 :=
  (buffer.storage.drop buffer.writePos.toNat).take (buffer.capacity - buffer.writePos).toNat

/-- A caller writes to the start of `WriteRegion`. -/
def fill (buffer : RecvBuffer) (region : List UInt8) : RecvBuffer :=
  { buffer with storage := overwrite buffer.storage buffer.writePos.toNat region }

/-- `RecvBuffer::OnWrite`. -/
def onWrite (buffer : RecvBuffer) (bytes : UInt32) : RecvBuffer :=
  { buffer with writePos := buffer.writePos + bytes }

/-- `RecvBuffer::OnRead`. -/
def onRead (buffer : RecvBuffer) (bytes : UInt32) : RecvBuffer :=
  let buffer := { buffer with readPos := buffer.readPos + bytes }
  if buffer.readPos = buffer.writePos then { buffer with readPos := 0, writePos := 0 } else buffer

/-- `RecvBuffer::Compact`. -/
def compact (buffer : RecvBuffer) : RecvBuffer :=
  if buffer.readPos = 0 then
    buffer
  else
    let remaining := buffer.writePos - buffer.readPos
    { buffer with
      storage :=
        if remaining > 0 then overwrite buffer.storage 0 buffer.readRegion else buffer.storage
      readPos := 0
      writePos := remaining }

/-- The first step of `Append`. -/
def makeRoom (buffer : RecvBuffer) (size : UInt32) : RecvBuffer :=
  if buffer.writableSize < size then buffer.compact else buffer

/-- `RecvBuffer::Append`, and whether it succeeds. A buffer without room has been compacted. -/
def append (buffer : RecvBuffer) (data : List UInt8) : RecvBuffer × Bool :=
  let size := UInt32.ofNat data.length
  let buffer := buffer.makeRoom size
  if buffer.writableSize < size then
    (buffer, false)
  else
    ({ buffer with
        storage := overwrite buffer.storage buffer.writePos.toNat data
        writePos := buffer.writePos + size },
      true)

/-- The positions are in their order, within the storage. -/
structure Sound (buffer : RecvBuffer) : Prop where
  read_le_write : buffer.readPos ≤ buffer.writePos
  write_le_capacity : buffer.writePos ≤ buffer.capacity
  storage : buffer.storage.length = buffer.capacity.toNat

theorem readRegion_create (size : UInt32) : (create size).readRegion = [] := by
  simp [readRegion, create]

theorem create_sound (size : UInt32) : (create size).Sound :=
  ⟨UInt32.le_refl 0, UInt32.zero_le, List.length_replicate⟩

variable {buffer : RecvBuffer}

namespace Sound

theorem read_le (sound : buffer.Sound) : buffer.readPos.toNat ≤ buffer.writePos.toNat :=
  UInt32.le_iff_toNat_le.mp sound.read_le_write

theorem write_le (sound : buffer.Sound) : buffer.writePos.toNat ≤ buffer.storage.length :=
  (UInt32.le_iff_toNat_le.mp sound.write_le_capacity).trans_eq sound.storage.symm

theorem readable (sound : buffer.Sound) :
    (buffer.writePos - buffer.readPos).toNat = buffer.writePos.toNat - buffer.readPos.toNat :=
  UInt32.toNat_sub_of_le _ _ sound.read_le_write

theorem writable (sound : buffer.Sound) :
    (buffer.capacity - buffer.writePos).toNat = buffer.capacity.toNat - buffer.writePos.toNat :=
  UInt32.toNat_sub_of_le _ _ sound.write_le_capacity

theorem length_readRegion (sound : buffer.Sound) :
    buffer.readRegion.length = buffer.readableSize.toNat := by
  have inside := sound.write_le
  rw [readRegion, readableSize, List.length_take, List.length_drop, sound.readable]
  omega

variable {bytes : UInt32}

theorem readPos_add (sound : buffer.Sound) (fits : bytes ≤ buffer.readableSize) :
    (buffer.readPos + bytes).toNat = buffer.readPos.toNat + bytes.toNat := by
  have room := UInt32.le_iff_toNat_le.mp fits
  rw [readableSize, sound.readable] at room
  have ordered := sound.read_le
  have bound := buffer.writePos.toNat_lt
  rw [UInt32.toNat_add, Nat.mod_eq_of_lt (by omega)]

theorem writePos_add (sound : buffer.Sound) (fits : bytes ≤ buffer.writableSize) :
    (buffer.writePos + bytes).toNat = buffer.writePos.toNat + bytes.toNat := by
  have room := UInt32.le_iff_toNat_le.mp fits
  rw [writableSize, sound.writable] at room
  have inside := UInt32.le_iff_toNat_le.mp sound.write_le_capacity
  have bound := buffer.capacity.toNat_lt
  rw [UInt32.toNat_add, Nat.mod_eq_of_lt (by omega)]

/-- What can be read after the write position moved on. -/
theorem grow (sound : buffer.Sound) {storage : List UInt8}
    (fits : bytes ≤ buffer.writableSize) (long : storage.length = buffer.storage.length) :
    ({ buffer with storage, writePos := buffer.writePos + bytes } : RecvBuffer).Sound ∧
      ({ buffer with storage, writePos := buffer.writePos + bytes } : RecvBuffer).readRegion =
        (storage.drop buffer.readPos.toNat).take
          (buffer.writePos.toNat - buffer.readPos.toNat + bytes.toNat) := by
  have room := UInt32.le_iff_toNat_le.mp fits
  rw [writableSize, sound.writable] at room
  have ordered := sound.read_le
  have inside := UInt32.le_iff_toNat_le.mp sound.write_le_capacity
  have moved := sound.writePos_add fits
  have grown :
      ({ buffer with storage, writePos := buffer.writePos + bytes } : RecvBuffer).Sound := by
    refine ⟨UInt32.le_iff_toNat_le.mpr ?_, UInt32.le_iff_toNat_le.mpr ?_, long.trans sound.storage⟩
    · dsimp only
      omega
    · dsimp only
      omega
  refine ⟨grown, ?_⟩
  have size := grown.readable
  dsimp only at size
  rw [readRegion]
  dsimp only
  rw [size, moved]
  congr 1
  omega

/-- What is written to `WriteRegion` cannot be read yet. -/
theorem fill (sound : buffer.Sound) {region : List UInt8}
    (fits : region.length ≤ buffer.writableSize.toNat) :
    (buffer.fill region).Sound ∧ (buffer.fill region).readRegion = buffer.readRegion := by
  have inside := sound.write_le
  rw [writableSize, sound.writable, ← sound.storage] at fits
  refine ⟨⟨sound.read_le_write, sound.write_le_capacity, ?_⟩, ?_⟩
  · exact (length_overwrite (by omega)).trans sound.storage
  · rw [readRegion, readRegion, sound.readable]
    dsimp only [RecvBuffer.fill]
    rw [sound.readable, region_before_overwrite region _ inside]

/-- `OnWrite` adds the start of what can be written to what can be read. -/
theorem onWrite (sound : buffer.Sound) (fits : bytes ≤ buffer.writableSize) :
    (buffer.onWrite bytes).Sound ∧ (buffer.onWrite bytes).readRegion =
      buffer.readRegion ++ buffer.writeRegion.take bytes.toNat := by
  obtain ⟨grown, region⟩ := sound.grow fits rfl
  refine ⟨grown, region.trans ?_⟩
  have room := UInt32.le_iff_toNat_le.mp fits
  rw [writableSize] at room
  have ordered := sound.read_le
  have here : buffer.readPos.toNat + (buffer.writePos.toNat - buffer.readPos.toNat) =
      buffer.writePos.toNat := by omega
  rw [readRegion, writeRegion, sound.readable, List.take_add, List.drop_drop, here,
    List.take_take, Nat.min_eq_left room]

/-- `OnRead` takes from the start of what can be read. -/
theorem onRead (sound : buffer.Sound) (fits : bytes ≤ buffer.readableSize) :
    (buffer.onRead bytes).Sound ∧
      (buffer.onRead bytes).readRegion = buffer.readRegion.drop bytes.toNat := by
  have room := UInt32.le_iff_toNat_le.mp fits
  rw [readableSize, sound.readable] at room
  have ordered := sound.read_le
  have moved := sound.readPos_add fits
  have dropped : buffer.readRegion.drop bytes.toNat =
      (buffer.storage.drop (buffer.readPos + bytes).toNat).take
        (buffer.writePos.toNat - (buffer.readPos + bytes).toNat) := by
    rw [readRegion, List.drop_take, List.drop_drop, sound.readable, moved, Nat.sub_sub]
  rw [dropped]
  unfold RecvBuffer.onRead
  dsimp only
  split
  case isTrue drained =>
    refine ⟨⟨UInt32.le_refl 0, UInt32.zero_le, sound.storage⟩, ?_⟩
    rw [drained, Nat.sub_self, List.take_zero, readRegion]
    dsimp only
    rw [UInt32.sub_self]
    rfl
  case isFalse =>
    have advanced : ({ buffer with readPos := buffer.readPos + bytes } : RecvBuffer).Sound := by
      refine ⟨UInt32.le_iff_toNat_le.mpr ?_, sound.write_le_capacity, sound.storage⟩
      dsimp only
      omega
    refine ⟨advanced, ?_⟩
    rw [readRegion, advanced.readable]

/-- Moving nothing is no exception. -/
theorem storage_moved (sound : buffer.Sound) :
    (if buffer.writePos - buffer.readPos > 0 then overwrite buffer.storage 0 buffer.readRegion
      else buffer.storage) = overwrite buffer.storage 0 buffer.readRegion := by
  split
  case isTrue => rfl
  case isFalse none_ =>
    have empty : buffer.readRegion = [] := by
      rw [← List.length_eq_zero_iff, sound.length_readRegion]
      exact Nat.le_zero.mp (UInt32.le_iff_toNat_le.mp (UInt32.not_lt.mp none_))
    rw [empty]
    rfl

/-- `Compact` moves what can be read to the start. -/
theorem compact (sound : buffer.Sound) :
    buffer.compact.Sound ∧ buffer.compact.readRegion = buffer.readRegion ∧
      buffer.compact.writePos.toNat = buffer.readableSize.toNat := by
  unfold RecvBuffer.compact
  split
  case isTrue atStart =>
    refine ⟨sound, rfl, ?_⟩
    rw [readableSize, atStart, UInt32.sub_zero]
  case isFalse =>
    have short : buffer.readRegion.length ≤ buffer.storage.length := by
      have inside := sound.write_le
      rw [sound.length_readRegion, readableSize, sound.readable]
      omega
    have remaining : buffer.writePos - buffer.readPos ≤ buffer.capacity := by
      rw [UInt32.le_iff_toNat_le, ← sound.storage]
      exact sound.length_readRegion ▸ short
    dsimp only
    rw [sound.storage_moved]
    refine ⟨⟨UInt32.zero_le, remaining, ?_⟩, ?_, rfl⟩
    · exact (length_overwrite (by omega)).trans sound.storage
    · have region := region_overwrite buffer.readRegion (Nat.le_refl 0)
        (Nat.zero_le buffer.storage.length)
      rw [Nat.sub_self, Nat.zero_add, List.take_zero, List.nil_append] at region
      refine Eq.trans ?_ region
      rw [readRegion]
      dsimp only
      rw [UInt32.sub_zero, sound.length_readRegion]
      rfl

/-- Data that fits behind what is written is added to what can be read. -/
theorem copy (sound : buffer.Sound) {data : List UInt8} {size : UInt32}
    (isSize : size.toNat = data.length) (fits : size ≤ buffer.writableSize) :
    ({ buffer with
        storage := overwrite buffer.storage buffer.writePos.toNat data
        writePos := buffer.writePos + size } : RecvBuffer).Sound ∧
      ({ buffer with
          storage := overwrite buffer.storage buffer.writePos.toNat data
          writePos := buffer.writePos + size } : RecvBuffer).readRegion =
        buffer.readRegion ++ data := by
  have room := UInt32.le_iff_toNat_le.mp fits
  rw [writableSize, sound.writable, isSize, ← sound.storage] at room
  have inside := sound.write_le
  have long : (overwrite buffer.storage buffer.writePos.toNat data).length =
      buffer.storage.length := length_overwrite (by omega)
  obtain ⟨grown, region⟩ := sound.grow fits long
  refine ⟨grown, ?_⟩
  rw [region, isSize, region_overwrite data sound.read_le inside, readRegion, sound.readable]

end Sound

theorem compact_capacity (buffer : RecvBuffer) :
    buffer.compact.capacity = buffer.capacity := by
  unfold compact
  split <;> rfl

theorem onRead_capacity (buffer : RecvBuffer) (bytes : UInt32) :
    (buffer.onRead bytes).capacity = buffer.capacity := by
  unfold onRead
  dsimp only
  split <;> rfl

theorem append_capacity (buffer : RecvBuffer) (data : List UInt8) :
    (buffer.append data).1.capacity = buffer.capacity := by
  have room : ∀ size, (buffer.makeRoom size).capacity = buffer.capacity := by
    intro size
    unfold makeRoom
    split
    · exact buffer.compact_capacity
    · rfl
  unfold append
  dsimp only
  split <;> exact room _

/-- Where there is room is where there would be room at the start. -/
theorem Sound.makeRoom (sound : buffer.Sound) (size : UInt32) :
    (buffer.makeRoom size).Sound ∧ (buffer.makeRoom size).readRegion = buffer.readRegion ∧
      (size ≤ (buffer.makeRoom size).writableSize ↔
        buffer.readableSize.toNat + size.toNat ≤ buffer.capacity.toNat) := by
  have within : buffer.readableSize.toNat ≤ buffer.writePos.toNat := by
    rw [readableSize, sound.readable]
    exact Nat.sub_le _ _
  have inside := UInt32.le_iff_toNat_le.mp sound.write_le_capacity
  unfold RecvBuffer.makeRoom
  split
  case isTrue =>
    obtain ⟨compacted, region, start⟩ := sound.compact
    refine ⟨compacted, region, ?_⟩
    rw [UInt32.le_iff_toNat_le, writableSize, compacted.writable, start, compact_capacity]
    omega
  case isFalse room =>
    have fits := UInt32.not_lt.mp room
    refine ⟨sound, rfl, iff_of_true fits ?_⟩
    rw [UInt32.le_iff_toNat_le, writableSize, sound.writable] at fits
    omega

/-- `Append` succeeds exactly if there is room, wherever it is, and fails without effect on what
can be read. -/
theorem Sound.append (sound : buffer.Sound) {data : List UInt8} (short : data.length < 2 ^ 32) :
    (buffer.append data).1.Sound ∧
      ((buffer.append data).2 = true ↔
        buffer.readableSize.toNat + data.length ≤ buffer.capacity.toNat) ∧
      (buffer.append data).1.readRegion =
        if (buffer.append data).2 then buffer.readRegion ++ data else buffer.readRegion := by
  have isSize : (UInt32.ofNat data.length).toNat = data.length := UInt32.toNat_ofNat_of_lt' short
  obtain ⟨roomSound, region, room⟩ := sound.makeRoom (UInt32.ofNat data.length)
  rw [isSize] at room
  unfold RecvBuffer.append
  dsimp only
  split
  case isTrue full =>
    refine ⟨roomSound, iff_of_false nofun fun fits => ?_, region⟩
    exact UInt32.not_le.mpr full (room.mpr fits)
  case isFalse fits =>
    obtain ⟨copied, grown⟩ := roomSound.copy isSize (UInt32.not_lt.mp fits)
    refine ⟨copied, iff_of_true rfl (room.mp (UInt32.not_lt.mp fits)), ?_⟩
    rw [grown, region]
    rfl

end RecvBuffer

end UringServer.Buffer.Machine
