import UringServer.Buffer.RecvMachine

/-!
# `RecvBuffer` as a queue of bytes

Runs of calls on one buffer, with all bytes that were written and the number of
those that were read. What can be read is always what was written and not read.
The buffer with natural numbers that the sessions use does the same.
-/

namespace UringServer.Buffer.Machine

open UringServer.Semantics

/-- A buffer with what was written to it and how much was read. -/
structure Used where
  buffer : RecvBuffer
  written : List UInt8 := []
  consumed : Nat := 0

/-- The calls on a buffer, and the writing to what `WriteRegion` returns. -/
inductive Use where
  | append (data : List UInt8)
  | fill (region : List UInt8)
  | onWrite (bytes : UInt32)
  | onRead (bytes : UInt32)
  | compact

/-- What a call does. -/
def Used.apply (used : Used) : Use → Used
  | .append data =>
    { used with
      buffer := (used.buffer.append data).1
      written := if (used.buffer.append data).2 then used.written ++ data else used.written }
  | .fill region => { used with buffer := used.buffer.fill region }
  | .onWrite bytes =>
    { used with
      buffer := used.buffer.onWrite bytes
      written := used.written ++ used.buffer.writeRegion.take bytes.toNat }
  | .onRead bytes =>
    { used with buffer := used.buffer.onRead bytes, consumed := used.consumed + bytes.toNat }
  | .compact => { used with buffer := used.buffer.compact }

/-- The runs of a buffer. -/
def uses (capacity : UInt32) : TransitionSystem Used Use where
  Initial used := used = { buffer := .create capacity }
  step used use := some (used.apply use)

/-- Calls within the sizes that the buffer reports, with data whose size is a `std::uint32_t`. -/
def Within (used : Used) : Use → Prop
  | .append data => data.length < 2 ^ 32
  | .fill region => region.length ≤ used.buffer.writableSize.toNat
  | .onWrite bytes => bytes ≤ used.buffer.writableSize
  | .onRead bytes => bytes ≤ used.buffer.readableSize
  | .compact => True

instance (used : Used) : (use : Use) → Decidable (Within used use)
  | .append data => inferInstanceAs (Decidable (data.length < 2 ^ 32))
  | .fill region => inferInstanceAs (Decidable (region.length ≤ _))
  | .onWrite bytes => inferInstanceAs (Decidable (bytes ≤ _))
  | .onRead bytes => inferInstanceAs (Decidable (bytes ≤ _))
  | .compact => .isTrue trivial

/-- What can be read is what was written and not read. -/
structure Accounted (capacity : UInt32) (used : Used) : Prop where
  capacity : used.buffer.capacity = capacity
  sound : used.buffer.Sound
  consumed : used.consumed ≤ used.written.length
  region : used.buffer.readRegion = used.written.drop used.consumed

variable {capacity : UInt32} {used : Used}

/-- What is added to the bytes that were written can be read behind the others. -/
theorem Accounted.drop_append (accounted : Accounted capacity used) (data : List UInt8) :
    used.buffer.readRegion ++ data = (used.written ++ data).drop used.consumed := by
  rw [List.drop_append_of_le_length accounted.consumed, accounted.region]

theorem Accounted.append (accounted : Accounted capacity used) {data : List UInt8}
    (short : data.length < 2 ^ 32) : Accounted capacity (used.apply (.append data)) := by
  obtain ⟨sound, -, region⟩ := accounted.sound.append short
  have kept := (used.buffer.append_capacity data).trans accounted.capacity
  cases succeeds : (used.buffer.append data).2 with
  | true =>
    rw [succeeds, if_pos rfl, accounted.drop_append data] at region
    refine ⟨kept, sound, ?_, ?_⟩
    · simp only [Used.apply, succeeds, if_true, List.length_append]
      exact Nat.le_add_right_of_le accounted.consumed
    · simpa only [Used.apply, succeeds, if_true] using region
  | false =>
    rw [succeeds, if_neg Bool.false_ne_true, accounted.region] at region
    refine ⟨kept, sound, ?_, ?_⟩
    · simpa only [Used.apply, succeeds, Bool.false_eq_true, if_false] using accounted.consumed
    · simpa only [Used.apply, succeeds, Bool.false_eq_true, if_false] using region

theorem Accounted.onWrite (accounted : Accounted capacity used) {bytes : UInt32}
    (fits : bytes ≤ used.buffer.writableSize) :
    Accounted capacity (used.apply (.onWrite bytes)) := by
  obtain ⟨sound, region⟩ := accounted.sound.onWrite fits
  refine ⟨accounted.capacity, sound, ?_, region.trans (accounted.drop_append _)⟩
  simp only [Used.apply, List.length_append]
  exact Nat.le_add_right_of_le accounted.consumed

theorem Accounted.onRead (accounted : Accounted capacity used) {bytes : UInt32}
    (fits : bytes ≤ used.buffer.readableSize) :
    Accounted capacity (used.apply (.onRead bytes)) := by
  obtain ⟨sound, region⟩ := accounted.sound.onRead fits
  refine ⟨(used.buffer.onRead_capacity bytes).trans accounted.capacity, sound, ?_, ?_⟩
  · have room := UInt32.le_iff_toNat_le.mp fits
    have consumed := accounted.consumed
    rw [← accounted.sound.length_readRegion, accounted.region, List.length_drop] at room
    dsimp only [Used.apply]
    omega
  · dsimp only [Used.apply]
    rw [region, accounted.region, List.drop_drop]

/-- Every call within the sizes keeps account. -/
theorem Accounted.apply (accounted : Accounted capacity used) {use : Use}
    (within : Within used use) : Accounted capacity (used.apply use) := by
  cases use with
  | append data => exact accounted.append within
  | fill region =>
    obtain ⟨sound, same⟩ := accounted.sound.fill within
    exact ⟨accounted.capacity, sound, accounted.consumed, same.trans accounted.region⟩
  | onWrite bytes => exact accounted.onWrite within
  | onRead bytes => exact accounted.onRead within
  | compact =>
    obtain ⟨sound, same, -⟩ := accounted.sound.compact
    exact ⟨used.buffer.compact_capacity.trans accounted.capacity, sound, accounted.consumed,
      same.trans accounted.region⟩

theorem reachable_accounted (reachable : (uses capacity).Reachable Within used) :
    Accounted capacity used := by
  refine reachable.invariant (Accounted capacity) ?_ ?_
  · rintro _ rfl
    exact ⟨rfl, RecvBuffer.create_sound capacity, Nat.le_refl 0,
      RecvBuffer.readRegion_create capacity⟩
  · intro before use after accounted within stepped
    cases stepped
    exact accounted.apply within

/-- In every run within the sizes the positions are in order, what can be read is what was written
and not read, and `Append` succeeds exactly if there is room for the data, else leaving what can be
read as it is. -/
theorem recvBuffer_bounded_fifo (capacity : UInt32) (used : Used)
    (reachable : (uses capacity).Reachable Within used) :
    used.buffer.readPos ≤ used.buffer.writePos ∧ used.buffer.writePos ≤ used.buffer.capacity ∧
      used.buffer.capacity = capacity ∧
      used.buffer.readRegion = used.written.drop used.consumed ∧
      ∀ data : List UInt8, data.length < 2 ^ 32 →
        ((used.buffer.append data).2 = true ↔
          used.buffer.readableSize.toNat + data.length ≤ capacity.toNat) ∧
        ((used.buffer.append data).2 = false →
          (used.buffer.append data).1.readRegion = used.buffer.readRegion) := by
  have accounted := reachable_accounted reachable
  refine ⟨accounted.sound.read_le_write, accounted.sound.write_le_capacity, accounted.capacity,
    accounted.region, ?_⟩
  intro data short
  obtain ⟨-, succeeds, region⟩ := accounted.sound.append short
  rw [accounted.capacity] at succeeds
  refine ⟨succeeds, fun fails => ?_⟩
  rw [region, fails]
  rfl

/-- Three bytes in a buffer of four, two of them read and two more appended, which takes a
compaction: the next byte still fits. -/
theorem four_bytes_fifo :
    ∃ used, (uses 4).Reachable Within used ∧ used.written = [1, 2, 3, 4, 5] ∧ used.consumed = 2 ∧
      used.buffer.readRegion = [3, 4, 5] ∧ (used.buffer.append [6]).2 = true := by
  obtain ⟨used, executed, written, consumed, readable⟩ : ∃ used,
      (uses 4).execute Within { buffer := .create 4 }
        [.append [1, 2, 3], .onRead 2, .append [4, 5]] = some used ∧
      used.written = [1, 2, 3, 4, 5] ∧ used.consumed = 2 ∧ used.buffer.readableSize.toNat = 3 :=
    ⟨_, rfl, by decide, rfl, by decide⟩
  have reachable : (uses 4).Reachable Within used := .execute (.initial rfl) executed
  obtain ⟨-, -, -, region, appends⟩ := recvBuffer_bounded_fifo 4 used reachable
  refine ⟨used, reachable, written, consumed, ?_, (appends [6] (by decide)).1.mpr ?_⟩
  · rw [region, written, consumed]
    rfl
  · rw [readable]
    decide

namespace RecvBuffer

/-- The buffer with natural numbers for its positions. -/
def toModel (buffer : RecvBuffer) : Buffer.RecvBuffer :=
  { storage := buffer.storage
    capacity := buffer.capacity.toNat
    readPos := buffer.readPos.toNat
    writePos := buffer.writePos.toNat }

variable {buffer : RecvBuffer}

theorem toModel_readRegion (sound : buffer.Sound) :
    buffer.toModel.readRegion = buffer.readRegion := by
  rw [readRegion, sound.readable]
  rfl

theorem toModel_compact (sound : buffer.Sound) :
    buffer.compact.toModel = buffer.toModel.compact := by
  have atStart : buffer.toModel.readPos = 0 ↔ buffer.readPos = 0 := by
    rw [← UInt32.toNat_inj]
    rfl
  unfold compact Buffer.RecvBuffer.compact
  by_cases start : buffer.readPos = 0
  · rw [if_pos start, if_pos (atStart.mpr start)]
  · rw [if_neg start, if_neg (mt atStart.mp start), toModel_readRegion sound]
    dsimp only
    rw [sound.storage_moved]
    dsimp only [toModel]
    rw [sound.readable]
    rfl

theorem toModel_onRead (sound : buffer.Sound) {bytes : UInt32}
    (fits : bytes ≤ buffer.readableSize) :
    (buffer.onRead bytes).toModel = buffer.toModel.onRead bytes.toNat := by
  have moved := sound.readPos_add fits
  have drained : buffer.readPos.toNat + bytes.toNat = buffer.writePos.toNat ↔
      buffer.readPos + bytes = buffer.writePos := by
    rw [← moved]
    exact UInt32.toNat_inj
  by_cases ends : buffer.readPos + bytes = buffer.writePos
  · have left : buffer.onRead bytes = { buffer with readPos := 0, writePos := 0 } := if_pos ends
    have right : buffer.toModel.onRead bytes.toNat =
        { buffer.toModel with readPos := 0, writePos := 0 } := if_pos (drained.mpr ends)
    rw [left, right]
    rfl
  · have left : buffer.onRead bytes = { buffer with readPos := buffer.readPos + bytes } :=
      if_neg ends
    have right : buffer.toModel.onRead bytes.toNat =
        { buffer.toModel with readPos := buffer.toModel.readPos + bytes.toNat } :=
      if_neg (mt drained.mp ends)
    rw [left, right, toModel, moved]
    rfl

theorem toModel_writable (sound : buffer.Sound) {data : List UInt8}
    (short : data.length < 2 ^ 32) :
    buffer.toModel.writableSize < data.length ↔
      buffer.writableSize < UInt32.ofNat data.length := by
  rw [UInt32.lt_iff_toNat_lt, UInt32.toNat_ofNat_of_lt' short, writableSize, sound.writable]
  rfl

/-- What the sessions do with their buffer is what the code does. -/
theorem toModel_append (sound : buffer.Sound) {data : List UInt8} (short : data.length < 2 ^ 32) :
    buffer.toModel.append data =
      if (buffer.append data).2 then some (buffer.append data).1.toModel else none := by
  have room : (if buffer.toModel.writableSize < data.length then buffer.toModel.compact
      else buffer.toModel) = (buffer.makeRoom (UInt32.ofNat data.length)).toModel := by
    unfold makeRoom
    by_cases full : buffer.writableSize < UInt32.ofNat data.length
    · rw [if_pos full, if_pos ((toModel_writable sound short).mpr full), toModel_compact sound]
    · rw [if_neg full, if_neg (mt (toModel_writable sound short).mp full)]
  obtain ⟨roomSound, -, -⟩ := sound.makeRoom (UInt32.ofNat data.length)
  unfold append Buffer.RecvBuffer.append
  dsimp only
  rw [room]
  by_cases full : (buffer.makeRoom (UInt32.ofNat data.length)).writableSize <
      UInt32.ofNat data.length
  · rw [if_pos full, if_pos ((toModel_writable roomSound short).mpr full)]
    rfl
  · have moved := roomSound.writePos_add (UInt32.not_lt.mp full)
    rw [UInt32.toNat_ofNat_of_lt' short] at moved
    rw [if_neg full, if_neg (mt (toModel_writable roomSound short).mp full)]
    dsimp only [toModel]
    rw [moved]
    rfl

end RecvBuffer

end UringServer.Buffer.Machine
