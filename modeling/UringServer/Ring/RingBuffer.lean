import Mathlib.Data.Nat.Bitwise
import UringServer.Semantics.Bytes
import UringServer.Semantics.Circular

/-!
# `RingBuffer`

The buffers that the kernel picks from when it receives: one mapping, with the
entries of the ring in front and the buffers behind. Offsets are taken from the
start of the mapping. `Create` writes an entry for every buffer; `Return` writes
one and moves the tail, which has 16 bits and is taken modulo the number of
entries by a mask.
-/

namespace UringServer.Ring

open UringServer.Semantics

/-- The fields of `RingBufferConfig` that the functions here read, both 32-bit. -/
structure RingBufferConfig where
  bufCount : Nat := 1024
  bufSize : Nat := 8192

/-- `is_power_of_two`. -/
def isPowerOfTwo (value : Nat) : Bool := decide (0 < value) && value &&& (value - 1) == 0

/-- `log2u`. -/
def log2u (value : Nat) : Nat := Nat.log2 value

/-- An `io_uring_buf`. -/
structure BufEntry where
  addr : Nat
  len : Nat
  bid : Nat
deriving DecidableEq, Repr

/-- An `io_uring_buf_ring`, as an array of entries and a 16-bit tail. -/
structure BufRing where
  bufs : Nat → BufEntry
  tail : Nat

/-- `io_uring_buf_ring_mask`. -/
def bufRingMask (entries : Nat) : Nat := entries - 1

namespace BufRing

/-- `io_uring_buf_ring_init` on a fresh mapping. -/
def init : BufRing where
  bufs := fun _ => ⟨0, 0, 0⟩
  tail := 0

/-- `io_uring_buf_ring_add`. -/
def add (ring : BufRing) (entry : BufEntry) (mask offset : Nat) : BufRing :=
  { ring with bufs := Function.update ring.bufs ((ring.tail + offset) &&& mask) entry }

/-- `io_uring_buf_ring_advance`. -/
def advance (ring : BufRing) (count : Nat) : BufRing :=
  { ring with tail := (ring.tail + count) % 65536 }

end BufRing

/-- `sizeof(io_uring_buf)`. -/
def bufEntrySize : Nat := 16

namespace RingBufferConfig

/-- `meta_size`. -/
def metaSize (cfg : RingBufferConfig) : Nat := bufEntrySize * cfg.bufCount

/-- `total`. -/
def total (cfg : RingBufferConfig) : Nat := cfg.metaSize + cfg.bufSize * cfg.bufCount

/-- `RingBuffer::buf_addr`, from the start of the mapping. -/
def bufAddr (cfg : RingBufferConfig) (bufId : Nat) : Nat :=
  cfg.metaSize + bufId <<< log2u cfg.bufSize

/-- The entry of a buffer. -/
def entry (cfg : RingBufferConfig) (bufId : Nat) : BufEntry :=
  ⟨cfg.bufAddr bufId, cfg.bufSize, bufId⟩

/-- The two checks of `Create` and what the kernel asks of a ring that it registers: that its 16-bit
counters can tell a full ring from an empty one. -/
structure Valid (cfg : RingBufferConfig) : Prop where
  count : isPowerOfTwo cfg.bufCount = true
  size : isPowerOfTwo cfg.bufSize = true
  registered : cfg.bufCount < 65536

instance (cfg : RingBufferConfig) : Decidable cfg.Valid :=
  decidable_of_iff (isPowerOfTwo cfg.bufCount = true ∧ isPowerOfTwo cfg.bufSize = true ∧
    cfg.bufCount < 65536)
    ⟨fun ⟨count, size, registered⟩ => ⟨count, size, registered⟩,
      fun ⟨count, size, registered⟩ => ⟨count, size, registered⟩⟩

/-- The loop of `Create` up to an index. -/
def fillUpTo (cfg : RingBufferConfig) (stop : Nat) : BufRing :=
  (List.range stop).foldl
    (fun ring index => ring.add (cfg.entry index) (bufRingMask cfg.bufCount) index) BufRing.init

/-- The loop of `Create`, whose index has 16 bits. -/
def fill (cfg : RingBufferConfig) : BufRing := cfg.fillUpTo (cfg.bufCount % 65536)

end RingBufferConfig

/-- `RingBuffer`, with the bytes of its mapping behind the entries. -/
structure RingBuffer where
  cfg : RingBufferConfig
  ring : BufRing
  memory : List UInt8
  available : UInt32

namespace RingBuffer

/-- `RingBuffer::Create`. -/
def create (cfg : RingBufferConfig) : Option RingBuffer :=
  if cfg.Valid then
    some {
      cfg
      ring := cfg.fill.advance cfg.bufCount
      memory := List.replicate cfg.total 0
      available := UInt32.ofNat cfg.bufCount }
  else none

/-- `RingBuffer::View`. -/
def view (buffer : RingBuffer) (bufId len : Nat) : List UInt8 :=
  if buffer.cfg.bufCount ≤ bufId then []
  else (buffer.memory.drop (buffer.cfg.bufAddr bufId)).take (min len buffer.cfg.bufSize)

end RingBuffer

section Layout

theorem isPowerOfTwo_iff {value : Nat} : isPowerOfTwo value = true ↔ value.isPowerOfTwo := by
  rw [← Nat.ne_zero_and_sub_one_eq_zero_iff_isPowerOfTwo, isPowerOfTwo, Bool.and_eq_true,
    decide_eq_true_iff, beq_iff_eq, Nat.pos_iff_ne_zero]

theorem and_bufRingMask {entries : Nat} (power : isPowerOfTwo entries = true) (value : Nat) :
    value &&& bufRingMask entries = value % entries := by
  obtain ⟨exponent, rfl⟩ := isPowerOfTwo_iff.mp power
  exact Nat.and_two_pow_sub_one_eq_mod value exponent

theorem dvd_of_isPowerOfTwo {entries : Nat} (power : isPowerOfTwo entries = true)
    (small : entries < 65536) : entries ∣ 65536 := by
  obtain ⟨exponent, rfl⟩ := isPowerOfTwo_iff.mp power
  have below : exponent < 16 := (Nat.pow_lt_pow_iff_right (a := 2) (by decide)).mp small
  exact Nat.pow_dvd_pow 2 below.le

namespace RingBufferConfig

variable {cfg : RingBufferConfig}

theorem bufAddr_eq (valid : cfg.Valid) (bufId : Nat) :
    cfg.bufAddr bufId = cfg.metaSize + bufId * cfg.bufSize := by
  obtain ⟨exponent, power⟩ := isPowerOfTwo_iff.mp valid.size
  rw [bufAddr, log2u, power, Nat.log2_two_pow, Nat.shiftLeft_eq]

/-- Every buffer lies in the mapping, behind the entries. -/
theorem bufAddr_inside (valid : cfg.Valid) {bufId : Nat} (small : bufId < cfg.bufCount) :
    cfg.metaSize ≤ cfg.bufAddr bufId ∧ cfg.bufAddr bufId + cfg.bufSize ≤ cfg.total := by
  rw [bufAddr_eq valid, total]
  have most : (bufId + 1) * cfg.bufSize ≤ cfg.bufCount * cfg.bufSize :=
    Nat.mul_le_mul_right cfg.bufSize small
  rw [Nat.mul_comm cfg.bufSize]
  rw [Nat.succ_mul] at most
  omega

/-- Different buffers do not meet. -/
theorem bufAddr_apart (valid : cfg.Valid) {one two : Nat} (different : one ≠ two) :
    cfg.bufAddr one + cfg.bufSize ≤ cfg.bufAddr two ∨
      cfg.bufAddr two + cfg.bufSize ≤ cfg.bufAddr one := by
  rw [bufAddr_eq valid, bufAddr_eq valid]
  rcases Nat.lt_or_gt_of_ne different with below | above
  · have step := Nat.mul_le_mul_right cfg.bufSize (Nat.succ_le_of_lt below)
    rw [Nat.succ_mul] at step
    omega
  · have step := Nat.mul_le_mul_right cfg.bufSize (Nat.succ_le_of_lt above)
    rw [Nat.succ_mul] at step
    omega

theorem fillUpTo_succ (cfg : RingBufferConfig) (stop : Nat) :
    cfg.fillUpTo (stop + 1) =
      (cfg.fillUpTo stop).add (cfg.entry stop) (bufRingMask cfg.bufCount) stop := by
  rw [fillUpTo, List.range_succ, List.foldl_append]
  rfl

/-- What the loop of `Create` has written. -/
theorem fillUpTo_bufs (valid : cfg.Valid) {stop : Nat} (most : stop ≤ cfg.bufCount) :
    (cfg.fillUpTo stop).tail = 0 ∧
      ∀ place < stop, (cfg.fillUpTo stop).bufs place = cfg.entry place := by
  induction stop with
  | zero => exact ⟨rfl, nofun⟩
  | succ stop ih =>
    obtain ⟨tail, filled⟩ := ih (Nat.le_of_succ_le most)
    rw [fillUpTo_succ, BufRing.add, tail, Nat.zero_add, and_bufRingMask valid.count,
      Nat.mod_eq_of_lt most]
    refine ⟨rfl, fun place inside => ?_⟩
    rcases Nat.lt_succ_iff_lt_or_eq.mp inside with before | rfl
    · exact (Function.update_of_ne before.ne _ _).trans (filled place before)
    · exact Function.update_self ..

/-- `Create` puts the buffers into the ring by their numbers. -/
theorem circular_fill (valid : cfg.Valid) :
    Circular cfg.fill.bufs cfg.bufCount ((List.range cfg.bufCount).map cfg.entry) 0 := by
  have filled := (fillUpTo_bufs valid le_rfl).2
  refine ⟨Nat.zero_le _, ?_, fun place inside _ => ?_⟩
  · rw [List.length_map, List.length_range, Nat.zero_add]
  · rw [List.length_map, List.length_range] at inside
    rw [Nat.mod_eq_of_lt inside, List.getElem_map, List.getElem_range, fill,
      Nat.mod_eq_of_lt valid.registered]
    exact filled place inside

theorem tail_fill (valid : cfg.Valid) : cfg.fill.tail = 0 := by
  rw [fill, Nat.mod_eq_of_lt valid.registered]
  exact (fillUpTo_bufs valid le_rfl).1

end RingBufferConfig

end Layout

end UringServer.Ring
