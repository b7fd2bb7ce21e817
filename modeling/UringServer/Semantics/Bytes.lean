import Mathlib.Data.List.Basic
import Mathlib.Data.Nat.Bitwise
import Mathlib.Tactic.Ring

/-!
# Byte strings

Copying into the middle of a list, numbers as big-endian and as little-endian bytes
and the bytes of an ASCII literal.
-/

namespace UringServer.Semantics

universe u

section Overwrite

variable {α : Type u}

/-- The list with `source` copied over it from `offset` on. -/
def overwrite (target : List α) (offset : Nat) (source : List α) : List α :=
  target.take offset ++ source ++ target.drop (offset + source.length)

variable {target source : List α} {offset : Nat}

theorem length_overwrite (fits : offset + source.length ≤ target.length) :
    (overwrite target offset source).length = target.length := by
  simp only [overwrite, List.length_append, List.length_take, List.length_drop]
  omega

/-- Two copies, the second from where the first ended, are one. -/
theorem overwrite_overwrite {target first second : List α} (inside : offset ≤ target.length) :
    overwrite (overwrite target offset first) (offset + first.length) second =
      overwrite target offset (first ++ second) := by
  have taken : (overwrite target offset first).take (offset + first.length) =
      target.take offset ++ first := by
    refine List.take_left' ?_
    rw [List.length_append, List.length_take, Nat.min_eq_left inside]
  have dropped : (overwrite target offset first).drop (offset + first.length + second.length) =
      target.drop (offset + (first ++ second).length) := by
    rw [← List.drop_drop, overwrite, List.drop_left', List.drop_drop, List.length_append]
    · rw [Nat.add_assoc]
    · rw [List.length_append, List.length_take, Nat.min_eq_left inside]
  rw [overwrite, taken, dropped, overwrite, List.append_assoc]
  simp only [List.append_assoc]

/-- From a place before the copy to its end stands what stood before it, and the copy. -/
theorem region_overwrite {target : List α} (source : List α) {start offset : Nat}
    (before : start ≤ offset) (inside : offset ≤ target.length) :
    ((overwrite target offset source).drop start).take (offset - start + source.length) =
      (target.drop start).take (offset - start) ++ source := by
  have taken : start ≤ (target.take offset).length := by
    rw [List.length_take, Nat.min_eq_left inside]
    exact before
  have long : ((target.take offset).drop start ++ source).length =
      offset - start + source.length := by
    rw [List.length_append, List.length_drop, List.length_take, Nat.min_eq_left inside]
  rw [overwrite, List.append_assoc, List.drop_append_of_le_length taken, ← List.append_assoc,
    List.take_left' long, List.drop_take]

/-- A copy changes nothing before it. -/
theorem region_before_overwrite {target : List α} (source : List α) (start : Nat)
    (inside : offset ≤ target.length) :
    ((overwrite target offset source).drop start).take (offset - start) =
      (target.drop start).take (offset - start) := by
  have long : (target.take offset).length = offset := by
    rw [List.length_take, Nat.min_eq_left inside]
  rw [← List.drop_take, ← List.drop_take, overwrite, List.append_assoc, List.take_left' long]

theorem getElem?_overwrite (fits : offset + source.length ≤ target.length) (index : Nat) :
    (overwrite target offset source)[index]? =
      if index < offset then target[index]?
      else if index < offset + source.length then source[index - offset]? else target[index]? := by
  have before : (target.take offset).length = offset := by
    rw [List.length_take]
    omega
  rw [overwrite, List.append_assoc]
  split
  case isTrue early =>
    rw [List.getElem?_append_left (by omega), List.getElem?_take_of_lt early]
  case isFalse late =>
    rw [List.getElem?_append_right (by omega), before]
    split
    case isTrue inside => rw [List.getElem?_append_left (by omega)]
    case isFalse behind =>
      rw [List.getElem?_append_right (by omega), List.getElem?_drop]
      congr 1
      omega

/-- A copy shows where it was made. -/
theorem region_of_overwrite (fits : offset + source.length ≤ target.length) :
    ((overwrite target offset source).drop offset).take source.length = source := by
  ext1 index
  rw [List.getElem?_take, List.getElem?_drop, getElem?_overwrite fits]
  by_cases inside : index < source.length
  · simp [inside]
  · simp [inside]

/-- A copy changes no region that it does not meet. -/
theorem region_disjoint_overwrite {offset start length : Nat}
    (fits : offset + source.length ≤ target.length)
    (apart : start + length ≤ offset ∨ offset + source.length ≤ start) :
    ((overwrite target offset source).drop start).take length =
      (target.drop start).take length := by
  ext1 index
  rw [List.getElem?_take, List.getElem?_take, List.getElem?_drop, List.getElem?_drop,
    getElem?_overwrite fits]
  split
  case isTrue inside =>
    split
    case isTrue => rfl
    case isFalse late => rw [if_neg (by omega)]
  case isFalse => rfl

/-- A copy of the whole length leaves nothing of the target. -/
theorem overwrite_full (same : source.length = target.length) :
    overwrite target 0 source = source := by
  simp [overwrite, same]

end Overwrite

/-- The number whose big-endian bytes these are. -/
def readBigEndian (bytes : List UInt8) : Nat :=
  bytes.foldl (fun value byte => (value <<< 8) ||| byte.toNat) 0

/-- The lowest `width` bytes of a number, the highest first. -/
def bigEndian : (width : Nat) → (value : Nat) → List UInt8
  | 0, _ => []
  | width + 1, value =>
    UInt8.ofNat ((value >>> (8 * width)) &&& 0xFF) :: bigEndian width value

@[simp] theorem length_bigEndian (width value : Nat) :
    (bigEndian width value).length = width := by
  induction width with
  | zero => rfl
  | succ width ih => rw [bigEndian, List.length_cons, ih]

theorem shift_or_byte (value : Nat) (byte : UInt8) :
    (value <<< 8) ||| byte.toNat = value * 256 + byte.toNat := by
  rw [← Nat.shiftLeft_add_eq_or_of_lt byte.toNat_lt, Nat.shiftLeft_eq]

theorem toNat_ofNat_shift (value shift : Nat) :
    (UInt8.ofNat ((value >>> shift) &&& 0xFF)).toNat = value / 2 ^ shift % 256 := by
  have mask : (value >>> shift) &&& 0xFF = value / 2 ^ shift % 256 := by
    rw [Nat.shiftRight_eq_div_pow]
    exact Nat.and_two_pow_sub_one_eq_mod _ 8
  rw [mask, UInt8.toNat_ofNat']
  omega

theorem foldl_bigEndian (width value start : Nat) :
    (bigEndian width value).foldl (fun value byte => (value <<< 8) ||| byte.toNat) start =
      start * 256 ^ width + value % 256 ^ width := by
  induction width generalizing start with
  | zero => simp [bigEndian, Nat.mod_one]
  | succ width ih =>
    have power : 2 ^ (8 * width) = 256 ^ width := by rw [pow_mul]; norm_num
    rw [bigEndian, List.foldl_cons, ih, shift_or_byte, toNat_ofNat_shift, power,
      Nat.pow_succ, Nat.mod_mul]
    ring

/-- Reading undoes writing for a number that fits. -/
theorem readBigEndian_bigEndian {width value : Nat} (fits : value < 256 ^ width) :
    readBigEndian (bigEndian width value) = value := by
  rw [readBigEndian, foldl_bigEndian, Nat.zero_mul, Nat.zero_add, Nat.mod_eq_of_lt fits]

section LittleEndian

/-- The number whose little-endian bytes these are. -/
def readLittleEndian (bytes : List UInt8) : Nat := readBigEndian bytes.reverse

/-- The lowest `width` bytes of a number, the lowest first. -/
def littleEndian (width value : Nat) : List UInt8 := (bigEndian width value).reverse

@[simp] theorem length_littleEndian (width value : Nat) :
    (littleEndian width value).length = width := by
  rw [littleEndian, List.length_reverse, length_bigEndian]

/-- The number in the first `width` bytes, and the bytes behind it. -/
def splitLittleEndian (width : Nat) (bytes : List UInt8) : Option (Nat × List UInt8) :=
  if width ≤ bytes.length then some (readLittleEndian (bytes.take width), bytes.drop width)
  else none

/-- Reading undoes writing for a number that fits. -/
theorem splitLittleEndian_append {width value : Nat} (fits : value < 256 ^ width)
    (rest : List UInt8) :
    splitLittleEndian width (littleEndian width value ++ rest) = some (value, rest) := by
  have number : readLittleEndian (littleEndian width value) = value := by
    rw [readLittleEndian, littleEndian, List.reverse_reverse, readBigEndian_bigEndian fits]
  have enough : width ≤ (littleEndian width value ++ rest).length := by simp
  rw [splitLittleEndian, if_pos enough, List.take_left' (length_littleEndian width value),
    List.drop_left' (length_littleEndian width value), number]

/-- The numbers in the first `count` times `width` bytes, and the bytes behind them. -/
def splitLittleEndians (width : Nat) : Nat → List UInt8 → Option (List Nat × List UInt8)
  | 0, bytes => some ([], bytes)
  | count + 1, bytes =>
    (splitLittleEndian width bytes).bind fun first =>
      (splitLittleEndians width count first.2).map fun others =>
        (first.1 :: others.1, others.2)

theorem length_flatMap_littleEndian (width : Nat) (values : List Nat) :
    (values.flatMap (littleEndian width)).length = width * values.length := by
  simp [List.length_flatMap, Nat.mul_comm]

theorem splitLittleEndians_flatMap {width : Nat} {values : List Nat}
    (fits : ∀ value ∈ values, value < 256 ^ width) (rest : List UInt8) :
    splitLittleEndians width values.length (values.flatMap (littleEndian width) ++ rest) =
      some (values, rest) := by
  induction values with
  | nil => rfl
  | cons value values ih =>
    obtain ⟨first, others⟩ := List.forall_mem_cons.mp fits
    rw [List.flatMap_cons, List.append_assoc, List.length_cons, splitLittleEndians,
      splitLittleEndian_append first, Option.bind_some, ih others,
      Option.map_some]

end LittleEndian

/-- The bytes of an ASCII literal. -/
def ascii (literal : String) : List UInt8 :=
  literal.toList.map fun character => character.toNat.toUInt8

end UringServer.Semantics
