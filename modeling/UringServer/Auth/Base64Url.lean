import Mathlib.Algebra.Order.Floor.Div
import UringServer.Web.WsHandshake

/-!
# The base64url coding of `JwtCodec`

`Base64UrlEncode` and `Base64UrlDecode`. The decoder restores the padding that
the encoder leaves out and gives nothing if a byte is not of the alphabet.
-/

namespace UringServer.Auth

open UringServer.Semantics UringServer.Web

def replaceByte (old new byte : UInt8) : UInt8 := if byte = old then new else byte

/-- `std::replace`. -/
def replace (old new : UInt8) (text : Text) : Text := text.map (replaceByte old new)

/-- The encoding loop, three bytes a turn. -/
def encodeGroups : Text → Text
  | [] => []
  | [a] =>
    let n := a.toNat <<< 16
    [base64Digit n 18, base64Digit n 12]
  | [a, b] =>
    let n := (a.toNat <<< 16) ||| (b.toNat <<< 8)
    [base64Digit n 18, base64Digit n 12, base64Digit n 6]
  | a :: b :: c :: rest =>
    let n := (a.toNat <<< 16) ||| (b.toNat <<< 8) ||| c.toNat
    base64Digit n 18 :: base64Digit n 12 :: base64Digit n 6 :: base64Digit n 0 ::
      encodeGroups rest

/-- `JwtCodec::Base64UrlEncode`. -/
def base64UrlEncode (data : Text) : Text :=
  replace 0x2F 0x5F (replace 0x2B 0x2D (encodeGroups data))

/-- The table of `Base64UrlDecode`. -/
def dt : List Int :=
  [-1, -1, -1, -1, -1, -1, -1, -1, -1, -1, -1, -1, -1, -1, -1, -1,
    -1, -1, -1, -1, -1, -1, -1, -1, -1, -1, -1, -1, -1, -1, -1, -1,
    -1, -1, -1, -1, -1, -1, -1, -1, -1, -1, -1, 62, -1, -1, -1, 63,
    52, 53, 54, 55, 56, 57, 58, 59, 60, 61, -1, -1, -1, -1, -1, -1,
    -1, 0, 1, 2, 3, 4, 5, 6, 7, 8, 9, 10, 11, 12, 13, 14,
    15, 16, 17, 18, 19, 20, 21, 22, 23, 24, 25, -1, -1, -1, -1, -1,
    -1, 26, 27, 28, 29, 30, 31, 32, 33, 34, 35, 36, 37, 38, 39, 40,
    41, 42, 43, 44, 45, 46, 47, 48, 49, 50, 51, -1, -1, -1, -1, -1]

/-- The variables of the inner loop of the decoder. -/
structure DecodeGroup where
  n : Nat := 0
  pad : Nat := 0

/-- One turn of the inner loop. -/
def decodeByte (group : DecodeGroup) (c : UInt8) : Option DecodeGroup :=
  if c = 0x3D then
    some { group with pad := group.pad + 1 }
  else if 128 ≤ c ∨ dt.getD c.toNat (-1) < 0 then
    none
  else
    some { group with n := (group.n <<< 6) ||| (dt.getD c.toNat (-1)).toNat }

/-- The bytes of a group. -/
def DecodeGroup.bytes (group : DecodeGroup) : Text :=
  let n := group.n <<< (group.pad * 6)
  UInt8.ofNat ((n >>> 16) &&& 0xFF) ::
    (if group.pad < 2 then [UInt8.ofNat ((n >>> 8) &&& 0xFF)] else []) ++
    (if group.pad < 1 then [UInt8.ofNat (n &&& 0xFF)] else [])

/-- The decoding loop, four bytes a turn. -/
def decodeGroups : Text → Option Text
  | a :: b :: c :: d :: rest =>
    ([a, b, c, d].foldlM decodeByte {}).bind fun group =>
      (decodeGroups rest).map (group.bytes ++ ·)
  | _ => some []

/-- The padding that is appended. -/
def padding (b64 : Text) : Text := List.replicate ((4 - b64.length % 4) % 4) 0x3D

/-- `JwtCodec::Base64UrlDecode`. -/
def base64UrlDecode (encoded : Text) : Text :=
  let b64 := replace 0x5F 0x2F (replace 0x2D 0x2B encoded)
  (decodeGroups (b64 ++ padding b64)).getD []

/-- A letter, a digit, `-` or `_`. -/
def isBase64UrlByte (byte : UInt8) : Bool :=
  0x41 ≤ byte && byte ≤ 0x5A || 0x61 ≤ byte && byte ≤ 0x7A || 0x30 ≤ byte && byte ≤ 0x39 ||
    byte == 0x2D || byte == 0x5F

/-- A base64url string. -/
def IsBase64Url (text : Text) : Prop := ∀ byte ∈ text, isBase64UrlByte byte = true

/-- The digit for a number below 64. -/
def digit (value : Nat) : UInt8 := base64Table.getD value 0

theorem base64Digit_eq (n shift : Nat) : base64Digit n shift = digit (n / 2 ^ shift % 64) := by
  unfold base64Digit digit
  rw [Nat.shiftRight_eq_div_pow]
  exact congrArg (fun index => base64Table.getD index 0) (Nat.and_two_pow_sub_one_eq_mod _ 6)

/-- What the decoder and the callers need of a digit. -/
structure IsDigitFor (byte : UInt8) (value : Nat) : Prop where
  notPad : byte ≠ 0x3D
  low : byte < 128
  index : dt.getD byte.toNat (-1) = value
  written : isBase64UrlByte (replaceByte 0x2F 0x5F (replaceByte 0x2B 0x2D byte)) = true
  restored : replaceByte 0x5F 0x2F (replaceByte 0x2D 0x2B
    (replaceByte 0x2F 0x5F (replaceByte 0x2B 0x2D byte))) = byte

theorem digit_isDigitFor {value : Nat} (small : value < 64) : IsDigitFor (digit value) value := by
  have all : ∀ index : Fin 64, digit index ≠ 0x3D ∧ digit index < 128 ∧
      dt.getD (digit index).toNat (-1) = (index.val : Int) ∧
      isBase64UrlByte (replaceByte 0x2F 0x5F (replaceByte 0x2B 0x2D (digit index))) = true ∧
      replaceByte 0x5F 0x2F (replaceByte 0x2D 0x2B
        (replaceByte 0x2F 0x5F (replaceByte 0x2B 0x2D (digit index)))) = digit index := by
    decide +kernel
  obtain ⟨notPad, low, index, written, restored⟩ := all ⟨value, small⟩
  exact ⟨notPad, low, index, written, restored⟩

theorem shift_or_digit {value : Nat} (n : Nat) (small : value < 64) :
    (n <<< 6) ||| value = n * 64 + value := by
  rw [← Nat.shiftLeft_add_eq_or_of_lt (show value < 2 ^ 6 from small), Nat.shiftLeft_eq]

theorem decodeByte_digit {value : Nat} (group : DecodeGroup) (small : value < 64) :
    decodeByte group (digit value) = some { group with n := group.n * 64 + value } := by
  have isDigit := digit_isDigitFor small
  have accepted : ¬ (128 ≤ digit value ∨ dt.getD (digit value).toNat (-1) < 0) := by
    rintro (high | negative)
    · exact absurd isDigit.low (UInt8.not_lt.mpr high)
    · rw [isDigit.index] at negative
      omega
  unfold decodeByte
  rw [if_neg isDigit.notPad, if_neg accepted, isDigit.index, Int.toNat_natCast,
    shift_or_digit group.n small]

theorem decodeByte_base64Digit (group : DecodeGroup) (n shift : Nat) :
    decodeByte group (base64Digit n shift) =
      some { group with n := group.n * 64 + n / 2 ^ shift % 64 } := by
  rw [base64Digit_eq]
  exact decodeByte_digit group (Nat.mod_lt _ (by decide))

theorem decodeByte_pad (group : DecodeGroup) :
    decodeByte group 0x3D = some { group with pad := group.pad + 1 } := rfl

/-- The three bytes of a group as one number. -/
theorem join_eq (a b c : UInt8) :
    (a.toNat <<< 16) ||| (b.toNat <<< 8) ||| c.toNat =
      a.toNat * 65536 + b.toNat * 256 + c.toNat := by
  have second := b.toNat_lt
  have third := c.toNat_lt
  rw [Nat.shiftLeft_eq, Nat.shiftLeft_eq, Nat.or_assoc]
  rw [show b.toNat * 2 ^ 8 ||| c.toNat = b.toNat * 256 + c.toNat by
    rw [← Nat.shiftLeft_eq, ← Nat.shiftLeft_add_eq_or_of_lt third, Nat.shiftLeft_eq]]
  rw [← Nat.shiftLeft_eq, ← Nat.shiftLeft_add_eq_or_of_lt (by omega), Nat.shiftLeft_eq]
  omega

theorem join_two_eq (a b : UInt8) :
    (a.toNat <<< 16) ||| (b.toNat <<< 8) = a.toNat * 65536 + b.toNat * 256 := by
  have joined := join_eq a b 0
  rwa [UInt8.toNat_zero, Nat.or_zero, Nat.add_zero] at joined

theorem join_one_eq (a : UInt8) : a.toNat <<< 16 = a.toNat * 65536 :=
  Nat.shiftLeft_eq _ _

/-- A byte of a number that the decoder takes with a shift and a mask. -/
theorem masked_eq (n shift : Nat) : (n >>> shift) &&& 0xFF = n / 2 ^ shift % 256 := by
  rw [Nat.shiftRight_eq_div_pow]
  exact Nat.and_two_pow_sub_one_eq_mod _ 8

/-- The bytes of a group whose number, with zeros for the padding, is made of three bytes. -/
theorem bytes_eq {n pad : Nat} {a b c : UInt8}
    (joined : n * 64 ^ pad = a.toNat * 65536 + b.toNat * 256 + c.toNat) :
    DecodeGroup.bytes { n := n, pad := pad } =
      a :: (if pad < 2 then [b] else []) ++ (if pad < 1 then [c] else []) := by
  have first := a.toNat_lt
  have second := b.toNat_lt
  have third := c.toNat_lt
  have shifted : n <<< (pad * 6) = a.toNat * 65536 + b.toNat * 256 + c.toNat := by
    rw [Nat.shiftLeft_eq, Nat.mul_comm pad, Nat.pow_mul]
    exact joined
  have low : (a.toNat * 65536 + b.toNat * 256 + c.toNat) &&& 0xFF = c.toNat := by
    rw [show (0xFF : Nat) = 2 ^ 8 - 1 from rfl, Nat.and_two_pow_sub_one_eq_mod]
    omega
  have middle : (a.toNat * 65536 + b.toNat * 256 + c.toNat) / 2 ^ 8 % 256 = b.toNat := by omega
  have high : (a.toNat * 65536 + b.toNat * 256 + c.toNat) / 2 ^ 16 % 256 = a.toNat := by omega
  unfold DecodeGroup.bytes
  dsimp only
  rw [shifted, masked_eq, masked_eq, low, middle, high]
  simp only [UInt8.ofNat_toNat]

/-- Four characters that give three, two or one byte. -/
theorem decode_three (a b c : UInt8) (rest : Text) :
    decodeGroups (base64Digit (a.toNat * 65536 + b.toNat * 256 + c.toNat) 18 ::
      base64Digit (a.toNat * 65536 + b.toNat * 256 + c.toNat) 12 ::
      base64Digit (a.toNat * 65536 + b.toNat * 256 + c.toNat) 6 ::
      base64Digit (a.toNat * 65536 + b.toNat * 256 + c.toNat) 0 :: rest) =
      (decodeGroups rest).map ([a, b, c] ++ ·) := by
  have first := a.toNat_lt
  have second := b.toNat_lt
  have third := c.toNat_lt
  rw [decodeGroups]
  simp only [List.foldlM_cons, List.foldlM_nil, Option.bind_eq_bind, decodeByte_base64Digit,
    Option.bind_some, Option.pure_def]
  rw [bytes_eq (a := a) (b := b) (c := c) (by omega)]
  rfl

theorem decode_two (a b : UInt8) :
    decodeGroups [base64Digit (a.toNat * 65536 + b.toNat * 256) 18,
      base64Digit (a.toNat * 65536 + b.toNat * 256) 12,
      base64Digit (a.toNat * 65536 + b.toNat * 256) 6, 0x3D] = some [a, b] := by
  have first := a.toNat_lt
  have second := b.toNat_lt
  have none : (0 : UInt8).toNat = 0 := rfl
  rw [decodeGroups]
  simp only [List.foldlM_cons, List.foldlM_nil, Option.bind_eq_bind, decodeByte_base64Digit,
    decodeByte_pad, Option.bind_some, Option.pure_def]
  rw [bytes_eq (a := a) (b := b) (c := 0) (by omega)]
  rfl

theorem decode_one (a : UInt8) :
    decodeGroups [base64Digit (a.toNat * 65536) 18, base64Digit (a.toNat * 65536) 12, 0x3D, 0x3D] =
      some [a] := by
  have first := a.toNat_lt
  have none : (0 : UInt8).toNat = 0 := rfl
  rw [decodeGroups]
  simp only [List.foldlM_cons, List.foldlM_nil, Option.bind_eq_bind, decodeByte_base64Digit,
    decodeByte_pad, Option.bind_some, Option.pure_def]
  rw [bytes_eq (a := a) (b := 0) (c := 0) (by omega)]
  rfl

theorem decodeGroups_encodeGroups (data : Text) :
    decodeGroups (encodeGroups data ++ padding (encodeGroups data)) = some data := by
  induction data using encodeGroups.induct with
  | case1 => rfl
  | case2 a =>
    rw [encodeGroups, join_one_eq]
    exact decode_one a
  | case3 a b =>
    rw [encodeGroups, join_two_eq]
    exact decode_two a b
  | case4 a b c rest ih =>
    have same : ∀ w x y z : UInt8, padding (w :: x :: y :: z :: encodeGroups rest) =
        padding (encodeGroups rest) := by
      intro w x y z
      unfold padding
      simp only [List.length_cons, Nat.add_assoc, Nat.reduceAdd, Nat.add_mod_right]
    rw [encodeGroups, join_eq, same]
    simp only [List.cons_append]
    rw [decode_three, ih]
    rfl

theorem isDigitFor_of_mem_encodeGroups {data : Text} {byte : UInt8}
    (member : byte ∈ encodeGroups data) : ∃ value, IsDigitFor byte value := by
  have written : ∀ n shift, ∃ value, IsDigitFor (base64Digit n shift) value := by
    intro n shift
    rw [base64Digit_eq]
    exact ⟨_, digit_isDigitFor (Nat.mod_lt _ (by decide))⟩
  induction data using encodeGroups.induct with
  | case1 => exact absurd member List.not_mem_nil
  | case2 a =>
    simp only [encodeGroups, List.mem_cons, List.not_mem_nil, or_false] at member
    rcases member with rfl | rfl <;> exact written _ _
  | case3 a b =>
    simp only [encodeGroups, List.mem_cons, List.not_mem_nil, or_false] at member
    rcases member with rfl | rfl | rfl <;> exact written _ _
  | case4 a b c rest ih =>
    simp only [encodeGroups, List.mem_cons] at member
    rcases member with rfl | rfl | rfl | rfl | member
    · exact written _ _
    · exact written _ _
    · exact written _ _
    · exact written _ _
    · exact ih member

theorem restored_encodeGroups (data : Text) :
    replace 0x5F 0x2F (replace 0x2D 0x2B (base64UrlEncode data)) = encodeGroups data := by
  unfold base64UrlEncode replace
  simp only [List.map_map]
  refine (List.map_congr_left fun byte member => ?_).trans (List.map_id _)
  obtain ⟨value, isDigit⟩ := isDigitFor_of_mem_encodeGroups member
  simp only [Function.comp_apply, isDigit.restored, id_eq]

/-- The decoder undoes the encoder on every string of bytes. -/
theorem base64UrlDecode_base64UrlEncode (data : Text) :
    base64UrlDecode (base64UrlEncode data) = data := by
  unfold base64UrlDecode
  dsimp only
  rw [restored_encodeGroups, decodeGroups_encodeGroups]
  rfl

theorem base64UrlEncode_isBase64Url (data : Text) : IsBase64Url (base64UrlEncode data) := by
  intro byte member
  unfold base64UrlEncode replace at member
  rw [List.map_map] at member
  obtain ⟨source, inside, rfl⟩ := List.mem_map.mp member
  obtain ⟨value, isDigit⟩ := isDigitFor_of_mem_encodeGroups inside
  exact isDigit.written

/-- The length of an encoding: four characters for three bytes, rounded up. -/
def encodedLength (count : Nat) : Nat := 4 * count ⌈/⌉ 3

/-- Three bytes give four characters, one and two bytes at the end two and three. -/
theorem length_encodeGroups (data : Text) :
    (encodeGroups data).length = (4 * data.length + 2) / 3 := by
  induction data using encodeGroups.induct with
  | case1 => rfl
  | case2 a => simp [encodeGroups]
  | case3 a b => simp [encodeGroups]
  | case4 a b c rest ih =>
    rw [encodeGroups]
    simp only [List.length_cons, ih]
    omega

theorem length_base64UrlEncode (data : Text) :
    (base64UrlEncode data).length = encodedLength data.length := by
  rw [base64UrlEncode, replace, replace, List.length_map, List.length_map, length_encodeGroups,
    encodedLength, Nat.ceilDiv_eq_add_pred_div]
  rfl

/-- Every string of bytes is decoded from its encoding, which has only characters of the
alphabet and as many as four for three bytes, rounded up. So no two strings have one
encoding. -/
theorem base64UrlEncode_lossless :
    (∀ data : Text, base64UrlDecode (base64UrlEncode data) = data ∧
      IsBase64Url (base64UrlEncode data) ∧
      (base64UrlEncode data).length = encodedLength data.length) ∧
    Function.Injective base64UrlEncode := by
  refine ⟨fun data => ?_, ?_⟩
  · exact ⟨base64UrlDecode_base64UrlEncode data, base64UrlEncode_isBase64Url data,
      length_base64UrlEncode data⟩
  · exact Function.LeftInverse.injective base64UrlDecode_base64UrlEncode

/-- No base64url string has a dot. -/
theorem IsBase64Url.no_dot {text : Text} (isUrl : IsBase64Url text) : 0x2E ∉ text :=
  fun member => absurd (isUrl 0x2E member) (by decide)

end UringServer.Auth
