import UringServer.Web.WsFrameParser

/-!
# Encoded WebSocket frames

A frame with its mask and the bytes of its minimal encoding, and the two
functions of the source that write such bytes: `HttpSession::BuildWsFrame` and
`servergame::BuildWsTextFrame`.
-/

namespace UringServer.Web

open UringServer.Semantics

/-- A frame to be encoded: any opcode of four bits, masked or not, with a payload that
the parser takes. -/
structure WireFrame where
  fin : Bool
  opcode : WsOpcode
  mask : Option (Fin 4 → UInt8)
  payload : List UInt8
  opcode_lt : opcode.value < 16
  payload_le : payload.length ≤ WsFrameParser.maxPayload

/-- The first byte of a frame. -/
def firstByte (fin : Bool) (opcode : WsOpcode) : UInt8 :=
  (if fin then 0x80 else 0x00) ||| opcode.value

/-- The second byte of a frame. -/
def secondByte (masked : Bool) (len7 : Nat) : UInt8 :=
  (if masked then 0x80 else 0x00) ||| UInt8.ofNat len7

/-- The seven bits that stand for a length in its minimal form. -/
def minimalLen7 (length : Nat) : Nat :=
  if length < 126 then length else if length ≤ 65535 then 126 else 127

/-- The extended length of the minimal form. -/
def minimalExtension (length : Nat) : List UInt8 :=
  if length < 126 then [] else if length ≤ 65535 then bigEndian 2 length else bigEndian 8 length

/-- The payload as it stands in a frame. -/
def maskedPayload (mask : Option (Fin 4 → UInt8)) (payload : List UInt8) : List UInt8 :=
  match mask with
  | none => payload
  | some key => xorKey key payload

/-- The bytes of a frame with the minimal form of its length. -/
def WireFrame.encode (frame : WireFrame) : List UInt8 :=
  [firstByte frame.fin frame.opcode,
    secondByte frame.mask.isSome (minimalLen7 frame.payload.length)] ++
    minimalExtension frame.payload.length ++ keyBytes frame.mask ++
    maskedPayload frame.mask frame.payload

/-- The three ways in which a header gives a length. -/
inductive LengthForm where
  | seven
  | sixteen
  | sixtyFour
deriving DecidableEq

namespace LengthForm

/-- Whether a form can hold a length. -/
def Holds (form : LengthForm) (length : Nat) : Prop :=
  match form with
  | .seven => length < 126
  | .sixteen => length ≤ 65535
  | .sixtyFour => length < 2 ^ 64

instance (form : LengthForm) (length : Nat) : Decidable (form.Holds length) :=
  match form with
  | .seven => inferInstanceAs (Decidable (_ < _))
  | .sixteen => inferInstanceAs (Decidable (_ ≤ _))
  | .sixtyFour => inferInstanceAs (Decidable (_ < _))

/-- The seven bits that stand for a length. -/
def len7 (form : LengthForm) (length : Nat) : Nat :=
  match form with
  | .seven => length
  | .sixteen => 126
  | .sixtyFour => 127

/-- The extended length. -/
def extension (form : LengthForm) (length : Nat) : List UInt8 :=
  match form with
  | .seven => []
  | .sixteen => bigEndian 2 length
  | .sixtyFour => bigEndian 8 length

/-- The shortest form that holds a length. -/
def minimal (length : Nat) : LengthForm :=
  if length < 126 then .seven else if length ≤ 65535 then .sixteen else .sixtyFour

theorem minimal_holds {length : Nat} (fits : length ≤ WsFrameParser.maxPayload) :
    (minimal length).Holds length := by
  unfold minimal
  split_ifs with short medium
  · exact short
  · exact medium
  · simp only [WsFrameParser.maxPayload] at fits
    simp only [Holds]
    omega

theorem len7_minimal (length : Nat) : (minimal length).len7 length = minimalLen7 length := by
  unfold minimal minimalLen7
  split_ifs <;> rfl

theorem extension_minimal (length : Nat) :
    (minimal length).extension length = minimalExtension length := by
  unfold minimal minimalExtension
  split_ifs <;> rfl

end LengthForm

/-- A frame with a form for its length, which need not be the shortest. -/
structure FormedFrame extends WireFrame where
  form : LengthForm
  holds : form.Holds payload.length

/-- The bytes of a frame with the form chosen for its length. -/
def FormedFrame.encode (frame : FormedFrame) : List UInt8 :=
  [firstByte frame.fin frame.opcode,
    secondByte frame.mask.isSome (frame.form.len7 frame.payload.length)] ++
    frame.form.extension frame.payload.length ++ keyBytes frame.mask ++
    maskedPayload frame.mask frame.payload

/-- A frame that has bytes after its length, or its length in the second byte. -/
def FormedFrame.Prompt (frame : FormedFrame) : Prop :=
  frame.form = .seven ∨ frame.mask.isSome ∨ frame.payload ≠ []

instance (frame : FormedFrame) : Decidable frame.Prompt :=
  inferInstanceAs (Decidable (_ ∨ _ ∨ _))

/-- A frame with the shortest form. -/
def WireFrame.minimal (frame : WireFrame) : FormedFrame :=
  { frame with
    form := .minimal frame.payload.length
    holds := LengthForm.minimal_holds frame.payload_le }

@[simp] theorem WireFrame.encode_minimal (frame : WireFrame) :
    frame.minimal.encode = frame.encode := by
  simp only [FormedFrame.encode, WireFrame.minimal, LengthForm.len7_minimal,
    LengthForm.extension_minimal, WireFrame.encode]

theorem WireFrame.minimal_prompt (frame : WireFrame) : frame.minimal.Prompt := by
  by_cases empty : frame.payload = []
  · exact .inl (by simp [WireFrame.minimal, empty, LengthForm.minimal])
  · exact .inr (.inr empty)

@[simp] theorem length_xorKey (key : Fin 4 → UInt8) (payload : List UInt8) :
    (xorKey key payload).length = payload.length := by
  rw [xorKey, List.length_mapIdx]

/-- Masking twice with one key is not masking. -/
@[simp] theorem xorKey_xorKey (key : Fin 4 → UInt8) (payload : List UInt8) :
    xorKey key (xorKey key payload) = payload := by
  refine List.ext_getElem (by simp) fun index _ _ => ?_
  simp only [xorKey, List.getElem_mapIdx]
  rw [UInt8.xor_assoc, UInt8.xor_self, UInt8.xor_zero]

@[simp] theorem length_maskedPayload (mask : Option (Fin 4 → UInt8)) (payload : List UInt8) :
    (maskedPayload mask payload).length = payload.length := by
  cases mask with
  | none => rfl
  | some key => exact length_xorKey key payload

/-- What `pool.Allocate(size)` gives: the writable bytes of a buffer, as many as were
asked for, or no buffer. -/
abbrev Allocate :=
  (size : UInt32) → Option { writable : List UInt8 // writable.length = size.toNat }

/-- A pool that has room. -/
def allocateZeros : Allocate := fun size => some ⟨List.replicate size.toNat 0, by simp⟩

/-- `header_size` of the frame builders. -/
def headerSize (size : Nat) : Nat :=
  if 126 ≤ size ∧ size ≤ 65535 then 4 else if size > 65535 then 10 else 2

/-- The length as the frame builders write it, from `p[1]` on. -/
def writeLength (size : Nat) (p : List UInt8) : List UInt8 :=
  if size < 126 then
    p.set 1 (UInt8.ofNat size)
  else if size ≤ 65535 then
    ((p.set 1 126).set 2 (UInt8.ofNat ((size >>> 8) &&& 0xFF))).set 3 (UInt8.ofNat (size &&& 0xFF))
  else
    (List.range 8).foldl (fun p i => p.set (2 + i) (UInt8.ofNat ((size >>> (56 - 8 * i)) &&& 0xFF)))
      (p.set 1 127)

/-- What the frame builders share: all but the first byte. -/
def buildFrame (allocate : Allocate) (first : UInt8) (payload : List UInt8) :
    Option (List UInt8) :=
  let size := payload.length
  let total := UInt32.ofNat (headerSize size + size)
  (allocate total).map fun writable =>
    let p := writeLength size (writable.val.set 0 first)
    let p := if size ≠ 0 then overwrite p (headerSize size) payload else p
    p.take total.toNat

/-- `HttpSession::BuildWsFrame`: the committed bytes, or no buffer. -/
def buildWsFrame (allocate : Allocate) (opcode : WsOpcode) (payload : List UInt8) :
    Option (List UInt8) :=
  buildFrame allocate (0x80 ||| opcode.value) payload

/-- `servergame::BuildWsTextFrame`: the committed bytes, or no buffer. -/
def buildWsTextFrame (allocate : Allocate) (text : List UInt8) : Option (List UInt8) :=
  buildFrame allocate 0x81 text

@[simp] theorem length_writeLength (size : Nat) (p : List UInt8) :
    (writeLength size p).length = p.length := by
  unfold writeLength
  split_ifs <;> simp [List.range_succ]

theorem headerSize_eq (size : Nat) :
    headerSize size = 2 + (minimalExtension size).length := by
  unfold headerSize minimalExtension
  split_ifs <;> simp <;> omega

theorem exists_cons {count : Nat} {p : List UInt8} (room : count + 1 ≤ p.length) :
    ∃ first rest, p = first :: rest ∧ count ≤ rest.length := by
  cases p with
  | nil => cases room
  | cons first rest => exact ⟨first, rest, rfl, Nat.le_of_succ_le_succ room⟩

/-- The builders write the minimal form of the length. -/
theorem take_writeLength {size : Nat} {p : List UInt8} (room : headerSize size ≤ p.length)
    (first : UInt8) :
    (writeLength size (p.set 0 first)).take (headerSize size) =
      [first, UInt8.ofNat (minimalLen7 size)] ++ minimalExtension size := by
  by_cases short : size < 126
  · have header : headerSize size = 2 := by unfold headerSize; split_ifs <;> omega
    rw [header] at room ⊢
    obtain ⟨p0, p, rfl, room1⟩ := exists_cons room
    obtain ⟨p1, rest, rfl, -⟩ := exists_cons room1
    simp [writeLength, minimalLen7, minimalExtension, short]
  by_cases medium : size ≤ 65535
  · have header : headerSize size = 4 := by unfold headerSize; split_ifs <;> omega
    rw [header] at room ⊢
    obtain ⟨p0, p, rfl, room1⟩ := exists_cons room
    obtain ⟨p1, p, rfl, room2⟩ := exists_cons room1
    obtain ⟨p2, p, rfl, room3⟩ := exists_cons room2
    obtain ⟨p3, rest, rfl, -⟩ := exists_cons room3
    simp [writeLength, minimalLen7, minimalExtension, short, medium, bigEndian]
  · have header : headerSize size = 10 := by unfold headerSize; split_ifs <;> omega
    rw [header] at room ⊢
    obtain ⟨p0, p, rfl, room1⟩ := exists_cons room
    obtain ⟨p1, p, rfl, room2⟩ := exists_cons room1
    obtain ⟨p2, p, rfl, room3⟩ := exists_cons room2
    obtain ⟨p3, p, rfl, room4⟩ := exists_cons room3
    obtain ⟨p4, p, rfl, room5⟩ := exists_cons room4
    obtain ⟨p5, p, rfl, room6⟩ := exists_cons room5
    obtain ⟨p6, p, rfl, room7⟩ := exists_cons room6
    obtain ⟨p7, p, rfl, room8⟩ := exists_cons room7
    obtain ⟨p8, p, rfl, room9⟩ := exists_cons room8
    obtain ⟨p9, rest, rfl, -⟩ := exists_cons room9
    simp [writeLength, minimalLen7, minimalExtension, short, medium, bigEndian, List.range_succ]

/-- A built frame: its first byte, the minimal form of the length and the payload. -/
theorem buildFrame_eq {allocate : Allocate} {first : UInt8} {payload bytes : List UInt8}
    (fits : payload.length ≤ WsFrameParser.maxPayload)
    (built : buildFrame allocate first payload = some bytes) :
    bytes = [first, UInt8.ofNat (minimalLen7 payload.length)] ++
      minimalExtension payload.length ++ payload := by
  obtain ⟨⟨writable, size⟩, -, rfl⟩ := Option.map_eq_some_iff.mp built
  have total : (UInt32.ofNat (headerSize payload.length + payload.length)).toNat =
      headerSize payload.length + payload.length := by
    have header : headerSize payload.length ≤ 10 := by unfold headerSize; split_ifs <;> omega
    refine UInt32.toNat_ofNat_of_lt' ?_
    simp only [WsFrameParser.maxPayload] at fits
    simp [UInt32.size]
    omega
  rw [total] at size
  have room : headerSize payload.length ≤ writable.length := by omega
  have header := take_writeLength room first
  dsimp only
  rw [total]
  split_ifs with nonempty
  · rw [overwrite, List.drop_eq_nil_of_le (by simp [size]), header]
    rw [List.append_nil, List.take_of_length_le]
    simp [headerSize_eq]
    omega
  · have empty : payload = [] := List.length_eq_zero_iff.mp (by omega)
    rw [empty] at header ⊢
    simpa using header

/-- `BuildWsFrame` writes an unmasked final frame in its minimal form. -/
theorem buildWsFrame_eq_encode {allocate : Allocate} {frame : WireFrame} {bytes : List UInt8}
    (final : frame.fin = true) (unmasked : frame.mask = none)
    (built : buildWsFrame allocate frame.opcode frame.payload = some bytes) :
    bytes = frame.encode := by
  rw [buildFrame_eq frame.payload_le built, WireFrame.encode, final, unmasked]
  simp [firstByte, secondByte, keyBytes, maskedPayload]

/-- The two builders agree on text. -/
theorem buildWsTextFrame_eq (allocate : Allocate) (text : List UInt8) :
    buildWsTextFrame allocate text = buildWsFrame allocate .kText text := rfl

end UringServer.Web
