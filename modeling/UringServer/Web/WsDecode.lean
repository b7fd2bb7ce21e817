import Mathlib.Tactic.FinCases
import UringServer.Web.WsEncode
import UringServer.Web.WsFeed

/-!
# Parsing one encoded frame

The passes of the parse loop over the bytes of one frame: header, extended
length, mask key and payload. They amount to `ProcessFrame` on the frame.
-/

namespace UringServer.Web

open UringServer.Semantics

/-- The fields of a second byte. -/
theorem secondByte_bits (masked : Bool) {len7 : Nat} (fits : len7 < 128) :
    secondByte masked len7 &&& 0x7F = UInt8.ofNat len7 ∧
      decide (secondByte masked len7 &&& 0x80 ≠ 0) = masked := by
  have all : ∀ (masked : Bool) (len7 : Fin 128),
      secondByte masked len7 &&& 0x7F = UInt8.ofNat len7 ∧
        decide (secondByte masked len7 &&& 0x80 ≠ 0) = masked := by decide
  exact all masked ⟨len7, fits⟩

/-- The fields of a first byte. -/
theorem firstByte_bits (fin : Bool) {opcode : WsOpcode} (fits : opcode.value < 16) :
    firstByte fin opcode &&& 0x0F = opcode.value ∧
      decide (firstByte fin opcode &&& 0x80 ≠ 0) = fin := by
  have all : ∀ (fin : Bool) (value : Fin 16),
      firstByte fin ⟨UInt8.ofNat value⟩ &&& 0x0F = UInt8.ofNat value ∧
        decide (firstByte fin ⟨UInt8.ofNat value⟩ &&& 0x80 ≠ 0) = fin := by decide
  have value : opcode = ⟨UInt8.ofNat opcode.value.toNat⟩ := by simp
  rw [value]
  exact all fin ⟨opcode.value.toNat, fits⟩

/-- The frame a header announces. -/
theorem headerFrame_bytes (fin masked : Bool) {opcode : WsOpcode} {len7 : Nat}
    (opcodeFits : opcode.value < 16) (lengthFits : len7 < 128) :
    WsFrameParser.headerFrame (firstByte fin opcode) (secondByte masked len7) =
      { fin, opcode, masked } := by
  rw [WsFrameParser.headerFrame, (firstByte_bits fin opcodeFits).1,
    (firstByte_bits fin opcodeFits).2, (secondByte_bits masked lengthFits).2]

namespace WsFrameParser

section Passes

variable {parser : WsFrameParser}

/-- A pass that is possible is taken. -/
theorem Ready.parse_pass (ready : parser.Ready) (running : parser.error = false)
    {next : WsFrameParser} (pass : Pass parser next) :
    parser.parseBuffer = next.parseBuffer :=
  Loop.run_of_some ready (pass.parseStep running)

variable {fin masked : Bool} {opcode : WsOpcode} {rest : List UInt8}

/-- A header with its length in the second byte. -/
theorem readHeader_short (opcodeFits : opcode.value < 16) {length : Nat} (some_ : length ≠ 0)
    (short : length < 126) :
    parser.readHeader (firstByte fin opcode) (secondByte masked length) =
      { parser with current := { fin, opcode, masked } }.expectPayload length := by
  have value : (UInt8.ofNat length).toNat = length := by simp; omega
  unfold readHeader
  dsimp only
  rw [headerFrame_bytes fin masked opcodeFits (by omega),
    (secondByte_bits masked (by omega)).1, if_pos, if_neg, value]
  · intro zero
    rw [zero] at value
    exact some_ value.symm
  · rw [UInt8.lt_iff_toNat_lt, value]
    exact short

/-- A header that announces 16 bits of length. -/
theorem readHeader_126 (opcodeFits : opcode.value < 16) :
    parser.readHeader (firstByte fin opcode) (secondByte masked 126) =
      { parser with current := { fin, opcode, masked }, state := .payloadLen16 } := by
  unfold readHeader
  dsimp only
  rw [headerFrame_bytes fin masked opcodeFits (by decide),
    (secondByte_bits masked (by decide)).1, if_neg (by decide), if_pos (by decide)]

/-- A header that announces 64 bits of length. -/
theorem readHeader_127 (opcodeFits : opcode.value < 16) :
    parser.readHeader (firstByte fin opcode) (secondByte masked 127) =
      { parser with current := { fin, opcode, masked }, state := .payloadLen64 } := by
  unfold readHeader
  dsimp only
  rw [headerFrame_bytes fin masked opcodeFits (by decide),
    (secondByte_bits masked (by decide)).1, if_neg (by decide), if_neg (by decide)]

/-- An unmasked frame without payload is processed with its header. -/
theorem readHeader_empty (opcodeFits : opcode.value < 16) :
    parser.readHeader (firstByte fin opcode) (secondByte false 0) =
      { parser with
        current := { fin, opcode, masked := false }
        payloadReceived := 0 }.processFrame.toHeader := by
  unfold readHeader
  dsimp only
  rw [headerFrame_bytes fin false opcodeFits (by decide),
    (secondByte_bits false (by decide)).1, if_pos (by decide), if_pos (by decide),
    if_neg Bool.false_ne_true]

/-- A masked frame without payload has its key to come. -/
theorem readHeader_emptyMasked (opcodeFits : opcode.value < 16) :
    parser.readHeader (firstByte fin opcode) (secondByte true 0) =
      { parser with current := { fin, opcode, masked := true }, state := .maskKey } := by
  unfold readHeader
  dsimp only
  rw [headerFrame_bytes fin true opcodeFits (by decide),
    (secondByte_bits true (by decide)).1, if_pos (by decide), if_pos (by decide), if_pos rfl]

/-- The pass over 16 bits of length. -/
theorem Ready.parse_length16 (ready : parser.Ready) (running : parser.error = false)
    (atLength : parser.state = .payloadLen16) {length : Nat} (fits : length ≤ 65535)
    (bytes : parser.buffer = bigEndian 2 length ++ rest) :
    parser.parseBuffer = ({ parser with buffer := rest }.expectPayload length).parseBuffer := by
  have value : readBigEndian (bigEndian 2 length) = length :=
    readBigEndian_bigEndian (by omega)
  simp only [readBigEndian, bigEndian, List.foldl_cons, List.foldl_nil, Nat.zero_shiftLeft,
    Nat.zero_or] at value
  rw [ready.parse_pass running (.length16 atLength bytes), value]
  rfl

/-- The pass over 64 bits of length. -/
theorem Ready.parse_length64 (ready : parser.Ready) (running : parser.error = false)
    (atLength : parser.state = .payloadLen64) {length : Nat} (fits : length ≤ maxPayload)
    (bytes : parser.buffer = bigEndian 8 length ++ rest) :
    parser.parseBuffer = ({ parser with buffer := rest }.expectPayload length).parseBuffer := by
  have value : readBigEndian (bigEndian 8 length) = length :=
    readBigEndian_bigEndian (by simp only [maxPayload] at fits; omega)
  rw [ready.parse_pass running (.length64 atLength bytes)]
  change (readLength64 (readBigEndian (bigEndian 8 length)) _).parseBuffer = _
  rw [value, readLength64, if_neg (by omega)]
  rfl

/-- The passes over a header that gives a length, but not of zero in its second byte. -/
theorem Ready.parse_length (ready : parser.Ready) (running : parser.error = false)
    (atHeader : parser.state = .header) (opcodeFits : opcode.value < 16) {length : Nat}
    {form : LengthForm} (long : form ≠ .seven ∨ length ≠ 0) (holds : form.Holds length)
    (fits : length ≤ maxPayload)
    (bytes : parser.buffer = [firstByte fin opcode, secondByte masked (form.len7 length)] ++
      form.extension length ++ rest) :
    parser.parseBuffer = ({ parser with
      buffer := rest
      current := { fin, opcode, masked } }.expectPayload length).parseBuffer := by
  have pass := ready.parse_pass running (.header atHeader bytes)
  have next := ready.pass (.header atHeader bytes)
  rw [pass]
  cases form with
  | seven =>
    rw [LengthForm.len7, readHeader_short opcodeFits (long.resolve_left (by simp)) holds]
    rfl
  | sixteen =>
    rw [LengthForm.len7, readHeader_126 opcodeFits] at next ⊢
    exact next.parse_length16 running rfl holds rfl
  | sixtyFour =>
    rw [LengthForm.len7, readHeader_127 opcodeFits] at next ⊢
    exact next.parse_length64 running rfl fits rfl

/-- The pass over a payload that is all there, which is only made if there are bytes left. -/
theorem Ready.parse_payload (ready : parser.Ready) (running : parser.error = false)
    (atPayload : parser.state = .payload) (none_ : parser.payloadReceived = 0)
    {payload : List UInt8} (some_ : payload ++ rest ≠ [])
    (size : payload.length = parser.current.payloadLength)
    (bytes : parser.buffer = payload ++ rest) :
    parser.parseBuffer = { parser with
      current.payload := payload
      payloadReceived := payload.length
      buffer := rest }.finishFrame.parseBuffer := by
  have sized := ready.sized (.inr atPayload)
  obtain ⟨first, more, split⟩ := List.exists_cons_of_ne_nil some_
  have pass := ready.parse_pass running (.payload atPayload (bytes.trans split))
  have copied : parser.copyPayload payload.length = { parser with
      current.payload := payload
      payloadReceived := payload.length
      buffer := rest } := by
    unfold copyPayload
    rw [none_, bytes, List.take_left, List.drop_left, Nat.zero_add,
      overwrite_full (size.trans sized.symm)]
  have there : min (parser.current.payloadLength - parser.payloadReceived)
      parser.buffer.length = payload.length := by
    rw [none_, bytes, List.length_append]
    omega
  rw [pass, WsFrameParser.readPayload, there, copied, finishPayload, if_pos size]

end Passes

/-- The parser in whose `current_` the frame stands, unmasked, with the bytes after it in
the buffer. -/
def hold (parser : WsFrameParser) (frame : WireFrame) (rest : List UInt8) (received : Nat) :
    WsFrameParser :=
  { parser with
    buffer := rest
    payloadReceived := received
    current := {
      fin := frame.fin
      opcode := frame.opcode
      masked := frame.mask.isSome
      payloadLength := frame.payload.length
      maskingKey := frame.mask.getD fun _ => 0
      payload := frame.payload } }

/-- `Unmask` on a payload as it stands in the frame. -/
theorem unmask_maskedPayload {parser : WsFrameParser} {frame : WireFrame} {rest : List UInt8}
    {received : Nat} (state : State) :
    { parser.hold frame rest received with
        state, current.payload := maskedPayload frame.mask frame.payload }.unmask =
      { parser.hold frame rest received with state } := by
  unfold unmask hold
  dsimp only
  cases mask : frame.mask with
  | none => rfl
  | some key => simp [maskedPayload]

theorem processFrame_toHeader (parser : WsFrameParser) (state : State) :
    { parser with state }.processFrame.toHeader = parser.processFrame.toHeader := by
  unfold processFrame callOnFrame setError toHeader
  dsimp only
  split_ifs <;> rfl

/-- `finishFrame` on a frame that has all arrived. -/
theorem finishFrame_maskedPayload {parser : WsFrameParser} {frame : WireFrame}
    {rest : List UInt8} {received : Nat} (state : State) :
    { parser.hold frame rest received with
        state, current.payload := maskedPayload frame.mask frame.payload }.finishFrame =
      (parser.hold frame rest received).processFrame.toHeader := by
  rw [finishFrame, unmask_maskedPayload, processFrame_toHeader]

theorem key_eta (key : Fin 4 → UInt8) : ![key 0, key 1, key 2, key 3] = key := by
  funext index
  fin_cases index <;> rfl

section Frame

variable {parser : WsFrameParser} {frame : FormedFrame} {rest : List UInt8}

/-- The pass over an unmasked frame whose second byte says that it has no payload. -/
theorem Ready.parse_empty (ready : parser.Ready) (running : parser.error = false)
    (atHeader : parser.state = .header) (short : frame.form = .seven) (empty : frame.payload = [])
    (unmasked : frame.mask = none) (bytes : parser.buffer = frame.encode ++ rest) :
    parser.parseBuffer =
      (parser.hold frame.toWireFrame rest 0).processFrame.toHeader.parseBuffer := by
  have encoded : frame.encode = [firstByte frame.fin frame.opcode, secondByte false 0] := by
    simp [FormedFrame.encode, short, empty, unmasked, LengthForm.len7, LengthForm.extension,
      keyBytes, maskedPayload]
  rw [encoded] at bytes
  rw [ready.parse_pass running (.header atHeader bytes), readHeader_empty frame.opcode_lt]
  simp only [hold, unmasked, empty]
  rfl

/-- The passes over a masked frame whose second byte says that it has no payload. -/
theorem Ready.parse_emptyMasked (ready : parser.Ready) (running : parser.error = false)
    (atHeader : parser.state = .header) (short : frame.form = .seven) (empty : frame.payload = [])
    {key : Fin 4 → UInt8} (masked : frame.mask = some key)
    (bytes : parser.buffer = frame.encode ++ rest) :
    parser.parseBuffer = (parser.hold frame.toWireFrame rest
      parser.payloadReceived).processFrame.toHeader.parseBuffer := by
  have encoded : frame.encode =
      [firstByte frame.fin frame.opcode, secondByte true 0, key 0, key 1, key 2, key 3] := by
    simp [FormedFrame.encode, short, empty, masked, LengthForm.len7, LengthForm.extension,
      keyBytes, maskedPayload, xorKey]
  rw [encoded] at bytes
  have header := ready.pass (.header atHeader bytes)
  rw [ready.parse_pass running (.header atHeader bytes)]
  rw [readHeader_emptyMasked frame.opcode_lt] at header ⊢
  rw [header.parse_pass running (.maskKey rfl rfl), readMaskKey_of_empty (by rfl), key_eta,
    ← finishFrame_maskedPayload .maskKey]
  simp only [hold, masked, empty]
  rfl

/-- The parser after the length of a frame. -/
def announced (parser : WsFrameParser) (frame : FormedFrame) (rest : List UInt8) :
    WsFrameParser :=
  { parser with
    buffer := keyBytes frame.mask ++ maskedPayload frame.mask frame.payload ++ rest
    current := { fin := frame.fin, opcode := frame.opcode, masked := frame.mask.isSome }
    }.expectPayload frame.payload.length

/-- The passes over the header of a frame up to its mask key or payload. -/
theorem Ready.parse_announced (ready : parser.Ready) (running : parser.error = false)
    (atHeader : parser.state = .header) (long : frame.form ≠ .seven ∨ frame.payload ≠ [])
    (bytes : parser.buffer = frame.encode ++ rest) :
    parser.parseBuffer = (parser.announced frame rest).parseBuffer := by
  refine ready.parse_length running atHeader frame.opcode_lt ?_ frame.holds frame.payload_le ?_
  · exact long.imp_right fun some_ zero => some_ (List.length_eq_zero_iff.mp zero)
  · rw [bytes, FormedFrame.encode]
    simp only [List.append_assoc]

/-- The passes over a frame that is not finished with its header. -/
theorem Ready.parse_long (ready : parser.Ready) (running : parser.error = false)
    (atHeader : parser.state = .header) (long : frame.form ≠ .seven ∨ frame.payload ≠ [])
    (there : frame.mask.isSome ∨ frame.payload ≠ [] ∨ rest ≠ [])
    (bytes : parser.buffer = frame.encode ++ rest) :
    parser.parseBuffer = (parser.hold frame.toWireFrame rest
      frame.payload.length).processFrame.toHeader.parseBuffer := by
  rw [ready.parse_announced running atHeader long bytes]
  have opened : (parser.announced frame rest).Ready := expectPayload_ready _ _
  cases mask : frame.mask with
  | none =>
    have some_ : maskedPayload frame.mask frame.payload ++ rest ≠ [] := by
      simp only [mask, Option.isSome_none, Bool.false_eq_true, false_or] at there
      simpa [mask, maskedPayload, or_iff_not_imp_left] using there
    rw [opened.parse_payload running (by simp [announced, expectPayload, mask, afterLength]) rfl
      some_ (by simp [announced, expectPayload]) (by simp [announced, mask, keyBytes]),
      ← finishFrame_maskedPayload .payload]
    simp only [hold, announced, mask, length_maskedPayload]
    rfl
  | some key =>
    have atKey : (parser.announced frame rest).state = .maskKey := by
      simp [announced, expectPayload, mask, afterLength]
    have keyThere : (parser.announced frame rest).buffer =
        key 0 :: key 1 :: key 2 :: key 3 :: (maskedPayload (some key) frame.payload ++ rest) := by
      rw [announced, mask]
      rfl
    have keyed := opened.pass (.maskKey atKey keyThere)
    rw [opened.parse_pass running (.maskKey atKey keyThere)]
    by_cases empty : frame.payload = []
    · rw [readMaskKey_of_empty (by simp [announced, expectPayload, empty]), key_eta,
        ← finishFrame_maskedPayload .maskKey]
      simp only [hold, announced, mask, empty]
      rfl
    · have length : frame.payload.length ≠ 0 := mt List.length_eq_zero_iff.mp empty
      have some_ : maskedPayload (some key) frame.payload ++ rest ≠ [] := by
        rw [← List.length_pos_iff, List.length_append, length_maskedPayload]
        omega
      rw [readMaskKey_of_ne (by exact length), key_eta] at keyed ⊢
      rw [keyed.parse_payload running rfl rfl some_ (by simp [announced, expectPayload]) (by rfl),
        ← finishFrame_maskedPayload .payload]
      simp only [hold, announced, mask, length_maskedPayload]
      rfl

/-- Parsing the bytes of a frame is processing the frame. -/
theorem Ready.parse_frame (ready : parser.Ready) (running : parser.error = false)
    (atHeader : parser.state = .header) (there : frame.Prompt ∨ rest ≠ [])
    (bytes : parser.buffer = frame.encode ++ rest) :
    ∃ received, parser.parseBuffer =
      (parser.hold frame.toWireFrame rest received).processFrame.toHeader.parseBuffer := by
  by_cases short : frame.form = .seven ∧ frame.payload = []
  · obtain ⟨short, empty⟩ := short
    cases mask : frame.mask with
    | none => exact ⟨_, ready.parse_empty running atHeader short empty mask bytes⟩
    | some key => exact ⟨_, ready.parse_emptyMasked running atHeader short empty mask bytes⟩
  · have long : frame.form ≠ .seven ∨ frame.payload ≠ [] := not_and_or.mp short
    have rest_ : frame.mask.isSome ∨ frame.payload ≠ [] ∨ rest ≠ [] := by
      rcases there with prompt | more
      · rcases prompt with seven | masked | some_
        · exact .inr (.inl (long.resolve_left (not_not.mpr seven)))
        · exact .inl masked
        · exact .inr (.inl some_)
      · exact .inr (.inr more)
    exact ⟨_, ready.parse_long running atHeader long rest_ bytes⟩

end Frame

end WsFrameParser

end UringServer.Web
