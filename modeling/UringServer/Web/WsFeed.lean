import UringServer.Web.WsFrameParser

/-!
# The parse loop of `WsFrameParser`

One pass of the loop, the invariant it keeps and the bound on the passes left
make `ParseBuffer` a loop that ends. `Feed` appends to the buffer and runs it.
-/

namespace UringServer.Web

open UringServer.Semantics

namespace WsFrameParser

/-- What the states after a length keep: the payload has its announced size and
no more of it has been received. -/
structure Ready (parser : WsFrameParser) : Prop where
  sized : parser.state = .maskKey ∨ parser.state = .payload →
    parser.current.payload.length = parser.current.payloadLength
  received : parser.state = .maskKey ∧ parser.current.payloadLength ≠ 0 ∨
    parser.state = .payload → parser.payloadReceived ≤ parser.current.payloadLength

variable {parser : WsFrameParser}

theorem Ready.of_header (atHeader : parser.state = .header) :
    parser.Ready := by
  constructor <;> simp [atHeader]

@[simp] theorem processFrame_buffer (parser : WsFrameParser) :
    parser.processFrame.buffer = parser.buffer := by
  unfold processFrame callOnFrame setError
  dsimp only
  split_ifs <;> rfl

@[simp] theorem finishFrame_state (parser : WsFrameParser) :
    parser.finishFrame.state = .header := rfl

@[simp] theorem finishFrame_buffer (parser : WsFrameParser) :
    parser.finishFrame.buffer = parser.buffer := by
  unfold finishFrame unmask toHeader
  dsimp only
  split_ifs <;> simp

@[simp] theorem expectPayload_buffer (parser : WsFrameParser) (length : Nat) :
    (parser.expectPayload length).buffer = parser.buffer := rfl

@[simp] theorem readHeader_buffer (parser : WsFrameParser) (b0 b1 : UInt8) :
    (parser.readHeader b0 b1).buffer = parser.buffer := by
  unfold readHeader toHeader
  dsimp only
  split_ifs <;> simp

@[simp] theorem readLength64_buffer (parser : WsFrameParser) (length : Nat) :
    (parser.readLength64 length).buffer = parser.buffer := by
  unfold readLength64 setError
  split_ifs <;> rfl

theorem readMaskKey_of_empty (empty : parser.current.payloadLength = 0)
    (key : Fin 4 → UInt8) : parser.readMaskKey key =
      { parser with current.maskingKey := key, current.payload := [] }.finishFrame := if_pos empty

theorem readMaskKey_of_ne (some_ : parser.current.payloadLength ≠ 0)
    (key : Fin 4 → UInt8) : parser.readMaskKey key =
      { parser with current.maskingKey := key, state := .payload } := if_neg some_

@[simp] theorem readMaskKey_buffer (parser : WsFrameParser) (key : Fin 4 → UInt8) :
    (parser.readMaskKey key).buffer = parser.buffer := by
  unfold readMaskKey
  dsimp only
  split_ifs <;> simp

theorem expectPayload_ready (parser : WsFrameParser) (length : Nat) :
    (parser.expectPayload length).Ready := by
  constructor <;> simp [expectPayload]

theorem readHeader_ready (parser : WsFrameParser) (b0 b1 : UInt8) :
    (parser.readHeader b0 b1).Ready := by
  unfold readHeader
  dsimp only
  split_ifs
  · constructor <;> simp [headerFrame]
  · exact .of_header rfl
  · exact expectPayload_ready _ _
  · constructor <;> simp
  · constructor <;> simp

theorem readLength64_ready (atLength : parser.state = .payloadLen64)
    (length : Nat) : (parser.readLength64 length).Ready := by
  unfold readLength64
  split_ifs
  · constructor <;> simp [setError, atLength]
  · exact expectPayload_ready _ _

theorem Ready.readMaskKey (ready : parser.Ready)
    (atKey : parser.state = .maskKey) (key : Fin 4 → UInt8) :
    (parser.readMaskKey key).Ready := by
  unfold WsFrameParser.readMaskKey
  dsimp only
  split_ifs with empty
  · exact .of_header rfl
  · exact ⟨fun _ => ready.sized (.inl atKey), fun _ => ready.received (.inl ⟨atKey, empty⟩)⟩

/-- What `case State::Payload` copies fits into the payload. -/
theorem Ready.copy_fits (ready : parser.Ready) (atPayload : parser.state = .payload) :
    parser.payloadReceived + (parser.buffer.take (min
      (parser.current.payloadLength - parser.payloadReceived) parser.buffer.length)).length ≤
      parser.current.payload.length := by
  have sized := ready.sized (.inr atPayload)
  have received := ready.received (.inr atPayload)
  rw [List.length_take, sized]
  omega

theorem Ready.readPayload (ready : parser.Ready)
    (atPayload : parser.state = .payload) : parser.readPayload.Ready := by
  unfold WsFrameParser.readPayload finishPayload
  dsimp only
  split_ifs with full
  · exact .of_header rfl
  · refine ⟨fun _ => ?_, fun _ => ?_⟩
    · exact (length_overwrite (ready.copy_fits atPayload)).trans (ready.sized (.inr atPayload))
    · have received := ready.received (.inr atPayload)
      change parser.payloadReceived + min _ _ ≤ parser.current.payloadLength
      omega

/-- What one pass of the loop does, by the state it finds. -/
inductive Pass (parser : WsFrameParser) : WsFrameParser → Prop where
  | header {b0 b1 rest} (at_ : parser.state = .header) (bytes : parser.buffer = b0 :: b1 :: rest) :
      Pass parser ({ parser with buffer := rest }.readHeader b0 b1)
  | length16 {b0 b1 rest} (at_ : parser.state = .payloadLen16)
      (bytes : parser.buffer = b0 :: b1 :: rest) :
      Pass parser ({ parser with buffer := rest }.expectPayload ((b0.toNat <<< 8) ||| b1.toNat))
  | length64 {b0 b1 b2 b3 b4 b5 b6 b7 rest} (at_ : parser.state = .payloadLen64)
      (bytes : parser.buffer = b0 :: b1 :: b2 :: b3 :: b4 :: b5 :: b6 :: b7 :: rest) :
      Pass parser ({ parser with buffer := rest }.readLength64
        (readBigEndian [b0, b1, b2, b3, b4, b5, b6, b7]))
  | maskKey {k0 k1 k2 k3 rest} (at_ : parser.state = .maskKey)
      (bytes : parser.buffer = k0 :: k1 :: k2 :: k3 :: rest) :
      Pass parser ({ parser with buffer := rest }.readMaskKey ![k0, k1, k2, k3])
  | payload {first rest} (at_ : parser.state = .payload) (bytes : parser.buffer = first :: rest) :
      Pass parser parser.readPayload

variable {next : WsFrameParser}

theorem parseStep_cases (taken : parser.parseStep = some next) :
    parser.error = false ∧ Pass parser next := by
  unfold parseStep at taken
  split at taken
  case isTrue => cases taken
  case isFalse running =>
    simp only [Bool.or_eq_true, not_or, Bool.not_eq_true] at running
    refine ⟨running.2, ?_⟩
    split at taken
    case h_1 at_ bytes => cases taken; exact .header at_ bytes
    case h_2 at_ bytes => cases taken; exact .length16 at_ bytes
    case h_3 at_ bytes => cases taken; exact .length64 at_ bytes
    case h_4 at_ bytes => cases taken; exact .maskKey at_ bytes
    case h_5 at_ =>
      cases taken
      cases bytes : parser.buffer with
      | nil => simp [bytes] at running
      | cons first rest => exact .payload at_ bytes
    case h_6 => cases taken

/-- A pass is taken whenever the bytes it needs are there. -/
theorem Pass.parseStep (pass : Pass parser next)
    (running : parser.error = false) : parser.parseStep = some next := by
  cases pass with
  | header at_ bytes => simp [WsFrameParser.parseStep, running, at_, bytes]
  | length16 at_ bytes => simp [WsFrameParser.parseStep, running, at_, bytes]
  | length64 at_ bytes => simp [WsFrameParser.parseStep, running, at_, bytes]
  | maskKey at_ bytes => simp [WsFrameParser.parseStep, running, at_, bytes]
  | payload at_ bytes => simp [WsFrameParser.parseStep, running, at_, bytes]

theorem Ready.pass (ready : parser.Ready) (pass : Pass parser next) : next.Ready := by
  cases pass with
  | header => exact readHeader_ready _ _ _
  | length16 => exact expectPayload_ready _ _
  | length64 at_ => exact readLength64_ready (by exact at_) _
  | @maskKey _ _ _ _ rest at_ =>
    have shorter : { parser with buffer := rest }.Ready := ⟨ready.sized, ready.received⟩
    exact shorter.readMaskKey at_ _
  | payload at_ => exact ready.readPayload at_

/-- The passes left at most: two for each byte, and one for a payload of which
nothing is missing. -/
def passesLeft (parser : WsFrameParser) : Nat :=
  2 * parser.buffer.length + if parser.state = .payload then 1 else 0

theorem passesLeft_lt_of_shorter (shorter : next.buffer.length < parser.buffer.length) :
    next.passesLeft < parser.passesLeft := by
  unfold passesLeft
  split_ifs <;> omega

theorem Ready.readPayload_passesLeft_lt (ready : parser.Ready)
    (at_ : parser.state = .payload) (bytes : parser.buffer ≠ []) :
    parser.readPayload.passesLeft < parser.passesLeft := by
  have some_ : 0 < parser.buffer.length := List.length_pos_iff.mpr bytes
  have received := ready.received (.inr at_)
  unfold WsFrameParser.readPayload finishPayload
  dsimp only
  split_ifs with full
  · rw [passesLeft, passesLeft, if_pos at_, finishFrame_buffer, if_neg (by simp)]
    simp only [copyPayload, List.length_drop]
    omega
  · rw [passesLeft, passesLeft]
    simp only [copyPayload] at full
    simp only [copyPayload, at_, if_true, List.length_drop]
    omega

theorem Ready.passesLeft_lt (ready : parser.Ready)
    (pass : Pass parser next) : next.passesLeft < parser.passesLeft := by
  cases pass with
  | header _ bytes =>
    refine passesLeft_lt_of_shorter ?_
    simp only [readHeader_buffer, bytes, List.length_cons]
    omega
  | length16 _ bytes =>
    refine passesLeft_lt_of_shorter ?_
    simp only [expectPayload_buffer, bytes, List.length_cons]
    omega
  | length64 _ bytes =>
    refine passesLeft_lt_of_shorter ?_
    simp only [readLength64_buffer, bytes, List.length_cons]
    omega
  | maskKey _ bytes =>
    refine passesLeft_lt_of_shorter ?_
    simp only [readMaskKey_buffer, bytes, List.length_cons]
    omega
  | payload at_ bytes => exact ready.readPayload_passesLeft_lt at_ (by simp [bytes])

/-- The loop of `WsFrameParser::ParseBuffer`. -/
def parseLoop : Loop WsFrameParser where
  body := parseStep
  Inv := Ready
  remaining := passesLeft
  preserved ready taken := ready.pass (parseStep_cases taken).2
  decreases ready taken := ready.passesLeft_lt (parseStep_cases taken).2

/-- `WsFrameParser::ParseBuffer`. -/
def parseBuffer (parser : WsFrameParser) : WsFrameParser := parseLoop.run parser

/-- Append to `buffer_`. -/
def extend (parser : WsFrameParser) (data : List UInt8) : WsFrameParser :=
  { parser with buffer := parser.buffer ++ data }

/-- `WsFrameParser::Feed`. -/
def feed (parser : WsFrameParser) (data : List UInt8) : WsFrameParser :=
  if parser.error then parser else (parser.extend data).parseBuffer

/-- `WsFrameParser::HasError`. -/
def hasError (parser : WsFrameParser) : Bool := parser.error

/-- The calls of `on_frame_`, in order. -/
def frames (parser : WsFrameParser) : List (WsOpcode × List UInt8) :=
  parser.callbacks.filterMap fun
    | .onFrame opcode payload => some (opcode, payload)
    | .onError _ => none

/-- The calls of `on_error_`, in order. -/
def errors (parser : WsFrameParser) : List String :=
  parser.callbacks.filterMap fun
    | .onFrame _ _ => none
    | .onError reason => some reason

/-- Consecutive `Feed` calls. -/
def feedAll (parser : WsFrameParser) (pieces : List (List UInt8)) : WsFrameParser :=
  pieces.foldl feed parser

end WsFrameParser

end UringServer.Web
