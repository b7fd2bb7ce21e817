import Mathlib.Data.Fin.VecNotation
import Mathlib.Data.Fintype.Pi
import UringServer.Semantics.Bytes
import UringServer.Semantics.Loop

/-!
# `WsFrameParser`

The parser of `WsFrameParser.cpp` with its callbacks as a list of the calls made
so far. During `ParseBuffer` the source advances an index into `buffer_` and
`Feed` erases what the index passed; here `buffer` is what is not consumed yet.
-/

namespace UringServer.Web

open UringServer.Semantics

/-- `WsOpcode`: four bits of a header cast to it give values beyond the named ones. -/
structure WsOpcode where
  value : UInt8
deriving DecidableEq

namespace WsOpcode

def kContinuation : WsOpcode := ⟨0x0⟩
def kText : WsOpcode := ⟨0x1⟩
def kBinary : WsOpcode := ⟨0x2⟩
def kClose : WsOpcode := ⟨0x8⟩
def kPing : WsOpcode := ⟨0x9⟩
def kPong : WsOpcode := ⟨0xA⟩

end WsOpcode

/-- `WsFrame`. -/
structure WsFrame where
  fin : Bool := true
  opcode : WsOpcode := .kText
  masked : Bool := false
  payloadLength : Nat := 0
  maskingKey : Fin 4 → UInt8 := fun _ => 0
  payload : List UInt8 := []
deriving DecidableEq

/-- `payload[i] ^ masking_key[i % 4]` for every index. -/
def xorKey (key : Fin 4 → UInt8) (payload : List UInt8) : List UInt8 :=
  payload.mapIdx fun index byte => byte ^^^ key (Fin.ofNat 4 index)

/-- The mask key as it stands in a frame. -/
def keyBytes (mask : Option (Fin 4 → UInt8)) : List UInt8 :=
  match mask with
  | none => []
  | some key => [key 0, key 1, key 2, key 3]

namespace WsFrameParser

/-- `WsFrameParser::State`. -/
inductive State where
  | header
  | payloadLen16
  | payloadLen64
  | maskKey
  | payload
deriving DecidableEq

/-- A call of `on_frame_` or `on_error_`. -/
inductive Callback where
  | onFrame (opcode : WsOpcode) (payload : List UInt8)
  | onError (reason : String)
deriving DecidableEq

end WsFrameParser

open WsFrameParser (State Callback)

/-- The members of a `WsFrameParser` and the callbacks it has made. -/
structure WsFrameParser where
  state : State := .header
  current : WsFrame := {}
  payloadReceived : Nat := 0
  error : Bool := false
  fragmentOpcode : WsOpcode := .kContinuation
  fragmentBuffer : List UInt8 := []
  inFragment : Bool := false
  buffer : List UInt8 := []
  callbacks : List Callback := []
deriving DecidableEq

namespace WsFrameParser

/-- The largest payload that a 64-bit length may announce. -/
def maxPayload : Nat := 16 * 1024 * 1024

/-- A call of `on_frame_`. -/
def callOnFrame (opcode : WsOpcode) (payload : List UInt8) (parser : WsFrameParser) :
    WsFrameParser :=
  { parser with callbacks := parser.callbacks ++ [.onFrame opcode payload] }

/-- `WsFrameParser::SetError`. -/
def setError (reason : String) (parser : WsFrameParser) : WsFrameParser :=
  { parser with error := true, callbacks := parser.callbacks ++ [.onError reason] }

/-- `WsFrameParser::Unmask`. -/
def unmask (parser : WsFrameParser) : WsFrameParser :=
  if !parser.current.masked then
    parser
  else
    { parser with
      current.payload := xorKey parser.current.maskingKey parser.current.payload }

/-- `WsFrameParser::ProcessFrame`; a payload that is moved from is left empty. -/
def processFrame (parser : WsFrameParser) : WsFrameParser :=
  let opcode := parser.current.opcode
  let payload := parser.current.payload
  let moved := { parser with current.payload := [] }
  if opcode.value ≥ WsOpcode.kClose.value then
    moved.callOnFrame opcode payload
  else if opcode ≠ .kContinuation then
    if parser.current.fin then
      moved.callOnFrame opcode payload
    else
      { moved with inFragment := true, fragmentOpcode := opcode, fragmentBuffer := payload }
  else if !parser.inFragment then
    parser.setError "unexpected continuation frame"
  else
    let parser := { parser with fragmentBuffer := parser.fragmentBuffer ++ payload }
    if parser.current.fin then
      { parser with inFragment := false, fragmentBuffer := [] }.callOnFrame
        parser.fragmentOpcode parser.fragmentBuffer
    else
      parser

/-- `state_ = State::Header`. -/
def toHeader (parser : WsFrameParser) : WsFrameParser := { parser with state := .header }

/-- `Unmask`, `ProcessFrame` and the return to `State::Header`. -/
def finishFrame (parser : WsFrameParser) : WsFrameParser := parser.unmask.processFrame.toHeader

/-- The state after the length of a frame. -/
def afterLength (masked : Bool) : State := if masked then .maskKey else .payload

/-- `payload.resize(payload_length)` and on to the mask key or the payload. -/
def expectPayload (length : Nat) (parser : WsFrameParser) : WsFrameParser :=
  { parser with
    current.payloadLength := length
    current.payload := List.replicate length 0
    payloadReceived := 0
    state := afterLength parser.current.masked }

/-- What the two bytes of a header say of `current_`. -/
def headerFrame (b0 b1 : UInt8) : WsFrame :=
  { fin := b0 &&& 0x80 ≠ 0, opcode := ⟨b0 &&& 0x0F⟩, masked := b1 &&& 0x80 ≠ 0 }

/-- `case State::Header` with both bytes there. -/
def readHeader (b0 b1 : UInt8) (parser : WsFrameParser) : WsFrameParser :=
  let parser := { parser with current := headerFrame b0 b1 }
  let len7 := b1 &&& 0x7F
  if len7 < 126 then
    if len7 = 0 then
      if parser.current.masked then
        { parser with state := .maskKey }
      else
        { parser with payloadReceived := 0 }.processFrame.toHeader
    else
      parser.expectPayload len7.toNat
  else if len7 = 126 then
    { parser with state := .payloadLen16 }
  else
    { parser with state := .payloadLen64 }

/-- `case State::PayloadLen64` with all eight bytes there. -/
def readLength64 (length : Nat) (parser : WsFrameParser) : WsFrameParser :=
  if length > maxPayload then
    { parser with current.payloadLength := length }.setError "payload too large"
  else
    parser.expectPayload length

/-- `case State::MaskKey` with all four bytes there. -/
def readMaskKey (key : Fin 4 → UInt8) (parser : WsFrameParser) : WsFrameParser :=
  let parser := { parser with current.maskingKey := key }
  if parser.current.payloadLength = 0 then
    { parser with current.payload := [] }.finishFrame
  else
    { parser with state := .payload }

/-- The `memcpy` of `case State::Payload`. -/
def copyPayload (toCopy : Nat) (parser : WsFrameParser) : WsFrameParser :=
  { parser with
    current.payload := overwrite parser.current.payload parser.payloadReceived
      (parser.buffer.take toCopy)
    payloadReceived := parser.payloadReceived + toCopy
    buffer := parser.buffer.drop toCopy }

/-- `case State::Payload` after the `memcpy`. -/
def finishPayload (parser : WsFrameParser) : WsFrameParser :=
  if parser.payloadReceived = parser.current.payloadLength then parser.finishFrame else parser

/-- `case State::Payload`. -/
def readPayload (parser : WsFrameParser) : WsFrameParser :=
  let missing := parser.current.payloadLength - parser.payloadReceived
  let toCopy := min missing parser.buffer.length
  (parser.copyPayload toCopy).finishPayload

/-- One pass through the loop of `WsFrameParser::ParseBuffer`. -/
def parseStep (parser : WsFrameParser) : Option WsFrameParser :=
  if parser.buffer.isEmpty || parser.error then
    none
  else
    match parser.state, parser.buffer with
    | .header, b0 :: b1 :: rest => some ({ parser with buffer := rest }.readHeader b0 b1)
    | .payloadLen16, b0 :: b1 :: rest =>
      some ({ parser with buffer := rest }.expectPayload ((b0.toNat <<< 8) ||| b1.toNat))
    | .payloadLen64, b0 :: b1 :: b2 :: b3 :: b4 :: b5 :: b6 :: b7 :: rest =>
      some ({ parser with buffer := rest }.readLength64
        (readBigEndian [b0, b1, b2, b3, b4, b5, b6, b7]))
    | .maskKey, k0 :: k1 :: k2 :: k3 :: rest =>
      some ({ parser with buffer := rest }.readMaskKey ![k0, k1, k2, k3])
    | .payload, _ => some parser.readPayload
    | _, _ => none

end WsFrameParser

end UringServer.Web
