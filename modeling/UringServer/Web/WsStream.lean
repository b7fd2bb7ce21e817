import UringServer.Web.WsEncode

/-!
# Streams of messages and their reassembly

A stream of text and binary messages, each cut into fragments with control
frames between them, its bytes and what it is to be delivered as. `Assembly`
says what receiving a frame means, without bytes or parser states.
-/

namespace UringServer.Web

/-- What a frame carries: a mask or none, and a payload that the parser takes. -/
structure Part where
  mask : Option (Fin 4 → UInt8)
  payload : List UInt8
  payload_le : payload.length ≤ WsFrameParser.maxPayload

/-- The opcodes of control frames. -/
inductive ControlOpcode where
  | close
  | ping
  | pong
deriving DecidableEq

/-- The opcodes of messages. -/
inductive MessageOpcode where
  | text
  | binary

def ControlOpcode.opcode : ControlOpcode → WsOpcode
  | .close => .kClose
  | .ping => .kPing
  | .pong => .kPong

def MessageOpcode.opcode : MessageOpcode → WsOpcode
  | .text => .kText
  | .binary => .kBinary

/-- A control frame. -/
structure ControlFrame where
  fin : Bool
  opcode : ControlOpcode
  part : Part

/-- A message: its first fragment, then each later one with the control frames that
stand before it. -/
structure Message where
  opcode : MessageOpcode
  first : Part
  later : List (List ControlFrame × Part)

/-- What a stream consists of. -/
inductive StreamItem where
  | control (frame : ControlFrame)
  | message (message : Message)

/-- The frame of a control frame. -/
def ControlFrame.frame (control : ControlFrame) : WireFrame where
  fin := control.fin
  opcode := control.opcode.opcode
  mask := control.part.mask
  payload := control.part.payload
  opcode_lt := by cases control.opcode <;> decide
  payload_le := control.part.payload_le

/-- A continuation frame. -/
def continuationFrame (fin : Bool) (part : Part) : WireFrame where
  fin
  opcode := .kContinuation
  mask := part.mask
  payload := part.payload
  opcode_lt := by decide
  payload_le := part.payload_le

/-- The first frame of a message. -/
def Message.firstFrame (message : Message) : WireFrame where
  fin := message.later.isEmpty
  opcode := message.opcode.opcode
  mask := message.first.mask
  payload := message.first.payload
  opcode_lt := by cases message.opcode <;> decide
  payload_le := message.first.payload_le

/-- The frames of the fragments after the first and of the control frames among them. -/
def laterFrames : List (List ControlFrame × Part) → List WireFrame
  | [] => []
  | (controls, part) :: later =>
    controls.map ControlFrame.frame ++ continuationFrame later.isEmpty part :: laterFrames later

/-- The frames of an item, in the order they are sent. -/
def StreamItem.frames : StreamItem → List WireFrame
  | .control frame => [frame.frame]
  | .message whole => whole.firstFrame :: laterFrames whole.later

/-- The bytes of a stream. -/
def encodeStream (stream : List StreamItem) : List UInt8 :=
  (stream.flatMap StreamItem.frames).flatMap WireFrame.encode

/-- What a control frame is to be delivered as. -/
def ControlFrame.delivery (control : ControlFrame) : WsOpcode × List UInt8 :=
  (control.opcode.opcode, control.part.payload)

/-- The deliveries of the control frames within a message. -/
def laterDeliveries (later : List (List ControlFrame × Part)) : List (WsOpcode × List UInt8) :=
  later.flatMap fun fragment => fragment.1.map ControlFrame.delivery

/-- The payload of the fragments after the first. -/
def laterPayload (later : List (List ControlFrame × Part)) : List UInt8 :=
  later.flatMap fun fragment => fragment.2.payload

/-- What an item is to be delivered as: the control frames within a message before the
message, which is complete only with its last fragment. -/
def StreamItem.deliveries : StreamItem → List (WsOpcode × List UInt8)
  | .control frame => [frame.delivery]
  | .message whole =>
    laterDeliveries whole.later ++
      [(whole.opcode.opcode, whole.first.payload ++ laterPayload whole.later)]

/-- What a stream is to be delivered as. -/
def streamDeliveries (stream : List StreamItem) : List (WsOpcode × List UInt8) :=
  stream.flatMap StreamItem.deliveries

/-- The reassembly a parser is for: the unfinished message and what was delivered. -/
structure Assembly where
  fragment : Option (WsOpcode × List UInt8) := none
  delivered : List (WsOpcode × List UInt8) := []

namespace Assembly

def deliver (assembly : Assembly) (opcode : WsOpcode) (payload : List UInt8) : Assembly :=
  { assembly with delivered := assembly.delivered ++ [(opcode, payload)] }

/-- Receive a frame; a continuation frame needs an unfinished message. -/
def receive (assembly : Assembly) (frame : WireFrame) : Option Assembly :=
  if frame.opcode.value ≥ WsOpcode.kClose.value then
    some (assembly.deliver frame.opcode frame.payload)
  else if frame.opcode ≠ .kContinuation then
    if frame.fin then
      some (assembly.deliver frame.opcode frame.payload)
    else
      some { assembly with fragment := some (frame.opcode, frame.payload) }
  else
    match assembly.fragment with
    | none => none
    | some (opcode, bytes) =>
      if frame.fin then
        some ({ assembly with fragment := none }.deliver opcode (bytes ++ frame.payload))
      else
        some { assembly with fragment := some (opcode, bytes ++ frame.payload) }

/-- Deliver several frames at once. -/
def deliverAll (assembly : Assembly) (deliveries : List (WsOpcode × List UInt8)) : Assembly :=
  { assembly with delivered := assembly.delivered ++ deliveries }

@[simp] theorem receive_control (assembly : Assembly) (control : ControlFrame) :
    assembly.receive control.frame = some (assembly.deliverAll [control.delivery]) := by
  have isControl : control.frame.opcode.value ≥ WsOpcode.kClose.value := by
    change control.opcode.opcode.value ≥ _
    cases control.opcode <;> decide
  rw [receive, if_pos isControl]
  rfl

theorem receive_controls (assembly : Assembly) (controls : List ControlFrame) :
    (controls.map ControlFrame.frame).foldlM receive assembly =
      some (assembly.deliverAll (controls.map ControlFrame.delivery)) := by
  induction controls generalizing assembly with
  | nil => simp [deliverAll]
  | cons control rest ih =>
    simp [ih, deliverAll]

theorem receive_continuation (assembly : Assembly) (opcode : WsOpcode) (bytes : List UInt8)
    (fin : Bool) (part : Part) :
    { assembly with fragment := some (opcode, bytes) }.receive (continuationFrame fin part) =
      some (if fin then
        { assembly with fragment := none }.deliverAll [(opcode, bytes ++ part.payload)]
      else
        { assembly with fragment := some (opcode, bytes ++ part.payload) }) := by
  cases fin <;> rfl

/-- The fragments after the first complete the message. -/
theorem receive_later (assembly : Assembly) (opcode : WsOpcode) (bytes : List UInt8)
    {later : List (List ControlFrame × Part)} (more : later ≠ []) :
    (laterFrames later).foldlM receive { assembly with fragment := some (opcode, bytes) } =
      some ({ assembly with fragment := none }.deliverAll
        (laterDeliveries later ++ [(opcode, bytes ++ laterPayload later)])) := by
  induction later generalizing assembly bytes with
  | nil => exact absurd rfl more
  | cons fragment rest ih =>
    obtain ⟨controls, part⟩ := fragment
    have received := receive_continuation
      (assembly.deliverAll (controls.map ControlFrame.delivery)) opcode bytes rest.isEmpty part
    have first : (laterFrames ((controls, part) :: rest)).foldlM receive
        { assembly with fragment := some (opcode, bytes) } =
        ({ assembly.deliverAll (controls.map ControlFrame.delivery) with
            fragment := some (opcode, bytes) }.receive
          (continuationFrame rest.isEmpty part)).bind ((laterFrames rest).foldlM receive) := by
      rw [laterFrames, List.foldlM_append, receive_controls]
      rfl
    rw [first, received, Option.bind_some]
    cases rest with
    | nil => simp [laterFrames, laterDeliveries, laterPayload, deliverAll]
    | cons next others =>
      have later := ih
        (assembly.deliverAll (controls.map ControlFrame.delivery)) (bytes ++ part.payload)
        (List.cons_ne_nil next others)
      rw [List.isEmpty_cons, if_neg Bool.false_ne_true, later]
      simp [laterDeliveries, laterPayload, deliverAll]

/-- A message that nothing unfinished stands before. -/
theorem receive_message (assembly : Assembly) (whole : Message)
    (finished : assembly.fragment = none) :
    (StreamItem.message whole).frames.foldlM receive assembly =
      some (assembly.deliverAll (StreamItem.message whole).deliveries) := by
  have data : ¬ whole.firstFrame.opcode.value ≥ WsOpcode.kClose.value := by
    change ¬ whole.opcode.opcode.value ≥ _
    cases whole.opcode <;> decide
  have start : whole.firstFrame.opcode ≠ .kContinuation := by
    change whole.opcode.opcode ≠ _
    cases whole.opcode <;> decide
  rw [StreamItem.frames, List.foldlM_cons, receive, if_neg data, if_pos start]
  by_cases single : whole.later = []
  · have final : whole.firstFrame.fin = true := by simp [Message.firstFrame, single]
    rw [if_pos final, single]
    simp [laterFrames, StreamItem.deliveries, single, laterDeliveries, laterPayload]
    rfl
  · have open_ : ¬ whole.firstFrame.fin = true := by simp [Message.firstFrame, single]
    have later := receive_later assembly whole.opcode.opcode whole.first.payload single
    have same : { assembly with fragment := none } = assembly := by rw [← finished]
    rw [if_neg open_]
    rw [same] at later
    exact later

/-- A stream is received as it is to be delivered. -/
theorem receive_stream (assembly : Assembly) (stream : List StreamItem)
    (finished : assembly.fragment = none) :
    (stream.flatMap StreamItem.frames).foldlM receive assembly =
      some (assembly.deliverAll (streamDeliveries stream)) := by
  induction stream generalizing assembly with
  | nil => simp [streamDeliveries, deliverAll]
  | cons item rest ih =>
    have first : item.frames.foldlM receive assembly =
        some (assembly.deliverAll item.deliveries) := by
      cases item with
      | control control => simp [StreamItem.frames, StreamItem.deliveries]
      | message whole => exact receive_message assembly whole finished
    have later := ih (assembly.deliverAll item.deliveries) finished
    rw [List.flatMap_cons, List.foldlM_append, first, Option.bind_eq_bind, Option.bind_some,
      later]
    simp [streamDeliveries, deliverAll]

end Assembly

end UringServer.Web
