import UringServer.Web.WsDecode
import UringServer.Web.WsStream

/-!
# Decoding undoes encoding

Between two frames a parser is an `Assembly`: `ProcessFrame` receives the frame
that the passes over its bytes put together. So the bytes of a stream are
delivered as the stream is.
-/

namespace UringServer.Web

namespace WsFrameParser

/-- A parser between two frames, with what is left in its buffer. -/
structure Between (parser : WsFrameParser) (assembly : Assembly) (rest : List UInt8) : Prop where
  atHeader : parser.state = .header
  running : parser.error = false
  buffer : parser.buffer = rest
  callbacks : parser.callbacks =
    assembly.delivered.map fun delivery => .onFrame delivery.1 delivery.2
  inFragment : parser.inFragment = assembly.fragment.isSome
  fragment : ∀ opcode bytes, assembly.fragment = some (opcode, bytes) →
    parser.fragmentOpcode = opcode ∧ parser.fragmentBuffer = bytes

variable {parser : WsFrameParser} {assembly : Assembly}

/-- A call of `on_frame_` delivers. -/
theorem Between.callOnFrame {rest : List UInt8}
    (between : parser.Between assembly rest) (opcode : WsOpcode) (payload : List UInt8) :
    (parser.callOnFrame opcode payload).Between (assembly.deliver opcode payload) rest :=
  { between with
    callbacks := by simp [WsFrameParser.callOnFrame, Assembly.deliver, between.callbacks] }

/-- `ProcessFrame` receives the frame. -/
theorem Between.processFrame {frame : WireFrame} {rest : List UInt8}
    {assembly next : Assembly} {bytes : List UInt8} (between : parser.Between assembly bytes)
    (received : assembly.receive frame = some next) (count : Nat) :
    (parser.hold frame rest count).processFrame.toHeader.Between next rest := by
  have held : ∀ count payload, Between { parser.hold frame rest count with
      current.payload := payload, state := .header } assembly rest := fun count payload =>
    { between with atHeader := rfl, buffer := rfl }
  unfold Assembly.receive at received
  unfold WsFrameParser.processFrame
  by_cases control : frame.opcode.value ≥ WsOpcode.kClose.value
  · rw [if_pos control] at received
    cases received
    rw [if_pos (by exact control)]
    exact (held count []).callOnFrame frame.opcode frame.payload
  rw [if_neg control] at received
  rw [if_neg (by exact control)]
  by_cases data : frame.opcode ≠ .kContinuation
  · rw [if_pos data] at received
    rw [if_pos (by exact data)]
    by_cases final : frame.fin
    · rw [if_pos final] at received
      cases received
      rw [if_pos (by exact final)]
      exact (held count []).callOnFrame frame.opcode frame.payload
    · rw [if_neg final] at received
      cases received
      rw [if_neg (by exact final)]
      exact { held count [] with
        inFragment := rfl
        fragment := by rintro opcode bytes ⟨⟩; exact ⟨rfl, rfl⟩ }
  · rw [if_neg data] at received
    rw [if_neg (by exact data)]
    cases unfinished : assembly.fragment with
    | none =>
      rw [unfinished] at received
      cases received
    | some unfinishedIs =>
      obtain ⟨opcode, bytes⟩ := unfinishedIs
      obtain ⟨opcodeIs, bytesIs⟩ := between.fragment opcode bytes unfinished
      have inFragment : parser.inFragment = true := by
        rw [between.inFragment, unfinished]
        rfl
      rw [unfinished] at received
      rw [if_neg (by simp [hold, inFragment])]
      dsimp only at received ⊢
      by_cases final : frame.fin
      · rw [if_pos final] at received
        cases received
        rw [if_pos (by exact final)]
        have whole : { parser.hold frame rest count with
            state := .header, inFragment := false, fragmentBuffer := [] }.Between
            { assembly with fragment := none } rest :=
          { held count frame.payload with inFragment := rfl, fragment := by rintro _ _ ⟨⟩ }
        have delivered := whole.callOnFrame opcode (bytes ++ frame.payload)
        rw [← opcodeIs, ← bytesIs] at delivered ⊢
        exact delivered
      · rw [if_neg final] at received
        cases received
        rw [if_neg (by exact final)]
        exact { held count frame.payload with
          inFragment := inFragment
          fragment := by
            rintro _ _ ⟨⟩
            exact ⟨opcodeIs, congrArg (· ++ frame.payload) bytesIs⟩ }

theorem Between.parseBuffer_eq
    (between : parser.Between assembly []) : parser.parseBuffer = parser :=
  Semantics.Loop.run_of_none (by simp [parseLoop, parseStep, between.buffer])

/-- Parsing the bytes of frames is receiving them one after the other, if each is processed with
its last byte or has bytes behind it. -/
theorem Between.parse_frames {assembly next : Assembly}
    (frames : List FormedFrame) {rest : List UInt8}
    (between : parser.Between assembly (frames.flatMap FormedFrame.encode ++ rest))
    (received : (frames.map FormedFrame.toWireFrame).foldlM Assembly.receive assembly = some next)
    (there : (∀ last ∈ frames.getLast?, last.Prompt) ∨ rest ≠ []) :
    ∃ after : WsFrameParser, after.Between next rest ∧
      parser.parseBuffer = after.parseBuffer := by
  induction frames generalizing parser assembly with
  | nil =>
    cases received
    exact ⟨parser, between, rfl⟩
  | cons frame others ih =>
    rw [List.map_cons, List.foldlM_cons] at received
    obtain ⟨middle, first, later⟩ := Option.bind_eq_some_iff.mp received
    have bytes := between.buffer
    rw [List.flatMap_cons, List.append_assoc] at bytes
    have thereFirst : frame.Prompt ∨ others.flatMap FormedFrame.encode ++ rest ≠ [] := by
      cases others with
      | nil => exact there.imp_left fun prompt => prompt frame rfl
      | cons second others => exact .inr (by simp [FormedFrame.encode])
    have thereLater : (∀ last ∈ others.getLast?, last.Prompt) ∨ rest ≠ [] := by
      cases others with
      | nil => exact .inl (by simp)
      | cons second others => rwa [List.getLast?_cons_cons] at there
    obtain ⟨count, parsed⟩ := (Ready.of_header between.atHeader).parse_frame between.running
      between.atHeader thereFirst bytes
    rw [parsed]
    exact ih (between.processFrame first count) later thereLater

/-- The frames are parsed to the end. -/
theorem Between.parse_all {assembly next : Assembly} {frames : List FormedFrame}
    (between : parser.Between assembly (frames.flatMap FormedFrame.encode))
    (received : (frames.map FormedFrame.toWireFrame).foldlM Assembly.receive assembly = some next)
    (prompt : ∀ last ∈ frames.getLast?, last.Prompt) : parser.parseBuffer.Between next [] := by
  rw [← List.append_nil (frames.flatMap _)] at between
  obtain ⟨after, done, parsed⟩ := between.parse_frames frames received (.inl prompt)
  rw [parsed, done.parseBuffer_eq]
  exact done

/-- A parser that has decoded a whole stream: what it delivered, no error, nothing left. -/
structure Decoded (parser : WsFrameParser) (deliveries : List (WsOpcode × List UInt8)) : Prop where
  frames : parser.frames = deliveries
  errors : parser.errors = []
  hasError : parser.hasError = false
  state : parser.state = .header
  buffer : parser.buffer = []

theorem Between.decoded
    (between : parser.Between assembly []) : parser.Decoded assembly.delivered where
  frames := by
    simp [WsFrameParser.frames, between.callbacks, List.filterMap_map]
  errors := by
    simp [WsFrameParser.errors, between.callbacks, List.filterMap_map]
  hasError := between.running
  state := between.atHeader
  buffer := between.buffer

theorem between_fresh (bytes : List UInt8) : Between (extend {} bytes) {} bytes :=
  ⟨rfl, rfl, rfl, rfl, rfl, by rintro _ _ ⟨⟩⟩

/-- Feeding the bytes of frames to a fresh parser. -/
theorem feed_frames {frames : List WireFrame}
    (received : frames.foldlM Assembly.receive {} = some assembly) :
    (feed {} (frames.flatMap WireFrame.encode)).Decoded assembly.delivered := by
  have encoded : frames.flatMap WireFrame.encode =
      (frames.map WireFrame.minimal).flatMap FormedFrame.encode := by
    simp [List.flatMap_map]
  have sameFrames : (frames.map WireFrame.minimal).map FormedFrame.toWireFrame = frames := by
    simp [Function.comp_def, WireFrame.minimal]
  have fresh := between_fresh (frames.flatMap WireFrame.encode)
  rw [encoded] at fresh ⊢
  refine (fresh.parse_all (by rwa [sameFrames]) ?_).decoded
  intro last member
  obtain ⟨frame, _, rfl⟩ := List.mem_map.mp (List.mem_of_getLast? member)
  exact frame.minimal_prompt

end WsFrameParser

/-- `bytes` are what one of the frame builders made of the payload. -/
def Built (opcode : WsOpcode) (payload bytes : List UInt8) : Prop :=
  ∃ allocate : Allocate, buildWsFrame allocate opcode payload = some bytes ∨
    opcode = .kText ∧ buildWsTextFrame allocate payload = some bytes

theorem Built.eq_encode {frame : WireFrame} {bytes : List UInt8} (final : frame.fin = true)
    (unmasked : frame.mask = none) (built : Built frame.opcode frame.payload bytes) :
    bytes = frame.encode := by
  obtain ⟨allocate, built | ⟨text, built⟩⟩ := built
  · exact buildWsFrame_eq_encode final unmasked built
  · rw [buildWsTextFrame_eq, ← text] at built
    exact buildWsFrame_eq_encode final unmasked built

/-- A frame that is a whole message or a control frame is delivered as it is. -/
theorem Assembly.receive_whole (assembly : Assembly) {frame : WireFrame} (final : frame.fin = true)
    (start : frame.opcode ≠ .kContinuation) :
    assembly.receive frame = some (assembly.deliverAll [(frame.opcode, frame.payload)]) := by
  rw [receive, if_pos start, if_pos final, ite_self]
  rfl

/-- Frames that were built one by one are decoded as what they were built of. -/
theorem feed_built {sent : List (WsOpcode × List UInt8)} {pieces : List (List UInt8)}
    (built : List.Forall₂ (fun frame bytes => frame.1.value < 16 ∧ frame.1 ≠ .kContinuation ∧
      frame.2.length ≤ WsFrameParser.maxPayload ∧ Built frame.1 frame.2 bytes) sent pieces) :
    (WsFrameParser.feed {} pieces.flatten).Decoded sent := by
  have frames : ∀ assembly : Assembly, ∃ frames : List WireFrame,
      pieces.flatten = frames.flatMap WireFrame.encode ∧
        frames.foldlM Assembly.receive assembly = some (assembly.deliverAll sent) := by
    induction built with
    | nil => exact fun assembly => ⟨[], rfl, by simp [Assembly.deliverAll]⟩
    | @cons frame bytes sent pieces head tail ih =>
      intro assembly
      obtain ⟨opcodeFits, start, payloadFits, made⟩ := head
      let whole : WireFrame := ⟨true, frame.1, none, frame.2, opcodeFits, payloadFits⟩
      obtain ⟨frames, encoded, received⟩ := ih (assembly.deliverAll [frame])
      refine ⟨whole :: frames, ?_, ?_⟩
      · have first : bytes = whole.encode := Built.eq_encode rfl rfl made
        rw [List.flatten_cons, List.flatMap_cons, encoded, first]
      · have first : assembly.receive whole = some (assembly.deliverAll [frame]) :=
          assembly.receive_whole rfl start
        rw [List.foldlM_cons, first, Option.bind_eq_bind, Option.bind_some, received]
        simp [Assembly.deliverAll]
  obtain ⟨frames, encoded, received⟩ := frames {}
  rw [encoded]
  have decoded := WsFrameParser.feed_frames received
  rwa [Assembly.deliverAll, List.nil_append] at decoded

/-- Feeding the encoding of a stream to a fresh parser delivers the stream; so does
feeding what the frame builders wrote, which is the same for text. -/
theorem wsFrameParser_decodes_encoding :
    (∀ stream : List StreamItem,
      (WsFrameParser.feed {} (encodeStream stream)).Decoded (streamDeliveries stream)) ∧
    (∀ (sent : List (WsOpcode × List UInt8)) (pieces : List (List UInt8)),
      List.Forall₂ (fun frame bytes => frame.1.value < 16 ∧ frame.1 ≠ .kContinuation ∧
        frame.2.length ≤ WsFrameParser.maxPayload ∧ Built frame.1 frame.2 bytes) sent pieces →
      (WsFrameParser.feed {} pieces.flatten).Decoded sent) ∧
    (∀ (allocate : Allocate) (text : List UInt8),
      buildWsTextFrame allocate text = buildWsFrame allocate .kText text) := by
  refine ⟨fun stream => ?_, fun _ _ => feed_built, buildWsTextFrame_eq⟩
  have received := Assembly.receive_stream {} stream rfl
  have decoded := WsFrameParser.feed_frames received
  rwa [Assembly.deliverAll, List.nil_append] at decoded

/-- A masked ping between the two fragments of a text message. -/
def pingedText : List StreamItem :=
  [.message {
    opcode := .text
    first := ⟨none, [0x68], by decide⟩
    later := [([⟨true, .ping, ⟨some ![1, 2, 3, 4], [0x78], by decide⟩⟩],
      ⟨none, [0x69], by decide⟩)] }]

theorem wsFrameParser_decodes_encoding_pinged :
    (WsFrameParser.feed {} [0x01, 0x01, 0x68, 0x89, 0x81, 1, 2, 3, 4, 0x79,
        0x80, 0x01, 0x69]).Decoded [(.kPing, [0x78]), (.kText, [0x68, 0x69])] ∧
      (WsFrameParser.feed {} [0x82, 0x01, 0x07]).Decoded [(.kBinary, [0x07])] := by
  have encoded : encodeStream pingedText =
      [0x01, 0x01, 0x68, 0x89, 0x81, 1, 2, 3, 4, 0x79, 0x80, 0x01, 0x69] := by decide
  have deliveries : streamDeliveries pingedText = [(.kPing, [0x78]), (.kText, [0x68, 0x69])] := by
    decide
  have decoded := wsFrameParser_decodes_encoding.1 pingedText
  rw [encoded, deliveries] at decoded
  exact ⟨decoded, wsFrameParser_decodes_encoding.2.1 [(.kBinary, [0x07])] [[0x82, 0x01, 0x07]]
    (.cons ⟨by decide, by decide, by decide, allocateZeros, .inl (by decide)⟩ .nil)⟩

end UringServer.Web
