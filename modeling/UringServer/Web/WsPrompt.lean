import UringServer.Web.WsRoundTrip

/-!
# Frames are delivered with their last byte

The loop of `ParseBuffer` ends when the buffer is used up. A frame whose last byte
belongs to its extended length is not finished then: it has neither key nor payload,
and the pass that would process it needs another byte. Every other frame is.
-/

namespace UringServer.Web

namespace WsFrameParser

/-- A frame that is not prompt, at the end of the input, is left before its empty payload. -/
theorem Between.parse_waiting {parser : WsFrameParser} {assembly : Assembly} {frame : FormedFrame}
    (between : parser.Between assembly frame.encode) (waiting : ¬ frame.Prompt) :
    parser.parseBuffer.state = .payload := by
  simp only [FormedFrame.Prompt, not_or, not_not, Bool.not_eq_true, Option.isSome_eq_false_iff,
    Option.isNone_iff_eq_none] at waiting
  obtain ⟨long, unmasked, empty⟩ := waiting
  have bytes : parser.buffer = frame.encode ++ [] := by rw [between.buffer, List.append_nil]
  have parsed := (Ready.of_header between.atHeader).parse_announced between.running
    between.atHeader (.inl long) bytes
  have usedUp : (parser.announced frame []).buffer = [] := by
    simp [announced, unmasked, empty, keyBytes, maskedPayload]
  have stopped : (parser.announced frame []).parseBuffer = parser.announced frame [] :=
    Semantics.Loop.run_of_none (by simp [parseLoop, parseStep, usedUp])
  rw [parsed, stopped]
  simp [announced, expectPayload, unmasked, afterLength]

/-- After `Feed` of frames that make no protocol error, of any form, the parser has processed all of
them and is back in `State::Header` exactly if the last one is prompt. -/
theorem feed_processes_iff_prompt {frames : List FormedFrame} {assembly : Assembly}
    (received : (frames.map FormedFrame.toWireFrame).foldlM Assembly.receive {} = some assembly) :
    (feed {} (frames.flatMap FormedFrame.encode)).Decoded assembly.delivered ↔
      ∀ last ∈ frames.getLast?, last.Prompt := by
  have fresh := between_fresh (frames.flatMap FormedFrame.encode)
  constructor
  · intro decoded last member
    by_contra waiting
    obtain ⟨before, rfl⟩ := List.getLast?_eq_some_iff.mp member
    rw [List.flatMap_append, List.flatMap_singleton] at fresh decoded
    rw [List.map_append, List.foldlM_append] at received
    obtain ⟨middle, earlier, _⟩ := Option.bind_eq_some_iff.mp received
    obtain ⟨after, between, parsed⟩ := fresh.parse_frames before earlier
      (.inr (by simp [FormedFrame.encode]))
    have stuck := between.parse_waiting waiting
    rw [← parsed] at stuck
    have atHeader := decoded.state
    rw [feed, if_neg Bool.false_ne_true, stuck] at atHeader
    cases atHeader
  · intro prompt
    exact (fresh.parse_all received prompt).decoded

/-- A frame of parts that fit together. -/
def formedFrame (fin : Bool) (opcode : WsOpcode) (mask : Option (Fin 4 → UInt8))
    (payload : List UInt8) (form : LengthForm)
    (fits : opcode.value < 16 ∧ payload.length ≤ maxPayload ∧ form.Holds payload.length) :
    FormedFrame where
  fin := fin
  opcode := opcode
  mask := mask
  payload := payload
  form := form
  opcode_lt := fits.1
  payload_le := fits.2.1
  holds := fits.2.2

/-- The first fragment of a text in the longest form, an empty ping and an empty pong in longer
forms than they need, and the last fragment. -/
def longForms : List FormedFrame :=
  [formedFrame false .kText none [0x68] .sixtyFour (by decide),
    formedFrame true .kPing none [] .sixteen (by decide),
    formedFrame true .kPong (some ![1, 2, 3, 4]) [] .sixtyFour (by decide),
    formedFrame true .kContinuation (some ![1, 2, 3, 4]) [] .sixteen (by decide)]

theorem feed_processes_iff_prompt_longForms :
    (feed {} (longForms.flatMap FormedFrame.encode)).Decoded
      [(.kPing, []), (.kPong, []), (.kText, [0x68])] := by
  have received : (longForms.map FormedFrame.toWireFrame).foldlM Assembly.receive {} =
      some { delivered := [(.kPing, []), (.kPong, []), (.kText, [0x68])] } := rfl
  exact (feed_processes_iff_prompt received).mpr (by decide)

/-- An empty text in the 16-bit form. -/
def emptyText : FormedFrame := formedFrame true .kText none [] .sixteen (by decide)

/-- The empty text is not delivered when all of its bytes have been fed. -/
theorem emptyText_waits :
    emptyText.encode = [0x81, 0x7E, 0x00, 0x00] ∧
      Assembly.receive {} emptyText.toWireFrame = some { delivered := [(.kText, [])] } ∧
      (feed {} emptyText.encode).frames = [] ∧ (feed {} emptyText.encode).state = .payload :=
  ⟨by decide, rfl, by decide, by decide⟩

end WsFrameParser

end UringServer.Web
