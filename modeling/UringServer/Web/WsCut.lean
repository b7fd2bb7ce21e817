import UringServer.Web.WsFeed

/-!
# How the stream is cut

Bytes that arrive later change nothing about a pass the loop could take before,
except that a payload is copied in more parts. So two `Feed` calls do what one
does, up to the bytes an erroneous parser keeps.
-/

namespace UringServer.Web

open UringServer.Semantics

namespace WsFrameParser

section Extend

variable (parser : WsFrameParser) (data : List UInt8)

@[simp] theorem extend_nil : parser.extend [] = parser := by simp [extend]

theorem extend_extend (more : List UInt8) :
    (parser.extend data).extend more = parser.extend (data ++ more) := by
  simp [extend, List.append_assoc]

theorem Ready.extend {parser : WsFrameParser} (ready : parser.Ready) (data : List UInt8) :
    (parser.extend data).Ready := ⟨ready.sized, ready.received⟩

theorem processFrame_extend :
    (parser.extend data).processFrame = parser.processFrame.extend data := by
  unfold processFrame callOnFrame setError WsFrameParser.extend
  dsimp only
  split_ifs <;> rfl

theorem finishFrame_extend :
    (parser.extend data).finishFrame = parser.finishFrame.extend data := by
  have unmasked : (parser.extend data).unmask = parser.unmask.extend data := by
    unfold unmask WsFrameParser.extend
    dsimp only
    split_ifs <;> rfl
  unfold finishFrame
  rw [unmasked, processFrame_extend]
  rfl

theorem readHeader_extend (b0 b1 : UInt8) :
    (parser.extend data).readHeader b0 b1 = (parser.readHeader b0 b1).extend data := by
  unfold readHeader
  dsimp only
  split_ifs
  · rfl
  · exact congrArg toHeader (processFrame_extend
      { parser with current := headerFrame b0 b1, payloadReceived := 0 } data)
  · rfl
  · rfl
  · rfl

theorem readLength64_extend (length : Nat) :
    (parser.extend data).readLength64 length = (parser.readLength64 length).extend data := by
  unfold readLength64
  split_ifs <;> rfl

theorem readMaskKey_extend (key : Fin 4 → UInt8) :
    (parser.extend data).readMaskKey key = (parser.readMaskKey key).extend data := by
  by_cases empty : parser.current.payloadLength = 0
  · rw [readMaskKey_of_empty empty, readMaskKey_of_empty (by exact empty)]
    exact finishFrame_extend
      { parser with current.maskingKey := key, current.payload := [] } data
  · rw [readMaskKey_of_ne empty, readMaskKey_of_ne (by exact empty)]
    rfl

theorem finishPayload_extend :
    (parser.extend data).finishPayload = parser.finishPayload.extend data := by
  by_cases full : parser.payloadReceived = parser.current.payloadLength
  · rw [finishPayload, finishPayload, if_pos full, if_pos (by exact full), finishFrame_extend]
  · rw [finishPayload, finishPayload, if_neg full, if_neg (by exact full)]

theorem copyPayload_extend {count : Nat} (there : count ≤ parser.buffer.length) :
    (parser.extend data).copyPayload count = (parser.copyPayload count).extend data := by
  simp only [copyPayload, WsFrameParser.extend, List.take_append_of_le_length there,
    List.drop_append_of_le_length there]

end Extend

variable {parser : WsFrameParser}

/-- Two copies, the second from where the first ended, are one. -/
theorem copyPayload_copyPayload {first : Nat} (second : Nat)
    (inside : parser.payloadReceived ≤ parser.current.payload.length)
    (there : first ≤ parser.buffer.length) :
    (parser.copyPayload first).copyPayload second = parser.copyPayload (first + second) := by
  have taken : (parser.buffer.take first).length = first := by
    rw [List.length_take, Nat.min_eq_left there]
  have copied : overwrite (overwrite parser.current.payload parser.payloadReceived
      (parser.buffer.take first)) (parser.payloadReceived + (parser.buffer.take first).length)
        ((parser.buffer.drop first).take second) = _ := overwrite_overwrite inside
  rw [taken, ← List.take_add] at copied
  simp only [copyPayload, copied, List.drop_drop, Nat.add_assoc]

section ReadPayload

variable {parser : WsFrameParser}

/-- The payload is in the buffer: what follows it is not touched. -/
theorem readPayload_extend_of_there
    (there : parser.current.payloadLength - parser.payloadReceived ≤ parser.buffer.length)
    (data : List UInt8) : (parser.extend data).readPayload = parser.readPayload.extend data := by
  have more : parser.current.payloadLength - parser.payloadReceived ≤
      (parser.extend data).buffer.length := by
    simp only [WsFrameParser.extend, List.length_append]
    omega
  rw [WsFrameParser.readPayload, WsFrameParser.readPayload, Nat.min_eq_left there,
    ← finishPayload_extend, ← copyPayload_extend parser data there]
  exact congrArg (fun count => ((parser.extend data).copyPayload count).finishPayload)
    (Nat.min_eq_left more)

/-- Part of the payload is in the buffer: all of it is copied. -/
theorem readPayload_of_short
    (short : parser.buffer.length < parser.current.payloadLength - parser.payloadReceived) :
    parser.readPayload = parser.copyPayload parser.buffer.length := by
  rw [WsFrameParser.readPayload, Nat.min_eq_right short.le, finishPayload, if_neg]
  simp only [copyPayload]
  omega

/-- A payload that is read in two parts ends up as if it was read in one. -/
theorem Ready.readPayload_twice (ready : parser.Ready) (atPayload : parser.state = .payload)
    (short : parser.buffer.length < parser.current.payloadLength - parser.payloadReceived)
    (data : List UInt8) :
    (parser.readPayload.extend data).readPayload = (parser.extend data).readPayload := by
  have inside :
      (parser.extend data).payloadReceived ≤ (parser.extend data).current.payload.length :=
    (ready.received (.inr atPayload)).trans (ready.sized (.inr atPayload)).ge
  have there : parser.buffer.length ≤ (parser.extend data).buffer.length := by
    simp [WsFrameParser.extend]
  rw [readPayload_of_short short, ← copyPayload_extend parser data le_rfl,
    WsFrameParser.readPayload, copyPayload_copyPayload _ inside there, WsFrameParser.readPayload]
  refine congrArg (fun count => ((parser.extend data).copyPayload count).finishPayload) ?_
  simp only [copyPayload, WsFrameParser.extend, List.drop_left, List.length_append]
  omega

end ReadPayload

/-- A pass may be taken before or after more bytes arrive. -/
theorem Ready.parseBuffer_extend_pass {parser next : WsFrameParser} (ready : parser.Ready)
    (running : parser.error = false) (pass : Pass parser next) (data : List UInt8) :
    (next.extend data).parseBuffer = (parser.extend data).parseBuffer := by
  have first : ∀ {after : WsFrameParser}, Pass (parser.extend data) after →
      (parser.extend data).parseBuffer = after.parseBuffer := fun pass =>
    Loop.run_of_some (ready.extend data) (pass.parseStep running)
  have buffer : ∀ {bytes}, parser.buffer = bytes → (parser.extend data).buffer = bytes ++ data :=
    fun bytes => congrArg (· ++ data) bytes
  cases pass with
  | header at_ bytes => rw [first (.header at_ (buffer bytes)), ← readHeader_extend]; rfl
  | length16 at_ bytes => rw [first (.length16 at_ (buffer bytes))]; rfl
  | length64 at_ bytes => rw [first (.length64 at_ (buffer bytes)), ← readLength64_extend]; rfl
  | maskKey at_ bytes => rw [first (.maskKey at_ (buffer bytes)), ← readMaskKey_extend]; rfl
  | payload at_ bytes =>
    rw [first (.payload at_ (buffer bytes))]
    rcases Nat.lt_or_ge parser.buffer.length
      (parser.current.payloadLength - parser.payloadReceived) with short | there
    · have part := readPayload_of_short short
      cases data with
      | nil => simp
      | cons byte more =>
        have again : Pass (parser.readPayload.extend (byte :: more))
            (parser.readPayload.extend (byte :: more)).readPayload := by
          have bytes : ((parser.copyPayload parser.buffer.length).extend
              (byte :: more)).buffer = byte :: more := by
            simp [copyPayload, WsFrameParser.extend]
          rw [part]
          exact .payload at_ bytes
        rw [← ready.readPayload_twice at_ short]
        refine Loop.run_of_some ((ready.readPayload at_).extend _) (again.parseStep ?_)
        rw [part]
        exact running
    · rw [readPayload_extend_of_there there]

/-- Parsing what is there and then the rest is parsing all of it. -/
theorem Ready.parseBuffer_extend (ready : parser.Ready) (data : List UInt8) :
    (parser.parseBuffer.extend data).parseBuffer = (parser.extend data).parseBuffer := by
  have unchanged : ∀ state next, parseLoop.Inv state → parseLoop.body state = some next →
      (next.extend data).parseBuffer = (state.extend data).parseBuffer := by
    intro state next ready taken
    obtain ⟨running, pass⟩ := parseStep_cases taken
    exact Ready.parseBuffer_extend_pass ready running pass data
  exact parseLoop.apply_run (fun parser => (parser.extend data).parseBuffer) unchanged ready

/-- Two parsers that no later `Feed` tells apart: an error ends the parsing, and what
the buffer then holds is never read. -/
def Agree (parser other : WsFrameParser) : Prop :=
  parser = other ∨
    parser.error = true ∧ other.error = true ∧ parser.callbacks = other.callbacks

theorem Agree.trans {first second third : WsFrameParser} (agree : Agree first second)
    (more : Agree second third) : Agree first third := by
  rcases agree with rfl | ⟨error, _, callbacks⟩
  · exact more
  · rcases more with rfl | ⟨_, thirdError, moreCallbacks⟩
    · exact .inr ⟨error, ‹_›, callbacks⟩
    · exact .inr ⟨error, thirdError, callbacks.trans moreCallbacks⟩

theorem parseBuffer_of_error (error : parser.error = true) :
    parser.parseBuffer = parser :=
  Loop.run_of_none (by simp [parseLoop, parseStep, error])

theorem Ready.feed (ready : parser.Ready) (data : List UInt8) : (parser.feed data).Ready := by
  unfold WsFrameParser.feed
  split_ifs
  · exact ready
  · exact parseLoop.run_inv (ready.extend data)

/-- Two `Feed` calls do what one does. -/
theorem Ready.feed_feed (ready : parser.Ready) (first second : List UInt8) :
    Agree ((parser.feed first).feed second) (parser.feed (first ++ second)) := by
  by_cases error : parser.error
  · simp only [WsFrameParser.feed, error, if_true]
    exact .inl rfl
  · have once : parser.feed first = (parser.extend first).parseBuffer := if_neg error
    have whole : parser.feed (first ++ second) =
        ((parser.feed first).extend second).parseBuffer := by
      rw [once, (ready.extend first).parseBuffer_extend, extend_extend]
      exact if_neg error
    rw [whole]
    by_cases stopped : (parser.feed first).error
    · rw [WsFrameParser.feed, if_pos stopped, parseBuffer_of_error (by exact stopped)]
      exact .inr ⟨stopped, stopped, rfl⟩
    · rw [WsFrameParser.feed, if_neg stopped]
      exact .inl rfl

/-- After a `Feed` the loop has nothing to do. -/
theorem Ready.parseStep_feed (ready : parser.Ready)
    (stopped : parser.parseStep = none) (data : List UInt8) :
    (parser.feed data).parseStep = none := by
  unfold WsFrameParser.feed
  split_ifs
  · exact stopped
  · exact parseLoop.body_run (ready.extend data)

/-- Any cut of a stream does what one `Feed` of all of it does. -/
theorem Ready.feedAll (ready : parser.Ready)
    (stopped : parser.parseStep = none) (pieces : List (List UInt8)) :
    Agree (parser.feedAll pieces) (parser.feed pieces.flatten) := by
  induction pieces generalizing parser with
  | nil =>
    have same : (parser.extend []).parseBuffer = parser := by
      rw [extend_nil]
      exact Loop.run_of_none stopped
    rw [List.flatten_nil, WsFrameParser.feed, same, ite_self]
    exact .inl rfl
  | cons piece rest ih =>
    have later := ih (ready.feed piece) (ready.parseStep_feed stopped piece)
    exact later.trans (ready.feed_feed piece rest.flatten)

theorem fresh_ready : Ready {} := .of_header rfl

/-- The callbacks and the error flag do not depend on how the stream is cut. -/
theorem feedAll_callbacks (pieces : List (List UInt8)) :
    (feedAll {} pieces).callbacks = (feed {} pieces.flatten).callbacks ∧
      (feedAll {} pieces).error = (feed {} pieces.flatten).error := by
  rcases fresh_ready.feedAll rfl pieces with same | ⟨error, otherError, callbacks⟩
  · rw [same]
    exact ⟨rfl, rfl⟩
  · exact ⟨callbacks, error.trans otherError.symm⟩

/-- Two cuts of one stream give the same calls of `on_frame_` and of `on_error_`, and
the same `HasError` at the end. -/
theorem feed_cut_irrelevant (cut other : List (List UInt8)) (same : cut.flatten = other.flatten) :
    (feedAll {} cut).frames = (feedAll {} other).frames ∧
      (feedAll {} cut).errors = (feedAll {} other).errors ∧
      (feedAll {} cut).hasError = (feedAll {} other).hasError := by
  obtain ⟨callbacks, error⟩ := feedAll_callbacks cut
  obtain ⟨otherCallbacks, otherError⟩ := feedAll_callbacks other
  rw [← same] at otherCallbacks otherError
  have sameCallbacks := callbacks.trans otherCallbacks.symm
  unfold frames errors hasError
  rw [sameCallbacks]
  exact ⟨rfl, rfl, error.trans otherError.symm⟩

/-- A text frame followed by a stray continuation frame, byte by byte and at once. -/
theorem feed_cut_irrelevant_text :
    (feedAll {} [[0x81], [0x02], [0x68], [0x69], [0x80], [0x00]]).frames =
        [(.kText, [0x68, 0x69])] ∧
      (feedAll {} [[0x81], [0x02], [0x68], [0x69], [0x80], [0x00]]).errors =
        ["unexpected continuation frame"] ∧
      (feedAll {} [[0x81], [0x02], [0x68], [0x69], [0x80], [0x00]]).hasError = true := by
  obtain ⟨frames, errors, hasError⟩ := feed_cut_irrelevant
    [[0x81], [0x02], [0x68], [0x69], [0x80], [0x00]] [[0x81, 0x02, 0x68, 0x69, 0x80, 0x00]] rfl
  rw [frames, errors, hasError]
  decide

end WsFrameParser

end UringServer.Web
