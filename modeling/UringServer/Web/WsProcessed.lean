import UringServer.Web.WsFeed

/-!
# What a pass does to messages

`completed` is the frame that a pass hands to `ProcessFrame`. A pass either leaves
the unfinished message and the deliveries alone, or refuses a length, or processes
that frame: `Effect` says what each comes to. Its payload is within the limit that is
checked for one form of a length only.
-/

namespace UringServer.Web

open UringServer.Semantics

namespace WsFrameParser

/-- The frame that the next pass hands to `ProcessFrame`, with its payload unmasked. -/
def completed (parser : WsFrameParser) : Option WsFrame :=
  match parser.state, parser.buffer with
  | .header, b0 :: b1 :: _ =>
    if b1 &&& 0x7F = 0 ∧ (headerFrame b0 b1).masked = false then
      some (headerFrame b0 b1)
    else
      none
  | .maskKey, k0 :: k1 :: k2 :: k3 :: _ =>
    if parser.current.payloadLength = 0 then
      some { parser.current with maskingKey := ![k0, k1, k2, k3], payload := [] }
    else
      none
  | .payload, _ :: _ =>
    let missing := parser.current.payloadLength - parser.payloadReceived
    let copied := parser.copyPayload (min missing parser.buffer.length)
    if copied.payloadReceived = copied.current.payloadLength then
      some copied.unmask.current
    else
      none
  | _, _ => none

/-- Whether a frame is part of a message. -/
def IsData (frame : WsFrame) : Prop := frame.opcode.value < WsOpcode.kClose.value

/-- Whether a frame is the first of a message with several frames. -/
def Opens (frame : WsFrame) : Prop :=
  IsData frame ∧ frame.opcode ≠ .kContinuation ∧ frame.fin = false

instance (frame : WsFrame) : Decidable (IsData frame) := inferInstanceAs (Decidable (_ < _))

instance (frame : WsFrame) : Decidable (Opens frame) :=
  inferInstanceAs (Decidable (_ ∧ _ ∧ _))

/-- What a pass comes to. -/
inductive Effect (parser next : WsFrameParser) : Prop where
  /-- No frame is complete. -/
  | quiet (none_ : parser.completed = none) (frames : next.frames = parser.frames)
      (inFragment : next.inFragment = parser.inFragment)
      (fragmentBuffer : next.fragmentBuffer = parser.fragmentBuffer)
  /-- A length is refused. -/
  | tooLarge (none_ : parser.completed = none) (frames : next.frames = parser.frames)
      (fragmentBuffer : next.fragmentBuffer = parser.fragmentBuffer) (error : next.error = true)
  /-- A control frame or a message of one frame. -/
  | delivered {frame} (completed : parser.completed = some frame)
      (whole : frame.opcode ≠ .kContinuation) (kept : ¬ Opens frame)
      (frames : next.frames = parser.frames ++ [(frame.opcode, frame.payload)])
      (inFragment : next.inFragment = parser.inFragment)
      (fragmentBuffer : next.fragmentBuffer = parser.fragmentBuffer)
  /-- The first frame of a message. -/
  | opened {frame} (completed : parser.completed = some frame) (opens : Opens frame)
      (frames : next.frames = parser.frames) (inFragment : next.inFragment = true)
      (fragmentBuffer : next.fragmentBuffer = frame.payload)
  /-- A continuation of no message. -/
  | unexpected {frame} (completed : parser.completed = some frame)
      (continues : frame.opcode = .kContinuation) (none_ : parser.inFragment = false)
      (frames : next.frames = parser.frames)
      (fragmentBuffer : next.fragmentBuffer = parser.fragmentBuffer) (error : next.error = true)
  /-- A continuation that is not the last. -/
  | appended {frame} (completed : parser.completed = some frame)
      (continues : frame.opcode = .kContinuation) (unfinished : parser.inFragment = true)
      (frames : next.frames = parser.frames) (inFragment : next.inFragment = true)
      (fragmentBuffer : next.fragmentBuffer = parser.fragmentBuffer ++ frame.payload)
  /-- The last continuation. -/
  | finished {frame} (completed : parser.completed = some frame)
      (continues : frame.opcode = .kContinuation) (unfinished : parser.inFragment = true)
      (frames : next.frames = parser.frames ++
        [(parser.fragmentOpcode, parser.fragmentBuffer ++ frame.payload)])
      (fragmentBuffer : next.fragmentBuffer = [])

/-- Two parsers that have made the same callbacks and hold the same unfinished message. -/
structure SameMessages (parser held : WsFrameParser) : Prop where
  callbacks : held.callbacks = parser.callbacks
  inFragment : held.inFragment = parser.inFragment
  fragmentOpcode : held.fragmentOpcode = parser.fragmentOpcode
  fragmentBuffer : held.fragmentBuffer = parser.fragmentBuffer

variable {parser held : WsFrameParser}

theorem SameMessages.frames (same : SameMessages parser held) :
    held.frames = parser.frames := by
  unfold WsFrameParser.frames
  rw [same.callbacks]

theorem frames_callOnFrame (parser : WsFrameParser) (opcode : WsOpcode) (payload : List UInt8) :
    (parser.callOnFrame opcode payload).frames = parser.frames ++ [(opcode, payload)] := by
  simp [frames, callOnFrame]

theorem frames_setError (parser : WsFrameParser) (reason : String) :
    (parser.setError reason).frames = parser.frames := by
  simp [frames, setError]

/-- What `ProcessFrame` comes to. -/
theorem SameMessages.effect (same : SameMessages parser held)
    (completed : parser.completed = some held.current) :
    Effect parser held.processFrame.toHeader := by
  unfold processFrame
  dsimp only
  by_cases control : held.current.opcode.value ≥ WsOpcode.kClose.value
  · rw [if_pos control]
    refine .delivered completed ?_ ?_ ?_ same.inFragment same.fragmentBuffer
    · intro continues
      rw [continues] at control
      exact absurd control (by decide)
    · exact fun opens => absurd opens.1 (UInt8.not_lt.mpr control)
    · rw [← same.frames]
      exact frames_callOnFrame { held with current.payload := [] } _ _
  have data : IsData held.current := UInt8.not_le.mp control
  rw [if_neg control]
  by_cases start : held.current.opcode ≠ .kContinuation
  · rw [if_pos start]
    by_cases final : held.current.fin = true
    · rw [if_pos final]
      refine .delivered completed start ?_ ?_ same.inFragment same.fragmentBuffer
      · exact fun opens => absurd final (by simp [opens.2.2])
      · rw [← same.frames]
        exact frames_callOnFrame { held with current.payload := [] } _ _
    · rw [if_neg final]
      exact .opened completed ⟨data, start, Bool.not_eq_true _ ▸ final⟩ same.frames rfl rfl
  have continues : held.current.opcode = .kContinuation := not_not.mp start
  rw [if_neg start]
  cases unfinished : parser.inFragment with
  | false =>
    rw [if_pos (by simp [same.inFragment, unfinished])]
    refine .unexpected completed continues unfinished ?_ same.fragmentBuffer rfl
    rw [← same.frames]
    exact frames_setError held _
  | true =>
    rw [if_neg (by simp [same.inFragment, unfinished])]
    by_cases final : held.current.fin = true
    · rw [if_pos final]
      refine .finished completed continues unfinished ?_ rfl
      rw [← same.frames, ← same.fragmentOpcode, ← same.fragmentBuffer]
      exact frames_callOnFrame { held with inFragment := false, fragmentBuffer := [] } _ _
    · rw [if_neg final]
      exact .appended completed continues unfinished same.frames
        (same.inFragment.trans unfinished) (by rw [← same.fragmentBuffer]; rfl)

theorem sameMessages_unmask (parser : WsFrameParser) : SameMessages parser parser.unmask := by
  unfold unmask
  split <;> exact ⟨rfl, rfl, rfl, rfl⟩

theorem SameMessages.trans {parser held other : WsFrameParser} (first : SameMessages parser held)
    (second : SameMessages held other) : SameMessages parser other :=
  ⟨second.callbacks.trans first.callbacks, second.inFragment.trans first.inFragment,
    second.fragmentOpcode.trans first.fragmentOpcode,
    second.fragmentBuffer.trans first.fragmentBuffer⟩

/-- What `Unmask` and `ProcessFrame` come to. -/
theorem SameMessages.effect_finishFrame
    (same : SameMessages parser held) (completed : parser.completed = some held.unmask.current) :
    Effect parser held.finishFrame :=
  (same.trans (sameMessages_unmask held)).effect completed

theorem unmask_of_empty {parser : WsFrameParser} (empty : parser.current.payload = []) :
    parser.unmask = parser := by
  unfold unmask
  split
  · rfl
  · rw [empty]
    change { parser with current.payload := [] } = parser
    rw [← empty]

/-- What a pass comes to. -/
theorem Pass.effect {parser next : WsFrameParser} (pass : Pass parser next) :
    Effect parser next := by
  cases pass with
  | @header b0 b1 rest at_ bytes =>
    have other : ¬ (b1 &&& 0x7F = 0 ∧ (headerFrame b0 b1).masked = false) →
        parser.completed = none := by
      intro incomplete
      simp only [WsFrameParser.completed, at_, bytes]
      exact if_neg incomplete
    unfold readHeader
    dsimp only
    split_ifs with short zero masked medium
    · exact .quiet (other (by simp [masked])) rfl rfl rfl
    · refine SameMessages.effect ⟨rfl, rfl, rfl, rfl⟩ ?_
      simp [WsFrameParser.completed, at_, bytes, zero, Bool.not_eq_true _ ▸ masked]
    · exact .quiet (other fun whole => zero whole.1) rfl rfl rfl
    · exact .quiet (other fun whole => short (whole.1 ▸ by decide)) rfl rfl rfl
    · exact .quiet (other fun whole => short (whole.1 ▸ by decide)) rfl rfl rfl
  | @length16 b0 b1 rest at_ bytes =>
    exact .quiet (by simp [WsFrameParser.completed, at_]) rfl rfl rfl
  | @length64 b0 b1 b2 b3 b4 b5 b6 b7 rest at_ bytes =>
    have none_ : parser.completed = none := by simp [WsFrameParser.completed, at_]
    unfold readLength64
    split
    · exact .tooLarge none_ (frames_setError _ _) rfl rfl
    · exact .quiet none_ rfl rfl rfl
  | @maskKey k0 k1 k2 k3 rest at_ bytes =>
    unfold readMaskKey
    dsimp only
    split
    case isTrue empty =>
      refine SameMessages.effect_finishFrame ⟨rfl, rfl, rfl, rfl⟩ ?_
      rw [unmask_of_empty rfl]
      simp [WsFrameParser.completed, at_, bytes, empty]
    case isFalse some_ =>
      exact .quiet (by simp [WsFrameParser.completed, at_, bytes, some_]) rfl rfl rfl
  | @payload first rest at_ bytes =>
    unfold readPayload finishPayload
    dsimp only
    split
    case isTrue whole =>
      refine SameMessages.effect_finishFrame ⟨rfl, rfl, rfl, rfl⟩ ?_
      rw [bytes] at whole
      simp only [WsFrameParser.completed, at_, bytes, if_pos whole]
    case isFalse missing =>
      rw [bytes] at missing
      have unfinished : parser.completed = none := by
        simp only [WsFrameParser.completed, at_, bytes, if_neg missing]
      exact .quiet unfinished rfl rfl rfl

/-- `ProcessFrame` leaves the payload in `current_` or moves it away. -/
theorem processFrame_payload_le (parser : WsFrameParser) :
    parser.processFrame.current.payload.length ≤ parser.current.payload.length := by
  unfold processFrame callOnFrame setError
  dsimp only
  split_ifs <;> simp

@[simp] theorem length_unmask_payload (parser : WsFrameParser) :
    parser.unmask.current.payload.length = parser.current.payload.length := by
  unfold unmask
  split <;> simp [xorKey]

theorem finishFrame_payload_le (parser : WsFrameParser) :
    parser.finishFrame.current.payload.length ≤ parser.current.payload.length :=
  (processFrame_payload_le parser.unmask).trans_eq (length_unmask_payload parser)

/-- The `memcpy` of a pass does not change the size of the payload. -/
theorem Ready.length_copyPayload {parser : WsFrameParser} (ready : parser.Ready)
    (atPayload : parser.state = .payload) :
    (parser.copyPayload (min (parser.current.payloadLength - parser.payloadReceived)
      parser.buffer.length)).current.payload.length = parser.current.payload.length :=
  length_overwrite (ready.copy_fits atPayload)

/-- A pass keeps the payload within the limit that only one of the forms of a length is checked
against: the others cannot exceed it. -/
theorem Ready.pass_payload_le {parser next : WsFrameParser} (ready : parser.Ready)
    (pass : Pass parser next) (fits : parser.current.payload.length ≤ maxPayload) :
    next.current.payload.length ≤ maxPayload := by
  have expected : ∀ (parser : WsFrameParser) (length : Nat), length ≤ maxPayload →
      (parser.expectPayload length).current.payload.length ≤ maxPayload := by
    intro parser length within
    simpa [expectPayload] using within
  cases pass with
  | @header b0 b1 rest at_ bytes =>
    unfold readHeader
    dsimp only
    split_ifs with short zero masked medium
    · exact Nat.zero_le _
    · exact (processFrame_payload_le _).trans (Nat.zero_le _)
    · refine expected _ _ ?_
      have below : (b1 &&& 0x7F).toNat < 126 := UInt8.lt_iff_toNat_lt.mp short
      simp only [maxPayload]
      omega
    · exact Nat.zero_le _
    · exact Nat.zero_le _
  | @length16 b0 b1 rest at_ bytes =>
    refine expected _ _ ?_
    have below : b0.toNat <<< 8 ||| b1.toNat < 2 ^ 16 := by
      refine Nat.or_lt_two_pow ?_ (b1.toNat_lt.trans (by decide))
      rw [Nat.shiftLeft_eq]
      have high := b0.toNat_lt
      omega
    simp only [maxPayload]
    omega
  | length64 at_ bytes =>
    unfold readLength64
    split_ifs with large
    · exact fits
    · exact expected _ _ (Nat.le_of_not_lt large)
  | maskKey at_ bytes =>
    unfold WsFrameParser.readMaskKey
    dsimp only
    split_ifs
    · exact (finishFrame_payload_le _).trans (Nat.zero_le _)
    · exact fits
  | payload at_ bytes =>
    have size := ready.length_copyPayload at_
    unfold WsFrameParser.readPayload finishPayload
    dsimp only
    split_ifs
    · exact (finishFrame_payload_le _).trans (size.trans_le fits)
    · exact size.trans_le fits

/-- The payload of a frame that is processed is within the limit. -/
theorem Ready.completed_payload_le {parser : WsFrameParser} {frame : WsFrame}
    (ready : parser.Ready) (fits : parser.current.payload.length ≤ maxPayload)
    (completed : parser.completed = some frame) : frame.payload.length ≤ maxPayload := by
  unfold WsFrameParser.completed at completed
  split at completed
  case h_1 =>
    split at completed <;> cases completed
    exact Nat.zero_le _
  case h_2 =>
    split at completed <;> cases completed
    exact Nat.zero_le _
  case h_3 at_ bytes =>
    have size := ready.length_copyPayload at_
    dsimp only at completed
    split at completed <;> cases completed
    rw [length_unmask_payload]
    exact size.trans_le fits
  case h_4 => cases completed

end WsFrameParser

end UringServer.Web
