import UringServer.Semantics.TransitionSystem
import UringServer.Web.WsProcessed
import UringServer.Web.WsRoundTrip

/-!
# Unfinished and delivered messages

`Watched` is a parser that bytes arrive at and that makes its passes, with a record
of the frames it has processed. A `Feed` is some of its steps.

A frame that opens a message of several frames replaces the message that is
unfinished, if there is one: `unfinished_text_is_dropped`. And the frames of a message
are bounded one by one only: `long_message_is_delivered`. Apart from that no data is
lost and no message exceeds the limit.
-/

namespace UringServer.Web

open UringServer.Semantics

namespace WsFrameParser

/-- A parser and the frames it has processed. -/
structure Watched where
  parser : WsFrameParser := {}
  processed : List WsFrame := []

/-- What can happen to a parser. -/
inductive Event where
  /-- `Feed` is called and appends to `buffer_`. -/
  | receive (data : List UInt8)
  /-- A pass through the loop of `ParseBuffer`. -/
  | pass

namespace Watched

/-- One step. A parser with an error takes no bytes. -/
def step (state : Watched) : Event → Option Watched
  | .receive data =>
    if state.parser.error then some state
    else some { state with parser := state.parser.extend data }
  | .pass =>
    state.parser.parseStep.map fun next =>
      { parser := next, processed := state.processed ++ state.parser.completed.toList }

/-- A parser that is fed any bytes in any pieces. -/
def system : TransitionSystem Watched Event where
  Initial state := state = {}
  step := step

/-- What holds of `current_` in every state. -/
structure Sized (state : Watched) : Prop where
  ready : state.parser.Ready
  fits : state.parser.current.payload.length ≤ maxPayload

variable {state : Watched}

/-- The sizes hold along every run. -/
theorem reachable_sized {Admits : Watched → Event → Prop}
    (reachable : system.Reachable Admits state) : Sized state := by
  apply reachable.invariant Sized
  · rintro _ rfl
    exact ⟨.of_header rfl, Nat.zero_le _⟩
  · intro state event next sized _ transition
    cases event with
    | receive data =>
      simp only [system, step] at transition
      split at transition <;> cases transition
      · exact sized
      · exact ⟨⟨sized.ready.sized, sized.ready.received⟩, sized.fits⟩
    | pass =>
      obtain ⟨after, taken, rfl⟩ := Option.map_eq_some_iff.mp transition
      have pass := (parseStep_cases taken).2
      exact ⟨sized.ready.pass pass, sized.ready.pass_payload_le pass sized.fits⟩

/-- A run of the loop is a run of passes. -/
theorem reachable_parseBuffer (reachable : system.Reachable everyStep state) :
    ∃ processed, system.Reachable everyStep { parser := state.parser.parseBuffer, processed } := by
  let Continues (parser final : WsFrameParser) : Prop :=
    ∀ processed, system.Reachable everyStep { parser, processed } →
      ∃ later, system.Reachable everyStep { parser := final, processed := later }
  have run : Continues state.parser state.parser.parseBuffer := by
    refine parseLoop.run_rule ?_ ?_ state.parser (reachable_sized reachable).ready
    · intro parser _ _ processed here
      exact ⟨processed, here⟩
    · intro parser next final _ taken rest processed here
      have moved : system.step { parser, processed } .pass =
          some { parser := next, processed := processed ++ parser.completed.toList } := by
        simp only [system, step]
        rw [show parser.parseStep = some next from taken]
        rfl
      exact rest _ (.step here trivial moved)
  exact run state.processed reachable

/-- A `Feed` is some steps. -/
theorem reachable_feed (reachable : system.Reachable everyStep state) (data : List UInt8) :
    ∃ processed, system.Reachable everyStep { parser := state.parser.feed data, processed } := by
  unfold feed
  split
  case isTrue => exact ⟨state.processed, reachable⟩
  case isFalse running =>
    have moved : system.step state (.receive data) =
        some { state with parser := state.parser.extend data } := if_neg running
    exact reachable_parseBuffer (.step reachable trivial moved)

/-- The states between the calls of `Feed` are states of the system. -/
theorem reachable_feedAll (pieces : List (List UInt8)) :
    ∃ processed, system.Reachable everyStep { parser := feedAll {} pieces, processed } := by
  have from_ : ∀ state : Watched, system.Reachable everyStep state →
      ∃ processed, system.Reachable everyStep
        { parser := state.parser.feedAll pieces, processed } := by
    induction pieces with
    | nil => exact fun state reachable => ⟨state.processed, reachable⟩
    | cons piece rest ih =>
      intro state reachable
      obtain ⟨processed, fed⟩ := reachable_feed reachable piece
      exact ih _ fed
  exact from_ {} (.initial rfl)

/-- No frame opens a message while another one is unfinished. -/
def OneMessage (state : Watched) : Event → Prop
  | .receive _ => True
  | .pass => ∀ frame ∈ state.parser.completed, Opens frame → state.parser.inFragment = false

instance (state : Watched) (event : Event) : Decidable (OneMessage state event) :=
  match event with
  | .receive _ => .isTrue trivial
  | .pass => Option.decidableForallMem _

/-- A payload has been delivered, or is part of the unfinished message, or there is an error. -/
def Kept (parser : WsFrameParser) (payload : List UInt8) : Prop :=
  (∃ delivery ∈ parser.frames, payload <:+: delivery.2) ∨
    (parser.inFragment = true ∧ payload <:+: parser.fragmentBuffer) ∨ parser.error = true

theorem Kept.of_delivered {parser : WsFrameParser} {payload : List UInt8}
    {delivery : WsOpcode × List UInt8} (delivered : delivery ∈ parser.frames)
    (part : payload <:+: delivery.2) : Kept parser payload := .inl ⟨delivery, delivered, part⟩

theorem Kept.of_unfinished {parser : WsFrameParser} {payload : List UInt8}
    (unfinished : parser.inFragment = true) (part : payload <:+: parser.fragmentBuffer) :
    Kept parser payload := .inr (.inl ⟨unfinished, part⟩)

variable {parser next : WsFrameParser}

/-- A pass keeps what has been kept. -/
theorem Kept.pass {payload : List UInt8}
    (kept : Kept parser payload) (effect : Effect parser next) (running : parser.error = false)
    (single : ∀ frame ∈ parser.completed, Opens frame → parser.inFragment = false) :
    Kept next payload := by
  rcases kept with ⟨delivery, member, part⟩ | ⟨unfinished, part⟩ | error
  · -- Deliveries are only added.
    refine .of_delivered ?_ part
    cases effect with
    | quiet _ frames => rwa [frames]
    | tooLarge _ frames => rwa [frames]
    | delivered _ _ _ frames => exact frames ▸ List.mem_append_left _ member
    | opened _ _ frames => rwa [frames]
    | unexpected _ _ _ frames => rwa [frames]
    | appended _ _ _ frames => rwa [frames]
    | finished _ _ _ frames => exact frames ▸ List.mem_append_left _ member
  · cases effect with
    | quiet _ _ inFragment fragmentBuffer | delivered _ _ _ _ inFragment fragmentBuffer =>
      exact .of_unfinished (inFragment.trans unfinished) (fragmentBuffer ▸ part)
    | tooLarge _ _ _ error => exact .inr (.inr error)
    | opened completed opens =>
      rw [single _ completed opens] at unfinished
      cases unfinished
    | unexpected _ _ _ _ _ error => exact .inr (.inr error)
    | appended _ _ _ _ inFragment fragmentBuffer =>
      exact .of_unfinished inFragment
        (fragmentBuffer ▸ part.trans (List.prefix_append _ _).isInfix)
    | finished _ _ _ frames =>
      refine .of_delivered (frames ▸ List.mem_append_right _ (List.mem_singleton_self _)) ?_
      exact part.trans (List.prefix_append _ _).isInfix
  · rw [running] at error
    cases error

/-- A pass keeps the data frame that it processes. -/
theorem Kept.completed {frame : WsFrame}
    (effect : Effect parser next) (processed : parser.completed = some frame) :
    Kept next frame.payload := by
  cases effect with
  | quiet none_ =>
    rw [processed] at none_
    cases none_
  | tooLarge none_ =>
    rw [processed] at none_
    cases none_
  | delivered completed _ _ frames =>
    obtain rfl := Option.some.inj (processed.symm.trans completed)
    exact .of_delivered (frames ▸ List.mem_append_right _ (List.mem_singleton_self _))
      List.infix_rfl
  | opened completed _ _ inFragment fragmentBuffer =>
    obtain rfl := Option.some.inj (processed.symm.trans completed)
    exact .of_unfinished inFragment (fragmentBuffer ▸ List.infix_rfl)
  | unexpected _ _ _ _ _ error => exact .inr (.inr error)
  | appended completed _ _ _ inFragment fragmentBuffer =>
    obtain rfl := Option.some.inj (processed.symm.trans completed)
    exact .of_unfinished inFragment (fragmentBuffer ▸ (List.suffix_append _ _).isInfix)
  | finished completed _ _ frames =>
    obtain rfl := Option.some.inj (processed.symm.trans completed)
    exact .of_delivered (frames ▸ List.mem_append_right _ (List.mem_singleton_self _))
      (List.suffix_append _ _).isInfix

/-- In every run in which no frame opens a message while another one is unfinished, the payload of
every frame that was processed is part of a delivery, or of the unfinished message, or there is an
error. -/
theorem payloads_are_kept {state : Watched} (reachable : system.Reachable OneMessage state) :
    ∀ frame ∈ state.processed, Kept state.parser frame.payload := by
  apply reachable.invariant fun state => ∀ frame ∈ state.processed, Kept state.parser frame.payload
  · rintro _ rfl frame ⟨⟩
  · intro state event next kept single transition
    cases event with
    | receive data =>
      simp only [system, step] at transition
      split at transition <;> cases transition
      · exact kept
      · exact kept
    | pass =>
      obtain ⟨after, taken, rfl⟩ := Option.map_eq_some_iff.mp transition
      obtain ⟨running, pass⟩ := parseStep_cases taken
      intro frame member
      rcases List.mem_append.mp member with earlier | now
      · exact (kept frame earlier).pass pass.effect running single
      · exact .completed pass.effect (Option.mem_toList.mp now)

/-- A text in two fragments with a ping between them, and the first fragment of a binary message. -/
theorem payloads_are_kept_pinged :
    ∃ state, system.Reachable OneMessage state ∧
      state.processed.map WsFrame.payload = [[0x68], [], [0x69], [0x07]] ∧
      ∀ frame ∈ state.processed, Kept state.parser frame.payload := by
  refine TransitionSystem.exists_reachable (rfl : system.Initial {})
    [.receive [0x01, 0x01, 0x68, 0x89], .pass, .pass, .receive [0x00, 0x80, 0x01], .pass, .pass,
      .receive [0x69, 0x02, 0x01, 0x07], .pass, .pass, .pass] ⟨_, rfl, ?_⟩
  intro reachable
  exact ⟨rfl, payloads_are_kept reachable⟩

/-- Two texts are opened one after the other. The first one is gone without a delivery or an
error. -/
theorem unfinished_text_is_dropped :
    ∃ state, system.Reachable everyStep state ∧
      state.parser = feed {} [0x01, 0x01, 0x61, 0x01, 0x01, 0x62] ∧
      ∃ frame ∈ state.processed, frame.opcode = .kText ∧ ¬ Kept state.parser frame.payload := by
  obtain ⟨state, executed, fed, processed, kept⟩ : ∃ state, system.execute everyStep {}
      [.receive [0x01, 0x01, 0x61, 0x01, 0x01, 0x62], .pass, .pass, .pass, .pass] = some state ∧
      state.parser = feed {} [0x01, 0x01, 0x61, 0x01, 0x01, 0x62] ∧
      (∃ frame ∈ state.processed, frame.opcode = .kText ∧ frame.payload = [0x61]) ∧
      state.parser.frames = [] ∧ state.parser.fragmentBuffer = [0x62] ∧
      state.parser.error = false :=
    ⟨_, rfl, rfl, by decide, rfl, rfl, rfl⟩
  refine ⟨state, TransitionSystem.Reachable.execute (.initial rfl) executed, fed, ?_⟩
  obtain ⟨frame, member, text, payload⟩ := processed
  refine ⟨frame, member, text, ?_⟩
  rw [payload]
  have gone : ¬ ([0x61] : List UInt8) <:+: [0x62] := by decide
  simp [Kept, kept, gone]

/-- A continuation leaves the unfinished message within the limit for one frame. -/
def WithinLimit (state : Watched) : Event → Prop
  | .receive _ => True
  | .pass => ∀ frame ∈ state.parser.completed, frame.opcode = .kContinuation →
      state.parser.inFragment = true →
      state.parser.fragmentBuffer.length + frame.payload.length ≤ maxPayload

instance (state : Watched) (event : Event) : Decidable (WithinLimit state event) :=
  match event with
  | .receive _ => .isTrue trivial
  | .pass => Option.decidableForallMem _

/-- The deliveries and the unfinished message are within the limit for one frame. -/
structure Bounded (parser : WsFrameParser) : Prop where
  delivered : ∀ delivery ∈ parser.frames, delivery.2.length ≤ maxPayload
  unfinished : parser.fragmentBuffer.length ≤ maxPayload

theorem Bounded.deliver (bounded : Bounded parser)
    {delivery : WsOpcode × List UInt8} (frames : next.frames = parser.frames ++ [delivery])
    (fits : delivery.2.length ≤ maxPayload) :
    ∀ delivery ∈ next.frames, delivery.2.length ≤ maxPayload := by
  rw [frames]
  intro other member
  rcases List.mem_append.mp member with earlier | last
  · exact bounded.delivered other earlier
  · rw [List.mem_singleton.mp last]
    exact fits

theorem Bounded.keep (bounded : Bounded parser) (frames : next.frames = parser.frames)
    (fragmentBuffer : next.fragmentBuffer = parser.fragmentBuffer) : Bounded next where
  delivered := frames ▸ bounded.delivered
  unfinished := fragmentBuffer ▸ bounded.unfinished

theorem withinLimit_of_none (none_ : state.parser.completed = none) :
    WithinLimit state .pass := by
  intro frame member
  rw [none_] at member
  cases member

/-- Only the continuation of an unfinished message can exceed the limit. -/
theorem withinLimit_of_other {frame : WsFrame} (completed : state.parser.completed = some frame)
    (other : frame.opcode ≠ .kContinuation ∨ state.parser.inFragment = false) :
    WithinLimit state .pass := by
  intro found member continues unfinished
  obtain rfl := Option.some.inj (completed.symm.trans member)
  rcases other with other | none_
  · exact absurd continues other
  · rw [none_] at unfinished
    cases unfinished

theorem withinLimit_iff {frame : WsFrame}
    (completed : state.parser.completed = some frame) (continues : frame.opcode = .kContinuation)
    (unfinished : state.parser.inFragment = true) :
    WithinLimit state .pass ↔
      (state.parser.fragmentBuffer ++ frame.payload).length ≤ maxPayload := by
  simp [WithinLimit, completed, continues, unfinished]

/-- A pass exceeds the limit exactly if it is not within it. -/
theorem Bounded.pass_iff {next : WsFrameParser} (bounded : Bounded state.parser)
    (sized : Sized state) (effect : Effect state.parser next) :
    Bounded next ↔ WithinLimit state .pass := by
  cases effect with
  | quiet none_ frames _ fragmentBuffer | tooLarge none_ frames fragmentBuffer _ =>
    exact iff_of_true (bounded.keep frames fragmentBuffer) (withinLimit_of_none none_)
  | delivered completed whole _ frames _ fragmentBuffer =>
    have fits := sized.ready.completed_payload_le sized.fits completed
    refine iff_of_true ⟨bounded.deliver frames fits, ?_⟩
      (withinLimit_of_other completed (.inl whole))
    rw [fragmentBuffer]
    exact bounded.unfinished
  | opened completed opens frames _ fragmentBuffer =>
    have fits := sized.ready.completed_payload_le sized.fits completed
    refine iff_of_true ⟨frames ▸ bounded.delivered, ?_⟩
      (withinLimit_of_other completed (.inl opens.2.1))
    rw [fragmentBuffer]
    exact fits
  | unexpected completed _ none_ frames fragmentBuffer _ =>
    exact iff_of_true (bounded.keep frames fragmentBuffer)
      (withinLimit_of_other completed (.inr none_))
  | appended completed continues unfinished frames _ fragmentBuffer =>
    rw [withinLimit_iff completed continues unfinished, ← fragmentBuffer]
    exact ⟨Bounded.unfinished, fun fits => ⟨frames ▸ bounded.delivered, fits⟩⟩
  | finished completed continues unfinished frames fragmentBuffer =>
    rw [withinLimit_iff completed continues unfinished]
    constructor
    · intro after
      exact after.delivered _ (frames ▸ List.mem_append_right _ (List.mem_singleton_self _))
    · intro fits
      exact ⟨bounded.deliver frames fits, fragmentBuffer ▸ Nat.zero_le _⟩

/-- The bound holds along every run. -/
theorem reachable_bounded (reachable : system.Reachable WithinLimit state) :
    Bounded state.parser := by
  induction reachable with
  | initial valid =>
    cases valid
    exact ⟨by simp [frames], Nat.zero_le _⟩
  | @step state event next prior within transition bounded =>
    cases event with
    | receive data =>
      simp only [system, step] at transition
      split at transition <;> cases transition
      · exact bounded
      · exact ⟨bounded.delivered, bounded.unfinished⟩
    | pass =>
      obtain ⟨after, taken, rfl⟩ := Option.map_eq_some_iff.mp transition
      have effect := (parseStep_cases taken).2.effect
      exact (bounded.pass_iff (reachable_sized prior) effect).mpr within

/-- In every run whose continuations leave the unfinished message within the limit for one frame,
every delivery and the unfinished message are within it. The first pass that does not exceeds it
at once. -/
theorem messages_are_bounded {state : Watched} (reachable : system.Reachable WithinLimit state) :
    Bounded state.parser ∧ ∀ next, system.step state .pass = some next →
      (Bounded next.parser ↔ WithinLimit state .pass) := by
  have bounded := reachable_bounded reachable
  refine ⟨bounded, ?_⟩
  intro next transition
  obtain ⟨after, taken, rfl⟩ := Option.map_eq_some_iff.mp transition
  exact bounded.pass_iff (reachable_sized reachable) (parseStep_cases taken).2.effect

/-- The fragments of a text, the last of which is on its way. -/
theorem messages_are_bounded_fragments :
    ∃ state next, system.Reachable WithinLimit state ∧ system.step state .pass = some next ∧
      next.parser.frames = [(.kText, [0x68, 0x69])] ∧ Bounded next.parser := by
  obtain ⟨state, next, executed, transition, delivered⟩ : ∃ state next,
      system.execute WithinLimit {} [.receive [0x01, 0x01, 0x68, 0x80, 0x01, 0x69],
        .pass, .pass, .pass] = some state ∧ system.step state .pass = some next ∧
      next.parser.frames = [(.kText, [0x68, 0x69])] :=
    ⟨_, _, rfl, rfl, rfl⟩
  have reachable := TransitionSystem.Reachable.execute (.initial rfl) executed
  have within : WithinLimit state .pass := by
    cases executed
    decide
  exact ⟨state, next, reachable, transition, delivered,
    ((messages_are_bounded reachable).2 next transition).mpr within⟩

end Watched

/-- A text in two fragments. -/
def twoFragments (first last : Part) : List StreamItem :=
  [.message { opcode := .text, first, later := [([], last)] }]

theorem feed_twoFragments (first last : Part) :
    (feed {} (encodeStream (twoFragments first last))).frames =
      [(.kText, first.payload ++ last.payload)] := by
  have received := Assembly.receive_stream {} (twoFragments first last) rfl
  rw [encodeStream, (feed_frames received).frames]
  simp [Assembly.deliverAll, streamDeliveries, twoFragments, StreamItem.deliveries,
    laterDeliveries, laterPayload, MessageOpcode.opcode]

theorem exists_full_part : ∃ part : Part, part.payload.length = maxPayload :=
  ⟨⟨none, List.replicate maxPayload 0, by rw [List.length_replicate]⟩,
    by rw [List.length_replicate]⟩

/-- A fragment as long as a frame may be and one of a byte make a message longer than that, which
is delivered. -/
theorem long_message_is_delivered :
    ∃ bytes, ∃ delivery ∈ (feed {} bytes).frames, maxPayload < delivery.2.length := by
  obtain ⟨first, full⟩ := exists_full_part
  let last : Part := ⟨none, [0], by decide⟩
  have delivered := feed_twoFragments first last
  refine ⟨encodeStream (twoFragments first last), (.kText, first.payload ++ last.payload), ?_, ?_⟩
  · rw [delivered]
    exact List.mem_singleton_self _
  · rw [List.length_append, full]
    exact Nat.lt_succ_self maxPayload

end WsFrameParser

end UringServer.Web
