import Mathlib.Data.List.Induction
import Mathlib.Data.List.Infix
import UringServer.Web.RequestObject

/-!
# `HttpParser::Feed`

`Feed` drives `llhttp` over the bytes of one call after the other. The handler gets
the request object by reference and may leave anything in it. What is assumed of
`llhttp` is that the callbacks of a message depend on its bytes alone, up to the
spans in which they are reported, and that the first of them is
`on_message_begin`. Where a message ends is part of this, since
`on_message_complete` is one of the callbacks.
-/

namespace UringServer.Web

open UringServer.Semantics

/-- What `llhttp_execute` returns. -/
inductive ExecuteResult (Parser : Type) where
  /-- `HPE_OK`. -/
  | ok (next : Parser)
  /-- `HPE_PAUSED` from `OnMessageComplete`, after `consumed` bytes; `next` is the parser
  after `llhttp_resume`. -/
  | paused (consumed : Nat) (next : Parser)
  /-- Any other result. -/
  | failed (consumed : Nat)

/-- `llhttp` with the callbacks of each call, without `OnMessageComplete`. -/
structure ReportingLlhttp (Parser : Type) where
  initial : Parser
  execute : Parser → Text → List Callback × ExecuteResult Parser
  paused_bounds : ∀ {parser data callbacks consumed next},
    execute parser data = (callbacks, .paused consumed next) →
      0 < consumed ∧ consumed ≤ data.length

/-- `on_request_`. It changes what it remembers and the request, and says whether to
go on. -/
abbrev RequestHandler (Memory : Type) := Memory → RequestObject → Memory × RequestObject × Bool

/-- `HttpParser` in a call of `Feed`. -/
structure Feeding (Parser Memory : Type) where
  parser : Parser
  members : ParserMembers := {}
  error : Bool := false
  /-- What the handler remembers. -/
  memory : Memory
  /-- The bytes from `current` on. -/
  rest : Text := []
  /-- The requests that were passed to the handler. -/
  delivered : List RequestObject := []

variable {Parser Memory : Type}

section Feed

variable (llhttp : ReportingLlhttp Parser) (handler : RequestHandler Memory)

/-- `OnMessageComplete`. -/
def onMessageComplete (feeding : Feeding Parser Memory) : Feeding Parser Memory :=
  let (memory, object, cont) := handler feeding.memory feeding.members.object
  { feeding with
    members := feeding.members.setObject object
    error := feeding.error || !cont
    memory
    delivered := feeding.delivered ++ [feeding.members.object] }

/-- One pass of the loop in `Feed`; both `return`s in it leave nothing to do. -/
def feedStep (feeding : Feeding Parser Memory) : Option (Feeding Parser Memory) :=
  if feeding.rest.isEmpty || feeding.error then none
  else
    let (callbacks, result) := llhttp.execute feeding.parser feeding.rest
    let feeding := { feeding with members := feeding.members.run callbacks }
    match result with
    | .ok next => some { feeding with parser := next, rest := [] }
    | .paused consumed next =>
      some { onMessageComplete handler feeding with
        parser := next
        rest := feeding.rest.drop consumed }
    | .failed _ => some { feeding with error := true }

/-- What a pass does, by the result of `llhttp_execute`. -/
inductive FeedPass (feeding : Feeding Parser Memory) : Feeding Parser Memory → Prop where
  | ok {callbacks : List Callback} {next : Parser}
      (executed : llhttp.execute feeding.parser feeding.rest = (callbacks, .ok next)) :
      FeedPass feeding
        { feeding with members := feeding.members.run callbacks, parser := next, rest := [] }
  | paused {callbacks : List Callback} {consumed : Nat} {next : Parser}
      (executed : llhttp.execute feeding.parser feeding.rest =
        (callbacks, .paused consumed next)) :
      FeedPass feeding
        { onMessageComplete handler { feeding with members := feeding.members.run callbacks } with
          parser := next
          rest := feeding.rest.drop consumed }
  | failed {callbacks : List Callback} :
      FeedPass feeding { feeding with members := feeding.members.run callbacks, error := true }

variable {llhttp handler}

theorem feedStep_cases {feeding next : Feeding Parser Memory}
    (taken : feedStep llhttp handler feeding = some next) :
    feeding.rest ≠ [] ∧ feeding.error = false ∧ FeedPass llhttp handler feeding next := by
  unfold feedStep at taken
  split at taken
  case isTrue => cases taken
  case isFalse running =>
    rw [Bool.or_eq_true, List.isEmpty_iff, not_or, Bool.not_eq_true] at running
    refine ⟨running.1, running.2, ?_⟩
    dsimp only at taken
    split at taken
    case h_1 after result =>
      cases taken
      exact .ok (Prod.ext rfl result)
    case h_2 consumed after result =>
      cases taken
      exact .paused (Prod.ext rfl result)
    case h_3 consumed result =>
      cases taken
      exact .failed

/-- What is left to do in a call. -/
def Feeding.remaining (feeding : Feeding Parser Memory) : Nat :=
  if feeding.error then 0 else feeding.rest.length

theorem feedStep_lt {feeding next : Feeding Parser Memory}
    (taken : feedStep llhttp handler feeding = some next) :
    next.remaining < feeding.remaining := by
  obtain ⟨nonempty, running, pass⟩ := feedStep_cases taken
  have positive : 0 < feeding.rest.length := List.length_pos_iff.mpr nonempty
  rw [Feeding.remaining, Feeding.remaining, running, if_neg Bool.false_ne_true]
  cases pass with
  | ok executed =>
    dsimp only
    rw [running]
    exact positive
  | paused executed =>
    have bounds := llhttp.paused_bounds executed
    split
    case isTrue => exact positive
    case isFalse =>
      dsimp only
      rw [List.length_drop]
      omega
  | failed => exact positive

variable (llhttp handler)

/-- The loop of `Feed`. -/
def feedLoop : Loop (Feeding Parser Memory) where
  body := feedStep llhttp handler
  Inv _ := True
  remaining := Feeding.remaining
  preserved _ _ := trivial
  decreases _ taken := feedStep_lt taken

/-- `HttpParser::Feed`. -/
def feed (feeding : Feeding Parser Memory) (data : Text) : Feeding Parser Memory :=
  (feedLoop llhttp handler).run { feeding with rest := data }

/-- A new `HttpParser` after some calls of `Feed`. -/
def feedAll (memory : Memory) (calls : List Text) : Feeding Parser Memory :=
  calls.foldl (feed llhttp handler) { parser := llhttp.initial, memory }

end Feed

/-- `llhttp` within a message, with the bytes it has seen of it and the callbacks it
has made for them. -/
inductive Inside (llhttp : ReportingLlhttp Parser) : Parser → Text → List Callback → Prop where
  | initial : Inside llhttp llhttp.initial [] []
  | resumed {parser next : Parser} {seen data : Text} {made callbacks : List Callback}
      {consumed : Nat} (inside : Inside llhttp parser seen made)
      (executed : llhttp.execute parser data = (callbacks, .paused consumed next)) :
      Inside llhttp next [] []
  | continued {parser next : Parser} {seen data : Text} {made callbacks : List Callback}
      (inside : Inside llhttp parser seen made)
      (executed : llhttp.execute parser data = (callbacks, .ok next)) :
      Inside llhttp next (seen ++ data) (made ++ callbacks)

/-- The callbacks of a message start with `on_message_begin` and depend on its bytes
alone. -/
structure MessageWise (llhttp : ReportingLlhttp Parser) where
  IsMessage : Text → Prop
  report : Text → List Callback
  /-- Where a message ends does not depend on what follows. -/
  unextended : ∀ {message more}, IsMessage message → IsMessage (message ++ more) → more = []
  paused : ∀ {parser seen made data callbacks consumed next}, Inside llhttp parser seen made →
    llhttp.execute parser data = (callbacks, .paused consumed next) →
      IsMessage (seen ++ data.take consumed) ∧
      (made ++ callbacks).head? = some .onMessageBegin ∧
      joinSpans (made ++ callbacks) = report (seen ++ data.take consumed)

namespace MessageWise

variable {llhttp : ReportingLlhttp Parser} (wise : MessageWise llhttp)

/-- The messages at the start of a stream. -/
structure Leading (stream : Text) (messages : List Text) : Prop where
  starts : messages.flatten <+: stream
  messages : ∀ message ∈ messages, wise.IsMessage message

/-- The message at a place of a stream. -/
def Nth (stream : Text) (n : Nat) (message : Text) : Prop :=
  ∃ messages, wise.Leading stream messages ∧ messages[n]? = some message

/-- The request that is made of a message. -/
def requestOf (message : Text) : RequestObject :=
  (ParserMembers.run {} (wise.report message)).object

variable {wise} {stream : Text}

theorem eq_of_isPrefix {first second : Text} (isFirst : wise.IsMessage first)
    (isSecond : wise.IsMessage second) (starts : first <+: second) : first = second := by
  obtain ⟨more, rfl⟩ := starts
  rw [wise.unextended isFirst isSecond, List.append_nil]

/-- Two messages at the start of a stream are the same. -/
theorem eq_of_starts {first second : Text} (isFirst : wise.IsMessage first)
    (isSecond : wise.IsMessage second) (firstStarts : first <+: stream)
    (secondStarts : second <+: stream) : first = second := by
  rcases List.prefix_or_prefix_of_prefix firstStarts secondStarts with shorter | longer
  · exact eq_of_isPrefix isFirst isSecond shorter
  · exact (eq_of_isPrefix isSecond isFirst longer).symm

/-- A stream has one message at a place. -/
theorem Leading.unique {left right : List Text} (isLeft : wise.Leading stream left)
    (isRight : wise.Leading stream right) {n : Nat} {first second : Text}
    (atLeft : left[n]? = some first) (atRight : right[n]? = some second) : first = second := by
  induction n generalizing stream left right with
  | zero =>
    cases left with
    | nil => cases atLeft
    | cons message left =>
      cases right with
      | nil => cases atRight
      | cons other right =>
        cases atLeft
        cases atRight
        have leftStarts := (List.prefix_append _ _).trans isLeft.starts
        have rightStarts := (List.prefix_append _ _).trans isRight.starts
        exact eq_of_starts (isLeft.messages _ List.mem_cons_self)
          (isRight.messages _ List.mem_cons_self) leftStarts rightStarts
  | succ n ih =>
    cases left with
    | nil => cases atLeft
    | cons message left =>
      cases right with
      | nil => cases atRight
      | cons other right =>
        obtain ⟨isMessage, leftMessages⟩ := List.forall_mem_cons.mp isLeft.messages
        obtain ⟨isOther, rightMessages⟩ := List.forall_mem_cons.mp isRight.messages
        have leftStarts := isLeft.starts
        have rightStarts := isRight.starts
        rw [List.flatten_cons] at leftStarts rightStarts
        obtain rfl := eq_of_starts isMessage isOther
          ((List.prefix_append _ _).trans leftStarts)
          ((List.prefix_append _ _).trans rightStarts)
        obtain ⟨behind, rfl⟩ := (List.prefix_append _ _).trans leftStarts
        rw [List.prefix_append_right_inj] at leftStarts rightStarts
        exact ih ⟨leftStarts, leftMessages⟩ ⟨rightStarts, rightMessages⟩
          atLeft atRight

/-- At the end of a message the members hold the request of its bytes, whatever they
held before it. -/
theorem object_run (before : ParserMembers) {parser next : Parser} {seen data : Text}
    {made callbacks : List Callback} {consumed : Nat} (inside : Inside llhttp parser seen made)
    (executed : llhttp.execute parser data = (callbacks, .paused consumed next)) :
    ((before.run made).run callbacks).object = wise.requestOf (seen ++ data.take consumed) := by
  obtain ⟨-, begins, joined⟩ := wise.paused inside executed
  rw [← ParserMembers.run_append, ParserMembers.run_of_begin _ begins,
    ← ParserMembers.run_joinSpans, joined, requestOf]

end MessageWise

/-- What was passed to the handler are the requests of messages at the start of the
stream, and without an error `llhttp` is inside the next one. -/
def Accounted {llhttp : ReportingLlhttp Parser} (wise : MessageWise llhttp) (stream : Text)
    (feeding : Feeding Parser Memory) : Prop :=
  ∃ (messages : List Text) (tail : Text), stream = messages.flatten ++ tail ∧
    (∀ message ∈ messages, wise.IsMessage message) ∧
    feeding.delivered = messages.map wise.requestOf ∧
    (feeding.error = false → ∃ seen made before, tail = seen ++ feeding.rest ∧
      Inside llhttp feeding.parser seen made ∧ feeding.members = ParserMembers.run before made)

section Accounting

variable {llhttp : ReportingLlhttp Parser} {wise : MessageWise llhttp}
  {handler : RequestHandler Memory} {stream : Text} {feeding next : Feeding Parser Memory}

theorem Accounted.pass (accounted : Accounted wise stream feeding)
    (running : feeding.error = false) (pass : FeedPass llhttp handler feeding next) :
    Accounted wise stream next := by
  obtain ⟨messages, tail, split, isMessages, delivered, position⟩ := accounted
  obtain ⟨seen, made, before, rfl, inside, reached⟩ := position running
  cases pass with
  | ok executed =>
    refine ⟨messages, seen ++ feeding.rest, split, isMessages, delivered, fun _ => ?_⟩
    refine ⟨seen ++ feeding.rest, _, before, (List.append_nil _).symm,
      .continued inside executed, ?_⟩
    rw [ParserMembers.run_append, ← reached]
  | @paused callbacks consumed next executed =>
    obtain ⟨isMessage, -, -⟩ := wise.paused inside executed
    refine ⟨messages ++ [seen ++ feeding.rest.take consumed], feeding.rest.drop consumed,
      ?_, ?_, ?_, fun _ => ⟨[], [], _, rfl, .resumed inside executed, rfl⟩⟩
    · rw [split, List.flatten_append, List.flatten_singleton, List.append_assoc,
        List.append_assoc, List.take_append_drop]
    · rw [List.forall_mem_append, List.forall_mem_singleton]
      exact ⟨isMessages, isMessage⟩
    · rw [List.map_append, List.map_singleton, ← delivered,
        ← MessageWise.object_run before inside executed, ← reached]
      rfl
  | failed => exact ⟨messages, _, split, isMessages, delivered, nofun⟩

/-- A call keeps the account of the stream up to the end of its data. -/
theorem Accounted.feed (accounted : Accounted wise stream feeding)
    (done : feeding.error = false → feeding.rest = []) (data : Text) :
    Accounted wise (stream ++ data) (feed llhttp handler feeding data) := by
  have entered : Accounted wise (stream ++ data) { feeding with rest := data } := by
    obtain ⟨messages, tail, split, isMessages, delivered, position⟩ := accounted
    refine ⟨messages, tail ++ data, by rw [split, List.append_assoc], isMessages, delivered,
      fun running => ?_⟩
    obtain ⟨seen, made, before, rfl, inside, reached⟩ := position running
    refine ⟨seen, made, before, ?_, inside, reached⟩
    rw [done running, List.append_nil]
  refine (feedLoop llhttp handler).run_rule (R := fun start final =>
    Accounted wise (stream ++ data) start → Accounted wise (stream ++ data) final)
    (fun _ _ _ => id) ?_ _ trivial entered
  intro start next final _ taken after here
  obtain ⟨-, running, pass⟩ := feedStep_cases taken
  exact after (here.pass running pass)

/-- A call ends with an error or without a byte left. -/
theorem rest_feed (feeding : Feeding Parser Memory) (data : Text)
    (running : (feed llhttp handler feeding data).error = false) :
    (feed llhttp handler feeding data).rest = [] := by
  have left : feedStep llhttp handler (feed llhttp handler feeding data) = none :=
    (feedLoop llhttp handler).body_run trivial
  by_contra nonempty
  have going : ¬ ((feed llhttp handler feeding data).rest.isEmpty ||
      (feed llhttp handler feeding data).error) = true := by
    rw [running, Bool.or_false, List.isEmpty_iff]
    exact nonempty
  rw [feedStep, if_neg going] at left
  dsimp only at left
  split at left <;> cases left

theorem accounted_feedAll (wise : MessageWise llhttp) (handler : RequestHandler Memory)
    (memory : Memory) (calls : List Text) :
    Accounted wise calls.flatten (feedAll llhttp handler memory calls) ∧
      ((feedAll llhttp handler memory calls).error = false →
        (feedAll llhttp handler memory calls).rest = []) := by
  induction calls using List.reverseRecOn with
  | nil =>
    refine ⟨⟨[], [], rfl, nofun, rfl, fun _ => ⟨[], [], {}, rfl, .initial, rfl⟩⟩, fun _ => rfl⟩
  | append_singleton calls data ih =>
    obtain ⟨accounted, done⟩ := ih
    have after : feedAll llhttp handler memory (calls ++ [data]) =
        feed llhttp handler (feedAll llhttp handler memory calls) data :=
      List.foldl_concat ..
    rw [after, List.flatten_append, List.flatten_singleton]
    exact ⟨accounted.feed done data, rest_feed _ data⟩

/-- The request that is passed for a message is the one of its bytes. -/
theorem delivered_eq (wise : MessageWise llhttp) {memory : Memory} {calls : List Text} {n : Nat}
    {message : Text} {object : RequestObject} (isNth : wise.Nth calls.flatten n message)
    (delivered : (feedAll llhttp handler memory calls).delivered[n]? = some object) :
    object = wise.requestOf message := by
  obtain ⟨messages, tail, split, isMessages, log, -⟩ :=
    (accounted_feedAll wise handler memory calls).1
  obtain ⟨leading, isLeading, atLeading⟩ := isNth
  rw [log, List.getElem?_map, Option.map_eq_some_iff] at delivered
  obtain ⟨found, atFound, rfl⟩ := delivered
  have isFound : wise.Leading calls.flatten messages :=
    ⟨split ▸ List.prefix_append .., isMessages⟩
  rw [isFound.unique isLeading atFound atLeading]

end Accounting

end UringServer.Web
