import UringServer.Web.Llhttp
import UringServer.Web.RequestFeed

/-!
# The requests of a connection do not depend on one another

What the handler is given for a message is determined by the bytes of the message:
neither the messages before it nor what the handler did to their requests nor the
cut into calls of `Feed` can be seen in it. The parser that scans for the end of each
message shows that what is assumed of `llhttp` can be met.
-/

namespace UringServer.Web

open UringServer.Semantics

/-- The callbacks for a request without a body that is not cut. -/
def announce (request : HttpRequest) : List Callback :=
  [.onMessageBegin, .onUrl request.path, .onUrlComplete] ++
    request.headers.flatMap (fun header =>
      [.onHeaderField header.1, .onHeaderValue header.2, .onHeaderValueComplete]) ++
    [.onHeadersComplete 1 request.keepAlive]

/-- A parser that scans for the end of each message, and makes its callbacks there. -/
def announcing (judge : Text → Verdict) : ReportingLlhttp Text where
  initial := []
  execute seen data := match scan judge seen data with
    | .ok next => ([], .ok next)
    | .paused consumed request next => (announce request, .paused consumed next)
    | .failed consumed => ([], .failed consumed)
  paused_bounds {seen data callbacks consumed next} executed := by
    cases scanned : scan judge seen data with
    | ok | failed =>
      rw [scanned] at executed
      cases executed
    | paused count request after =>
      rw [scanned] at executed
      cases executed
      exact scan_bounds scanned

namespace Announcing

variable {judge : Text → Verdict} {seen data : Text}

/-- What follows a message makes no difference to it. -/
theorem scan_take {consumed : Nat} {request : HttpRequest} {next : Text}
    (paused : scan judge seen data = .paused consumed request next) :
    next = [] ∧ scan judge seen (data.take consumed) = .paused consumed request [] := by
  induction data generalizing seen consumed with
  | nil => cases paused
  | cons byte rest ih =>
    cases judged : judge (byte :: seen) with
    | incomplete =>
      rw [scan, judged] at paused
      dsimp only at paused
      cases scanned : scan judge (byte :: seen) rest with
      | ok | failed =>
        rw [scanned] at paused
        cases paused
      | paused count other after =>
        rw [scanned] at paused
        cases paused
        obtain ⟨fresh, taken⟩ := ih scanned
        refine ⟨fresh, ?_⟩
        rw [Nat.add_comm, List.take_succ_cons, scan, judged, Nat.add_comm]
        dsimp only
        rw [taken]
        rfl
    | complete =>
      rw [scan, judged] at paused
      cases paused
      exact ⟨rfl, by rw [List.take_succ_cons, scan, judged]⟩
    | bad =>
      rw [scan, judged] at paused
      cases paused

/-- The result of a call is that of the scan. -/
theorem scan_of_execute {callbacks : List Callback} {result : ExecuteResult Text}
    (executed : (announcing judge).execute seen data = (callbacks, result)) :
    (∃ next, scan judge seen data = .ok next ∧ callbacks = [] ∧ result = .ok next) ∨
      (∃ consumed request, scan judge seen data = .paused consumed request [] ∧
        callbacks = announce request ∧ result = .paused consumed []) ∨
      ∃ consumed, result = .failed consumed := by
  unfold announcing at executed
  dsimp only at executed
  cases scanned : scan judge seen data with
  | ok next =>
    rw [scanned] at executed
    cases executed
    exact .inl ⟨next, rfl, rfl, rfl⟩
  | paused consumed request next =>
    obtain ⟨rfl, -⟩ := scan_take scanned
    rw [scanned] at executed
    cases executed
    exact .inr (.inl ⟨consumed, request, rfl, rfl, rfl⟩)
  | failed consumed =>
    rw [scanned] at executed
    cases executed
    exact .inr (.inr ⟨consumed, rfl⟩)

/-- Inside a message its bytes have been scanned and nothing has been reported. -/
theorem inside_cases {parser : Text} {made : List Callback}
    (inside : Inside (announcing judge) parser seen made) :
    scan judge [] seen = .ok parser ∧ made = [] := by
  induction inside with
  | initial => exact ⟨rfl, rfl⟩
  | resumed _ executed _ =>
    obtain ⟨_, _, _, result⟩ | ⟨_, _, _, _, result⟩ | ⟨_, result⟩ := scan_of_execute executed
    all_goals cases result
    exact ⟨rfl, rfl⟩
  | continued _ executed ih =>
    obtain ⟨scanned, rfl⟩ := ih
    obtain ⟨_, onward, rfl, result⟩ | ⟨_, _, _, _, result⟩ | ⟨_, result⟩ :=
      scan_of_execute executed
    all_goals cases result
    rw [scan_incremental, scanned]
    exact ⟨congrArg (Executed.after _) onward, rfl⟩

/-- The callbacks of a message depend on its bytes alone. -/
def messageWise (judge : Text → Verdict) : MessageWise (announcing judge) where
  IsMessage message := ∃ request, scan judge [] message = .paused message.length request []
  report message := match scan judge [] message with
    | .paused _ request _ => joinSpans (announce request)
    | .ok _ | .failed _ => []
  unextended := by
    rintro message more ⟨request, whole⟩ ⟨other, longer⟩
    rw [scan_incremental, whole] at longer
    have lengths := (Executed.paused.inj longer).1
    rw [List.length_append] at lengths
    exact List.length_eq_zero_iff.mp (by omega)
  paused {parser seen made data callbacks consumed next} inside executed := by
    obtain ⟨scanned, rfl⟩ := inside_cases inside
    obtain ⟨_, _, _, result⟩ | ⟨_, request, onward, rfl, result⟩ | ⟨_, result⟩ :=
      scan_of_execute executed
    all_goals cases result
    have message : scan judge [] (seen ++ data.take consumed) =
        .paused (seen.length + consumed) request [] := by
      rw [scan_incremental, scanned]
      exact congrArg (Executed.after _) (scan_take onward).2
    refine ⟨⟨request, ?_⟩, rfl, by rw [message]; rfl⟩
    rw [message, List.length_append, List.length_take_of_le (scan_bounds onward).2]

/-- A handler that uses its request and leaves its marks in it. -/
def marking : RequestHandler Unit := fun _ object =>
  let object := (object.queryParam (ascii "x")).2
  let object := object.setParams [(ascii "id", ⟨4096, 1⟩)]
  ((), object.setAuthenticatedUserId (ascii "7"), true)

/-- A handler that only goes on. -/
def passing : RequestHandler Unit := fun _ object => ((), object, true)

end Announcing

/-- Two streams with the same message at a place, cut into calls in any way, with any
handlers: if the message is delivered in both, both handlers are given the same
object for it, and it answers `QueryParam` from the query of the message. -/
theorem delivered_request_unique {Parser FirstMemory SecondMemory : Type}
    {llhttp : ReportingLlhttp Parser} (wise : MessageWise llhttp)
    (firstHandler : RequestHandler FirstMemory) (secondHandler : RequestHandler SecondMemory)
    (firstMemory : FirstMemory) (secondMemory : SecondMemory) (firstCalls secondCalls : List Text)
    (n : Nat) (message : Text) (inFirst : wise.Nth firstCalls.flatten n message)
    (inSecond : wise.Nth secondCalls.flatten n message) (first second : RequestObject)
    (firstDelivered :
      (feedAll llhttp firstHandler firstMemory firstCalls).delivered[n]? = some first)
    (secondDelivered :
      (feedAll llhttp secondHandler secondMemory secondCalls).delivered[n]? = some second) :
    first = second ∧
      ∀ name, (first.queryParam name).1 = valueOf (queryParams second.request.query) name := by
  obtain rfl := delivered_eq wise inFirst firstDelivered
  obtain rfl := delivered_eq wise inSecond secondDelivered
  refine ⟨rfl, fun name => ?_⟩
  exact RequestObject.queryParam_of_cleared (ParserMembers.cache_run {} rfl) name

/-- The bytes of a request for a target. -/
def bareRequest (target : Text) : Text := ascii "GET " ++ target ++ ascii " HTTP/1.1\r\n\r\n"

/-- The second of two requests, after one with marks and after one without. -/
theorem second_request_unique :
    ∃ object : RequestObject,
      object.request.path = ascii "/b" ∧ (object.queryParam (ascii "y")).1 = ascii "2" ∧
      (feedAll (announcing judgeHead) Announcing.marking ()
        [bareRequest (ascii "/a?x=1"), bareRequest (ascii "/b?y=2")]).delivered[1]? =
          some object ∧
      (feedAll (announcing judgeHead) Announcing.passing ()
        [bareRequest (ascii "/c") ++ bareRequest (ascii "/b?y=2")]).delivered[1]? =
          some object := by
  obtain ⟨first, firstDelivered, path, value⟩ : ∃ object : RequestObject,
      (feedAll (announcing judgeHead) Announcing.marking ()
        [bareRequest (ascii "/a?x=1"), bareRequest (ascii "/b?y=2")]).delivered[1]? =
          some object ∧
      object.request.path = ascii "/b" ∧ (object.queryParam (ascii "y")).1 = ascii "2" :=
    ⟨_, rfl, by decide, by decide⟩
  obtain ⟨second, secondDelivered⟩ : ∃ object : RequestObject,
      (feedAll (announcing judgeHead) Announcing.passing ()
        [bareRequest (ascii "/c") ++ bareRequest (ascii "/b?y=2")]).delivered[1]? = some object :=
    ⟨_, rfl⟩
  obtain ⟨rfl, -⟩ := delivered_request_unique (Announcing.messageWise judgeHead)
    Announcing.marking Announcing.passing () () _ _ 1 (bareRequest (ascii "/b?y=2"))
    ⟨[bareRequest (ascii "/a?x=1"), bareRequest (ascii "/b?y=2")], ⟨⟨[], by decide⟩, by
      rw [List.forall_mem_cons, List.forall_mem_singleton]
      exact ⟨⟨_, rfl⟩, ⟨_, rfl⟩⟩⟩, rfl⟩
    ⟨[bareRequest (ascii "/c"), bareRequest (ascii "/b?y=2")], ⟨⟨[], by decide⟩, by
      rw [List.forall_mem_cons, List.forall_mem_singleton]
      exact ⟨⟨_, rfl⟩, ⟨_, rfl⟩⟩⟩, rfl⟩
    first second firstDelivered secondDelivered
  exact ⟨first, path, value, firstDelivered, secondDelivered⟩

section Session

variable {Parser : Type} (llhttp : ReportingLlhttp Parser)

/-- The parser of the sessions: `llhttp` with the members of `HttpParser`. -/
def ReportingLlhttp.withMembers : Llhttp (Parser × ParserMembers) where
  initial := (llhttp.initial, {})
  execute state data :=
    let members := state.2.run (llhttp.execute state.1 data).1
    match (llhttp.execute state.1 data).2 with
    | .ok next => .ok (next, members)
    | .paused consumed next => .paused consumed members.object.request (next, members)
    | .failed consumed => .failed consumed
  paused_bounds {state data consumed request next} paused := by
    split at paused
    case h_1 => cases paused
    case h_2 count after result =>
      cases paused
      exact llhttp.paused_bounds (Prod.ext rfl result)
    case h_3 => cases paused

variable {llhttp}

/-- Whatever the handlers have left in the members before a message, the session is
given the request of its bytes. -/
theorem request_withMembers (wise : MessageWise llhttp) (before : ParserMembers) {parser : Parser}
    {seen data : Text} {made : List Callback} {consumed : Nat} {request : HttpRequest}
    {next : Parser × ParserMembers} (inside : Inside llhttp parser seen made)
    (paused : llhttp.withMembers.execute (parser, before.run made) data =
      .paused consumed request next) :
    request = (wise.requestOf (seen ++ data.take consumed)).request := by
  simp only [ReportingLlhttp.withMembers] at paused
  split at paused
  case h_1 => cases paused
  case h_2 count after result =>
    cases paused
    rw [← MessageWise.object_run before inside (Prod.ext rfl result)]
  case h_3 => cases paused

end Session

end UringServer.Web
