import UringServer.Web.HttpMessage

/-!
# The callbacks of `HttpParser`

`llhttp` reports a message in spans: its target, the names and values of its
fields, the method when the header block is complete, and the body without the
coding it was sent in. The callbacks collect them in an `HttpRequest`, whatever
the spans are.
-/

namespace UringServer.Web

open UringServer.Semantics

/-- `HttpMethodFromLlhttp`. -/
def httpMethodFromLlhttp : Nat → HttpMethod
  | 0 => .delete
  | 1 => .get
  | 2 => .head
  | 3 => .post
  | 4 => .put
  | 6 => .options
  | 28 => .patch
  | _ => .unknown

/-- `HttpMethodToString`. -/
def httpMethodToString : HttpMethod → Text
  | .get => ascii "GET"
  | .head => ascii "HEAD"
  | .post => ascii "POST"
  | .put => ascii "PUT"
  | .delete => ascii "DELETE"
  | .options => ascii "OPTIONS"
  | .patch => ascii "PATCH"
  | .unknown => ascii "UNKNOWN"

/-- `HttpParser::ParseUrl`: the path and the query. -/
def parseUrl (url : Text) : Text × Text :=
  match url.findIdx? (· = 0x3F) with
  | some qpos => (url.take qpos, url.drop (qpos + 1))
  | none => (url, [])

theorem question_not_mem_path (url : Text) : 0x3F ∉ (parseUrl url).1 := by
  unfold parseUrl
  split
  case h_1 qpos found =>
    intro member
    obtain ⟨index, inside, isQuestion⟩ := List.getElem_of_mem member
    obtain ⟨fits, -, before⟩ := List.findIdx?_eq_some_iff_getElem.mp found
    have earlier : index < qpos := by
      rw [List.length_take] at inside
      omega
    have notQuestion := before index earlier
    rw [List.getElem_take] at isQuestion
    simp [isQuestion] at notQuestion
  case h_2 found =>
    intro member
    have notQuestion := List.findIdx?_eq_none_iff.mp found _ member
    simp at notQuestion

theorem mem_of_mem_path {url : Text} {byte : UInt8} (member : byte ∈ (parseUrl url).1) :
    byte ∈ url := by
  unfold parseUrl at member
  split at member
  · exact List.mem_of_mem_take member
  · exact member

theorem mem_of_mem_query {url : Text} {byte : UInt8} (member : byte ∈ (parseUrl url).2) :
    byte ∈ url := by
  unfold parseUrl at member
  split at member
  · exact List.mem_of_mem_drop member
  · cases member

/-- A path and a query that are put together are found again. -/
theorem parseUrl_append {path : Text} (noQuestion : 0x3F ∉ path) (query : Text) :
    parseUrl (path ++ if query.isEmpty then [] else ascii "?" ++ query) = (path, query) := by
  have inPath : path.findIdx? (· = 0x3F) = none :=
    List.findIdx?_eq_none_iff.mpr fun byte member => by
      rw [decide_eq_false_iff_not]
      rintro rfl
      exact noQuestion member
  unfold parseUrl
  rw [List.findIdx?_append, inPath]
  cases query with
  | nil => simp
  | cons byte query => simp [ascii, List.findIdx?_cons]

/-- The members of `HttpParser` that the callbacks use. -/
structure HttpParser where
  request : HttpRequest := {}
  currentHeaderField : Text := []
  currentHeaderValue : Text := []
  rawUrl : Text := []

/-- A callback of `llhttp`. -/
inductive Callback where
  | onMessageBegin
  | onUrl (span : Text)
  | onUrlComplete
  | onHeaderField (span : Text)
  | onHeaderValue (span : Text)
  | onHeaderValueComplete
  | onHeadersComplete (method : Nat) (keepAlive : Bool)
  | onBody (span : Text)

namespace HttpParser

/-- What a callback does. -/
def handle (parser : HttpParser) : Callback → HttpParser
  | .onMessageBegin => {}
  | .onUrl span => { parser with rawUrl := parser.rawUrl ++ span }
  | .onUrlComplete =>
    let url := parseUrl parser.rawUrl
    { parser with request := { parser.request with path := url.1, query := url.2 } }
  | .onHeaderField span =>
    { parser with currentHeaderField := parser.currentHeaderField ++ span }
  | .onHeaderValue span =>
    { parser with currentHeaderValue := parser.currentHeaderValue ++ span }
  | .onHeaderValueComplete =>
    let header := (parser.currentHeaderField, parser.currentHeaderValue)
    { parser with
      request := { parser.request with headers := parser.request.headers ++ [header] }
      currentHeaderField := []
      currentHeaderValue := [] }
  | .onHeadersComplete method keepAlive =>
    { parser with
      request := { parser.request with method := httpMethodFromLlhttp method, keepAlive } }
  | .onBody span =>
    { parser with request := { parser.request with body := parser.request.body ++ span } }

/-- The parser after some callbacks. -/
def run (parser : HttpParser) (callbacks : List Callback) : HttpParser :=
  callbacks.foldl handle parser

variable (parser : HttpParser)

theorem run_append (first second : List Callback) :
    parser.run (first ++ second) = (parser.run first).run second :=
  List.foldl_append ..

/-- Spans have the effect of the whole they are spans of. -/
theorem run_spans {on : Text → Callback} (nothing : ∀ parser, handle parser (on []) = parser)
    (together : ∀ parser first second,
      handle (handle parser (on first)) (on second) = handle parser (on (first ++ second)))
    (spans : List Text) : parser.run (spans.map on) = parser.handle (on spans.flatten) := by
  induction spans generalizing parser with
  | nil => exact (nothing parser).symm
  | cons span spans ih =>
    change run (parser.handle (on span)) _ = _
    rw [ih, together, List.flatten_cons]

theorem run_url (spans : List Text) :
    parser.run (spans.map .onUrl) = parser.handle (.onUrl spans.flatten) :=
  parser.run_spans (by simp [handle]) (by simp [handle]) spans

theorem run_field (spans : List Text) :
    parser.run (spans.map .onHeaderField) = parser.handle (.onHeaderField spans.flatten) :=
  parser.run_spans (by simp [handle]) (by simp [handle]) spans

theorem run_value (spans : List Text) :
    parser.run (spans.map .onHeaderValue) = parser.handle (.onHeaderValue spans.flatten) :=
  parser.run_spans (by simp [handle]) (by simp [handle]) spans

theorem run_body (spans : List Text) :
    parser.run (spans.map .onBody) = parser.handle (.onBody spans.flatten) :=
  parser.run_spans (by simp [handle]) (by simp [handle]) spans

end HttpParser

/-- A field in spans. -/
structure FieldSpans where
  name : List Text
  value : List Text

namespace FieldSpans

/-- The field. -/
def field (spans : FieldSpans) : Text × Text := (spans.name.flatten, spans.value.flatten)

/-- The callbacks for it. -/
def callbacks (spans : FieldSpans) : List Callback :=
  spans.name.map .onHeaderField ++ spans.value.map .onHeaderValue ++ [.onHeaderValueComplete]

end FieldSpans

theorem HttpParser.run_fields (parser : HttpParser) (fields : List FieldSpans)
    (noField : parser.currentHeaderField = []) (noValue : parser.currentHeaderValue = []) :
    parser.run (fields.flatMap FieldSpans.callbacks) =
      { parser with
        request := { parser.request with
          headers := parser.request.headers ++ fields.map FieldSpans.field } } := by
  induction fields generalizing parser with
  | nil => simp [run]
  | cons spans fields ih =>
    rw [List.flatMap_cons, run_append, FieldSpans.callbacks, run_append, run_append, run_field,
      run_value]
    change run (handle _ .onHeaderValueComplete) _ = _
    rw [ih _ rfl rfl]
    simp [handle, noField, noValue, FieldSpans.field]

/-- A message as it is reported. The fields of a trailer are reported after the body. -/
structure Report where
  url : List Text
  fields : List FieldSpans
  method : Nat
  keepAlive : Bool
  body : List Text
  trailer : List FieldSpans := []

namespace Report

/-- The callbacks of a message. -/
def callbacks (report : Report) : List Callback :=
  .onMessageBegin :: report.url.map .onUrl ++ [.onUrlComplete] ++
    report.fields.flatMap FieldSpans.callbacks ++
    [.onHeadersComplete report.method report.keepAlive] ++ report.body.map .onBody ++
    report.trailer.flatMap FieldSpans.callbacks

/-- The request that `HttpParser` makes of the message. -/
def request (report : Report) : HttpRequest := (HttpParser.run {} report.callbacks).request

/-- The request has what was reported, in whatever spans. -/
theorem request_eq (report : Report) :
    report.request =
      { method := httpMethodFromLlhttp report.method
        path := (parseUrl report.url.flatten).1
        query := (parseUrl report.url.flatten).2
        body := report.body.flatten
        keepAlive := report.keepAlive
        headers := (report.fields ++ report.trailer).map FieldSpans.field } := by
  unfold request callbacks
  rw [HttpParser.run_append, HttpParser.run_append, HttpParser.run_append, HttpParser.run_append,
    HttpParser.run_append]
  change (HttpParser.run (HttpParser.run (HttpParser.handle (HttpParser.run (HttpParser.handle
    (HttpParser.run {} (report.url.map .onUrl)) .onUrlComplete) _)
    (.onHeadersComplete report.method report.keepAlive)) _) _).request = _
  rw [HttpParser.run_url, HttpParser.run_fields _ report.fields, HttpParser.run_body,
    HttpParser.run_fields _ report.trailer]
  · simp [HttpParser.handle]
  all_goals rfl

end Report

end UringServer.Web
