import UringServer.Web.RequestFraming

/-!
# `ReverseProxy::SerializeRequest`

The request that the proxy sends to an upstream, for a message as `llhttp`
accepts it: a target without blanks, fields whose names are tokens, and a body
that is framed by the fields. The body is reported without the chunked coding,
while the field that announces the coding is copied.
-/

namespace UringServer.Web

open UringServer.Semantics

/-- The value of a field, without the blanks before it. -/
def isFieldContent (value : Text) : Bool :=
  value.all (· ≠ 0x0D) && value.dropWhile isBlank = value

/-- The numbers that `llhttp` gives to the methods that the server knows. -/
def llhttpMethods : List (Text × Nat) :=
  [(ascii "DELETE", 0), (ascii "GET", 1), (ascii "HEAD", 2), (ascii "POST", 3), (ascii "PUT", 4),
    (ascii "OPTIONS", 6), (ascii "PATCH", 28)]

/-- A message that a client sends and `llhttp` reports, with the name of its method and with its
body as it was sent. -/
structure ClientMessage extends Report where
  methodName : Text
  coded : Text
  numbered : ∀ name, (name, method) ∈ llhttpMethods → methodName = name
  targetBytes : url.flatten.all (0x20 < ·) = true
  targetStarts : (parseUrl url.flatten).1 ≠ []
  fieldsValid : ((fields ++ trailer).all fun spans =>
    isToken spans.field.1 && isFieldContent spans.field.2) = true
  framed : ∃ framed, framing ((fields ++ trailer).map FieldSpans.field) = some framed ∧
    framed.Frames coded body.flatten

/-- The fields of the message, with those of a trailer. -/
def ClientMessage.headers (message : ClientMessage) : List (Text × Text) :=
  (message.fields ++ message.trailer).map FieldSpans.field

/-- `UpstreamTarget`: the host and the port of a route. A host name has no line break. -/
structure UpstreamTarget where
  host : Text
  port : UInt16
  hostName : 0x0D ∉ host

/-- Whether the proxy takes a field for `Host`. -/
def isHost : Text → Bool
  | [first, second, third, fourth] =>
    (first = 0x48 || first = 0x68) && (second = 0x6F || second = 0x4F) &&
      (third = 0x73 || third = 0x53) && (fourth = 0x74 || fourth = 0x54)
  | _ => false

/-- `ReverseProxy::SerializeRequest`. -/
def serializeRequest (request : HttpRequest) (route : UpstreamTarget) : Text :=
  httpMethodToString request.method ++ ascii " " ++ request.path ++
    (if request.query.isEmpty then [] else ascii "?" ++ request.query) ++ ascii " HTTP/1.1\r\n" ++
    headerLine (ascii "Host") (route.host ++ ascii ":" ++ decimal route.port.toNat) ++
    request.headers.flatMap (fun header =>
      if isHost header.1 then [] else headerLine header.1 header.2) ++
    headerLine (ascii "X-Forwarded-For") (ascii "client") ++
    headerLine (ascii "Connection") (ascii "close") ++ ascii "\r\n" ++ request.body

/-- The upstream reads the request that the client sent. -/
def Forwarded (message : ClientMessage) (bytes : Text) : Prop :=
  ∃ wire, OneRequest bytes wire ∧ wire.method = message.methodName ∧
    parseUrl wire.target = parseUrl message.url.flatten ∧
    kept wire.headers = kept message.headers ∧ wire.body = message.body.flatten

theorem toLower_eq {byte lower : UInt8} (letter : 0x61 ≤ lower ∧ lower ≤ 0x7A) :
    toLower byte = lower ↔ byte = lower - 32 ∨ byte = lower := by
  obtain ⟨least, most⟩ := letter
  unfold toLower
  simp only [← UInt8.toNat_inj, UInt8.le_iff_toNat_le, UInt8.toNat_sub] at *
  split
  · rw [UInt8.toNat_add]
    simp at *
    omega
  · simp at *
    omega

theorem isHost_eq (name : Text) : isHost name = caseInsensitiveEqual name (ascii "Host") := by
  rw [Bool.eq_iff_iff]
  unfold caseInsensitiveEqual
  have lower : (ascii "Host").map toLower = [0x68, 0x6F, 0x73, 0x74] := by decide
  rw [lower]
  rcases name with _ | ⟨first, _ | ⟨second, _ | ⟨third, _ | ⟨fourth, _ | ⟨fifth, rest⟩⟩⟩⟩⟩ <;>
    simp [isHost, toLower_eq]
  rw [and_assoc, and_assoc, or_comm (a := second = 111), or_comm (a := third = 115),
    or_comm (a := fourth = 116)]

/-- The target of the request line. -/
def HttpRequest.target (request : HttpRequest) : Text :=
  request.path ++ if request.query.isEmpty then [] else ascii "?" ++ request.query

/-- The words of the request line. -/
def requestWords (request : HttpRequest) : List Text :=
  [httpMethodToString request.method, request.target, ascii "HTTP/1.1"]

/-- The fields of the request that is sent. -/
def forwardedHeaders (request : HttpRequest) (route : UpstreamTarget) : List (Text × Text) :=
  (ascii "Host", route.host ++ ascii ":" ++ decimal route.port.toNat) ::
    request.headers.filter (fun header => !isHost header.1) ++
    [(ascii "X-Forwarded-For", ascii "client"), (ascii "Connection", ascii "close")]

theorem flatMap_headerLine (headers : List (Text × Text)) :
    headers.flatMap (fun header => if isHost header.1 then [] else headerLine header.1 header.2) =
      unlines ((headers.filter fun header => !isHost header.1).map fieldText) := by
  induction headers with
  | nil => rfl
  | cons header headers ih =>
    rw [List.flatMap_cons, ih, List.filter_cons]
    cases isHost header.1 with
    | false => rfl
    | true => rfl

/-- The request is written line by line. -/
theorem serializeRequest_eq (request : HttpRequest) (route : UpstreamTarget) :
    serializeRequest request route =
      unlines ([0x20].intercalate (requestWords request) ::
        (forwardedHeaders request route).map fieldText) ++ crlf ++ request.body := by
  have version : ascii " HTTP/1.1\r\n" = [0x20] ++ (ascii "HTTP/1.1" ++ crlf) := by decide
  have words : ∀ first second third : Text, [0x20].intercalate [first, second, third] =
      first ++ ([0x20] ++ (second ++ ([0x20] ++ third))) := by
    intro first second third
    simp [List.intercalate]
  unfold serializeRequest forwardedHeaders requestWords HttpRequest.target
  rw [flatMap_headerLine, words, version, headerLine_eq, headerLine_eq, headerLine_eq]
  simp only [unlines, List.flatMap_cons, List.map_cons, List.map_append, List.flatMap_append,
    List.append_assoc, List.cons_append, List.map_nil, List.flatMap_nil, List.nil_append]
  rfl

theorem kept_forwardedHeaders (request : HttpRequest) (route : UpstreamTarget) :
    kept (forwardedHeaders request route) = kept request.headers := by
  have same : ∀ headers : List (Text × Text),
      kept (headers.filter fun header => !isHost header.1) = kept headers := by
    intro headers
    unfold kept
    rw [List.filter_filter]
    refine List.filter_congr fun header _ => ?_
    rw [isHost_eq, passedOver]
    cases caseInsensitiveEqual header.1 (ascii "Host") <;> simp
  have first : ∀ value rest, kept ((ascii "Host", value) :: rest) = kept rest := fun _ _ => rfl
  have append : ∀ one other, kept (one ++ other) = kept one ++ kept other := fun _ _ =>
    List.filter_append ..
  rw [forwardedHeaders, List.cons_append, first, append, same]
  exact List.append_nil _

variable (message : ClientMessage) (route : UpstreamTarget)

/-- The fields that are reported can be read again, with the same value. -/
theorem ClientMessage.fields_read {header : Text × Text} (member : header ∈ message.headers) :
    IsField header ∧ header.2.dropWhile isBlank = header.2 := by
  obtain ⟨spans, here, rfl⟩ := List.mem_map.mp member
  obtain ⟨token, content⟩ :=
    Bool.and_eq_true_iff.mp (List.all_eq_true.mp message.fieldsValid spans here)
  obtain ⟨bytes, noBlank⟩ := Bool.and_eq_true_iff.mp content
  have inValue : 0x0D ∉ spans.field.2 := fun member =>
    absurd (List.all_eq_true.mp bytes _ member) (by decide)
  exact ⟨.ofToken token (oneLine_of_not_mem inValue), of_decide_eq_true noBlank⟩

theorem ClientMessage.request_headers : message.request.headers = message.headers := by
  rw [Report.request_eq]
  rfl

theorem host_isField :
    IsField (ascii "Host", route.host ++ ascii ":" ++ decimal route.port.toNat) := by
  refine .ofToken (by decide) (oneLine_of_not_mem fun member => ?_)
  rcases List.mem_append.mp member with inHost | inPort
  · rcases List.mem_append.mp inHost with inName | inColon
    · exact route.hostName inName
    · exact absurd inColon (by decide)
  · exact return_not_mem_decimal _ inPort

theorem forwardedHeaders_isField :
    ∀ header ∈ forwardedHeaders message.request route, IsField header := by
  intro header member
  rw [forwardedHeaders, List.cons_append, List.mem_cons, List.mem_append] at member
  rcases member with rfl | copied | added
  · exact host_isField route
  · rw [message.request_headers] at copied
    exact (message.fields_read (List.mem_of_mem_filter copied)).1
  · rw [List.mem_cons, List.mem_cons] at added
    rcases added with rfl | rfl | none
    · exact .ofToken (by decide) (by decide)
    · exact .ofToken (by decide) (by decide)
    · cases none

/-- Of the fields that are passed on the upstream reads what the client sent. -/
theorem kept_read :
    kept ((forwardedHeaders message.request route).map fun header =>
      (header.1, header.2.dropWhile isBlank)) = kept message.headers := by
  have names : ∀ headers : List (Text × Text),
      kept (headers.map fun header => (header.1, header.2.dropWhile isBlank)) =
        (kept headers).map fun header => (header.1, header.2.dropWhile isBlank) := fun _ =>
    List.filter_map ..
  rw [names, kept_forwardedHeaders, message.request_headers]
  refine (List.map_congr_left fun header member => ?_).trans (List.map_id _)
  rw [(message.fields_read (List.mem_of_mem_filter member)).2]
  rfl

theorem target_bytes : ∀ byte ∈ message.request.target, 0x20 < byte := by
  have inUrl : ∀ byte ∈ message.url.flatten, 0x20 < byte := fun byte member =>
    of_decide_eq_true (List.all_eq_true.mp message.targetBytes byte member)
  intro byte member
  rw [HttpRequest.target, Report.request_eq, List.mem_append] at member
  rcases member with inPath | inQuery
  · exact inUrl byte (mem_of_mem_path inPath)
  · split at inQuery
    · cases inQuery
    · rcases List.mem_append.mp inQuery with mark | inQuery
      · rw [List.mem_singleton.mp mark]
        decide
      · exact inUrl byte (mem_of_mem_query inQuery)

theorem requestWords_bytes :
    ∀ word ∈ requestWords message.request, ∀ byte ∈ word, 0x20 < byte := by
  have methods : ∀ method, ∀ byte ∈ httpMethodToString method, 0x20 < byte := by
    intro method byte member
    have all : (httpMethodToString method).all (0x20 < ·) = true := by cases method <;> decide
    simpa using List.all_eq_true.mp all byte member
  intro word member
  rw [requestWords, List.mem_cons, List.mem_cons, List.mem_singleton] at member
  rcases member with rfl | rfl | rfl
  · exact methods _
  · exact target_bytes message
  · have all : (ascii "HTTP/1.1").all (0x20 < ·) = true := by decide
    exact fun byte member => by simpa using List.all_eq_true.mp all byte member

/-- The request line is read as it was written. -/
theorem requestLine_words :
    requestLine ([0x20].intercalate (requestWords message.request)) =
      some (httpMethodToString message.request.method, message.request.target) := by
  have words : List.splitOn 0x20 ([0x20].intercalate (requestWords message.request)) =
      requestWords message.request :=
    List.splitOn_intercalate 0x20
      (fun word member space => absurd (requestWords_bytes message word member _ space) (by decide))
      (by nofun)
  have filled : message.request.target ≠ [] := by
    rw [HttpRequest.target, Report.request_eq]
    exact List.append_ne_nil_of_left_ne_nil message.targetStarts _
  unfold requestLine
  rw [words]
  exact if_pos ⟨filled, rfl⟩

theorem requestLine_oneLine : OneLine ([0x20].intercalate (requestWords message.request)) := by
  have inWord := requestWords_bytes message
  refine oneLine_of_not_mem fun member => ?_
  simp only [requestWords, List.intercalate, List.intersperse, List.flatten_cons, List.flatten_nil,
    List.mem_append, List.mem_cons, List.not_mem_nil, or_false] at member
  rcases member with inMethod | space | inTarget | space | inVersion
  · exact absurd (inWord _ (by simp [requestWords]) _ inMethod) (by decide)
  · exact absurd space (by decide)
  · exact absurd (inWord _ (by simp [requestWords]) _ inTarget) (by decide)
  · exact absurd space (by decide)
  · exact absurd inVersion (by decide)

/-- The bytes are read as the lines they were written in. -/
theorem exists_stream : ∃ stream : HeadedStream,
    stream.bytes = serializeRequest message.request route ∧
      splitLines stream.head = [0x20].intercalate (requestWords message.request) ::
        (forwardedHeaders message.request route).map fieldText ∧
      stream.rest = message.body.flatten := by
  rw [serializeRequest_eq]
  have body : message.request.body = message.body.flatten := by rw [Report.request_eq]
  rw [body]
  refine exists_headedStream _ _ _ ?_ ?_
  · intro line member
    rcases List.mem_cons.mp member with rfl | member
    · exact requestLine_oneLine message
    · obtain ⟨header, here, rfl⟩ := List.mem_map.mp member
      exact (forwardedHeaders_isField message route header here).oneLine
  · intro empty
    obtain ⟨header, -, nothing⟩ := List.mem_map.mp empty
    exact fieldText_ne_nil header nothing

/-- A body that is not chunked is sent as it was. -/
theorem BodyFraming.Frames.plain {framed : BodyFraming} {coded body : Text}
    (frames : framed.Frames coded body) (plain : framed ≠ .chunked) : framed.Frames body body := by
  cases framed with
  | chunked => exact absurd rfl plain
  | length count => exact ⟨rfl, frames.2⟩
  | none => exact ⟨rfl, frames.2⟩

theorem framing_eq_chunked {headers : List (Text × Text)} :
    framing headers = some .chunked ↔ isChunked headers = true := by
  unfold framing
  cases isChunked headers with
  | true => simp
  | false =>
    refine iff_of_false ?_ (by nofun)
    rw [if_neg (by nofun)]
    split
    · nofun
    · rw [Option.map_eq_some_iff]
      rintro ⟨count, -, clash⟩
      cases clash
    · nofun

/-- The name that is sent for a known method is the one that the client sent. -/
theorem httpMethodToString_request (known : message.request.method ≠ .unknown) :
    httpMethodToString message.request.method = message.methodName := by
  have numbered := message.numbered
  rw [Report.request_eq] at known ⊢
  dsimp only at known ⊢
  generalize message.method = method at known numbered
  unfold httpMethodFromLlhttp at known ⊢
  split at known
  case h_8 => exact absurd rfl known
  all_goals exact (numbered _ (by decide)).symm

/-- The request as the upstream reads it, if it is not chunked. -/
theorem forwarded_of_not_chunked (known : message.request.method ≠ .unknown)
    (plain : isChunked message.headers = false) :
    Forwarded message (serializeRequest message.request route) := by
  obtain ⟨stream, bytes, lines, rest⟩ := exists_stream message route
  obtain ⟨framed, isFramed, frames⟩ := message.framed
  let wire : WireRequest :=
    { method := message.methodName
      target := message.request.target
      headers := (forwardedHeaders message.request route).map fun header =>
        (header.1, header.2.dropWhile isBlank)
      body := message.body.flatten }
  have sameFraming : framing wire.headers = some framed := by
    rw [← framing_kept, kept_read, framing_kept]
    exact isFramed
  have notChunked : framed ≠ .chunked := by
    rintro rfl
    rw [framing_eq_chunked, ← isChunked_kept, kept_read, isChunked_kept, plain] at sameFraming
    cases sameFraming
  have hasHead : wire.HasHead stream.head := by
    constructor
    · rw [lines]
      change requestLine ([0x20].intercalate (requestWords message.request)) =
        some (message.methodName, message.request.target)
      rw [← httpMethodToString_request message known]
      exact requestLine_words message
    · rw [lines]
      exact mapM_field (forwardedHeaders_isField message route)
  have framesBody : framed.Frames stream.rest wire.body := by
    rw [rest]
    exact frames.plain notChunked
  have target : parseUrl wire.target = parseUrl message.url.flatten := by
    change parseUrl (HttpRequest.target message.request) = _
    rw [Report.request_eq]
    exact parseUrl_append (question_not_mem_path _) _
  exact ⟨wire, ⟨stream, bytes, hasHead, framed, sameFraming, framesBody⟩, rfl, target,
    kept_read message route, rfl⟩

/-- A body that is sent without its coding is not read with it. -/
theorem not_forwarded_of_chunked (chunked : isChunked message.headers = true) :
    ¬ Forwarded message (serializeRequest message.request route) := by
  rintro ⟨wire, ⟨other, otherBytes, -, framed, isFramed, frames⟩, -, -, same, content⟩
  have wireChunked : isChunked wire.headers = true := by
    rw [← isChunked_kept, same, isChunked_kept, chunked]
  rw [framing_eq_chunked.mpr wireChunked, Option.some.injEq] at isFramed
  subst isFramed
  -- The body would have to be longer than itself.
  obtain ⟨stream, bytes, -, rest⟩ := exists_stream message route
  have sameRest := (HeadedStream.unique (otherBytes.trans bytes.symm)).2
  have shorter := ChunkedData.length_lt frames
  rw [content, sameRest, rest] at shorter
  exact Nat.lt_irrefl _ shorter

/-- The upstream reads the request of the client exactly if the client did not send a chunked
body: the body is sent without the coding that a copied field announces. -/
theorem forwarded_iff_not_chunked (known : message.request.method ≠ .unknown) :
    Forwarded message (serializeRequest message.request route) ↔
      isChunked message.headers = false := by
  constructor
  · intro forwarded
    rw [Bool.eq_false_iff]
    exact fun chunked => not_forwarded_of_chunked message route chunked forwarded
  · exact forwarded_of_not_chunked message route known

/-- A route. -/
def gateway : UpstreamTarget := ⟨ascii "gateway", 8000, by decide⟩

/-- A message whose target is reported in two spans, with a body of a given length. -/
def postedForm : ClientMessage where
  url := [ascii "/api?", ascii "user=1"]
  fields := [⟨[ascii "Host"], [ascii "a.b"]⟩, ⟨[ascii "Content-", ascii "Length"], [ascii "5"]⟩]
  method := 3
  keepAlive := true
  body := [ascii "hel", ascii "lo"]
  methodName := ascii "POST"
  coded := ascii "hello"
  numbered := by simp [llhttpMethods]
  targetBytes := by decide
  targetStarts := by decide
  fieldsValid := by decide
  framed := ⟨.length 5, by decide, rfl, rfl⟩

theorem postedForm_forwarded :
    postedForm.request.method ≠ .unknown ∧ isChunked postedForm.headers = false ∧
      Forwarded postedForm (serializeRequest postedForm.request gateway) := by
  have known : postedForm.request.method ≠ .unknown := by decide
  have plain : isChunked postedForm.headers = false := by decide
  exact ⟨known, plain, (forwarded_iff_not_chunked postedForm gateway known).mpr plain⟩

/-- The same body in one chunk. -/
def postedChunk : ClientMessage where
  url := [ascii "/api"]
  fields := [⟨[ascii "Host"], [ascii "a.b"]⟩, ⟨[ascii "Transfer-Encoding"], [ascii "chunked"]⟩]
  method := 3
  keepAlive := true
  body := [ascii "hello"]
  methodName := ascii "POST"
  coded := ascii "5" ++ (crlf ++ (ascii "hello" ++ (crlf ++ (ascii "0" ++ (crlf ++ crlf)))))
  numbered := by simp [llhttpMethods]
  targetBytes := by decide
  targetStarts := by decide
  fieldsValid := by decide
  framed := ⟨.chunked, by decide,
    .chunk (by decide) (by decide) (by decide) (.last (by decide) (by decide) .empty)⟩

theorem postedChunk_not_forwarded :
    postedChunk.request.method ≠ .unknown ∧
      ¬ Forwarded postedChunk (serializeRequest postedChunk.request gateway) :=
  ⟨by decide, not_forwarded_of_chunked postedChunk gateway (by decide)⟩

end UringServer.Web
