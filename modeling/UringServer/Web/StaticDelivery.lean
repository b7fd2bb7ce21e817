import UringServer.Web.HttpStep
import UringServer.Web.Serializers
import UringServer.Web.StaticRoot

/-!
# The answer to a `GET` of a file

`StaticFiles` accepts files of up to 50 MiB, but a response has to fit into one chunk
of the pool, which has 4 MiB. `HttpResponse::Send` of a longer one hands nothing on,
and the request counts as answered: `StaticFiles.large_file_is_not_answered`. A client
that has the file already gets a response without it.
-/

namespace UringServer.Web

open UringServer.Buffer.Pool UringServer.Semantics

namespace HttpSession

variable {Parser : Type} (env : Environment)

/-- `HttpResponse::Send` hands on what `Build` gives. -/
theorem Handling.send_responses {request : Nat} {handling : Handling Parser}
    (unsent : handling.sent = false) :
    ∃ position, (handling.send env request).session.history.responses =
      handling.session.history.responses ++
        (handling.response.build (env.allocate handling.session.history.allocations)
          env.date).toList.map fun bytes => ⟨request, some bytes, position⟩ := by
  unfold Handling.send
  rw [if_neg (by simp [unsent])]
  dsimp only
  cases handling.response.build (env.allocate handling.session.history.allocations) env.date with
  | none => exact ⟨none, (List.append_nil _).symm⟩
  | some bytes => exact ⟨_, rfl⟩

/-- A request that was answered by its handler is not answered again. -/
theorem handleRequest_responses {request : HttpRequest} {session : HttpSession Parser}
    (sent : (session.dispatch env request).sent = true) :
    (session.handleRequest env request).history.responses =
      (session.dispatch env request).session.history.responses := by
  have once : (session.dispatch env request).send env session.history.dispatched =
      session.dispatch env request := if_pos sent
  unfold handleRequest
  rw [once]
  dsimp only
  split_ifs <;> rfl

end HttpSession

namespace StaticFiles

variable {Parser : Type} (httpDate : Int → Text) (files : FileSystem) (static : StaticFiles)

/-- An application with `StaticFiles` as its first middleware; `env` is what comes after it. -/
def serving (env : Environment) : Environment :=
  { env with
    onRequest := fun calls request =>
      let outcome := static.process httpDate files request { keepAlive := request.keepAlive }
      .set outcome.response :: if outcome.sent then [.respond] else env.onRequest calls request }

/-- A `GET` that maps to a readable regular file under the root whose size is accepted. -/
structure MapsTo (root : CanonicalPath) (request : HttpRequest) (file : CanonicalPath)
    (stat : FileStat) (contents : Text) : Prop where
  get : request.method = .get
  located : (static.locate files request.path).bind files.canonical = some file
  under : root.IsAncestor file
  regular : files.isRegularFile file.string = true
  found : files.stat file.string = some stat
  readable : files.contents file.string = some contents
  size : contents.length = stat.size.toNat
  accepted : stat.size ≤ static.opts.maxFileSize

/-- What `strftime` writes into `buf[32]` of `AppendDateHeader` and `buf[64]` of `Process`, for
a `time_t` of 64 bits. -/
structure Dated (date : Text) (stat : FileStat) : Prop where
  date : date.length < 32
  lastModified : (httpDate stat.mtime).length < 64
  mtime : stat.mtime.natAbs ≤ 2 ^ 63

/-- The response that is sent for the file. -/
def answer (request : HttpRequest) (file : CanonicalPath) (stat : FileStat) (contents : Text) :
    HttpResponse :=
  let response : HttpResponse := { keepAlive := request.keepAlive }
  if static.notModified request stat then
    { response.header (ascii "ETag") (generateETag stat) with status := .kNotModified }
  else
    { static.describe httpDate file stat response with status := .kOk, body := contents }

/-- The session hands one response to `Session::Send`, and its body is the one given. -/
def AnsweredWith (env : Environment) (request : HttpRequest) (session : HttpSession Parser)
    (body : Text) : Prop :=
  (session.dispatch env request).response.body = body ∧
    ∃ position, (session.handleRequest env request).history.responses =
      session.history.responses ++ [⟨session.history.dispatched,
        some ((session.dispatch env request).response.serialize env.date), position⟩]

variable {httpDate files static} {root : CanonicalPath} {request : HttpRequest}
  {file : CanonicalPath} {stat : FileStat} {contents : Text}

theorem readBody_all (size : contents.length = stat.size.toNat) :
    readBody stat.size.toNat contents = contents := by
  simp [readBody, ← size]

theorem MapsTo.process (mapsTo : MapsTo files static root request file stat contents)
    (httpDate : Int → Text) (isRoot : static.resolvedRoot = root.string) :
    static.process httpDate files request { keepAlive := request.keepAlive } =
      ⟨true, static.answer httpDate request file stat contents, some file⟩ := by
  have inside : file.string.take static.resolvedRoot.length = static.resolvedRoot := by
    rw [isRoot]
    have starts := CanonicalPath.string_prefix_iff.mpr (.inl mapsTo.under)
    exact (List.prefix_iff_eq_take.mp starts).symm
  have small : ¬ stat.size > static.opts.maxFileSize := UInt64.not_lt.mpr mapsTo.accepted
  simp only [StaticFiles.process, serve, answer, mapsTo.get, mapsTo.located, mapsTo.regular,
    mapsTo.found, mapsTo.readable, readBody_all mapsTo.size, inside, small]
  cases static.notModified request stat <;> simp

/-- A request that the middleware has answered leads to the response that `Build` gives, and to
none if it gives none. -/
theorem serving_responses (env : Environment) (session : HttpSession Parser)
    {response : HttpResponse}
    (answered : static.process httpDate files request { keepAlive := request.keepAlive } =
      ⟨true, response, some file⟩) :
    (session.dispatch (static.serving httpDate files env) request).response = response ∧
      ∃ position, (session.handleRequest (static.serving httpDate files env)
          request).history.responses =
        session.history.responses ++
          (response.build (env.allocate session.history.allocations) env.date).toList.map
            fun bytes => ⟨session.history.dispatched, some bytes, position⟩ := by
  have ops : (static.serving httpDate files env).onRequest session.calls request =
      [.set response, .respond] := by
    simp only [serving, answered]
    rfl
  have dispatched : session.dispatch (static.serving httpDate files env) request =
      ({ response, session := session.recordRequest request } : HttpSession.Handling Parser).send
        (static.serving httpDate files env) session.history.dispatched := by
    unfold HttpSession.dispatch
    rw [ops]
    rfl
  rw [HttpSession.handleRequest_responses _ (by rw [dispatched]; rfl), dispatched]
  exact ⟨rfl, HttpSession.Handling.send_responses _ rfl⟩

theorem answeredWith_iff {env : Environment} {session : HttpSession Parser} {body : Text}
    {response : HttpResponse}
    (answered : static.process httpDate files request { keepAlive := request.keepAlive } =
      ⟨true, response, some file⟩) :
    AnsweredWith (static.serving httpDate files env) request session body ↔
      response.body = body ∧
        (response.build (env.allocate session.history.allocations) env.date).isSome := by
  obtain ⟨dispatched, position, responses⟩ := serving_responses env session answered
  unfold AnsweredWith
  rw [dispatched, responses]
  refine and_congr_right fun _ => ?_
  cases built : response.build (env.allocate session.history.allocations) env.date with
  | none => simp
  | some bytes =>
    obtain ⟨_, _, rfl⟩ := Option.map_eq_some_iff.mp built
    exact iff_of_true ⟨position, rfl⟩ rfl

theorem length_generateETag_le (mtime : stat.mtime.natAbs ≤ 2 ^ 63) :
    (generateETag stat).length ≤ 45 := by
  have size : (decimal stat.size.toNat).length ≤ 20 :=
    length_decimal_le (by decide) (Nat.lt_trans stat.size.toNat_lt (by decide))
  have time : (decimal stat.mtime.natAbs).length ≤ 19 :=
    length_decimal_le (by decide) (Nat.lt_of_le_of_lt mtime (by decide))
  have signed : (decimalInt stat.mtime).length ≤ 20 := by
    unfold decimalInt
    have minus : (ascii "-").length = 1 := rfl
    split_ifs
    · rw [List.length_append]
      omega
    · omega
  have start : (ascii "W/\"").length = 3 := rfl
  have dash : (ascii "-").length = 1 := rfl
  have ending : (ascii "\"").length = 1 := rfl
  simp only [generateETag, List.length_append]
  omega

/-- The fields that describe a file are short. -/
theorem length_describe_le (static : StaticFiles) (file : CanonicalPath) (response : HttpResponse)
    {date : Text} (dated : Dated httpDate date stat) (none_ : response.headers = []) :
    ((static.describe httpDate file stat response).headers.map fun header =>
      header.1.length + header.2.length + 4).sum ≤ 180 := by
  have lastModified := dated.lastModified
  have etag := length_generateETag_le dated.mtime
  have age : (decimal static.opts.maxAge.toNat).length ≤ 10 :=
    length_decimal_le (by decide) (Nat.lt_trans static.opts.maxAge.toNat_lt (by decide))
  have etagName : (ascii "ETag").length = 4 := rfl
  have modifiedName : (ascii "Last-Modified").length = 13 := rfl
  have cacheName : (ascii "Cache-Control").length = 13 := rfl
  have maxAge : (ascii "public, max-age=").length = 16 := rfl
  unfold describe
  split_ifs <;>
    simp only [HttpResponse.header, none_, List.nil_append, List.cons_append, List.map_cons,
      List.map_nil, List.sum_cons, List.sum_nil, List.length_append] <;>
    omega

/-- Everything in front of the body is short. -/
theorem length_answer_le (static : StaticFiles) (request : HttpRequest) (file : CanonicalPath)
    {date : Text} (dated : Dated httpDate date stat)
    (size : contents.length ≤ 50 * 1024 * 1024) :
    ((static.answer httpDate request file stat contents).serialize date).length ≤
      contents.length + 512 := by
  have shortDate := dated.date
  rw [HttpResponse.length_serialize]
  have head := (static.answer httpDate request file stat contents).headLength_le date
  unfold answer at head ⊢
  dsimp only at head ⊢
  split_ifs at head ⊢ with same
  · have status : (decimal HttpStatus.kNotModified.code).length +
        (ascii (httpStatusToString .kNotModified)).length = 15 := by decide
    have empty : (decimal 0).length = 1 := by decide
    have etag := length_generateETag_le dated.mtime
    have etagName : (ascii "ETag").length = 4 := rfl
    simp only [HttpResponse.header, List.nil_append, List.map_cons, List.map_nil, List.sum_cons,
      List.sum_nil, List.length_nil] at head ⊢
    omega
  · have status : (decimal HttpStatus.kOk.code).length +
        (ascii (httpStatusToString .kOk)).length = 5 := by decide
    have digits : (decimal contents.length).length ≤ 8 := length_decimal_le (by decide) (by omega)
    have fields := length_describe_le static file { keepAlive := request.keepAlive } dated rfl
    have mime : (static.describe httpDate file stat
        { keepAlive := request.keepAlive }).contentType.length ≤ 38 :=
      (mimeFromExtension_plain file.extension).1
    dsimp only at head ⊢
    omega

/-- The first response of a new pool is built exactly if it fits into a chunk. -/
theorem build_firstBuffer {response : HttpResponse} {date : Text} (fresh : ChunkPtr)
    (below : (response.serialize date).length < 2 ^ 32) :
    response.build (firstBuffer fresh) date =
      if (response.serialize date).length ≤ 4 * 1024 * 1024 then some (response.serialize date)
      else none := by
  have narrowed : UInt32.ofNat (response.serialize date).length ≤ defaultChunkSize ↔
      (response.serialize date).length ≤ 4 * 1024 * 1024 := by
    rw [UInt32.le_iff_toNat_le, UInt32.toNat_ofNat', Nat.mod_eq_of_lt below]
    rfl
  unfold HttpResponse.build
  dsimp only
  rw [firstBuffer_eq]
  simp only [narrowed]
  split_ifs <;> rfl

theorem body_answer :
    (static.answer httpDate request file stat contents).body = contents ↔
      (static.notModified request stat = true → contents = []) := by
  unfold answer
  dsimp only
  split_ifs with same
  · exact ⟨fun empty _ => empty.symm, fun empty => (empty same).symm⟩
  · exact iff_of_true rfl fun modified => absurd modified same

/-- With the default options and a new pool with the default arguments, a `GET` that maps to a file
under the root leads to one response with the contents of the file exactly if the response is not
longer than a chunk of the pool and the client does not have the file already, or the file is
empty. -/
theorem static_file_answered_iff {rootFiles : FileSystem} {rootPath : Text} {env : Environment}
    {session : HttpSession Parser} {fresh : ChunkPtr}
    (resolved : rootFiles.canonical rootPath = some root)
    (mapsTo : MapsTo files (ofOptions rootFiles { root := rootPath }) root request file stat
      contents)
    (pool : env.allocate session.history.allocations = firstBuffer fresh)
    (dated : Dated httpDate env.date stat) :
    AnsweredWith ((ofOptions rootFiles { root := rootPath }).serving httpDate files env) request
        session contents ↔
      (((ofOptions rootFiles { root := rootPath }).answer httpDate request file stat
          contents).serialize env.date).length ≤ 4 * 1024 * 1024 ∧
        ((ofOptions rootFiles { root := rootPath }).notModified request stat = true →
          contents = []) := by
  have isRoot : (ofOptions rootFiles { root := rootPath }).resolvedRoot = root.string := by
    rw [ofOptions, resolved]
    rfl
  have small : contents.length ≤ 50 * 1024 * 1024 := by
    rw [mapsTo.size]
    exact UInt64.le_iff_toNat_le.mp mapsTo.accepted
  have short := length_answer_le (ofOptions rootFiles { root := rootPath }) request file dated small
  rw [answeredWith_iff (mapsTo.process httpDate isRoot), body_answer, pool,
    build_firstBuffer fresh (by omega), and_comm]
  refine and_congr_left fun _ => ?_
  split_ifs with fits
  · exact iff_of_true rfl fits
  · exact iff_of_false (by decide) fits

section Runs

/-- An application without a handler, with a new pool. -/
def newPoolEnvironment : Environment :=
  { Environment.quiet with allocate := fun _ => firstBuffer 0 }

/-- The text of a time, here of one time only. -/
def epoch : Int → Text := fun _ => ascii "Thu, 01 Jan 1970 00:00:00 GMT"

/-- The middleware for `/srv/www` with the default options. -/
abbrev wwwStatic : StaticFiles := ofOptions wwwFiles { root := ascii "/srv/www" }

/-- A request for `/srv/www/a.txt`. -/
abbrev getFile : HttpRequest := { method := .get, path := ascii "/a.txt" }

/-- The files of `wwwFiles` with other contents. -/
def filesWith (contents : Text) : FileSystem :=
  { wwwFiles with
    stat := fun _ => some ⟨UInt64.ofNat contents.length, 0⟩
    contents := fun _ => some contents }

theorem mapsTo_filesWith (accepted : contents.length ≤ 50 * 1024 * 1024) :
    MapsTo (filesWith contents) wwwStatic wwwRoot getFile insideFile
      ⟨UInt64.ofNat contents.length, 0⟩ contents := by
  have size : (UInt64.ofNat contents.length).toNat = contents.length := by
    rw [UInt64.toNat_ofNat']
    omega
  refine ⟨rfl, rfl, by decide, rfl, rfl, rfl, size.symm, ?_⟩
  rw [UInt64.le_iff_toNat_le, size]
  exact accepted

theorem dated_epoch (size : UInt64) : Dated epoch newPoolEnvironment.date ⟨size, 0⟩ :=
  ⟨by decide, by simp only [epoch]; decide, Nat.zero_le _⟩

theorem modified_getFile (stat : FileStat) : ¬ wwwStatic.notModified getFile stat = true := by
  have noHeader : getFile.getHeader (ascii "If-None-Match") = [] := rfl
  simp [notModified, noHeader]

/-- A file of six bytes is answered. -/
theorem static_file_answered_iff_public :
    AnsweredWith (wwwStatic.serving epoch (filesWith (ascii "public")) newPoolEnvironment) getFile
      (HttpSession.start headParser false false) (ascii "public") := by
  have size : (ascii "public").length = 6 := rfl
  have small : (ascii "public").length ≤ 50 * 1024 * 1024 := by omega
  have dated := dated_epoch (UInt64.ofNat (ascii "public").length)
  have short := length_answer_le wwwStatic getFile insideFile dated small
  have fits : ((wwwStatic.answer epoch getFile insideFile
      ⟨UInt64.ofNat (ascii "public").length, 0⟩ (ascii "public")).serialize
        newPoolEnvironment.date).length ≤ 4 * 1024 * 1024 := by omega
  exact (static_file_answered_iff rfl (mapsTo_filesWith small) rfl dated).mpr
    ⟨fits, fun same => absurd same (modified_getFile _)⟩

/-- For a file of 4 MiB nothing is handed to `Session::Send`. -/
theorem large_file_is_not_answered :
    ∃ contents : Text, contents.length = 4 * 1024 * 1024 ∧
      MapsTo (filesWith contents) wwwStatic wwwRoot getFile insideFile
        ⟨UInt64.ofNat contents.length, 0⟩ contents ∧
      Dated epoch newPoolEnvironment.date ⟨UInt64.ofNat contents.length, 0⟩ ∧
      ((HttpSession.start headParser false false).handleRequest
        (wwwStatic.serving epoch (filesWith contents) newPoolEnvironment)
        getFile).history.responses = [] := by
  obtain ⟨contents, length⟩ : ∃ contents : Text, contents.length = 4 * 1024 * 1024 :=
    ⟨List.replicate (4 * 1024 * 1024) 0, List.length_replicate⟩
  have small : contents.length ≤ 50 * 1024 * 1024 := by omega
  have mapsTo := mapsTo_filesWith small
  have dated := dated_epoch (UInt64.ofNat contents.length)
  refine ⟨contents, length, mapsTo, dated, ?_⟩
  have short := length_answer_le wwwStatic getFile insideFile dated small
  have body : (wwwStatic.answer epoch getFile insideFile ⟨UInt64.ofNat contents.length, 0⟩
      contents).body = contents :=
    body_answer.mpr fun same => absurd same (modified_getFile _)
  obtain ⟨_, position, responses⟩ := serving_responses newPoolEnvironment
    (HttpSession.start headParser false false) (mapsTo.process epoch rfl)
  generalize wwwStatic.answer epoch getFile insideFile _ contents = response
    at short body responses
  have long : ¬ (response.serialize newPoolEnvironment.date).length ≤ 4 * 1024 * 1024 := by
    rw [HttpResponse.length_serialize, body, HttpResponse.headLength]
    omega
  have built : response.build (firstBuffer 0) newPoolEnvironment.date = none := by
    rw [build_firstBuffer 0 (by omega), if_neg long]
  rw [responses]
  change [] ++ (response.build (firstBuffer 0) newPoolEnvironment.date).toList.map _ = []
  rw [built]
  rfl

end Runs

end StaticFiles

end UringServer.Web
