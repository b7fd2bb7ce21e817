import UringServer.Web.HttpMessage

/-!
# `StaticFiles`

The middleware that answers from files. The file system is a parameter; what is
known of it is that `canonical` gives absolute paths without `.`, `..` and
symbolic links. A path is the text of a `std::filesystem::path`.
-/

namespace UringServer.Web

open UringServer.Semantics

namespace HttpStatus

def kNotModified : HttpStatus := ⟨304⟩
def kForbidden : HttpStatus := ⟨403⟩
def kPayloadTooLarge : HttpStatus := ⟨413⟩

end HttpStatus

/-- A component of a canonical path. -/
def isFileName (name : Text) : Bool :=
  !name.isEmpty && !name.contains slash && name ≠ ascii "." && name ≠ ascii ".."

/-- What `std::filesystem::canonical` returns. -/
structure CanonicalPath where
  components : List Text
  named : components.all isFileName = true

namespace CanonicalPath

/-- The text of a canonical path. -/
def string (path : CanonicalPath) : Text :=
  if path.components.isEmpty then [slash] else path.components.flatMap (slash :: ·)

/-- `path::extension`: from the last dot of the file name on, unless it starts the name. -/
def extension (path : CanonicalPath) : Text :=
  let name := path.components.getLastD []
  let tail := (name.reverse.takeWhile (· ≠ 0x2E)).reverse
  if tail.length + 1 < name.length then 0x2E :: tail else []

end CanonicalPath

/-- The size and the time of the last change of a file. -/
structure FileStat where
  size : UInt64
  mtime : Int

/-- The file system, as it is while a request is handled. -/
structure FileSystem where
  isDirectory : Text → Bool
  isRegularFile : Text → Bool
  canonical : Text → Option CanonicalPath
  stat : Text → Option FileStat
  contents : Text → Option Text

/-- `path::operator/`. -/
def joinPath (base child : Text) : Text :=
  if child.head? = some slash then
    child
  else if base.isEmpty ∨ base.getLast? = some slash then
    base ++ child
  else
    base ++ slash :: child

/-- `StaticFilesOptions`. -/
structure StaticFilesOptions where
  root : Text
  prefixPath : Text := [slash]
  enableEtag : Bool := true
  enableLastModified : Bool := true
  maxAge : UInt32 := 3600
  indexFiles : List Text := [ascii "index.html"]
  maxFileSize : UInt64 := 50 * 1024 * 1024

/-- The members of `StaticFiles`. -/
structure StaticFiles where
  opts : StaticFilesOptions
  resolvedRoot : Text

/-- The prefix between slashes. -/
def slashed (prefixPath : Text) : Text :=
  let ended := if !prefixPath.isEmpty && prefixPath.getLast? ≠ some slash then
    prefixPath ++ [slash] else prefixPath
  if ended.head? ≠ some slash then slash :: ended else ended

/-- `StaticFiles::StaticFiles`. -/
def StaticFiles.ofOptions (files : FileSystem) (opts : StaticFilesOptions) : StaticFiles where
  opts := { opts with prefixPath := slashed opts.prefixPath }
  resolvedRoot := ((files.canonical opts.root).map CanonicalPath.string).getD opts.root

/-- The types that `MimeFromExtension` knows. -/
def mimeTypes : List (String × String) :=
  [(".html", "text/html; charset=utf-8"), (".htm", "text/html; charset=utf-8"),
    (".css", "text/css; charset=utf-8"), (".js", "application/javascript; charset=utf-8"),
    (".json", "application/json; charset=utf-8"), (".xml", "application/xml; charset=utf-8"),
    (".txt", "text/plain; charset=utf-8"), (".csv", "text/csv; charset=utf-8"),
    (".png", "image/png"), (".jpg", "image/jpeg"), (".jpeg", "image/jpeg"),
    (".gif", "image/gif"), (".svg", "image/svg+xml"), (".ico", "image/x-icon"),
    (".webp", "image/webp"), (".avif", "image/avif"), (".bmp", "image/bmp"),
    (".woff", "font/woff"), (".woff2", "font/woff2"), (".ttf", "font/ttf"),
    (".otf", "font/otf"), (".eot", "application/vnd.ms-fontobject"),
    (".wasm", "application/wasm"), (".pdf", "application/pdf"), (".zip", "application/zip"),
    (".gz", "application/gzip"), (".mp4", "video/mp4"), (".webm", "video/webm"),
    (".mp3", "audio/mpeg"), (".ogg", "audio/ogg"), (".wav", "audio/wav"),
    (".map", "application/json")]

/-- `StaticFiles::MimeFromExtension`. -/
def mimeFromExtension (ext : Text) : Text :=
  ascii ((mimeTypes.find? fun entry => ascii entry.1 = ext).elim "application/octet-stream"
    Prod.snd)

/-- The types are short, and each stands on one line. -/
theorem mimeFromExtension_plain (ext : Text) :
    (mimeFromExtension ext).length ≤ 38 ∧ 0x0D ∉ mimeFromExtension ext := by
  have types : mimeTypes.all (fun entry =>
      (ascii entry.2).length ≤ 38 ∧ 0x0D ∉ ascii entry.2) = true := by decide +kernel
  unfold mimeFromExtension
  cases found : mimeTypes.find? fun entry => ascii entry.1 = ext with
  | none => decide
  | some entry =>
    exact of_decide_eq_true
      (List.all_eq_true.mp types entry (List.mem_of_find?_eq_some found))

/-- `std::to_string`. -/
def decimalInt (value : Int) : Text :=
  if value < 0 then ascii "-" ++ decimal value.natAbs else decimal value.natAbs

/-- `StaticFiles::GenerateETag`. -/
def generateETag (stat : FileStat) : Text :=
  ascii "W/\"" ++ decimal stat.size.toNat ++ ascii "-" ++ decimalInt stat.mtime ++ ascii "\""

/-- `HttpResponse::Header`. -/
def HttpResponse.header (response : HttpResponse) (name value : Text) : HttpResponse :=
  { response with headers := response.headers ++ [(name, value)] }

/-- What a run of the middleware leaves: whether it has sent the response or gone on with it, and
the file of which the response has contents or metadata. -/
structure StaticOutcome where
  sent : Bool
  response : HttpResponse
  file : Option CanonicalPath := none

namespace StaticFiles

/-- The path in the file system that a request leads to. -/
def locate (files : FileSystem) (static : StaticFiles) (path : Text) : Option Text :=
  if path.take static.opts.prefixPath.length ≠ static.opts.prefixPath then
    none
  else
    let fsPath := joinPath static.resolvedRoot (path.drop static.opts.prefixPath.length)
    if files.isDirectory fsPath then
      (static.opts.indexFiles.map (joinPath fsPath)).find? files.isRegularFile
    else
      some fsPath

/-- The response with the fields that describe the file. `httpDate` writes a time. -/
def describe (httpDate : Int → Text) (static : StaticFiles) (resolved : CanonicalPath)
    (stat : FileStat) (response : HttpResponse) : HttpResponse :=
  let response := if static.opts.enableEtag then
    response.header (ascii "ETag") (generateETag stat) else response
  let response := if static.opts.enableLastModified then
    response.header (ascii "Last-Modified") (httpDate stat.mtime) else response
  { response.header (ascii "Cache-Control")
      (ascii "public, max-age=" ++ decimal static.opts.maxAge.toNat) with
    contentType := mimeFromExtension resolved.extension }

/-- Whether the client has this version of the file. -/
def notModified (static : StaticFiles) (request : HttpRequest) (stat : FileStat) : Bool :=
  let ifNoneMatch := request.getHeader (ascii "If-None-Match")
  static.opts.enableEtag && !ifNoneMatch.isEmpty && ifNoneMatch = generateETag stat

/-- The bytes that are read into a body of the size of the file. -/
def readBody (size : Nat) (contents : Text) : Text :=
  contents.take size ++ List.replicate (size - contents.length) 0

/-- `StaticFiles::Process` from the size check on. -/
def serve (httpDate : Int → Text) (files : FileSystem) (static : StaticFiles)
    (request : HttpRequest) (resolved : CanonicalPath) (stat : FileStat)
    (response : HttpResponse) : StaticOutcome :=
  if stat.size > static.opts.maxFileSize then
    ⟨true, { response with
      status := .kPayloadTooLarge
      contentType := ascii "text/plain"
      body := ascii "File Too Large" }, some resolved⟩
  else if static.notModified request stat then
    ⟨true, { response.header (ascii "ETag") (generateETag stat) with status := .kNotModified },
      some resolved⟩
  else
    let described := static.describe httpDate resolved stat response
    if request.method = .head then
      ⟨true, { described.header (ascii "Content-Length") (decimal stat.size.toNat) with
        status := .kOk }, some resolved⟩
    else
      match files.contents resolved.string with
      | none => ⟨false, described, some resolved⟩
      | some contents =>
        ⟨true, { described with status := .kOk, body := readBody stat.size.toNat contents },
          some resolved⟩

/-- `StaticFiles::Process`. -/
def process (httpDate : Int → Text) (files : FileSystem) (static : StaticFiles)
    (request : HttpRequest) (response : HttpResponse) : StaticOutcome :=
  if request.method ≠ .get ∧ request.method ≠ .head then
    ⟨false, response, none⟩
  else
    match (static.locate files request.path).bind files.canonical with
    | none => ⟨false, response, none⟩
    | some resolved =>
      if resolved.string.take static.resolvedRoot.length ≠ static.resolvedRoot then
        ⟨true, { response with
          status := .kForbidden
          contentType := ascii "text/plain"
          body := ascii "Forbidden" }, none⟩
      else if files.isRegularFile resolved.string = false then
        ⟨false, response, none⟩
      else
        match files.stat resolved.string with
        | none => ⟨false, response, none⟩
        | some stat => static.serve httpDate files request resolved stat response

end StaticFiles

end UringServer.Web
