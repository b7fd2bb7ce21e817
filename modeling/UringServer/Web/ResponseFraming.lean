import UringServer.Web.RequestFraming
import UringServer.Web.StaticFiles

/-!
# The framing of the responses that are built

`HttpResponse::Build` writes its own `Content-Length` and `Connection` and then
the fields that were added. The proxy adds every field of the upstream's reply;
`StaticFiles` adds a `Content-Length` for `HEAD`.
-/

namespace UringServer.Web

open UringServer.Semantics

/-- A field that says how a message is framed. -/
def isFramingName (name : Text) : Bool :=
  caseInsensitiveEqual name (ascii "Content-Length") ||
    caseInsensitiveEqual name (ascii "Connection") ||
    caseInsensitiveEqual name (ascii "Transfer-Encoding")

/-- What was added to a response can be read again. -/
structure HttpResponse.IsReadable (response : HttpResponse) : Prop where
  headers : ∀ header ∈ response.headers, IsField header
  contentType : OneLine response.contentType

section Build

variable {response : HttpResponse} {date : Text}

end Build

end UringServer.Web
