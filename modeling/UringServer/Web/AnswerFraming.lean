import UringServer.Web.ResponseFraming
import UringServer.Web.StaticRoot

/-!
# The framing of relayed replies and of static files

What the two producers of responses add, and when the bytes that are built from
it are framed in one way.
-/

namespace UringServer.Web

open UringServer.Semantics

/-- A response has what another one has and fields that do not frame it. -/
structure Describes (prior response : HttpResponse) (added : List (Text × Text)) : Prop where
  headers : response.headers = prior.headers ++ added
  areFields : ∀ header ∈ added, IsField header
  noFraming : ∀ header ∈ added, isFramingName header.1 = false
  contentType : OneLine response.contentType

namespace Describes

variable {prior response : HttpResponse} {added : List (Text × Text)}

theorem refl (readable : prior.IsReadable) : Describes prior prior [] :=
  ⟨(List.append_nil _).symm, nofun, nofun, readable.contentType⟩

theorem header (describes : Describes prior response added) {name value : Text}
    (isField : IsField (name, value)) (noFraming : isFramingName name = false) :
    Describes prior (response.header name value) (added ++ [(name, value)]) where
  headers := by rw [HttpResponse.header, describes.headers, List.append_assoc]
  areFields other member := by
    rcases List.mem_append.mp member with earlier | last
    · exact describes.areFields other earlier
    · rw [List.mem_singleton.mp last]
      exact isField
  noFraming other member := by
    rcases List.mem_append.mp member with earlier | last
    · exact describes.noFraming other earlier
    · rw [List.mem_singleton.mp last]
      exact noFraming
  contentType := describes.contentType

/-- Other members than the fields can change. -/
theorem update (describes : Describes prior response added) {changed : HttpResponse}
    (same : changed.headers = response.headers) (contentType : OneLine changed.contentType) :
    Describes prior changed added :=
  ⟨same.trans describes.headers, describes.areFields, describes.noFraming, contentType⟩

end Describes

namespace StaticFiles

variable {httpDate : Int → Text} {files : FileSystem} {static : StaticFiles}
  {request : HttpRequest} {prior : HttpResponse}

end StaticFiles

end UringServer.Web
