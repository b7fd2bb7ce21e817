import UringServer.Web.RadixTree
import UringServer.Web.WsEncode

/-!
# Requests and responses

`HttpRequest` with the lookup of its headers and `HttpResponse` with the bytes
that `Build` writes. The clock is given as the text of the `Date` field.
-/

namespace UringServer.Web

open UringServer.Semantics

/-- `HttpRequest`, without the lazily parsed query parameters. -/
structure HttpRequest where
  method : HttpMethod := .unknown
  path : Text := []
  query : Text := []
  body : Text := []
  keepAlive : Bool := true
  authenticatedUserId : Text := []
  headers : List (Text × Text) := []
  params : List (Text × StringView) := []
deriving DecidableEq

/-- `HttpRequest::ToLower`. -/
def toLower (byte : UInt8) : UInt8 := if 0x41 ≤ byte ∧ byte ≤ 0x5A then byte + 32 else byte

/-- `HttpRequest::CaseInsensitiveEqual`. -/
def caseInsensitiveEqual (a b : Text) : Bool := a.map toLower = b.map toLower

/-- `HttpRequest::GetHeader`. -/
def HttpRequest.getHeader (request : HttpRequest) (name : Text) : Text :=
  ((request.headers.find? fun header => caseInsensitiveEqual header.1 name).map Prod.snd).getD []

/-- The values of `HttpStatus`. -/
structure HttpStatus where
  code : Nat
deriving DecidableEq

namespace HttpStatus

def kOk : HttpStatus := ⟨200⟩
def kBadRequest : HttpStatus := ⟨400⟩
def kUnauthorized : HttpStatus := ⟨401⟩
def kNotFound : HttpStatus := ⟨404⟩
def kMethodNotAllowed : HttpStatus := ⟨405⟩
def kInternalServerError : HttpStatus := ⟨500⟩
end HttpStatus

/-- `HttpStatusToString`. -/
def httpStatusToString (status : HttpStatus) : String :=
  match status.code with
  | 200 => "OK"
  | 201 => "Created"
  | 204 => "No Content"
  | 301 => "Moved Permanently"
  | 302 => "Found"
  | 304 => "Not Modified"
  | 400 => "Bad Request"
  | 401 => "Unauthorized"
  | 403 => "Forbidden"
  | 404 => "Not Found"
  | 405 => "Method Not Allowed"
  | 408 => "Request Timeout"
  | 413 => "Payload Too Large"
  | 414 => "URI Too Long"
  | 500 => "Internal Server Error"
  | 501 => "Not Implemented"
  | 502 => "Bad Gateway"
  | 503 => "Service Unavailable"
  | _ => "Unknown"

/-- `std::to_string` of a number that is not negative. -/
def decimal (value : Nat) : Text := (Nat.toDigits 10 value).map fun digit => digit.toNat.toUInt8

/-- A decimal number is written in digits. -/
theorem digit_of_mem_decimal {value : Nat} {byte : UInt8} (member : byte ∈ decimal value) :
    0x30 ≤ byte ∧ byte ≤ 0x39 := by
  obtain ⟨digit, here, rfl⟩ := List.mem_map.mp member
  have isDigit := Nat.isDigit_of_mem_toDigits (by decide) (by decide) here
  simp only [Char.isDigit, Bool.and_eq_true, decide_eq_true_eq] at isDigit
  have least : 48 ≤ digit.toNat := isDigit.1
  have most : digit.toNat ≤ 57 := isDigit.2
  have same : digit.toNat.toUInt8.toNat = digit.toNat := by
    rw [Nat.toUInt8, UInt8.toNat_ofNat']
    omega
  rw [UInt8.le_iff_toNat_le, UInt8.le_iff_toNat_le, same]
  exact ⟨least, most⟩

theorem length_decimal_le {value count : Nat} (positive : 0 < count) (below : value < 10 ^ count) :
    (decimal value).length ≤ count := by
  rw [decimal, List.length_map, Nat.length_toDigits_le_iff (by decide) positive]
  exact below

/-- `HttpResponse` that is bound to a session. -/
structure HttpResponse where
  status : HttpStatus := .kOk
  headers : List (Text × Text) := []
  contentType : Text := []
  body : Text := []
  keepAlive : Bool := true
deriving DecidableEq

/-- One header line. -/
def headerLine (name value : Text) : Text := name ++ ascii ": " ++ value ++ ascii "\r\n"

/-- What `HttpResponse::Build` serializes. -/
def HttpResponse.serialize (response : HttpResponse) (date : Text) : Text :=
  ascii "HTTP/1.1 " ++ decimal response.status.code ++ ascii " " ++
    ascii (httpStatusToString response.status) ++ ascii "\r\n" ++
    ascii "Server: serverweb\r\n" ++ headerLine (ascii "Date") date ++
    (if response.contentType.isEmpty then []
      else headerLine (ascii "Content-Type") response.contentType) ++
    headerLine (ascii "Content-Length") (decimal response.body.length) ++
    headerLine (ascii "Connection")
      (if response.keepAlive then ascii "keep-alive" else ascii "close") ++
    response.headers.flatMap (fun header => headerLine header.1 header.2) ++
    ascii "\r\n" ++ response.body

@[simp] theorem length_headerLine (name value : Text) :
    (headerLine name value).length = name.length + value.length + 4 := by
  simp only [headerLine, List.length_append]
  have colon : (ascii ": ").length = 2 := rfl
  have ending : (ascii "\r\n").length = 2 := rfl
  omega

/-- The number of bytes in front of the body. -/
def HttpResponse.headLength (response : HttpResponse) (date : Text) : Nat :=
  73 + (decimal response.status.code).length +
    (ascii (httpStatusToString response.status)).length + date.length +
    (if response.contentType.isEmpty then 0 else response.contentType.length + 16) +
    (decimal response.body.length).length + (if response.keepAlive then 10 else 5) +
    (response.headers.map fun header => header.1.length + header.2.length + 4).sum

theorem HttpResponse.length_serialize (response : HttpResponse) (date : Text) :
    (response.serialize date).length = response.headLength date + response.body.length := by
  have version : (ascii "HTTP/1.1 ").length = 9 := rfl
  have blank : (ascii " ").length = 1 := rfl
  have ending : (ascii "\r\n").length = 2 := rfl
  have server : (ascii "Server: serverweb\r\n").length = 19 := rfl
  have dateName : (ascii "Date").length = 4 := rfl
  have typeName : (ascii "Content-Type").length = 12 := rfl
  have lengthName : (ascii "Content-Length").length = 14 := rfl
  have connectionName : (ascii "Connection").length = 10 := rfl
  have keepAlive : (ascii "keep-alive").length = 10 := rfl
  have close : (ascii "close").length = 5 := rfl
  simp only [serialize, headLength, List.length_append, length_headerLine, List.length_flatMap,
    apply_ite List.length, List.length_nil, *]
  split_ifs <;> omega

theorem HttpResponse.headLength_le (response : HttpResponse) (date : Text) :
    response.headLength date ≤ 99 + (decimal response.status.code).length +
      (ascii (httpStatusToString response.status)).length + date.length +
      response.contentType.length + (decimal response.body.length).length +
      (response.headers.map fun header => header.1.length + header.2.length + 4).sum := by
  have typeLine : (if response.contentType.isEmpty then 0 else response.contentType.length + 16) ≤
      response.contentType.length + 16 := by
    split_ifs
    · exact Nat.zero_le _
    · exact Nat.le_refl _
  have connection : (if response.keepAlive then 10 else 5) ≤ 10 := by split_ifs <;> decide
  unfold headLength
  omega

/-- `HttpResponse::Build`: the committed bytes, or no buffer. -/
def HttpResponse.build (response : HttpResponse) (allocate : Allocate) (date : Text) :
    Option Text :=
  let bytes := response.serialize date
  (allocate (UInt32.ofNat bytes.length)).map fun _ => bytes

end UringServer.Web
