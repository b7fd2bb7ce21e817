import UringServer.Web.HttpMessage

/-!
# `WsHandshake`

The check of an upgrade request and the response to it. The digest comes from
OpenSSL and is a parameter.
-/

namespace UringServer.Web

open UringServer.Semantics

/-- `kMagicGuid`. -/
def kMagicGuid : Text := ascii "258EAFA5-E914-47DA-95CA-C5AB0DC85B11"

/-- `CaseInsensitiveContains`. -/
def caseInsensitiveContains (haystack needle : Text) : Bool :=
  if needle.length > haystack.length then
    false
  else
    (List.range (haystack.length - needle.length + 1)).any fun i =>
      ((haystack.drop i).take needle.length).map toLower = needle.map toLower

/-- `WsHandshake::ValidateUpgrade`. -/
def validateUpgrade (request : HttpRequest) : Bool :=
  caseInsensitiveContains (request.getHeader (ascii "Upgrade")) (ascii "websocket") &&
    caseInsensitiveContains (request.getHeader (ascii "Connection")) (ascii "upgrade") &&
    request.getHeader (ascii "Sec-WebSocket-Version") = ascii "13" &&
    !(request.getHeader (ascii "Sec-WebSocket-Key")).isEmpty

/-- The alphabet of the encoding. -/
def base64Table : Text :=
  ascii "ABCDEFGHIJKLMNOPQRSTUVWXYZabcdefghijklmnopqrstuvwxyz0123456789+/"

/-- `table[(n >> shift) & 0x3F]`. -/
def base64Digit (n shift : Nat) : UInt8 := base64Table.getD ((n >>> shift) &&& 0x3F) 0

/-- The encoding loop of `ComputeAcceptKey`, three bytes a turn. -/
def base64 : Text → Text
  | [] => []
  | [a] =>
    let n := a.toNat <<< 16
    [base64Digit n 18, base64Digit n 12, 0x3D, 0x3D]
  | [a, b] =>
    let n := (a.toNat <<< 16) ||| (b.toNat <<< 8)
    [base64Digit n 18, base64Digit n 12, base64Digit n 6, 0x3D]
  | a :: b :: c :: rest =>
    let n := (a.toNat <<< 16) ||| (b.toNat <<< 8) ||| c.toNat
    base64Digit n 18 :: base64Digit n 12 :: base64Digit n 6 :: base64Digit n 0 :: base64 rest

/-- `WsHandshake::ComputeAcceptKey`. -/
def computeAcceptKey (sha1 : Text → Text) (clientKey : Text) : Text :=
  base64 (sha1 (clientKey ++ kMagicGuid))

/-- The text of `WsHandshake::BuildUpgradeResponse`. -/
def upgradeResponse (acceptKey : Text) : Text :=
  ascii "HTTP/1.1 101 Switching Protocols\r\nUpgrade: websocket\r\nConnection: Upgrade\r\n" ++
    ascii "Sec-WebSocket-Accept: " ++ acceptKey ++ ascii "\r\n\r\n"

/-- `WsHandshake::BuildUpgradeResponse`: the committed bytes, or a null buffer. -/
def buildUpgradeResponse (allocate : Allocate) (acceptKey : Text) : Option Text :=
  let bytes := upgradeResponse acceptKey
  (allocate (UInt32.ofNat bytes.length)).map fun _ => bytes

example : base64 (ascii "Man is") = ascii "TWFuIGlz" := by decide

/-- Who is asked is in the headers alone. -/
theorem validateUpgrade_of_headers {request other : HttpRequest}
    (same : other.headers = request.headers) : validateUpgrade other = validateUpgrade request := by
  unfold validateUpgrade HttpRequest.getHeader
  rw [same]

theorem decimal_no_space (value : Nat) : (0x20 : UInt8) ∉ decimal value := fun member =>
  absurd (digit_of_mem_decimal member).1 (by decide)

/-- No reason phrase begins as that of the upgrade response does. -/
theorem httpStatusToString_not_switching (status : HttpStatus) (rest : Text) :
    ¬ ascii "Sw" <+: ascii (httpStatusToString status) ++ 0x0D :: rest := by
  unfold httpStatusToString
  split <;> simp [ascii]

end UringServer.Web
