import UringServer.Semantics.Loop
import UringServer.Semantics.Search
import UringServer.Semantics.TransitionSystem
import UringServer.Web.RadixTree

/-!
# `UpstreamSession`

The connection of the reverse proxy to an upstream, from the submission of the
connect on: the request is sent once, and what the upstream answers is collected
until it looks complete or the upstream closes the connection.
-/

namespace UringServer.Web

open UringServer.Semantics

def crlf : Text := ascii "\r\n"

/-- The end of the header block. -/
def headerTerminator : Text := ascii "\r\n\r\n"

/-- A decimal digit. -/
def isDigit (byte : UInt8) : Bool := 0x30 ≤ byte && byte ≤ 0x39

/-- The number that decimal digits write. -/
def ofDigits (digits : Text) : Nat :=
  digits.foldl (fun value digit => 10 * value + (digit.toNat - 0x30)) 0

/-- `std::from_chars` into a `std::size_t`: the digits at the start, unless there are none or
the number is too large. -/
def fromChars (chars : Text) : Option Nat :=
  let digits := chars.takeWhile isDigit
  if digits.isEmpty ∨ ofDigits digits ≥ 2 ^ 64 then none else some (ofDigits digits)

/-- `std::from_chars` into an `int`, for as few characters as cannot overflow it. -/
def fromCharsInt (chars : Text) : Option Int :=
  if chars.head? = some 0x2D then
    (fromChars chars.tail).map fun value => -(value : Int)
  else
    (fromChars chars).map fun value => (value : Int)

/-- A call of one of the two callbacks. -/
inductive UpstreamCall where
  | onResponse (statusCode : Int) (headers : List (Text × Text)) (body : Text)
  | onError (error : Text)
deriving DecidableEq

/-- The variables of the loop over the header lines. -/
structure HeaderScan where
  headers : List (Text × Text) := []
  pos : Nat

/-- The field of a header line, if it has a colon. -/
def headerField (line : Text) : List (Text × Text) :=
  match line.findIdx? (· = 0x3A) with
  | some colon => [(line.take colon, (line.drop (colon + 1)).dropWhile (· = 0x20))]
  | none => []

/-- One pass of the loop over the header lines. -/
def headerStep (data : Text) (headerEnd : Nat) (scan : HeaderScan) : Option HeaderScan :=
  if scan.pos < headerEnd then
    match find data crlf scan.pos with
    | none => none
    | some lineEnd =>
      if lineEnd > headerEnd then
        none
      else
        some
          { headers := scan.headers ++ headerField ((data.take lineEnd).drop scan.pos)
            pos := lineEnd + 2 }
  else
    none

theorem headerStep_lt {data : Text} {headerEnd : Nat} {scan next : HeaderScan}
    (taken : headerStep data headerEnd scan = some next) :
    headerEnd - next.pos < headerEnd - scan.pos := by
  unfold headerStep at taken
  split_ifs at taken with inside
  split at taken
  case h_1 => cases taken
  case h_2 lineEnd found =>
    have after := le_of_find found
    split_ifs at taken
    cases taken
    dsimp only
    omega

/-- The loop over the header lines. -/
def headerLoop (data : Text) (headerEnd : Nat) : Loop HeaderScan where
  body := headerStep data headerEnd
  Inv _ := True
  remaining scan := headerEnd - scan.pos
  preserved _ _ := trivial
  decreases _ taken := headerStep_lt taken

/-- The status code in the first line, or why there is none. -/
def statusCode (data : Text) : Except Text Int :=
  match find data crlf 0 with
  | none => .error (ascii "malformed response: no status line")
  | some statusLineEnd =>
    match find (data.take statusLineEnd) [0x20] 0 with
    | none => .error (ascii "malformed status line")
    | some sp1 =>
      match fromCharsInt ((data.drop (sp1 + 1)).take 3) with
      | none => .error (ascii "malformed status code")
      | some code => .ok code

/-- `UpstreamSession::ParseResponse`. The body is all that follows the headers. -/
def parseResponse (data : Text) : UpstreamCall :=
  match find data headerTerminator 0 with
  | none => .onError (ascii "malformed response: no header terminator")
  | some headerEnd =>
    match statusCode data with
    | .error error => .onError error
    | .ok code =>
      let pos := (find data crlf 0).getD 0 + 2
      .onResponse code ((headerLoop data headerEnd).run { pos }).headers
        (data.drop (headerEnd + 4))

/-- Where `OnRecv` finds the length: at the first of one spelling, else of the other. -/
def lengthPosition (data : Text) : Option Nat :=
  (find data (ascii "Content-Length:") 0).or (find data (ascii "content-length:") 0)

/-- The number that `OnRecv` reads at the length field. -/
def contentLength (data : Text) (headerEnd clPos : Nat) : Option Nat :=
  let spaces := (((data.take headerEnd).drop (clPos + 15)).takeWhile (· = 0x20)).length
  let valStart := clPos + 15 + spaces
  let valEnd := min ((find data crlf valStart).getD headerEnd) headerEnd
  fromChars ((data.take valEnd).drop valStart)

/-- Whether a pattern occurs anywhere. -/
def contains (data pattern : Text) : Bool := (find data pattern 0).isSome

/-- The end of a chunked body as `OnRecv` looks for it, anywhere in the data. -/
def chunkedComplete (data : Text) : Bool :=
  (contains data (ascii "Transfer-Encoding: chunked") ||
      contains data (ascii "transfer-encoding: chunked")) &&
    contains data (ascii "\r\n0\r\n\r\n")

/-- The check of `OnRecv` for a complete response. The sum is one of `std::size_t`. -/
def complete (data : Text) : Bool :=
  match find data headerTerminator 0 with
  | none => false
  | some headerEnd =>
    match (lengthPosition data).filter (· < headerEnd) with
    | some clPos =>
      match contentLength data headerEnd clPos with
      | some length => (headerEnd + 4 + length) % 2 ^ 64 ≤ data.length
      | none => false
    | none => chunkedComplete data

/-- What the session waits for. -/
inductive UpstreamPhase where
  | connecting
  | sending
  | receiving
  | closed
deriving DecidableEq

/-- The members of an `UpstreamSession` and what has happened: whether the upstream closed
the connection and the callbacks that were called. -/
structure UpstreamSession where
  recvBuffer : Text := []
  phase : UpstreamPhase := .connecting
  ended : Bool := false
  calls : List UpstreamCall := []
deriving DecidableEq

/-- A completion, with what ring and pool give while it is handled; a failed one carries the
text of its error. -/
inductive UpstreamAction where
  | connected (failure : Option Text) (allocated sqe : Bool)
  | sent (failure : Option Text) (sqe : Bool)
  | received (data : Text) (sqe : Bool)
  | closedByUpstream
  | recvFailed (reason : Text)
deriving DecidableEq

namespace UpstreamSession

/-- Call a callback and `Close()`, which clears the callbacks. -/
def finish (call : UpstreamCall) (state : UpstreamSession) : UpstreamSession :=
  { state with phase := .closed, calls := state.calls ++ [call] }

/-- Report an error and `Close()`. -/
def fail (error : Text) (state : UpstreamSession) : UpstreamSession := state.finish (.onError error)

/-- `UpstreamSession::StartRecv`. -/
def startRecv (sqe : Bool) (state : UpstreamSession) : UpstreamSession :=
  if sqe then
    { state with phase := .receiving }
  else
    state.fail (ascii "PrepRecv failed: SQE ring full")

/-- `UpstreamSession::SendRequest`. -/
def sendRequest (allocated sqe : Bool) (state : UpstreamSession) : UpstreamSession :=
  if allocated = false then
    state.fail (ascii "failed to allocate send buffer")
  else if sqe then
    { state with phase := .sending }
  else
    state.fail (ascii "PrepSendMsg failed: SQE ring full")

/-- `UpstreamSession::OnConnect`. -/
def onConnect (failure : Option Text) (allocated sqe : Bool) (state : UpstreamSession) :
    UpstreamSession :=
  failure.elim (state.sendRequest allocated sqe) fun reason =>
    state.fail (ascii "connect failed: " ++ reason)

/-- `UpstreamSession::OnSend`. -/
def onSend (failure : Option Text) (sqe : Bool) (state : UpstreamSession) : UpstreamSession :=
  failure.elim (state.startRecv sqe) fun reason => state.fail (ascii "send failed: " ++ reason)

/-- `UpstreamSession::OnRecv` with data. -/
def onRecv (data : Text) (sqe : Bool) (state : UpstreamSession) : UpstreamSession :=
  let state := { state with recvBuffer := state.recvBuffer ++ data }
  if complete state.recvBuffer then
    state.finish (parseResponse state.recvBuffer)
  else
    state.startRecv sqe

/-- `UpstreamSession::OnRecv` at the end of the stream. -/
def onEof (state : UpstreamSession) : UpstreamSession :=
  { state with ended := true }.finish (parseResponse state.recvBuffer)

/-- A completion is handled. The upstream sends what is left of its stream in any pieces and
may close the connection at any time. -/
def step (stream : Text) (state : UpstreamSession) : UpstreamAction → Option UpstreamSession
  | .connected failure allocated sqe =>
    if state.phase = .connecting then some (state.onConnect failure allocated sqe) else none
  | .sent failure sqe => if state.phase = .sending then some (state.onSend failure sqe) else none
  | .received data sqe =>
    if state.phase = .receiving ∧ data ≠ [] ∧ state.recvBuffer ++ data <+: stream then
      some (state.onRecv data sqe)
    else
      none
  | .closedByUpstream => if state.phase = .receiving then some state.onEof else none
  | .recvFailed reason =>
    if state.phase = .receiving then some (state.fail (ascii "recv failed: " ++ reason)) else none

/-- The life of a session whose upstream sends `stream`. -/
def system (stream : Text) : TransitionSystem UpstreamSession UpstreamAction where
  Initial state := state = {}
  step := step stream

end UpstreamSession

end UringServer.Web
