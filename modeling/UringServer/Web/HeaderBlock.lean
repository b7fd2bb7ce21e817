import UringServer.Web.UpstreamRun
import UringServer.Web.WsHandshake

/-!
# The header block of a response

The fields of a header block as the grammar of HTTP has them: lines that end in
CRLF, the first one the status line, a name up to the first colon that is
compared without regard to case, and a value without the blanks around it.
-/

namespace UringServer.Web

open UringServer.Semantics

/-- The lines that CRLF separates. -/
def splitLines : Text → List Text
  | [] => [[]]
  | 0x0D :: 0x0A :: rest => [] :: splitLines rest
  | byte :: rest =>
    match splitLines rest with
    | [] => [[byte]]
    | line :: lines => (byte :: line) :: lines

/-- Optional white space. -/
def isBlank (byte : UInt8) : Bool := byte = 0x20 || byte = 0x09

/-- A text without the blanks around it. -/
def trim (text : Text) : Text := ((text.dropWhile isBlank).reverse.dropWhile isBlank).reverse

/-- The value of a line if it is a field of this name. -/
def fieldValue (name line : Text) : Option Text :=
  if 0x3A ∈ line ∧ caseInsensitiveEqual (line.takeWhile (· ≠ 0x3A)) name = true then
    some (trim ((line.dropWhile (· ≠ 0x3A)).drop 1))
  else
    none

/-- The values of the fields of this name. -/
def fieldsNamed (name head : Text) : List Text :=
  (splitLines head).tail.filterMap (fieldValue name)

/-- A stream that begins with a header block. -/
structure HeadedStream where
  head : Text
  rest : Text
  terminated : FirstAt headerTerminator (head ++ headerTerminator) head.length

namespace HeadedStream

variable (stream : HeadedStream)

/-- The bytes of the stream. -/
def bytes : Text := stream.head ++ headerTerminator ++ stream.rest

/-- Where the body starts. -/
def bodyStart : Nat := stream.head.length + 4

theorem drop_bodyStart : stream.bytes.drop stream.bodyStart = stream.rest :=
  List.drop_left' (by rw [List.length_append]; rfl)

variable {stream} {part : Text} {headerEnd : Nat}

/-- In what has been received the header block ends where it ends in the stream. -/
theorem headerEnd_eq (received : part <+: stream.bytes)
    (found : FirstAt headerTerminator part headerEnd) : headerEnd = stream.head.length := by
  obtain ⟨more, whole⟩ := received
  have first := stream.terminated.append (by decide) stream.rest
  have same := found.append (by decide) more
  rw [whole] at same
  exact same.unique first

theorem bodyStart_le (received : part <+: stream.bytes)
    (found : FirstAt headerTerminator part headerEnd) : stream.bodyStart ≤ part.length := by
  have fits := found.fits
  have four : headerTerminator.length = 4 := by decide
  rw [stream.headerEnd_eq received found] at fits
  rw [bodyStart]
  omega

/-- What has been received after the header block is the start of what follows it. -/
theorem drop_received (received : part <+: stream.bytes) :
    part.drop stream.bodyStart = stream.rest.take (part.length - stream.bodyStart) := by
  rw [← stream.drop_bodyStart, ← List.drop_take, ← List.prefix_iff_eq_take.mp received]

theorem length_received (received : part <+: stream.bytes) :
    part.length ≤ stream.bodyStart + stream.rest.length := by
  have bound := received.length_le
  have total : stream.bytes.length = stream.bodyStart + stream.rest.length := by
    rw [bytes, List.length_append, List.length_append]
    rfl
  omega

end HeadedStream

end UringServer.Web
