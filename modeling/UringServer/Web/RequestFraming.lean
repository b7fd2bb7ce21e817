import UringServer.Web.ChunkedBody
import UringServer.Web.HeaderLines
import UringServer.Web.HttpParser

/-!
# How a request is read

A request by the rules of HTTP/1.1: the request line, the fields, and the body as
the fields frame it: chunked if a field says so, else of the length that a field
gives, else none.
-/

namespace UringServer.Web

open UringServer.Semantics

/-- How the end of a body is told. -/
inductive BodyFraming where
  | chunked
  | length (count : Nat)
  | none
deriving DecidableEq

/-- The values of the fields of this name. -/
def valuesNamed (name : Text) (headers : List (Text × Text)) : List Text :=
  (headers.filter fun header => caseInsensitiveEqual header.1 name).map fun header => trim header.2

/-- The last coding in a list of codings. -/
def finalCoding (value : Text) : Text := trim (value.reverse.takeWhile (· ≠ 0x2C)).reverse

/-- Whether a field says that the body is chunked. -/
def isChunked (headers : List (Text × Text)) : Bool :=
  (valuesNamed (ascii "Transfer-Encoding") headers).any fun value =>
    caseInsensitiveEqual (finalCoding value) (ascii "chunked")

/-- A decimal number. -/
def number (value : Text) : Option Nat :=
  if value ≠ [] ∧ value.all isDigit = true then some (ofDigits value) else none

/-- The framing of a body by the fields, unless they contradict each other. -/
def framing (headers : List (Text × Text)) : Option BodyFraming :=
  if isChunked headers then
    some .chunked
  else
    match valuesNamed (ascii "Content-Length") headers with
    | [] => some .none
    | [value] => (number value).map .length
    | _ => none

/-- The bytes after the header block are one body with this content, and nothing is left over. -/
def BodyFraming.Frames : BodyFraming → (bytes body : Text) → Prop
  | .chunked, bytes, body => ChunkedData bytes body
  | .length count, bytes, body => bytes = body ∧ body.length = count
  | .none, bytes, body => bytes = body ∧ body = []

/-- The method and the target in a request line. -/
def requestLine (line : Text) : Option (Text × Text) :=
  match line.splitOn 0x20 with
  | [method, target, version] =>
    if target ≠ [] ∧ version = ascii "HTTP/1.1" then some (method, target) else none
  | _ => none

/-- The name and the value in a field line. -/
def field (line : Text) : Option (Text × Text) :=
  if 0x3A ∈ line then
    some (line.takeWhile (· ≠ 0x3A), ((line.dropWhile (· ≠ 0x3A)).drop 1).dropWhile isBlank)
  else
    none

/-- A field that is written is read, without the blanks before its value. -/
theorem IsField.field_fieldText {header : Text × Text} (isField : IsField header) :
    field (fieldText header) = some (header.1, header.2.dropWhile isBlank) := by
  unfold field
  rw [if_pos (colon_mem_fieldText header), isField.takeWhile, isField.dropWhile]
  simp [isBlank]

theorem mapM_field {headers : List (Text × Text)} (areFields : ∀ header ∈ headers, IsField header) :
    (headers.map fieldText).mapM field =
      some (headers.map fun header => (header.1, header.2.dropWhile isBlank)) := by
  induction headers with
  | nil => rfl
  | cons header headers ih =>
    rw [List.map_cons, List.mapM_cons, (areFields header (List.mem_cons_self ..)).field_fieldText,
      ih fun other member => areFields other (List.mem_cons_of_mem _ member)]
    rfl

/-- A request as it is read. -/
structure WireRequest where
  method : Text
  target : Text
  headers : List (Text × Text)
  body : Text

/-- A header block has the request line and the fields of a request. -/
structure WireRequest.HasHead (request : WireRequest) (head : Text) : Prop where
  line : requestLine ((splitLines head).headD []) = some (request.method, request.target)
  fields : (splitLines head).tail.mapM field = some request.headers

/-- The bytes are one complete request, with nothing left over. -/
def OneRequest (bytes : Text) (request : WireRequest) : Prop :=
  ∃ stream : HeadedStream, stream.bytes = bytes ∧ request.HasHead stream.head ∧
    ∃ framed, framing request.headers = some framed ∧ framed.Frames stream.rest request.body

/-- The fields that a proxy sets itself. -/
def passedOver (name : Text) : Bool :=
  caseInsensitiveEqual name (ascii "Host") || caseInsensitiveEqual name (ascii "Connection") ||
    caseInsensitiveEqual name (ascii "X-Forwarded-For")

/-- The fields that a proxy passes on. -/
def kept (headers : List (Text × Text)) : List (Text × Text) :=
  headers.filter fun header => !passedOver header.1

theorem caseInsensitiveEqual_trans {first second third : Text}
    (one : caseInsensitiveEqual first second = true)
    (other : caseInsensitiveEqual first third = true) :
    caseInsensitiveEqual second third = true := by
  unfold caseInsensitiveEqual at *
  simp_all

/-- The fields that a proxy sets do not count where another name is looked up. -/
theorem valuesNamed_kept {name : Text} (other : passedOver name = false)
    (headers : List (Text × Text)) :
    valuesNamed name (kept headers) = valuesNamed name headers := by
  unfold valuesNamed kept
  rw [List.filter_filter]
  congr 1
  refine List.filter_congr fun header _ => ?_
  rw [Bool.and_eq_left_iff_imp]
  intro named
  rw [Bool.not_eq_true', Bool.eq_false_iff]
  intro skipped
  simp only [passedOver, Bool.or_eq_true, Bool.or_eq_false_iff] at skipped other
  rcases skipped with (host | connection) | forwarded
  · exact absurd (caseInsensitiveEqual_trans named host) (by rw [other.1.1]; nofun)
  · exact absurd (caseInsensitiveEqual_trans named connection) (by rw [other.1.2]; nofun)
  · exact absurd (caseInsensitiveEqual_trans named forwarded) (by rw [other.2]; nofun)

theorem isChunked_kept (headers : List (Text × Text)) :
    isChunked (kept headers) = isChunked headers := by
  unfold isChunked
  rw [valuesNamed_kept (by decide)]

/-- What a proxy passes on tells the framing. -/
theorem framing_kept (headers : List (Text × Text)) : framing (kept headers) = framing headers := by
  unfold framing
  rw [isChunked_kept, valuesNamed_kept (by decide)]

end UringServer.Web
