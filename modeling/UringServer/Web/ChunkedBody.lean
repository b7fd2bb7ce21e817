import UringServer.Web.UpstreamSession

/-!
# The chunked coding

The grammar of a chunked body: chunks with their size in hexadecimal digits, the
last chunk of size zero, and the trailer section. A text begins with at most one
chunked body.
-/

namespace UringServer.Web

open UringServer.Semantics

/-- The value of a hexadecimal digit. -/
def hexDigit (byte : UInt8) : Option Nat :=
  if 0x30 ≤ byte ∧ byte ≤ 0x39 then some (byte.toNat - 0x30)
  else if 0x41 ≤ byte ∧ byte ≤ 0x46 then some (byte.toNat - 0x41 + 10)
  else if 0x61 ≤ byte ∧ byte ≤ 0x66 then some (byte.toNat - 0x61 + 10)
  else none

/-- The size in a line that starts a chunk. An extension follows a blank or a semicolon. -/
def chunkSize (line : Text) : Option Nat :=
  let digits := line.takeWhile fun byte => (hexDigit byte).isSome
  let extension := line.drop digits.length
  if digits.isEmpty then
    none
  else if extension.head?.all fun byte => byte = 0x20 || byte = 0x09 || byte = 0x3B then
    some (digits.foldl (fun value digit => 16 * value + (hexDigit digit).getD 0) 0)
  else
    none

/-- A text up to its first CRLF. -/
def IsLine (line : Text) : Prop := FirstAt crlf (line ++ crlf) line.length

instance (line : Text) : Decidable (IsLine line) := decidable_of_iff _ (find_eq_some (by decide))

/-- What follows the last chunk: field lines and an empty line. -/
inductive TrailerSection : Text → Prop where
  | empty : TrailerSection crlf
  | fields {lines : Text} (some : ¬ crlf <+: lines ++ headerTerminator)
      (ends : FirstAt headerTerminator (lines ++ headerTerminator) lines.length) :
      TrailerSection (lines ++ headerTerminator)

/-- A complete chunked body. -/
inductive ChunkedBody : Text → Prop where
  | last {line trailer : Text} (ends : IsLine line) (size : chunkSize line = some 0)
      (trailers : TrailerSection trailer) : ChunkedBody (line ++ (crlf ++ trailer))
  | chunk {line data rest : Text} (ends : IsLine line) (size : chunkSize line = some data.length)
      (some : data ≠ []) (more : ChunkedBody rest) :
      ChunkedBody (line ++ (crlf ++ (data ++ (crlf ++ rest))))

/-- A complete chunked body and the data it carries. -/
inductive ChunkedData : Text → Text → Prop where
  | last {line trailer : Text} (ends : IsLine line) (size : chunkSize line = some 0)
      (trailers : TrailerSection trailer) : ChunkedData (line ++ (crlf ++ trailer)) []
  | chunk {line data rest more : Text} (ends : IsLine line)
      (size : chunkSize line = some data.length) (some : data ≠ [])
      (others : ChunkedData rest more) :
      ChunkedData (line ++ (crlf ++ (data ++ (crlf ++ rest)))) (data ++ more)

/-- The coding takes more bytes than the data. -/
theorem ChunkedData.length_lt {bytes data : Text} (carries : ChunkedData bytes data) :
    data.length < bytes.length := by
  have breakLength : crlf.length = 2 := rfl
  induction carries with
  | last =>
    simp only [List.length_append, List.length_nil]
    omega
  | chunk _ _ _ _ ih =>
    simp only [List.length_append]
    omega

section Unique

variable {text : Text}

theorem TrailerSection.unique {first second : Text} (one : TrailerSection first)
    (other : TrailerSection second) (starts : first <+: text) (otherStarts : second <+: text) :
    first = second := by
  have notBoth : ∀ {lines : Text}, ¬ crlf <+: lines ++ headerTerminator →
      lines ++ headerTerminator <+: text → crlf <+: text → False := by
    intro lines some starts blank
    refine some (List.prefix_of_prefix_length_le blank starts ?_)
    rw [List.length_append]
    exact Nat.le_add_left_of_le (by decide)
  cases one with
  | empty =>
    cases other with
    | empty => rfl
    | fields some => exact (notBoth some otherStarts starts).elim
  | fields some ends =>
    cases other with
    | empty => exact (notBoth some starts otherStarts).elim
    | fields _ otherEnds =>
      rw [eq_of_firstAt (by decide) ends otherEnds starts otherStarts]

/-- The first line is determined by the text it starts, and so is where the rest begins. -/
theorem line_unique {line otherLine rest otherRest : Text} (ends : IsLine line)
    (otherEnds : IsLine otherLine) (starts : line ++ (crlf ++ rest) <+: text)
    (otherStarts : otherLine ++ (crlf ++ otherRest) <+: text) :
    line = otherLine ∧ rest <+: text.drop (line ++ crlf).length ∧
      otherRest <+: text.drop (line ++ crlf).length := by
  rw [← List.append_assoc] at starts otherStarts
  obtain ⟨here, next⟩ := starts_append_iff.mp starts
  obtain ⟨there, otherNext⟩ := starts_append_iff.mp otherStarts
  cases eq_of_firstAt (by decide) ends otherEnds here there
  exact ⟨rfl, next, otherNext⟩

/-- A text begins with at most one chunked body. -/
theorem ChunkedBody.unique {first second : Text} (one : ChunkedBody first)
    (other : ChunkedBody second) (starts : first <+: text) (otherStarts : second <+: text) :
    first = second := by
  induction one generalizing second text with
  | last ends size trailers =>
    cases other with
    | last otherEnds otherSize otherTrailers =>
      obtain ⟨rfl, next, otherNext⟩ := line_unique ends otherEnds starts otherStarts
      rw [trailers.unique otherTrailers next otherNext]
    | chunk otherEnds otherSize some more =>
      obtain ⟨rfl, -, -⟩ := line_unique ends otherEnds starts otherStarts
      rw [size, Option.some.injEq] at otherSize
      exact absurd (List.length_eq_zero_iff.mp otherSize.symm) some
  | @chunk line data rest ends size some more ih =>
    cases other with
    | last otherEnds otherSize otherTrailers =>
      obtain ⟨rfl, -, -⟩ := line_unique ends otherEnds starts otherStarts
      rw [size, Option.some.injEq] at otherSize
      exact absurd (List.length_eq_zero_iff.mp otherSize) some
    | chunk otherEnds otherSize _ otherMore =>
      obtain ⟨rfl, next, otherNext⟩ := line_unique ends otherEnds starts otherStarts
      rw [size, Option.some.injEq] at otherSize
      obtain ⟨here, next⟩ := starts_append_iff.mp next
      obtain ⟨there, otherNext⟩ := starts_append_iff.mp otherNext
      cases eq_of_starts here there otherSize
      obtain ⟨-, next⟩ := starts_append_iff.mp next
      obtain ⟨-, otherNext⟩ := starts_append_iff.mp otherNext
      rw [ih otherMore next otherNext]

end Unique

end UringServer.Web
