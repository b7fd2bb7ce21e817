import UringServer.Web.HttpMessage

/-!
# `llhttp`

`llhttp` is not part of the source. It is a parameter of the sessions here: an
incremental parser that stops at the end of each message because
`OnMessageComplete` returns `HPE_PAUSED`. `Incremental` says that it does not
matter how its input is cut. `scanner` is such a parser for any way to tell, from
the bytes of a message so far, whether it is complete; it has the last byte first.
-/

namespace UringServer.Web

open UringServer.Semantics

/-- What `llhttp_execute` and the callbacks of `HttpParser` make of some bytes. -/
inductive Executed (Parser : Type) where
  /-- `HPE_OK`: all bytes are part of a message that is not complete. -/
  | ok (next : Parser)
  /-- `HPE_PAUSED` after `consumed` bytes, where a message is complete; `next` is the
  parser after `llhttp_resume`. -/
  | paused (consumed : Nat) (request : HttpRequest) (next : Parser)
  /-- Any other result. -/
  | failed (consumed : Nat)
deriving DecidableEq

/-- `llhttp`. A message has a byte and ends within the bytes given. -/
structure Llhttp (Parser : Type) where
  initial : Parser
  execute : Parser → Text → Executed Parser
  paused_bounds : ∀ {parser data consumed request next},
    execute parser data = .paused consumed request next → 0 < consumed ∧ consumed ≤ data.length

variable {Parser : Type}

/-- The same result, of bytes that follow `count` others. -/
def Executed.after (count : Nat) : Executed Parser → Executed Parser
  | .ok next => .ok next
  | .paused consumed request next => .paused (count + consumed) request next
  | .failed consumed => .failed (count + consumed)

/-- How the input is cut does not matter. -/
structure Llhttp.Incremental (llhttp : Llhttp Parser) : Prop where
  nothing : ∀ parser, llhttp.execute parser [] = .ok parser
  ok_append : ∀ {parser first next}, llhttp.execute parser first = .ok next →
    ∀ second, llhttp.execute parser (first ++ second) =
      (llhttp.execute next second).after first.length
  paused_append : ∀ {parser first consumed request next},
    llhttp.execute parser first = .paused consumed request next →
    ∀ second, llhttp.execute parser (first ++ second) = .paused consumed request next
  failed_append : ∀ {parser first consumed}, llhttp.execute parser first = .failed consumed →
    ∀ second, llhttp.execute parser (first ++ second) = .failed consumed

/-- What the bytes of a message so far are. -/
inductive Verdict where
  | incomplete
  | complete (request : HttpRequest)
  | bad

/-- Scan for the end of a message of which `seen` has been read, the last byte first. -/
def scan (judge : Text → Verdict) (seen : Text) : Text → Executed Text
  | [] => .ok seen
  | byte :: rest =>
    match judge (byte :: seen) with
    | .incomplete => (scan judge (byte :: seen) rest).after 1
    | .complete request => .paused 1 request []
    | .bad => .failed 0

theorem scan_bounds {judge : Text → Verdict} {seen data : Text} {consumed : Nat}
    {request : HttpRequest} {next : Text}
    (paused : scan judge seen data = .paused consumed request next) :
    0 < consumed ∧ consumed ≤ data.length := by
  induction data generalizing seen consumed with
  | nil => cases paused
  | cons byte rest ih =>
    rw [scan] at paused
    split at paused
    case h_1 =>
      cases scanned : scan judge (byte :: seen) rest with
      | ok after =>
        rw [scanned] at paused
        cases paused
      | failed count =>
        rw [scanned] at paused
        cases paused
      | paused count request after =>
        rw [scanned] at paused
        cases paused
        have bounds := ih scanned
        simp only [List.length_cons]
        omega
    case h_2 =>
      cases paused
      simp
    case h_3 => cases paused

/-- The parser that scans for the end of each message. -/
def scanner (judge : Text → Verdict) : Llhttp Text where
  initial := []
  execute := scan judge
  paused_bounds := scan_bounds

theorem Executed.after_after (result : Executed Parser) (first second : Nat) :
    (result.after first).after second = result.after (second + first) := by
  cases result with
  | ok => rfl
  | paused consumed request next => simp [Executed.after, Nat.add_assoc]
  | failed consumed => simp [Executed.after, Nat.add_assoc]

theorem scan_incremental (judge : Text → Verdict) (seen first second : Text) :
    scan judge seen (first ++ second) =
      match scan judge seen first with
      | .ok next => (scan judge next second).after first.length
      | .paused consumed request next => .paused consumed request next
      | .failed consumed => .failed consumed := by
  induction first generalizing seen with
  | nil =>
    cases scanned : scan judge seen second <;> simp [scan, scanned, Executed.after]
  | cons byte rest ih =>
    rw [List.cons_append, scan, scan]
    cases judge (byte :: seen) with
    | incomplete =>
      dsimp only
      rw [ih]
      cases scan judge (byte :: seen) rest with
      | ok next =>
        change ((scan judge next second).after rest.length).after 1 =
          (scan judge next second).after (rest.length + 1)
        rw [Executed.after_after, Nat.add_comm]
      | paused consumed request next => rfl
      | failed consumed => rfl
    | complete request => rfl
    | bad => rfl

theorem scanner_incremental (judge : Text → Verdict) : (scanner judge).Incremental where
  nothing _ := rfl
  ok_append executed second := by
    change scan judge _ (_ ++ second) = _
    rw [scan_incremental, show scan judge _ _ = _ from executed]
    rfl
  paused_append executed second := by
    change scan judge _ (_ ++ second) = _
    rw [scan_incremental, show scan judge _ _ = _ from executed]
  failed_append executed second := by
    change scan judge _ (_ ++ second) = _
    rw [scan_incremental, show scan judge _ _ = _ from executed]

/-- The name and the value of a header line. -/
def headerOf (line : Text) : Text × Text :=
  (line.takeWhile (· ≠ 0x3A), (line.dropWhile (· ≠ 0x3A)).drop 2)

/-- The lines of a request behind the first one, up to the empty line. -/
def headLines (head : Text) : List Text :=
  ((head.filter (· ≠ 0x0D)).splitOn 0x0A).tail.takeWhile (· ≠ [])

/-- Requests without a body: ASCII text up to an empty line. -/
def judgeHead (seen : Text) : Verdict :=
  if 0x80 ≤ seen.headD 0 then
    .bad
  else if (ascii "\n\r\n\r").isPrefixOf seen then
    let head := seen.reverse
    .complete {
      method := .get
      path := (head.drop 4).takeWhile (· ≠ 0x20)
      keepAlive := !(ascii "Connection: close\r\n\r\n").isSuffixOf head
      headers := (headLines head).map headerOf }
  else
    .incomplete

/-- A parser of requests without a body. -/
def headParser : Llhttp Text := scanner judgeHead

example : headParser.execute [] (ascii "GET /a HTTP/1.1\r\nHost: b\r\n\r\nGET") =
    .paused 28 { method := .get, path := ascii "/a", headers := [(ascii "Host", ascii "b")] } [] :=
  by decide +kernel

end UringServer.Web
