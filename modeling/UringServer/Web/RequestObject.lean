import UringServer.Semantics.Loop
import UringServer.Web.HttpParser

/-!
# The request object of `HttpParser`

`HttpParser` has one `HttpRequest`, which it fills for one message after the other
and passes to the handler by reference. With it go the query parameters that
`QueryParam` parses when it is first asked, and whatever the handler has left there.
-/

namespace UringServer.Web

open UringServer.Semantics

/-- What is left of `query` in `ParseQueryParams`, and `query_params_`. -/
structure QueryWalk where
  q : Text
  params : List (Text × Text) := []

namespace QueryWalk

/-- A parameter without an equals sign has no value. -/
def pair (text : Text) : Text × Text :=
  match findFrom text 0x3D 0 with
  | some eq => (text.take eq, text.drop (eq + 1))
  | none => (text, [])

/-- One pass of the loop in `ParseQueryParams`. -/
def step (walk : QueryWalk) : Option QueryWalk :=
  if walk.q.isEmpty then none
  else
    match findFrom walk.q 0x26 0 with
    | some amp => some ⟨walk.q.drop (amp + 1), walk.params ++ [pair (walk.q.take amp)]⟩
    | none => some ⟨[], walk.params ++ [pair walk.q]⟩

theorem step_lt {walk next : QueryWalk} (taken : walk.step = some next) :
    next.q.length < walk.q.length := by
  unfold step at taken
  split at taken
  case isTrue => cases taken
  case isFalse nonempty =>
    have positive : 0 < walk.q.length := List.length_pos_iff.mpr (by simpa using nonempty)
    split at taken
    case h_1 amp _ =>
      cases taken
      dsimp only
      rw [List.length_drop]
      omega
    case h_2 =>
      cases taken
      exact positive

/-- The loop of `ParseQueryParams`. -/
def loop : Loop QueryWalk where
  body := step
  Inv _ := True
  remaining walk := walk.q.length
  preserved _ _ := trivial
  decreases _ taken := step_lt taken

end QueryWalk

/-- The parameters of a query. -/
def queryParams (query : Text) : List (Text × Text) := (QueryWalk.loop.run { q := query }).params

example : queryParams (ascii "a=1&b&&c==2&") =
    [(ascii "a", ascii "1"), (ascii "b", []), ([], []), (ascii "c", ascii "=2")] := by decide

/-- `query_parsed_` and `query_params_`. The views are the texts they show: nothing
but a callback writes to `query`. -/
structure QueryCache where
  parsed : Bool := false
  params : List (Text × Text) := []
deriving DecidableEq

/-- An `HttpRequest` with all its members. -/
structure RequestObject where
  request : HttpRequest := {}
  cache : QueryCache := {}
deriving DecidableEq

/-- The first value of a name. -/
def valueOf (params : List (Text × Text)) (name : Text) : Text :=
  ((params.find? fun param => param.1 = name).map Prod.snd).getD []

namespace RequestObject

/-- `HttpRequest::ParseQueryParams`. -/
def parseQueryParams (object : RequestObject) : RequestObject :=
  { object with
    cache := ⟨true, object.cache.params ++ queryParams object.request.query⟩ }

/-- `HttpRequest::QueryParam`, with the object it leaves. -/
def queryParam (object : RequestObject) (name : Text) : Text × RequestObject :=
  let object := if object.cache.parsed then object else object.parseQueryParams
  (valueOf object.cache.params name, object)

/-- `HttpRequest::SetParams`. -/
def setParams (object : RequestObject) (params : List (Text × StringView)) : RequestObject :=
  { object with request := { object.request with params } }

/-- The assignment to `authenticated_user_id`. -/
def setAuthenticatedUserId (object : RequestObject) (authenticatedUserId : Text) :
    RequestObject :=
  { object with request := { object.request with authenticatedUserId } }

/-- An object that was cleared answers from its own query. -/
theorem queryParam_of_cleared {object : RequestObject} (cleared : object.cache = {})
    (name : Text) :
    (object.queryParam name).1 = valueOf (queryParams object.request.query) name := by
  simp [queryParam, parseQueryParams, cleared]

end RequestObject

/-- All members of `HttpParser` that the callbacks use. -/
structure ParserMembers where
  parser : HttpParser := {}
  cache : QueryCache := {}

namespace ParserMembers

/-- `request_`. -/
def object (members : ParserMembers) : RequestObject := ⟨members.parser.request, members.cache⟩

/-- `request_` as the handler leaves it. -/
def setObject (members : ParserMembers) (object : RequestObject) : ParserMembers :=
  { parser := { members.parser with request := object.request }, cache := object.cache }

/-- What a callback does. `OnMessageBegin` also forgets the parameters of the query. -/
def handle (members : ParserMembers) (callback : Callback) : ParserMembers :=
  { parser := members.parser.handle callback
    cache :=
      match callback with
      | .onMessageBegin => {}
      | _ => members.cache }

/-- The members after some callbacks. -/
def run (members : ParserMembers) (callbacks : List Callback) : ParserMembers :=
  callbacks.foldl handle members

variable (members : ParserMembers)

theorem run_cons (callback : Callback) (callbacks : List Callback) :
    members.run (callback :: callbacks) = (members.handle callback).run callbacks :=
  rfl

theorem run_append (first second : List Callback) :
    members.run (first ++ second) = (members.run first).run second :=
  List.foldl_append ..

/-- From the start of a message on, nothing depends on what was there before. -/
theorem run_of_begin {callbacks : List Callback}
    (begins : callbacks.head? = some .onMessageBegin) :
    members.run callbacks = ParserMembers.run {} callbacks := by
  cases callbacks with
  | nil => cases begins
  | cons callback callbacks =>
    cases begins
    rfl

/-- No other callback touches the cache. -/
theorem cache_run {callbacks : List Callback} (cleared : members.cache = {}) :
    (members.run callbacks).cache = {} := by
  induction callbacks generalizing members with
  | nil => exact cleared
  | cons callback callbacks ih =>
    rw [run_cons]
    refine ih (members.handle callback) ?_
    cases callback with
    | onMessageBegin => rfl
    | _ => exact cleared

end ParserMembers

/-- A span in front of some callbacks: it is one with a span that follows, and
nothing if it is empty. -/
def joinSpan : Callback → List Callback → List Callback
  | .onUrl [], rest => rest
  | .onHeaderField [], rest => rest
  | .onHeaderValue [], rest => rest
  | .onBody [], rest => rest
  | .onUrl first, .onUrl second :: rest => .onUrl (first ++ second) :: rest
  | .onHeaderField first, .onHeaderField second :: rest => .onHeaderField (first ++ second) :: rest
  | .onHeaderValue first, .onHeaderValue second :: rest => .onHeaderValue (first ++ second) :: rest
  | .onBody first, .onBody second :: rest => .onBody (first ++ second) :: rest
  | callback, rest => callback :: rest

/-- The callbacks as they are when the input is not cut. -/
def joinSpans (callbacks : List Callback) : List Callback := callbacks.foldr joinSpan []

namespace ParserMembers

variable (members : ParserMembers)

theorem run_joinSpan (callback : Callback) (rest : List Callback) :
    members.run (joinSpan callback rest) = (members.handle callback).run rest := by
  unfold joinSpan
  split
  case h_9 => rfl
  all_goals simp [run, handle, HttpParser.handle]

/-- Where the input was cut is not seen in the members. -/
theorem run_joinSpans (callbacks : List Callback) :
    members.run (joinSpans callbacks) = members.run callbacks := by
  induction callbacks generalizing members with
  | nil => rfl
  | cons callback callbacks ih =>
    rw [joinSpans, List.foldr_cons, run_joinSpan, run_cons]
    exact ih (members.handle callback)

end ParserMembers

end UringServer.Web
