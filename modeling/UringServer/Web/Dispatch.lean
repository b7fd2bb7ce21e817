import UringServer.Web.Answers
import UringServer.Web.WebServer

/-!
# What a request meets

Where the pipeline of a route ends for a request is read off its middlewares, and
from it the calls that are made. Those that only set fields of the response are
left out.
-/

namespace UringServer.Web

open UringServer.Semantics

/-- Where a pipeline ends. -/
inductive Arrival where
  /-- At a middleware that answers or throws. -/
  | stopped
  /-- At a proxy that has a route. -/
  | proxy
  | handler
deriving DecidableEq

/-- Where the pipeline of a route ends for a request. -/
def arrival (context : Context) : List Middleware → HttpRequest → HttpResponse → Arrival
  | [], _, _ => .handler
  | .reverseProxy routes :: rest, request, response =>
    if (proxyRoute routes request).isSome then .proxy else arrival context rest request response
  | .filter process :: rest, request, response =>
    match process context request response with
    | .next changed userId =>
      arrival context rest { request with authenticatedUserId := userId } changed
    | _ => .stopped

/-- The accept key for a request. -/
def HttpRequest.acceptKey (request : HttpRequest) (context : Context) : Text :=
  computeAcceptKey context.sha1 (request.getHeader (ascii "Sec-WebSocket-Key"))

theorem acceptKey_of_headers {request other : HttpRequest} (context : Context)
    (same : other.headers = request.headers) :
    other.acceptKey context = request.acceptKey context := by
  unfold HttpRequest.acceptKey HttpRequest.getHeader
  rw [same]

section Pipeline

variable {context : Context} {handler : Handler} {middlewares : List Middleware}
  {request : HttpRequest} {response : HttpResponse}

theorem upgrade_mem_acts {ops : List RequestOp} :
    .upgrade ∈ ops.filter RequestOp.acts ↔ .upgrade ∈ ops := by
  simp [RequestOp.acts]

theorem noRing_stays (context : Context) : .upgrade ∉ noRing context := by
  unfold noRing sendError
  dsimp only
  cases HttpResponse.build _ _ _ with
  | none => exact List.not_mem_nil
  | some buf => simp

theorem sendText_stays (response : HttpResponse) (status : HttpStatus) (text : Text) :
    .upgrade ∉ sendText response status text := by
  simp [sendText]

/-- The proxy upgrades exactly a request for a tunnel, on a thread with a ring. -/
theorem forward_stays (asked : ¬ (context.ring = true ∧ request.asksTunnel = true)) :
    .upgrade ∉ forward context request := by
  have none := noRing_stays context
  unfold forward handleWebSocketProxy
  split_ifs with tunnel ring ring
  · exact absurd ⟨ring, tunnel⟩ asked
  · exact none
  · simp
  · simp [none]

/-- A middleware that answers or throws does not upgrade. -/
theorem execute_stopped (stopped : arrival context middlewares request response = .stopped) :
    .upgrade ∉ (execute context handler middlewares request response).ops := by
  induction middlewares generalizing request response with
  | nil => cases stopped
  | cons middleware rest ih =>
    cases middleware with
    | reverseProxy routes =>
      simp only [arrival, execute] at stopped ⊢
      split_ifs at stopped ⊢
      exact ih stopped
    | filter process =>
      simp only [arrival, execute] at stopped ⊢
      cases filtered : process context request response with
      | answer => simp
      | throws => simp
      | next changed userId =>
        rw [filtered] at stopped
        simpa using ih stopped

/-- At a proxy with a route the request is forwarded. -/
theorem execute_proxy (proxied : arrival context middlewares request response = .proxy) :
    (execute context handler middlewares request response).throws = false ∧
      (execute context handler middlewares request response).ops.filter RequestOp.acts =
        (forward context request).filter RequestOp.acts := by
  induction middlewares generalizing request response with
  | nil => cases proxied
  | cons middleware rest ih =>
    cases middleware with
    | reverseProxy routes =>
      simp only [arrival, execute] at proxied ⊢
      split_ifs at proxied ⊢
      · exact ⟨rfl, rfl⟩
      · exact ih proxied
    | filter process =>
      simp only [arrival, execute] at proxied ⊢
      cases filtered : process context request response with
      | answer | throws =>
        rw [filtered] at proxied
        cases proxied
      | next changed userId =>
        rw [filtered] at proxied
        exact ih proxied

/-- At the handler the request has its headers as they were. -/
theorem execute_handler (handler : Handler)
    (arrived : arrival context middlewares request response = .handler) :
    ∃ asked given, asked.headers = request.headers ∧
      (execute context handler middlewares request response).throws =
        (handler.run context asked given).throws ∧
      (execute context handler middlewares request response).ops.filter RequestOp.acts =
        (handler.run context asked given).ops.filter RequestOp.acts := by
  induction middlewares generalizing request response with
  | nil => exact ⟨request, response, rfl, rfl, rfl⟩
  | cons middleware rest ih =>
    cases middleware with
    | reverseProxy routes =>
      simp only [arrival, execute] at arrived ⊢
      split_ifs at arrived ⊢
      exact ih arrived
    | filter process =>
      simp only [arrival, execute] at arrived ⊢
      cases filtered : process context request response with
      | answer | throws =>
        rw [filtered] at arrived
        cases arrived
      | next changed userId =>
        rw [filtered] at arrived
        exact ih arrived

variable {router : Node Route} {route : Route}

/-- The calls that a matched route makes, apart from the setting of fields. -/
theorem dispatch_acts {result : MatchResult Route}
    (matched : matchPath router request.method context.pathAddress request.path = result)
    (found : result.handler = some route)
    (quiet : (execute context route.handler route.middlewares
      { request with params := result.params } { keepAlive := request.keepAlive }).throws = false) :
    (Router.dispatch router context request).filter RequestOp.acts =
      (execute context route.handler route.middlewares { request with params := result.params }
        { keepAlive := request.keepAlive }).ops.filter RequestOp.acts := by
  subst matched
  simp [Router.dispatch, found, quiet]

/-- A matched route that does not upgrade. -/
theorem dispatch_stays {result : MatchResult Route}
    (matched : matchPath router request.method context.pathAddress request.path = result)
    (found : result.handler = some route)
    (stays : .upgrade ∉ (execute context route.handler route.middlewares
      { request with params := result.params } { keepAlive := request.keepAlive }).ops) :
    .upgrade ∉ Router.dispatch router context request := by
  subst matched
  simp only [Router.dispatch, found]
  intro member
  rcases List.mem_append.mp member with here | after
  · exact stays here
  · split_ifs at after
    · exact sendText_stays _ _ _ after
    · cases after

theorem dispatch_unmatched
    (unmatched : (matchPath router request.method context.pathAddress request.path).handler =
      none) : .upgrade ∉ Router.dispatch router context request := by
  simp only [Router.dispatch, unmatched]
  split_ifs
  · exact sendText_stays _ _ _
  · exact sendText_stays _ _ _

/-- The handler of `WebServer::WebSocket` refuses a request that is not valid. -/
theorem webSocket_stays (context : Context) (response : HttpResponse)
    (invalid : ¬ validateUpgrade request = true) :
    .upgrade ∉ (webSocket context request response).ops := by
  simp [webSocket, invalid]

theorem webSocket_valid {response : HttpResponse} (valid : validateUpgrade request = true) :
    webSocket context request response = ⟨[.handOver (buildUpgradeResponse context.allocate
      (request.acceptKey context)), .markSent, .upgrade], false⟩ :=
  if_pos valid

section Arrived

variable {result : MatchResult Route}
  (matched : matchPath router request.method context.pathAddress request.path = result)
  (found : result.handler = some route)
  (arrived : arrival context route.middlewares { request with params := result.params }
    { keepAlive := request.keepAlive } = .handler)

include matched found arrived

/-- A handler that does not upgrade, whatever the middlewares have set. -/
theorem dispatch_of_handler_stays
    (stays : ∀ asked given, asked.headers = request.headers →
      .upgrade ∉ (route.handler.run context asked given).ops) :
    .upgrade ∉ Router.dispatch router context request := by
  obtain ⟨asked, given, headers, -, acts⟩ := execute_handler route.handler arrived
  refine dispatch_stays matched found ?_
  rw [← upgrade_mem_acts, acts, upgrade_mem_acts]
  exact stays asked given headers

theorem dispatch_application {application : Application}
    (handler : route.handler = .application application) :
    .upgrade ∉ Router.dispatch router context request := by
  refine dispatch_of_handler_stays matched found arrived fun asked given _ => ?_
  rw [handler]
  exact application.stays context asked given

theorem dispatch_invalid (handler : route.handler = .webSocket)
    (invalid : ¬ validateUpgrade request = true) :
    .upgrade ∉ Router.dispatch router context request := by
  refine dispatch_of_handler_stays matched found arrived fun asked given headers => ?_
  rw [handler]
  exact webSocket_stays context given (by rwa [validateUpgrade_of_headers headers])

/-- A valid upgrade request is accepted and the response marked as sent before the upgrade. -/
theorem dispatch_webSocket (handler : route.handler = .webSocket)
    (valid : validateUpgrade request = true) :
    (Router.dispatch router context request).filter RequestOp.acts =
      [.handOver (buildUpgradeResponse context.allocate (request.acceptKey context)), .markSent,
        .upgrade] := by
  obtain ⟨asked, given, headers, throws, acts⟩ := execute_handler route.handler arrived
  have sameHeaders : asked.headers = request.headers := headers
  have run : route.handler.run context asked given = ⟨[.handOver (buildUpgradeResponse
      context.allocate (request.acceptKey context)), .markSent, .upgrade], false⟩ := by
    rw [handler, ← acceptKey_of_headers context sameHeaders]
    exact webSocket_valid ((validateUpgrade_of_headers headers).trans valid)
  rw [run] at throws acts
  exact (dispatch_acts matched found throws).trans acts

end Arrived

theorem forward_tunnel (ring : context.ring = true) (asked : request.asksTunnel = true) :
    forward context request = [.upgrade] := by
  rw [forward, if_pos asked, handleWebSocketProxy, if_pos ring]

end Pipeline

end UringServer.Web
