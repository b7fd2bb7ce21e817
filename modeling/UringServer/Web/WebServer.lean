import UringServer.Web.HttpSession
import UringServer.Web.WsHandshake

/-!
# `WebServer`, `Router` and the middlewares

What the server does with a request that `HandleRequest` passes to
`Router::Dispatch`: the route is looked up, its pipeline of middlewares runs and
then its handler, unless a middleware answers instead. The result is the list of
calls they make on the context of the request.

A route is registered with the middlewares that are installed at that time, by
`WebServer::Route` the global ones and by `RouteGroup` also those of the group.
-/

namespace UringServer.Web

open UringServer.Semantics

/-- What a handler finds when a request is dispatched: the calls made to the application so
far, whether the thread has a ring, what the pool gives next, the digest and the clock, and
where the path of the request lies. -/
structure Context where
  calls : List Call := []
  ring : Bool := true
  allocate : Allocate
  sha1 : Text → Text
  date : Text
  pathAddress : Nat := 1

/-- What a handler or middleware does with a request, and whether it ends by an exception. -/
structure Run where
  ops : List RequestOp
  throws : Bool := false

/-- A handler of the application, which leaves it to the server to change the protocol. -/
structure Application where
  run : Context → HttpRequest → HttpResponse → Run
  stays : ∀ context request response, .upgrade ∉ (run context request response).ops

/-- The handler of a route: that of `WebServer::WebSocket`, or one of the application. -/
inductive Handler where
  | webSocket
  | application (application : Application)

/-- What a middleware other than the proxy does: it sends a response, goes on to the next one
with the response and the user it has set, or throws. -/
inductive Filtered where
  | answer (response : HttpResponse)
  | next (response : HttpResponse) (userId : Text)
  | throws

/-- The fields of `ProxyRoute` that select it. -/
structure ProxyRoute where
  hostPattern : Text
  pathStart : Text

/-- The middlewares: `ReverseProxy` with its routes, or one that answers or passes on. -/
inductive Middleware where
  | reverseProxy (routes : List ProxyRoute)
  | filter (process : Context → HttpRequest → HttpResponse → Filtered)

/-- A registered route. -/
structure Route where
  middlewares : List Middleware := []
  handler : Handler

/-- `ReverseProxy::FindRoute`. -/
def findRoute (routes : List ProxyRoute) (host path : Text) : Option ProxyRoute :=
  routes.find? fun route =>
    (route.hostPattern = ascii "*" || route.hostPattern = host) &&
      route.pathStart.isPrefixOf path

/-- `RequestContext::SendError`, unless the pool is empty. -/
def sendError (context : Context) (status : HttpStatus) (message : Text) : List RequestOp :=
  let response : HttpResponse :=
    { status
      contentType := ascii "application/json"
      body := ascii "\x7b\"error\":\"" ++ message ++ ascii "\"\x7d"
      keepAlive := false }
  (response.build context.allocate context.date).elim [] fun buf => [.handOver (some buf)]

/-- The message of both uses of `SendError` in the proxy. -/
def noRing (context : Context) : List RequestOp :=
  sendError context .kInternalServerError (ascii "No IoRing available")

/-- The value of `Upgrade` that makes the proxy tunnel. -/
def HttpRequest.asksTunnel (request : HttpRequest) : Bool :=
  request.getHeader (ascii "Upgrade") = ascii "websocket"

/-- `ReverseProxy::HandleWebSocketProxy`. -/
def handleWebSocketProxy (context : Context) : List RequestOp :=
  if context.ring then [.upgrade] else noRing context

/-- `ReverseProxy::Process` with a route: tunnel, or forward the request and answer from a
callback. -/
def forward (context : Context) (request : HttpRequest) : List RequestOp :=
  if request.asksTunnel then
    handleWebSocketProxy context
  else
    .defer :: if context.ring then [] else noRing context

/-- The route of a proxy for a request. The host ends at a colon. -/
def proxyRoute (routes : List ProxyRoute) (request : HttpRequest) : Option ProxyRoute :=
  findRoute routes ((request.getHeader (ascii "Host")).takeWhile (· ≠ 0x3A)) request.path

/-- The handler of `WebServer::WebSocket`. The buffer is not checked for null. -/
def webSocket (context : Context) (request : HttpRequest) (response : HttpResponse) : Run :=
  if validateUpgrade request then
    let accept := computeAcceptKey context.sha1 (request.getHeader (ascii "Sec-WebSocket-Key"))
    ⟨[.handOver (buildUpgradeResponse context.allocate accept), .markSent, .upgrade], false⟩
  else
    let refusal := { response with
      status := .kBadRequest
      body := ascii "WebSocket upgrade required" }
    ⟨[.set refusal, .respond], false⟩

/-- The call of a handler. -/
def Handler.run (handler : Handler) (context : Context) (request : HttpRequest)
    (response : HttpResponse) : Run :=
  match handler with
  | .webSocket => Web.webSocket context request response
  | .application served => served.run context request response

/-- `Pipeline::Execute`. -/
def execute (context : Context) (handler : Handler) :
    List Middleware → HttpRequest → HttpResponse → Run
  | [], request, response => handler.run context request response
  | .reverseProxy routes :: rest, request, response =>
    if (proxyRoute routes request).isSome then
      ⟨forward context request, false⟩
    else
      execute context handler rest request response
  | .filter process :: rest, request, response =>
    match process context request response with
    | .answer answer => ⟨[.set answer, .respond], false⟩
    | .next changed userId =>
      let run := execute context handler rest
        { request with authenticatedUserId := userId } changed
      { run with ops := .set changed :: run.ops }
    | .throws => ⟨[], true⟩

/-- The response with what the calls have set. -/
def responseAfter (response : HttpResponse) (ops : List RequestOp) : HttpResponse :=
  ops.foldl (fun response op => match op with | .set changed => changed | _ => response) response

/-- Set and send a plain text. -/
def sendText (response : HttpResponse) (status : HttpStatus) (text : Text) : List RequestOp :=
  [.set { response with status, contentType := ascii "text/plain", body := text }, .respond]

/-- `Router::Dispatch`. -/
def Router.dispatch (router : Node Route) (context : Context) (request : HttpRequest) :
    List RequestOp :=
  let response : HttpResponse := { keepAlive := request.keepAlive }
  let result := matchPath router request.method context.pathAddress request.path
  match result.handler with
  | some route =>
    let run := execute context route.handler route.middlewares
      { request with params := result.params } response
    run.ops ++ if run.throws then
      sendText (responseAfter response run.ops) .kInternalServerError
        (ascii "Internal Server Error")
    else
      []
  | none =>
    if result.pathExists then
      sendText response .kMethodNotAllowed (ascii "Method Not Allowed")
    else
      sendText response .kNotFound (ascii "Not Found")

/-- The server as the application of its sessions. -/
def Environment.serving (env : Environment) (router : Node Route)
    (context : List Call → HttpRequest → Context) : Environment :=
  { env with onRequest := fun calls request =>
      Router.dispatch router (context calls request) request }

namespace HttpSession

/-- The context of a thread with a ring and a pool with room. -/
def roomyContext (_ : List Call) (_ : HttpRequest) : Context where
  allocate := allocateZeros
  sha1 := id
  date := Environment.quiet.date

/-- A server with a WebSocket route at `/ws`. -/
def upgrading : Environment :=
  Environment.quiet.serving (insert {} .get (ascii "/ws") (some { handler := .webSocket }))
    roomyContext

/-- The bytes of a valid upgrade request. -/
def upgradeBytes : Text :=
  ascii "GET /ws HTTP/1.1\r\nHost: a\r\nUpgrade: websocket\r\nConnection: Upgrade\r\n" ++
    ascii "Sec-WebSocket-Version: 13\r\nSec-WebSocket-Key: dGhlIHNhbXBsZSBub25jZQ==\r\n\r\n"

end HttpSession

end UringServer.Web
