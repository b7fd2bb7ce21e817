import UringServer.Web.Dispatch

/-!
# How a session becomes a WebSocket

Two places call `UpgradeToWebSocket`, the handler of `WebServer::WebSocket` and
the reverse proxy, and only the first one checks the request and answers it.
-/

namespace UringServer.Web

open UringServer.Semantics

/-- The pool has a buffer for the response to an upgrade request. -/
def CanAccept (context : Context) (request : HttpRequest) : Prop :=
  (context.allocate
    (UInt32.ofNat (upgradeResponse (request.acceptKey context)).length)).isSome = true

/-- A request that meets a proxy does not ask for a tunnel from a thread with a ring, and if
it is a valid upgrade request that meets the handler of `WebServer::WebSocket` then the pool
has a buffer for the response. -/
def MeetsHandshake (router : Node Route) (context : Context) (request : HttpRequest) : Prop :=
  let result := matchPath router request.method context.pathAddress request.path
  ∀ route, result.handler = some route →
    match arrival context route.middlewares { request with params := result.params }
      { keepAlive := request.keepAlive } with
    | .stopped => True
    | .proxy => ¬ (context.ring = true ∧ request.asksTunnel = true)
    | .handler =>
      match route.handler with
      | .webSocket => validateUpgrade request = true → CanAccept context request
      | .application _ => True

/-- A response that `Build` wrote is not that of an upgrade: the reason phrases differ. -/
theorem serialize_ne_upgradeResponse (response : HttpResponse) (date acceptKey : Text) :
    response.serialize date ≠ upgradeResponse acceptKey := by
  intro same
  obtain ⟨rest, built⟩ : ∃ rest, response.serialize date = ascii "HTTP/1.1 " ++
      (decimal response.status.code ++ 0x20 ::
        (ascii (httpStatusToString response.status) ++ 0x0D :: rest)) := by
    unfold HttpResponse.serialize
    simp only [List.append_assoc]
    exact ⟨_, rfl⟩
  obtain ⟨others, upgrade⟩ : ∃ others, upgradeResponse acceptKey = ascii "HTTP/1.1 " ++
      (ascii "101" ++ 0x20 :: (ascii "Sw" ++ others)) := by
    have start :
        ascii "HTTP/1.1 101 Switching Protocols\r\nUpgrade: websocket\r\nConnection: Upgrade\r\n" =
          ascii "HTTP/1.1 " ++ (ascii "101" ++ 0x20 :: (ascii "Sw" ++
            ascii "itching Protocols\r\nUpgrade: websocket\r\nConnection: Upgrade\r\n")) := by
      decide +kernel
    unfold upgradeResponse
    rw [start]
    simp only [List.append_assoc, List.cons_append]
    exact ⟨_, rfl⟩
  rw [built, upgrade] at same
  have phrase := congrArg (List.dropWhile (· ≠ 0x20)) (List.append_cancel_left same)
  rw [List.dropWhile_append_of_pos, List.dropWhile_append_of_pos] at phrase
  · have tails := List.tail_eq_of_cons_eq phrase
    exact httpStatusToString_not_switching response.status rest ⟨_, tails.symm⟩
  · exact List.all_eq_true.mp rfl
  · intro digit member
    have other := ne_of_mem_of_not_mem member (decimal_no_space _)
    simpa using other

namespace HttpSession

variable {Parser : Type} {env : Environment} {state : HttpSession Parser} {request : HttpRequest}

/-- The buffers handed to `Session::Send` as responses while a request is handled. -/
def handed (env : Environment) (state : HttpSession Parser) (request : HttpRequest) :
    List (Option Text) :=
  ((state.handleRequest env request).history.responses.drop
    state.history.responses.length).map ResponseRecord.bytes

/-- The buffers of all responses so far. -/
def buffers (state : HttpSession Parser) : List (Option Text) :=
  state.history.responses.map ResponseRecord.bytes

theorem handed_eq {added : List (Option Text)}
    (after : (state.answered env request).buffers = state.buffers ++ added) :
    state.handed env request = added := by
  have same : (state.handleRequest env request).history.responses =
      (state.answered env request).history.responses :=
    congrArg Ledger.responses handleRequest_ledger
  have count : state.history.responses.length = state.buffers.length := by
    rw [buffers, List.length_map]
  rw [handed, same, List.map_drop, count]
  exact (congrArg (List.drop state.buffers.length) after).trans List.drop_left

theorem handResponse_buffers (number : Nat) (buf : Text) (state : HttpSession Parser) :
    (state.handResponse env number buf).buffers = state.buffers ++ [some buf] :=
  List.map_append

theorem handNull_buffers (number : Nat) (state : HttpSession Parser) :
    (state.handNull number).buffers = state.buffers ++ [none] :=
  List.map_append

theorem upgradeToWebSocket_buffers (state : HttpSession Parser) :
    (state.upgradeToWebSocket env).buffers = state.buffers :=
  congrArg (fun ledger => ledger.responses.map ResponseRecord.bytes)
    (callHandler_calls env _ .onOpen).ledger

/-- The handler of `WebServer::WebSocket` hands over the one response. -/
theorem handed_webSocket {buf : Option Text}
    (acts : (env.onRequest state.calls request).filter RequestOp.acts =
      [.handOver buf, .markSent, .upgrade]) : state.handed env request = [buf] := by
  have answered := answered_of_acts acts (by simp) (by cases buf <;> rfl)
  refine handed_eq ?_
  rw [answered]
  refine (upgradeToWebSocket_buffers _).trans ?_
  cases buf with
  | none => exact handNull_buffers _ _
  | some buf => exact handResponse_buffers _ _ _

/-- What `Send` hands over: the response, as long as the pool has a buffer. -/
theorem Handling.send_buffers (env : Environment) (number : Nat) (handling : Handling Parser) :
    (handling.send env number).session.buffers = handling.session.buffers ∨
      (handling.send env number).session.buffers =
        handling.session.buffers ++ [some (handling.response.serialize env.date)] := by
  unfold Handling.send
  split_ifs
  · exact .inl rfl
  · dsimp only [HttpResponse.build]
    cases env.allocate handling.session.history.allocations _ with
    | none => exact .inl rfl
    | some buf => exact .inr (handResponse_buffers _ _ _)

/-- After the proxy has upgraded, nothing is handed over but what `HandleRequest` sends. -/
theorem handed_tunnel
    (acts : (env.onRequest state.calls request).filter RequestOp.acts = [.upgrade]) :
    state.handed env request = [] ∨ ∃ response : HttpResponse,
      state.handed env request = [some (response.serialize env.date)] := by
  have never : .respond ∉ env.onRequest state.calls request := fun member => by
    have here := List.mem_filter.mpr ⟨member, (rfl : RequestOp.acts .respond = true)⟩
    rw [acts] at here
    simp at here
  have alike := Handling.runOps_acts env state.history.dispatched never
    (⟨rfl, rfl⟩ : (state.handling request).Alike (state.handling request))
  rw [acts] at alike
  have before : (state.dispatch env request).session.buffers = state.buffers := by
    have same : (state.dispatch env request).session = _ := alike.session.symm
    rw [same]
    exact upgradeToWebSocket_buffers _
  have sent := (state.dispatch env request).send_buffers env state.history.dispatched
  rw [before] at sent
  rcases sent with none | one
  · exact .inl (handed_eq (none.trans (List.append_nil _).symm))
  · exact .inr ⟨_, handed_eq one⟩

/-- What is asked of a request that upgrades the session: it is a valid upgrade request, and
the response with its accept key is all that was handed over. -/
def Completed (env : Environment) (context : Context) (state : HttpSession Parser)
    (request : HttpRequest) : Prop :=
  validateUpgrade request = true ∧
    state.handed env request = [some (upgradeResponse (request.acceptKey context))]

variable {router : Node Route} {context : Context} {route : Route}

/-- A request that meets a proxy with a route. -/
theorem completed_proxy
    (served : env.onRequest state.calls request = Router.dispatch router context request)
    (acts : (Router.dispatch router context request).filter RequestOp.acts =
      (forward context request).filter RequestOp.acts) :
    (.upgrade ∈ Router.dispatch router context request → Completed env context state request) ↔
      ¬ (context.ring = true ∧ request.asksTunnel = true) := by
  constructor
  · rintro completes ⟨ring, asked⟩
    rw [forward_tunnel ring asked] at acts
    have upgrades : .upgrade ∈ Router.dispatch router context request :=
      upgrade_mem_acts.mp (by simp [acts, RequestOp.acts])
    have handed := (completes upgrades).2
    rw [← served] at acts
    rcases handed_tunnel acts with nothing | ⟨response, plain⟩
    · rw [nothing] at handed
      cases handed
    · rw [plain] at handed
      exact serialize_ne_upgradeResponse response _ _
        (Option.some.inj (List.head_eq_of_cons_eq handed))
  · intro unasked upgrades
    rw [← upgrade_mem_acts, acts, upgrade_mem_acts] at upgrades
    exact absurd upgrades (forward_stays unasked)

/-- A valid upgrade request that meets the handler of `WebServer::WebSocket`. -/
theorem completed_webSocket
    (served : env.onRequest state.calls request = Router.dispatch router context request)
    (valid : validateUpgrade request = true)
    (acts : (Router.dispatch router context request).filter RequestOp.acts =
      [.handOver (buildUpgradeResponse context.allocate (request.acceptKey context)), .markSent,
        .upgrade]) :
    (.upgrade ∈ Router.dispatch router context request → Completed env context state request) ↔
      CanAccept context request := by
  have upgrades : .upgrade ∈ Router.dispatch router context request :=
    upgrade_mem_acts.mp (by simp [acts])
  have handed := handed_webSocket (served ▸ acts)
  unfold CanAccept Completed
  rw [handed, buildUpgradeResponse]
  cases allocated : context.allocate _ with
  | none => simp [upgrades]
  | some buffer => simp [valid]

/-- When a request upgrades the session, it is a valid upgrade request and the one response
handed over for it is the accepting one, exactly if it meets no proxy that tunnels it and no
handler without a buffer to accept it. -/
theorem httpSession_upgrade_completes_handshake (env : Environment) (router : Node Route)
    (contexts : List Call → HttpRequest → Context) (state : HttpSession Parser)
    (request : HttpRequest) :
    (.upgrade ∈ Router.dispatch router (contexts state.calls request) request →
        Completed (env.serving router contexts) (contexts state.calls request) state request) ↔
      MeetsHandshake router (contexts state.calls request) request := by
  have served : (env.serving router contexts).onRequest state.calls request =
    Router.dispatch router (contexts state.calls request) request := rfl
  generalize contexts state.calls request = context at served ⊢
  generalize env.serving router contexts = server at served ⊢
  unfold MeetsHandshake
  generalize matched : matchPath router request.method context.pathAddress request.path = result
  dsimp only
  cases found : result.handler with
  | none =>
    have stays := dispatch_unmatched (matched ▸ found)
    exact iff_of_true (absurd · stays) nofun
  | some route =>
    simp only [Option.some.injEq, forall_eq']
    cases ends : arrival context route.middlewares { request with params := result.params }
      { keepAlive := request.keepAlive } with
    | stopped =>
      have stays := dispatch_stays matched found (execute_stopped ends)
      exact iff_of_true (absurd · stays) trivial
    | proxy =>
      obtain ⟨quiet, acts⟩ := execute_proxy ends
      exact completed_proxy served ((dispatch_acts matched found quiet).trans acts)
    | handler =>
      cases handler : route.handler with
      | application application =>
        have stays := dispatch_application matched found ends handler
        exact iff_of_true (absurd · stays) trivial
      | webSocket =>
        dsimp only
        by_cases valid : validateUpgrade request = true
        · have acts := dispatch_webSocket matched found ends handler valid
          rw [completed_webSocket served valid acts]
          exact ⟨fun accepts _ => accepts, fun accepts => accepts valid⟩
        · have stays := dispatch_invalid matched found ends handler valid
          exact iff_of_true (absurd · stays) (absurd · valid)

/-- A WebSocket route on the root behind a proxy for all hosts and paths. -/
def proxiedRouter : Node Route :=
  insert {} .get [slash] (some
    { middlewares := [.reverseProxy [⟨ascii "*", ascii "/"⟩]], handler := .webSocket })

/-- A request that asks for a WebSocket and gives no key. -/
def keylessRequest : HttpRequest where
  method := .get
  path := [slash]
  headers := [(ascii "Host", ascii "localhost"), (ascii "Upgrade", ascii "websocket")]

/-- The proxy upgrades a request that is not valid, and it is answered by an empty response
with status 200. -/
theorem httpSession_upgrade_without_handshake :
    .upgrade ∈ Router.dispatch proxiedRouter (roomyContext [] keylessRequest) keylessRequest ∧
      validateUpgrade keylessRequest = false ∧
      (start headParser false false).handed
          (Environment.quiet.serving proxiedRouter roomyContext) keylessRequest =
        [some (HttpResponse.serialize {} Environment.quiet.date)] ∧
      ¬ Completed (Environment.quiet.serving proxiedRouter roomyContext)
        (roomyContext [] keylessRequest) (start headParser false false) keylessRequest := by
  have invalid : validateUpgrade keylessRequest = false := by decide
  refine ⟨List.mem_singleton.mpr rfl, invalid, rfl, fun completed => ?_⟩
  rw [Completed, invalid] at completed
  cases completed.1

end HttpSession

end UringServer.Web
