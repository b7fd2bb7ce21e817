import UringServer.Auth.AuthMiddleware
import UringServer.Web.RouteTable

/-!
# What the exclusions let through

An entry excludes every path that starts with its text, wherever a segment of the
path ends: `/login` also excludes `/login-admin`. A handler behind one of the two
middlewares runs without an accepted token only for paths that an entry names up
to a slash, exactly if no path is excluded otherwise.
-/

namespace UringServer.Auth

open UringServer.Semantics UringServer.Web

section Pipeline

variable {context : Context} {middlewares : List Middleware} {request asked : HttpRequest}
  {response given : HttpResponse}

/-- The request and the response with which a pipeline calls the handler. -/
def delivered (context : Context) :
    List Middleware → HttpRequest → HttpResponse → Option (HttpRequest × HttpResponse)
  | [], request, response => some (request, response)
  | .reverseProxy routes :: rest, request, response =>
    if (proxyRoute routes request).isSome then none else delivered context rest request response
  | .filter process :: rest, request, response =>
    match process context request response with
    | .next changed userId =>
      delivered context rest { request with authenticatedUserId := userId } changed
    | _ => none

theorem delivered_reverseProxy {routes : List ProxyRoute}
    (calls : delivered context (.reverseProxy routes :: middlewares) request response =
      some (asked, given)) :
    ¬ (proxyRoute routes request).isSome = true ∧
      delivered context middlewares request response = some (asked, given) := by
  rw [delivered] at calls
  split_ifs at calls with routed
  exact ⟨routed, calls⟩

/-- A filter before the handler called `next`. -/
theorem delivered_filter {process : Context → HttpRequest → HttpResponse → Filtered}
    (calls : delivered context (.filter process :: middlewares) request response =
      some (asked, given)) :
    ∃ changed userId, process context request response = .next changed userId ∧
      delivered context middlewares { request with authenticatedUserId := userId } changed =
        some (asked, given) := by
  rw [delivered] at calls
  cases filtered : process context request response with
  | answer | throws =>
    rw [filtered] at calls
    cases calls
  | next changed userId =>
    rw [filtered] at calls
    exact ⟨changed, userId, rfl, calls⟩

/-- A pipeline that calls the handler does what the handler does, after setting fields of the
response. -/
theorem execute_of_delivered (handler : Handler)
    (calls : delivered context middlewares request response = some (asked, given)) :
    ∃ changes : List HttpResponse, execute context handler middlewares request response =
      { handler.run context asked given with
        ops := changes.map .set ++ (handler.run context asked given).ops } := by
  induction middlewares generalizing request response with
  | nil =>
    cases calls
    exact ⟨[], rfl⟩
  | cons middleware rest ih =>
    cases middleware with
    | reverseProxy routes =>
      obtain ⟨unrouted, reached⟩ := delivered_reverseProxy calls
      rw [execute, if_neg unrouted]
      exact ih reached
    | filter process =>
      obtain ⟨changed, userId, passed, reached⟩ := delivered_filter calls
      obtain ⟨changes, runs⟩ := ih reached
      refine ⟨changed :: changes, ?_⟩
      rw [execute, passed]
      dsimp only
      rw [runs]
      rfl

/-- Otherwise what it does has nothing to do with the handler. -/
theorem execute_of_not_delivered (handler other : Handler)
    (stops : delivered context middlewares request response = none) :
    execute context handler middlewares request response =
      execute context other middlewares request response := by
  induction middlewares generalizing request response with
  | nil => cases stops
  | cons middleware rest ih =>
    cases middleware with
    | reverseProxy routes =>
      simp only [delivered, execute] at stops ⊢
      split_ifs at stops ⊢
      · rfl
      · exact ih stops
    | filter process =>
      simp only [delivered, execute] at stops ⊢
      cases filtered : process context request response with
      | answer | throws => rfl
      | next changed userId =>
        rw [filtered] at stops
        dsimp only
        rw [ih stops]

/-- A middleware that leaves the user of a request as it is. -/
def KeepsUser : Middleware → Prop
  | .reverseProxy _ => True
  | .filter process => ∀ context request response changed userId,
      process context request response = .next changed userId →
        userId = request.authenticatedUserId

/-- The middlewares of a route: those of authentication, and others that leave the user alone. -/
def Wraps (middlewares : List Middleware) : Prop :=
  ∀ middleware ∈ middlewares, KeepsUser middleware ∨ ∃ auth : AuthMiddleware,
    middleware = auth.middleware

/-- A user from a token that a middleware of the route accepted. -/
def Subject (context : Context) (middlewares : List Middleware) (request : HttpRequest)
    (userId : Text) : Prop :=
  ∃ auth : AuthMiddleware, auth.middleware ∈ middlewares ∧
    ∃ claims, auth.Accepts context request claims ∧ userId = claims.sub

/-- The token of a request is in its headers. -/
theorem accepts_of_headers {auth : AuthMiddleware} {claims : JwtClaims} {other : HttpRequest}
    (accepts : auth.Accepts context other claims) (same : other.headers = request.headers) :
    auth.Accepts context request claims := by
  obtain ⟨token, presented, accepted⟩ := accepts
  refine ⟨token, ?_, accepted⟩
  have header : ∀ name, other.getHeader name = request.getHeader name := by
    intro name
    rw [HttpRequest.getHeader, HttpRequest.getHeader, same]
  cases auth with
  | auth | cookieAuth =>
    rw [AuthMiddleware.presented, header] at presented
    exact presented

theorem Subject.mono {more : List Middleware} {other : HttpRequest} {userId : Text}
    (subject : Subject context middlewares other userId) (within : middlewares ⊆ more)
    (same : other.headers = request.headers) : Subject context more request userId := by
  obtain ⟨auth, member, claims, accepts, isSub⟩ := subject
  exact ⟨auth, within member, claims, accepts_of_headers accepts same, isSub⟩

/-- The same for the request that a middleware passes on. -/
theorem Subject.cons {middleware : Middleware} {userId set : Text}
    (subject : Subject context middlewares { request with authenticatedUserId := set } userId) :
    Subject context (middleware :: middlewares) request userId :=
  subject.mono (List.subset_cons_self ..) rfl

/-- The user with which the handler is called is the one before, or from an accepted token. -/
theorem user_of_delivered (wraps : Wraps middlewares)
    (calls : delivered context middlewares request response = some (asked, given)) :
    asked.authenticatedUserId = request.authenticatedUserId ∨
      Subject context middlewares request asked.authenticatedUserId := by
  induction middlewares generalizing request response with
  | nil =>
    cases calls
    exact .inl rfl
  | cons middleware rest ih =>
    obtain ⟨first, others⟩ := List.forall_mem_cons.mp wraps
    cases middleware with
    | reverseProxy routes =>
      have reached := (delivered_reverseProxy calls).2
      exact (ih others reached).imp_right .cons
    | filter process =>
      obtain ⟨changed, userId, passed, reached⟩ := delivered_filter calls
      rcases ih others reached with same | subject
      · rcases first with keeps | ⟨auth, isAuth⟩
        · exact .inl (same.trans (keeps _ _ _ _ _ passed))
        · cases isAuth
          rcases auth.process_next passed with ⟨-, kept⟩ | ⟨claims, accepts, isSub⟩
          · exact .inl (same.trans kept)
          · exact .inr ⟨auth, List.mem_cons_self, claims, accepts, same.trans isSub⟩
      · exact .inr subject.cons

/-- Every middleware of authentication on the way has the path excluded, or accepted a token, from
which the user is then. -/
theorem authenticated_of_delivered {auth : AuthMiddleware} (wraps : Wraps middlewares)
    (member : auth.middleware ∈ middlewares)
    (calls : delivered context middlewares request response = some (asked, given)) :
    isExcluded auth.excluded request.path = true ∨
      (∃ claims, auth.Accepts context request claims) ∧
        Subject context middlewares request asked.authenticatedUserId := by
  induction middlewares generalizing request response with
  | nil => cases member
  | cons middleware rest ih =>
    obtain ⟨first, others⟩ := List.forall_mem_cons.mp wraps
    cases middleware with
    | reverseProxy routes =>
      have reached := (delivered_reverseProxy calls).2
      rcases List.mem_cons.mp member with isFirst | member
      · cases isFirst
      · exact (ih others member reached).imp_right fun both =>
          ⟨both.1, both.2.cons⟩
    | filter process =>
      obtain ⟨changed, userId, passed, reached⟩ := delivered_filter calls
      rcases List.mem_cons.mp member with isFirst | member
      · cases isFirst
        rcases auth.process_next passed with ⟨excluded, -⟩ | ⟨claims, accepts, isSub⟩
        · exact .inl excluded
        · refine .inr ⟨⟨claims, accepts⟩, ?_⟩
          rcases user_of_delivered others reached with same | subject
          · exact ⟨auth, List.mem_cons_self, claims, accepts, same.trans isSub⟩
          · exact subject.cons
      · refine (ih others member reached).imp_right fun both => ?_
        obtain ⟨⟨claims, accepts⟩, subject⟩ := both
        exact ⟨⟨claims, accepts_of_headers accepts rfl⟩, subject.cons⟩

end Pipeline

/-- The server calls the handler of a route for a request. -/
def HandlerRuns (router : Node Route) (context : Context) (request : HttpRequest) (route : Route)
    (asked : HttpRequest) : Prop :=
  (matchPath router request.method context.pathAddress request.path).handler = some route ∧
    ∃ given, delivered context route.middlewares
      { request with
        params := (matchPath router request.method context.pathAddress request.path).params }
      { keepAlive := request.keepAlive } = some (asked, given)

/-- A path that is an entry, or goes on from one at a slash. -/
def AtBoundary (excluded : List Text) (path : Text) : Prop :=
  ∃ entry ∈ excluded, path = entry ∨ entry ++ [slash] <+: path ∨
    entry.getLast? = some slash ∧ entry <+: path

/-- The handlers behind a middleware of authentication run for requests with this path only if the
path is at the boundary of an entry, or for a user of an accepted token. -/
def Protects (auth : AuthMiddleware) (path : Text) : Prop :=
  ∀ router context request route asked, request.path = path →
    auth.middleware ∈ route.middlewares → Wraps route.middlewares →
    HandlerRuns router context request route asked →
    AtBoundary auth.excluded path ∨
      (∃ claims, auth.Accepts context request claims) ∧
        Subject context route.middlewares request asked.authenticatedUserId

/-- A router with one route for all paths. -/
def catchAll (route : Route) : Node Route :=
  insertAll [⟨.get, ascii "/", route⟩, ⟨.get, ascii "/*rest", route⟩]

theorem catchAll_matches (route : Route) (base : Nat) (path : Text) :
    (matchPath (catchAll route) .get base path).handler = some route := by
  rw [catchAll, matchPath_handler]
  cases found : select (latest [⟨.get, ascii "/", route⟩, ⟨.get, ascii "/*rest", route⟩] .get)
      ((splitPathView base path).map Segment.text) with
  | none =>
    rw [select_eq_none_iff] at found
    cases texts : (splitPathView base path).map Segment.text with
    | nil => exact absurd (found [] (texts ▸ trivial)) nofun
    | cons segment rest => exact absurd (found [.wildcard] (texts ▸ trivial)) nofun
  | some other =>
    obtain ⟨pattern, isOther, -⟩ := select_selects found
    have member := List.mem_of_getLast? isOther
    obtain ⟨call, isCall, rfl⟩ := List.mem_map.mp member
    have either := (List.mem_filter.mp isCall).1
    rw [List.mem_pair] at either
    rcases either with rfl | rfl
    · rfl
    · rfl

/-- For a request without headers there is no token. -/
theorem not_accepts_of_no_headers {auth : AuthMiddleware} {context : Context}
    {request : HttpRequest} {claims : JwtClaims} (none_ : request.headers = []) :
    ¬ auth.Accepts context request claims := by
  rintro ⟨token, presented, -⟩
  have header : ∀ name, request.getHeader name = [] := by
    intro name
    rw [HttpRequest.getHeader, none_]
    rfl
  cases auth with
  | auth =>
    rw [AuthMiddleware.presented, header] at presented
    cases presented
  | cookieAuth =>
    rw [AuthMiddleware.presented, header, extractCookie, Loop.run_of_none rfl] at presented
    cases presented

/-- Behind one middleware only, the handler is called for an excluded path. -/
theorem delivered_excluded {auth : AuthMiddleware} {context : Context} {request : HttpRequest}
    {response : HttpResponse} (excluded : isExcluded auth.excluded request.path = true) :
    delivered context [auth.middleware] request response = some (request, response) := by
  rw [AuthMiddleware.middleware, delivered, AuthMiddleware.process_excluded excluded]
  rfl

/-- A middleware of authentication protects a path exactly if it does not exclude it other than at
the boundary of an entry. -/
theorem protects_iff_excluded_atBoundary (auth : AuthMiddleware) (path : Text) :
    Protects auth path ↔
      (isExcluded auth.excluded path = true → AtBoundary auth.excluded path) := by
  constructor
  · intro protects excluded
    let route : Route := { middlewares := [auth.middleware], handler := .webSocket }
    let context : Context := { allocate := fun _ => none, sha1 := id, date := [] }
    let request : HttpRequest := { method := .get, path := path }
    have wraps : Wraps route.middlewares := fun middleware member =>
      .inr ⟨auth, List.mem_singleton.mp member⟩
    have runs : HandlerRuns (catchAll route) context request route _ :=
      ⟨catchAll_matches route _ path, _, delivered_excluded excluded⟩
    rcases protects (catchAll route) context request route _ rfl List.mem_cons_self wraps runs with
      boundary | ⟨⟨claims, accepts⟩, -⟩
    · exact boundary
    · exact absurd accepts (not_accepts_of_no_headers rfl)
  · intro boundary router context request route asked isPath member wraps runs
    obtain ⟨-, given, calls⟩ := runs
    rcases authenticated_of_delivered wraps member calls with
      excluded | ⟨⟨claims, accepts⟩, subject⟩
    · exact .inl (boundary (isPath ▸ excluded))
    · exact .inr ⟨⟨claims, accepts_of_headers accepts rfl⟩, subject.mono (List.Subset.refl _) rfl⟩

/-- A login that is open to all, and an administration that is not meant to be. -/
def loginAuth : AuthMiddleware :=
  .cookieAuth ⟨playerLibrary, signWith (fun secret data => secret ++ data) (ascii "secret"),
    fun _ => 10⟩ (ascii "token") [ascii "/login"]

def adminRoute : Route := { middlewares := [loginAuth.middleware], handler := .webSocket }

def adminRequest : HttpRequest := { method := .get, path := ascii "/login-admin" }

/-- The handler of `/login-admin` runs for a request without any token. -/
theorem admin_not_protected :
    (∃ asked, HandlerRuns (insertAll [⟨.get, ascii "/login-admin", adminRoute⟩])
        { allocate := fun _ => none, sha1 := id, date := [] } adminRequest adminRoute asked ∧
      asked.authenticatedUserId = []) ∧
      ¬ AtBoundary loginAuth.excluded (ascii "/login-admin") ∧
      (∀ context claims, ¬ loginAuth.Accepts context adminRequest claims) ∧
      ¬ Protects loginAuth (ascii "/login-admin") := by
  have outside : ¬ AtBoundary loginAuth.excluded (ascii "/login-admin") := by
    rintro ⟨entry, member, here⟩
    rw [List.mem_singleton.mp member] at here
    exact absurd here (by decide)
  have excluded : isExcluded loginAuth.excluded (ascii "/login-admin") = true := by decide
  have tokenless : ∀ context claims, ¬ loginAuth.Accepts context adminRequest claims :=
    fun _ _ => not_accepts_of_no_headers rfl
  have runs : HandlerRuns (insertAll [⟨.get, ascii "/login-admin", adminRoute⟩])
      { allocate := fun _ => none, sha1 := id, date := [] } adminRequest adminRoute _ :=
    ⟨rfl, _, delivered_excluded excluded⟩
  have wraps : Wraps adminRoute.middlewares := fun middleware member =>
    .inr ⟨loginAuth, List.mem_singleton.mp member⟩
  refine ⟨⟨_, runs, rfl⟩, outside, tokenless, fun protects => ?_⟩
  rcases protects _ _ adminRequest adminRoute _ rfl List.mem_cons_self wraps runs with
    boundary | ⟨⟨claims, accepts⟩, -⟩
  · exact outside boundary
  · exact tokenless _ claims accepts

end UringServer.Auth
