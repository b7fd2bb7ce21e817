import UringServer.Auth.JwtCodec
import UringServer.Semantics.Loop
import UringServer.Web.WebServer

/-!
# `Auth` and `CookieAuth`

The middlewares that let a request pass if its path is excluded or if it has a
token that `JwtCodec::Decode` accepts, from the `Authorization` field or from a
cookie. `AuthService::VerifyToken` is `Decode`.
-/

namespace UringServer.Auth

open UringServer.Semantics UringServer.Web

/-- `JwtCodec` with its secret, and the clock that `Decode` reads. -/
structure JwtCodec where
  library : JsonLibrary
  sign : Text → Text
  now : Context → Int64

/-- `IsExcluded` of both middlewares. -/
def isExcluded (excluded : List Text) (path : Text) : Bool :=
  excluded.any fun entry => path.take entry.length = entry

/-- The response with the status and the error of a refusal, sent. -/
def refuse (response : HttpResponse) (error : Text) : Filtered :=
  .answer { response with
    status := .kUnauthorized
    contentType := ascii "application/json"
    body := ascii "\x7b\"error\":\"" ++ error ++ ascii "\"\x7d" }

/-- What both middlewares do with a token. -/
def checkToken (codec : JwtCodec) (context : Context) (token : Text) (response : HttpResponse) :
    Filtered :=
  match decode codec.library codec.sign token (codec.now context) with
  | .claims claims => .next response claims.sub
  | .error _ => refuse response (ascii "invalid or expired token")
  | .thrown => .throws

/-- What stands in front of a token in the `Authorization` field. -/
def bearer : Text := ascii "Bearer "

/-- `Auth::Process`. -/
def processAuth (codec : JwtCodec) (excluded : List Text) (context : Context)
    (request : HttpRequest) (response : HttpResponse) : Filtered :=
  if isExcluded excluded request.path then
    .next response request.authenticatedUserId
  else
    let header := request.getHeader (ascii "Authorization")
    if header = [] then
      refuse response (ascii "missing authorization header")
    else if header.length ≤ bearer.length ∨ header.take bearer.length ≠ bearer then
      refuse response (ascii "invalid authorization format")
    else
      checkToken codec context (header.drop bearer.length) response

/-- The cookies that are left, and the value that was found. -/
structure CookieScan where
  remaining : Text
  found : Option Text := none

/-- One pass of the loop in `ExtractCookie`; leaving it is to have no cookies left. -/
def cookieStep (name : Text) (scan : CookieScan) : Option CookieScan :=
  if scan.remaining = [] then
    none
  else
    let remaining := scan.remaining.dropWhile (· = 0x20)
    let semi := findElement remaining 0x3B 0
    let pair := semi.elim remaining remaining.take
    let rest := semi.elim [] fun semi => remaining.drop (semi + 1)
    match findElement pair 0x3D 0 with
    | some eq =>
      let key := (pair.take eq).reverse.dropWhile (· = 0x20) |>.reverse
      if key = name then
        some { remaining := [], found := some (pair.drop (eq + 1)) }
      else
        some { scan with remaining := rest }
    | none => some { scan with remaining := rest }

theorem cookieStep_lt {name : Text} {scan next : CookieScan}
    (taken : cookieStep name scan = some next) :
    next.remaining.length < scan.remaining.length := by
  unfold cookieStep at taken
  split at taken
  case isTrue => cases taken
  case isFalse some_ =>
    have positive := List.length_pos_iff.mpr some_
    have skipped := (List.dropWhile_sublist (fun byte => decide (byte = 0x20))
      (l := scan.remaining)).length_le
    dsimp only at taken
    have shorter : ((findElement (scan.remaining.dropWhile (· = 0x20)) 0x3B 0).elim []
        fun semi => (scan.remaining.dropWhile (· = 0x20)).drop (semi + 1)).length <
        scan.remaining.length := by
      cases findElement (scan.remaining.dropWhile (· = 0x20)) 0x3B 0 with
      | none => exact positive
      | some semi =>
        rw [Option.elim_some, List.length_drop]
        omega
    split at taken
    case h_1 =>
      split at taken
      · cases taken
        exact positive
      · cases taken
        exact shorter
    case h_2 =>
      cases taken
      exact shorter

/-- The loop of `ExtractCookie`. -/
def cookieLoop (name : Text) : Loop CookieScan where
  body := cookieStep name
  Inv _ := True
  remaining scan := scan.remaining.length
  preserved _ _ := trivial
  decreases _ taken := cookieStep_lt taken

/-- `CookieAuth::ExtractCookie`. -/
def extractCookie (cookieHeader name : Text) : Option Text :=
  ((cookieLoop name).run { remaining := cookieHeader }).found

example : extractCookie (ascii "a=1; token =abc") (ascii "token") = some (ascii "abc") := by decide

/-- `CookieAuth::Process`. -/
def processCookieAuth (codec : JwtCodec) (cookieName : Text) (excluded : List Text)
    (context : Context) (request : HttpRequest) (response : HttpResponse) : Filtered :=
  if isExcluded excluded request.path then
    .next response request.authenticatedUserId
  else
    let cookieHeader := request.getHeader (ascii "Cookie")
    if cookieHeader = [] then
      refuse response (ascii "not authenticated")
    else match extractCookie cookieHeader cookieName with
      | none => refuse response (ascii "token cookie not found")
      | some token => checkToken codec context token response

/-- The token in an `Authorization` field. -/
def bearerToken (header : Text) : Option Text :=
  if header.length ≤ bearer.length ∨ header.take bearer.length ≠ bearer then none
  else some (header.drop bearer.length)

/-- One of the two middlewares. -/
inductive AuthMiddleware where
  | auth (codec : JwtCodec) (excludePrefixes : List Text)
  | cookieAuth (codec : JwtCodec) (cookieName : Text) (excludePaths : List Text)

namespace AuthMiddleware

def codec : AuthMiddleware → JwtCodec
  | .auth codec _ => codec
  | .cookieAuth codec _ _ => codec

/-- The entries that are excluded. -/
def excluded : AuthMiddleware → List Text
  | .auth _ excludePrefixes => excludePrefixes
  | .cookieAuth _ _ excludePaths => excludePaths

def process : AuthMiddleware → Context → HttpRequest → HttpResponse → Filtered
  | .auth codec excludePrefixes => processAuth codec excludePrefixes
  | .cookieAuth codec cookieName excludePaths => processCookieAuth codec cookieName excludePaths

/-- The middleware in the pipeline of a route. -/
def middleware (auth : AuthMiddleware) : Middleware := .filter auth.process

/-- The token that a request has for the middleware. -/
def presented : AuthMiddleware → HttpRequest → Option Text
  | .auth _ _, request => bearerToken (request.getHeader (ascii "Authorization"))
  | .cookieAuth _ cookieName _, request =>
    extractCookie (request.getHeader (ascii "Cookie")) cookieName

/-- A request has a token that `Decode` accepts with these claims. -/
def Accepts (auth : AuthMiddleware) (context : Context) (request : HttpRequest)
    (claims : JwtClaims) : Prop :=
  ∃ token, auth.presented request = some token ∧
    decode auth.codec.library auth.codec.sign token (auth.codec.now context) = .claims claims

end AuthMiddleware

theorem checkToken_next {codec : JwtCodec} {context : Context} {token : Text}
    {response changed : HttpResponse} {userId : Text}
    (passed : checkToken codec context token response = .next changed userId) :
    ∃ claims, decode codec.library codec.sign token (codec.now context) = .claims claims ∧
      userId = claims.sub := by
  unfold checkToken at passed
  split at passed
  case h_1 claims accepted =>
    cases passed
    exact ⟨claims, accepted, rfl⟩
  case h_2 => cases passed
  case h_3 => cases passed

/-- A request that passes is excluded and has its user as before, or has an accepted token, and
its user from it. -/
theorem AuthMiddleware.process_next {auth : AuthMiddleware} {context : Context}
    {request : HttpRequest} {response changed : HttpResponse} {userId : Text}
    (passed : auth.process context request response = .next changed userId) :
    (isExcluded auth.excluded request.path = true ∧ userId = request.authenticatedUserId) ∨
      ∃ claims, auth.Accepts context request claims ∧ userId = claims.sub := by
  cases auth with
  | auth codec excludePrefixes =>
    simp only [process, processAuth] at passed
    split_ifs at passed with excluded missing malformed
    · cases passed
      exact .inl ⟨excluded, rfl⟩
    · cases passed
    · cases passed
    · obtain ⟨claims, accepted, rfl⟩ := checkToken_next passed
      exact .inr ⟨claims, ⟨_, if_neg malformed, accepted⟩, rfl⟩
  | cookieAuth codec cookieName excludePaths =>
    simp only [process, processCookieAuth] at passed
    split_ifs at passed with excluded missing
    · cases passed
      exact .inl ⟨excluded, rfl⟩
    · cases passed
    · split at passed
      case h_1 => cases passed
      case h_2 token found =>
        obtain ⟨claims, accepted, rfl⟩ := checkToken_next passed
        exact .inr ⟨claims, ⟨token, found, accepted⟩, rfl⟩

/-- An excluded request passes as it is. -/
theorem AuthMiddleware.process_excluded {auth : AuthMiddleware} {context : Context}
    {request : HttpRequest} {response : HttpResponse}
    (excluded : isExcluded auth.excluded request.path = true) :
    auth.process context request response = .next response request.authenticatedUserId := by
  cases auth with
  | auth codec excludePrefixes => exact if_pos excluded
  | cookieAuth codec cookieName excludePaths => exact if_pos excluded

end UringServer.Auth
