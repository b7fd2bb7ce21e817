import UringServer.Auth.JwtCodec
import UringServer.Storage.PgWorkerPool

/-!
# Logins and refreshes

`AuthService::LoginByDeviceId` and `AuthService::RefreshToken` as chains of
statements, each with the callback that goes on with its result. A statement that
fails changes nothing and gives an empty result. Between the execution of a
statement and its callback other calls go on. The refresh tokens that
`GenerateRefreshToken` gives are new ones.

The call that submits the row of a refresh token reads the token in one argument and
moves it away in another, and the order of the two is left to the compiler.
-/

namespace UringServer.Auth

open UringServer.Semantics UringServer.Web UringServer.Storage

/-- `AuthToken`. -/
structure AuthToken where
  accessToken : Text
  refreshToken : Text
  expiresIn : Int64
deriving DecidableEq, Repr

/-- The configuration of the service, with the codec of its access tokens. -/
structure AuthConfig where
  encode : JwtClaims → Text
  accessTokenTtl : Int64
  refreshTokenTtl : Int

/-- A row of `refresh_tokens`. -/
structure TokenRow where
  token : Text
  userId : Text
  expiresAt : Int
deriving DecidableEq, Repr

/-- `AuthService::IssueTokens`, with the time and the generated token. -/
def issueTokens (config : AuthConfig) (userId deviceId : Text) (now : Int64) (generated : Text) :
    AuthToken where
  accessToken := config.encode
    { sub := userId, deviceId := deviceId, iat := now, exp := now + config.accessTokenTtl }
  refreshToken := generated
  expiresIn := config.accessTokenTtl

/-- What a call is for. -/
inductive AuthRequest where
  | login (deviceId : Text)
  | refresh (presented : Text)
deriving DecidableEq, Repr

/-- Which argument of `Execute` is evaluated first: the parameters of the statement, or the
callback, whose capture moves the token. -/
inductive ArgumentOrder where
  | parameters
  | capture
deriving DecidableEq, Repr

/-- The text that the parameters copy; a string that was moved from is empty. -/
def ArgumentOrder.read (order : ArgumentOrder) (text : Text) : Text :=
  match order with
  | .parameters => text
  | .capture => []

/-- A statement with the callback that waits for it. -/
inductive AuthStatement where
  | selectUser (deviceId : Text)
  | insertUser (deviceId : Text)
  | deleteToken (presented : Text)
  | insertToken (token : AuthToken) (order : ArgumentOrder) (userId : Text)
deriving DecidableEq, Repr

/-- The first column of the rows of a statement; nothing for one that failed. -/
abbrev AuthResult := PgResult (List Text)

/-- What the caller's callback receives. The user of a token is that of its access token. -/
inductive AuthAnswer where
  | token (token : AuthToken) (userId : Text)
  | error (error : WebError)
deriving DecidableEq, Repr

/-- Where a call is. -/
inductive AuthCall where
  | unused
  /-- The statement is submitted and has not been executed. -/
  | submitted (request : AuthRequest) (statement : AuthStatement)
  /-- The statement is done and its callback has not run. -/
  | executed (request : AuthRequest) (statement : AuthStatement) (result : AuthResult)
  | answered (request : AuthRequest) (answer : AuthAnswer)
deriving DecidableEq, Repr

/-- The callback that delivers the call's token has not run, and no row was inserted for it: the
statement failed, or its parameters were read from the token that had been moved away. -/
def AuthCall.unstored : AuthCall → Bool
  | .executed _ (.insertToken _ order _) result => result.isNone || order = .capture
  | _ => false

/-- The database and the calls, with what happened to the rows of `refresh_tokens`. -/
structure AuthState where
  /-- Device and id of the users. -/
  users : List (Text × Text)
  rows : List TokenRow
  /-- `NOW()`. -/
  now : Int
  calls : Nat → AuthCall := fun _ => .unused
  /-- The refresh tokens that were generated or in the table from the start. -/
  issued : List Text := rows.map (·.token)
  /-- The rows that were in the table from the start. -/
  old : List TokenRow := rows
  inserted : List TokenRow := []
  /-- The rows that calls deleted. -/
  deleted : List (Nat × TokenRow) := []

namespace AuthState

def setCall (state : AuthState) (call : Nat) (phase : AuthCall) : AuthState :=
  { state with calls := Function.update state.calls call phase }

/-- `LoginByDeviceId` and `RefreshToken` submit their first statement. -/
def begin (state : AuthState) (call : Nat) (request : AuthRequest) : Option AuthState :=
  match state.calls call with
  | .unused =>
    let statement := match request with
      | .login deviceId => .selectUser deviceId
      | .refresh presented => .deleteToken presented
    some (state.setCall call (.submitted request statement))
  | _ => none

/-- The rows that a `DELETE` for a token finds. -/
def matching (state : AuthState) (presented : Text) : List TokenRow :=
  state.rows.filter fun row => row.token = presented ∧ state.now < row.expiresAt

/-- A statement that succeeds, with the id of a user that is inserted. -/
def perform (config : AuthConfig) (state : AuthState) (call : Nat) (newUser : Text) :
    AuthStatement → AuthState × List Text
  | .selectUser deviceId => (state, (state.users.filter (·.1 = deviceId)).map (·.2))
  | .insertUser deviceId =>
    ({ state with users := state.users ++ [(deviceId, newUser)] }, [newUser])
  | .deleteToken presented =>
    ({ state with
        rows := state.rows.filter fun row => ¬ (row.token = presented ∧ state.now < row.expiresAt)
        deleted := state.deleted ++ (state.matching presented).map fun row => (call, row) },
      (state.matching presented).map (·.userId))
  | .insertToken token order userId =>
    let row : TokenRow :=
      ⟨order.read token.refreshToken, userId, state.now + config.refreshTokenTtl⟩
    ({ state with rows := state.rows ++ [row], inserted := state.inserted ++ [row] }, [])

/-- The statement of a call is executed, or fails without effect. -/
def execute (config : AuthConfig) (state : AuthState) (call : Nat) (succeeds : Bool)
    (newUser : Text) : Option AuthState :=
  match state.calls call with
  | .submitted request statement =>
    if succeeds = true then
      let (next, rows) := state.perform config call newUser statement
      some (next.setCall call (.executed request statement (some rows)))
    else
      some (state.setCall call (.executed request statement none))
  | _ => none

/-- Tokens are issued for a user and the row of the refresh token is submitted. A generated token
has 64 digits. -/
def store (config : AuthConfig) (state : AuthState) (call : Nat) (request : AuthRequest)
    (userId deviceId : Text) (clock : Int64) (generated : Text) (order : ArgumentOrder) :
    Option AuthState :=
  if generated = [] ∨ generated ∈ state.issued then
    none
  else
    some { state.setCall call (.submitted request
        (.insertToken (issueTokens config userId deviceId clock generated) order userId)) with
      issued := state.issued ++ [generated] }

/-- The callback of the statement of a call. -/
def callback (config : AuthConfig) (state : AuthState) (call : Nat) (clock : Int64)
    (generated : Text) (order : ArgumentOrder) : Option AuthState :=
  match state.calls call with
  | .executed request (.selectUser deviceId) result => match result with
    | some (userId :: _) => state.store config call request userId deviceId clock generated order
    | _ => some (state.setCall call (.submitted request (.insertUser deviceId)))
  | .executed request (.insertUser deviceId) result => match result with
    | some (userId :: _) => state.store config call request userId deviceId clock generated order
    | _ => some (state.setCall call (.answered request (.error .internalError)))
  | .executed request (.deleteToken _) result => match result with
    | some (userId :: _) => state.store config call request userId [] clock generated order
    | _ => some (state.setCall call (.answered request (.error .unauthorized)))
  -- The result of the insertion is not looked at.
  | .executed request (.insertToken token _ userId) _ =>
    some (state.setCall call (.answered request (.token token userId)))
  | _ => none

end AuthState

/-- What the callers and the database do. -/
inductive AuthAction where
  | begin (call : Nat) (request : AuthRequest)
  | execute (call : Nat) (succeeds : Bool) (newUser : Text)
  | callback (call : Nat) (clock : Int64) (generated : Text) (order : ArgumentOrder)
  | tick
deriving DecidableEq, Repr

/-- The service under any number of calls, from any content of the tables. -/
def authSystem (config : AuthConfig) : TransitionSystem AuthState AuthAction where
  Initial state := ∃ users rows now, state = { users := users, rows := rows, now := now }
  step state
    | .begin call request => state.begin call request
    | .execute call succeeds newUser => state.execute config call succeeds newUser
    | .callback call clock generated order => state.callback config call clock generated order
    | .tick => some { state with now := state.now + 1 }

namespace AuthState

/-- A row for a token of a user was inserted. -/
def WasInserted (state : AuthState) (token : AuthToken) (userId : Text) : Prop :=
  ∃ row ∈ state.inserted, row.token = token.refreshToken ∧ row.userId = userId

/-- The row of every refresh token that a caller received was inserted for its user. -/
def TokensStored (state : AuthState) : Prop :=
  ∀ call request token userId, state.calls call = .answered request (.token token userId) →
    state.WasInserted token userId

/-- A refresh that ended in an error took away no row of the token that it presented. -/
def ErrorsKeep (state : AuthState) : Prop :=
  ∀ call presented error, state.calls call = .answered (.refresh presented) (.error error) →
    ∀ row ∈ state.old ++ state.inserted, row.token = presented →
      row ∈ state.rows ∨ ∃ other, other ≠ call ∧ (other, row) ∈ state.deleted

/-- The statement whose callback delivers a token has inserted a row for it. -/
def RowInserted (state : AuthState) : AuthAction → Prop
  | .callback call _ _ _ => (state.calls call).unstored = false
  | _ => True

instance (state : AuthState) (action : AuthAction) : Decidable (state.RowInserted action) := by
  cases action <;> unfold RowInserted <;> infer_instance

end AuthState

end UringServer.Auth
