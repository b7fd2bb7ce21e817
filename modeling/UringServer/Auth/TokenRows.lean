import UringServer.Auth.AuthService

/-!
# The rows of refresh tokens

Every generated token belongs to one call, and a row with it was inserted by the
statement of that call only; a row may also have been inserted with an empty text. A
call that deleted a row goes on to deliver a token, so one that ends in an error
deleted none. The token is delivered whether its row was inserted or not.
-/

namespace UringServer.Auth

open UringServer.Semantics UringServer.Web UringServer.Storage

/-- The refresh token that a call has generated. -/
def AuthCall.tokenOf : AuthCall → Option Text
  | .submitted _ (.insertToken token _ _) => some token.refreshToken
  | .executed _ (.insertToken token _ _) _ => some token.refreshToken
  | .answered _ (.token token _) => some token.refreshToken
  | _ => none

/-- The call may have inserted a row for its token. -/
def AuthCall.mayHaveInserted : AuthCall → Bool
  | .executed _ (.insertToken _ order _) (some _) => order = .parameters
  | .answered _ (.token _ _) => true
  | _ => false

/-- The call may have deleted a row. -/
def AuthCall.mayHaveDeleted : AuthCall → Bool
  | .executed _ (.deleteToken _) (some (_ :: _)) => true
  | call => call.tokenOf.isSome

namespace AuthState

variable {config : AuthConfig} {state next : AuthState}

/-- Whose the tokens and the inserted rows are. -/
structure Tokens (state : AuthState) : Prop where
  issued : ∀ call token, (state.calls call).tokenOf = some token → token ∈ state.issued
  nonempty : ∀ call token, (state.calls call).tokenOf = some token → token ≠ []
  apart : ∀ first second token, (state.calls first).tokenOf = some token →
    (state.calls second).tokenOf = some token → first = second
  owned : ∀ row ∈ state.inserted, row.token = [] ∨ ∃ call,
    (state.calls call).tokenOf = some row.token ∧ (state.calls call).mayHaveInserted = true
  stored : ∀ call request token userId rows,
    state.calls call = .executed request (.insertToken token .parameters userId) (some rows) →
      state.WasInserted token userId

/-- Where the rows are. -/
structure Rows (state : AuthState) : Prop where
  kept : ∀ row ∈ state.old ++ state.inserted,
    row ∈ state.rows ∨ ∃ call, (call, row) ∈ state.deleted
  deleters : ∀ call row, (call, row) ∈ state.deleted → (state.calls call).mayHaveDeleted = true

theorem Rows.errorsKeep (rows : state.Rows) : state.ErrorsKeep := by
  intro call presented error answered row member _
  rcases rows.kept row member with here | ⟨other, deleted⟩
  · exact .inl here
  · refine .inr ⟨other, fun same => ?_, deleted⟩
    have deleter := rows.deleters other row deleted
    rw [same, answered] at deleter
    cases deleter

variable {call : Nat} {phase : AuthCall}

/-- The phase of one call changes, with the same token, and rows for that token are inserted. -/
theorem Tokens.change (tokens : state.Tokens)
    (added : List TokenRow) (same : phase.tokenOf = (state.calls call).tokenOf)
    (inserts : (state.calls call).mayHaveInserted = true → phase.mayHaveInserted = true)
    (adds : ∀ row ∈ added, row.token = [] ∨
      phase.tokenOf = some row.token ∧ phase.mayHaveInserted = true)
    (stores : ∀ request token userId rows,
      phase = .executed request (.insertToken token .parameters userId) (some rows) →
        next.WasInserted token userId)
    (calls : next.calls = Function.update state.calls call phase)
    (issued : next.issued = state.issued) (inserted : next.inserted = state.inserted ++ added) :
    next.Tokens := by
  have tokenOf : ∀ other, (next.calls other).tokenOf = (state.calls other).tokenOf := by
    intro other
    rw [calls, Function.update_apply]
    split
    · rename_i isCall
      rw [isCall]
      exact same
    · rfl
  refine ⟨?_, ?_, ?_, ?_, ?_⟩
  · intro other token
    rw [tokenOf, issued]
    exact tokens.issued other token
  · intro other token
    rw [tokenOf]
    exact tokens.nonempty other token
  · intro first second token
    rw [tokenOf, tokenOf]
    exact tokens.apart first second token
  · intro row member
    rw [inserted] at member
    rcases List.mem_append.mp member with before | new
    · refine (tokens.owned row before).imp_right ?_
      rintro ⟨owner, ownerToken, ownerInserted⟩
      refine ⟨owner, (tokenOf owner).trans ownerToken, ?_⟩
      rw [calls, Function.update_apply]
      split
      · rename_i isCall
        exact inserts (isCall ▸ ownerInserted)
      · exact ownerInserted
    · refine (adds row new).imp_right fun own => ⟨call, ?_⟩
      rw [calls, Function.update_self]
      exact own
  · intro other request token userId rows executed
    rw [calls, Function.update_apply] at executed
    split at executed
    · exact stores request token userId rows executed
    · obtain ⟨row, member, isRow⟩ := tokens.stored other request token userId rows executed
      exact ⟨row, inserted ▸ List.mem_append_left added member, isRow⟩

/-- The phase of one call changes, with the same token. -/
theorem Tokens.setCall (tokens : state.Tokens) (same : phase.tokenOf = (state.calls call).tokenOf)
    (inserts : (state.calls call).mayHaveInserted = true → phase.mayHaveInserted = true)
    (stores : ∀ request token userId rows,
      phase ≠ .executed request (.insertToken token .parameters userId) (some rows)) :
    (state.setCall call phase).Tokens :=
  tokens.change [] same inserts nofun
    (fun request token userId rows executed =>
      absurd executed (stores request token userId rows)) rfl rfl (List.append_nil _).symm

theorem Rows.setCall (rows : state.Rows)
    (deletes : (state.calls call).mayHaveDeleted = true → phase.mayHaveDeleted = true) :
    (state.setCall call phase).Rows := by
  refine ⟨rows.kept, ?_⟩
  intro other row deleted
  have deleter := rows.deleters other row deleted
  show (Function.update state.calls call phase other).mayHaveDeleted = true
  rw [Function.update_apply]
  split
  · rename_i isCall
    exact deletes (isCall ▸ deleter)
  · exact deleter

theorem isSome_tokenOf (inserted : phase.mayHaveInserted = true) :
    phase.tokenOf.isSome = true := by
  unfold AuthCall.mayHaveInserted at inserted
  split at inserted
  · rfl
  · rfl
  · cases inserted

variable {request : AuthRequest}

/-- A token is generated for a call that has none. -/
theorem Tokens.store (tokens : state.Tokens)
    {userId deviceId : Text} {clock : Int64} {generated : Text} {order : ArgumentOrder}
    (none : (state.calls call).tokenOf = none)
    (stored : state.store config call request userId deviceId clock generated order = some next) :
    next.Tokens := by
  unfold AuthState.store at stored
  split at stored
  · cases stored
  rename_i fresh
  cases stored
  have tokenOf : ∀ other, (Function.update state.calls call (.submitted request
      (.insertToken (issueTokens config userId deviceId clock generated) order userId))
        other).tokenOf = if other = call then some generated else (state.calls other).tokenOf := by
    intro other
    rw [Function.update_apply]
    split <;> rfl
  have before : ∀ other, (state.calls other).tokenOf ≠ some generated :=
    fun other held => fresh (.inr (tokens.issued other generated held))
  refine ⟨?_, ?_, ?_, ?_, ?_⟩
  · intro other token held
    refine List.mem_append.mpr ?_
    replace held := (tokenOf other).symm.trans held
    split at held
    · cases held
      exact .inr List.mem_cons_self
    · exact .inl (tokens.issued other token held)
  · intro other token held
    replace held := (tokenOf other).symm.trans held
    split at held
    · cases held
      exact fun empty => fresh (.inl empty)
    · exact tokens.nonempty other token held
  · intro first second token held also
    replace held := (tokenOf first).symm.trans held
    replace also := (tokenOf second).symm.trans also
    split at held
    · rename_i isFirst
      cases held
      split at also
      · rename_i isSecond
        rw [isFirst, isSecond]
      · exact absurd also (before second)
    · split at also
      · cases also
        exact absurd held (before first)
      · exact tokens.apart first second token held also
  · intro row member
    refine (tokens.owned row member).imp_right ?_
    rintro ⟨owner, ownerToken, inserted⟩
    have apart : owner ≠ call := by
      intro same
      rw [same, none] at ownerToken
      cases ownerToken
    refine ⟨owner, (tokenOf owner).trans ((if_neg apart).trans ownerToken), ?_⟩
    show (Function.update state.calls call _ owner).mayHaveInserted = true
    rw [Function.update_of_ne apart]
    exact inserted
  · intro other otherRequest token user rows executed
    change Function.update state.calls call _ other = _ at executed
    rw [Function.update_apply] at executed
    split at executed
    · cases executed
    · exact tokens.stored other otherRequest token user rows executed

theorem Rows.store (rows : state.Rows)
    {userId deviceId : Text} {clock : Int64} {generated : Text} {order : ArgumentOrder}
    (stored : state.store config call request userId deviceId clock generated order = some next) :
    next.Rows := by
  unfold AuthState.store at stored
  split at stored
  · cases stored
  cases stored
  have set : (state.setCall call (.submitted request
      (.insertToken (issueTokens config userId deviceId clock generated) order userId))).Rows :=
    rows.setCall fun _ => rfl
  exact ⟨set.kept, set.deleters⟩

theorem Tokens.begin (tokens : state.Tokens)
    (begun : state.begin call request = some next) : next.Tokens := by
  unfold AuthState.begin at begun
  split at begun
  case h_2 => cases begun
  rename_i unused
  cases begun
  cases request with
  | login deviceId | refresh presented =>
    exact tokens.setCall (by rw [unused]; rfl) (by rw [unused]; exact nofun) nofun

theorem Rows.begin (rows : state.Rows)
    (begun : state.begin call request = some next) : next.Rows := by
  unfold AuthState.begin at begun
  split at begun
  case h_2 => cases begun
  rename_i unused
  cases begun
  exact rows.setCall (by rw [unused]; exact nofun)

/-- What the callback of a statement does. -/
inductive Returns (config : AuthConfig) (state : AuthState) (call : Nat) : AuthState → Prop where
  /-- It issues tokens and goes on with the insertion of a row. -/
  | stores {next : AuthState} (request : AuthRequest) (userId deviceId : Text) (clock : Int64)
      (generated : Text) (order : ArgumentOrder) (noToken : (state.calls call).tokenOf = none)
      (stored : state.store config call request userId deviceId clock generated order = some next) :
      Returns config state call next
  /-- It goes on without a token, after a statement that deleted nothing. -/
  | goesOn (phase : AuthCall) (noToken : (state.calls call).tokenOf = none)
      (noNext : phase.tokenOf = none) (kept : (state.calls call).mayHaveDeleted = false) :
      Returns config state call (state.setCall call phase)
  /-- It delivers the token, whatever the result. -/
  | delivers (request : AuthRequest) (token : AuthToken) (order : ArgumentOrder) (userId : Text)
      (result : AuthResult)
      (phase : state.calls call = .executed request (.insertToken token order userId) result) :
      Returns config state call (state.setCall call (.answered request (.token token userId)))

/-- What each callback can do. -/
theorem callback_returns {clock : Int64} {generated : Text} {order : ArgumentOrder}
    (returned : state.callback config call clock generated order = some next) :
    Returns config state call next := by
  unfold AuthState.callback at returned
  split at returned
  · rename_i request deviceId result phase
    split at returned
    · exact .stores request _ deviceId clock generated order (by rw [phase]; rfl) returned
    · cases returned
      exact .goesOn _ (by rw [phase]; rfl) rfl (by rw [phase]; rfl)
  · rename_i request deviceId result phase
    split at returned
    · exact .stores request _ deviceId clock generated order (by rw [phase]; rfl) returned
    · cases returned
      exact .goesOn _ (by rw [phase]; rfl) rfl (by rw [phase]; rfl)
  · rename_i request presented result phase
    split at returned
    · exact .stores request _ [] clock generated order (by rw [phase]; rfl) returned
    · rename_i noRow
      cases returned
      refine .goesOn _ (by rw [phase]; rfl) rfl ?_
      rw [phase]
      unfold AuthCall.mayHaveDeleted
      split
      · rename_i same
        cases same
        exact absurd rfl (noRow _ _)
      · rfl
  · rename_i request token order userId result phase
    cases returned
    exact .delivers request token order userId result phase
  · cases returned

theorem Tokens.callback (tokens : state.Tokens)
    (returns : Returns config state call next) : next.Tokens := by
  cases returns with
  | stores request userId deviceId clock generated order noToken stored =>
    exact tokens.store noToken stored
  | goesOn phase noToken noNext =>
    refine tokens.setCall (noNext.trans noToken.symm) (fun inserted => ?_) ?_
    · have held := isSome_tokenOf inserted
      rw [noToken] at held
      cases held
    · rintro request token userId rows rfl
      cases noNext
  | delivers request token order userId result phase =>
    exact tokens.setCall (by rw [phase]; rfl) (fun _ => rfl) nofun

theorem Rows.callback (rows : state.Rows) (returns : Returns config state call next) :
    next.Rows := by
  cases returns with
  | stores request userId deviceId clock generated order noToken stored => exact rows.store stored
  | goesOn phase noToken noNext kept =>
    refine rows.setCall fun deleter => ?_
    rw [kept] at deleter
    cases deleter
  | delivers request token order userId result phase => exact rows.setCall fun _ => rfl

/-- A statement that was executed leaves its call with the same token. -/
theorem tokenOf_executed (request : AuthRequest) (statement : AuthStatement) (result : AuthResult) :
    (AuthCall.executed request statement result).tokenOf =
      (AuthCall.submitted request statement).tokenOf := by
  cases statement <;> rfl

/-- Every statement keeps whose the tokens are. -/
theorem Tokens.execute (tokens : state.Tokens) {succeeds : Bool} {newUser : Text}
    (executed : state.execute config call succeeds newUser = some next) : next.Tokens := by
  unfold AuthState.execute at executed
  split at executed
  case h_2 => cases executed
  rename_i request statement phase
  have same : ∀ result, (AuthCall.executed request statement result).tokenOf =
      (state.calls call).tokenOf := by
    intro result
    rw [phase, tokenOf_executed]
  have notInserted : (state.calls call).mayHaveInserted = true → False := by
    rw [phase]
    exact nofun
  split at executed
  · cases statement with
    | selectUser deviceId =>
      cases executed
      exact tokens.setCall (same _) (fun inserted => (notInserted inserted).elim) nofun
    | insertUser deviceId =>
      cases executed
      have set := tokens.setCall (same (some [newUser]))
        (fun inserted => (notInserted inserted).elim) nofun
      exact ⟨set.issued, set.nonempty, set.apart, set.owned, set.stored⟩
    | deleteToken presented =>
      cases executed
      have set := tokens.setCall (same (some ((state.matching presented).map (·.userId))))
        (fun inserted => (notInserted inserted).elim) nofun
      exact ⟨set.issued, set.nonempty, set.apart, set.owned, set.stored⟩
    | insertToken token order userId =>
      cases executed
      refine tokens.change
        [⟨order.read token.refreshToken, userId, state.now + config.refreshTokenTtl⟩]
        (same (some [])) (fun inserted => (notInserted inserted).elim) ?_ ?_ rfl rfl rfl
      · intro row member
        rw [List.mem_singleton.mp member]
        cases order with
        | parameters => exact .inr ⟨rfl, rfl⟩
        | capture => exact .inl rfl
      · intro _ otherToken otherUser rows executed
        cases executed
        exact ⟨_, List.mem_append_right _ List.mem_cons_self, rfl, rfl⟩
  · cases executed
    exact tokens.setCall (same _) (fun inserted => (notInserted inserted).elim) nofun

/-- A statement that takes a row away records it. -/
theorem Rows.execute (rows : state.Rows) {succeeds : Bool} {newUser : Text}
    (executed : state.execute config call succeeds newUser = some next) : next.Rows := by
  unfold AuthState.execute at executed
  split at executed
  case h_2 => cases executed
  rename_i request statement phase
  have stays : ∀ result, (state.calls call).mayHaveDeleted = true →
      (AuthCall.executed request statement result).mayHaveDeleted = true := by
    intro result deleter
    rw [phase] at deleter
    cases statement with
    | selectUser | insertUser | deleteToken => cases deleter
    | insertToken => rfl
  split at executed
  · cases statement with
    | selectUser deviceId =>
      cases executed
      exact rows.setCall (stays _)
    | insertUser deviceId =>
      cases executed
      have set := rows.setCall (stays (some [newUser]))
      exact ⟨set.kept, set.deleters⟩
    | deleteToken presented =>
      cases executed
      have set := rows.setCall (stays (some ((state.matching presented).map (·.userId))))
      refine ⟨fun row member => ?_, fun other row deleted => ?_⟩
      · rcases rows.kept row member with here | ⟨other, deleted⟩
        · by_cases found : row.token = presented ∧ state.now < row.expiresAt
          · refine .inr ⟨call, List.mem_append_right _ (List.mem_map_of_mem ?_)⟩
            exact List.mem_filter.mpr ⟨here, decide_eq_true found⟩
          · exact .inl (List.mem_filter.mpr ⟨here, decide_eq_true found⟩)
        · exact .inr ⟨other, List.mem_append_left _ deleted⟩
      · rcases List.mem_append.mp deleted with before | new
        · exact set.deleters other row before
        · obtain ⟨_, found, same⟩ := List.mem_map.mp new
          cases same
          show (Function.update state.calls call _ call).mayHaveDeleted = true
          rw [Function.update_self]
          cases whole : state.matching presented with
          | nil =>
            rw [whole] at found
            cases found
          | cons first rest => rfl
    | insertToken token order userId =>
      cases executed
      have set := rows.setCall (stays (some []))
      refine ⟨?_, set.deleters⟩
      intro row member
      dsimp only [AuthState.setCall] at member ⊢
      rw [← List.append_assoc] at member
      rcases List.mem_append.mp member with before | new
      · exact (rows.kept row before).imp_left (List.mem_append_left _)
      · exact .inl (List.mem_append_right _ new)
  · cases executed
    exact rows.setCall (stays _)

theorem Tokens.step (tokens : state.Tokens) {action : AuthAction}
    (transition : (authSystem config).step state action = some next) : next.Tokens := by
  cases action with
  | begin call request => exact tokens.begin transition
  | execute call succeeds newUser => exact tokens.execute transition
  | callback call clock generated order => exact tokens.callback (callback_returns transition)
  | tick =>
    cases transition
    exact ⟨tokens.issued, tokens.nonempty, tokens.apart, tokens.owned, tokens.stored⟩

theorem Rows.step (rows : state.Rows) {action : AuthAction}
    (transition : (authSystem config).step state action = some next) : next.Rows := by
  cases action with
  | begin call request => exact rows.begin transition
  | execute call succeeds newUser => exact rows.execute transition
  | callback call clock generated order => exact rows.callback (callback_returns transition)
  | tick =>
    cases transition
    exact ⟨rows.kept, rows.deleters⟩

theorem tokens_of_reachable (reachable : (authSystem config).Reachable everyStep state) :
    state.Tokens := by
  refine reachable.invariant Tokens ?_ fun tokens _ transition => tokens.step transition
  rintro _ ⟨users, rows, now, rfl⟩
  exact ⟨nofun, nofun, nofun, nofun, nofun⟩

theorem rows_of_reachable (reachable : (authSystem config).Reachable everyStep state) :
    state.Rows := by
  refine reachable.invariant Rows ?_ fun rows _ transition => rows.step transition
  rintro _ ⟨users, rows, now, rfl⟩
  exact ⟨fun row member => .inl (List.append_nil rows ▸ member), nofun⟩

end AuthState

end UringServer.Auth
