import UringServer.Auth.TokenRows

/-!
# Tokens that callers receive

The callback of the insertion of a refresh token delivers the token without a look at
the result, so that a caller receives a token without a row exactly if the insertion
failed or was made with what a move had left of the token. A refresh that ends in an
error takes nothing away.
-/

namespace UringServer.Auth.AuthState

open UringServer.Semantics UringServer.Web UringServer.Storage

variable {config : AuthConfig} {state next : AuthState}

/-- The same tokens were delivered, and their rows inserted. -/
theorem tokensStored_congr
    (answered : ∀ call request token userId,
      next.calls call = .answered request (.token token userId) ↔
        state.calls call = .answered request (.token token userId))
    (inserted : ∀ call request token userId,
      state.calls call = .answered request (.token token userId) →
        (next.WasInserted token userId ↔ state.WasInserted token userId)) :
    next.TokensStored ↔ state.TokensStored := by
  constructor
  · intro stored call request token userId received
    exact (inserted call request token userId received).mp
      (stored call request token userId ((answered call request token userId).mpr received))
  · intro stored call request token userId received
    have before := (answered call request token userId).mp received
    exact (inserted call request token userId before).mpr
      (stored call request token userId before)

variable {call : Nat}

/-- A call that has received no token gets into a phase in which it has received none. -/
theorem answered_update {phase : AuthCall}
    (before : ∀ request token userId, state.calls call ≠ .answered request (.token token userId))
    (after : ∀ request token userId, phase ≠ .answered request (.token token userId))
    (other : Nat) (request : AuthRequest) (token : AuthToken) (userId : Text) :
    Function.update state.calls call phase other = .answered request (.token token userId) ↔
      state.calls other = .answered request (.token token userId) := by
  rw [Function.update_apply]
  split
  · rename_i isCall
    rw [isCall]
    exact iff_of_false (after request token userId) (before request token userId)
  · rfl

variable {request : AuthRequest} {order : ArgumentOrder}

theorem tokensStored_store {userId deviceId : Text}
    {clock : Int64} {generated : Text}
    (before : ∀ request token userId, state.calls call ≠ .answered request (.token token userId))
    (stored : state.store config call request userId deviceId clock generated order = some next) :
    next.TokensStored ↔ state.TokensStored := by
  unfold AuthState.store at stored
  split at stored
  · cases stored
  · cases stored
    exact tokensStored_congr (answered_update before nofun) fun _ _ _ _ _ => Iff.rfl

theorem tokensStored_begin
    (begun : state.begin call request = some next) : next.TokensStored ↔ state.TokensStored := by
  unfold AuthState.begin at begun
  split at begun
  case h_2 => cases begun
  rename_i unused
  cases begun
  refine tokensStored_congr (answered_update ?_ nofun) fun _ _ _ _ _ => Iff.rfl
  rw [unused]
  exact nofun

/-- A row that is inserted is not for a token that another call has received. -/
theorem Tokens.tokensStored_execute (tokens : state.Tokens) {succeeds : Bool}
    {newUser : Text} (executed : state.execute config call succeeds newUser = some next) :
    next.TokensStored ↔ state.TokensStored := by
  unfold AuthState.execute at executed
  split at executed
  case h_2 => cases executed
  rename_i request statement phase
  have before : ∀ request token userId,
      state.calls call ≠ .answered request (.token token userId) := by
    rw [phase]
    exact nofun
  split at executed
  · cases statement with
    | selectUser | insertUser | deleteToken =>
      cases executed
      exact tokensStored_congr (answered_update before nofun) fun _ _ _ _ _ => Iff.rfl
    | insertToken token order userId =>
      cases executed
      refine tokensStored_congr (answered_update before nofun) ?_
      intro other otherRequest otherToken otherUser received
      refine ⟨?_, fun ⟨row, member, isRow⟩ => ⟨row, List.mem_append_left _ member, isRow⟩⟩
      rintro ⟨row, member, isToken, isUser⟩
      rcases List.mem_append.mp member with held | new
      · exact ⟨row, held, isToken, isUser⟩
      · rw [List.mem_singleton.mp new] at isToken
        have held : (state.calls other).tokenOf = some otherToken.refreshToken := by
          rw [received]
          rfl
        cases order with
        | capture => exact absurd isToken.symm (tokens.nonempty other _ held)
        | parameters =>
          have same : other = call := by
            refine tokens.apart other call otherToken.refreshToken held ?_
            rw [phase]
            exact congrArg some isToken
          exact absurd received (same ▸ before otherRequest otherToken otherUser)
  · cases executed
    exact tokensStored_congr (answered_update before nofun) fun _ _ _ _ _ => Iff.rfl

/-- No row was inserted for the token of a call whose insertion failed or was made without it. -/
theorem Tokens.not_wasInserted (tokens : state.Tokens)
    {token : AuthToken} {userId : Text} {result : AuthResult}
    (phase : state.calls call = .executed request (.insertToken token order userId) result)
    (unstored : (state.calls call).unstored = true) : ¬ state.WasInserted token userId := by
  rintro ⟨row, member, isToken, -⟩
  have held : (state.calls call).tokenOf = some token.refreshToken := by
    rw [phase]
    rfl
  obtain empty | ⟨owner, ownerToken, inserted⟩ := tokens.owned row member
  · exact tokens.nonempty call _ held (isToken ▸ empty)
  · have same : owner = call := tokens.apart owner call _ (isToken ▸ ownerToken) held
    rw [same, phase] at inserted
    rw [phase] at unstored
    cases result with
    | none => cases inserted
    | some rows => cases order <;> simp_all [AuthCall.unstored, AuthCall.mayHaveInserted]

/-- The callback of an insertion delivers a token that is stored exactly if the insertion
succeeded with the token. -/
theorem Tokens.tokensStored_deliver (tokens : state.Tokens)
    {token : AuthToken} {userId : Text} {result : AuthResult}
    (phase : state.calls call = .executed request (.insertToken token order userId) result) :
    (state.setCall call (.answered request (.token token userId))).TokensStored ↔
      state.TokensStored ∧ (state.calls call).unstored = false := by
  constructor
  · intro stored
    constructor
    · intro other otherRequest otherToken otherUser received
      have apart : other ≠ call := by
        intro same
        rw [same, phase] at received
        cases received
      refine stored other otherRequest otherToken otherUser ?_
      show Function.update state.calls call _ other = _
      rw [Function.update_of_ne apart]
      exact received
    · refine eq_false_of_ne_true fun unstored => ?_
      exact tokens.not_wasInserted phase unstored
        (stored call request token userId (Function.update_self ..))
  · rintro ⟨stored, rowInserted⟩ other otherRequest otherToken otherUser received
    change Function.update state.calls call _ other = _ at received
    rw [Function.update_apply] at received
    split at received
    · cases received
      rw [phase] at rowInserted
      obtain ⟨succeeded, readFirst⟩ := Bool.or_eq_false_iff.mp rowInserted
      cases order with
      | capture => cases readFirst
      | parameters =>
        obtain ⟨rows, rfl⟩ :=
          Option.isSome_iff_exists.mp (Option.isNone_eq_false_iff.mp succeeded)
        exact tokens.stored call request token userId rows phase
    · exact stored other otherRequest otherToken otherUser received

/-- A call without a token has received none, and none is about to be delivered. -/
theorem no_token {phase : AuthCall} (noToken : phase.tokenOf = none) :
    phase.unstored = false ∧
      ∀ request token userId, phase ≠ .answered request (.token token userId) := by
  constructor
  · unfold AuthCall.unstored
    split
    · cases noToken
    · rfl
  · rintro request token userId rfl
    cases noToken

theorem Tokens.tokensStored_callback (tokens : state.Tokens) {clock : Int64}
    {generated : Text} (returned : state.callback config call clock generated order = some next) :
    next.TokensStored ↔
      state.TokensStored ∧ state.RowInserted (.callback call clock generated order) := by
  show _ ↔ _ ∧ (state.calls call).unstored = false
  cases callback_returns returned with
  | stores request userId deviceId clock generated order noToken stored =>
    rw [and_iff_left (no_token noToken).1]
    exact tokensStored_store (no_token noToken).2 stored
  | goesOn phase noToken noNext =>
    rw [and_iff_left (no_token noToken).1]
    exact tokensStored_congr (answered_update (no_token noToken).2 (no_token noNext).2)
      fun _ _ _ _ _ => Iff.rfl
  | delivers request token order userId result phase => exact tokens.tokensStored_deliver phase

/-- Every token that a caller received is stored, and every refresh that ended in an error left
the rows of its token, exactly in the runs in which every token was delivered behind a statement
that inserted a row for it. -/
theorem delivered_tokens_stored_iff (reachable : (authSystem config).Reachable everyStep state) :
    state.TokensStored ∧ state.ErrorsKeep ↔
      (authSystem config).Reachable RowInserted state := by
  rw [and_iff_left (rows_of_reachable reachable).errorsKeep]
  refine reachable.iff_admitted TokensStored ?_ ?_
  · rintro _ ⟨users, rows, now, rfl⟩
    exact nofun
  · intro before action after prior transition
    have tokens := tokens_of_reachable prior
    cases action with
    | begin call request =>
      exact (tokensStored_begin transition).trans (and_iff_left trivial).symm
    | execute call succeeds newUser =>
      exact (tokens.tokensStored_execute transition).trans (and_iff_left trivial).symm
    | callback call clock generated order => exact tokens.tokensStored_callback transition
    | tick =>
      cases transition
      exact (and_iff_left trivial).symm

/-- A service without access tokens, and tables with one user. -/
def plainConfig : AuthConfig where
  encode _ := []
  accessTokenTtl := 900
  refreshTokenTtl := 604800

def oneUser : AuthState where
  users := [(ascii "device", ascii "7")]
  rows := [⟨ascii "old", ascii "7", 10⟩]
  now := 0

theorem oneUser_initial : (authSystem plainConfig).Initial oneUser := ⟨_, _, _, rfl⟩

/-- A login whose statements succeed, and a refresh whose first statement fails. -/
theorem delivered_tokens_stored_login :
    ∃ state : AuthState,
      state.calls 0 =
        .answered (.login (ascii "device")) (.token ⟨[], ascii "t", 900⟩ (ascii "7")) ∧
      state.calls 1 = .answered (.refresh (ascii "old")) (.error .unauthorized) ∧
      state.rows = [⟨ascii "old", ascii "7", 10⟩, ⟨ascii "t", ascii "7", 604800⟩] ∧
      state.TokensStored ∧ state.ErrorsKeep := by
  obtain ⟨state, executed, first, second, rows⟩ : ∃ state,
      (authSystem plainConfig).execute RowInserted oneUser
        [.begin 0 (.login (ascii "device")), .begin 1 (.refresh (ascii "old")),
          .execute 0 true [], .execute 1 false [], .callback 0 5 (ascii "t") .parameters,
          .execute 0 true [], .callback 1 5 [] .capture, .callback 0 6 [] .capture] = some state ∧
      state.calls 0 =
        .answered (.login (ascii "device")) (.token ⟨[], ascii "t", 900⟩ (ascii "7")) ∧
      state.calls 1 = .answered (.refresh (ascii "old")) (.error .unauthorized) ∧
      state.rows = [⟨ascii "old", ascii "7", 10⟩, ⟨ascii "t", ascii "7", 604800⟩] :=
    ⟨_, rfl, rfl, rfl, rfl⟩
  have reachable := TransitionSystem.Reachable.execute (.initial oneUser_initial) executed
  exact ⟨state, first, second, rows,
    (delivered_tokens_stored_iff (reachable.mono fun _ _ _ => trivial)).mpr reachable⟩

/-- A refresh whose insertion fails delivers a token that is not stored, and has taken away the
one that was presented. A login all of whose statements succeed delivers one that is not stored if
the capture of the callback is evaluated first. -/
theorem unstored_tokens_delivered :
    (∃ state, (authSystem plainConfig).Reachable everyStep state ∧
      state.calls 0 = .answered (.refresh (ascii "old")) (.token ⟨[], ascii "t", 900⟩ (ascii "7")) ∧
      state.inserted = [] ∧ state.rows = []) ∧
    ∃ state, (authSystem plainConfig).Reachable everyStep state ∧
      state.calls 0 =
        .answered (.login (ascii "device")) (.token ⟨[], ascii "t", 900⟩ (ascii "7")) ∧
      state.inserted = [⟨[], ascii "7", 604800⟩] := by
  obtain ⟨failed, failedRun, answered, inserted, rows⟩ : ∃ state,
      (authSystem plainConfig).execute everyStep oneUser
        [.begin 0 (.refresh (ascii "old")), .execute 0 true [],
          .callback 0 5 (ascii "t") .parameters, .execute 0 false [],
          .callback 0 6 [] .parameters] = some state ∧
      state.calls 0 =
        .answered (.refresh (ascii "old")) (.token ⟨[], ascii "t", 900⟩ (ascii "7")) ∧
      state.inserted = [] ∧ state.rows = [] :=
    ⟨_, rfl, rfl, rfl, rfl⟩
  obtain ⟨moved, movedRun, delivered, empty⟩ : ∃ state,
      (authSystem plainConfig).execute everyStep oneUser
        [.begin 0 (.login (ascii "device")), .execute 0 true [],
          .callback 0 5 (ascii "t") .capture, .execute 0 true [],
          .callback 0 6 [] .capture] = some state ∧
      state.calls 0 =
        .answered (.login (ascii "device")) (.token ⟨[], ascii "t", 900⟩ (ascii "7")) ∧
      state.inserted = [⟨[], ascii "7", 604800⟩] :=
    ⟨_, rfl, rfl, rfl⟩
  exact ⟨⟨failed, TransitionSystem.Reachable.execute (.initial oneUser_initial) failedRun, answered,
    inserted, rows⟩, moved, TransitionSystem.Reachable.execute (.initial oneUser_initial) movedRun,
    delivered, empty⟩

end UringServer.Auth.AuthState
