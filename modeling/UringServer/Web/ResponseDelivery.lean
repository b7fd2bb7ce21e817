import UringServer.Web.AcceptedResponses

/-!
# Responses and `Connection: close`

`HandleRequest` disconnects as soon as the handler of a request that asked for
`Connection: close` returns, and a session that is disconnecting submits nothing.
Every response gets to a `sendmsg` in the runs in which such a request is
dispatched with no message in flight and no answer outstanding, and is answered
at once.
-/

namespace UringServer.Web

open UringServer.Io UringServer.Semantics

namespace HttpSession

variable {Parser : Type} (env : Environment) (llhttp : Llhttp Parser)

/-- Whether the next pass meets bytes that are no request. -/
def failing (state : HttpSession Parser) : Bool :=
  match state.control with
  | .feedHttp _ rest _ =>
    match llhttp.execute state.parser rest with
    | .failed _ => true
    | _ => false
  | _ => false

/-- No I/O error, no overflow, no end of the stream; the client sends requests, and the
callbacks that answer succeed. -/
def Peaceful (state : HttpSession Parser) : WebAction → Prop
  | .recv sqes _ _ => sqes.room = true
  | .parse => ¬ state.io.session.sendQueue.full ∧ state.failing llhttp = false
  | .answer _ built => ¬ state.io.session.sendQueue.full ∧ built.isSome = true
  | .io action => Calm state.io action

instance (state : HttpSession Parser) (action : WebAction) :
    Decidable (state.Peaceful llhttp action) :=
  match action with
  | .recv sqes _ _ => inferInstanceAs (Decidable (sqes.room = true))
  | .parse => inferInstanceAs (Decidable (
      ¬ state.io.session.sendQueue.full ∧ state.failing llhttp = false))
  | .answer _ built => inferInstanceAs (Decidable (
      ¬ state.io.session.sendQueue.full ∧ built.isSome = true))
  | .io action => inferInstanceAs (Decidable (Calm state.io action))

/-- A request that asked for `Connection: close` is dispatched with no message in flight and
no answer outstanding, and is answered at once. -/
def ClosesWhenIdle (state : HttpSession Parser) (action : WebAction) : Prop :=
  state.Peaceful llhttp action ∧
    match action with
    | .parse => ∀ request ∈ state.arriving llhttp, request.keepAlive = false →
        state.io.session.sendQueue.registered = false ∧ state.history.deferred = [] ∧
          ¬ Deferring (env.onRequest state.calls request)
    | _ => True

instance (state : HttpSession Parser) (action : WebAction) :
    Decidable (ClosesWhenIdle env llhttp state action) :=
  match action with
  | .recv sqes data flags => inferInstanceAs (Decidable (
      state.Peaceful llhttp (.recv sqes data flags) ∧ True))
  | .answer request built => inferInstanceAs (Decidable (
      state.Peaceful llhttp (.answer request built) ∧ True))
  | .io action => inferInstanceAs (Decidable (state.Peaceful llhttp (.io action) ∧ True))
  | .parse => inferInstanceAs (Decidable (state.Peaceful llhttp .parse ∧
      ∀ request ∈ state.arriving llhttp, request.keepAlive = false →
        state.io.session.sendQueue.registered = false ∧ state.history.deferred = [] ∧
          ¬ Deferring (env.onRequest state.calls request)))

/-- Whether the session still runs. -/
inductive Standing (state : HttpSession Parser) : Prop where
  | running (undisturbed : Undisturbed state.io) (fine : state.parserError = false)
      (at_ : state.control = .idle ∨ ∃ length rest, state.control = .feedHttp length rest false)
  | stopped (stops : state.disconnecting = true) (none_ : state.history.deferred = [])
      (all : state.io.history.submitted.flatten = state.io.history.accepted)
      (at_ : state.control = .idle ∨ ∃ length rest, state.control = .feedHttp length rest false ∧
        state.parserError = true)

/-- What these runs keep: every request waits for its answer or has one that was accepted,
and a session that stopped has submitted all of them. -/
structure Served (state : HttpSession Parser) : Prop where
  http : state.mode = .http
  empty : state.recvBuf.isEmpty = true
  served : ∀ request < state.history.dispatched, request ∈ state.history.deferred ∨
    state.AnsweredWithin state.io.history.accepted.length request
  standing : state.Standing

variable {env llhttp} {state next : HttpSession Parser}

/-- A step that touches neither requests nor answers. -/
theorem Served.silent (served : Served state) (http : next.mode = state.mode)
    (empty : next.recvBuf = state.recvBuf) (ledger : next.ledger = state.ledger)
    (accepted : state.io.history.accepted <+: next.io.history.accepted)
    (standing : next.Standing) : Served next := by
  have dispatched : next.history.dispatched = state.history.dispatched :=
    congrArg Ledger.dispatched ledger
  have deferred : next.history.deferred = state.history.deferred :=
    congrArg Ledger.deferred ledger
  have responses : next.history.responses = state.history.responses :=
    congrArg Ledger.responses ledger
  refine ⟨http.trans served.http, empty ▸ served.empty, ?_, standing⟩
  intro number below
  rw [dispatched] at below
  rcases served.served number below with waits | answered
  · exact .inl (deferred ▸ waits)
  · exact .inr (answered.mono accepted.length_le accepted fun _ member => responses ▸ member)

section Handlers

variable (answers : ∀ calls request, Synchronous (env.onRequest calls request) ∨
  Deferring (env.onRequest calls request))
variable (room : ∀ use, (env.sqes use).room = true)
variable (allocates : ∀ use size, (env.allocate use size).isSome = true)

include room allocates in
/-- What a handler that answers at once leaves. -/
theorem Served.answered (served : Served state) (undisturbed : Undisturbed state.io)
    (fits : ¬ state.io.session.sendQueue.full) {request : HttpRequest}
    (synchronous : Synchronous (env.onRequest state.calls request)) :
    Undisturbed (state.answered env request).io ∧
      (state.answered env request).mode = state.mode ∧
      (state.answered env request).history.dispatched = state.history.dispatched + 1 ∧
      (state.answered env request).history.deferred = state.history.deferred ∧
      ∀ number < state.history.dispatched + 1, number ∈ state.history.deferred ∨
        (state.answered env request).AnsweredWithin
          (state.answered env request).io.history.accepted.length number := by
  obtain ⟨allocations, buf, same⟩ := answered_hands allocates synchronous
  have accepts := handResponse_accepts
    { state.recordRequest request with history.allocations := allocations } undisturbed (room _)
    fits state.history.dispatched buf
  rw [← same] at accepts
  obtain ⟨quiet, accepted, responses⟩ := accepts
  refine ⟨quiet, by rw [same]; rfl, by rw [same]; rfl, by rw [same]; rfl, ?_⟩
  intro number below
  rcases Nat.lt_succ_iff_lt_or_eq.mp below with earlier | rfl
  · exact (served.served number earlier).imp_right fun answered =>
      answered.earlier accepted responses
  · exact .inr (answeredWithin_last accepted responses)

include room allocates in
/-- A request that keeps the connection is answered at once. -/
theorem Served.keptAlive (served : Served state) (undisturbed : Undisturbed state.io)
    (fine : state.parserError = false) (fits : ¬ state.io.session.sendQueue.full)
    {request : HttpRequest} (synchronous : Synchronous (env.onRequest state.calls request))
    (length : Nat) (rest : Text) (parser : Parser) :
    Served { state.answered env request with
      parser, control := .feedHttp length rest false } := by
  obtain ⟨quiet, mode, dispatched, deferred, numbers⟩ :=
    served.answered room allocates undisturbed fits synchronous
  have handled := answered_handled env request state
  have empty : (state.answered env request).recvBuf = state.recvBuf := by rw [handled.rest]
  have error : (state.answered env request).parserError = state.parserError := by
    rw [handled.rest]
  refine ⟨mode.trans served.http, empty ▸ served.empty, ?_,
    .running quiet (error.trans fine) (.inr ⟨length, rest, rfl⟩)⟩
  change ∀ number < (state.answered env request).history.dispatched,
    number ∈ (state.answered env request).history.deferred ∨ _
  rw [dispatched, deferred]
  exact numbers

/-- The answer to a request is left to a callback. -/
theorem Served.deferring (served : Served state) (undisturbed : Undisturbed state.io)
    (fine : state.parserError = false) {request : HttpRequest}
    (deferring : Deferring (env.onRequest state.calls request))
    (length : Nat) (rest : Text) (parser : Parser) :
    Served { state.answered env request with
      parser, control := .feedHttp length rest false } := by
  rw [answered_deferring deferring]
  refine ⟨served.http, served.empty, ?_, .running undisturbed fine (.inr ⟨length, rest, rfl⟩)⟩
  intro number below
  rcases Nat.lt_succ_iff_lt_or_eq.mp below with earlier | rfl
  · exact (served.served number earlier).imp_left (List.mem_append_left _)
  · exact .inl (List.mem_append_right _ (.head _))

include room allocates in
/-- A request that asked for `Connection: close` is answered at once with no message in
flight. -/
theorem Served.closing (served : Served state) (grounded : Grounded state)
    (undisturbed : Undisturbed state.io) (fits : ¬ state.io.session.sendQueue.full)
    (registered : state.io.session.sendQueue.registered = false)
    (nothing : state.history.deferred = []) {request : HttpRequest}
    (synchronous : Synchronous (env.onRequest state.calls request))
    (length : Nat) (rest : Text) (parser : Parser) :
    Served { (state.answered env request).disconnect env with
      parserError := true, parser, control := .feedHttp length rest false } := by
  obtain ⟨_, mode, dispatched, deferred, numbers⟩ :=
    served.answered room allocates undisturbed fits synchronous
  have handled := answered_handled env request state
  have empty : (state.answered env request).recvBuf = state.recvBuf := by rw [handled.rest]
  have submits := answered_submits room allocates grounded undisturbed fits registered synchronous
  have untouched : Untouched (state.answered env request).io
      ((state.answered env request).disconnect env).io := Untouched.disconnect _ _
  refine ⟨mode.trans served.http, empty ▸ served.empty, ?_,
    .stopped (disconnect_disconnecting env _) (deferred.trans nothing) ?_
      (.inr ⟨length, rest, rfl, rfl⟩)⟩
  · intro number below
    change number < (state.answered env request).history.dispatched at below
    rw [dispatched] at below
    refine (numbers number below).imp (fun waits => deferred ▸ waits) fun answered => ?_
    have same : (state.answered env request).io.history.accepted <+:
        ((state.answered env request).disconnect env).io.history.accepted := by
      rw [untouched.accepted]
    exact answered.mono same.length_le same fun _ member => member
  · change ((state.answered env request).disconnect env).io.history.submitted.flatten =
      ((state.answered env request).disconnect env).io.history.accepted
    rw [untouched.submitted, untouched.accepted]
    exact submits

include answers room allocates in
/-- A request is dispatched. -/
theorem Served.request (served : Served state) (grounded : Grounded state)
    (undisturbed : Undisturbed state.io) (fine : state.parserError = false)
    (fits : ¬ state.io.session.sendQueue.full) {request : HttpRequest}
    (closes : request.keepAlive = false →
      state.io.session.sendQueue.registered = false ∧ state.history.deferred = [] ∧
        ¬ Deferring (env.onRequest state.calls request))
    (length : Nat) (rest : Text) (parser : Parser) :
    Served { state.handleRequest env request with
      parser, control := .feedHttp length rest false } := by
  cases keepAlive : request.keepAlive with
  | true =>
    rw [handleRequest_keepAlive env keepAlive]
    rcases answers state.calls request with synchronous | deferring
    · exact served.keptAlive room allocates undisturbed fine fits synchronous length rest parser
    · exact served.deferring undisturbed fine deferring length rest parser
  | false =>
    obtain ⟨registered, nothing, notDeferred⟩ := closes keepAlive
    have synchronous := (answers state.calls request).resolve_right notDeferred
    rw [handleRequest_close env keepAlive]
    exact served.closing room allocates grounded undisturbed fits registered nothing synchronous
      length rest parser

include answers room allocates in
/-- A pass of these runs keeps it. -/
theorem Turn.served (turn : Turn env llhttp state next) (served : Served state)
    (grounded : Grounded state) (admitted : ClosesWhenIdle env llhttp state .parse) :
    Served next := by
  obtain ⟨⟨fits, requests⟩, closes⟩ := admitted
  cases served.standing with
  | running undisturbed fine at_ =>
    rcases at_ with idle | ⟨length, rest, at_⟩
    · exact absurd idle turn.not_idle
    · by_cases more : rest = []
      · subst more
        cases turn.unique (.leave at_ (.inl rfl))
        rw [finishHttp_all env fine]
        exact served.silent rfl rfl rfl List.prefix_rfl (.running undisturbed fine (.inl rfl))
      cases outcome : llhttp.execute state.parser rest with
      | ok parser =>
        cases turn.unique (.incomplete at_ more fine outcome)
        rw [finishHttp_all env (by exact fine)]
        exact served.silent rfl rfl rfl List.prefix_rfl (.running undisturbed fine (.inl rfl))
      | paused consumed request parser =>
        cases turn.unique (.request at_ more fine outcome)
        exact served.request answers room allocates grounded undisturbed fine fits
          (closes request (arriving_of_paused at_ more fine outcome)) length _ parser
      | failed consumed =>
        simp [failing, at_, outcome] at requests
  | stopped stops none_ all at_ =>
    rcases at_ with idle | ⟨length, rest, at_, error⟩
    · exact absurd idle turn.not_idle
    · cases turn.unique (.leave at_ (.inr error))
      rw [finishHttp_error env error]
      have calls := (sendBuilt_calls env { state with control := .idle }
        fun allocate => badRequest.build allocate env.date).trans (disconnect_calls env _)
      generalize (HttpSession.disconnect env _) = final at calls ⊢
      have same := calls.io.of_disconnecting stops
      have final_ : final.disconnecting = true := calls.disconnecting stops
      refine served.silent calls.mode (by rw [calls.rest]) calls.ledger
        (same ▸ List.prefix_rfl) (.stopped final_ ?_ ?_ (.inl (by rw [calls.rest])))
      · rw [calls.rest]
        exact none_
      · rw [same]
        exact all

include room in
/-- A callback answers. -/
theorem Served.answer (served : Served state) (idle : state.control = .idle) {number : Nat}
    (waits : number ∈ state.history.deferred) (fits : ¬ state.io.session.sendQueue.full)
    (buf : Text) : Served (state.answer env number (some buf)) := by
  cases served.standing with
  | stopped _ none_ => simp [none_] at waits
  | running undisturbed fine =>
    obtain ⟨quiet, accepted, responses⟩ := handResponse_accepts
      { state with history.deferred := state.history.deferred.erase number } undisturbed
      (room _) fits number buf
    refine ⟨served.http, served.empty, ?_, .running quiet fine (.inl idle)⟩
    intro other below
    change other ∈ state.history.deferred.erase number ∨ AnsweredWithin
      (State.history (HttpSession.io (handResponse env number buf _))).accepted.length
      (handResponse env number buf _) other
    by_cases here : other = number
    · subst here
      exact .inr (answeredWithin_last accepted responses)
    · exact (served.served other below).imp (List.mem_erase_of_ne here).mpr fun answered =>
        answered.earlier accepted responses

theorem length_pos_int {data : Text} (some_ : data ≠ []) : (0 : Int) < data.length :=
  Int.natCast_pos.mpr (List.length_pos_iff.mpr some_)

/-- The session below takes a calm step, or any step once it has stopped. -/
theorem Standing.io (standing : state.Standing) (idle : state.control = .idle)
    {action : Io.Action} {io : Io.State} (moved : Io.step state.io action = some io)
    (calm : Calm state.io action) : { state with io }.Standing := by
  cases standing with
  | running undisturbed fine =>
    exact .running (undisturbed.step calm moved) fine (.inl idle)
  | stopped stops none_ all =>
    obtain ⟨accepted, submitted⟩ := stopped_step moved stops
    refine .stopped (disconnecting_step moved stops) none_ ?_ (.inl idle)
    change io.history.submitted.flatten = io.history.accepted
    rw [accepted, submitted]
    exact all

include answers room allocates in
/-- Every step of these runs keeps it. -/
theorem Moves.served {action : WebAction} (moves : Moves env llhttp state action next)
    (served : Served state) (grounded : Grounded state)
    (admitted : ClosesWhenIdle env llhttp state action) : Served next := by
  cases moves with
  | @dropped sqes data flags io idle _ some_ completed =>
    have calm : Calm state.io (.recvCompleted sqes data.length flags) :=
      ⟨admitted.1, .inl (length_pos_int some_)⟩
    have standing := served.standing.io idle completed calm
    refine served.silent rfl rfl rfl (accepted_step completed) ?_
    cases standing with
    | running undisturbed fine => exact .running undisturbed fine (.inl idle)
    | stopped stops none_ all => exact .stopped stops none_ all (.inl idle)
  | @entered sqes data flags io idle runs some_ completed =>
    have calm : Calm state.io (.recvCompleted sqes data.length flags) :=
      ⟨admitted.1, .inl (length_pos_int some_)⟩
    have entered : (state.takeIn io data).onRecv env data =
        { state.takeIn io data with control := .feedHttp data.length data false } := by
      simp [onRecv, handleHttpRecv, takeIn, served.http, served.empty]
    rw [entered]
    cases served.standing with
    | stopped stops => exact absurd (runs.symm.trans stops) (by simp)
    | running undisturbed fine =>
      exact served.silent rfl rfl rfl (accepted_step completed)
        (.running (undisturbed.step calm completed) fine (.inr ⟨_, _, rfl⟩))
  | turn turn => exact turn.served answers room allocates served grounded admitted
  | @answer number built idle waits =>
    obtain ⟨⟨fits, some_⟩, _⟩ := admitted
    obtain ⟨buf, rfl⟩ := Option.isSome_iff_exists.mp some_
    exact served.answer room idle waits fits buf
  | io idle _ moved =>
    exact served.silent rfl rfl rfl (accepted_step moved)
      (served.standing.io idle moved admitted.1)

theorem start_served (onConnected onDisconnect : Bool) :
    Served (start llhttp onConnected onDisconnect) := by
  have undisturbed : Undisturbed (start llhttp onConnected onDisconnect).io := by
    refine ⟨rfl, rfl, ?_⟩
    intro frame member
    rw [List.mem_singleton.mp member]
    rfl
  exact ⟨rfl, rfl, nofun, .running undisturbed rfl (.inl rfl)⟩

include answers room allocates in
/-- Handlers answer at once or leave it to a callback that succeeds, and the I/O is calm. In
the runs in which a request that asked for `Connection: close` is dispatched with no message
in flight and no answer outstanding, and is answered at once: when the session stops sending,
the response to every request was submitted to a `sendmsg`; until then each was, or follows
the message in flight, or waits for its callback. -/
theorem httpSession_responses_submitted
    (reachable : (system env llhttp).Reachable (ClosesWhenIdle env llhttp) state) :
    (state.disconnecting = true → ∀ request < state.history.dispatched,
      state.AnsweredWithin state.io.history.submitted.flatten.length request) ∧
    (state.disconnecting = false → ∀ request < state.history.dispatched,
      request ∈ state.history.deferred ∨
      state.AnsweredWithin state.io.history.submitted.flatten.length request ∨
      state.AnsweredWithin state.io.history.accepted.length request ∧
        state.io.ring.sendMsgs ≠ []) := by
  obtain ⟨grounded, served⟩ : Grounded state ∧ Served state := by
    refine reachable_invariant Served start_served ?_ reachable
    intro _ _ _ grounded served admitted transition
    exact (step_cases transition).served answers room allocates served grounded admitted
  refine ⟨?_, ?_⟩
  · intro stops request below
    cases served.standing with
    | running undisturbed => exact absurd (undisturbed.runs.symm.trans stops) (by simp)
    | stopped _ none_ all =>
      rw [all]
      exact (served.served request below).resolve_left (by simp [none_])
  · intro runs request below
    have flow := (reachable_pipeline grounded.io).flow runs
    refine (served.served request below).imp_right fun answered => ?_
    cases registered : state.io.session.sendQueue.registered with
    | true => exact .inr ⟨answered, flow.attended.mp registered⟩
    | false =>
      have queued := flow.queued
      rw [flow.drained registered, List.append_nil] at queued
      rw [queued]
      exact .inl answered

end Handlers

section Runs

/-- A request that asks for `Connection: close`. -/
def closeBytes : Text := ascii "GET / HTTP/1.1\r\nConnection: close\r\n\r\n"

theorem quiet_answers (calls : List Call) (request : HttpRequest) :
    Synchronous (Environment.quiet.onRequest calls request) ∨
      Deferring (Environment.quiet.onRequest calls request) :=
  .inl (.respond nofun)

/-- The request to close comes when the first response has left. -/
theorem httpSession_responses_submitted_in_turn :
    ∃ state : HttpSession Text,
      (system .quiet headParser).Reachable (ClosesWhenIdle .quiet headParser) state ∧
      state.disconnecting = true ∧ state.history.dispatched = 2 ∧
      ∀ request < 2, state.AnsweredWithin state.io.history.submitted.flatten.length request := by
  obtain ⟨state, executed, stops, dispatched⟩ : ∃ state : HttpSession Text,
      (system .quiet headParser).execute (ClosesWhenIdle .quiet headParser)
        (start headParser false false)
        [.io (.callbackReturned {}), .recv {} (ascii "GET / HTTP/1.1\r\n\r\n") 3, .parse, .parse,
          .io (.callbackReturned {}), .io (.sendCompleted {} 0 118), .recv {} closeBytes 3,
          .parse, .parse] = some state ∧
      state.disconnecting = true ∧ state.history.dispatched = 2 := ⟨_, rfl, rfl, rfl⟩
  have reachable := TransitionSystem.Reachable.execute (.initial (start_initial _ _)) executed
  refine ⟨state, reachable, stops, dispatched, ?_⟩
  rw [← dispatched]
  exact (httpSession_responses_submitted quiet_answers (fun _ => rfl) (fun _ _ => rfl)
    reachable).1 stops

/-- The request to close is pipelined: its response is queued behind the first, which is in
flight, and is never submitted. -/
theorem httpSession_response_dropped :
    ∃ state : HttpSession Text,
      (system .quiet headParser).Reachable (fun state => state.Peaceful headParser) state ∧
      state.disconnecting = true ∧ state.history.dispatched = 2 ∧
      ¬ state.AnsweredWithin state.io.history.submitted.flatten.length 1 := by
  obtain ⟨state, executed, stops, dispatched, responses, submitted⟩ : ∃ state : HttpSession Text,
      (system .quiet headParser).execute (fun state => state.Peaceful headParser)
        (start headParser false false)
        [.io (.callbackReturned {}),
          .recv {} (ascii "GET / HTTP/1.1\r\n\r\n" ++ closeBytes) 3, .parse, .parse, .parse,
          .io (.callbackReturned {}), .io (.sendCompleted {} 0 118)] = some state ∧
      state.disconnecting = true ∧ state.history.dispatched = 2 ∧
      state.history.responses.map (fun response => (response.request, response.position)) =
        [(0, some 0), (1, some 1)] ∧
      state.io.history.submitted.flatten.length = 1 := ⟨_, rfl, rfl, rfl, rfl, rfl⟩
  have reachable := TransitionSystem.Reachable.execute (.initial (start_initial _ _)) executed
  refine ⟨state, reachable, stops, dispatched, ?_⟩
  rintro ⟨bytes, position, below, member, _⟩
  have listed := List.mem_map_of_mem (f := fun response => (response.request, response.position))
    member
  rw [submitted] at below
  rw [responses] at listed
  simp only [List.mem_cons, List.not_mem_nil, or_false, Prod.mk.injEq, Option.some.injEq] at listed
  omega

end Runs

end HttpSession

end UringServer.Web
