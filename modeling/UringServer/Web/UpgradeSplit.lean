import UringServer.Web.Deliveries

/-!
# Cutting a stream across a WebSocket upgrade

A client sends an upgrade request and then frames. The loop of `HttpParser::Feed`
keeps the rest of the span in which the request ends, so frames in that span do
not reach the frame parser. When no span holds bytes of both, and none comes
after a disconnect that would have completed something, the handler is called
for the frames of the stream however it is cut.
-/

namespace UringServer.Web

open UringServer.Io UringServer.Semantics

namespace HttpSession

variable {Parser : Type}

/-- The client sends `request` and `frames`; no span holds bytes of both, and a span that
comes after `Disconnect` completes nothing. -/
def Segmented (request frames : Text) (state : HttpSession Parser) : WebAction → Prop
  | .recv _ data _ =>
    state.history.received ++ data <+: request ++ frames ∧
    (state.history.received.length < request.length →
      state.history.received.length + data.length ≤ request.length) ∧
    (state.disconnecting = true →
      due request (state.history.received ++ data) = due request state.history.received)
  | _ => True

instance (request frames : Text) (state : HttpSession Parser) (action : WebAction) :
    Decidable (Segmented request frames state action) :=
  match action with
  | .parse | .answer _ _ | .io _ => .isTrue trivial
  | .recv _ data _ => inferInstanceAs (Decidable (
      state.history.received ++ data <+: request ++ frames ∧
      (state.history.received.length < request.length →
        state.history.received.length + data.length ≤ request.length) ∧
      (state.disconnecting = true →
        due request (state.history.received ++ data) = due request state.history.received)))

/-- How far the session is with the stream. -/
inductive Phase (llhttp : Llhttp Parser) (request : Text) (state : HttpSession Parser) : Prop where
  /-- The request is incomplete. -/
  | waiting (idle : state.control = .idle) (http : state.mode = .http) (quiet : state.calls = [])
      (fine : state.parserError = false) (fresh : state.wsParser = {})
      (short : state.history.received.length < request.length)
      (parsed : state.disconnecting = false →
        llhttp.execute llhttp.initial state.history.received = .ok state.parser)
  /-- `rest` may be the end of the request. -/
  | reading {length seen rest} (at_ : state.control = .feedHttp length rest false)
      (http : state.mode = .http) (quiet : state.calls = []) (fine : state.parserError = false)
      (fresh : state.wsParser = {}) (more : rest ≠ [])
      (received : state.history.received = seen ++ rest)
      (within : state.history.received.length ≤ request.length)
      (parsed : llhttp.execute llhttp.initial seen = .ok state.parser)
  /-- The request was the end of its span. -/
  | upgraded {length} (at_ : state.control = .feedHttp length [] false)
      (switched : state.mode = .webSocket) (fresh : state.wsParser = {})
      (all : state.history.received.length = request.length)
      (opened : state.deliveries = [.onOpen])
  /-- All that is complete was delivered. -/
  | delivered (idle : state.control = .idle) (switched : state.mode = .webSocket)
      (past : request.length ≤ state.history.received.length)
      (delivered : state.deliveries = due request state.history.received)
      (parsed : state.disconnecting = false → state.wsParser.error = false ∧
        state.wsParser = WsFrameParser.feed {} (state.history.received.drop request.length))
  /-- Frames are being parsed. -/
  | feeding {length} (at_ : state.control = .feedWs length false)
      (switched : state.mode = .webSocket)
      (past : request.length ≤ state.history.received.length)
      (delivered : state.deliveries = .onOpen :: messagesOf state.wsParser.callbacks)
      (parsed : WsFrameParser.Agree state.wsParser.parseBuffer
        (WsFrameParser.feed {} (state.history.received.drop request.length)))

/-- What the runs of such a client keep. -/
structure Split (llhttp : Llhttp Parser) (request frames : Text) (state : HttpSession Parser) :
    Prop where
  stream : state.history.received <+: request ++ frames
  empty : state.recvBuf.isEmpty = true
  phase : Phase llhttp request state

section Upgrade

variable {env : Environment} {llhttp : Llhttp Parser} {bytes frames : Text}
variable {request : HttpRequest} {after : Parser} {state next : HttpSession Parser}
variable (incremental : llhttp.Incremental)
variable (complete : llhttp.execute llhttp.initial bytes = .paused bytes.length request after)
variable (upgrades : (env.onRequest [] request).count .upgrade = 1)

include incremental complete upgrades in
theorem Split.reading (split : Split llhttp bytes frames state)
    (turn : Turn env llhttp state next) {length : Nat} {seen rest : Text}
    (at_ : state.control = .feedHttp length rest false) (http : state.mode = .http)
    (quiet : state.calls = []) (fine : state.parserError = false) (fresh : state.wsParser = {})
    (more : rest ≠ []) (received : state.history.received = seen ++ rest)
    (within : state.history.received.length ≤ bytes.length)
    (parsed : llhttp.execute llhttp.initial seen = .ok state.parser) :
    Split llhttp bytes frames next := by
  have begins : seen ++ rest <+: bytes := by
    rw [← received]
    exact List.prefix_of_prefix_length_le split.stream (List.prefix_append _ _) within
  rcases execute_rest incremental complete parsed begins with
    ⟨short, middle, executed, whole⟩ | ⟨all, executed⟩
  · cases turn.unique (.incomplete at_ more fine executed)
    rw [finishHttp_all env (by exact fine)]
    rw [← received] at short whole
    exact ⟨split.stream, split.empty, .waiting rfl http quiet fine fresh short fun _ => whole⟩
  · cases turn.unique (.request at_ more fine executed)
    obtain ⟨opened, switched⟩ := handleRequest_upgrades upgrades quiet
    obtain ⟨sameReceived, sameBuffer, sameParser⟩ := handleRequest_untouched env request state
    have nothing : Control.feedHttp length (rest.drop rest.length) false =
        .feedHttp length [] false := by rw [List.drop_length]
    refine ⟨?_, ?_, .upgraded nothing switched ?_ ?_ opened⟩
    · exact sameReceived ▸ split.stream
    · exact sameBuffer ▸ split.empty
    · exact sameParser.trans fresh
    · exact (congrArg List.length (sameReceived.trans (received.trans all)))

/-- The upgrade request was the end of its span. -/
theorem Split.upgraded (split : Split llhttp bytes frames state)
    (turn : Turn env llhttp state next) {length : Nat}
    (at_ : state.control = .feedHttp length [] false) (switched : state.mode = .webSocket)
    (fresh : state.wsParser = {}) (all : state.history.received.length = bytes.length)
    (opened : state.deliveries = [.onOpen]) : Split llhttp bytes frames next := by
  cases turn.unique (.leave at_ (.inl rfl))
  have nothing : state.history.received.drop bytes.length = [] := by
    rw [← all, List.drop_length]
  have due : state.deliveries = due bytes state.history.received := by
    rw [opened, due_of_le all.ge, nothing]
    rfl
  cases error : state.parserError with
  | true =>
    rw [finishHttp_error env error]
    have calls := (sendBuilt_calls env { state with control := .idle }
      fun allocate => badRequest.build allocate env.date).trans (disconnect_calls env _)
    have stops := disconnect_disconnecting env ({ state with control := .idle }.sendBuilt env
      fun allocate => badRequest.build allocate env.date)
    generalize (HttpSession.disconnect env _) = final at calls stops ⊢
    rw [calls.rest]
    refine ⟨split.stream, split.empty, .delivered rfl switched all.ge due fun runs => ?_⟩
    exact absurd (stops.symm.trans runs) (by simp)
  | false =>
    rw [finishHttp_all env error]
    refine ⟨split.stream, split.empty, .delivered rfl switched all.ge due fun _ => ?_⟩
    change state.wsParser.error = false ∧ state.wsParser = _
    rw [fresh, nothing]
    exact ⟨rfl, rfl⟩

/-- All frames that are complete have been parsed. -/
theorem Split.parsed (split : Split llhttp bytes frames state) (length : Nat)
    (switched : state.mode = .webSocket) (past : bytes.length ≤ state.history.received.length)
    (delivered : state.deliveries = .onOpen :: messagesOf state.wsParser.callbacks)
    (agree : WsFrameParser.Agree state.wsParser
      (WsFrameParser.feed {} (state.history.received.drop bytes.length))) :
    Split llhttp bytes frames (state.finishWs env length false) := by
  have due : state.deliveries = due bytes state.history.received := by
    rw [delivered, due_of_le past, messages]
    rcases agree with same | ⟨_, _, callbacks⟩
    · rw [same]
    · rw [callbacks]
  unfold finishWs
  simp only [Bool.false_eq_true, if_false]
  split_ifs with error
  · refine ⟨split.stream, split.empty, .delivered rfl switched past due fun runs => ?_⟩
    exact absurd ((disconnect_disconnecting env _).symm.trans runs) (by simp)
  · refine ⟨split.stream, split.empty, .delivered rfl switched past due fun _ => ?_⟩
    have fine : state.wsParser.error = false := by simpa [WsFrameParser.hasError] using error
    rcases agree with same | ⟨stopped, _⟩
    · exact ⟨fine, same⟩
    · exact absurd (stopped.symm.trans fine) (by simp)

/-- One more frame is parsed. -/
theorem Split.frame (split : Split llhttp bytes frames state) {length : Nat}
    {wsParser : WsFrameParser} {made : Option WsFrameParser.Callback}
    (at_ : state.control = .feedWs length false) (switched : state.mode = .webSocket)
    (past : bytes.length ≤ state.history.received.length)
    (delivered : state.deliveries = .onOpen :: messagesOf state.wsParser.callbacks)
    (callbacks : wsParser.callbacks = state.wsParser.callbacks ++ made.toList)
    (agree : WsFrameParser.Agree wsParser.parseBuffer
      (WsFrameParser.feed {} (state.history.received.drop bytes.length))) :
    Split llhttp bytes frames ({ state with wsParser }.runMade env made) := by
  have handled := runMade_handled env { state with wsParser } made
  have grown : ({ state with wsParser }.runMade env made).deliveries =
      .onOpen :: messagesOf wsParser.callbacks := by
    rw [runMade_deliveries, callbacks]
    change state.deliveries ++ _ = _
    rw [delivered, messagesOf, messagesOf, messagesOf, List.filterMap_append,
      List.filter_append, List.cons_append]
  have mode : ({ state with wsParser }.runMade env made).mode = .webSocket := by
    rw [runMade_mode]
    exact switched
  generalize { state with wsParser }.runMade env made = final at handled grown mode ⊢
  rw [handled.rest] at grown mode ⊢
  exact ⟨split.stream, split.empty, .feeding at_ mode past grown agree⟩

/-- Frames are parsed. -/
theorem Split.feeding (split : Split llhttp bytes frames state) (ready : state.wsParser.Ready)
    (turn : Turn env llhttp state next) {length : Nat}
    (at_ : state.control = .feedWs length false) (switched : state.mode = .webSocket)
    (past : bytes.length ≤ state.history.received.length)
    (delivered : state.deliveries = .onOpen :: messagesOf state.wsParser.callbacks)
    (parsed : WsFrameParser.Agree state.wsParser.parseBuffer
      (WsFrameParser.feed {} (state.history.received.drop bytes.length))) :
    Split llhttp bytes frames next := by
  cases stepped : state.wsParser.parseStep with
  | none =>
    cases turn.unique (.wsLeave at_ stepped)
    rw [WsFrameParser.parseBuffer, Loop.run_of_none stepped] at parsed
    exact split.parsed length switched past delivered parsed
  | some wsParser =>
    obtain ⟨made, callbacks⟩ := (WsFrameParser.parseStep_cases stepped).2.oneMore
    cases turn.unique (.frame at_ stepped callbacks)
    have whole : state.wsParser.parseBuffer = wsParser.parseBuffer :=
      Loop.run_of_some ready stepped
    rw [whole] at parsed
    exact split.frame at_ switched past delivered callbacks parsed

/-- A span is handed to the session. -/
theorem Split.entered (split : Split llhttp bytes frames state) {io : Io.State}
    {data : Text} (idle : state.control = .idle) (runs : state.disconnecting = false)
    (more : data ≠ []) (stream : state.history.received ++ data <+: bytes ++ frames)
    (within : state.history.received.length < bytes.length →
      state.history.received.length + data.length ≤ bytes.length) :
    Split llhttp bytes frames ((state.takeIn io data).onRecv env data) := by
  have empty := split.empty
  cases split.phase with
  | reading at_ | upgraded at_ | feeding at_ => cases idle.symm.trans at_
  | waiting _ http quiet fine fresh short parsed =>
    have entered : (state.takeIn io data).onRecv env data =
        { state.takeIn io data with control := .feedHttp data.length data false } := by
      simp [onRecv, handleHttpRecv, takeIn, http, empty]
    rw [entered]
    refine ⟨stream, empty, .reading rfl http quiet fine fresh more rfl ?_ (parsed runs)⟩
    exact List.length_append.trans_le (within short)
  | delivered _ switched past delivered parsed =>
    obtain ⟨fine, same⟩ := parsed runs
    have entered : (state.takeIn io data).onRecv env data = { state.takeIn io data with
        wsParser := state.wsParser.extend data
        control := .feedWs data.length false } := by
      simp [onRecv, handleWsRecv, feedWs, takeIn, switched, empty, fine]
    have whole : (state.history.received ++ data).drop bytes.length =
        state.history.received.drop bytes.length ++ data := List.drop_append_of_le_length past
    have fed : (state.wsParser.extend data).parseBuffer = state.wsParser.feed data :=
      (if_neg (by simp [fine])).symm
    rw [entered]
    refine ⟨stream, empty, .feeding rfl switched ?_ ?_ ?_⟩
    · exact past.trans (List.length_append.ge.trans' (Nat.le_add_right _ _))
    · change state.deliveries = .onOpen :: messagesOf state.wsParser.callbacks
      rw [delivered, due_of_le past, messages, ← same]
    · change WsFrameParser.Agree (state.wsParser.extend data).parseBuffer
        (WsFrameParser.feed {} ((state.history.received ++ data).drop bytes.length))
      rw [fed, whole, same]
      exact WsFrameParser.fresh_ready.feed_feed _ data

/-- A span comes after `Disconnect`. -/
theorem Split.dropped (split : Split llhttp bytes frames state) {io : Io.State} {data : Text}
    (idle : state.control = .idle) (stops : io.session.disconnecting = true)
    (stream : state.history.received ++ data <+: bytes ++ frames)
    (nothing : due bytes (state.history.received ++ data) = due bytes state.history.received) :
    Split llhttp bytes frames (state.takeIn io data) := by
  have vacuous {P : Prop} (runs : (state.takeIn io data).disconnecting = false) : P :=
    absurd (stops.symm.trans runs) (by simp)
  cases split.phase with
  | reading at_ | upgraded at_ | feeding at_ => cases idle.symm.trans at_
  | waiting _ http quiet fine fresh short parsed =>
    refine ⟨stream, split.empty, .waiting idle http quiet fine fresh ?_ vacuous⟩
    change (state.history.received ++ data).length < bytes.length
    by_contra long
    rw [due_of_lt short, due_of_le (Nat.le_of_not_lt long)] at nothing
    cases nothing
  | delivered _ switched past delivered parsed =>
    refine ⟨stream, split.empty, .delivered idle switched ?_ ?_ vacuous⟩
    · exact past.trans (List.length_append.ge.trans' (Nat.le_add_right _ _))
    · exact delivered.trans nothing.symm

/-- A step that neither receives nor parses. -/
theorem Split.silent (split : Split llhttp bytes frames state) (idle : state.control = .idle)
    (rest : next = { state with io := next.io, history := { next.history with
      received := state.history.received, calls := state.history.calls } })
    (final : state.disconnecting = true → next.disconnecting = true) :
    Split llhttp bytes frames next := by
  have running (runs : next.disconnecting = false) : state.disconnecting = false := by
    by_contra stops
    exact absurd ((final (by simpa using stops)).symm.trans runs) (by simp)
  rw [rest] at running ⊢
  cases split.phase with
  | reading at_ | upgraded at_ | feeding at_ => cases idle.symm.trans at_
  | waiting _ http quiet fine fresh short parsed =>
    exact ⟨split.stream, split.empty,
      .waiting idle http quiet fine fresh short fun runs => parsed (running runs)⟩
  | delivered _ switched past delivered parsed =>
    exact ⟨split.stream, split.empty,
      .delivered idle switched past delivered fun runs => parsed (running runs)⟩

include incremental complete upgrades in
/-- Every step of such a client's run keeps it. -/
theorem Moves.split {action : WebAction} (moves : Moves env llhttp state action next)
    (split : Split llhttp bytes frames state) (ready : state.wsParser.Ready)
    (segmented : Segmented bytes frames state action) : Split llhttp bytes frames next := by
  cases moves with
  | dropped idle stops _ completed =>
    exact split.dropped idle (disconnecting_step completed stops) segmented.1
      (segmented.2.2 stops)
  | entered idle runs more => exact split.entered idle runs more segmented.1 segmented.2.1
  | turn turn =>
    cases split.phase with
    | waiting idle | delivered idle => exact absurd idle turn.not_idle
    | reading at_ http quiet fine fresh more received within parsed =>
      exact split.reading incremental complete upgrades turn at_ http quiet fine fresh more
        received within parsed
    | upgraded at_ switched fresh all opened =>
      exact split.upgraded turn at_ switched fresh all opened
    | feeding at_ switched past delivered parsed =>
      exact split.feeding ready turn at_ switched past delivered parsed
  | @answer number built idle =>
    cases built with
    | none => exact split.silent idle rfl id
    | some buf =>
      have handled := handResponse_handled env number buf
        { state with history.deferred := state.history.deferred.erase number }
      exact split.silent idle rfl handled.disconnecting
  | io idle _ moved => exact split.silent idle rfl (disconnecting_step moved)

include incremental complete upgrades in
/-- The client sends an upgrade request and then frames. In the runs in which no span holds
bytes of both and none that comes after `Disconnect` completes anything, the handler is
called for the frames in order however the stream is cut. -/
theorem httpSession_split_irrelevant
    (reachable : (system env llhttp).Reachable (Segmented bytes frames) state)
    (idle : state.control = .idle) (all : state.history.received = bytes ++ frames) :
    state.deliveries = .onOpen :: messages frames := by
  have some_ := (llhttp.paused_bounds complete).1
  obtain ⟨-, split⟩ : Grounded state ∧ Split llhttp bytes frames state := by
    refine reachable_invariant (Split llhttp bytes frames) ?_ ?_ reachable
    · intro onConnected onDisconnect
      refine ⟨List.nil_prefix, rfl, .waiting rfl rfl rfl rfl rfl some_ fun _ => ?_⟩
      exact incremental.nothing _
    · intro _ _ _ grounded split segmented transition
      exact (step_cases transition).split incremental complete upgrades split grounded.ready
        segmented
  cases split.phase with
  | reading at_ | upgraded at_ | feeding at_ => cases idle.symm.trans at_
  | waiting _ _ _ _ _ short =>
    rw [all, List.length_append] at short
    omega
  | delivered _ _ past delivered =>
    rw [delivered, due_of_le past, all, List.drop_left]

end Upgrade

section Runs

/-- The request that the bytes of the upgrade request are. -/
def upgradeRequest : HttpRequest where
  method := .get
  path := ascii "/ws"
  headers := (headLines upgradeBytes).map headerOf

/-- It is complete, it is a valid handshake, and the server upgrades the session. -/
theorem upgradeRequest_upgrades :
    headParser.execute headParser.initial upgradeBytes =
        .paused upgradeBytes.length upgradeRequest [] ∧
      validateUpgrade upgradeRequest = true ∧
      (upgrading.onRequest [] upgradeRequest).count .upgrade = 1 := by
  decide +kernel

/-- Request and frame each in two spans. -/
theorem httpSession_split_irrelevant_four_spans :
    ∃ state : HttpSession Text,
      (system upgrading headParser).Reachable (Segmented upgradeBytes [0x81, 0x01, 0x68]) state ∧
      state.deliveries = .onOpen :: messages [0x81, 0x01, 0x68] ∧
      messages [0x81, 0x01, 0x68] = [.onMessage [0x68] true] := by
  have run : ((system upgrading headParser).execute (Segmented upgradeBytes [0x81, 0x01, 0x68])
      (start headParser false false)
      [.io (.callbackReturned {}), .recv {} (upgradeBytes.take 7) 3, .parse,
        .io (.callbackReturned {}), .recv {} (upgradeBytes.drop 7) 3, .parse, .parse,
        .io (.callbackReturned {}), .recv {} [0x81] 3, .parse,
        .io (.callbackReturned {}), .recv {} [0x01, 0x68] 3, .parse, .parse, .parse]).map
      (fun state => (state.control, state.history.received)) =
      some (.idle, upgradeBytes ++ [0x81, 0x01, 0x68]) := by decide +kernel
  obtain ⟨state, executed, results⟩ := Option.map_eq_some_iff.mp run
  have reachable := TransitionSystem.Reachable.execute (.initial (start_initial _ _)) executed
  obtain ⟨complete, -, upgrades⟩ := upgradeRequest_upgrades
  exact ⟨state, reachable, httpSession_split_irrelevant (scanner_incremental _) complete upgrades
    reachable (congrArg Prod.fst results) (congrArg Prod.snd results), rfl⟩

/-- The same bytes in one span and in two, a valid upgrade request and a text frame: in one span
the frame is lost. -/
theorem httpSession_split_loses_frame :
    validateUpgrade upgradeRequest = true ∧
    headParser.execute headParser.initial upgradeBytes =
      .paused upgradeBytes.length upgradeRequest [] ∧
    ∃ whole cut : HttpSession Text,
      (system upgrading headParser).Reachable everyStep whole ∧
      (system upgrading headParser).Reachable everyStep cut ∧
      whole.control = .idle ∧ cut.control = .idle ∧
      whole.history.received = upgradeBytes ++ [0x81, 0x01, 0x68] ∧
      cut.history.received = upgradeBytes ++ [0x81, 0x01, 0x68] ∧
      whole.deliveries = [.onOpen] ∧ cut.deliveries = [.onOpen, .onMessage [0x68] true] := by
  have run : ((system upgrading headParser).execute everyStep (start headParser false false)
      [.io (.callbackReturned {}), .recv {} (upgradeBytes ++ [0x81, 0x01, 0x68]) 3, .parse,
        .parse]).map (fun state => (state.control, state.history.received, state.deliveries)) =
      some (.idle, upgradeBytes ++ [0x81, 0x01, 0x68], [.onOpen]) := by decide +kernel
  have cutRun : ((system upgrading headParser).execute everyStep (start headParser false false)
      (upgradeActions ++ [.recv {} [0x81, 0x01, 0x68] 3, .parse, .parse, .parse])).map
      (fun state => (state.control, state.history.received, state.deliveries)) =
      some (.idle, upgradeBytes ++ [0x81, 0x01, 0x68], [.onOpen, .onMessage [0x68] true]) := by
    decide +kernel
  obtain ⟨whole, executed, results⟩ := Option.map_eq_some_iff.mp run
  obtain ⟨cut, cutExecuted, cutResults⟩ := Option.map_eq_some_iff.mp cutRun
  simp only [Prod.mk.injEq] at results cutResults
  obtain ⟨idle, received, deliveries⟩ := results
  obtain ⟨cutIdle, cutReceived, cutDeliveries⟩ := cutResults
  exact ⟨upgradeRequest_upgrades.2.1, upgradeRequest_upgrades.1, whole, cut,
    .execute (.initial (start_initial _ _)) executed,
    .execute (.initial (start_initial _ _)) cutExecuted, idle, cutIdle, received, cutReceived,
    deliveries, cutDeliveries⟩

end Runs

end HttpSession

end UringServer.Web
