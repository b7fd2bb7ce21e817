import UringServer.Web.HttpRun
import UringServer.Web.WebServer

/-!
# Calls of the application after `Disconnect`

`Session::OnRecv` does not look at a span once `Disconnect` has been called, but
the loops that parse a span do not ask. No call comes late in the runs in which
whatever disconnects the session is the last thing its span completes.
-/

namespace UringServer.Web

open UringServer.Io UringServer.Semantics

/-- Whether a call is one of `OnMessage`. -/
def Call.isMessage : Call → Bool
  | .onMessage _ _ => true
  | _ => false

/-- Whether bytes complete a message. -/
def Executed.isPaused {Parser : Type} : Executed Parser → Bool
  | .paused _ _ _ => true
  | _ => false

namespace HttpSession

variable {Parser : Type} (env : Environment) (llhttp : Llhttp Parser)

/-- No request was dispatched and neither `OnMessage` nor `OnClose` was called after
`Disconnect`; `OnClose` was called at most once and before no `OnMessage`. -/
structure Orderly (state : HttpSession Parser) : Prop where
  prompt : ∀ record ∈ state.history.calls, record.call ≠ .onOpen → record.late = false
  closing : state.calls.Pairwise fun earlier later =>
    earlier.isClose = true → later.isMessage = false ∧ later.isClose = false

/-- The rest of the span being parsed completes no request, and no text, binary or close
frame. -/
def ExhaustedAt (state : HttpSession Parser) : Control → Prop
  | .idle => True
  | .feedHttp _ rest _ =>
    rest = [] ∨ state.parserError = true ∨ (llhttp.execute state.parser rest).isPaused = false
  | .feedWs _ _ =>
    ∀ callback ∈ state.wsParser.parseBuffer.callbacks.drop state.wsParser.callbacks.length,
      frameCall callback = none

/-- The span being parsed has nothing left to deliver. -/
def Exhausted (state : HttpSession Parser) : Prop := state.ExhaustedAt llhttp state.control

/-- Whether the session is disconnected while the frames of a pass are handled. -/
def framesDisconnect (state : HttpSession Parser) (wsParser : WsFrameParser) : Bool :=
  ((wsParser.callbacks.drop state.wsParser.callbacks.length).foldl (runCallback env)
    { state with wsParser }).disconnecting

/-- If the session is disconnected while a request is handled, no other one is completed behind it.
One that asks for `Connection: close` stops the parser. -/
def RequestLast (state : HttpSession Parser) (rest : Text) : Executed Parser → Prop
  | .paused consumed request parser => request.keepAlive = true →
      (state.handleRequest env request).disconnecting = true →
      rest.drop consumed = [] ∨ (llhttp.execute parser (rest.drop consumed)).isPaused = false
  | .ok _ | .failed _ => True

instance (state : HttpSession Parser) (rest : Text) (executed : Executed Parser) :
    Decidable (RequestLast env llhttp state rest executed) :=
  match executed with
  | .paused _ _ _ => inferInstanceAs (Decidable (_ → _ → _))
  | .ok _ | .failed _ => .isTrue trivial

/-- If the session is disconnected while a request or a frame of a span is handled, nothing behind
it in the span is to be delivered. -/
def DisconnectsLastAt (state : HttpSession Parser) : Control → Prop
  | .idle => True
  | .feedHttp _ rest _ => state.parserError = false →
      RequestLast env llhttp state rest (llhttp.execute state.parser rest)
  | .feedWs _ _ => ∀ wsParser ∈ state.wsParser.parseStep, framesDisconnect env state wsParser →
      ∀ callback ∈ state.wsParser.parseBuffer.callbacks.drop wsParser.callbacks.length,
        frameCall callback = none

instance (state : HttpSession Parser) (control : Control) :
    Decidable (DisconnectsLastAt env llhttp state control) :=
  match control with
  | .idle => .isTrue trivial
  | .feedHttp _ _ _ => inferInstanceAs (Decidable (_ → _))
  | .feedWs _ _ => inferInstanceAs (Decidable (∀ wsParser ∈ state.wsParser.parseStep, _ → _))

/-- What disconnects the session is the last thing its span completes. -/
def DisconnectsLast (state : HttpSession Parser) : WebAction → Prop
  | .parse => state.disconnecting = false → DisconnectsLastAt env llhttp state state.control
  | .recv _ _ _ | .answer _ _ | .io _ => True

instance (state : HttpSession Parser) (action : WebAction) :
    Decidable (DisconnectsLast env llhttp state action) :=
  match action with
  | .recv _ _ _ | .answer _ _ | .io _ => .isTrue trivial
  | .parse => inferInstanceAs (Decidable (_ → _))

/-- What every state keeps: the calls are orderly, a session that was closed is
disconnecting, and one that is disconnecting has nothing left to deliver. -/
structure Settled (state : HttpSession Parser) : Prop where
  orderly : state.Orderly
  closed : ∀ call ∈ state.calls, call.isClose = true → state.disconnecting = true
  exhausted : state.disconnecting = true → state.Exhausted llhttp

variable {env llhttp} {state next : HttpSession Parser}

theorem exhausted_of_idle (idle : state.control = .idle) : state.Exhausted llhttp := by
  rw [Exhausted, idle]
  trivial

/-- A step that calls nothing. -/
theorem Orderly.of_same (orderly : state.Orderly)
    (same : next.history.calls = state.history.calls) : next.Orderly := by
  refine ⟨?_, ?_⟩
  · rw [same]
    exact orderly.prompt
  · rw [calls, same]
    exact orderly.closing

/-- Calls made while no `OnClose` has been called. -/
theorem Orderly.append (orderly : state.Orderly) {records : List CallRecord}
    (unclosed : ∀ call ∈ state.calls, call.isClose = false)
    (prompt : ∀ record ∈ records, record.call ≠ .onOpen → record.late = false)
    (closing : (records.map CallRecord.call).Pairwise fun earlier later =>
      earlier.isClose = true → later.isMessage = false ∧ later.isClose = false)
    (added : next.history.calls = state.history.calls ++ records) : next.Orderly := by
  refine ⟨?_, ?_⟩
  · rw [added]
    intro record member
    rcases List.mem_append.mp member with earlier | later
    · exact orderly.prompt record earlier
    · exact prompt record later
  · rw [calls, added, List.map_append, List.pairwise_append]
    refine ⟨orderly.closing, closing, ?_⟩
    intro earlier member _ _ close
    have open_ := unclosed earlier member
    simp [open_] at close

/-- A step that calls nothing. -/
theorem Settled.silent (settled : Settled llhttp state)
    (same : next.history.calls = state.history.calls)
    (final : state.disconnecting = true → next.disconnecting = true)
    (exhausted : next.disconnecting = true → next.Exhausted llhttp) : Settled llhttp next := by
  refine ⟨settled.orderly.of_same same, ?_, exhausted⟩
  rw [calls, same]
  exact fun call member close => final (settled.closed call member close)

/-- The end of a span; before it only the parser may have changed. -/
theorem Settled.finished (settled : Settled llhttp state) {parsed : HttpSession Parser}
    (finished : Finished parsed next) (io : parsed.io = state.io)
    (history : parsed.history = state.history) : Settled llhttp next := by
  refine settled.silent ?_ ?_ fun _ => exhausted_of_idle (by rw [finished.rest])
  · rw [finished.rest, history]
  · intro stops
    have calls := finished.io
    rw [io] at calls
    rw [disconnecting, calls.of_disconnecting stops]
    exact stops

/-- Calls made on a session that is not disconnecting. -/
theorem Settled.append (settled : Settled llhttp state) (runs : state.disconnecting = false)
    (first : CallRecord) (opened : List CallRecord) (prompt : first.late = false)
    (opens : ∀ record ∈ opened, record.call = .onOpen)
    (added : next.history.calls = state.history.calls ++ first :: opened)
    (closed : first.call.isClose = true → next.disconnecting = true)
    (exhausted : next.disconnecting = true → next.Exhausted llhttp) : Settled llhttp next := by
  have unclosed (call : Call) (member : call ∈ state.calls) : call.isClose = false := by
    by_contra close
    have stops := settled.closed call member (by simpa using close)
    simp [runs] at stops
  refine ⟨settled.orderly.append unclosed ?_ ?_ added, ?_, exhausted⟩
  · intro record member notOpen
    rcases List.mem_cons.mp member with rfl | later
    · exact prompt
    · exact absurd (opens record later) notOpen
  · rw [List.map_cons, List.pairwise_cons]
    have openCall (call : Call) (member : call ∈ opened.map CallRecord.call) :
        call = .onOpen := by
      obtain ⟨record, here, rfl⟩ := List.mem_map.mp member
      exact opens record here
    refine ⟨?_, ?_⟩
    · intro call member _
      rw [openCall call member]
      exact ⟨rfl, rfl⟩
    · refine List.pairwise_of_forall_mem_list ?_
      intro earlier member _ _ close
      rw [openCall earlier member] at close
      cases close
  · intro call member close
    rw [calls, added, List.map_append, List.mem_append, List.map_cons, List.mem_cons] at member
    rcases member with earlier | rfl | later
    · simp [unclosed call earlier] at close
    · exact closed close
    · obtain ⟨record, here, rfl⟩ := List.mem_map.mp later
      rw [opens record here] at close
      cases close

/-- A request is dispatched. -/
theorem Settled.request (settled : Settled llhttp state) (runs : state.disconnecting = false)
    {request : HttpRequest}
    (added : next.history.calls = (state.handleRequest env request).history.calls)
    (exhausted : next.disconnecting = true → next.Exhausted llhttp) : Settled llhttp next := by
  obtain ⟨opened, calls, opens⟩ := handleRequest_opened env request state
  refine settled.append runs ⟨.request request, state.disconnecting⟩ opened runs ?_ ?_
    (by simp [Call.isClose]) exhausted
  · intro record member
    have mapped := List.mem_map_of_mem (f := CallRecord.call) member
    rw [opens] at mapped
    exact List.eq_of_mem_replicate mapped
  · rw [added, calls, recordRequest, record, List.append_assoc]
    rfl

/-- A frame is delivered. -/
theorem Settled.frame (settled : Settled llhttp state) (runs : state.disconnecting = false)
    {wsParser : WsFrameParser} (made : Option WsFrameParser.Callback)
    (exhausted : ({ state with wsParser }.runMade env made).disconnecting = true →
      ({ state with wsParser }.runMade env made).Exhausted llhttp) :
    Settled llhttp ({ state with wsParser }.runMade env made) := by
  have final := (runMade_handled env { state with wsParser } made).disconnecting
  rcases made with _ | ⟨opcode, payload⟩ | _
  · exact settled.silent rfl final exhausted
  · rcases onFrame_cases env opcode payload { state with wsParser } with
      ⟨_, calls⟩ | ⟨call, _, calls, close⟩
    · exact settled.silent calls.calls_eq final exhausted
    · exact settled.append runs ⟨call, state.disconnecting⟩ [] runs (by simp) calls.calls_eq
        close exhausted
  · exact settled.silent rfl final exhausted

/-- A frame of which nothing is to be delivered, on a session that is disconnecting. -/
theorem Settled.exhaustedFrame (settled : Settled llhttp state) (ready : state.wsParser.Ready)
    (stops : state.disconnecting = true) {length : Nat} {buffered : Bool}
    {wsParser : WsFrameParser} {made : Option WsFrameParser.Callback}
    (at_ : state.control = .feedWs length buffered)
    (taken : state.wsParser.parseStep = some wsParser)
    (callbacks : wsParser.callbacks = state.wsParser.callbacks ++ made.toList) :
    Settled llhttp ({ state with wsParser }.runMade env made) := by
  have handled := runMade_handled env { state with wsParser } made
  have whole : state.wsParser.parseBuffer = wsParser.parseBuffer := Loop.run_of_some ready taken
  obtain ⟨later, parsed⟩ :=
    (ready.pass (WsFrameParser.parseStep_cases taken).2).callbacks_parseBuffer
  rw [← whole, callbacks, List.append_assoc] at parsed
  have nothing : ∀ callback ∈ made.toList ++ later, frameCall callback = none := by
    have exhausted := settled.exhausted stops
    rw [Exhausted, at_] at exhausted
    simpa [ExhaustedAt, ← parsed] using exhausted
  have rest : ({ state with wsParser }.runMade env made).Exhausted llhttp := by
    rw [handled.rest, Exhausted]
    change ExhaustedAt _ _ state.control
    rw [at_]
    intro callback member
    change callback ∈ wsParser.parseBuffer.callbacks.drop wsParser.callbacks.length at member
    rw [← whole, ← parsed, callbacks, ← List.append_assoc, List.drop_left] at member
    exact nothing callback (List.mem_append_right _ member)
  rcases made with _ | ⟨opcode, payload⟩ | _
  · exact settled.silent rfl handled.disconnecting fun _ => rest
  · have silent := nothing (.onFrame opcode payload) (by simp)
    rcases onFrame_cases env opcode payload { state with wsParser } with
      ⟨_, calls⟩ | ⟨call, delivered, _⟩
    · exact settled.silent calls.calls_eq handled.disconnecting fun _ => rest
    · simp [silent] at delivered
  · exact settled.silent rfl handled.disconnecting fun _ => rest

/-- What disconnects the session leaves nothing in its span to deliver. -/
theorem Turn.exhausted (turn : Turn env llhttp state next) (ready : state.wsParser.Ready)
    (last : DisconnectsLast env llhttp state .parse) (runs : state.disconnecting = false)
    (stops : next.disconnecting = true) : next.Exhausted llhttp := by
  have behind := last runs
  cases turn with
  | leave | incomplete | failed =>
    exact exhausted_of_idle (by rw [(finishHttp_finished env _ _ _ _).rest])
  | wsLeave => exact exhausted_of_idle (by rw [(finishWs_finished env _ _ _).rest])
  | @request length rest buffered consumed request parser at_ more running executed =>
    rw [at_] at behind
    have alone := behind running
    rw [executed] at alone
    cases kept : request.keepAlive with
    | true =>
      rcases alone kept stops with nothing | incomplete
      · exact .inl nothing
      · exact .inr (.inr incomplete)
    | false =>
      refine .inr (.inl ?_)
      simp [handleRequest, kept]
  | @frame length buffered wsParser made at_ taken callbacks =>
    have handled := runMade_handled env { state with wsParser } made
    have whole : state.wsParser.parseBuffer = wsParser.parseBuffer := Loop.run_of_some ready taken
    rw [at_] at behind
    rw [handled.rest, Exhausted]
    change ExhaustedAt _ _ state.control
    rw [at_]
    change ∀ callback ∈ wsParser.parseBuffer.callbacks.drop wsParser.callbacks.length, _
    rw [← whole]
    refine behind wsParser taken ?_
    rw [framesDisconnect, callbacks, List.drop_left]
    cases made with
    | none | some => exact stops

theorem Turn.settled (turn : Turn env llhttp state next) (settled : Settled llhttp state)
    (ready : state.wsParser.Ready)
    (last : state.disconnecting = false → next.disconnecting = true → next.Exhausted llhttp) :
    Settled llhttp next := by
  cases turn with
  | leave | incomplete | failed => exact settled.finished (finishHttp_finished env _ _ _ _) rfl rfl
  | @request length rest buffered consumed request parser at_ more running executed =>
    have runs : state.disconnecting = false := by
      by_contra stops
      have exhausted := settled.exhausted (by simpa using stops)
      rw [Exhausted, at_] at exhausted
      simp [ExhaustedAt, more, running, executed, Executed.isPaused] at exhausted
    exact settled.request runs rfl (last runs)
  | wsLeave => exact settled.finished (finishWs_finished env _ _ _) rfl rfl
  | @frame _ _ wsParser made at_ taken callbacks =>
    cases runs : state.disconnecting with
    | true => exact settled.exhaustedFrame ready runs at_ taken callbacks
    | false => exact settled.frame runs made (last runs)

/-- A span for which there is no room leaves nothing to parse. -/
theorem onRecv_exhausted (data : Text) (idle : state.control = .idle)
    (runs : state.disconnecting = false) (stops : (state.onRecv env data).disconnecting = true) :
    (state.onRecv env data).Exhausted llhttp := by
  have running {other : HttpSession Parser} (same : other.io = state.io)
      (stops : other.disconnecting = true) : False := by
    rw [disconnecting, same] at stops
    exact absurd (runs.symm.trans stops) (by simp)
  unfold onRecv handleHttpRecv handleWsRecv at stops ⊢
  split at stops
  · split_ifs at stops ⊢
    · exact (running rfl stops).elim
    · cases room : state.recvBuf.append data with
      | none => exact exhausted_of_idle idle
      | some recvBuf =>
        rw [room] at stops
        exact (running rfl stops).elim
  · have fed (data : Text) (buffered : Bool) (other : HttpSession Parser) :
        (other.feedWs data buffered).io = other.io := by
      unfold feedWs
      split_ifs <;> rfl
    split_ifs at stops ⊢
    · exact (running (fed _ _ _) stops).elim
    · cases room : state.recvBuf.append data with
      | none => exact exhausted_of_idle idle
      | some recvBuf =>
        rw [room] at stops
        exact (running (fed _ _ { state with recvBuf }) stops).elim

/-- Every step that disconnects last keeps it. -/
theorem Moves.settled {action : WebAction} (moves : Moves env llhttp state action next)
    (settled : Settled llhttp state) (ready : state.wsParser.Ready)
    (last : DisconnectsLast env llhttp state action) : Settled llhttp next := by
  cases moves with
  | dropped idle _ _ completed =>
    exact settled.silent rfl (disconnecting_step completed) fun _ => exhausted_of_idle idle
  | @entered _ data _ io idle runs _ _ still =>
    have entered := onRecv_entered env data (state.takeIn io data)
    refine settled.silent (by rw [entered.rest]; rfl) (fun stops => ?_) ?_
    · simp [runs] at stops
    · exact onRecv_exhausted data idle still
  | turn turn => exact turn.settled settled ready (turn.exhausted ready last)
  | @answer request built idle =>
    cases built with
    | none => exact settled.silent rfl id fun _ => exhausted_of_idle idle
    | some buf =>
      have handled := handResponse_handled env request buf
        { state with history.deferred := state.history.deferred.erase request }
      exact settled.silent rfl handled.disconnecting fun _ => exhausted_of_idle idle
  | io idle _ moved =>
    exact settled.silent rfl (disconnecting_step moved) fun _ => exhausted_of_idle idle

theorem reachable_settled
    (reachable : (system env llhttp).Reachable (DisconnectsLast env llhttp) state) :
    Grounded state ∧ Settled llhttp state := by
  refine reachable_invariant (Settled llhttp) ?_ ?_ reachable
  · intro onConnected onDisconnect
    exact ⟨⟨nofun, .nil⟩, nofun, nofun⟩
  · intro _ _ _ grounded settled last transition
    exact (step_cases transition).settled settled grounded.ready last

/-- In the runs in which whatever disconnects the session is the last thing its span
completes, no call comes after `Disconnect`. -/
theorem httpSession_calls_orderly
    (reachable : (system env llhttp).Reachable (DisconnectsLast env llhttp) state) :
    state.Orderly :=
  (reachable_settled reachable).2.orderly

section Runs

/-- The upgrade of a new session. -/
def upgradeActions : List WebAction :=
  [.io (.callbackReturned {}), .recv {} upgradeBytes 3, .parse, .parse,
    .io (.callbackReturned {})]

/-- A text frame before the close frame in one span is delivered in time. -/
theorem httpSession_calls_orderly_text_close :
    ∃ state : HttpSession Text,
      (system upgrading headParser).Reachable (DisconnectsLast upgrading headParser) state ∧
      state.calls.drop 2 = [.onMessage [0x68] true, .onClose 1000 []] ∧
      state.disconnecting = true ∧ state.Orderly := by
  have run : ((system upgrading headParser).execute (DisconnectsLast upgrading headParser)
      (start headParser false false)
      (upgradeActions ++ [.recv {} [0x81, 0x01, 0x68, 0x88, 0x00] 3, .parse, .parse, .parse,
        .parse])).map (fun state => (state.calls.drop 2, state.disconnecting)) =
      some ([.onMessage [0x68] true, .onClose 1000 []], true) := by decide +kernel
  obtain ⟨state, executed, results⟩ := Option.map_eq_some_iff.mp run
  have reachable := TransitionSystem.Reachable.execute (.initial (start_initial _ _)) executed
  exact ⟨state, reachable, congrArg Prod.fst results, congrArg Prod.snd results,
    httpSession_calls_orderly reachable⟩

/-- A text frame after the close frame in one span is delivered after `Disconnect`. -/
theorem httpSession_message_after_close :
    ∃ state : HttpSession Text, (system upgrading headParser).Reachable everyStep state ∧
      state.history.calls.drop 2 =
        [⟨.onClose 1000 [], false⟩, ⟨.onMessage [0x68] true, true⟩] ∧ ¬ state.Orderly := by
  have run : ((system upgrading headParser).execute everyStep (start headParser false false)
      (upgradeActions ++ [.recv {} [0x88, 0x00, 0x81, 0x01, 0x68] 3, .parse, .parse,
        .parse])).map (fun state => state.history.calls.drop 2) =
      some [⟨.onClose 1000 [], false⟩, ⟨.onMessage [0x68] true, true⟩] := by decide +kernel
  obtain ⟨state, executed, calls⟩ := Option.map_eq_some_iff.mp run
  have reachable := TransitionSystem.Reachable.execute (.initial (start_initial _ _)) executed
  refine ⟨state, reachable, calls, fun orderly => ?_⟩
  have late : ⟨.onMessage [0x68] true, true⟩ ∈ state.history.calls.drop 2 := by
    rw [calls]
    exact .tail _ (.head _)
  have prompt := orderly.prompt _ (List.mem_of_mem_drop late) (by simp)
  cases prompt

end Runs

end HttpSession

end UringServer.Web
