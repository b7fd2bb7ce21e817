import Mathlib.Logic.Relation
import UringServer.Web.HttpStep

/-!
# What the application does to an `HttpSession`

Handlers reach the session through `Send` and `Disconnect` only. `SessionCalls`
says so: such calls change the `Session` below and the counters of ring and
pool, and leave everything else as it was. Each function of `HttpSession` that
runs application code is a bookkeeping step followed by session calls.
-/

namespace UringServer.Web

open UringServer.Io UringServer.Semantics

/-- One call of `Send` or `Disconnect`. -/
inductive IoCall (before : Io.State) : Io.State → Prop where
  | send (sqes : Sqes) (buf : SendBuffer) : IoCall before (before.send sqes buf).2
  | disconnect (sqes : Sqes) : IoCall before (before.disconnect sqes)

theorem IoCall.step {before after : Io.State} (call : IoCall before after) :
    ∃ action, Io.system.step before action = some after := by
  cases call with
  | send sqes buf => exact ⟨.send sqes buf, rfl⟩
  | disconnect sqes => exact ⟨.disconnect sqes, rfl⟩

/-- Some calls of `Send` and `Disconnect`. -/
def IoCalls : Io.State → Io.State → Prop := Relation.ReflTransGen IoCall

theorem IoCalls.reachable {before after : Io.State} (calls : IoCalls before after)
    (reachable : Io.system.Reachable everyStep before) :
    Io.system.Reachable everyStep after := by
  induction calls with
  | refl => exact reachable
  | tail _ call ih =>
    obtain ⟨action, transition⟩ := call.step
    exact .step ih trivial transition

/-- A session that is disconnecting takes no calls. -/
theorem IoCalls.of_disconnecting {before after : Io.State} (calls : IoCalls before after)
    (stops : before.session.disconnecting = true) : after = before := by
  induction calls with
  | refl => rfl
  | tail _ call ih =>
    subst ih
    cases call with
    | send sqes buf => rw [State.send_disconnecting stops]
    | disconnect sqes => exact State.disconnect_again stops

/-- Only `Session` and the counters of its uses of ring and pool have changed. -/
structure SessionCalls {Parser : Type} (before after : HttpSession Parser) : Prop where
  io : IoCalls before.io after.io
  rest : after = { before with
    io := after.io
    history.operations := after.history.operations
    history.allocations := after.history.allocations }

namespace SessionCalls

variable {Parser : Type} {first second third : HttpSession Parser}

theorem refl (state : HttpSession Parser) : SessionCalls state state :=
  ⟨Relation.ReflTransGen.refl, rfl⟩

theorem trans (calls : SessionCalls first second) (more : SessionCalls second third) :
    SessionCalls first third := by
  refine ⟨calls.io.trans more.io, ?_⟩
  rw [more.rest, calls.rest]

theorem calls_eq (calls : SessionCalls first second) :
    second.history.calls = first.history.calls := by rw [calls.rest]

theorem mode (calls : SessionCalls first second) : second.mode = first.mode := by
  rw [calls.rest]

theorem disconnecting (calls : SessionCalls first second) (stops : first.disconnecting = true) :
    second.disconnecting = true := by
  unfold HttpSession.disconnecting
  rw [calls.io.of_disconnecting stops]
  exact stops

end SessionCalls

namespace HttpSession

variable {Parser : Type} (env : Environment) (state : HttpSession Parser)

theorem send_calls (buf : Text) : SessionCalls state (state.send env buf) :=
  ⟨.single (.send _ _), rfl⟩

theorem disconnect_calls : SessionCalls state (state.disconnect env) :=
  ⟨.single (.disconnect _), rfl⟩

theorem disconnect_disconnecting : (state.disconnect env).disconnecting = true :=
  Io.disconnect_disconnecting _ _

theorem recordAllocation_calls : SessionCalls state state.recordAllocation :=
  ⟨.refl, rfl⟩

theorem sendBuilt_calls (build : Allocate → Option Text) :
    SessionCalls state (state.sendBuilt env build) := by
  unfold sendBuilt
  cases build (env.allocate state.history.allocations) with
  | none => exact state.recordAllocation_calls
  | some buf => exact state.recordAllocation_calls.trans (send_calls env _ buf)

theorem runOps_calls (ops : List SessionOp) :
    SessionCalls state (ops.foldl (runOp env) state) := by
  induction ops generalizing state with
  | nil => exact .refl state
  | cons op rest ih =>
    refine .trans ?_ (ih (state.runOp env op))
    cases op with
    | send buf => exact send_calls env state buf
    | disconnect => exact disconnect_calls env state

theorem callHandler_calls (call : Call) :
    SessionCalls (state.record call) (state.callHandler env call) :=
  runOps_calls env _ _

end HttpSession

/-- What handling a request leaves alone: the parsers, the buffer and the received bytes. -/
structure Handled {Parser : Type} (before after : HttpSession Parser) : Prop where
  io : IoCalls before.io after.io
  rest : after = { before with
    io := after.io
    mode := after.mode
    history := { after.history with received := before.history.received } }

namespace Handled

variable {Parser : Type} {first second third : HttpSession Parser}

theorem refl (state : HttpSession Parser) : Handled state state :=
  ⟨Relation.ReflTransGen.refl, rfl⟩

theorem trans (handled : Handled first second) (more : Handled second third) :
    Handled first third := by
  refine ⟨handled.io.trans more.io, ?_⟩
  rw [more.rest, handled.rest]

theorem of_calls (calls : SessionCalls first second) : Handled first second := by
  refine ⟨calls.io, ?_⟩
  rw [calls.rest]

theorem disconnecting (handled : Handled first second) (stops : first.disconnecting = true) :
    second.disconnecting = true := by
  unfold HttpSession.disconnecting
  rw [handled.io.of_disconnecting stops]
  exact stops

end Handled

namespace HttpSession

variable {Parser : Type} (env : Environment)

theorem handResponse_handled (request : Nat) (buf : Text) (state : HttpSession Parser) :
    Handled state (state.handResponse env request buf) :=
  ⟨(send_calls env state buf).io, rfl⟩

theorem callHandler_handled (call : Call) (state : HttpSession Parser) :
    Handled state (state.callHandler env call) :=
  have recorded : Handled state (state.record call) := ⟨.refl, rfl⟩
  recorded.trans (.of_calls (callHandler_calls env state call))

theorem upgradeToWebSocket_handled (state : HttpSession Parser) :
    Handled state (state.upgradeToWebSocket env) :=
  have switched : Handled state { state with mode := .webSocket } := ⟨.refl, rfl⟩
  switched.trans (callHandler_handled env .onOpen _)

theorem Handling.send_handled (request : Nat) (handling : Handling Parser) :
    Handled handling.session (handling.send env request).session := by
  unfold Handling.send
  split
  · exact .refl _
  · refine .trans (.of_calls handling.session.recordAllocation_calls) ?_
    dsimp only
    cases handling.response.build (env.allocate handling.session.history.allocations) env.date with
    | none => exact .refl _
    | some buf => exact handResponse_handled env request buf _

theorem Handling.runOp_handled (request : Nat) (handling : Handling Parser) (op : RequestOp) :
    Handled handling.session (handling.runOp env request op).session := by
  cases op with
  | set response | markSent => exact .refl _
  | respond => exact handling.send_handled env request
  | handOver buf =>
    cases buf with
    | none => exact ⟨.refl, rfl⟩
    | some buf => exact handResponse_handled env request buf _
  | defer => exact ⟨.refl, rfl⟩
  | upgrade => exact upgradeToWebSocket_handled env _
  | session op => exact .of_calls (runOps_calls env _ [op])

theorem Handling.runOps_handled (request : Nat) (ops : List RequestOp)
    (handling : Handling Parser) :
    Handled handling.session (ops.foldl (Handling.runOp env request) handling).session := by
  induction ops generalizing handling with
  | nil => exact .refl _
  | cons op rest ih =>
    exact (handling.runOp_handled env request op).trans (ih _)

theorem dispatch_handled (request : HttpRequest) (state : HttpSession Parser) :
    Handled state (state.dispatch env request).session :=
  have recorded : Handled state (state.recordRequest request) := ⟨.refl, rfl⟩
  recorded.trans (Handling.runOps_handled env _ _ { response := _, session := _ })

theorem handResponse_callRecords (request : Nat) (buf : Text) (state : HttpSession Parser) :
    (state.handResponse env request buf).history.calls = state.history.calls := rfl

theorem Handling.send_callRecords (request : Nat) (handling : Handling Parser) :
    (handling.send env request).session.history.calls = handling.session.history.calls := by
  unfold Handling.send
  split
  · rfl
  · dsimp only
    cases handling.response.build (env.allocate handling.session.history.allocations) env.date with
    | none => rfl
    | some buf => rfl

/-- All calls that `after` has more are those of `count` upgrades. -/
def OpenedBy (count : Nat) (before after : HttpSession Parser) : Prop :=
  ∃ opened : List CallRecord, after.history.calls = before.history.calls ++ opened ∧
    opened.map CallRecord.call = List.replicate count .onOpen

theorem OpenedBy.none {before after : HttpSession Parser}
    (same : after.history.calls = before.history.calls) : OpenedBy 0 before after :=
  ⟨[], by simp [same], rfl⟩

theorem OpenedBy.trans {first second third : HttpSession Parser} {count more : Nat}
    (opened : OpenedBy count first second) (later : OpenedBy more second third) :
    OpenedBy (count + more) first third := by
  obtain ⟨records, calls, opens⟩ := opened
  obtain ⟨others, otherCalls, otherOpens⟩ := later
  refine ⟨records ++ others, by rw [otherCalls, calls, List.append_assoc], ?_⟩
  rw [List.map_append, opens, otherOpens, List.replicate_append_replicate]

/-- A handler makes no call but the `OnOpen` of an upgrade. -/
theorem Handling.runOp_opened (request : Nat) (handling : Handling Parser) (op : RequestOp) :
    OpenedBy ([op].count .upgrade) handling.session (handling.runOp env request op).session := by
  cases op with
  | set response | markSent | defer => exact .none rfl
  | respond => exact .none (handling.send_callRecords env request)
  | handOver buf =>
    cases buf with
    | none => exact .none rfl
    | some buf => exact .none (handResponse_callRecords env request buf _)
  | upgrade =>
    refine ⟨[⟨.onOpen, handling.session.disconnecting⟩], ?_, rfl⟩
    exact (callHandler_calls env { handling.session with mode := .webSocket } .onOpen).calls_eq
  | session op => exact .none (runOps_calls env _ [op]).calls_eq

theorem Handling.runOps_opened (request : Nat) (ops : List RequestOp)
    (handling : Handling Parser) : OpenedBy (ops.count .upgrade) handling.session
      (ops.foldl (Handling.runOp env request) handling).session := by
  induction ops generalizing handling with
  | nil => exact .none rfl
  | cons op rest ih =>
    have counted : (op :: rest).count .upgrade = [op].count .upgrade + rest.count .upgrade := by
      rw [← List.singleton_append, List.count_append]
    rw [counted]
    exact (handling.runOp_opened env request op).trans (ih _)

theorem Handling.send_mode (request : Nat) (handling : Handling Parser) :
    (handling.send env request).session.mode = handling.session.mode := by
  unfold Handling.send
  split
  · rfl
  · dsimp only
    cases handling.response.build (env.allocate handling.session.history.allocations) env.date with
    | none => rfl
    | some buf => rfl

theorem Handling.runOp_mode (request : Nat) (handling : Handling Parser) (op : RequestOp)
    (upgrades : op = .upgrade ∨ handling.session.mode = .webSocket) :
    (handling.runOp env request op).session.mode = .webSocket := by
  cases op with
  | upgrade => exact (callHandler_calls env { handling.session with mode := .webSocket } _).mode
  | respond =>
    rw [Handling.runOp, Handling.send_mode]
    exact upgrades.resolve_left (by simp)
  | session op => exact (runOps_calls env _ [op]).mode.trans (upgrades.resolve_left (by simp))
  | handOver buf => cases buf <;> exact upgrades.resolve_left (by simp)
  | set response | markSent | defer => exact upgrades.resolve_left (by simp)

/-- A handler that upgrades leaves the session in WebSocket mode. -/
theorem Handling.runOps_mode (request : Nat) (ops : List RequestOp) (handling : Handling Parser)
    (upgrades : .upgrade ∈ ops ∨ handling.session.mode = .webSocket) :
    (ops.foldl (Handling.runOp env request) handling).session.mode = .webSocket := by
  induction ops generalizing handling with
  | nil => exact upgrades.resolve_left (by simp)
  | cons op rest ih =>
    apply ih
    rcases upgrades with member | already
    · rcases List.mem_cons.mp member with first | later
      · exact .inr (handling.runOp_mode env request op (.inl first.symm))
      · exact .inl later
    · exact .inr (handling.runOp_mode env request op (.inr already))

/-- What `HandleRequest` does before it looks at `keep_alive`. -/
def answered (request : HttpRequest) (state : HttpSession Parser) : HttpSession Parser :=
  ((state.dispatch env request).send env state.history.dispatched).session

theorem handleRequest_keepAlive {request : HttpRequest} (keepAlive : request.keepAlive = true)
    (state : HttpSession Parser) :
    state.handleRequest env request = state.answered env request := if_pos keepAlive

theorem handleRequest_close {request : HttpRequest} (close : request.keepAlive = false)
    (state : HttpSession Parser) : state.handleRequest env request =
      { (state.answered env request).disconnect env with parserError := true } :=
  if_neg (by simp [close])

/-- Handling a request calls the handler of the request, and `OnOpen` for each upgrade. -/
theorem answered_opened (request : HttpRequest) (state : HttpSession Parser) :
    OpenedBy ((env.onRequest state.calls request).count .upgrade)
      (state.recordRequest request) (state.answered env request) :=
  (Handling.runOps_opened env _ _ { response := _, session := _ }).trans
    (.none (Handling.send_callRecords env _ _))

theorem answered_mode (request : HttpRequest) (state : HttpSession Parser)
    (upgrades : .upgrade ∈ env.onRequest state.calls request) :
    (state.answered env request).mode = .webSocket := by
  rw [answered, Handling.send_mode]
  exact Handling.runOps_mode env _ _ _ (.inl upgrades)

theorem answered_handled (request : HttpRequest) (state : HttpSession Parser) :
    Handled state (state.answered env request) :=
  (dispatch_handled env request state).trans (Handling.send_handled env _ _)

end HttpSession

end UringServer.Web
