import UringServer.Web.UpstreamObject

/-!
# How long an `UpstreamSession` lives

Nothing counts the operations of an `UpstreamSession`. Its own handlers call
`Close` when none is in flight, so a session of `UpstreamPool::Forward` outlives
its operations. A close frame of the client closes it at any time.
-/

namespace UringServer.Web

open UringServer.Semantics

namespace UpstreamObject

variable {state next : UpstreamObject} {action : ObjectAction}

/-- A handler submits one operation, or calls a callback and closes. -/
inductive Handled (state : UpstreamObject) : UpstreamObject → Prop where
  | submitted (op : UpstreamOp) (buffer : Text) :
      Handled state { state with recvBuffer := buffer, inFlight := state.inFlight ++ [op] }
  | finished (call : UpstreamCall) (buffer : Text) :
      Handled state (finish call { state with recvBuffer := buffer })

theorem submit_handled (state : UpstreamObject) (op : UpstreamOp) (sqe : Bool)
    (full buffer : Text) :
    Handled state (submit op sqe full { state with recvBuffer := buffer }) := by
  cases sqe with
  | false => exact .finished _ buffer
  | true => exact .submitted op buffer

theorem handle_handled (state : UpstreamObject) (action : UpstreamAction) :
    Handled state (state.handle action) := by
  cases action with
  | connected failure allocated sqe =>
    cases failure with
    | some reason => exact .finished _ state.recvBuffer
    | none =>
      cases allocated with
      | false => exact .finished _ state.recvBuffer
      | true => exact submit_handled state _ _ _ state.recvBuffer
  | sent failure sqe =>
    cases failure with
    | some reason => exact .finished _ state.recvBuffer
    | none => exact submit_handled state _ _ _ state.recvBuffer
  | received data sqe =>
    change Handled state (state.onRecv data sqe)
    unfold onRecv
    dsimp only
    split
    · exact .finished _ _
    · exact submit_handled state _ _ _ _
  | closedByUpstream => exact .finished _ state.recvBuffer
  | recvFailed reason => exact .finished _ state.recvBuffer

/-- What holds of a session in every run. -/
structure Sound (state : UpstreamObject) : Prop where
  /-- The object exists as long as it is held. -/
  alive : state.alive = state.held
  /-- The operations follow one another. -/
  one : state.inFlight.length ≤ 1
  /-- Only a client closes the session while an operation is in flight. -/
  closedByClient : state.selfRef = false → state.inFlight ≠ [] →
    state.driver = .wsProxy ∧ state.upstream = false
  /-- An object that exists has not been destroyed. -/
  whole : state.alive = true → state.orphaned = false

theorem settle_of_held (held : state.held = true) : state.settle = state := by
  simp [settle, held]

theorem settle_of_not_alive (state : UpstreamObject) (gone : state.alive = false) :
    state.settle = state := by
  simp [settle, gone]

theorem settle_of_dropped (alive : state.alive = true) (dropped : state.held = false) :
    state.settle = { state with alive := false, orphaned := state.inFlight ≠ [] } := by
  simp [settle, alive, dropped]

/-- Destroying the object keeps what holds of its other members. -/
theorem Sound.settle (one : state.inFlight.length ≤ 1)
    (closedByClient : state.selfRef = false → state.inFlight ≠ [] →
      state.driver = .wsProxy ∧ state.upstream = false)
    (whole : state.alive = true → state.orphaned = false)
    (isAlive : state.held = true → state.alive = true) : Sound state.settle := by
  cases held : state.held with
  | true =>
    rw [settle_of_held held]
    exact ⟨(isAlive held).trans held.symm, one, closedByClient, whole⟩
  | false =>
    cases alive : state.alive with
    | true =>
      rw [settle_of_dropped alive held]
      exact ⟨held.symm, one, closedByClient, nofun⟩
    | false =>
      rw [settle_of_not_alive _ alive]
      exact ⟨alive.trans held.symm, one, closedByClient, whole⟩

theorem opened_sound (driver : UpstreamDriver) (key : Text) (outcome : ConnectOutcome) :
    Sound (opened driver key outcome) := by
  cases outcome with
  | unresolved | noSocket | ringFull =>
    exact .settle (Nat.zero_le 1) (fun _ clash => absurd rfl clash) (fun _ => rfl) fun _ => rfl
  | submitted => exact .settle (Nat.le_refl 1) nofun (fun _ => rfl) fun _ => rfl

/-- What a handler leaves as it is. -/
structure Handled.Keeps (state next : UpstreamObject) : Prop where
  batch : next.batch = state.batch
  alive : next.alive = state.alive
  orphaned : next.orphaned = state.orphaned

theorem Handled.keeps (handled : Handled state next) : Handled.Keeps state next := by
  cases handled with
  | submitted => exact ⟨rfl, rfl, rfl⟩
  | finished call buffer =>
    unfold finish invoke
    split <;> exact ⟨rfl, rfl, rfl⟩

/-- A completion is handled when nothing else is in flight, in a batch that holds the session. -/
theorem complete_eq {completion : UpstreamAction} (one : state.inFlight.length ≤ 1)
    (transition : state.step (.complete completion) = some next) :
    state.alive = true ∧ state.inFlight = [completion.op] ∧
      next = handle { state with inFlight := [], batch := true } completion ∧
      next.held = true := by
  rw [step] at transition
  split_ifs at transition with enabled
  obtain ⟨alive, inFlight⟩ := enabled
  have only : state.inFlight = [completion.op] := by
    obtain ⟨op, isOp⟩ := List.length_eq_one_iff.mp
      (Nat.le_antisymm one (List.length_pos_of_mem inFlight))
    rw [isOp] at inFlight ⊢
    rw [List.mem_singleton.mp inFlight]
  have rest : state.inFlight.erase completion.op = [] := by simp [only]
  rw [rest] at transition
  have handled := handle_handled { state with inFlight := [], batch := true } completion
  have held : (handle { state with inFlight := [], batch := true } completion).held = true := by
    unfold held
    simp [handled.keeps.batch]
  rw [settle_of_held held, Option.some.injEq] at transition
  exact ⟨alive, only, transition.symm, transition ▸ held⟩

theorem complete_handled {completion : UpstreamAction} (one : state.inFlight.length ≤ 1)
    (transition : state.step (.complete completion) = some next) :
    state.alive = true ∧ state.inFlight ≠ [] ∧
      Handled { state with inFlight := [], batch := true } next ∧ next.held = true := by
  obtain ⟨alive, only, isNext, held⟩ := complete_eq one transition
  refine ⟨alive, by rw [only]; nofun, ?_, held⟩
  rw [isNext]
  exact handle_handled _ completion

/-- A step keeps what holds of a session. -/
theorem Sound.step (sound : Sound state) (transition : state.step action = some next) :
    Sound next := by
  cases action with
  | complete completion =>
    obtain ⟨alive, some, handled, held⟩ := complete_handled sound.one transition
    have stays : next.alive = true := handled.keeps.alive.trans alive
    have whole : next.orphaned = false := handled.keeps.orphaned.trans (sound.whole alive)
    refine ⟨stays.trans held.symm, ?_, ?_, fun _ => whole⟩
    · cases handled with
      | submitted => exact Nat.le_refl 1
      | finished call buffer =>
        unfold finish invoke
        split <;> exact Nat.zero_le 1
    · cases handled with
      | submitted => exact fun closed _ => sound.closedByClient closed some
      | finished call buffer =>
        unfold finish invoke
        split <;> exact fun _ clash => absurd rfl clash
  | endBatch =>
    rw [UpstreamObject.step] at transition
    split_ifs at transition with batch
    cases transition
    refine .settle sound.one sound.closedByClient sound.whole fun _ => ?_
    change state.alive = true
    rw [sound.alive, UpstreamObject.held, batch]
    simp
  | clientClose =>
    rw [UpstreamObject.step] at transition
    split_ifs at transition with isProxy upstream
    · cases transition
      refine .settle sound.one (fun _ _ => ⟨isProxy, rfl⟩) sound.whole fun _ => ?_
      change state.alive = true
      rw [sound.alive, UpstreamObject.held, upstream]
      simp
    · cases transition
      exact sound
  | handlerGone =>
    rw [UpstreamObject.step] at transition
    split_ifs at transition with isProxy
    cases transition
    refine .settle sound.one (fun _ _ => ⟨isProxy, rfl⟩) sound.whole fun held => ?_
    change state.alive = true
    rw [sound.alive]
    simp only [UpstreamObject.held, Bool.or_eq_true] at held ⊢
    tauto

theorem reachable_sound (reached : system.Reachable everyStep state) : Sound state := by
  refine reached.invariant Sound ?_ fun sound _ transition => sound.step transition
  rintro _ ⟨driver, key, outcome, rfl⟩
  exact opened_sound driver key outcome

/-- A close frame of the client is handled when nothing is in flight or a batch holds the
session, and a batch in which the session was closed ends when nothing is in flight. -/
def ClosesIdle (state : UpstreamObject) : ObjectAction → Prop
  | .clientClose => state.upstream = true → state.batch = true ∨ state.inFlight = []
  | .endBatch => state.selfRef = true ∨ state.inFlight = []
  | _ => True

instance (state : UpstreamObject) : (action : ObjectAction) → Decidable (ClosesIdle state action)
  | .clientClose => inferInstanceAs (Decidable (_ → _))
  | .endBatch => inferInstanceAs (Decidable (_ ∨ _))
  | .complete _ => .isTrue trivial
  | .handlerGone => .isTrue trivial

theorem opened_not_orphaned (driver : UpstreamDriver) (key : Text) (outcome : ConnectOutcome) :
    (opened driver key outcome).orphaned = false := by
  cases outcome <;> cases driver <;> rfl

/-- A session that is dropped is orphaned if an operation is in flight. -/
theorem settle_orphaned (state : UpstreamObject) (alive : state.alive = true)
    (whole : state.orphaned = false) :
    state.settle.orphaned = false ↔ state.held = true ∨ state.inFlight = [] := by
  cases held : state.held with
  | true =>
    rw [settle_of_held held]
    simp [whole]
  | false =>
    rw [settle_of_dropped alive held]
    simp

/-- A step orphans the session exactly if it is not admitted. -/
theorem step_orphaned (sound : Sound state) (transition : state.step action = some next) :
    next.orphaned = false ↔ state.orphaned = false ∧ ClosesIdle state action := by
  cases action with
  | complete completion =>
    obtain ⟨alive, -, handled, -⟩ := complete_handled sound.one transition
    rw [handled.keeps.orphaned]
    exact (and_iff_left trivial).symm
  | endBatch =>
    rw [step] at transition
    split_ifs at transition with batch
    cases transition
    have alive : state.alive = true := by
      rw [sound.alive, held, batch]
      simp
    refine (settle_orphaned state.leaveBatch alive (sound.whole alive)).trans ?_
    rw [and_iff_right (sound.whole alive)]
    change _ ↔ state.selfRef = true ∨ state.inFlight = []
    cases isSelf : state.selfRef with
    | true => simp [held, leaveBatch, isSelf]
    | false =>
      rcases List.eq_nil_or_concat state.inFlight with none | ⟨rest, last, some⟩
      · simp [leaveBatch, none]
      · obtain ⟨isProxy, noUpstream⟩ := sound.closedByClient isSelf (by rw [some]; simp)
        simp [held, leaveBatch, isSelf, isProxy, noUpstream]
  | clientClose =>
    rw [step] at transition
    split_ifs at transition with isProxy upstream
    · cases transition
      have alive : state.alive = true := by
        rw [sound.alive, held, upstream]
        simp
      refine (settle_orphaned state.close.dropUpstream alive (sound.whole alive)).trans ?_
      rw [and_iff_right (sound.whole alive)]
      change _ ↔ (state.upstream = true → state.batch = true ∨ state.inFlight = [])
      simp [held, close, dropUpstream, upstream]
    · cases transition
      exact (and_iff_left fun clash => absurd clash upstream).symm
  | handlerGone =>
    rw [step] at transition
    split_ifs at transition with isProxy
    cases transition
    rw [show ClosesIdle state .handlerGone = True from rfl, and_true]
    by_cases alive : state.alive = true
    · refine (settle_orphaned state.dropUpstream alive (sound.whole alive)).trans
        (iff_of_true ?_ (sound.whole alive))
      have held := sound.alive.symm.trans alive
      simp only [UpstreamObject.held, Bool.or_eq_true] at held
      by_cases dropped : state.upstream = true ∧ state.selfRef = false
      · refine .inr (not_not.mp fun some => ?_)
        exact absurd dropped.1 (by rw [(sound.closedByClient dropped.2 some).2]; nofun)
      · refine .inl ?_
        simp only [UpstreamObject.held, dropUpstream, Bool.or_eq_true]
        rw [not_and, Bool.not_eq_false] at dropped
        tauto
    · rw [Bool.not_eq_true] at alive
      rw [settle_of_not_alive state.dropUpstream alive]
      rfl

/-- A session outlives its operations exactly in the runs in which it is closed while it is
idle. -/
theorem upstream_outlives_iff (reached : system.Reachable everyStep state) :
    state.orphaned = false ↔ system.Reachable ClosesIdle state := by
  refine reached.iff_admitted (fun state => state.orphaned = false) ?_ ?_
  · rintro _ ⟨driver, key, outcome, rfl⟩
    exact opened_not_orphaned driver key outcome
  · exact fun prior transition => step_orphaned (reachable_sound prior) transition

/-- The WebSocket proxy has connected and sent the request when the upstream closes the
connection; then the client closes. -/
theorem upstream_outlives_iff_late_close :
    ∃ state, system.Reachable everyStep state ∧ state.alive = false ∧ state.orphaned = false ∧
      system.Reachable ClosesIdle state := by
  obtain ⟨state, executed, isGone⟩ : ∃ state, system.execute ClosesIdle
      (opened .wsProxy [] .submitted) [.complete (.connected none true true),
        .complete (.sent none true), .endBatch, .complete .closedByUpstream, .endBatch,
        .clientClose] = some state ∧ state.alive = false := ⟨_, rfl, rfl⟩
  have admitted : system.Reachable ClosesIdle state :=
    .execute (.initial ⟨_, _, _, rfl⟩) executed
  have reached : system.Reachable everyStep state := admitted.mono fun _ _ _ => trivial
  exact ⟨state, reached, isGone, (upstream_outlives_iff reached).mpr admitted, admitted⟩

/-- The client closes while the proxy connects to the upstream. -/
theorem upstream_dropped_in_flight :
    ∃ state, system.Reachable everyStep state ∧ state.alive = false ∧
      state.inFlight = [.connect] ∧ state.orphaned = true := by
  obtain ⟨state, executed, isGone⟩ : ∃ state, system.execute everyStep
      (opened .wsProxy [] .submitted) [.clientClose] = some state ∧ state.alive = false ∧
        state.inFlight = [.connect] ∧ state.orphaned = true := ⟨_, rfl, rfl, rfl, rfl⟩
  exact ⟨state, .execute (.initial ⟨_, _, _, rfl⟩) executed, isGone⟩

end UpstreamObject

end UringServer.Web
