import UringServer.Web.UpstreamLifetime

/-!
# `UpstreamPool`

`Forward` counts the requests that are under way: up before the connect, down at
the end of either of the two callbacks it hands to the session. The sessions of
different calls interleave in any way, also while a callback runs.
-/

namespace UringServer.Web

open UringServer.Semantics

/-- A call of `Forward`: its session, and how many of the callbacks that were called have
returned. -/
structure ForwardCall where
  session : UpstreamObject
  returned : Nat := 0
deriving DecidableEq

/-- The counter of an `UpstreamPool`, and the calls of `Forward` so far. -/
structure UpstreamPool where
  activeCount : Nat := 0
  forwards : List ForwardCall := []
deriving DecidableEq

/-- A call of `Forward`, something that happens to the session of one, and the end of one of its
callbacks. -/
inductive PoolAction where
  | forward (key : Text) (outcome : ConnectOutcome)
  | session (index : Nat) (action : ObjectAction)
  | callbackReturns (index : Nat)
deriving DecidableEq

/-- `--active_count_` of a `std::size_t`. -/
def decrement (count : Nat) : Nat := if count = 0 then 2 ^ 64 - 1 else count - 1

namespace UpstreamPool

/-- What happens to the pool. -/
def step (pool : UpstreamPool) : PoolAction → Option UpstreamPool
  | .forward key outcome =>
    some {
      activeCount := pool.activeCount + 1
      forwards := pool.forwards ++ [{ session := .opened .forward key outcome }] }
  | .session index action =>
    pool.forwards[index]?.bind fun call =>
      (call.session.step action).map fun session =>
        { pool with forwards := pool.forwards.set index { call with session } }
  | .callbackReturns index =>
    pool.forwards[index]?.bind fun call =>
      if call.returned < call.session.calls.length then
        some {
          activeCount := decrement pool.activeCount
          forwards := pool.forwards.set index { call with returned := call.returned + 1 } }
      else
        none

/-- The runs of a pool. -/
def system : TransitionSystem UpstreamPool PoolAction where
  Initial pool := pool = {}
  step := step

/-- The number of calls of `Forward` whose callback has not returned. -/
def unfinished (forwards : List ForwardCall) : Nat :=
  forwards.countP fun call => call.returned = 0

end UpstreamPool

namespace UpstreamObject

variable {state next : UpstreamObject} {action : ObjectAction}

@[simp] theorem settle_calls (state : UpstreamObject) : state.settle.calls = state.calls := by
  unfold settle
  split <;> rfl

@[simp] theorem settle_inFlight (state : UpstreamObject) :
    state.settle.inFlight = state.inFlight := by
  unfold settle
  split <;> rfl

@[simp] theorem settle_driver (state : UpstreamObject) : state.settle.driver = state.driver := by
  unfold settle
  split <;> rfl

/-- A session of `Forward` calls no callback while an operation is in flight, and one in all. -/
structure CallsOnce (state : UpstreamObject) : Prop where
  sound : Sound state
  driver : state.driver = .forward
  quiet : state.inFlight ≠ [] → state.calls = []
  once : state.calls.length ≤ 1

theorem opened_callsOnce (key : Text) (outcome : ConnectOutcome) :
    CallsOnce (opened .forward key outcome) := by
  refine ⟨opened_sound .forward key outcome, ?_, ?_, ?_⟩
  · rw [opened, settle_driver]
    cases outcome <;> rfl
  · rw [opened, settle_inFlight, settle_calls]
    cases outcome with
    | submitted => exact fun _ => rfl
    | _ => exact fun clash => absurd rfl clash
  · rw [opened, settle_calls]
    cases outcome with
    | submitted => exact Nat.zero_le 1
    | _ => exact Nat.le_refl 1

/-- No step calls back a second time. -/
theorem CallsOnce.step (callsOnce : CallsOnce state) (transition : state.step action = some next) :
    CallsOnce next := by
  have sound := callsOnce.sound.step transition
  cases action with
  | complete completion =>
    obtain ⟨-, some, handled, -⟩ := complete_handled callsOnce.sound.one transition
    have none := callsOnce.quiet some
    cases handled with
    | submitted => exact ⟨sound, callsOnce.driver, fun _ => none, callsOnce.once⟩
    | finished call buffer =>
      refine ⟨sound, ?_, ?_, ?_⟩
      · unfold finish invoke
        split <;> exact callsOnce.driver
      · unfold finish invoke
        split <;> exact fun clash => absurd rfl clash
      · unfold finish invoke
        split
        · change (state.calls ++ [call]).length ≤ 1
          rw [none]
          exact Nat.le_refl 1
        · exact callsOnce.once
  | endBatch =>
    rw [UpstreamObject.step] at transition
    split_ifs at transition
    cases transition
    refine ⟨sound, ?_, ?_, ?_⟩
    · rw [settle_driver]
      exact callsOnce.driver
    · rw [settle_inFlight, settle_calls]
      exact callsOnce.quiet
    · rw [settle_calls]
      exact callsOnce.once
  | clientClose | handlerGone =>
    rw [UpstreamObject.step, callsOnce.driver, if_neg (by decide)] at transition
    cases transition

end UpstreamObject

namespace UpstreamPool

variable {pool next : UpstreamPool} {action : PoolAction}

/-- The counter is exact, and every session calls at most one callback. -/
structure Exact (pool : UpstreamPool) : Prop where
  sessions : ∀ call ∈ pool.forwards, call.session.CallsOnce
  counted : pool.activeCount = unfinished pool.forwards

/-- The count after a call has been replaced. -/
theorem unfinished_set {forwards : List ForwardCall} {index : Nat} {call : ForwardCall}
    (other : ForwardCall) (here : forwards[index]? = some call) :
    unfinished (forwards.set index other) + (if call.returned = 0 then 1 else 0) =
      unfinished forwards + if other.returned = 0 then 1 else 0 := by
  obtain ⟨inside, isCall⟩ := List.getElem?_eq_some_iff.mp here
  unfold unfinished
  rw [List.countP_set inside, isCall]
  have bound : (if call.returned = 0 then 1 else 0) ≤
      forwards.countP fun call => call.returned = 0 := by
    split
    case isTrue unanswered =>
      exact List.countP_pos_iff.mpr ⟨call, List.mem_of_getElem? here, by simpa using unanswered⟩
    case isFalse => exact Nat.zero_le _
  simp only [decide_eq_true_eq]
  omega

/-- Every step keeps the count exact. -/
theorem Exact.step (exactly : Exact pool) (transition : pool.step action = some next) :
    Exact next := by
  cases action with
  | forward key outcome =>
    cases transition
    refine ⟨fun call member => ?_, ?_⟩
    · rcases List.mem_append.mp member with earlier | last
      · exact exactly.sessions call earlier
      · rw [List.mem_singleton.mp last]
        exact UpstreamObject.opened_callsOnce key outcome
    · simp [unfinished, exactly.counted]
  | session index action =>
    obtain ⟨call, here, found⟩ := Option.bind_eq_some_iff.mp transition
    obtain ⟨session, moved, rfl⟩ := Option.map_eq_some_iff.mp found
    have before := exactly.sessions call (List.mem_of_getElem? here)
    refine ⟨fun other member => ?_, ?_⟩
    · rcases List.mem_or_eq_of_mem_set member with earlier | rfl
      · exact exactly.sessions other earlier
      · exact before.step moved
    · have same := unfinished_set { call with session } here
      simp only [Nat.add_right_cancel_iff] at same
      rw [same]
      exact exactly.counted
  | callbackReturns index =>
    obtain ⟨call, here, found⟩ := Option.bind_eq_some_iff.mp transition
    split_ifs at found with pending
    cases found
    have before := exactly.sessions call (List.mem_of_getElem? here)
    have first : call.returned = 0 := by
      have once := before.once
      omega
    refine ⟨fun other member => ?_, ?_⟩
    · rcases List.mem_or_eq_of_mem_set member with earlier | rfl
      · exact exactly.sessions other earlier
      · exact before
    · have fewer := unfinished_set { call with returned := call.returned + 1 } here
      rw [if_pos first, if_neg (Nat.succ_ne_zero _)] at fewer
      dsimp only
      rw [exactly.counted, decrement]
      split <;> omega

/-- For each call of `Forward` at most one callback is called, and `ActiveCount()` is the number
of calls whose callback has not returned. -/
theorem upstreamPool_counts_exactly (reached : system.Reachable everyStep pool) :
    (∀ call ∈ pool.forwards, call.session.calls.length ≤ 1) ∧
      pool.activeCount = unfinished pool.forwards := by
  have exactly : Exact pool := by
    refine reached.invariant Exact ?_ fun exactly _ transition => exactly.step transition
    rintro _ rfl
    exact ⟨nofun, rfl⟩
  exact ⟨fun call member => (exactly.sessions call member).once, exactly.counted⟩

/-- Two requests: the connect of the second one cannot be submitted while the first one waits
for its answer, which is malformed. -/
theorem upstreamPool_counts_exactly_two :
    ∃ pool, system.Reachable everyStep pool ∧ pool.forwards.length = 2 ∧ pool.activeCount = 1 ∧
      pool.activeCount = unfinished pool.forwards := by
  obtain ⟨pool, executed, two, one⟩ : ∃ pool, system.execute everyStep {}
      [.forward [] .submitted, .session 0 (.complete (.connected none true true)),
        .forward [] .ringFull, .session 0 (.complete (.sent none true)),
        .callbackReturns 1, .session 0 (.complete .closedByUpstream)] = some pool ∧
        pool.forwards.length = 2 ∧ pool.activeCount = 1 := ⟨_, rfl, rfl, rfl⟩
  have reached : system.Reachable everyStep pool := .execute (.initial rfl) executed
  exact ⟨pool, reached, two, one, (upstreamPool_counts_exactly reached).2⟩

end UpstreamPool

end UringServer.Web
