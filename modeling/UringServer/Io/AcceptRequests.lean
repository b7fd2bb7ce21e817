import UringServer.Io.Listener

/-!
# A listener over a run

Every accepted descriptor is handled once, and there is one accept request until
registering one fails.
-/

namespace UringServer.Io

open UringServer.Semantics

variable {config : ListenerConfig} {state next : ListenerState} {action : ListenerAction}

/-! ## Descriptors -/

/-- Every accepted descriptor waits, was closed or was given to a session, once. -/
def HandledOnce (state : ListenerState) : Prop :=
  (state.waiting ++ (state.closed ++ state.served)).Perm (List.range state.accepted)

theorem HandledOnce.register (once : HandledOnce state) (entry : Bool) :
    HandledOnce (state.register entry) := by
  cases entry <;> exact once

theorem HandledOnce.reRegister (once : HandledOnce state) (entry : Bool) :
    HandledOnce (state.reRegister entry) := by
  unfold ListenerState.reRegister
  split
  · exact once.register entry
  · exact once

theorem HandledOnce.client {handled : ListenerState} {client count : Nat}
    (once : (client :: state.waiting ++ (state.closed ++ state.served)).Perm
      (List.range state.accepted)) (effect : ClientEffect config state client count handled) :
    HandledOnce handled := by
  cases effect with
  | close =>
    refine List.Perm.trans ?_ once
    change (state.waiting ++ (state.closed ++ [client] ++ state.served)).Perm _
    rw [List.append_assoc, List.singleton_append]
    exact (List.perm_middle.append_left state.waiting).trans List.perm_middle
  | serve =>
    refine List.Perm.trans ?_ once
    change (state.waiting ++ (state.closed ++ (state.served ++ [client]))).Perm _
    rw [← List.append_assoc, ← List.append_assoc, List.append_assoc state.waiting]
    exact List.perm_append_singleton client _

/-- No step loses or repeats a descriptor. -/
theorem HandledOnce.step (once : HandledOnce state)
    (effect : ListenerEffect config state action next) : HandledOnce next := by
  cases effect with
  | start entry =>
    refine HandledOnce.register ?_ entry
    exact once
  | unbound | stop | endSession => exact once
  | accept more =>
    have waiting :
        (state.completions ++ [AcceptCompletion.accepted state.accepted more]).filterMap
          AcceptCompletion.client? = state.waiting ++ [state.accepted] := by
      rw [List.filterMap_append]
      rfl
    change (List.filterMap AcceptCompletion.client? _ ++ (state.closed ++ state.served)).Perm
      (List.range (state.accepted + 1))
    rw [waiting, List.range_succ, List.append_assoc]
    refine (List.perm_append_comm.append_left _).trans ?_
    rw [← List.append_assoc]
    exact once.append_right [state.accepted]
  | fail =>
    have waiting : (state.completions ++ [AcceptCompletion.failed]).filterMap
        AcceptCompletion.client? = state.waiting := by
      rw [List.filterMap_append]
      exact List.append_nil _
    change (List.filterMap AcceptCompletion.client? _ ++ (state.closed ++ state.served)).Perm
      (List.range state.accepted)
    rwa [waiting]
  | failed count made entry here =>
    refine HandledOnce.reRegister ?_ entry
    unfold HandledOnce ListenerState.waiting at once ⊢
    rwa [here] at once
  | more count made entry here effect =>
    refine HandledOnce.client ?_ effect
    unfold HandledOnce ListenerState.waiting at once
    rwa [here] at once
  | last count made entry here effect =>
    refine (HandledOnce.client ?_ effect).reRegister entry
    unfold HandledOnce ListenerState.waiting at once
    rwa [here] at once

/-! ## Accept requests -/

/-- There is a request, or the last completion of one is yet to be handled, until registering a
request fails. -/
structure Registered (state : ListenerState) : Prop where
  atMost : state.turns ≤ 1
  listening : state.listenFd = true → state.refused = false → state.turns = 1
  refused : state.refused = true → state.turns = 0
  begun : state.begun = false → state.turns = 0 ∧ state.listenFd = false ∧ state.refused = false

/-- Registering when nothing is registered. -/
theorem registered_register (begun : state.begun = true) (unregistered : state.turns = 0)
    (accepting : state.refused = false) (entry : Bool) : Registered (state.register entry) := by
  cases entry with
  | true =>
    have turns : (state.register true).turns = 1 := by
      change state.requests + 1 + state.completions.countP (·.isLast) = 1
      unfold ListenerState.turns at unregistered
      omega
    refine ⟨Nat.le_of_eq turns, fun _ _ => turns, fun refused => ?_, fun unbegun => ?_⟩
    · simp [ListenerState.register, accepting] at refused
    · simp [ListenerState.register, begun] at unbegun
  | false =>
    have turns : (state.register false).turns = 0 := unregistered
    refine ⟨by omega, fun _ accepting => ?_, fun _ => turns, fun unbegun => ?_⟩
    · cases accepting
    · simp [ListenerState.register, begun] at unbegun

theorem registered_reRegister (begun : state.begun = true) (unregistered : state.turns = 0)
    (accepting : state.refused = false) (entry : Bool) : Registered (state.reRegister entry) := by
  unfold ListenerState.reRegister
  split
  case isTrue => exact registered_register begun unregistered accepting entry
  case isFalse closed =>
    exact ⟨by omega, fun isOpen => absurd isOpen closed, fun _ => unregistered,
      fun unbegun => by simp [begun] at unbegun⟩

/-- What is done with a descriptor leaves the requests alone. -/
theorem ClientEffect.same {handled : ListenerState} {client count : Nat}
    (effect : ClientEffect config state client count handled) :
    handled.turns = state.turns ∧ handled.listenFd = state.listenFd ∧
      handled.refused = state.refused ∧ handled.begun = state.begun := by
  cases effect <;> exact ⟨rfl, rfl, rfl, rfl⟩

theorem Registered.of_turns (registered : Registered state) (turns : next.turns = state.turns)
    (listenFd : next.listenFd = state.listenFd) (refused : next.refused = state.refused)
    (begun : next.begun = state.begun) : Registered next := by
  obtain ⟨atMost, going, silent, fresh⟩ := registered
  rw [← turns, ← refused] at silent
  rw [← turns, ← listenFd, ← refused] at going
  rw [← turns, ← listenFd, ← refused, ← begun] at fresh
  exact ⟨turns ▸ atMost, going, silent, fresh⟩

/-- The last completion of a request leaves nothing registered. -/
theorem Registered.behind_last (registered : Registered state) {completion : AcceptCompletion}
    {rest : List AcceptCompletion} (here : state.completions = completion :: rest)
    (isLast : completion.isLast = true) :
    state.begun = true ∧ { state with completions := rest }.turns = 0 ∧ state.refused = false := by
  have turns : { state with completions := rest }.turns + 1 = state.turns := by
    simp only [ListenerState.turns, here, List.countP_cons, isLast, if_true]
    omega
  have atMost := registered.atMost
  refine ⟨eq_true_of_ne_false fun unbegun => ?_, by omega,
    eq_false_of_ne_true fun refused => ?_⟩
  · have none := (registered.begun unbegun).1
    omega
  · have none := registered.refused refused
    omega

/-- No step doubles the request or loses it unnoticed. -/
theorem Registered.step (registered : Registered state)
    (effect : ListenerEffect config state action next) : Registered next := by
  cases effect with
  | start entry fresh =>
    obtain ⟨unregistered, -, accepting⟩ := registered.begun fresh
    refine registered_register rfl ?_ ?_ entry
    · exact unregistered
    · exact accepting
  | unbound entry fresh =>
    obtain ⟨unregistered, closed, accepting⟩ := registered.begun fresh
    refine ⟨registered.atMost, fun isOpen => ?_, registered.refused, fun unbegun => ?_⟩
    · simp [closed] at isOpen
    · cases unbegun
  | stop =>
    refine ⟨registered.atMost, fun isOpen => ?_, registered.refused, fun unbegun => ?_⟩
    · cases isOpen
    · exact ⟨(registered.begun unbegun).1, rfl, (registered.begun unbegun).2.2⟩
  | endSession => exact registered.of_turns rfl rfl rfl rfl
  | accept more requested =>
    refine registered.of_turns ?_ rfl rfl rfl
    simp only [ListenerState.turns, List.countP_append, List.countP_singleton,
      AcceptCompletion.isLast]
    cases more with
    | true => simp
    | false =>
      simp only [Bool.not_false, if_true, Bool.false_eq_true, if_false]
      omega
  | fail requested =>
    refine registered.of_turns ?_ rfl rfl rfl
    simp only [ListenerState.turns, List.countP_append, List.countP_singleton,
      AcceptCompletion.isLast, if_true]
    omega
  | failed count made entry here =>
    obtain ⟨begun, unregistered, accepting⟩ := registered.behind_last here rfl
    refine registered_reRegister ?_ unregistered ?_ entry
    · exact begun
    · exact accepting
  | more count made entry here effect =>
    obtain ⟨sameTurns, sameFd, sameRefused, sameBegun⟩ := effect.same
    refine registered.of_turns (sameTurns.trans ?_) sameFd sameRefused sameBegun
    simp [ListenerState.turns, here, AcceptCompletion.isLast]
  | last count made entry here effect =>
    obtain ⟨begun, unregistered, accepting⟩ := registered.behind_last here rfl
    obtain ⟨sameTurns, -, sameRefused, sameBegun⟩ := effect.same
    exact registered_reRegister (sameBegun.trans begun) (sameTurns.trans unregistered)
      (sameRefused.trans accepting) entry

/-- A listener that was started and has nothing registered. -/
structure Deaf (state : ListenerState) : Prop where
  begun : state.begun = true
  turns : state.turns = 0

/-- A deaf listener accepts nothing more. -/
theorem Deaf.step (deaf : Deaf state) (effect : ListenerEffect config state action next) :
    Deaf next ∧ next.accepted = state.accepted := by
  obtain ⟨begun, turns⟩ := deaf
  have requests : state.requests = 0 := (Nat.add_eq_zero_iff.mp turns).1
  have noLast : ∀ completion ∈ state.completions, ¬ completion.isLast = true :=
    List.countP_eq_zero.mp (Nat.add_eq_zero_iff.mp turns).2
  cases effect with
  | start _ fresh | unbound _ fresh => simp [begun] at fresh
  | stop => exact ⟨⟨begun, turns⟩, rfl⟩
  | endSession => exact ⟨⟨begun, turns⟩, rfl⟩
  | accept _ requested | fail requested => exact absurd requests requested
  | failed _ _ _ here => exact absurd rfl (noLast .failed (here ▸ List.mem_cons_self))
  | more count made entry here effect =>
    obtain ⟨sameTurns, -, -, sameBegun⟩ := effect.same
    refine ⟨⟨sameBegun.trans begun, sameTurns.trans ?_⟩, by cases effect <;> rfl⟩
    simpa [ListenerState.turns, here, AcceptCompletion.isLast] using turns
  | last _ _ _ here => exact absurd rfl (noLast _ (here ▸ List.mem_cons_self))

/-- `session_count_fn_` counts at least the sessions of this listener. -/
def CountsSessions (state : ListenerState) : ListenerAction → Prop
  | .onAccept count _ _ => state.sessions.length ≤ count
  | _ => True

instance (state : ListenerState) (action : ListenerAction) :
    Decidable (CountsSessions state action) :=
  match action with
  | .onAccept _ _ _ => inferInstanceAs (Decidable (_ ≤ _))
  | .start _ _ | .stop | .accept _ | .fail | .endSession _ => .isTrue trivial

theorem reRegister_sessions (state : ListenerState) (entry : Bool) :
    (state.reRegister entry).sessions = state.sessions := by
  unfold ListenerState.reRegister
  split
  · cases entry <;> rfl
  · rfl

theorem ClientEffect.sessions_le {handled : ListenerState} {client count : Nat}
    (effect : ClientEffect config state client count handled) (limited : 0 < config.maxSessions)
    (counts : config.hasSessionCountFn = true) (counted : state.sessions.length ≤ count)
    (within : state.sessions.length ≤ config.maxSessions) :
    handled.sessions.length ≤ config.maxSessions := by
  cases effect with
  | close => exact within
  | serve allowed =>
    have room := allowed limited counts
    exact Nat.lt_of_le_of_lt counted room

theorem sessions_step (limited : 0 < config.maxSessions) (counts : config.hasSessionCountFn = true)
    (within : state.sessions.length ≤ config.maxSessions) (counted : CountsSessions state action)
    (effect : ListenerEffect config state action next) :
    next.sessions.length ≤ config.maxSessions := by
  cases effect with
  | start entry => cases entry <;> exact within
  | unbound | stop | accept | fail => exact within
  | failed => rwa [reRegister_sessions]
  | more _ _ _ _ effect => exact effect.sessions_le limited counts counted within
  | last _ _ _ _ effect =>
    rw [reRegister_sessions]
    exact effect.sessions_le limited counts counted within
  | endSession client => exact Nat.le_trans List.length_erase_le within

/-! ## The listener over a run -/

/-- Every accepted descriptor is closed, handed to one session, or yet to be handled, exactly once;
if sessions are counted, there are never more than `max_sessions_`. -/
theorem clients_handled_once {Admits : ListenerState → ListenerAction → Prop}
    (reachable : (listenerSystem config).Reachable Admits state) :
    (state.waiting ++ (state.closed ++ state.served)).Perm (List.range state.accepted) ∧
      ((∀ state action, Admits state action → CountsSessions state action) →
        0 < config.maxSessions → config.hasSessionCountFn = true →
          state.sessions.length ≤ config.maxSessions) := by
  constructor
  · refine TransitionSystem.Reachable.invariant HandledOnce ?_ ?_ reachable
    · rintro _ rfl
      exact List.Perm.refl _
    · exact fun once _ transition => once.step (listener_effect transition)
  · intro honest limited counts
    refine TransitionSystem.Reachable.invariant
      (fun state => state.sessions.length ≤ config.maxSessions) ?_ ?_ reachable
    · rintro _ rfl
      exact Nat.zero_le _
    · intro _ _ _ within admitted transition
      exact sessions_step limited counts within (honest _ _ admitted) (listener_effect transition)

theorem clients_handled_once_limit : ∃ state,
    (listenerSystem ⟨1, true⟩).Reachable CountsSessions state ∧ state.closed = [1] ∧
    state.sessions.length ≤ 1 := by
  refine TransitionSystem.exists_reachable (rfl : (listenerSystem ⟨1, true⟩).Initial {})
    [.start true true, .accept true, .accept false, .onAccept 0 true true,
      .onAccept 1 true true, .endSession 0, .accept true, .onAccept 0 true true] ⟨_, rfl, ?_⟩
  intro reachable
  exact ⟨rfl, (clients_handled_once reachable).2 (fun _ _ counted => counted) Nat.one_pos rfl⟩

/-- There is never more than one accept request, and while the socket is open exactly one, or its
last completion; but once registering one fails, no connection is accepted any more. -/
theorem one_accept_request (reachable : (listenerSystem config).Reachable everyStep state) :
    state.turns ≤ 1 ∧ (state.listenFd = true → state.refused = false → state.turns = 1) ∧
      (state.refused = true → ∀ actions final,
        (listenerSystem config).execute everyStep state actions = some final →
          final.accepted = state.accepted) := by
  have registered : Registered state := by
    refine TransitionSystem.Reachable.invariant Registered ?_ ?_ reachable
    · rintro _ rfl
      exact ⟨Nat.zero_le _, fun isOpen => (by cases isOpen), fun _ => rfl, fun _ => ⟨rfl, rfl, rfl⟩⟩
    · exact fun registered _ transition => registered.step (listener_effect transition)
  refine ⟨registered.atMost, registered.listening, fun refused actions final executed => ?_⟩
  have begun : state.begun = true := eq_true_of_ne_false fun unbegun => by
    simp [(registered.begun unbegun).2.2] at refused
  have deaf : Deaf state := ⟨begun, registered.refused refused⟩
  clear reachable registered refused begun
  induction actions generalizing state with
  | nil =>
    cases executed
    rfl
  | cons action actions ih =>
    have admitted : everyStep state action := trivial
    rw [TransitionSystem.execute, if_pos admitted] at executed
    obtain ⟨next, transition, rest⟩ := Option.bind_eq_some_iff.mp executed
    obtain ⟨nextDeaf, same⟩ := deaf.step (listener_effect transition)
    exact (ih rest nextDeaf).trans same

theorem one_accept_request_refused : ∃ state, (listenerSystem {}).Reachable everyStep state ∧
    state.listenFd = true ∧ ∀ actions final,
      (listenerSystem {}).execute everyStep state actions = some final → final.accepted = 1 := by
  obtain ⟨state, executed, refused, isOpen, accepted⟩ : ∃ state,
      (listenerSystem {}).execute everyStep {}
        [.start true true, .accept false, .onAccept 0 true false] = some state ∧
      state.refused = true ∧ state.listenFd = true ∧ state.accepted = 1 := ⟨_, rfl, rfl, rfl, rfl⟩
  have reachable := TransitionSystem.Reachable.execute (.initial rfl) executed
  refine ⟨state, reachable, isOpen, fun actions final more => ?_⟩
  rw [← accepted]
  exact (one_accept_request reachable).2.2 refused actions final more

end UringServer.Io
