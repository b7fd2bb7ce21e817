import Mathlib.Data.List.Basic
import UringServer.Semantics.TransitionSystem

/-!
# Accepting connections

`Listener` keeps one multishot accept request in the kernel. Each completion
gives it a descriptor, which it closes or hands to a new session, and a
completion that is the last of its request makes it register another one. `Stop`
closes the listening socket but does not cancel the request. Descriptors are
numbered in the order in which they were accepted, as the kernel uses the numbers
of closed ones again.
-/

namespace UringServer.Io

open UringServer.Semantics

/-- `max_sessions_`, and whether `SetSessionCountFn` was called. -/
structure ListenerConfig where
  maxSessions : Nat := 0
  hasSessionCountFn : Bool := false

/-- A completion of the accept request; one with an error is the last. -/
inductive AcceptCompletion where
  | accepted (client : Nat) (more : Bool)
  | failed
  deriving DecidableEq

def AcceptCompletion.isLast : AcceptCompletion → Bool
  | .accepted _ more => !more
  | .failed => true

def AcceptCompletion.client? : AcceptCompletion → Option Nat
  | .accepted client _ => some client
  | .failed => none

/-- The listener with the accept requests that have not had their last completion, the completions
to handle, and what has become of the descriptors. -/
structure ListenerState where
  begun : Bool := false
  listenFd : Bool := false
  requests : Nat := 0
  completions : List AcceptCompletion := []
  refused : Bool := false
  accepted : Nat := 0
  closed : List Nat := []
  served : List Nat := []
  sessions : List Nat := []
  deriving DecidableEq

/-- Whether the socket could be bound, whether the submission queue has an entry, what
`session_count_fn_` returns and whether the factory makes a session are left open. -/
inductive ListenerAction where
  | start (bound entry : Bool)
  | stop
  | accept (more : Bool)
  | fail
  | onAccept (count : Nat) (made entry : Bool)
  | endSession (client : Nat)

namespace ListenerState

/-- `PrepAcceptMultishot` and `Submit`. -/
def register (state : ListenerState) (entry : Bool) : ListenerState :=
  if entry then { state with requests := state.requests + 1 } else { state with refused := true }

/-- What is done behind the last completion of a request. -/
def reRegister (state : ListenerState) (entry : Bool) : ListenerState :=
  if state.listenFd then state.register entry else state

/-- `OnAccept(client_fd)`. -/
def onClient (config : ListenerConfig) (state : ListenerState) (client count : Nat) (made : Bool) :
    ListenerState :=
  if 0 < config.maxSessions ∧ config.hasSessionCountFn = true ∧ config.maxSessions ≤ count then
    { state with closed := state.closed ++ [client] }
  else if made then
    { state with served := state.served ++ [client], sessions := client :: state.sessions }
  else { state with closed := state.closed ++ [client] }

/-- `OnAccept(ev, result, flags)`. -/
def onAccept (config : ListenerConfig) (state : ListenerState) (count : Nat) (made entry : Bool) :
    AcceptCompletion → ListenerState
  | .failed => state.reRegister entry
  | .accepted client more =>
    if more then state.onClient config client count made
    else (state.onClient config client count made).reRegister entry

def step (config : ListenerConfig) (state : ListenerState) : ListenerAction → Option ListenerState
  | .start bound entry =>
    if state.begun then none
    else if bound then some ({ state with begun := true, listenFd := true }.register entry)
    else some { state with begun := true }
  | .stop => some { state with listenFd := false }
  | .accept more =>
    if state.requests = 0 then none
    else some { state with
      requests := if more then state.requests else state.requests - 1
      completions := state.completions ++ [.accepted state.accepted more]
      accepted := state.accepted + 1 }
  | .fail =>
    if state.requests = 0 then none
    else some { state with
      requests := state.requests - 1
      completions := state.completions ++ [.failed] }
  | .onAccept count made entry =>
    match state.completions with
    | [] => none
    | completion :: rest =>
      some ({ state with completions := rest }.onAccept config count made entry completion)
  | .endSession client =>
    if client ∈ state.sessions then
      some { state with sessions := state.sessions.erase client }
    else none

/-- The descriptors in completions that are yet to be handled. -/
def waiting (state : ListenerState) : List Nat := state.completions.filterMap (·.client?)

/-- The requests in the kernel, and the last completions that are yet to be handled. -/
def turns (state : ListenerState) : Nat :=
  state.requests + state.completions.countP (·.isLast)

end ListenerState

/-- A listener on which `Start` is called once. -/
def listenerSystem (config : ListenerConfig) : TransitionSystem ListenerState ListenerAction where
  Initial state := state = {}
  step state action := state.step config action

variable {config : ListenerConfig} {state next : ListenerState} {action : ListenerAction}

/-! ## What a step does -/

/-- The descriptor of a completion is closed, or handed to a session that is started. -/
inductive ClientEffect (config : ListenerConfig) (state : ListenerState) (client count : Nat) :
    ListenerState → Prop where
  | close : ClientEffect config state client count
      { state with closed := state.closed ++ [client] }
  | serve (allowed : 0 < config.maxSessions → config.hasSessionCountFn = true →
      count < config.maxSessions) : ClientEffect config state client count
      { state with served := state.served ++ [client], sessions := client :: state.sessions }

theorem client_effect (client count : Nat) (made : Bool) :
    ClientEffect config state client count (state.onClient config client count made) := by
  unfold ListenerState.onClient
  split
  case isTrue => exact .close
  case isFalse below =>
    split
    case isTrue =>
      exact .serve fun limited counts => Nat.lt_of_not_le fun full => below ⟨limited, counts, full⟩
    case isFalse => exact .close

inductive ListenerEffect (config : ListenerConfig) (state : ListenerState) :
    ListenerAction → ListenerState → Prop where
  | start (entry : Bool) (fresh : state.begun = false) :
      ListenerEffect config state (.start true entry)
        ({ state with begun := true, listenFd := true }.register entry)
  | unbound (entry : Bool) (fresh : state.begun = false) :
      ListenerEffect config state (.start false entry) { state with begun := true }
  | stop : ListenerEffect config state .stop { state with listenFd := false }
  | accept (more : Bool) (requested : state.requests ≠ 0) :
      ListenerEffect config state (.accept more) { state with
        requests := if more then state.requests else state.requests - 1
        completions := state.completions ++ [.accepted state.accepted more]
        accepted := state.accepted + 1 }
  | fail (requested : state.requests ≠ 0) :
      ListenerEffect config state .fail { state with
        requests := state.requests - 1
        completions := state.completions ++ [.failed] }
  | failed {rest} (count : Nat) (made entry : Bool) (here : state.completions = .failed :: rest) :
      ListenerEffect config state (.onAccept count made entry)
        ({ state with completions := rest }.reRegister entry)
  | more {rest client handled} (count : Nat) (made entry : Bool)
      (here : state.completions = .accepted client true :: rest)
      (effect : ClientEffect config { state with completions := rest } client count handled) :
      ListenerEffect config state (.onAccept count made entry) handled
  | last {rest client handled} (count : Nat) (made entry : Bool)
      (here : state.completions = .accepted client false :: rest)
      (effect : ClientEffect config { state with completions := rest } client count handled) :
      ListenerEffect config state (.onAccept count made entry) (handled.reRegister entry)
  | endSession (client : Nat) : ListenerEffect config state (.endSession client)
      { state with sessions := state.sessions.erase client }

/-- What each step of a listener can do. -/
theorem listener_effect (transition : state.step config action = some next) :
    ListenerEffect config state action next := by
  cases action with
  | start bound entry =>
    cases begun : state.begun with
    | true => simp [ListenerState.step, begun] at transition
    | false =>
      cases bound with
      | true =>
        simp only [ListenerState.step, begun, if_true, Bool.false_eq_true, if_false,
          Option.some.injEq] at transition
        exact transition ▸ .start entry begun
      | false =>
        simp only [ListenerState.step, begun, Bool.false_eq_true, if_false,
          Option.some.injEq] at transition
        exact transition ▸ .unbound entry begun
  | stop =>
    cases transition
    exact .stop
  | accept more =>
    obtain ⟨requested, same⟩ := Option.ite_none_left_eq_some.mp transition
    cases same
    exact .accept more requested
  | fail =>
    obtain ⟨requested, same⟩ := Option.ite_none_left_eq_some.mp transition
    cases same
    exact .fail requested
  | onAccept count made entry =>
    cases here : state.completions with
    | nil => simp [ListenerState.step, here] at transition
    | cons completion rest =>
      simp only [ListenerState.step, here, Option.some.injEq] at transition
      subst transition
      cases completion with
      | failed => exact .failed count made entry here
      | accepted client more =>
        cases more with
        | true => exact .more count made entry here (client_effect client count made)
        | false => exact .last count made entry here (client_effect client count made)
  | endSession client =>
    obtain ⟨_, same⟩ := Option.ite_none_right_eq_some.mp transition
    cases same
    exact .endSession client

end UringServer.Io
