import UringServer.Io.Pipeline
import UringServer.Web.HttpSession

/-!
# The life of an `HttpSession`

A step is a completion dispatched to the session, one pass over the span it
received, a deferred answer, or any other call into `Session`. While a span is
parsed nothing else happens. Whatever happens to the session, its `Session` is
in a state that `Io.system` reaches.
-/

namespace UringServer.Web

open UringServer.Io UringServer.Ring UringServer.Semantics

/-- What can happen to an `HttpSession`. -/
inductive WebAction where
  /-- A receive completion that carries `data`. -/
  | recv (sqes : Sqes) (data : Text) (flags : UInt32)
  /-- A pass over the span being parsed. -/
  | parse
  /-- The callback that answers request number `request`, with the bytes it built. -/
  | answer (request : Nat) (built : Option Text)
  /-- Another completion, the return of a callback, or a call of other code on the thread. -/
  | io (action : Io.Action)

/-- What may happen to the `Session` of an `HttpSession` but for received bytes.
`on_send_overflow_` is never set. -/
def ioEnabled : Io.Action → Bool
  | .recvCompleted _ res _ => res ≤ 0
  | .setSendOverflowCallback _ => false
  | _ => true

namespace HttpSession

variable {Parser : Type} (env : Environment) (llhttp : Llhttp Parser)

/-- The kernel has put `data` into a buffer, and `Session` has seen the completion. -/
def takeIn (io : Io.State) (data : Text) (state : HttpSession Parser) : HttpSession Parser :=
  { state with io, history.received := state.history.received ++ data }

/-- The handler of a receive completion that carries `data`: `Session` calls `OnRecv(view)`
unless the session is disconnecting. -/
def receive (sqes : Sqes) (data : Text) (flags : UInt32) (state : HttpSession Parser) :
    Option (HttpSession Parser) :=
  (Io.step state.io (.recvCompleted sqes data.length flags)).map fun io =>
    if state.disconnecting then
      state.takeIn io data
    else
      (state.takeIn io data).onRecv env data

/-- The callback that answers request number `request`. -/
def answer (request : Nat) (built : Option Text) (state : HttpSession Parser) :
    HttpSession Parser :=
  let state := { state with history.deferred := state.history.deferred.erase request }
  built.elim state fun buf => state.handResponse env request buf

/-- One step. -/
def step (state : HttpSession Parser) : WebAction → Option (HttpSession Parser)
  | .recv sqes data flags =>
    if state.control = .idle ∧ data ≠ [] ∧ hasBuffer flags then
      state.receive env sqes data flags
    else
      none
  | .parse => state.parse env llhttp
  | .answer request built =>
    if state.control = .idle ∧ request ∈ state.history.deferred then
      some (state.answer env request built)
    else
      none
  | .io action =>
    if state.control = .idle ∧ ioEnabled action then
      (Io.step state.io action).map fun io => { state with io }
    else
      none

/-- A session that was just started. -/
def start (onConnected onDisconnect : Bool) : HttpSession Parser where
  io := Io.start { onConnected, onDisconnect }
  parser := llhttp.initial

/-- The life of a started `HttpSession`. -/
def system : TransitionSystem (HttpSession Parser) WebAction where
  Initial state := ∃ onConnected onDisconnect, state = start llhttp onConnected onDisconnect
  step := step env llhttp

theorem start_initial : (system env llhttp).Initial (start llhttp false false) :=
  ⟨false, false, rfl⟩

end HttpSession

end UringServer.Web
