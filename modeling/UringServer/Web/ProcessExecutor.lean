import UringServer.Semantics.TransitionSystem
import UringServer.Web.RadixTree

/-!
# Running a command

`ProcessExecutor::Run` reads all that the command writes to its standard output,
then all that it writes to its standard error, and then waits for it. Parent and
child run side by side, and a pipe takes only so many bytes; how many depends also on
how they are divided into writes. `Run` returns, with exactly what was written, if a
pipe always takes what the command writes to its standard error while both streams are
open, and never returns if no pipe can hold it. The parameter `timeout_seconds` is not
read.
-/

namespace UringServer.Web.ProcessExecutor

open UringServer.Semantics

/-- `ProcessResult`. -/
structure ProcessResult where
  exitCode : Int := -1
  stdoutOutput : Text
  stderrOutput : Text
  deriving DecidableEq

/-- The streams that `Run` reads through a pipe. -/
inductive Stream where
  | stdout
  | stderr
  deriving DecidableEq

/-- What a command does with the streams. -/
inductive ChildOp where
  | write (stream : Stream) (bytes : Text)
  | close (stream : Stream)
  deriving DecidableEq

/-- What `waitpid` reports. -/
inductive WaitStatus where
  | exited (code : Nat)
  | signaled
  deriving DecidableEq

/-- A command from `execvp` to its end. -/
structure Child where
  ops : List ChildOp
  status : WaitStatus

/-- What went into a pipe and out of it: a part of a write that had `size` bytes left, and what a
`read` returned. -/
inductive Transfer where
  | wrote (size count : Nat)
  | read (count : Nat)
  deriving DecidableEq

/-- What a pipe takes, which directories can be entered and which commands run. -/
structure Os where
  /-- The bytes that a pipe holds at most. -/
  capacity : Nat
  /-- The bytes that a pipe takes in any case, however they are divided into writes. -/
  guaranteed : Nat
  /-- Whether a pipe that holds so many bytes after some transfers takes `count` bytes at once, of
  a write that has `size` left. -/
  takes : List Transfer → (held size count : Nat) → Bool
  takes_bounded : ∀ {history held size count}, takes history held size count = true →
    held + count ≤ capacity
  takes_some : ∀ history {held size}, 0 < size → held = 0 ∨ held + size ≤ guaranteed →
    ∃ count, 0 < count ∧ count ≤ size ∧ takes history held size count = true
  chdir : Text → Bool
  execvp : List Text → Option Child

/-- The child behind `fork`. -/
def spawned (os : Os) (args : List Text) (workingDir : Text) : Child :=
  if workingDir ≠ [] ∧ os.chdir workingDir = false then { ops := [], status := .exited 127 }
  else (os.execvp args).getD { ops := [], status := .exited 127 }

/-- What is in a pipe, its history, and whether the child has its write end open. -/
structure Pipe where
  held : Text := []
  transfers : List Transfer := []
  writer : Bool := true
  deriving DecidableEq

/-- Where `Run` is: in `ReadFd` of a stream, in `waitpid`, or at its end. -/
inductive Phase where
  | reading (stream : Stream)
  | waiting
  | returned (result : Except Text ProcessResult)

/-- The child with what it has left to do (none once it has ended), the pipes, and `Run` with
`stdout_str` and `stderr_str`. -/
structure RunState where
  child : Option (List ChildOp)
  status : WaitStatus
  pipes : Stream → Pipe := fun _ => {}
  phase : Phase := .reading .stdout
  received : Stream → Text := fun _ => []

/-- A step of the child is a part of a write or anything else it does; `read` and `waitpid` of the
parent may fail. -/
inductive RunAction where
  | write (count : Nat)
  | advance
  | read (count : Nat)
  | readEnds
  | readFails
  | wait
  | waitFails

/-- The end of `Run`. -/
def result (args : List Text) (status : WaitStatus) (stdoutStr stderrStr : Text) :
    Except Text ProcessResult :=
  match status with
  | .exited code =>
    if code = 127 ∧ stdoutStr = [] then .error (ascii "command not found: " ++ args.headD [])
    else .ok { exitCode := code, stdoutOutput := stdoutStr, stderrOutput := stderrStr }
  | .signaled => .ok { stdoutOutput := stdoutStr, stderrOutput := stderrStr }

/-- What comes behind `ReadFd` of a stream. -/
def Phase.behind : Stream → Phase
  | .stdout => .reading .stderr
  | .stderr => .waiting

namespace RunState

def setPipe (state : RunState) (stream : Stream) (pipe : Pipe) : RunState :=
  { state with pipes := Function.update state.pipes stream pipe }

/-- The child ends, and with it its ends of the pipes. -/
def exit (state : RunState) (status : WaitStatus) : RunState :=
  { state with
    child := none
    status := status
    pipes := fun stream => { state.pipes stream with writer := false } }

/-- A part of a write goes into the pipe. -/
def push (state : RunState) (stream : Stream) (bytes : Text) (rest : List ChildOp) (count : Nat) :
    RunState :=
  { state.setPipe stream
      { state.pipes stream with
        held := (state.pipes stream).held ++ bytes.take count
        transfers := (state.pipes stream).transfers ++ [.wrote bytes.length count] } with
    child := some (.write stream (bytes.drop count) :: rest) }

/-- `read` returns the front of what is in the pipe. -/
def pull (state : RunState) (stream : Stream) (count : Nat) : RunState :=
  { state.setPipe stream
      { state.pipes stream with
        held := (state.pipes stream).held.drop count
        transfers := (state.pipes stream).transfers ++ [.read count] } with
    received := Function.update state.received stream
      (state.received stream ++ (state.pipes stream).held.take count) }

/-- `waitpid` has set the status. -/
def finish (state : RunState) (args : List Text) (status : WaitStatus) : RunState :=
  { state with
    phase := .returned (result args status (state.received .stdout) (state.received .stderr)) }

/-- What the child does besides transferring bytes: it goes on behind a finished write or one to a
closed stream, closes a stream or exits; a write that nobody can read ends it. -/
def advance (state : RunState) : Option RunState :=
  match state.child with
  | none => none
  | some [] => some (state.exit state.status)
  | some (.close stream :: rest) =>
    some { state.setPipe stream { state.pipes stream with writer := false } with
      child := some rest }
  | some (.write stream bytes :: rest) =>
    if bytes = [] ∨ (state.pipes stream).writer = false then
      some { state with child := some rest }
    else
      match state.phase with
      | .reading _ => none
      | .waiting | .returned _ => some (state.exit .signaled)

def write (os : Os) (state : RunState) (count : Nat) : Option RunState :=
  match state.child, state.phase with
  | some (.write stream bytes :: rest), .reading _ =>
    if (state.pipes stream).writer = true ∧ 0 < count ∧ count ≤ bytes.length ∧
        os.takes (state.pipes stream).transfers (state.pipes stream).held.length bytes.length
          count = true then
      some (state.push stream bytes rest count)
    else none
  | _, _ => none

def step (os : Os) (args : List Text) (state : RunState) : RunAction → Option RunState
  | .write count => state.write os count
  | .advance => state.advance
  | .read count =>
    match state.phase with
    | .reading stream =>
      if 0 < count ∧ count ≤ 4096 ∧ count ≤ (state.pipes stream).held.length then
        some (state.pull stream count)
      else none
    | _ => none
  | .readEnds =>
    match state.phase with
    | .reading stream =>
      if (state.pipes stream).held = [] ∧ (state.pipes stream).writer = false then
        some { state with phase := .behind stream }
      else none
    | _ => none
  | .readFails =>
    match state.phase with
    | .reading stream => some { state with phase := .behind stream }
    | _ => none
  | .wait =>
    match state.phase, state.child with
    | .waiting, none => some (state.finish args state.status)
    | _, _ => none
  | .waitFails =>
    match state.phase with
    | .waiting => some (state.finish args (.exited 0))
    | _ => none

end RunState

/-- `Run` from the successful `fork` on. -/
def runSystem (os : Os) (args : List Text) (workingDir : Text) :
    TransitionSystem RunState RunAction where
  Initial state := state = { child := some (spawned os args workingDir).ops
                             status := (spawned os args workingDir).status }
  step state action := state.step os args action

/-- Runs in which `read` and `waitpid` do not fail. -/
def noFailure (_ : RunState) : RunAction → Prop
  | .readFails | .waitFails => False
  | _ => True

instance (state : RunState) (action : RunAction) : Decidable (noFailure state action) :=
  match action with
  | .readFails | .waitFails => .isFalse id
  | .write _ | .advance | .read _ | .readEnds | .wait => .isTrue trivial

/-! ## What a step does -/

/-- The steps without failures. -/
inductive RunEffect (os : Os) (args : List Text) (state : RunState) : RunState → Prop where
  | write {stream bytes rest count reading}
      (child : state.child = some (.write stream bytes :: rest))
      (phase : state.phase = .reading reading) (isOpen : (state.pipes stream).writer = true)
      (some : 0 < count) (within : count ≤ bytes.length)
      (room : (state.pipes stream).held.length + count ≤ os.capacity) :
      RunEffect os args state (state.push stream bytes rest count)
  | skip {stream bytes rest} (child : state.child = some (.write stream bytes :: rest))
      (settled : bytes = [] ∨ (state.pipes stream).writer = false) :
      RunEffect os args state { state with child := some rest }
  | close {stream rest} (child : state.child = some (.close stream :: rest)) :
      RunEffect os args state
        { state.setPipe stream { state.pipes stream with writer := false } with child := some rest }
  | exit (child : state.child = some []) : RunEffect os args state (state.exit state.status)
  | broken {stream bytes rest} (child : state.child = some (.write stream bytes :: rest))
      (isOpen : (state.pipes stream).writer = true)
      (unread : ∀ reading, state.phase ≠ .reading reading) :
      RunEffect os args state (state.exit .signaled)
  | read {stream count} (phase : state.phase = .reading stream) (some : 0 < count)
      (within : count ≤ (state.pipes stream).held.length) :
      RunEffect os args state (state.pull stream count)
  | readEnds {stream} (phase : state.phase = .reading stream)
      (empty : (state.pipes stream).held = []) (closed : (state.pipes stream).writer = false) :
      RunEffect os args state { state with phase := .behind stream }
  | wait (phase : state.phase = .waiting) (ended : state.child = none) :
      RunEffect os args state (state.finish args state.status)

variable {os : Os} {args : List Text} {state next : RunState} {action : RunAction}

/-- What each step of `Run` can do. -/
theorem step_effect (admitted : noFailure state action)
    (transition : state.step os args action = some next) : RunEffect os args state next := by
  cases action with
  | readFails | waitFails => exact admitted.elim
  | write count =>
    simp only [RunState.step, RunState.write] at transition
    split at transition
    case h_1 stream bytes rest reading child phase =>
      split at transition
      case isTrue allowed =>
        cases transition
        exact .write child phase allowed.1 allowed.2.1 allowed.2.2.1
          (os.takes_bounded allowed.2.2.2)
      case isFalse => cases transition
    case h_2 => cases transition
  | advance =>
    simp only [RunState.step, RunState.advance] at transition
    split at transition
    case h_1 => cases transition
    case h_2 child =>
      cases transition
      exact .exit child
    case h_3 stream rest child =>
      cases transition
      exact .close child
    case h_4 stream bytes rest child =>
      split at transition
      case isTrue settled =>
        cases transition
        exact .skip child settled
      case isFalse going =>
        have isOpen := Bool.eq_true_of_not_eq_false fun closed => going (.inr closed)
        cases phase : state.phase with
        | reading stream => simp [phase] at transition
        | waiting | returned value =>
          simp only [phase, Option.some.injEq] at transition
          exact transition ▸ .broken child isOpen (by simp [phase])
  | read count =>
    simp only [RunState.step] at transition
    split at transition
    case h_1 stream phase =>
      split at transition
      case isTrue allowed =>
        cases transition
        exact .read phase allowed.1 allowed.2.2
      case isFalse => cases transition
    case h_2 => cases transition
  | readEnds =>
    simp only [RunState.step] at transition
    split at transition
    case h_1 stream phase =>
      split at transition
      case isTrue allowed =>
        cases transition
        exact .readEnds phase allowed.1 allowed.2
      case isFalse => cases transition
    case h_2 => cases transition
  | wait =>
    simp only [RunState.step] at transition
    split at transition
    case h_1 phase ended =>
      cases transition
      exact .wait phase ended
    case h_2 => cases transition

end UringServer.Web.ProcessExecutor
