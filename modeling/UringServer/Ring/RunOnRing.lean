import UringServer.Semantics.TransitionSystem

/-!
# Tasks for the thread of a ring

`IoRing::RunOnRing` with its three ways of delivery: at once on the thread of the
ring, as a message from another ring, and through the list of posted tasks. The
storage of a task that travels as a message is named by its address only, and an
address may be handed out again once it is freed. A submit that succeeds sends
every message that is queued on its ring; one that fails leaves them queued.
-/

namespace UringServer.Ring

open UringServer.Semantics

abbrev RingId := Nat

abbrev Address := Nat

/-- The number of the call of `RunOnRing` that brought a task. -/
abbrev TaskId := Nat

/-- A submission entry that `io_uring_prep_msg_ring` filled, and later the completion it is. -/
structure TaskMessage where
  source : RingId
  target : RingId
  task : Address
deriving DecidableEq, Repr

/-- The rings with what travels between their threads. Entries that belong to a ring carry its
name. -/
structure TaskState where
  /-- `ring_` is set. -/
  hasRing : RingId → Bool
  /-- What the calls of `RunOnRing` returned. -/
  answers : List Bool := []
  /-- What was last put at an address, which is read also when the address is free again. -/
  stored : Address → Option TaskId := fun _ => none
  live : Address → Bool := fun _ => false
  queued : List TaskMessage := []
  arrived : List TaskMessage := []
  /-- The tasks that `Dispatch` runs and has not deleted yet. -/
  running : List (RingId × Address) := []
  posted : List (RingId × TaskId) := []
  /-- The tasks that `ProcessPostedTasks` swapped out and has not run yet. -/
  taken : List (RingId × TaskId) := []
  executed : List TaskId := []

namespace TaskState

/-- The task of the next call. -/
def nextTask (state : TaskState) : TaskId := state.answers.length

/-- The call returns. -/
def answer (state : TaskState) (value : Bool) : TaskState :=
  { state with answers := state.answers ++ [value] }

def execute (state : TaskState) (task : TaskId) : TaskState :=
  { state with executed := state.executed ++ [task] }

/-- The task of the current call is moved to new storage. -/
def allocate (state : TaskState) (address : Address) : TaskState :=
  { state with
    stored := Function.update state.stored address (some state.nextTask)
    live := Function.update state.live address true }

/-- `delete task`. -/
def delete (state : TaskState) (address : Address) : TaskState :=
  { state with live := Function.update state.live address false }

/-- `io_uring_prep_msg_ring`. -/
def prepMsgRing (state : TaskState) (message : TaskMessage) : TaskState :=
  { state with queued := state.queued ++ [message] }

/-- `io_uring_submit` that succeeds. -/
def submit (state : TaskState) (source : RingId) : TaskState :=
  { state with
    queued := state.queued.filter (·.source ≠ source)
    arrived := state.arrived ++ state.queued.filter (·.source = source) }

/-- `IoRing::Post`. -/
def post (state : TaskState) (target : RingId) : TaskState :=
  { state with posted := state.posted ++ [(target, state.nextTask)] }

/-- `IoRing::RunOnRing` on a ring, called by the thread of a ring or by another thread, with what
`new`, `io_uring_get_sqe` and `io_uring_submit` give. Storage in use is not handed out. -/
def runOnRing (state : TaskState) (target : RingId) (current : Option RingId)
    (new : Option Address) (sqe submitted : Bool) : Option TaskState :=
  if state.hasRing target = false then
    some (state.answer false)
  else if current = some target then
    some ((state.execute state.nextTask).answer true)
  else match current.filter state.hasRing with
    | none => some ((state.post target).answer true)
    | some source => match new with
      | none => some (state.answer false)
      | some address =>
        if state.live address = true then
          none
        else if sqe = false then
          some (((state.allocate address).delete address).answer false)
        else
          let prepared := (state.allocate address).prepMsgRing ⟨source, target, address⟩
          if submitted = true then
            some ((prepared.submit source).answer true)
          else
            some ((prepared.delete address).answer false)

/-- The part of `Dispatch` for a message up to the end of the call of its task. -/
def dispatch (state : TaskState) (ring : RingId) : Option TaskState :=
  if ring ∈ state.running.map (·.1) then
    none
  else
    (state.arrived.find? (·.target = ring)).bind fun message =>
      (state.stored message.task).map fun task =>
        { state.execute task with
          arrived := state.arrived.eraseP (·.target = ring)
          running := state.running ++ [(ring, message.task)] }

/-- The end of the part of `Dispatch` for a message. -/
def deleteRun (state : TaskState) (ring : RingId) : Option TaskState :=
  (state.running.find? (·.1 = ring)).map fun entry =>
    { state.delete entry.2 with running := state.running.eraseP (·.1 = ring) }

/-- The swap of `ProcessPostedTasks`. -/
def processPostedTasks (state : TaskState) (ring : RingId) : Option TaskState :=
  if ring ∈ state.taken.map (·.1) then
    none
  else
    some { state with
      posted := state.posted.filter (·.1 ≠ ring)
      taken := state.taken ++ state.posted.filter (·.1 = ring) }

/-- One turn of the loop of `ProcessPostedTasks`. -/
def runPosted (state : TaskState) (ring : RingId) : Option TaskState :=
  (state.taken.find? (·.1 = ring)).map fun entry =>
    { state.execute entry.2 with taken := state.taken.eraseP (·.1 = ring) }

end TaskState

/-- What the threads do. A task that runs does what it does as further actions of its thread. -/
inductive TaskAction where
  | runOnRing (target : RingId) (current : Option RingId) (new : Option Address)
      (sqe submitted : Bool)
  | submit (ring : RingId) (submitted : Bool)
  | dispatch (ring : RingId)
  | deleteRun (ring : RingId)
  | processPostedTasks (ring : RingId)
  | runPosted (ring : RingId)
deriving DecidableEq, Repr

/-- The rings under any sequence of calls. -/
def taskSystem : TransitionSystem TaskState TaskAction where
  Initial state := ∃ hasRing, state = { hasRing := hasRing }
  step state
    | .runOnRing target current new sqe submitted =>
      state.runOnRing target current new sqe submitted
    | .submit ring submitted => some (if submitted = true then state.submit ring else state)
    | .dispatch ring => state.dispatch ring
    | .deleteRun ring => state.deleteRun ring
    | .processPostedTasks ring => state.processPostedTasks ring
    | .runPosted ring => state.runPosted ring

namespace TaskState

/-- What the answers of `RunOnRing` promise. -/
structure Truthful (state : TaskState) : Prop where
  notExecuted : ∀ task, state.answers[task]? = some false → task ∉ state.executed
  notReferenced : ∀ task, state.answers[task]? = some false →
    ∀ message ∈ state.queued ++ state.arrived, state.stored message.task ≠ some task
  atMostOnce : ∀ task, state.answers[task]? = some true → state.executed.count task ≤ 1

/-- A submit in `RunOnRing` behind a prepared message succeeds. -/
def SubmitsMessage (state : TaskState) : TaskAction → Prop
  | .runOnRing target current new sqe submitted =>
    state.hasRing target = true → current ≠ some target →
      (current.filter state.hasRing).isSome → new.isSome → sqe = true → submitted = true
  | _ => True

instance (state : TaskState) (action : TaskAction) : Decidable (state.SubmitsMessage action) := by
  cases action <;> unfold SubmitsMessage <;> infer_instance

/-- The storage that messages and running tasks use. -/
def addresses (state : TaskState) : List Address :=
  state.arrived.map (·.task) ++ state.running.map (·.2)

/-- How often a task is on its way or was executed. -/
def weight (state : TaskState) (task : TaskId) : Nat :=
  state.arrived.countP (fun message => state.stored message.task == some task) +
    state.posted.countP (fun entry => task == entry.2) +
    state.taken.countP (fun entry => task == entry.2) + state.executed.count task

/-- How often a task may be executed. -/
def allowance (state : TaskState) (task : TaskId) : Nat :=
  if state.answers[task]? = some true then 1 else 0

/-- What holds as long as every prepared message is sent. -/
structure Books (state : TaskState) : Prop where
  sent : state.queued = []
  held : ∀ address ∈ state.addresses, state.live address = true
  apart : state.addresses.Nodup
  counted : ∀ task, state.weight task ≤ state.allowance task

end TaskState

end UringServer.Ring
