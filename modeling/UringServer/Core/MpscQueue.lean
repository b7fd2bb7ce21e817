import Mathlib.Logic.Function.Basic
import Mathlib.Tactic.Simps.Basic
import UringServer.Semantics.TransitionSystem

/-!
# `MpscQueue` as atomic steps

Nodes are linked from `consume_end_`, where the one consumer takes them, to
`produce_end_`, where producers add them. A `Push` builds a node, exchanges
`produce_end_` for it, and stores it in the `next` of the node it got; between
the last two the list has a gap. The consumer runs `Drain`, whose `TryPop` is
taken apart into its loads and stores. Memory is sequentially consistent.

The member `stub_` is a node too. `TryPop` skips it at the front of the list and
pushes it again when the last node would otherwise stay behind.
-/

namespace UringServer.Core.Mpsc

open UringServer.Semantics

/-- The address of a node. -/
inductive NodePtr where
  | stub
  | heap (address : Nat)
deriving DecidableEq

/-- `MpscQueue::Node`. -/
structure Node (T : Type) where
  value : T
  next : Option NodePtr := none

/-- Where a `Push` stands. -/
inductive Producer where
  | idle
  /-- `new Node(item)` is done, before the exchange of `produce_end_`. -/
  | allocated (node : NodePtr)
  /-- Before `prev->next.store(node)`. -/
  | exchanged (prev node : NodePtr)
deriving DecidableEq

/-- Where the consumer stands in `Drain` and the `TryPop` it calls, by the load or
store that comes next. -/
inductive Consumer where
  | idle
  /-- `consume_end_.load()`. -/
  | loadConsumeEnd
  /-- `node->next.load()` of the first node. -/
  | loadNext (node : NodePtr)
  /-- `consume_end_.store(next)` past the stub. -/
  | skipStub (next : NodePtr)
  /-- `node->next.load()` behind the stub. -/
  | reloadNext (node : NodePtr)
  /-- `consume_end_.store(next)` past the node to pop. -/
  | advance (node next : NodePtr)
  /-- `out = std::move(node->value)`. -/
  | take (node : NodePtr)
  /-- `delete node`. -/
  | free (node : NodePtr)
  /-- `produce_end_.load()`. -/
  | loadProduceEnd (node : NodePtr)
  /-- `stub_.next.store(nullptr)`. -/
  | clearStub (node : NodePtr)
  /-- `produce_end_.exchange(&stub_)`. -/
  | exchangeStub (node : NodePtr)
  /-- `prev->next.store(&stub_)`. -/
  | linkStub (node prev : NodePtr)
  /-- `node->next.load()` after the stub was pushed. -/
  | recheckNext (node : NodePtr)
deriving DecidableEq

/-- The queue, its nodes, which of them exist, and its threads. `drained` is what
the running or last `Drain` handed out. `order` are the nodes from `consume_end_` to
`produce_end_` in the order of their exchanges, `pushed` and `popped` the values so
far; no step reads these three. -/
structure State (T Thread : Type) where
  nodes : NodePtr → Node T
  live : NodePtr → Bool
  consumeEnd : NodePtr
  produceEnd : NodePtr
  producers : Thread → Producer
  consumer : Consumer
  drained : List T
  order : List NodePtr
  pushed : List T
  popped : List T

/-- The next atomic step of a producer or of the consumer. -/
inductive Action (T Thread : Type) where
  | allocate (thread : Thread) (address : Nat) (item : T)
  | exchange (thread : Thread)
  | link (thread : Thread)
  | drain
  | consume

variable {T Thread : Type}

namespace State

/-- `node->next.store(next)`. -/
@[simps -fullyApplied]
def setNext (state : State T Thread) (node : NodePtr) (next : Option NodePtr) :
    State T Thread :=
  { state with nodes := Function.update state.nodes node { state.nodes node with next } }

/-- `produce_end_.exchange(node)`. -/
@[simps -fullyApplied]
def exchangeProduceEnd (state : State T Thread) (node : NodePtr) : State T Thread :=
  { state with produceEnd := node, order := state.order ++ [node] }

/-- `consume_end_.store(next)` past the first node. -/
@[simps -fullyApplied]
def storeConsumeEnd (state : State T Thread) (next : NodePtr) : State T Thread :=
  { state with consumeEnd := next, order := state.order.tail }

/-- Move the consumer. -/
@[simps -fullyApplied]
def setConsumer (state : State T Thread) (consumer : Consumer) : State T Thread :=
  { state with consumer }

/-- Move one producer. -/
@[simps -fullyApplied]
def setProducer [DecidableEq Thread] (state : State T Thread) (thread : Thread)
    (producer : Producer) : State T Thread :=
  { state with producers := Function.update state.producers thread producer }

/-- The next step of the consumer. `TryPop` returning false ends the `Drain`. -/
def consume (state : State T Thread) : Option (State T Thread) :=
  match state.consumer with
  | .idle => none
  | .loadConsumeEnd => some (state.setConsumer (.loadNext state.consumeEnd))
  | .loadNext node =>
    match node, (state.nodes node).next with
    | .stub, none => some (state.setConsumer .idle)
    | .stub, some next => some (state.setConsumer (.skipStub next))
    | node, some next => some (state.setConsumer (.advance node next))
    | node, none => some (state.setConsumer (.loadProduceEnd node))
  | .skipStub next => some ((state.storeConsumeEnd next).setConsumer (.reloadNext next))
  | .reloadNext node =>
    match (state.nodes node).next with
    | some next => some (state.setConsumer (.advance node next))
    | none => some (state.setConsumer (.loadProduceEnd node))
  | .advance node next => some ((state.storeConsumeEnd next).setConsumer (.take node))
  | .take node =>
    let out := (state.nodes node).value
    some ({ state with
      drained := state.drained ++ [out]
      popped := state.popped ++ [out] }.setConsumer (.free node))
  | .free node =>
    some ({ state with live := Function.update state.live node false }.setConsumer
      .loadConsumeEnd)
  | .loadProduceEnd node =>
    if node ≠ state.produceEnd then
      some (state.setConsumer .idle)
    else
      some (state.setConsumer (.clearStub node))
  | .clearStub node => some ((state.setNext .stub none).setConsumer (.exchangeStub node))
  | .exchangeStub node =>
    some ((state.exchangeProduceEnd .stub).setConsumer (.linkStub node state.produceEnd))
  | .linkStub node prev =>
    some ((state.setNext prev (some .stub)).setConsumer (.recheckNext node))
  | .recheckNext node =>
    match (state.nodes node).next with
    | some next => some (state.setConsumer (.advance node next))
    | none => some (state.setConsumer .idle)

end State

variable [DecidableEq Thread]

/-- One step. A new node is built at an address where none exists. -/
def step (state : State T Thread) : Action T Thread → Option (State T Thread)
  | .allocate thread address item =>
    match state.producers thread, state.live (.heap address) with
    | .idle, false =>
      some ({ state with
        nodes := Function.update state.nodes (.heap address) { value := item }
        live := Function.update state.live (.heap address) true }.setProducer thread
          (.allocated (.heap address)))
    | _, _ => none
  | .exchange thread =>
    match state.producers thread with
    | .allocated node =>
      some ({ state.exchangeProduceEnd node with
        pushed := state.pushed ++ [(state.nodes node).value] }.setProducer thread
          (.exchanged state.produceEnd node))
    | _ => none
  | .link thread =>
    match state.producers thread with
    | .exchanged prev node => some ((state.setNext prev (some node)).setProducer thread .idle)
    | _ => none
  | .drain =>
    match state.consumer with
    | .idle => some ({ state with drained := [] }.setConsumer .loadConsumeEnd)
    | _ => none
  | .consume => state.consume

/-- The constructor: the stub alone. -/
def initial [Inhabited T] : State T Thread where
  nodes _ := { value := default }
  live node := node == .stub
  consumeEnd := .stub
  produceEnd := .stub
  producers _ := .idle
  consumer := .idle
  drained := []
  order := [.stub]
  pushed := []
  popped := []

/-- The queue with its producers and its consumer. -/
def system (T Thread : Type) [DecidableEq Thread] [Inhabited T] :
    TransitionSystem (State T Thread) (Action T Thread) where
  Initial state := state = initial
  step := step

end UringServer.Core.Mpsc
