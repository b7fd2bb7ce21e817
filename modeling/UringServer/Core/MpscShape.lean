import UringServer.Core.MpscQueue
import UringServer.Semantics.LinkedList

/-!
# The shape of an `MpscQueue`

The nodes from `consume_end_` to `produce_end_` form a linked list with one gap for
each producer between its exchange and its store, and one for the consumer while
it pushes the stub. `Shape` says so, says which nodes the threads hold outside the
list, and accounts for every value: pushed values are popped, in the hand of the
consumer, or in the list.
-/

namespace UringServer.Core.Mpsc

open UringServer.Semantics

namespace Consumer

/-- The node the consumer found at `consume_end_`. -/
def node : Consumer → Option NodePtr
  | .loadNext node | .reloadNext node | .advance node _ | .loadProduceEnd node
  | .clearStub node | .exchangeStub node | .linkStub node _ | .recheckNext node => some node
  | .skipStub _ => some .stub
  | _ => none

/-- The node whose value the consumer is after. -/
def popping : Consumer → Option NodePtr
  | .reloadNext node | .advance node _ | .take node | .free node | .loadProduceEnd node
  | .clearStub node | .exchangeStub node | .linkStub node _ | .recheckNext node => some node
  | _ => none

/-- The successor the consumer found of the node at `consume_end_`. -/
def successor : Consumer → Option NodePtr
  | .skipStub next | .advance _ next => some next
  | _ => none

/-- The node the consumer took out of the list. -/
def removed : Consumer → Option NodePtr
  | .take node | .free node => some node
  | _ => none

/-- The node whose value the consumer has yet to move out. -/
def untaken : Consumer → Option NodePtr
  | .take node => some node
  | _ => none

/-- Whether the consumer is about to push the stub. -/
def pushesStub : Consumer → Bool
  | .clearStub _ | .exchangeStub _ => true
  | _ => false

/-- The node whose link to the stub the consumer has yet to store. -/
def unlinked : Consumer → Option NodePtr
  | .linkStub _ prev => some prev
  | _ => none

end Consumer

/-- The node of a `Push` under way. -/
def Producer.node : Producer → Option NodePtr
  | .idle => none
  | .allocated node | .exchanged _ node => some node

variable {node : NodePtr}

theorem Producer.node_of_allocated {producer : Producer}
    (allocated : producer = .allocated node) : producer.node = some node := by
  rw [allocated]
  rfl

theorem Producer.node_of_exchanged {producer : Producer} {prev node : NodePtr}
    (exchanged : producer = .exchanged prev node) : producer.node = some node := by
  rw [exchanged]
  rfl

theorem Producer.allocated_or_exchanged {producer : Producer} (owns : producer.node = some node) :
    producer = .allocated node ∨ ∃ prev, producer = .exchanged prev node := by
  cases producer with
  | idle => cases owns
  | allocated other =>
    cases owns
    exact .inl rfl
  | exchanged prev other =>
    cases owns
    exact .inr ⟨prev, rfl⟩

variable {T Thread : Type}

namespace State

/-- `node->next`. -/
def next (state : State T Thread) (node : NodePtr) : Option NodePtr := (state.nodes node).next

/-- The links that somebody has yet to store. -/
def Pending (state : State T Thread) (prev node : NodePtr) : Prop :=
  (∃ thread, state.producers thread = .exchanged prev node) ∨
    state.consumer.unlinked = some prev ∧ node = .stub

/-- The values of some nodes, without the stub. -/
def valuesOf (state : State T Thread) (nodes : List NodePtr) : List T :=
  (nodes.filter (· ≠ .stub)).map fun node => (state.nodes node).value

/-- The pushed values that are not popped. -/
def remaining (state : State T Thread) : List T :=
  state.valuesOf (state.consumer.untaken.toList ++ state.order)

end State

/-- What the consumer may rely on between its steps. -/
structure Placed (state : State T Thread) : Prop where
  front : ∀ {node}, state.consumer.node = some node → node = state.consumeEnd
  proper : ∀ {node}, state.consumer.popping = some node → node ≠ .stub
  link : ∀ {next}, state.consumer.successor = some next →
    state.next state.consumeEnd = some next
  removed : ∀ {node}, state.consumer.removed = some node →
    node ∉ state.order ∧ state.live node = true ∧
      ∀ thread, state.producers thread ≠ .allocated node
  stubOut : state.consumer.pushesStub = true → .stub ∉ state.order
  cleared : ∀ {node}, state.consumer = .exchangeStub node → state.next .stub = none

/-- What the producers hold. -/
structure Producing (state : State T Thread) : Prop where
  fresh : ∀ {thread node}, state.producers thread = .allocated node →
    node ∉ state.order ∧ state.live node = true ∧ state.next node = none
  heap : ∀ {thread node}, (state.producers thread).node = some node → node ≠ .stub
  apart : ∀ {thread other node}, (state.producers thread).node = some node →
    (state.producers other).node = some node → thread = other

variable {thread : Thread}

theorem Producing.allocated_ne_stub {state : State T Thread} (producing : Producing state)
    (allocated : state.producers thread = .allocated node) :
    node ≠ .stub :=
  producing.heap (Producer.node_of_allocated allocated)

theorem Producing.exchanged_ne_stub {state : State T Thread} (producing : Producing state)
    {prev node : NodePtr}
    (exchanged : state.producers thread = .exchanged prev node) : node ≠ .stub :=
  producing.heap (Producer.node_of_exchanged exchanged)

/-- What holds between any two steps of the queue. -/
structure Shape (state : State T Thread) : Prop where
  chained : Chained state.next state.Pending state.order state.consumeEnd state.produceEnd
  existing : ∀ {node}, node ∈ state.order ∨ node = .stub → state.live node = true
  producing : Producing state
  placed : Placed state
  values : state.pushed = state.popped ++ state.remaining

variable {state : State T Thread}

/-- Moving the consumer between two points with the same pending link and the
same value in hand. -/
theorem Shape.setConsumer (shape : Shape state) {consumer : Consumer}
    (sameLink : consumer.unlinked = state.consumer.unlinked)
    (sameValue : consumer.untaken = state.consumer.untaken)
    (placed : Placed (state.setConsumer consumer)) : Shape (state.setConsumer consumer) := by
  refine ⟨?_, shape.existing, ?_, placed, ?_⟩
  · apply shape.chained.congr
    · intro node _
      rfl
    · intro prev node
      simp [State.Pending, sameLink]
  · exact ⟨shape.producing.fresh, shape.producing.heap, shape.producing.apart⟩
  · rw [State.remaining, State.setConsumer_consumer, sameValue]
    exact shape.values

/-- The steps of the consumer that only load. -/
theorem Shape.load (shape : Shape state) {consumer : Consumer}
    (before : state.consumer.unlinked = none ∧ state.consumer.untaken = none)
    (after : consumer.unlinked = none ∧ consumer.untaken = none ∧ consumer.removed = none ∧
      ∀ node, consumer ≠ .exchangeStub node)
    (front : ∀ {node}, consumer.node = some node → node = state.consumeEnd)
    (proper : ∀ {node}, consumer.popping = some node → node ≠ .stub)
    (link : ∀ {next}, consumer.successor = some next → state.next state.consumeEnd = some next)
    (stubOut : consumer.pushesStub = true → .stub ∉ state.order) :
    Shape (state.setConsumer consumer) := by
  apply shape.setConsumer
  · rw [after.1, before.1]
  · rw [after.2.1, before.2]
  · refine ⟨front, proper, link, ?_, stubOut, ?_⟩
    · intro node removed
      simp [after.2.2.1] at removed
    · intro node exchanges
      exact absurd exchanges (after.2.2.2 node)

@[simp] theorem State.next_setConsumer (state : State T Thread) (consumer : Consumer) :
    (state.setConsumer consumer).next = state.next := rfl

@[simp] theorem State.next_setNext (state : State T Thread) (node : NodePtr)
    (next : Option NodePtr) :
    (state.setNext node next).next = Function.update state.next node next := by
  funext other
  by_cases same : other = node
  · simp [State.next, same]
  · simp [State.next, Function.update_of_ne same]

@[simp] theorem State.valuesOf_setNext (state : State T Thread) (node : NodePtr)
    (next : Option NodePtr) (nodes : List NodePtr) :
    (state.setNext node next).valuesOf nodes = state.valuesOf nodes := by
  unfold State.valuesOf
  congr 1
  funext other
  by_cases same : other = node
  · simp [same]
  · simp [Function.update_of_ne same]

/-- A node that some producer holds exists. -/
theorem Shape.live_of_node (shape : Shape state)
    (owns : (state.producers thread).node = some node) : state.live node = true := by
  rcases Producer.allocated_or_exchanged owns with allocated | ⟨prev, exchanged⟩
  · exact (shape.producing.fresh allocated).2.1
  · exact shape.existing (.inl (shape.chained.gaps (.inl ⟨thread, exchanged⟩)).1.mem_right)

theorem Shape.live_of_untaken (shape : Shape state)
    (inHand : state.consumer.untaken = some node) : state.live node = true := by
  cases at_ : state.consumer with
  | take other =>
    rw [at_] at inHand
    cases inHand
    refine (shape.placed.removed ?_).2.1
    rw [at_]
    rfl
  | _ => simp [at_, Consumer.untaken] at inHand

/-- A new node stays outside the list when another one enters it. -/
theorem Shape.fresh_append (shape : Shape state) {node other : NodePtr}
    (allocated : state.producers thread = .allocated other) (different : other ≠ node) :
    other ∉ state.order ++ [node] ∧ state.live other = true ∧ state.next other = none := by
  obtain ⟨outside, exists_, ended⟩ := shape.producing.fresh allocated
  exact ⟨by simp [outside, different], exists_, ended⟩

/-- A new node stays unlinked when a node of the list is linked. -/
theorem Shape.fresh_setNext (shape : Shape state) {prev other : NodePtr}
    (allocated : state.producers thread = .allocated other) (member : prev ∈ state.order)
    (next : Option NodePtr) :
    other ∉ state.order ∧ state.live other = true ∧
      (state.setNext prev next).next other = none := by
  obtain ⟨outside, exists_, ended⟩ := shape.producing.fresh allocated
  have different : other ≠ prev := by
    rintro rfl
    exact outside member
  refine ⟨outside, exists_, ?_⟩
  rw [State.next_setNext, Function.update_of_ne different]
  exact ended

end UringServer.Core.Mpsc
