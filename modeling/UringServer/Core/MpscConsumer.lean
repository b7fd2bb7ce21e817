import UringServer.Core.MpscShape

/-!
# The consumer keeps the shape of an `MpscQueue`

One lemma for each kind of step of `Drain` and `TryPop`. The loads only move the
consumer; the stores take a node out of the list, hand out its value, delete it, or
push the stub.
-/

namespace UringServer.Core.Mpsc

open UringServer.Semantics

variable {T Thread : Type} {state : State T Thread}

attribute [local simp] Consumer.node Consumer.popping Consumer.successor Consumer.removed
  Consumer.untaken Consumer.pushesStub Consumer.unlinked

/-- The consumer found the successor of a node that it will pop. -/
theorem Shape.foundNext (shape : Shape state) {node next : NodePtr}
    (before : state.consumer.unlinked = none ∧ state.consumer.untaken = none)
    (front : node = state.consumeEnd) (proper : node ≠ .stub)
    (found : state.next node = some next) : Shape (state.setConsumer (.advance node next)) := by
  apply shape.load before
  · simp
  · simpa using front
  · simpa using proper
  · simpa [← front] using found
  · simp

variable {node : NodePtr}

/-- The consumer found no successor of a node that it wants to pop. -/
theorem Shape.foundLast (shape : Shape state)
    (before : state.consumer.unlinked = none ∧ state.consumer.untaken = none)
    (front : node = state.consumeEnd) (proper : node ≠ .stub) :
    Shape (state.setConsumer (.loadProduceEnd node)) := by
  apply shape.load before
  · simp
  · simpa using front
  · simpa using proper
  · simp
  · simp

/-- `TryPop` returns false. -/
theorem Shape.finish (shape : Shape state)
    (before : state.consumer.unlinked = none ∧ state.consumer.untaken = none) :
    Shape (state.setConsumer .idle) := by
  apply shape.load before <;> simp

/-- The load of `produce_end_` shows that the node is the only one. -/
theorem Shape.foundOnly (shape : Shape state)
    (before : state.consumer.unlinked = none ∧ state.consumer.untaken = none)
    (front : node = state.consumeEnd) (proper : node ≠ .stub)
    (only : node = state.produceEnd) : Shape (state.setConsumer (.clearStub node)) := by
  have alone := shape.chained.eq_singleton (front.symm.trans only)
  apply shape.load before
  · simp
  · simpa using front
  · simpa using proper
  · simp
  · intro _
    rw [alone, ← front]
    simpa using proper.symm

/-- Moving `consume_end_` past the first node leaves the rest of the chain, and takes no node
from a producer. -/
theorem Shape.storeConsumeEnd (shape : Shape state) {next : NodePtr} {consumer : Consumer}
    (link : state.next state.consumeEnd = some next)
    (sameLink : consumer.unlinked = state.consumer.unlinked)
    (placed : Placed ((state.storeConsumeEnd next).setConsumer consumer))
    (values : state.pushed = state.popped ++
      ((state.storeConsumeEnd next).setConsumer consumer).remaining) :
    Shape ((state.storeConsumeEnd next).setConsumer consumer) := by
  refine ⟨?_, ?_, ⟨?_, shape.producing.heap, shape.producing.apart⟩, placed, values⟩
  · apply (shape.chained.advance link).1.congr
    · intro node _
      rfl
    · intro prev node
      rw [State.Pending, State.setConsumer_consumer, sameLink]
      rfl
  · intro node member
    exact shape.existing (member.imp_left List.mem_of_mem_tail)
  · intro thread node allocated
    obtain ⟨outside, exists_, ended⟩ := shape.producing.fresh allocated
    exact ⟨fun member => outside (List.mem_of_mem_tail member), exists_, ended⟩

theorem Shape.skipStub (shape : Shape state) {next : NodePtr}
    (running : state.consumer = .skipStub next) :
    Shape ((state.storeConsumeEnd next).setConsumer (.reloadNext next)) := by
  have front : .stub = state.consumeEnd := shape.placed.front (by simp [running])
  have link : state.next state.consumeEnd = some next :=
    shape.placed.link (by simp [running])
  obtain ⟨chained, gone⟩ := shape.chained.advance link
  rw [← front] at gone
  obtain ⟨rest, whole⟩ := List.head?_eq_some_iff.mp shape.chained.starts
  refine shape.storeConsumeEnd link (by simp [running]) ⟨?_, ?_, ?_, ?_, ?_, ?_⟩ ?_
  · simp
  · rintro node ⟨⟩ rfl
    exact gone chained.first_mem
  · simp
  · simp
  · simp
  · simp
  · simpa [State.remaining, State.valuesOf, running, whole, ← front] using
      shape.values

theorem Shape.advance (shape : Shape state) {node next : NodePtr}
    (running : state.consumer = .advance node next) :
    Shape ((state.storeConsumeEnd next).setConsumer (.take node)) := by
  have front : node = state.consumeEnd := shape.placed.front (by simp [running])
  have proper : node ≠ .stub := shape.placed.proper (by simp [running])
  have link : state.next state.consumeEnd = some next :=
    shape.placed.link (by simp [running])
  have gone := (shape.chained.advance link).2
  rw [← front] at gone
  have member := shape.chained.first_mem
  rw [← front] at member
  obtain ⟨rest, whole⟩ := List.head?_eq_some_iff.mp shape.chained.starts
  refine shape.storeConsumeEnd link (by simp [running]) ⟨?_, ?_, ?_, ?_, ?_, ?_⟩ ?_
  · simp
  · simpa using proper
  · simp
  · rintro other ⟨⟩
    refine ⟨gone, shape.existing (.inl member), ?_⟩
    intro thread allocated
    exact (shape.producing.fresh allocated).1 member
  · simp
  · simp
  · simpa [State.remaining, State.valuesOf, running, whole, ← front] using
      shape.values

theorem Shape.take (shape : Shape state) (running : state.consumer = .take node) :
    Shape ({ state with
      drained := state.drained ++ [(state.nodes node).value]
      popped := state.popped ++ [(state.nodes node).value] }.setConsumer (.free node)) := by
  have proper : node ≠ .stub := shape.placed.proper (by simp [running])
  have removed : state.consumer.removed = some node := by simp [running]
  refine ⟨?_, shape.existing, ⟨shape.producing.fresh, shape.producing.heap,
    shape.producing.apart⟩, ⟨?_, ?_, ?_, ?_, ?_, ?_⟩, ?_⟩
  · apply shape.chained.congr
    · intro node _
      rfl
    · intro prev node
      simp [State.Pending, running]
  · simp
  · simpa using proper
  · simp
  · rintro other ⟨⟩
    exact shape.placed.removed removed
  · simp
  · simp
  · simpa [State.remaining, State.valuesOf, running, proper] using shape.values

theorem Shape.free (shape : Shape state) (running : state.consumer = .free node) :
    Shape ({ state with live := Function.update state.live node false }.setConsumer
      .loadConsumeEnd) := by
  have proper : node ≠ .stub := shape.placed.proper (by simp [running])
  have removed : state.consumer.removed = some node := by simp [running]
  obtain ⟨gone, _, unowned⟩ := shape.placed.removed removed
  refine ⟨?_, ?_, ⟨?_, shape.producing.heap, shape.producing.apart⟩, ⟨?_, ?_, ?_, ?_, ?_, ?_⟩, ?_⟩
  · apply shape.chained.congr
    · intro node _
      rfl
    · intro prev node
      simp [State.Pending, running]
  · intro other member
    have different : other ≠ node := by
      rintro rfl
      exact member.elim gone proper
    simpa [Function.update_of_ne different] using shape.existing member
  · intro thread other allocated
    obtain ⟨outside, exists_, ended⟩ := shape.producing.fresh allocated
    have different : other ≠ node := by
      rintro rfl
      exact unowned thread allocated
    refine ⟨outside, ?_, ended⟩
    simpa [Function.update_of_ne different] using exists_
  · simp
  · simp
  · simp
  · simp
  · simp
  · simp
  · simpa [State.remaining, State.valuesOf, running] using shape.values

theorem Shape.clearStub (shape : Shape state) (running : state.consumer = .clearStub node) :
    Shape ((state.setNext .stub none).setConsumer (.exchangeStub node)) := by
  have front : node = state.consumeEnd := shape.placed.front (by simp [running])
  have proper : node ≠ .stub := shape.placed.proper (by simp [running])
  have stubOut := shape.placed.stubOut (by simp [running])
  refine ⟨?_, shape.existing, ⟨?_, shape.producing.heap, shape.producing.apart⟩,
    ⟨?_, ?_, ?_, ?_, ?_, ?_⟩, ?_⟩
  · apply shape.chained.congr
    · intro other member
      have different : other ≠ .stub := by
        rintro rfl
        exact stubOut member
      simp [Function.update_of_ne different]
    · intro prev other
      simp [State.Pending, running]
  · intro thread other allocated
    obtain ⟨outside, exists_, ended⟩ := shape.producing.fresh allocated
    have different : other ≠ .stub := shape.producing.allocated_ne_stub allocated
    refine ⟨outside, exists_, ?_⟩
    simpa [Function.update_of_ne different] using ended
  · simpa using front
  · simpa using proper
  · simp
  · simp
  · intro _
    exact stubOut
  · simp
  · have same : ((state.setNext .stub none).setConsumer (.exchangeStub node)).remaining =
        state.remaining := by
      rw [State.remaining, State.remaining, running]
      exact State.valuesOf_setNext state _ _ _
    rw [same]
    exact shape.values

theorem Shape.exchangeStub (shape : Shape state) (running : state.consumer = .exchangeStub node) :
    Shape ((state.exchangeProduceEnd .stub).setConsumer (.linkStub node state.produceEnd)) := by
  have front : node = state.consumeEnd := shape.placed.front (by simp [running])
  have proper : node ≠ .stub := shape.placed.proper (by simp [running])
  have stubOut := shape.placed.stubOut (by simp [running])
  have chained := shape.chained.append stubOut (shape.placed.cleared running)
  refine ⟨?_, ?_, ⟨?_, shape.producing.heap, shape.producing.apart⟩,
    ⟨?_, ?_, ?_, ?_, ?_, ?_⟩, ?_⟩
  · apply chained.congr
    · intro other _
      rfl
    · intro prev other
      simp [State.Pending, running, eq_comm]
  · intro other member
    apply shape.existing
    simpa [or_assoc] using member
  · intro thread other allocated
    exact shape.fresh_append allocated (shape.producing.allocated_ne_stub allocated)
  · simpa using front
  · simpa using proper
  · simp
  · simp
  · simp
  · simp
  · simpa [State.remaining, State.valuesOf, running] using shape.values

theorem Shape.linkStub (shape : Shape state) {node prev : NodePtr}
    (running : state.consumer = .linkStub node prev) :
    Shape ((state.setNext prev (some .stub)).setConsumer (.recheckNext node)) := by
  have front : node = state.consumeEnd := shape.placed.front (by simp [running])
  have proper : node ≠ .stub := shape.placed.proper (by simp [running])
  have missing : state.Pending prev .stub := .inr (by simp [running])
  obtain ⟨here, _⟩ := shape.chained.gaps missing
  refine ⟨?_, shape.existing, ⟨?_, shape.producing.heap, shape.producing.apart⟩,
    ⟨?_, ?_, ?_, ?_, ?_, ?_⟩, ?_⟩
  · apply (shape.chained.fill missing).congr
    · intro other _
      simp
    · intro before after
      simp only [State.Pending, State.setConsumer_producers, State.setNext_producers,
        State.setConsumer_consumer, running, Consumer.unlinked]
      constructor
      · rintro (⟨thread, exchanged⟩ | ⟨⟨⟩, _⟩)
        refine ⟨.inl ⟨thread, exchanged⟩, ?_⟩
        rintro rfl
        have there := (shape.chained.gaps (.inl ⟨thread, exchanged⟩)).1
        exact shape.producing.exchanged_ne_stub exchanged
          (there.unique shape.chained.distinct here)
      · rintro ⟨byProducer | ⟨same, _⟩, different⟩
        · exact .inl byProducer
        · exact absurd (Option.some.inj same).symm different
  · intro thread other allocated
    exact shape.fresh_setNext allocated here.mem_left _
  · simpa using front
  · simpa using proper
  · simp
  · simp
  · simp
  · simp
  · have same : ((state.setNext prev (some .stub)).setConsumer (.recheckNext node)).remaining =
        state.remaining := by
      rw [State.remaining, State.remaining, running]
      exact State.valuesOf_setNext state _ _ _
    rw [same]
    exact shape.values

theorem Shape.drain (shape : Shape state) (idle : state.consumer = .idle) :
    Shape ({ state with drained := [] }.setConsumer .loadConsumeEnd) := by
  have started : Shape { state with drained := [] } :=
    ⟨shape.chained, shape.existing, ⟨shape.producing.fresh, shape.producing.heap,
      shape.producing.apart⟩, ⟨shape.placed.front, shape.placed.proper, shape.placed.link,
      shape.placed.removed, shape.placed.stubOut, shape.placed.cleared⟩, shape.values⟩
  apply started.load
  · simp [idle]
  · simp
  · simp
  · simp
  · simp
  · simp

/-- Every step of the consumer keeps the shape. -/
theorem Shape.consume (shape : Shape state) {after : State T Thread}
    (transition : state.consume = some after) : Shape after := by
  cases running : state.consumer with
  | idle => simp [State.consume, running] at transition
  | loadConsumeEnd =>
    simp only [State.consume, running, Option.some.injEq] at transition
    subst transition
    apply shape.load <;> simp [running]
  | loadNext node =>
    have front : node = state.consumeEnd :=
      shape.placed.front (by simp [running])
    have before : state.consumer.unlinked = none ∧ state.consumer.untaken = none := by
      simp [running]
    simp only [State.consume, running] at transition
    split at transition <;> cases transition
    · exact shape.finish before
    case h_2 next found =>
      apply shape.load before
      · simp
      · simpa using front
      · simp
      · simpa [State.next, ← front] using found
      · simp
    case h_3 next proper found => exact shape.foundNext before front proper found
    case h_4 proper found => exact shape.foundLast before front proper
  | skipStub next =>
    simp only [State.consume, running, Option.some.injEq] at transition
    subst transition
    exact shape.skipStub running
  | reloadNext node =>
    have front : node = state.consumeEnd :=
      shape.placed.front (by simp [running])
    have proper : node ≠ .stub := shape.placed.proper (by simp [running])
    have before : state.consumer.unlinked = none ∧ state.consumer.untaken = none := by
      simp [running]
    simp only [State.consume, running] at transition
    split at transition <;> cases transition
    case h_1 next found => exact shape.foundNext before front proper found
    case h_2 found => exact shape.foundLast before front proper
  | advance node next =>
    simp only [State.consume, running, Option.some.injEq] at transition
    subst transition
    exact shape.advance running
  | take node =>
    simp only [State.consume, running, Option.some.injEq] at transition
    subst transition
    exact shape.take running
  | free node =>
    simp only [State.consume, running, Option.some.injEq] at transition
    subst transition
    exact shape.free running
  | loadProduceEnd node =>
    have front : node = state.consumeEnd :=
      shape.placed.front (by simp [running])
    have proper : node ≠ .stub := shape.placed.proper (by simp [running])
    have before : state.consumer.unlinked = none ∧ state.consumer.untaken = none := by
      simp [running]
    simp only [State.consume, running] at transition
    split at transition
    case isTrue =>
      cases transition
      exact shape.finish before
    case isFalse only =>
      cases transition
      exact shape.foundOnly before front proper (not_not.mp only)
  | clearStub node =>
    simp only [State.consume, running, Option.some.injEq] at transition
    subst transition
    exact shape.clearStub running
  | exchangeStub node =>
    simp only [State.consume, running, Option.some.injEq] at transition
    subst transition
    exact shape.exchangeStub running
  | linkStub node prev =>
    simp only [State.consume, running, Option.some.injEq] at transition
    subst transition
    exact shape.linkStub running
  | recheckNext node =>
    have front : node = state.consumeEnd :=
      shape.placed.front (by simp [running])
    have proper : node ≠ .stub := shape.placed.proper (by simp [running])
    have before : state.consumer.unlinked = none ∧ state.consumer.untaken = none := by
      simp [running]
    simp only [State.consume, running] at transition
    split at transition <;> cases transition
    case h_1 next found => exact shape.foundNext before front proper found
    case h_2 found => exact shape.finish before

end UringServer.Core.Mpsc
