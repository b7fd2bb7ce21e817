import UringServer.Core.MpscConsumer

/-!
# The producers keep the shape of an `MpscQueue`

A `Push` allocates its node, exchanges `produce_end_`, and stores the link. With
the steps of the consumer, every step keeps the shape, so every reachable state
has it.
-/

namespace UringServer.Core.Mpsc

open UringServer.Semantics

variable {T Thread : Type} {state : State T Thread}

variable [DecidableEq Thread] {producers : Thread → Producer} {thread : Thread}
  {producer : Producer}

/-- Which producers are between their two stores after one moved. -/
theorem exists_exchanged_update {prev node : NodePtr} :
    (∃ other, Function.update producers thread producer other = .exchanged prev node) ↔
      producer = .exchanged prev node ∨
        ∃ other, other ≠ thread ∧ producers other = .exchanged prev node := by
  constructor
  · rintro ⟨other, found⟩
    by_cases same : other = thread
    · subst same
      exact .inl (by simpa using found)
    · exact .inr ⟨other, same, by simpa [Function.update_of_ne same] using found⟩
  · rintro (moved | ⟨other, different, found⟩)
    · exact ⟨thread, by simpa using moved⟩
    · exact ⟨other, by simpa [Function.update_of_ne different] using found⟩

omit [DecidableEq Thread] in
/-- A producer that is not between its two stores does not count. -/
theorem exists_exchanged_of_ne {prev node : NodePtr}
    (elsewhere : producers thread ≠ .exchanged prev node) :
    (∃ other, other ≠ thread ∧ producers other = .exchanged prev node) ↔
      ∃ other, producers other = .exchanged prev node := by
  constructor
  · rintro ⟨other, _, found⟩
    exact ⟨other, found⟩
  · rintro ⟨other, found⟩
    refine ⟨other, ?_, found⟩
    rintro rfl
    exact elsewhere found

theorem node_update {other : Thread} {node : NodePtr}
    (owns : (Function.update producers thread producer other).node = some node) :
    other = thread ∧ producer.node = some node ∨
      other ≠ thread ∧ (producers other).node = some node := by
  by_cases same : other = thread
  · subst same
    exact .inl ⟨rfl, by simpa using owns⟩
  · exact .inr ⟨same, by simpa [Function.update_of_ne same] using owns⟩

theorem allocated_update {other : Thread} {node : NodePtr}
    (allocated : Function.update producers thread producer other = .allocated node) :
    producer = .allocated node ∨ other ≠ thread ∧ producers other = .allocated node := by
  by_cases same : other = thread
  · subst same
    exact .inl (by simpa using allocated)
  · exact .inr ⟨same, by simpa [Function.update_of_ne same] using allocated⟩

/-- Nodes stay apart when the moved producer holds none or one of its own. -/
theorem apart_update
    (apart : ∀ {first second node}, (producers first).node = some node →
      (producers second).node = some node → first = second)
    (own : ∀ {other node}, producer.node = some node → (producers other).node = some node →
      other = thread) {first second : Thread} {node : NodePtr}
    (firstOwns : (Function.update producers thread producer first).node = some node)
    (secondOwns : (Function.update producers thread producer second).node = some node) :
    first = second := by
  rcases node_update firstOwns with ⟨rfl, holds⟩ | ⟨_, firstHolds⟩
  · rcases node_update secondOwns with ⟨rfl, _⟩ | ⟨_, secondHolds⟩
    · rfl
    · exact (own holds secondHolds).symm
  · rcases node_update secondOwns with ⟨rfl, holds⟩ | ⟨_, secondHolds⟩
    · exact own holds firstHolds
    · exact apart firstHolds secondHolds

/-- A new node is not in the list yet. -/
theorem Shape.allocate (shape : Shape state) {address : Nat} {item : T}
    (idle : state.producers thread = .idle) (unused : state.live (.heap address) = false) :
    Shape ({ state with
      nodes := Function.update state.nodes (.heap address) { value := item }
      live := Function.update state.live (.heap address) true }.setProducer thread
        (.allocated (.heap address))) := by
  have different : ∀ node, state.live node = true → node ≠ .heap address := by
    rintro node exists_ rfl
    simp [unused] at exists_
  have sameNode : ∀ node, state.live node = true →
      Function.update state.nodes (.heap address) { value := item } node = state.nodes node := by
    intro node exists_
    rw [Function.update_of_ne (different node exists_)]
  have stillLive : ∀ node, state.live node = true →
      Function.update state.live (.heap address) true node = true := by
    intro node exists_
    rwa [Function.update_of_ne (different node exists_)]
  have front := shape.existing (.inl shape.chained.first_mem)
  refine ⟨?_, ?_, ⟨?_, ?_, ?_⟩, ⟨shape.placed.front, shape.placed.proper, ?_, ?_,
    shape.placed.stubOut, ?_⟩, ?_⟩
  · apply shape.chained.congr
    · intro node member
      exact congrArg Node.next (sameNode node (shape.existing (.inl member)))
    · intro prev node
      have elsewhere : state.producers thread ≠ .exchanged prev node := by simp [idle]
      simp only [State.Pending, State.setProducer_producers, exists_exchanged_update,
        exists_exchanged_of_ne elsewhere, reduceCtorEq, false_or]
      rfl
  · intro node member
    exact stillLive node (shape.existing member)
  · intro other node allocated
    rcases allocated_update allocated with same | ⟨_, before⟩
    · cases same
      refine ⟨?_, Function.update_self .., ?_⟩
      · intro member
        exact different _ (shape.existing (.inl member)) rfl
      · simp [State.next]
    · obtain ⟨outside, exists_, ended⟩ := shape.producing.fresh before
      exact ⟨outside, stillLive node exists_, (congrArg Node.next (sameNode node exists_)).trans
        ended⟩
  · intro other node owns
    rcases node_update owns with ⟨_, holds⟩ | ⟨_, holds⟩
    · cases holds
      simp
    · exact shape.producing.heap holds
  · apply apart_update shape.producing.apart
    rintro other node ⟨⟩ holds
    exact absurd rfl (different _ (shape.live_of_node holds))
  · intro next found
    have link := shape.placed.link found
    exact (congrArg Node.next (sameNode _ front)).trans link
  · intro node removed
    obtain ⟨gone, exists_, unowned⟩ := shape.placed.removed removed
    refine ⟨gone, stillLive node exists_, ?_⟩
    intro other allocated
    rcases allocated_update allocated with same | ⟨_, before⟩
    · cases same
      exact different _ exists_ rfl
    · exact unowned other before
  · intro node running
    exact shape.placed.cleared running
  · refine shape.values.trans (congrArg (state.popped ++ ·) (List.map_congr_left ?_).symm)
    intro node member
    refine congrArg Node.value (sameNode node ?_)
    rcases List.mem_append.mp (List.mem_of_mem_filter member) with inHand | inside
    · exact shape.live_of_untaken (Option.mem_toList.mp inHand)
    · exact shape.existing (.inl inside)

/-- The exchange leaves one more link to be stored. -/
theorem pending_exchange {node prev other : NodePtr}
    (allocated : state.producers thread = .allocated node) :
    ({ state.exchangeProduceEnd node with
      pushed := state.pushed ++ [(state.nodes node).value] }.setProducer thread
        (.exchanged state.produceEnd node)).Pending prev other ↔
      state.Pending prev other ∨ (prev = state.produceEnd ∧ other = node) := by
  have elsewhere : state.producers thread ≠ .exchanged prev other := by simp [allocated]
  simp only [State.Pending, State.setProducer_producers, exists_exchanged_update,
    State.exchangeProduceEnd_producers, exists_exchanged_of_ne elsewhere,
    Producer.exchanged.injEq]
  constructor
  · rintro ((⟨rfl, rfl⟩ | pending) | stubPending)
    · exact .inr ⟨rfl, rfl⟩
    · exact .inl (.inl pending)
    · exact .inl (.inr stubPending)
  · rintro ((pending | stubPending) | ⟨rfl, rfl⟩)
    · exact .inl (.inr pending)
    · exact .inr stubPending
    · exact .inl (.inl ⟨rfl, rfl⟩)

/-- The exchange adds a node behind a missing link. -/
theorem Shape.exchange (shape : Shape state) {node : NodePtr}
    (allocated : state.producers thread = .allocated node) :
    Shape ({ state.exchangeProduceEnd node with
      pushed := state.pushed ++ [(state.nodes node).value] }.setProducer thread
        (.exchanged state.produceEnd node)) := by
  obtain ⟨outside, exists_, ended⟩ := shape.producing.fresh allocated
  have proper := shape.producing.allocated_ne_stub allocated
  have owns := Producer.node_of_allocated allocated
  refine ⟨?_, ?_, ⟨?_, ?_, ?_⟩, ⟨shape.placed.front, shape.placed.proper, shape.placed.link,
    ?_, ?_, shape.placed.cleared⟩, ?_⟩
  · apply (shape.chained.append outside ended).congr
    · intro other _
      rfl
    · exact fun _ _ => pending_exchange allocated
  · rintro other (member | rfl)
    · rcases List.mem_append.mp member with before | new
      · exact shape.existing (.inl before)
      · rw [List.mem_singleton.mp new]
        exact exists_
    · exact shape.existing (.inr rfl)
  · intro other otherNode otherAllocated
    rcases allocated_update otherAllocated with same | ⟨different, before⟩
    · cases same
    · apply shape.fresh_append before
      rintro rfl
      exact different (shape.producing.apart (Producer.node_of_allocated before) owns)
  · intro other otherNode otherOwns
    rcases node_update otherOwns with ⟨_, holds⟩ | ⟨_, holds⟩
    · cases holds
      exact proper
    · exact shape.producing.heap holds
  · apply apart_update shape.producing.apart
    rintro other otherNode ⟨⟩ holds
    exact shape.producing.apart holds owns
  · intro removed taken
    obtain ⟨gone, removedExists, unowned⟩ := shape.placed.removed taken
    refine ⟨?_, removedExists, ?_⟩
    · intro member
      rcases List.mem_append.mp member with inside | new
      · exact gone inside
      · rw [List.mem_singleton.mp new] at unowned
        exact unowned thread allocated
    · intro other otherAllocated
      rcases allocated_update otherAllocated with same | ⟨_, before⟩
      · cases same
      · exact unowned other before
  · intro pushes member
    rcases List.mem_append.mp member with inside | new
    · exact shape.placed.stubOut pushes inside
    · exact proper (List.mem_singleton.mp new).symm
  · change state.pushed ++ [(state.nodes node).value] = state.popped ++
      state.valuesOf (state.consumer.untaken.toList ++ (state.order ++ [node]))
    rw [shape.values, List.append_assoc, ← List.append_assoc, ← List.append_assoc]
    simp [State.remaining, State.valuesOf, proper]

/-- The store of a link leaves the others to be stored. -/
theorem Shape.pending_link (shape : Shape state) {prev node before after : NodePtr}
    (exchanged : state.producers thread = .exchanged prev node) :
    ((state.setNext prev (some node)).setProducer thread .idle).Pending before after ↔
      state.Pending before after ∧ before ≠ prev := by
  obtain ⟨follows, -⟩ := shape.chained.gaps (.inl ⟨thread, exchanged⟩)
  have owns := Producer.node_of_exchanged exchanged
  simp only [State.Pending, State.setProducer_producers, exists_exchanged_update,
    State.setNext_producers, reduceCtorEq, false_or]
  constructor
  · rintro (⟨other, different, found⟩ | stubPending)
    · refine ⟨.inl ⟨other, found⟩, ?_⟩
      rintro rfl
      obtain ⟨otherFollows, _⟩ := shape.chained.gaps (.inl ⟨other, found⟩)
      cases follows.unique shape.chained.distinct otherFollows
      exact different (shape.producing.apart (Producer.node_of_exchanged found) owns)
    · refine ⟨.inr stubPending, ?_⟩
      rintro rfl
      obtain ⟨stubFollows, _⟩ := shape.chained.gaps (.inr stubPending)
      cases follows.unique shape.chained.distinct stubFollows
      exact shape.producing.exchanged_ne_stub exchanged stubPending.2
  · rintro ⟨⟨other, found⟩ | stubPending, different⟩
    · refine .inl ⟨other, ?_, found⟩
      rintro rfl
      cases exchanged.symm.trans found
      exact different rfl
    · exact .inr stubPending

/-- The store of `next` supplies the link. -/
theorem Shape.link (shape : Shape state) {prev node : NodePtr}
    (exchanged : state.producers thread = .exchanged prev node) :
    Shape ((state.setNext prev (some node)).setProducer thread .idle) := by
  have missing : state.Pending prev node := .inl ⟨thread, exchanged⟩
  obtain ⟨follows, ended⟩ := shape.chained.gaps missing
  refine ⟨?_, shape.existing, ⟨?_, ?_, ?_⟩, ⟨shape.placed.front, shape.placed.proper, ?_,
    ?_, shape.placed.stubOut, ?_⟩, ?_⟩
  · apply (shape.chained.fill missing).congr
    · intro other _
      rw [← State.next_setNext]
      rfl
    · exact fun _ _ => shape.pending_link exchanged
  · intro other otherNode otherAllocated
    rcases allocated_update otherAllocated with same | ⟨_, before⟩
    · cases same
    · exact shape.fresh_setNext before follows.mem_left _
  · intro other otherNode otherOwns
    rcases node_update otherOwns with ⟨_, holds⟩ | ⟨_, holds⟩
    · cases holds
    · exact shape.producing.heap holds
  · apply apart_update shape.producing.apart
    rintro other otherNode ⟨⟩
  · intro next found
    have link := shape.placed.link found
    have different : state.consumeEnd ≠ prev := by
      rintro same
      rw [same, ended] at link
      cases link
    change (state.setNext prev (some node)).next state.consumeEnd = some next
    rw [State.next_setNext, Function.update_of_ne different]
    exact link
  · intro removed taken
    obtain ⟨gone, removedExists, unowned⟩ := shape.placed.removed taken
    refine ⟨gone, removedExists, ?_⟩
    intro other otherAllocated
    rcases allocated_update otherAllocated with same | ⟨_, before⟩
    · cases same
    · exact unowned other before
  · intro stubNode running
    have different : NodePtr.stub ≠ prev := by
      rintro rfl
      refine shape.placed.stubOut ?_ follows.mem_left
      rw [show state.consumer = .exchangeStub stubNode from running]
      rfl
    change (state.setNext prev (some node)).next .stub = none
    rw [State.next_setNext, Function.update_of_ne different]
    exact shape.placed.cleared running
  · refine shape.values.trans (congrArg (state.popped ++ ·) ?_)
    exact (State.valuesOf_setNext ..).symm

/-- Every step keeps the shape. -/
theorem Shape.step {next : State T Thread} {action : Action T Thread} (shape : Shape state)
    (stepped : step state action = some next) : Shape next := by
  cases action with
  | allocate thread address item =>
    simp only [Mpsc.step] at stepped
    split at stepped
    case h_1 idle unused =>
        cases stepped
        exact shape.allocate idle unused
    case h_2 => cases stepped
  | exchange thread =>
    simp only [Mpsc.step] at stepped
    split at stepped
    case h_1 node allocated =>
        cases stepped
        exact shape.exchange allocated
    case h_2 => cases stepped
  | link thread =>
    simp only [Mpsc.step] at stepped
    split at stepped
    case h_1 prev node exchanged =>
        cases stepped
        exact shape.link exchanged
    case h_2 => cases stepped
  | drain =>
    simp only [Mpsc.step] at stepped
    split at stepped
    case h_1 idle =>
        cases stepped
        exact shape.drain idle
    case h_2 => cases stepped
  | consume => exact shape.consume stepped

omit [DecidableEq Thread] in
theorem initial_shape [Inhabited T] : Shape (initial : State T Thread) := by
  refine ⟨.singleton rfl ?_, ?_, ⟨?_, ?_, ?_⟩, ⟨?_, ?_, ?_, ?_, ?_, ?_⟩, rfl⟩
  · simp [State.Pending, initial, Consumer.unlinked]
  · simp [initial]
  all_goals simp [initial, Producer.node, Consumer.node, Consumer.popping, Consumer.successor,
    Consumer.removed, Consumer.pushesStub]

/-- Every state the queue can reach has the shape. -/
theorem reachable_shape [Inhabited T] (reachable : (system T Thread).Reachable everyStep state) :
    Shape state := by
  apply reachable.invariant Shape
  · rintro _ rfl
    exact initial_shape
  · intro before action next shape _ transition
    exact shape.step transition

end UringServer.Core.Mpsc
