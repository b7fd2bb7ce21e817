import UringServer.Core.MpscConsumer

/-!
# A `Drain` without unfinished pushes

Every step of the consumer brings it closer to the end of its `Drain`. While no
producer is between its exchange and its store, the consumer meets no gap, so it
stops only at the stub with everything handed out.
-/

namespace UringServer.Core.Mpsc

open UringServer.Semantics

variable {T Thread : Type} {state : State T Thread}

namespace Consumer

/-- The steps the consumer has left in a `TryPop` that finds one node. -/
def rank : Consumer → Nat
  | .idle => 0
  | .advance _ _ => 1
  | .recheckNext _ => 2
  | .linkStub _ _ => 3
  | .exchangeStub _ => 4
  | .clearStub _ => 5
  | .loadProduceEnd _ => 6
  | .reloadNext _ => 7
  | .skipStub _ => 8
  | .loadNext _ => 9
  | .loadConsumeEnd => 10
  | .free _ => 11
  | .take _ => 12

end Consumer

namespace State

/-- A bound on the steps the consumer can take while no producer exchanges. -/
def stepsLeft (state : State T Thread) : Nat :=
  13 * (state.order.filter (· ≠ .stub)).length + state.consumer.rank

/-- No producer is between its exchange and its store. -/
def Quiet (state : State T Thread) : Prop :=
  ∀ thread prev node, state.producers thread ≠ .exchanged prev node

/-- Where a consumer stands that has met no unfinished push. -/
def OnTrack (state : State T Thread) : Prop :=
  match state.consumer with
  | .idle => state.order = [.stub]
  | .loadProduceEnd node | .clearStub node | .exchangeStub node => node = state.produceEnd
  | .linkStub node _ | .recheckNext node => node ≠ state.produceEnd
  | _ => True

end State

/-- The consumer moves forward unless it is idle. -/
theorem exists_consume (running : state.consumer ≠ .idle) :
    ∃ next, state.consume = some next := by
  unfold State.consume
  split
  case h_1 idle => exact absurd idle running
  all_goals (try split) <;> exact ⟨_, rfl⟩

/-- Every step of the consumer brings it closer to the end of its `Drain`. -/
theorem Shape.stepsLeft_consume (shape : Shape state) {next : State T Thread}
    (stepped : state.consume = some next) : next.stepsLeft < state.stepsLeft := by
  obtain ⟨rest, whole⟩ := List.head?_eq_some_iff.mp shape.chained.starts
  unfold State.stepsLeft
  cases running : state.consumer with
  | skipStub node =>
    have front : .stub = state.consumeEnd := shape.placed.front (by simp [running, Consumer.node])
    simp only [State.consume, running, Option.some.injEq] at stepped
    subst stepped
    simp [whole, ← front, Consumer.rank]
  | advance node following =>
    have front : node = state.consumeEnd := shape.placed.front (by simp [running, Consumer.node])
    have proper : node ≠ .stub := shape.placed.proper (by simp [running, Consumer.popping])
    simp only [State.consume, running, Option.some.injEq] at stepped
    subst stepped
    simp [whole, ← front, proper, Consumer.rank]
    omega
  | _ =>
    simp only [State.consume, running] at stepped
    (try split at stepped) <;> cases stepped <;> simp [Consumer.rank]

/-- The steps of the consumer push nothing, move no producer, and hand out what
they pop, one value at most. -/
theorem consume_frame {next : State T Thread} (stepped : state.consume = some next) :
    next.pushed = state.pushed ∧ next.producers = state.producers ∧
      ∃ out : Option T, next.drained = state.drained ++ out.toList ∧
        next.popped = state.popped ++ out.toList := by
  cases running : state.consumer with
  | take node =>
    simp only [State.consume, running, Option.some.injEq] at stepped
    subst stepped
    exact ⟨rfl, rfl, some _, rfl, rfl⟩
  | _ =>
    simp only [State.consume, running] at stepped
    (try split at stepped) <;> cases stepped <;> exact ⟨rfl, rfl, none, by simp⟩

theorem State.Quiet.not_pending (quiet : state.Quiet) (stored : state.consumer.unlinked = none)
    (prev node : NodePtr) : ¬ state.Pending prev node := by
  rintro (⟨thread, exchanged⟩ | ⟨unlinked, _⟩)
  · exact quiet thread prev node exchanged
  · simp [stored] at unlinked

/-- Without unfinished pushes, a first node without successor is the last. -/
theorem Shape.front_eq_produceEnd (shape : Shape state) (quiet : state.Quiet) {node : NodePtr}
    (stored : state.consumer.unlinked = none) (front : state.consumer.node = some node)
    (ended : state.next node = none) : node = state.produceEnd := by
  apply shape.chained.eq_last (quiet.not_pending stored) _ ended
  rw [shape.placed.front front]
  exact shape.chained.first_mem

/-- The consumer stays on track while no push is unfinished. -/
theorem State.OnTrack.consume {next : State T Thread} (onTrack : state.OnTrack)
    (shape : Shape state) (quiet : state.Quiet) (stepped : state.consume = some next) :
    next.OnTrack := by
  cases running : state.consumer with
  | loadNext node =>
    have last := shape.front_eq_produceEnd quiet (by simp [running, Consumer.unlinked])
      (show _ = some node by simp [running, Consumer.node])
    have front : node = state.consumeEnd := shape.placed.front (by simp [running, Consumer.node])
    simp only [State.consume, running] at stepped
    split at stepped <;> cases stepped
    case h_1 ended =>
      have alone := shape.chained.eq_singleton (front.symm.trans (last ended))
      rwa [← front] at alone
    case h_2 => trivial
    case h_3 => trivial
    case h_4 ended => exact last ended
  | reloadNext node =>
    have last := shape.front_eq_produceEnd quiet (by simp [running, Consumer.unlinked])
      (show _ = some node by simp [running, Consumer.node])
    simp only [State.consume, running] at stepped
    split at stepped <;> cases stepped
    case h_1 => trivial
    case h_2 ended => exact last ended
  | loadProduceEnd node =>
    have last : node = state.produceEnd := by simpa [State.OnTrack, running] using onTrack
    simp only [State.consume, running, last, ne_eq, not_true, if_false] at stepped
    cases stepped
    rfl
  | clearStub node | linkStub node prev =>
    simp only [State.consume, running, Option.some.injEq] at stepped
    subst stepped
    simpa [State.OnTrack, running] using onTrack
  | exchangeStub node =>
    have proper : node ≠ .stub := shape.placed.proper (by simp [running, Consumer.popping])
    simp only [State.consume, running, Option.some.injEq] at stepped
    subst stepped
    exact proper
  | recheckNext node =>
    have last := shape.front_eq_produceEnd quiet (by simp [running, Consumer.unlinked])
      (show _ = some node by simp [running, Consumer.node])
    have notLast : node ≠ state.produceEnd := by simpa [State.OnTrack, running] using onTrack
    simp only [State.consume, running] at stepped
    split at stepped <;> cases stepped
    case h_1 => trivial
    case h_2 ended => exact absurd (last ended) notLast
  | _ =>
    simp only [State.consume, running] at stepped
    cases stepped
    try trivial

/-- A `Drain` from `start` that runs while no push is unfinished. -/
structure Draining (start state : State T Thread) : Prop where
  shape : Shape state
  quiet : state.Quiet
  onTrack : state.OnTrack
  pushed : state.pushed = start.pushed
  popped : state.popped = start.popped ++ state.drained

theorem Draining.consume {start next : State T Thread} (draining : Draining start state)
    (stepped : state.consume = some next) : Draining start next := by
  obtain ⟨samePushed, sameProducers, out, drained, popped⟩ := consume_frame stepped
  refine ⟨draining.shape.consume stepped, ?_, ?_, samePushed.trans draining.pushed, ?_⟩
  · intro thread prev node
    rw [sameProducers]
    exact draining.quiet thread prev node
  · exact draining.onTrack.consume draining.shape draining.quiet stepped
  · rw [popped, drained, draining.popped, List.append_assoc]

/-- When the `Drain` returns it has handed out everything. -/
theorem Draining.finished {start : State T Thread} (draining : Draining start state)
    (idle : state.consumer = .idle) :
    start.pushed = start.popped ++ state.drained ∧ state.popped = state.pushed ∧
      state.consumeEnd = .stub ∧ state.produceEnd = .stub ∧ state.next .stub = none := by
  have alone : state.order = [.stub] := by simpa [State.OnTrack, idle] using draining.onTrack
  have starts := draining.shape.chained.starts
  have ends := draining.shape.chained.ends
  have ended := draining.shape.chained.ended
  have values := draining.shape.values
  simp only [alone, List.head?_cons, List.getLast?_singleton, Option.some.injEq] at starts ends
  simp only [State.remaining, State.valuesOf, alone, idle, Consumer.untaken, Option.toList_none,
    List.nil_append, List.filter_cons, ne_eq, not_true, decide_false, Bool.false_eq_true, if_false,
    List.filter_nil, List.map_nil, List.append_nil] at values
  rw [← ends] at ended
  refine ⟨?_, values.symm, starts.symm, ends.symm, ended⟩
  rw [← draining.pushed, ← draining.popped, values]

section System

variable [DecidableEq Thread] [Inhabited T]

/-- A `Drain` that starts while no push is unfinished ends, and has then handed out
everything. -/
theorem Shape.exists_drained (shape : Shape state) (idle : state.consumer = .idle)
    (quiet : state.Quiet) :
    ∃ count final, (system T Thread).execute everyStep state
        (.drain :: List.replicate count .consume) = some final ∧
      Draining state final ∧ final.consumer = .idle := by
  have started : Draining state ({ state with drained := [] }.setConsumer .loadConsumeEnd) :=
    ⟨shape.drain idle, quiet, trivial, rfl, (List.append_nil _).symm⟩
  have progress : ∀ current, Draining state current → current.consumer = .idle ∨
      ∃ next, everyStep current (Action.consume : Action T Thread) ∧
        (system T Thread).step current .consume = some next ∧ Draining state next ∧
          next.stepsLeft < current.stepsLeft := by
    intro current draining
    by_cases running : current.consumer = .idle
    · exact .inl running
    · obtain ⟨next, stepped⟩ := exists_consume running
      exact .inr ⟨next, trivial, stepped, draining.consume stepped,
        draining.shape.stepsLeft_consume stepped⟩
  obtain ⟨count, final, executed, draining, done⟩ :=
    TransitionSystem.exists_execute_replicate State.stepsLeft progress _ started
  refine ⟨count, final, ?_, draining, done⟩
  have begins : (system T Thread).step state .drain =
      some ({ state with drained := [] }.setConsumer .loadConsumeEnd) := by
    simp only [system, Mpsc.step, idle]
  have admitted : everyStep state (Action.drain : Action T Thread) := trivial
  rw [TransitionSystem.execute, if_pos admitted, begins]
  exact executed

end System

end UringServer.Core.Mpsc
