import UringServer.Core.MpscDrain
import UringServer.Core.MpscProducer
import UringServer.Semantics.Fifo

/-!
# `MpscQueue` is a FIFO queue

What the shape of the queue means to its users. The queue refines a first in, first
out queue that is pushed to by the exchange of a producer and popped from when the
consumer moves the value out. The stub is in the list at most once and is never a
value, a node that is deleted is out of everybody's reach, and a `Drain` with no
push under way hands out everything.
-/

namespace UringServer.Core.Mpsc

open UringServer.Semantics

variable {T Thread : Type} {state : State T Thread}

namespace State

/-- A link that is stored or that somebody has yet to store. -/
def LinksTo (state : State T Thread) (prev node : NodePtr) : Prop :=
  state.next prev = some node ∨ state.Pending prev node

/-- The node can be reached from another, at the latest when all links are stored. -/
def Reaches (state : State T Thread) : NodePtr → NodePtr → Prop :=
  Relation.ReflTransGen state.LinksTo

/-- The queue that a state stands for. -/
def fifo (state : State T Thread) : Fifo T where
  pushed := state.pushed
  queue := state.remaining
  popped := state.popped

end State

variable [DecidableEq Thread]

/-- An exchange by a producer pushes, moving a value out pops, and no other step
does either. -/
theorem step_grows {action : Action T Thread} {next : State T Thread}
    (stepped : step state action = some next) : state.fifo.Grows next.fifo := by
  cases action with
  | allocate thread address item | link thread | drain =>
    simp only [step] at stepped
    split at stepped <;> cases stepped
    exact .quiet rfl rfl
  | exchange thread =>
    simp only [step] at stepped
    split at stepped <;> cases stepped
    exact .push _ rfl rfl
  | consume =>
    obtain ⟨pushed, _, out, _, popped⟩ := consume_frame stepped
    cases out with
    | none => exact .quiet pushed (popped.trans (List.append_nil _))
    | some value => exact .pop value pushed popped

variable [Inhabited T]

/-- The queue refines a first in, first out queue. -/
theorem system_refines_fifo : (system T Thread).Refines everyStep (Fifo.system T)
    (fun state fifo => Shape state ∧ fifo = state.fifo) := by
  apply Fifo.refines
  · rintro _ rfl
    exact ⟨initial_shape, rfl⟩
  · intro state shape
    exact shape.values
  · intro state action next shape _ stepped
    exact ⟨shape.step stepped, step_grows stepped⟩

/-- The queue under every interleaving: values are popped in the order of the
exchanges; the stub enters the list only when it is not in it, so it has one place
there, and is neither handed out nor deleted; a node that is deleted cannot be
reached from the ends of the list and no producer holds it or will write to it; and
a `Drain` that starts while no push is unfinished hands out the rest and leaves the
stub alone. -/
theorem mpscQueue_fifo (reachable : (system T Thread).Reachable everyStep state) :
    state.popped <+: state.pushed ∧
    (∀ node, state.consumer = .exchangeStub node →
      ¬ state.Reaches state.consumeEnd .stub) ∧
    (∀ prev, state.Reaches state.consumeEnd prev → state.LinksTo prev .stub →
      state.consumeEnd ≠ .stub ∧ ∀ other, state.Reaches state.consumeEnd other →
        state.LinksTo other .stub → other = prev) ∧
    (∀ node, state.consumer = .take node ∨ state.consumer = .free node → node ≠ .stub) ∧
    (∀ node, state.consumer = .free node →
      state.live node = true ∧ ¬ state.Reaches state.consumeEnd node ∧
        ¬ state.Reaches state.produceEnd node ∧
        ∀ thread, (state.producers thread).node ≠ some node ∧
          ∀ written, state.producers thread ≠ .exchanged node written) ∧
    (state.consumer = .idle → state.Quiet →
      ∃ count final, (system T Thread).execute everyStep state
          (.drain :: List.replicate count .consume) = some final ∧
        final.consumer = .idle ∧ state.pushed = state.popped ++ final.drained ∧
        final.popped = final.pushed ∧ final.consumeEnd = .stub ∧ final.produceEnd = .stub ∧
        final.next .stub = none) := by
  have shape := reachable_shape reachable
  obtain ⟨_, specified, _, rfl⟩ := system_refines_fifo.exists_represented reachable
  have first := shape.chained.first_mem
  have distinct := shape.chained.distinct
  refine ⟨Fifo.popped_prefix specified, ?_, ?_, ?_, ?_, ?_⟩
  · intro node running reaches
    exact shape.placed.stubOut (by simp [running, Consumer.pushesStub])
      (shape.chained.mem_of_reachable first reaches)
  · intro prev reaches link
    have follows := shape.chained.follows_of_link
      (shape.chained.mem_of_reachable first reaches) link
    refine ⟨?_, ?_⟩
    · intro atFront
      exact not_follows_of_head? distinct (atFront ▸ shape.chained.starts) follows
    · intro other otherReaches otherLink
      have otherFollows := shape.chained.follows_of_link
        (shape.chained.mem_of_reachable first otherReaches) otherLink
      exact otherFollows.unique_left distinct follows
  · rintro node (running | running)
    all_goals exact shape.placed.proper (by simp [running, Consumer.popping])
  · intro node running
    obtain ⟨gone, exists_, unowned⟩ := shape.placed.removed
      (show _ = some node by simp [running, Consumer.removed])
    refine ⟨exists_, ?_, ?_, ?_⟩
    · intro reaches
      exact gone (shape.chained.mem_of_reachable first reaches)
    · intro reaches
      exact gone (shape.chained.mem_of_reachable shape.chained.last_mem reaches)
    · intro thread
      refine ⟨?_, ?_⟩
      · intro owns
        rcases Producer.allocated_or_exchanged owns with allocated | ⟨prev, exchanged⟩
        · exact unowned thread allocated
        · exact gone (shape.chained.gaps (.inl ⟨thread, exchanged⟩)).1.mem_right
      · intro written exchanged
        exact gone (shape.chained.gaps (.inl ⟨thread, exchanged⟩)).1.mem_left
  · intro idle quiet
    obtain ⟨count, final, executed, draining, done⟩ := shape.exists_drained idle quiet
    exact ⟨count, final, executed, done, draining.finished done⟩

/-- A push that slips between the tail check and the push of the stub makes the
first `Drain` return empty-handed; when the push is finished, the next one hands out
both values. -/
theorem mpscQueue_fifo_late_push :
    ∃ state : State Nat Bool, (system Nat Bool).Reachable everyStep state ∧
      state.popped = [] ∧ ∃ count final, (system Nat Bool).execute everyStep state
        (.drain :: List.replicate count .consume) = some final ∧ final.drained = [7, 8] := by
  obtain ⟨state, executed, idle, pushed, popped, producers⟩ :
      ∃ state, (system Nat Bool).execute everyStep initial
          [.allocate false 0 7, .exchange false, .link false, .drain, .consume, .consume,
            .consume, .consume, .consume, .consume, .allocate true 1 8, .exchange true, .consume,
            .consume, .consume, .link true] = some state ∧
        state.consumer = .idle ∧ state.pushed = [7, 8] ∧ state.popped = [] ∧
        ∀ thread, state.producers thread = .idle := by
    refine ⟨_, rfl, rfl, rfl, rfl, ?_⟩
    decide
  have reachable := TransitionSystem.Reachable.execute (.initial (by exact rfl)) executed
  have quiet : state.Quiet := by
    intro thread prev node
    simp [producers thread]
  obtain ⟨_, _, _, _, _, drains⟩ := mpscQueue_fifo reachable
  obtain ⟨count, final, drained, _, values, _⟩ := drains idle quiet
  refine ⟨state, reachable, popped, count, final, drained, ?_⟩
  rw [← pushed, values, popped, List.nil_append]

end UringServer.Core.Mpsc
