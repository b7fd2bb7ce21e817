import UringServer.Semantics.Refinement

/-!
# First in, first out

The specification of a queue: values are pushed at one end and popped at the
other, one at a time. The values pushed and popped so far are part of the state, and
`Accounted` relates them to the queue. Between accounted states these logs determine
the step, so a system refines the queue if its logs are accounted for and a step
adds to one of them at most one value.
-/

namespace UringServer.Semantics

/-- A queue with the values that went in and those that came out. -/
structure Fifo (α : Type*) where
  pushed : List α := []
  queue : List α := []
  popped : List α := []

namespace Fifo

/-- What can be done with a queue. -/
inductive Move (α : Type*) where
  | push (value : α)
  | pop

variable {α : Type*} {fifo next : Fifo α}

/-- What it does. Nothing is popped from an empty queue. -/
def step (fifo : Fifo α) : Move α → Option (Fifo α)
  | .push value =>
    some { fifo with pushed := fifo.pushed ++ [value], queue := fifo.queue ++ [value] }
  | .pop =>
    match fifo.queue with
    | [] => none
    | value :: rest => some { fifo with queue := rest, popped := fifo.popped ++ [value] }

/-- Queues that start empty. -/
def system (α : Type*) : TransitionSystem (Fifo α) (Move α) where
  Initial fifo := fifo = {}
  step := step

/-- What went in came out, in order, or is in the queue. -/
def Accounted (fifo : Fifo α) : Prop := fifo.pushed = fifo.popped ++ fifo.queue

theorem Accounted.step (accounted : fifo.Accounted) {move : Move α}
    (stepped : fifo.step move = some next) : next.Accounted := by
  unfold Accounted at accounted ⊢
  cases move with
  | push value =>
    cases stepped
    simp [accounted]
  | pop =>
    simp only [Fifo.step] at stepped
    split at stepped
    case h_1 => cases stepped
    case h_2 value rest whole =>
      cases stepped
      simp [accounted, whole]

theorem reachable_accounted (reachable : (system α).Reachable everyStep fifo) :
    fifo.Accounted := by
  apply reachable.invariant Accounted
  · rintro _ rfl
    rfl
  · intro before move after accounted _ stepped
    exact accounted.step stepped

/-- Values come out in the order they went in. -/
theorem popped_prefix (reachable : (system α).Reachable everyStep fifo) :
    fifo.popped <+: fifo.pushed := by
  rw [reachable_accounted reachable]
  exact List.prefix_append _ _

/-- How the logs of a queue may grow in one step. -/
inductive Grows (fifo next : Fifo α) : Prop where
  | quiet (samePushed : next.pushed = fifo.pushed) (samePopped : next.popped = fifo.popped)
  | push (value : α) (grown : next.pushed = fifo.pushed ++ [value])
      (same : next.popped = fifo.popped)
  | pop (value : α) (same : next.pushed = fifo.pushed)
      (grown : next.popped = fifo.popped ++ [value])

/-- Between accounted states the logs determine the step. -/
theorem Grows.step (grows : fifo.Grows next) (before : fifo.Accounted) (after : next.Accounted) :
    next = fifo ∨ ∃ move, fifo.step move = some next := by
  unfold Accounted at before after
  cases grows with
  | quiet samePushed samePopped =>
    left
    rw [samePushed, before, samePopped, List.append_cancel_left_eq] at after
    cases fifo
    cases next
    simp_all
  | push value grown same =>
    refine .inr ⟨.push value, ?_⟩
    rw [grown, before, same, List.append_assoc, List.append_cancel_left_eq] at after
    cases next
    simp_all [Fifo.step]
  | pop value same grown =>
    refine .inr ⟨.pop, ?_⟩
    rw [same, before, grown, List.append_assoc, List.append_cancel_left_eq] at after
    cases next
    simp_all [Fifo.step]

/-- A system refines the queue its states stand for, if an invariant accounts for the
logs of that queue and they grow as those of a queue do. -/
theorem refines {State Action : Type*} {concrete : TransitionSystem State Action}
    {Admits : State → Action → Prop} {Inv : State → Prop} {abstraction : State → Fifo α}
    (initial : ∀ state, concrete.Initial state → Inv state ∧ abstraction state = {})
    (accounted : ∀ state, Inv state → (abstraction state).Accounted)
    (step : ∀ {state action next}, Inv state → Admits state action →
      concrete.step state action = some next →
        Inv next ∧ (abstraction state).Grows (abstraction next)) :
    concrete.Refines Admits (system α)
      (fun state fifo => Inv state ∧ fifo = abstraction state) := by
  constructor
  · intro state begins
    obtain ⟨holds, empty⟩ := initial state begins
    exact ⟨abstraction state, empty, holds, rfl⟩
  · rintro state action next _ ⟨holds, rfl⟩ admitted transition
    obtain ⟨nextHolds, grows⟩ := step holds admitted transition
    exact ⟨abstraction next, ⟨nextHolds, rfl⟩,
      grows.step (accounted state holds) (accounted next nextHolds)⟩

end Fifo

end UringServer.Semantics
