import Mathlib.Data.List.Basic

/-!
# Transition systems and their admitted runs

A program is given by the atomic steps its threads, its callers and its
environment may take. `step` is a partial function of an action, so a run is
determined by the actions chosen along it, and a disabled action has no
successor.

`Reachable` is relative to an `Admits` condition on every step taken: the state
before the step and the action. The condition `everyStep` admits all runs; a
stronger one describes the runs of a restricted environment.
-/

namespace UringServer.Semantics

universe u v

/-- A program as its initial states and its partial step function. -/
structure TransitionSystem (State : Type u) (Action : Type v) where
  Initial : State → Prop
  step : State → Action → Option State

/-- The condition on steps that restricts nothing. -/
def everyStep {State : Type u} {Action : Type v} (_ : State) (_ : Action) : Prop := True

instance {State : Type u} {Action : Type v} (state : State) (action : Action) :
    Decidable (everyStep state action) := .isTrue trivial

namespace TransitionSystem

variable {State : Type u} {Action : Type v}

/-- The states of the runs all of whose steps are admitted. -/
inductive Reachable (system : TransitionSystem State Action)
    (Admits : State → Action → Prop) : State → Prop where
  | initial {state} (valid : system.Initial state) : Reachable system Admits state
  | step {state action next} (prior : Reachable system Admits state)
      (admitted : Admits state action)
      (transition : system.step state action = some next) :
      Reachable system Admits next

variable {system : TransitionSystem State Action}

/-- What holds initially and is kept by every admitted step holds in every
state that admitted runs reach. -/
theorem Reachable.invariant {Admits : State → Action → Prop} (Inv : State → Prop)
    (initial : ∀ state, system.Initial state → Inv state)
    (preserved : ∀ {state action next}, Inv state → Admits state action →
      system.step state action = some next → Inv next)
    {state : State} (reachable : system.Reachable Admits state) : Inv state := by
  induction reachable with
  | initial valid => exact initial _ valid
  | step _ admitted transition ih =>
    exact preserved ih admitted transition

/-- Weakening the condition on steps reaches no fewer states. -/
theorem Reachable.mono {Admits Weaker : State → Action → Prop}
    (weaker : ∀ state action, Admits state action → Weaker state action)
    {state : State} (reachable : system.Reachable Admits state) :
    system.Reachable Weaker state := by
  induction reachable with
  | initial valid => exact .initial valid
  | step _ admitted transition ih =>
    exact .step ih (weaker _ _ admitted) transition

/-- Where a step keeps what is good exactly if it is admitted, the good states are those of the
runs all of whose steps are admitted. -/
theorem Reachable.iff_admitted {Admits : State → Action → Prop} (Good : State → Prop)
    (initial : ∀ state, system.Initial state → Good state)
    (kept : ∀ {state action next}, system.Reachable everyStep state →
      system.step state action = some next → (Good next ↔ Good state ∧ Admits state action))
    {state : State} (reachable : system.Reachable everyStep state) :
    Good state ↔ system.Reachable Admits state := by
  constructor
  · intro good
    induction reachable with
    | initial valid => exact .initial valid
    | step prior _ transition ih =>
      obtain ⟨before, admitted⟩ := (kept prior transition).mp good
      exact .step (ih before) admitted transition
  · intro admittedRun
    clear reachable
    induction admittedRun with
    | initial valid => exact initial _ valid
    | step prior admitted transition ih =>
      have anyRun := prior.mono fun _ _ _ => trivial
      exact (kept anyRun transition).mpr ⟨ih, admitted⟩

section Execution

variable (system) (Admits : State → Action → Prop)
  [∀ state action, Decidable (Admits state action)]

/-- Run a list of actions, refusing a disabled action and one that is not
admitted where it is taken. -/
def execute : State → List Action → Option State
  | state, [] => some state
  | state, action :: rest =>
    if Admits state action then
      (system.step state action).bind fun next => execute next rest
    else
      none

variable {system} {Admits}

/-- An execution from a reachable state ends in a reachable state. -/
theorem Reachable.execute {state final : State} {actions : List Action}
    (reachable : system.Reachable Admits state)
    (executed : system.execute Admits state actions = some final) :
    system.Reachable Admits final := by
  induction actions generalizing state with
  | nil =>
    cases executed
    exact reachable
  | cons action rest ih =>
    unfold TransitionSystem.execute at executed
    split at executed
    case isTrue admitted =>
      obtain ⟨next, transition, remaining⟩ := Option.bind_eq_some_iff.mp executed
      exact ih (.step reachable admitted transition) remaining
    case isFalse => cases executed

/-- A run from an initial state shows that there is a reachable state with a property. -/
theorem exists_reachable {start : State} (valid : system.Initial start) (actions : List Action)
    {Holds : State → Prop} (run : ∃ final, system.execute Admits start actions = some final ∧
      (system.Reachable Admits final → Holds final)) :
    ∃ final, system.Reachable Admits final ∧ Holds final := by
  obtain ⟨final, executed, holds⟩ := run
  have reachable := Reachable.execute (.initial valid) executed
  exact ⟨final, reachable, holds reachable⟩

/-- Where every admitted step lowers a number, no run is longer than the number is. -/
theorem length_le_of_execute (remaining : State → Nat)
    (lower : ∀ {state action next}, Admits state action → system.step state action = some next →
      remaining next < remaining state) {state final : State} {actions : List Action}
    (executed : system.execute Admits state actions = some final) :
    actions.length ≤ remaining state := by
  induction actions generalizing state with
  | nil => exact Nat.zero_le _
  | cons action rest ih =>
    unfold TransitionSystem.execute at executed
    split at executed
    case isTrue admitted =>
      obtain ⟨next, transition, remainder⟩ := Option.bind_eq_some_iff.mp executed
      exact Nat.lt_of_le_of_lt (ih remainder) (lower admitted transition)
    case isFalse => cases executed

/-- An action that is enabled, and gets closer, until the system is `Done` gets
there when it is taken often enough with nothing in between. -/
theorem exists_execute_replicate {Inv Done : State → Prop} {action : Action}
    (remaining : State → Nat)
    (progress : ∀ state, Inv state → Done state ∨ ∃ next, Admits state action ∧
      system.step state action = some next ∧ Inv next ∧ remaining next < remaining state)
    (state : State) (holds : Inv state) :
    ∃ count final, system.execute Admits state (List.replicate count action) = some final ∧
      Inv final ∧ Done final := by
  rcases progress state holds with done | ⟨next, admitted, transition, nextHolds, closer⟩
  · exact ⟨0, state, rfl, holds, done⟩
  · obtain ⟨count, final, executed, finalHolds, done⟩ :=
      exists_execute_replicate remaining progress next nextHolds
    refine ⟨count + 1, final, ?_, finalHolds, done⟩
    rw [List.replicate_succ, TransitionSystem.execute, if_pos admitted, transition]
    exact executed
termination_by remaining state

end Execution

end TransitionSystem

end UringServer.Semantics
