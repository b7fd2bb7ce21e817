import UringServer.Semantics.TransitionSystem

/-!
# Refinement of one transition system by another

A system refines a specification along a relation between their states if every
admitted step of the system is a step of the specification, or leaves the
specification where it is. Every reachable state of the system then represents a
reachable state of the specification.
-/

namespace UringServer.Semantics

namespace TransitionSystem

variable {State Abstract Action Move : Type*}

/-- The steps of a system, seen through a relation, are steps of a specification. -/
structure Refines (system : TransitionSystem State Action) (Admits : State → Action → Prop)
    (spec : TransitionSystem Abstract Move) (Represents : State → Abstract → Prop) : Prop where
  initial : ∀ state, system.Initial state →
    ∃ abstract, spec.Initial abstract ∧ Represents state abstract
  step : ∀ {state action next abstract}, Represents state abstract → Admits state action →
    system.step state action = some next → ∃ following, Represents next following ∧
      (following = abstract ∨ ∃ move, spec.step abstract move = some following)

/-- A reachable state represents a state that the specification reaches. -/
theorem Refines.exists_represented {system : TransitionSystem State Action}
    {Admits : State → Action → Prop} {spec : TransitionSystem Abstract Move}
    {Represents : State → Abstract → Prop} (refines : system.Refines Admits spec Represents)
    {state : State} (reachable : system.Reachable Admits state) :
    ∃ abstract, spec.Reachable everyStep abstract ∧ Represents state abstract := by
  induction reachable with
  | initial valid =>
    obtain ⟨abstract, begins, represents⟩ := refines.initial _ valid
    exact ⟨abstract, .initial begins, represents⟩
  | step _ admitted transition ih =>
    obtain ⟨abstract, reached, represents⟩ := ih
    obtain ⟨following, follows, stays | ⟨move, moves⟩⟩ :=
      refines.step represents admitted transition
    · exact ⟨following, stays ▸ reached, follows⟩
    · exact ⟨following, .step reached trivial moves, follows⟩

end TransitionSystem

end UringServer.Semantics
