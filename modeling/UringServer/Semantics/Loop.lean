import Mathlib.Order.Nat

/-!
# Loops that run until they stop

A loop is its body as a partial function: no successor means that the loop has
been left. The body keeps an invariant and lowers a count of what remains, so
every run from a state with the invariant ends, and `run` is the state it ends
in. `run` recurses on that count alone and evaluates on concrete states.
-/

namespace UringServer.Semantics

universe u v

/-- A loop body with the invariant it keeps and the quantity it lowers. -/
structure Loop (State : Type u) where
  body : State → Option State
  Inv : State → Prop
  remaining : State → Nat
  preserved : ∀ {state next}, Inv state → body state = some next → Inv next
  decreases : ∀ {state next}, Inv state → body state = some next →
    remaining next < remaining state

namespace Loop

variable {State : Type u} (loop : Loop State)

/-- At most `count` passes through the body. -/
def runFor : Nat → State → State
  | 0, state => state
  | count + 1, state =>
    match loop.body state with
    | none => state
    | some next => runFor count next

/-- The state in which the loop is left. -/
def run (state : State) : State := loop.runFor (loop.remaining state) state

variable {loop} {state next : State}

theorem runFor_of_none (left : loop.body state = none) (count : Nat) :
    loop.runFor count state = state := by
  cases count with
  | zero => rfl
  | succ count => rw [runFor, left]

theorem runFor_succ (taken : loop.body state = some next) (count : Nat) :
    loop.runFor (count + 1) state = loop.runFor count next := by
  rw [runFor, taken]

/-- Passes beyond what remains change nothing. -/
theorem runFor_of_enough (holds : loop.Inv state) {count other : Nat}
    (enough : loop.remaining state ≤ count) (otherEnough : loop.remaining state ≤ other) :
    loop.runFor count state = loop.runFor other state := by
  induction count generalizing state other with
  | zero =>
    cases taken : loop.body state with
    | none => rw [runFor_of_none taken, runFor_of_none taken]
    | some next =>
      have lower := loop.decreases holds taken
      omega
  | succ count ih =>
    cases taken : loop.body state with
    | none => rw [runFor_of_none taken, runFor_of_none taken]
    | some next =>
      have lower := loop.decreases holds taken
      obtain ⟨fewer, rfl⟩ := Nat.exists_eq_succ_of_ne_zero (show other ≠ 0 by omega)
      rw [runFor_succ taken, runFor_succ taken]
      exact ih (loop.preserved holds taken) (by omega) (by omega)

theorem run_of_none (left : loop.body state = none) : loop.run state = state :=
  runFor_of_none left _

/-- A run is a pass and the run from there. -/
theorem run_of_some (holds : loop.Inv state) (taken : loop.body state = some next) :
    loop.run state = loop.run next := by
  have lower := loop.decreases holds taken
  calc loop.run state
      = loop.runFor (loop.remaining state + 1) state :=
        runFor_of_enough holds le_rfl (Nat.le_succ _)
    _ = loop.runFor (loop.remaining state) next := runFor_succ taken _
    _ = loop.run next := runFor_of_enough (loop.preserved holds taken) lower.le le_rfl

variable (loop)

/-- What every pass keeps, from the states with the invariant, a run keeps. -/
theorem run_rule {R : State → State → Prop}
    (stop : ∀ state, loop.Inv state → loop.body state = none → R state state)
    (pass : ∀ state next final, loop.Inv state → loop.body state = some next →
      R next final → R state final)
    (state : State) (holds : loop.Inv state) : R state (loop.run state) := by
  cases taken : loop.body state with
  | none =>
    rw [run_of_none taken]
    exact stop state holds taken
  | some next =>
    have lower := loop.decreases holds taken
    rw [run_of_some holds taken]
    exact pass _ _ _ holds taken (run_rule stop pass next (loop.preserved holds taken))
termination_by loop.remaining state

/-- A run keeps the invariant. -/
theorem run_inv (holds : loop.Inv state) : loop.Inv (loop.run state) :=
  loop.run_rule (R := fun _ final => loop.Inv final) (fun _ here _ => here)
    (fun _ _ _ _ _ final => final) state holds

/-- A run ends where the loop is left. -/
theorem body_run (holds : loop.Inv state) : loop.body (loop.run state) = none :=
  loop.run_rule (R := fun _ final => loop.body final = none) (fun _ _ left => left)
    (fun _ _ _ _ _ final => final) state holds

/-- An observation that no pass changes is the same at the end of the run. -/
theorem apply_run {Observation : Type v} (observe : State → Observation)
    (unchanged : ∀ state next, loop.Inv state → loop.body state = some next →
      observe next = observe state)
    (holds : loop.Inv state) : observe (loop.run state) = observe state :=
  loop.run_rule (R := fun state final => observe final = observe state) (fun _ _ _ => rfl)
    (fun _ _ _ here taken final => final.trans (unchanged _ _ here taken)) state holds

end Loop

end UringServer.Semantics
