import Mathlib.Algebra.BigOperators.Group.Finset.Basic
import Mathlib.Algebra.Order.BigOperators.Group.Finset
import Mathlib.Data.Fintype.Basic

/-!
# Tallies over the threads of a program

A program with finitely many threads keeps one control state per thread.
`tally weight threads` adds up a weight of the control states: how many threads
stand at a given point, or how many items they hold together. A step moves one
thread, and `tally_update` says what that does to every tally.
-/

namespace UringServer.Semantics

variable {Thread Control : Type*} [Fintype Thread]

/-- The total weight of the threads' control states. -/
def tally (weight : Control → Nat) (threads : Thread → Control) : Nat :=
  ∑ thread, weight (threads thread)

/-- One thread weighs no more than all of them. -/
theorem weight_le_tally (weight : Control → Nat) (threads : Thread → Control)
    (thread : Thread) : weight (threads thread) ≤ tally weight threads :=
  Finset.single_le_sum (f := fun each => weight (threads each))
    (fun _ _ => Nat.zero_le _) (Finset.mem_univ thread)

variable {threads : Thread → Control}

/-- A tally vanishes when every thread weighs nothing. -/
theorem tally_eq_zero {weight : Control → Nat}
    (weightless : ∀ thread, weight (threads thread) = 0) : tally weight threads = 0 :=
  Finset.sum_eq_zero fun thread _ => weightless thread

/-- Threads that all stand at the same point weigh the same. -/
@[simp] theorem tally_const (weight : Control → Nat) (control : Control) :
    tally weight (fun _ : Thread => control) = Fintype.card Thread * weight control := by
  simp [tally]

/-- A positive tally is due to some thread. -/
theorem exists_of_tally_pos {weight : Control → Nat}
    (positive : 0 < tally weight threads) : ∃ thread, 0 < weight (threads thread) := by
  by_contra none
  have zero : tally weight threads = 0 := by
    apply tally_eq_zero
    intro thread
    have := not_exists.mp none thread
    omega
  omega

variable [DecidableEq Thread]

/-- Moving one thread exchanges its old weight for its new one. -/
theorem tally_update (weight : Control → Nat) (threads : Thread → Control)
    (thread : Thread) (control : Control) :
    tally weight (Function.update threads thread control) + weight (threads thread) =
      tally weight threads + weight control := by
  have others : ∑ each ∈ Finset.univ.erase thread,
      weight (Function.update threads thread control each) =
        ∑ each ∈ Finset.univ.erase thread, weight (threads each) := by
    apply Finset.sum_congr rfl
    intro each member
    rw [Function.update_of_ne (Finset.ne_of_mem_erase member)]
  have after := Finset.add_sum_erase Finset.univ
    (fun each => weight (Function.update threads thread control each)) (Finset.mem_univ thread)
  have before := Finset.add_sum_erase Finset.univ
    (fun each => weight (threads each)) (Finset.mem_univ thread)
  simp only [Function.update_self] at after
  unfold tally
  omega

/-- Two different threads together weigh no more than all of them. -/
theorem two_weights_le_tally (weight : Control → Nat) (threads : Thread → Control)
    {first second : Thread} (different : first ≠ second) :
    weight (threads first) + weight (threads second) ≤ tally weight threads := by
  have pair := Finset.add_sum_erase Finset.univ
    (fun each => weight (threads each)) (Finset.mem_univ first)
  have rest := Finset.single_le_sum (s := Finset.univ.erase first)
    (f := fun each => weight (threads each)) (fun _ _ => Nat.zero_le _)
    (Finset.mem_erase.mpr ⟨different.symm, Finset.mem_univ second⟩)
  unfold tally
  omega

/-- With a total weight of at most one, the thread that weighs is unique. -/
theorem thread_unique {weight : Control → Nat}
    (atMostOne : tally weight threads ≤ 1) {first second : Thread}
    (firstWeighs : 0 < weight (threads first)) (secondWeighs : 0 < weight (threads second)) :
    first = second := by
  by_contra different
  have both := two_weights_le_tally weight threads different
  omega

end UringServer.Semantics
