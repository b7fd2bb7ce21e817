import Mathlib.Data.List.Basic
import Mathlib.Logic.Function.Basic

/-!
# Circular buffers with running counters

A producer and a consumer share an array of slots and count what they put in and
took out. The counters are taken modulo the capacity to find a slot, and may
themselves wrap around at a multiple of it. `Circular` says that the slots hold
what was put in and not yet taken out.
-/

namespace UringServer.Semantics

universe u

variable {Item : Type u} {slots : Nat → Item} {capacity : Nat} {pushed : List Item} {popped : Nat}

/-- The slots hold the items pushed from the place `popped` on. -/
structure Circular (slots : Nat → Item) (capacity : Nat) (pushed : List Item) (popped : Nat) :
    Prop where
  order : popped ≤ pushed.length
  room : pushed.length ≤ popped + capacity
  held : ∀ place (inside : place < pushed.length), popped ≤ place →
    slots (place % capacity) = pushed[place]

namespace Circular

/-- With one slot free, the next one to write is none of those that are held. -/
theorem mod_ne {place next : Nat} (before : place < next) (near : next < place + capacity) :
    place % capacity ≠ next % capacity := by
  intro same
  have divides : capacity ∣ next - place :=
    Nat.dvd_of_mod_eq_zero (Nat.sub_mod_eq_zero_of_mod_eq same.symm)
  have large := Nat.le_of_dvd (by omega) divides
  omega

/-- Writing the next slot, with one free, changes nothing that is held. -/
theorem write (circular : Circular slots capacity pushed popped)
    (free : pushed.length < popped + capacity) (item : Item) :
    Circular (Function.update slots (pushed.length % capacity) item) capacity pushed popped := by
  refine ⟨circular.order, circular.room, fun place inside notPopped => ?_⟩
  rw [Function.update_of_ne (mod_ne inside (by omega))]
  exact circular.held place inside notPopped

/-- The next slot joins those that are held when the producer counts on. -/
theorem push (circular : Circular slots capacity pushed popped)
    (free : pushed.length < popped + capacity) {item : Item}
    (written : slots (pushed.length % capacity) = item) :
    Circular slots capacity (pushed ++ [item]) popped := by
  refine ⟨?_, ?_, fun place inside notPopped => ?_⟩
  · rw [List.length_append]
    exact Nat.le_add_right_of_le circular.order
  · rw [List.length_append]
    exact free
  · rcases Nat.lt_or_ge place pushed.length with before | last
    · rw [List.getElem_append_left before]
      exact circular.held place before notPopped
    · have same : place = pushed.length := by
        rw [List.length_append, List.length_singleton] at inside
        omega
      subst same
      rw [List.getElem_concat_length rfl]
      exact written

/-- The oldest item leaves when the consumer counts on. -/
theorem pop (circular : Circular slots capacity pushed popped) (some : popped < pushed.length) :
    Circular slots capacity pushed (popped + 1) := by
  refine ⟨some, ?_, fun place inside notPopped => ?_⟩
  · have room := circular.room
    omega
  · exact circular.held place inside (Nat.le_of_succ_le notPopped)

/-- Counters that wrap around at more than the capacity are equal just when nothing is held. -/
theorem wrapped_eq_iff (circular : Circular slots capacity pushed popped) {modulus : Nat}
    (larger : capacity < modulus) :
    popped % modulus = pushed.length % modulus ↔ popped = pushed.length := by
  refine ⟨fun same => ?_, fun same => by rw [same]⟩
  by_contra different
  have before := Nat.lt_of_le_of_ne circular.order different
  have room := circular.room
  exact mod_ne before (by omega) same

end Circular

end UringServer.Semantics
