import Mathlib.Order.Lattice
import Mathlib.Data.List.Basic

/-!
# Priority queues

A priority queue gives out an element with the least key. Which of several
elements with that key it gives is left open: `LeastFirst` is any choice that
keeps this promise, over the bag of the elements inside.
-/

namespace UringServer.Semantics

universe u v

/-- A way of taking an element with the least key from a queue. -/
structure LeastFirst (Item : Type u) {Key : Type v} [LE Key] (key : Item → Key) where
  pop : List Item → Option (Item × List Item)
  empty : ∀ {items}, pop items = none → items = []
  perm : ∀ {items item rest}, pop items = some (item, rest) → items.Perm (item :: rest)
  least : ∀ {items item rest}, pop items = some (item, rest) → ∀ other ∈ rest, key item ≤ key other

namespace LeastFirst

variable {Item : Type u} {Key : Type v}

section Laws

variable [LE Key] {key : Item → Key} (queue : LeastFirst Item key) {items rest : List Item}
  {item : Item}

variable {queue}

theorem mem_iff (popped : queue.pop items = some (item, rest)) {other : Item} :
    other ∈ items ↔ other = item ∨ other ∈ rest := by
  rw [(queue.perm popped).mem_iff, List.mem_cons]

theorem length_eq (popped : queue.pop items = some (item, rest)) :
    items.length = rest.length + 1 := (queue.perm popped).length_eq

end Laws

section First

variable [LinearOrder Key] (key : Item → Key)

/-- Take the first of the elements with the least key. -/
def popFirst : List Item → Option (Item × List Item)
  | [] => none
  | item :: items =>
    (popFirst items).elim (some (item, items)) fun popped =>
      if key item ≤ key popped.1 then some (item, items) else some (popped.1, item :: popped.2)

theorem popFirst_eq_none {items : List Item} (nothing : popFirst key items = none) :
    items = [] := by
  cases items with
  | nil => rfl
  | cons item items =>
    rw [popFirst] at nothing
    cases found : popFirst key items with
    | none =>
      rw [found] at nothing
      cases nothing
    | some popped =>
      rw [found, Option.elim_some] at nothing
      split at nothing <;> cases nothing

theorem popFirst_law {items rest : List Item} {item : Item}
    (popped : popFirst key items = some (item, rest)) :
    items.Perm (item :: rest) ∧ ∀ other ∈ rest, key item ≤ key other := by
  induction items generalizing item rest with
  | nil => cases popped
  | cons first items ih =>
    rw [popFirst] at popped
    cases found : popFirst key items with
    | none =>
      rw [found] at popped
      cases popped
      rw [popFirst_eq_none key found]
      exact ⟨.refl _, by simp⟩
    | some least =>
      obtain ⟨perm, smaller⟩ := ih found
      rw [found, Option.elim_some] at popped
      split at popped
      case isTrue below =>
        cases popped
        refine ⟨.refl _, fun other member => ?_⟩
        rcases List.mem_cons.mp (perm.mem_iff.mp member) with rfl | later
        · exact below
        · exact le_trans below (smaller other later)
      case isFalse above =>
        cases popped
        refine ⟨(perm.cons first).trans (.swap _ _ _), fun other member => ?_⟩
        rcases List.mem_cons.mp member with rfl | later
        · exact le_of_not_ge above
        · exact smaller other later

/-- The queue that gives the first of the least elements. -/
def first : LeastFirst Item key where
  pop := popFirst key
  empty := popFirst_eq_none key
  perm := fun popped => (popFirst_law key popped).1
  least := fun popped => (popFirst_law key popped).2

end First

end LeastFirst

end UringServer.Semantics
