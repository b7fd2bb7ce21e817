import Mathlib.Data.List.Infix
import Mathlib.Data.List.Nodup

/-!
# Succession in a list

Which element of a list directly follows which. In a list without duplicates
the successor is unique, and every element but the last has one. Linked
structures are described by the list of their nodes and a fact about each pair.
-/

namespace UringServer.Semantics

variable {α : Type*} {list : List α} {first second third element : α}

/-- The second element comes directly after the first. -/
def Follows (list : List α) (first second : α) : Prop := [first, second] <:+: list

@[simp] theorem not_follows_nil : ¬ Follows [] first second := by
  simp [Follows]

theorem follows_cons : Follows (element :: list) first second ↔
    (first = element ∧ list.head? = some second) ∨ Follows list first second := by
  unfold Follows
  rw [List.infix_cons_iff, List.cons_prefix_cons]
  cases list with
  | nil => simp
  | cons head rest => simp [eq_comm (a := head) (b := second)]

theorem Follows.mem_left (follows : Follows list first second) : first ∈ list :=
  follows.subset List.mem_cons_self

theorem Follows.mem_right (follows : Follows list first second) : second ∈ list :=
  follows.subset (List.mem_cons_of_mem _ List.mem_cons_self)

/-- A longer list keeps its successions. -/
theorem Follows.append (follows : Follows list first second) (rest : List α) :
    Follows (list ++ rest) first second := follows.trans (List.prefix_append _ _).isInfix

theorem Follows.of_tail (follows : Follows list.tail first second) :
    Follows list first second := follows.trans (List.tail_suffix _).isInfix

/-- The new last element comes after the old one. -/
theorem follows_of_getLast? (last : list.getLast? = some first) (element : α) :
    Follows (list ++ [element]) first element := by
  obtain ⟨before, rfl⟩ := List.getLast?_eq_some_iff.mp last
  refine ⟨before, [], ?_⟩
  simp

/-- Appending one element adds one succession. -/
theorem Follows.of_append_singleton (follows : Follows (list ++ [element]) first second) :
    Follows list first second ∨ (list.getLast? = some first ∧ second = element) := by
  induction list with
  | nil =>
    rw [List.nil_append, follows_cons] at follows
    simp at follows
  | cons head rest ih =>
    rw [List.cons_append, follows_cons] at follows
    rcases follows with ⟨rfl, next⟩ | later
    · cases rest with
      | nil =>
        right
        simpa [eq_comm] using next
      | cons successor tail =>
        left
        rw [follows_cons]
        exact .inl ⟨rfl, by simpa using next⟩
    · rcases ih later with before | ⟨last, rfl⟩
      · exact .inl (follows_cons.mpr (.inr before))
      · right
        refine ⟨?_, rfl⟩
        rw [List.getLast?_cons, last]
        rfl

/-- Without duplicates an element has one successor. -/
theorem Follows.unique (distinct : list.Nodup) (follows : Follows list first second)
    (other : Follows list first third) : second = third := by
  induction list with
  | nil => simp at follows
  | cons head rest ih =>
    rw [List.nodup_cons] at distinct
    rw [follows_cons] at follows other
    rcases follows with ⟨rfl, next⟩ | later
    · rcases other with ⟨_, otherNext⟩ | otherLater
      · exact Option.some.inj (next.symm.trans otherNext)
      · exact absurd otherLater.mem_left distinct.1
    · rcases other with ⟨rfl, _⟩ | otherLater
      · exact absurd later.mem_left distinct.1
      · exact ih distinct.2 later otherLater

/-- Without duplicates the first element follows nothing. -/
theorem not_follows_of_head? (distinct : list.Nodup) (head : list.head? = some second) :
    ¬ Follows list first second := by
  obtain ⟨rest, rfl⟩ := List.head?_eq_some_iff.mp head
  rw [List.nodup_cons] at distinct
  intro follows
  rcases follows_cons.mp follows with ⟨_, again⟩ | later
  · exact distinct.1 (List.mem_of_mem_head? again)
  · exact distinct.1 later.mem_right

/-- Without duplicates an element follows one other. -/
theorem Follows.unique_left (distinct : list.Nodup) (follows : Follows list first third)
    (other : Follows list second third) : first = second := by
  induction list with
  | nil => simp at follows
  | cons head rest ih =>
    rw [List.nodup_cons] at distinct
    rw [follows_cons] at follows other
    rcases follows with ⟨rfl, next⟩ | later
    · rcases other with ⟨rfl, _⟩ | otherLater
      · rfl
      · exact absurd otherLater (not_follows_of_head? distinct.2 next)
    · rcases other with ⟨rfl, next⟩ | otherLater
      · exact absurd later (not_follows_of_head? distinct.2 next)
      · exact ih distinct.2 later otherLater

/-- Without duplicates nothing follows the last element. -/
theorem not_follows_of_getLast? (distinct : list.Nodup) (last : list.getLast? = some first) :
    ¬ Follows list first second := by
  obtain ⟨before, rfl⟩ := List.getLast?_eq_some_iff.mp last
  intro follows
  rcases follows.of_append_singleton with inside | ⟨another, rfl⟩
  · simpa using (List.nodup_append'.mp distinct).2.2 inside.mem_left
  · simpa using (List.nodup_append'.mp distinct).2.2 (List.mem_of_getLast? another)

/-- Every element but the last has a successor. -/
theorem exists_follows_of_mem (member : first ∈ list) (notLast : list.getLast? ≠ some first) :
    ∃ second, Follows list first second := by
  induction list with
  | nil => cases member
  | cons head rest ih =>
    cases rest with
    | nil =>
      rw [List.mem_singleton.mp member] at notLast
      simp at notLast
    | cons successor tail =>
      by_cases same : first = head
      · exact ⟨successor, follows_cons.mpr (.inl ⟨same, rfl⟩)⟩
      · have later := (List.mem_cons.mp member).resolve_left same
        obtain ⟨second, follows⟩ := ih later (by simpa using notLast)
        exact ⟨second, follows_cons.mpr (.inr follows)⟩

end UringServer.Semantics
