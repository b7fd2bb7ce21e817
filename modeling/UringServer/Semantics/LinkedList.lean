import Mathlib.Logic.Function.Basic
import Mathlib.Logic.Relation
import UringServer.Semantics.Succession

/-!
# Linked lists under construction

A singly linked list that is appended to in two stores: the end moves to the new
node first, and the old end is linked to it later. Until then the list has a gap.
`Chained` describes the memory of such a list by the order its nodes are in:
each node points at its successor, or points nowhere and the link is a gap that
somebody has yet to fill.
-/

namespace UringServer.Semantics

variable {Ptr : Type*}

/-- The memory `next` holds the nodes of `order` from `first` to `last`, linked up
to the gaps. -/
structure Chained (next : Ptr → Option Ptr) (gap : Ptr → Ptr → Prop) (order : List Ptr)
    (first last : Ptr) : Prop where
  starts : order.head? = some first
  ends : order.getLast? = some last
  distinct : order.Nodup
  ended : next last = none
  linked : ∀ {node successor}, Follows order node successor →
    next node = some successor ∨ gap node successor
  gaps : ∀ {node successor}, gap node successor →
    Follows order node successor ∧ next node = none

namespace Chained

variable {next : Ptr → Option Ptr} {gap : Ptr → Ptr → Prop} {order : List Ptr}
  {first last node second : Ptr}

/-- A list of one node. -/
theorem singleton (ended : next node = none) (complete : ∀ before after, ¬ gap before after) :
    Chained next gap [node] node node := by
  refine ⟨rfl, rfl, List.nodup_singleton node, ended, ?_, ?_⟩
  · intro before after follows
    rw [follows_cons] at follows
    simp at follows
  · intro before after missing
    exact absurd missing (complete before after)

theorem first_mem (chained : Chained next gap order first last) : first ∈ order :=
  List.mem_of_mem_head? chained.starts

theorem last_mem (chained : Chained next gap order first last) : last ∈ order :=
  List.mem_of_getLast? chained.ends

/-- The description depends on the nodes of the list and on the gaps only. -/
theorem congr (chained : Chained next gap order first last) {next' : Ptr → Option Ptr}
    {gap' : Ptr → Ptr → Prop} (same : ∀ node ∈ order, next' node = next node)
    (sameGaps : ∀ before after, gap' before after ↔ gap before after) :
    Chained next' gap' order first last := by
  refine ⟨chained.starts, chained.ends, chained.distinct, ?_, ?_, ?_⟩
  · rw [same last chained.last_mem]
    exact chained.ended
  · intro before after follows
    rw [same before follows.mem_left, sameGaps]
    exact chained.linked follows
  · intro before after missing
    obtain ⟨follows, open_⟩ := chained.gaps ((sameGaps before after).mp missing)
    exact ⟨follows, (same before follows.mem_left).trans open_⟩

/-- Every node but the end has a successor. -/
theorem exists_follows (chained : Chained next gap order first last) (member : node ∈ order)
    (different : node ≠ last) : ∃ successor, Follows order node successor := by
  apply exists_follows_of_mem member
  rw [chained.ends]
  rintro ⟨⟩
  exact different rfl

/-- A link that a node of the list holds leads to its successor. -/
theorem follows_of_next (chained : Chained next gap order first last) (member : node ∈ order)
    (link : next node = some second) : Follows order node second := by
  have different : node ≠ last := by
    rintro rfl
    simp [chained.ended] at link
  obtain ⟨successor, follows⟩ := chained.exists_follows member different
  rcases chained.linked follows with holds | missing
  · cases link.symm.trans holds
    exact follows
  · simp [(chained.gaps missing).2] at link

/-- A link from a node of the list, stored or missing, leads to its successor. -/
theorem follows_of_link (chained : Chained next gap order first last) (member : node ∈ order)
    (link : next node = some second ∨ gap node second) : Follows order node second := by
  rcases link with holds | missing
  · exact chained.follows_of_next member holds
  · exact (chained.gaps missing).1

/-- Everything that can be reached from a node of the list, or could once the gaps
are filled, is in the list. -/
theorem mem_of_reachable (chained : Chained next gap order first last) {start : Ptr}
    (member : start ∈ order)
    (reached : Relation.ReflTransGen (fun before after => next before = some after ∨
      gap before after) start node) : node ∈ order := by
  induction reached with
  | refl => exact member
  | tail _ link ih =>
    exact (chained.follows_of_link ih link).mem_right

/-- Without gaps, only the end points nowhere. -/
theorem eq_last (chained : Chained next gap order first last)
    (complete : ∀ before after, ¬ gap before after) (member : node ∈ order)
    (ended : next node = none) : node = last := by
  by_contra different
  obtain ⟨successor, follows⟩ := chained.exists_follows member different
  rcases chained.linked follows with holds | missing
  · simp [ended] at holds
  · exact complete node successor missing

/-- A list that starts at its end has one node. -/
theorem eq_singleton (chained : Chained next gap order first last) (same : first = last) :
    order = [first] := by
  obtain ⟨rest, rfl⟩ := List.head?_eq_some_iff.mp chained.starts
  cases rest with
  | nil => rfl
  | cons successor tail =>
    have ends := chained.ends
    have distinct := chained.distinct
    rw [List.nodup_cons] at distinct
    rw [List.getLast?_cons_cons, ← same] at ends
    exact absurd (List.mem_of_getLast? ends) distinct.1

/-- The end moves to a new node, which leaves a gap before it. -/
theorem append (chained : Chained next gap order first last) (fresh : node ∉ order)
    (ended : next node = none) :
    Chained next (fun before after => gap before after ∨ before = last ∧ after = node)
      (order ++ [node]) first node := by
  refine ⟨?_, List.getLast?_concat, ?_, ended, ?_, ?_⟩
  · obtain ⟨rest, rfl⟩ := List.head?_eq_some_iff.mp chained.starts
    rfl
  · exact List.nodup_append'.mpr ⟨chained.distinct, List.nodup_singleton node, by simpa using fresh⟩
  · intro before after follows
    rcases follows.of_append_singleton with inside | ⟨atEnd, rfl⟩
    · exact (chained.linked inside).imp_right .inl
    · exact .inr (.inr ⟨Option.some.inj (atEnd.symm.trans chained.ends), rfl⟩)
  · rintro before after (missing | ⟨rfl, rfl⟩)
    · obtain ⟨follows, open_⟩ := chained.gaps missing
      exact ⟨follows.append _, open_⟩
    · exact ⟨follows_of_getLast? chained.ends _, chained.ended⟩

/-- Storing the missing link fills its gap. -/
theorem fill [DecidableEq Ptr] (chained : Chained next gap order first last)
    (missing : gap node second) :
    Chained (Function.update next node (some second))
      (fun before after => gap before after ∧ before ≠ node) order first last := by
  obtain ⟨here, _⟩ := chained.gaps missing
  refine ⟨chained.starts, chained.ends, chained.distinct, ?_, ?_, ?_⟩
  · have different : last ≠ node := by
      rintro rfl
      exact not_follows_of_getLast? chained.distinct chained.ends here
    rw [Function.update_of_ne different]
    exact chained.ended
  · intro before after follows
    by_cases same : before = node
    · subst same
      left
      rw [Function.update_self, here.unique chained.distinct follows]
    · rw [Function.update_of_ne same]
      exact (chained.linked follows).imp_right fun missing => ⟨missing, same⟩
  · rintro before after ⟨missing, different⟩
    rw [Function.update_of_ne different]
    exact chained.gaps missing

/-- The start moves past the first node, which leaves the list. -/
theorem advance (chained : Chained next gap order first last) (link : next first = some second) :
    Chained next gap order.tail second last ∧ first ∉ order.tail := by
  obtain ⟨rest, rfl⟩ := List.head?_eq_some_iff.mp chained.starts
  have follows := chained.follows_of_next chained.first_mem link
  have distinct := chained.distinct
  rw [List.nodup_cons] at distinct
  have starts : rest.head? = some second := by
    rcases follows_cons.mp follows with ⟨_, head⟩ | later
    · exact head
    · exact absurd later.mem_left distinct.1
  refine ⟨⟨starts, ?_, distinct.2, chained.ended, ?_, ?_⟩, distinct.1⟩
  · obtain ⟨tail, rfl⟩ := List.head?_eq_some_iff.mp starts
    simpa using chained.ends
  · intro before after follows
    exact chained.linked follows.of_tail
  · intro before after missing
    obtain ⟨follows, open_⟩ := chained.gaps missing
    rcases follows_cons.mp follows with ⟨rfl, _⟩ | later
    · simp [open_] at link
    · exact ⟨later, open_⟩

end Chained

end UringServer.Semantics
