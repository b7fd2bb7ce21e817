import Mathlib.Data.List.Infix
import Mathlib.Data.List.TakeWhile

/-!
# Search for a pattern

The first place at which a list occurs in another one, with what is known of it
when more is appended to the text, and what is determined by the text it starts.
-/

namespace UringServer.Semantics

universe u

variable {α : Type u} [DecidableEq α]

/-- The first place from `start` on at which the pattern occurs. -/
def find (text pattern : List α) (start : Nat) : Option Nat :=
  ((text.drop start).tails.findIdx? fun rest => decide (pattern <+: rest)).map (start + ·)

omit [DecidableEq α] in
/-- The pattern occurs at a place and nowhere before it. -/
structure FirstAt (pattern text : List α) (position : Nat) : Prop where
  here : pattern <+: text.drop position
  before : ∀ earlier < position, ¬ pattern <+: text.drop earlier

variable {pattern text more : List α} {position : Nat}

theorem le_of_find {start : Nat} (found : find text pattern start = some position) :
    start ≤ position := by
  obtain ⟨offset, -, rfl⟩ := Option.map_eq_some_iff.mp found
  exact Nat.le_add_right start offset

theorem find_eq_some (nonempty : pattern ≠ []) :
    find text pattern 0 = some position ↔ FirstAt pattern text position := by
  simp only [find, List.drop_zero, Nat.zero_add, Option.map_id', List.findIdx?_eq_some_iff_getElem,
    List.length_tails, List.getElem_tails, decide_eq_true_eq]
  constructor
  · rintro ⟨inside, here, before⟩
    exact ⟨here, fun earlier less => by simpa using before earlier less⟩
  · rintro ⟨here, before⟩
    have fits : position < text.length := by
      by_contra outside
      rw [List.drop_eq_nil_of_le (Nat.le_of_not_lt outside)] at here
      exact nonempty (List.prefix_nil.mp here)
    exact ⟨by omega, here, fun earlier less => by simpa using before earlier less⟩

/-- Without a result the pattern does not occur. -/
theorem find_eq_none : find text pattern 0 = none ↔ ¬ pattern <:+: text := by
  simp only [find, List.drop_zero, Nat.zero_add, Option.map_id', List.findIdx?_eq_none_iff,
    List.mem_tails, decide_eq_false_iff_not]
  constructor
  · rintro absent ⟨before, after, rfl⟩
    refine absent (pattern ++ after) ?_ (List.prefix_append pattern after)
    rw [List.append_assoc]
    exact List.suffix_append before (pattern ++ after)
  · intro absent rest suffix_ here
    exact absent (here.isInfix.trans suffix_.isInfix)

/-- The first place from `start` on at which the element stands. -/
def findElement (text : List α) (element : α) (start : Nat) : Option Nat :=
  ((text.drop start).findIdx? (· = element)).map (start + ·)

section Element

variable {element : α}

/-- The first element splits the text behind what is without it. -/
theorem findElement_eq_some :
    findElement text element 0 = some position ↔
      ∃ before after, text = before ++ element :: after ∧ element ∉ before ∧
        position = before.length := by
  simp only [findElement, List.drop_zero, Nat.zero_add, Option.map_id']
  constructor
  · intro found
    obtain ⟨fits, here, before⟩ := List.findIdx?_eq_some_iff_getElem.mp found
    refine ⟨text.take position, text.drop (position + 1), ?_, ?_, ?_⟩
    · rw [← of_decide_eq_true here, ← List.drop_eq_getElem_cons fits, List.take_append_drop]
    · intro member
      obtain ⟨index, inside, equal⟩ := List.mem_take_iff_getElem.mp member
      exact before index (by omega) (decide_eq_true equal)
    · rw [List.length_take_of_le fits.le]
  · rintro ⟨before, after, rfl, absent, rfl⟩
    have none : before.findIdx? (· = element) = none :=
      List.findIdx?_eq_none_iff.mpr fun other member =>
        decide_eq_false fun equal => absent (equal ▸ member)
    rw [List.findIdx?_append, none, List.findIdx?_cons]
    simp

theorem findElement_eq_none : findElement text element 0 = none ↔ element ∉ text := by
  rw [findElement, List.drop_zero, Option.map_eq_none_iff, List.findIdx?_eq_none_iff]
  exact ⟨fun absent member => by simpa using absent element member,
    fun absent other member => decide_eq_false fun equal => absent (equal ▸ member)⟩

/-- A search from behind an element is one in what follows it. -/
theorem findElement_behind (front back : List α) (mark : α) :
    findElement (front ++ mark :: back) element (front.length + 1) =
      (findElement back element 0).map (front.length + 1 + ·) := by
  have behind : (front ++ mark :: back).drop (front.length + 1) = back := by
    rw [List.drop_append, List.drop_eq_nil_of_le (Nat.le_succ _), Nat.add_sub_cancel_left]
    rfl
  simp only [findElement, behind, List.drop_zero, Nat.zero_add, Option.map_id']

end Element
omit [DecidableEq α]

theorem FirstAt.unique {other : Nat} (first : FirstAt pattern text position)
    (second : FirstAt pattern text other) : position = other := by
  rcases Nat.lt_trichotomy position other with less | same | more
  · exact absurd first.here (second.before position less)
  · exact same
  · exact absurd second.here (first.before other more)

theorem FirstAt.fits (first : FirstAt pattern text position) :
    pattern.length ≤ text.length - position := by
  simpa using first.here.length_le

/-- A text that does not start with the pattern has it one place further on than its rest. -/
theorem FirstAt.cons {first : α} (starts : ¬ pattern <+: first :: text)
    (rest : FirstAt pattern text position) : FirstAt pattern (first :: text) (position + 1) where
  here := rest.here
  before := by
    intro earlier less
    cases earlier with
    | zero => exact starts
    | succ earlier => exact rest.before earlier (Nat.lt_of_succ_lt_succ less)

theorem FirstAt.isInfix (first : FirstAt pattern text position) : pattern <:+: text :=
  first.here.isInfix.trans (List.drop_suffix position text).isInfix

/-- What was found first stays first when the text grows. -/
theorem FirstAt.append (first : FirstAt pattern text position) (nonempty : pattern ≠ [])
    (more : List α) : FirstAt pattern (text ++ more) position := by
  have fits := first.fits
  have long := List.length_pos_iff.mpr nonempty
  have whole : ∀ place, pattern.length ≤ text.length - place →
      (pattern <+: (text ++ more).drop place ↔ pattern <+: text.drop place) := by
    intro place room
    rw [List.drop_append_of_le_length (by omega)]
    refine ⟨fun here => ?_, fun here => here.trans (List.prefix_append _ _)⟩
    exact List.prefix_of_prefix_length_le here (List.prefix_append _ _) (by simpa using room)
  refine ⟨(whole position fits).mpr first.here, fun earlier less here => ?_⟩
  exact first.before earlier less ((whole earlier (by omega)).mp here)

/-- A run of elements ends where the condition fails. -/
theorem takeWhile_append_of_boundary {condition : α → Bool} {body rest : List α}
    (inside : ∀ element ∈ body, condition element = true)
    (boundary : ∀ element ∈ rest.head?, condition element = false) :
    (body ++ rest).takeWhile condition = body := by
  rw [List.takeWhile_append_of_pos inside]
  cases rest with
  | nil => exact List.append_nil body
  | cons element rest => simp [boundary element rfl]

theorem dropWhile_append_of_boundary {condition : α → Bool} {body rest : List α}
    (inside : ∀ element ∈ body, condition element = true)
    (boundary : ∀ element ∈ rest.head?, condition element = false) :
    (body ++ rest).dropWhile condition = rest := by
  rw [List.dropWhile_append_of_pos inside]
  cases rest with
  | nil => rfl
  | cons element rest => simp [boundary element rfl]

theorem starts_append_iff {first second : List α} :
    first ++ second <+: text ↔ first <+: text ∧ second <+: text.drop first.length := by
  constructor
  · rintro ⟨rest, rfl⟩
    rw [List.append_assoc]
    exact ⟨List.prefix_append _ _, by rw [List.drop_left]; exact List.prefix_append _ _⟩
  · rintro ⟨⟨rest, rfl⟩, second_⟩
    rw [List.drop_left] at second_
    exact (List.prefix_append_right_inj first).mpr second_

/-- Prefixes of one text that are as long as each other are the same. -/
theorem eq_of_starts {first second : List α} (one : first <+: text) (other : second <+: text)
    (long : first.length = second.length) : first = second :=
  (List.prefix_of_prefix_length_le one other long.le).eq_of_length long

/-- What ends with its first mark, with the mark, is determined by the text it starts. -/
theorem eq_of_firstAt {mark first second : List α} (nonempty : mark ≠ [])
    (one : FirstAt mark (first ++ mark) first.length)
    (other : FirstAt mark (second ++ mark) second.length) (starts : first ++ mark <+: text)
    (otherStarts : second ++ mark <+: text) : first = second := by
  have ends : FirstAt mark text first.length := by
    obtain ⟨more, rfl⟩ := starts
    exact one.append nonempty more
  have otherEnds : FirstAt mark text second.length := by
    obtain ⟨more, rfl⟩ := otherStarts
    exact other.append nonempty more
  exact eq_of_starts (starts_append_iff.mp starts).1 (starts_append_iff.mp otherStarts).1
    (ends.unique otherEnds)

end UringServer.Semantics
