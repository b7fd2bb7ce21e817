import Mathlib.Data.List.Nodup
import Mathlib.Data.List.Perm.Subperm
import UringServer.Ring.ProvidedBuffers

/-!
# One place for every buffer

Every buffer is in the ring, in a completion or with one thread. Its place is
given by a function, so that it has one only, and each step moves one buffer on:
picked from the front of the line, taken from a completion by a thread, put at
the end of the line.
-/

namespace UringServer.Ring

/-- Where a buffer is. -/
inductive BufPlace (Thread : Type) where
  /-- There is no such buffer. -/
  | nowhere
  /-- In the ring, at this place of all entries published. -/
  | ring (index : Nat)
  | completed
  | user (thread : Thread)

/-- Who has which buffer: `line` are the buffers published, of which so many have been picked,
`done` those in completions, and `holds` says which buffer a thread has. -/
structure Holders (Thread : Type) where
  count : Nat
  line : List Nat
  picked : Nat
  done : List Nat
  holds : Thread → Option Nat

variable {Thread : Type}

/-- The buffer is found at the place. -/
def Holders.At (holders : Holders Thread) (id : Nat) : BufPlace Thread → Prop
  | .nowhere => holders.count ≤ id
  | .ring index => holders.picked ≤ index ∧ holders.line[index]? = some id
  | .completed => id ∈ holders.done
  | .user thread => holders.holds thread = some id

/-- Every buffer is found at its place and nowhere else, in completions once. -/
structure Placed (holders : Holders Thread) (place : Nat → BufPlace Thread) : Prop where
  at_iff : ∀ id there, holders.At id there ↔ place id = there
  once : holders.done.Nodup

namespace Placed

variable {holders next : Holders Thread} {place : Nat → BufPlace Thread} {id : Nat}

/-- In the beginning the ring has all. -/
theorem initial (count : Nat) :
    Placed (⟨count, List.range count, 0, [], fun _ => none⟩ : Holders Thread)
      (fun id => if id < count then .ring id else .nowhere) := by
  refine ⟨fun id there => ?_, List.nodup_nil⟩
  by_cases small : id < count
  · cases there with
    | ring index =>
      simp only [Holders.At, List.getElem?_eq_some_iff, List.length_range, List.getElem_range,
        small, if_true, BufPlace.ring.injEq, exists_prop]
      omega
    | _ => simp [Holders.At, small]
  · cases there with
    | ring index =>
      simp only [Holders.At, List.getElem?_eq_some_iff, List.length_range, List.getElem_range,
        small, if_false, reduceCtorEq, iff_false, exists_prop]
      omega
    | nowhere => simp [Holders.At, small, Nat.le_of_not_lt small]
    | _ => simp [Holders.At, small]

theorem elsewhere (placed : Placed holders place) {there : BufPlace Thread}
    (here : place id = there) (other : BufPlace Thread) (different : there ≠ other) :
    ¬ holders.At id other := fun found =>
  different (here.symm.trans ((placed.at_iff id other).mp found))

/-- One buffer moves. -/
theorem move (placed : Placed holders place) {there : BufPlace Thread}
    (others : ∀ other, other ≠ id → ∀ spot, next.At other spot ↔ holders.At other spot)
    (moved : ∀ spot, next.At id spot ↔ there = spot) (once : next.done.Nodup) :
    Placed next (Function.update place id there) := by
  refine ⟨fun other spot => ?_, once⟩
  by_cases same : other = id
  · subst same
    rw [Function.update_self]
    exact moved spot
  · rw [Function.update_of_ne same, others other same]
    exact placed.at_iff other spot

/-- The front of the line is picked. -/
theorem pick (placed : Placed holders place) (front : holders.line[holders.picked]? = some id) :
    Placed { holders with picked := holders.picked + 1, done := holders.done ++ [id] }
      (Function.update place id .completed) := by
  have here : place id = .ring holders.picked := (placed.at_iff id _).mp ⟨le_rfl, front⟩
  refine placed.move (fun other different there => ?_) (fun there => ?_) ?_
  · cases there with
    | ring index =>
      refine ⟨fun ⟨later, found⟩ => ⟨Nat.le_of_succ_le later, found⟩, fun ⟨later, found⟩ => ?_⟩
      refine ⟨Nat.lt_of_le_of_ne later ?_, found⟩
      rintro rfl
      exact different (Option.some.inj (found.symm.trans front))
    | completed => simp [Holders.At, different]
    | _ => rfl
  · cases there with
    | ring index =>
      refine ⟨fun ⟨later, found⟩ => ?_, nofun⟩
      have again := (placed.at_iff id (.ring index)).mp ⟨Nat.le_of_succ_le later, found⟩
      cases here.symm.trans again
      exact absurd later (Nat.not_succ_le_self _)
    | completed => simp [Holders.At]
    | nowhere => exact iff_of_false (placed.elsewhere here .nowhere nofun) nofun
    | user thread => exact iff_of_false (placed.elsewhere here (.user thread) nofun) nofun
  · have outside : id ∉ holders.done := placed.elsewhere here .completed nofun
    change (holders.done ++ [id]).Nodup
    rw [← List.concat_eq_append]
    exact placed.once.concat outside

/-- The buffers in the ring differ. -/
theorem nodup_drop (placed : Placed holders place) :
    (holders.line.drop holders.picked).Nodup := by
  rw [List.nodup_iff_getElem?_ne_getElem?]
  intro one two before inside same
  rw [List.getElem?_drop, List.getElem?_drop] at same
  rw [List.length_drop] at inside
  have found : holders.line[holders.picked + two]? = some (holders.line[holders.picked + two]) :=
    List.getElem?_eq_getElem (by omega)
  have first := (placed.at_iff _ (.ring (holders.picked + one))).mp
    ⟨Nat.le_add_right _ _, same.trans found⟩
  have second := (placed.at_iff _ (.ring (holders.picked + two))).mp ⟨Nat.le_add_right _ _, found⟩
  have together := BufPlace.ring.inj (first.symm.trans second)
  omega

theorem lt_count (placed : Placed holders place) {there : BufPlace Thread}
    (here : place id = there) (somewhere : there ≠ .nowhere) : id < holders.count :=
  Nat.lt_of_not_le (placed.elsewhere here .nowhere somewhere)

/-- While a thread has a buffer, the ring is not full. -/
theorem room {thread : Thread} (placed : Placed holders place)
    (held : holders.holds thread = some id) :
    holders.line.length < holders.picked + holders.count := by
  have here : place id = .user thread := (placed.at_iff id _).mp held
  have small : id < holders.count := placed.lt_count here nofun
  have subset : holders.line.drop holders.picked ⊆ (List.range holders.count).erase id := by
    intro other member
    obtain ⟨index, found⟩ := List.mem_iff_getElem?.mp member
    rw [List.getElem?_drop] at found
    have there := (placed.at_iff other (.ring (holders.picked + index))).mp
      ⟨Nat.le_add_right _ _, found⟩
    have different : other ≠ id := by
      rintro rfl
      cases here.symm.trans there
    exact (List.mem_erase_of_ne different).mpr
      (List.mem_range.mpr (placed.lt_count there nofun))
  have fewer := (List.subperm_of_subset placed.nodup_drop subset).length_le
  rw [List.length_drop, List.length_erase_of_mem (List.mem_range.mpr small),
    List.length_range] at fewer
  omega

/-- With nothing in the ring, every buffer is in a completion or with a thread. -/
theorem exhausted (placed : Placed holders place) (empty : holders.line.length ≤ holders.picked)
    (small : id < holders.count) :
    id ∈ holders.done ∨ ∃ thread, holders.holds thread = some id := by
  have found := (placed.at_iff id (place id)).mpr rfl
  cases here : place id with
  | nowhere =>
    rw [here] at found
    exact absurd small (Nat.not_lt.mpr found)
  | ring index =>
    rw [here] at found
    have inside := (List.getElem?_eq_some_iff.mp found.2).1
    have later : holders.picked ≤ index := found.1
    omega
  | completed =>
    rw [here] at found
    exact .inl found
  | user thread =>
    rw [here] at found
    exact .inr ⟨thread, found⟩

variable [DecidableEq Thread] {thread : Thread}

/-- A thread takes a completion. -/
theorem take {rest : List Nat} (placed : Placed holders place) (front : holders.done = id :: rest)
    (free : holders.holds thread = none) :
    Placed { holders with
      done := rest
      holds := Function.update holders.holds thread (some id) }
      (Function.update place id (.user thread)) := by
  have here : place id = .completed :=
    (placed.at_iff id .completed).mp (show id ∈ holders.done from front ▸ List.mem_cons_self)
  have once := placed.once
  rw [front, List.nodup_cons] at once
  refine placed.move (fun other different there => ?_) (fun there => ?_) once.2
  · cases there with
    | completed => simp [Holders.At, front, different]
    | user user =>
      by_cases same : user = thread
      · simp [Holders.At, same, free, different.symm]
      · simp [Holders.At, same]
    | _ => rfl
  · cases there with
    | completed => exact iff_of_false once.1 nofun
    | user user =>
      by_cases same : user = thread
      · simp [Holders.At, same]
      · have nobody : ¬ holders.At id (.user user) := placed.elsewhere here _ nofun
        simpa [Holders.At, same, Ne.symm same] using nobody
    | nowhere => exact iff_of_false (placed.elsewhere here .nowhere nofun) nofun
    | ring index => exact iff_of_false (placed.elsewhere here (.ring index) nofun) nofun

/-- A thread puts its buffer at the end of the line. -/
theorem put (placed : Placed holders place) (held : holders.holds thread = some id)
    (order : holders.picked ≤ holders.line.length) :
    Placed { holders with
      line := holders.line ++ [id]
      holds := Function.update holders.holds thread none }
      (Function.update place id (.ring holders.line.length)) := by
  have here : place id = .user thread := (placed.at_iff id _).mp held
  refine placed.move (fun other different there => ?_) (fun there => ?_) placed.once
  · cases there with
    | ring index =>
      refine and_congr_right fun _ => ?_
      rcases Nat.lt_trichotomy index holders.line.length with before | rfl | behind
      · rw [List.getElem?_append_left before]
      · simp [different.symm]
      · simp [List.getElem?_append_right behind.le, Nat.sub_ne_zero_of_lt behind, behind.le]
    | user user =>
      by_cases same : user = thread
      · simp [Holders.At, same, held, different.symm]
      · simp [Holders.At, same]
    | _ => rfl
  · cases there with
    | ring index =>
      have notInside : ¬ holders.At id (.ring index) := placed.elsewhere here _ nofun
      refine ⟨fun ⟨later, found⟩ => ?_, ?_⟩
      · rcases Nat.lt_trichotomy index holders.line.length with before | rfl | behind
        · rw [List.getElem?_append_left before] at found
          exact absurd ⟨later, found⟩ notInside
        · rfl
        · simp [List.getElem?_append_right behind.le, Nat.sub_ne_zero_of_lt behind] at found
      · rintro ⟨⟩
        exact ⟨order, List.getElem?_concat_length⟩
    | user user =>
      by_cases same : user = thread
      · simp [Holders.At, same]
      · have nobody : ¬ holders.At id (.user user) :=
          placed.elsewhere here _ (by simp [Ne.symm same])
        simpa [Holders.At, same] using nobody
    | nowhere => exact iff_of_false (placed.elsewhere here .nowhere nofun) nofun
    | completed => exact iff_of_false (placed.elsewhere here .completed nofun) nofun

end Placed

end UringServer.Ring
