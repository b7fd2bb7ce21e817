import Mathlib.Data.List.Nodup
import Mathlib.Logic.Function.Basic

/-!
# Maps of sets

A map from keys to sets of values, in which a set is created for its first value
and the key is removed with its last. A set is the list of its values, in some
order.
-/

namespace UringServer.Semantics

universe u v

/-- A map of sets. -/
abbrev SetIndex (Key : Type u) (Value : Type v) := Key → Option (List Value)

namespace SetIndex

variable {Key : Type u} {Value : Type v}

/-- The map without a key. -/
def empty : SetIndex Key Value := fun _ => none

/-- The values of a key. -/
def values (index : SetIndex Key Value) (key : Key) : List Value := (index key).getD []

variable [DecidableEq Key] [DecidableEq Value]

/-- Add a value to the set of a key. -/
def add (index : SetIndex Key Value) (key : Key) (value : Value) : SetIndex Key Value :=
  Function.update index key (some ((index.values key).insert value))

/-- Take a value from the set of a key, and the key with its last value. -/
def remove (index : SetIndex Key Value) (key : Key) (value : Value) : SetIndex Key Value :=
  match index key with
  | none => index
  | some held =>
    let left := held.erase value
    Function.update index key (if left = [] then none else some left)

/-- Take a value from the sets of some keys. -/
def removeFrom (index : SetIndex Key Value) (keys : List Key) (value : Value) :
    SetIndex Key Value :=
  keys.foldl (fun index key => index.remove key value) index

/-- Remove a key. -/
def erase (index : SetIndex Key Value) (key : Key) : SetIndex Key Value :=
  Function.update index key none

omit [DecidableEq Key] [DecidableEq Value] in
/-- No key has an empty set, and no value is held twice. -/
structure Tidy (index : SetIndex Key Value) : Prop where
  nonempty : ∀ key, index key ≠ some []
  nodup : ∀ key, (index.values key).Nodup

omit [DecidableEq Key] [DecidableEq Value] in
theorem tidy_empty : (empty : SetIndex Key Value).Tidy :=
  ⟨fun _ => nofun, fun _ => List.nodup_nil⟩

variable {index : SetIndex Key Value}

omit [DecidableEq Value] in
theorem values_update (index : SetIndex Key Value) (key other : Key) (held : Option (List Value)) :
    values (Function.update index key held) other =
      if other = key then held.getD [] else index.values other := by
  unfold values
  rw [Function.update_apply]
  split <;> rfl

theorem mem_values_add {key other : Key} {value held : Value} :
    held ∈ (index.add key value).values other ↔
      (other = key ∧ held = value) ∨ held ∈ index.values other := by
  rw [add, values_update]
  split
  case isTrue same => simp [same]
  case isFalse different => simp [different]

theorem values_remove (index : SetIndex Key Value) (key other : Key) (value : Value) :
    (index.remove key value).values other =
      if other = key then (index.values key).erase value else index.values other := by
  unfold remove
  split
  case h_1 none_ =>
    split
    case isTrue same => simp [same, values, none_]
    case isFalse => rfl
  case h_2 held here =>
    dsimp only
    rw [values_update]
    split
    case isTrue same =>
      simp only [values, here, Option.getD_some]
      split
      case isTrue empty =>
        rw [empty]
        rfl
      case isFalse => rfl
    case isFalse => rfl

theorem Tidy.mem_values_remove (tidy : index.Tidy) {key other : Key} {value held : Value} :
    held ∈ (index.remove key value).values other ↔
      held ∈ index.values other ∧ ¬ (other = key ∧ held = value) := by
  rw [values_remove]
  split
  case isTrue same =>
    rw [(tidy.nodup key).mem_erase_iff, same]
    tauto
  case isFalse different => simp [different]

omit [DecidableEq Value] in
theorem Tidy.update (tidy : index.Tidy) (key : Key) {held : Option (List Value)}
    (nonempty : held ≠ some []) (nodup : (held.getD []).Nodup) :
    SetIndex.Tidy (Function.update index key held) := by
  refine ⟨fun other => ?_, fun other => ?_⟩
  · rw [Function.update_apply]
    split
    · exact nonempty
    · exact tidy.nonempty other
  · rw [values_update]
    split
    · exact nodup
    · exact tidy.nodup other

theorem Tidy.add (tidy : index.Tidy) (key : Key) (value : Value) : (index.add key value).Tidy := by
  refine tidy.update key ?_ (List.Nodup.insert (tidy.nodup key))
  intro empty
  exact List.not_mem_nil (Option.some.inj empty ▸ List.mem_insert_self)

theorem Tidy.remove (tidy : index.Tidy) (key : Key) (value : Value) :
    (index.remove key value).Tidy := by
  unfold SetIndex.remove
  split
  case h_1 => exact tidy
  case h_2 held here =>
    have nodup : (held.erase value).Nodup := by
      have whole := tidy.nodup key
      rw [values, here] at whole
      exact whole.erase value
    dsimp only
    split
    case isTrue => exact tidy.update key nofun List.nodup_nil
    case isFalse some_ => exact tidy.update key (fun empty => some_ (Option.some.inj empty)) nodup

omit [DecidableEq Value] in
theorem Tidy.erase (tidy : index.Tidy) (key : Key) : (index.erase key).Tidy :=
  tidy.update key nofun List.nodup_nil

theorem Tidy.removeFrom (tidy : index.Tidy) (keys : List Key) (value : Value) :
    (index.removeFrom keys value).Tidy := by
  induction keys generalizing index with
  | nil => exact tidy
  | cons key keys ih => exact ih (tidy.remove key value)

/-- The value is gone from the sets of the keys, and the rest is as it was. -/
theorem Tidy.mem_values_removeFrom (tidy : index.Tidy) {keys : List Key} {other : Key}
    {value held : Value} :
    held ∈ (index.removeFrom keys value).values other ↔
      held ∈ index.values other ∧ ¬ (other ∈ keys ∧ held = value) := by
  induction keys generalizing index with
  | nil => simp [SetIndex.removeFrom]
  | cons key keys ih =>
    have rest := ih (tidy.remove key value)
    rw [tidy.mem_values_remove] at rest
    refine rest.trans ?_
    rw [List.mem_cons]
    tauto

omit [DecidableEq Value] in
theorem mem_values_erase {key other : Key} {held : Value} :
    held ∈ (index.erase key).values other ↔ held ∈ index.values other ∧ other ≠ key := by
  rw [erase, values_update]
  split
  case isTrue same => simp [same]
  case isFalse different => simp [different]

end SetIndex

end UringServer.Semantics
