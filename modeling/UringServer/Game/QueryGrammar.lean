import Mathlib.Data.List.TakeWhile
import UringServer.Game.QueryParser

/-!
# The written form of a query

Conditions as a ticket means them, how they are written, and what they ask of the
properties of another ticket. Numbers are written as the literals that
`std::from_chars` reads.
-/

namespace UringServer.Game

open UringServer.Semantics UringServer.Web

/-- `std::from_chars` with the text behind `ptr`, and the comparisons of `double`. -/
structure Doubles (Double : Type) where
  /-- The number at the start of a text, and what follows it. -/
  read : Text → Option (Double × Text)
  /-- A number has at least one byte. It has neither a space nor an equals sign. -/
  read_eq : ∀ {text value rest}, read text = some (value, rest) →
    ∃ literal, literal ≠ [] ∧ text = literal ++ rest ∧ 0x20 ∉ literal ∧ 0x3D ∉ literal
  ge : Double → Double → Bool
  gt : Double → Double → Bool
  le : Double → Double → Bool
  lt : Double → Double → Bool

variable {Double : Type}

/-- `Parse` does not look at `ptr`. -/
def Doubles.numerals (doubles : Doubles Double) : Numerals Double where
  fromChars text := (doubles.read text).map Prod.fst
  ge := doubles.ge
  gt := doubles.gt
  le := doubles.le
  lt := doubles.lt

/-- The comparisons with a number. -/
inductive Comparison where
  | gte
  | gt
  | lte
  | lt
  deriving DecidableEq, Repr

namespace Comparison

/-- The sign in front of the literal. -/
def text : Comparison → Text
  | .gte => ascii ">="
  | .gt => ascii ">"
  | .lte => ascii "<="
  | .lt => ascii "<"

def op : Comparison → Op
  | .gte => .gte
  | .gt => .gt
  | .lte => .lte
  | .lt => .lt

/-- Whether a property and the bound compare. -/
def Holds (doubles : Doubles Double) (value bound : Double) : Comparison → Prop
  | .gte => doubles.ge value bound
  | .gt => doubles.gt value bound
  | .lte => doubles.le value bound
  | .lt => doubles.lt value bound

end Comparison

/-- A condition with the literal of its number. -/
inductive QueryTerm (Double : Type) where
  | equal (key value : Text)
  | unequal (key value : Text)
  | compare (comparison : Comparison) (key literal : Text) (bound : Double)

namespace QueryTerm

def key : QueryTerm Double → Text
  | .equal key _ | .unequal key _ | .compare _ key _ _ => key

/-- What stands behind the colon. -/
def valueText : QueryTerm Double → Text
  | .equal _ value | .unequal _ value => value
  | .compare comparison _ literal _ => comparison.text ++ literal

/-- `+` or `-`. -/
def sign : QueryTerm Double → UInt8
  | .unequal _ _ => 0x2D
  | _ => 0x2B

/-- `+key:value`, `-key:value` or `+key:>=num`. -/
def write (term : QueryTerm Double) : Text := term.sign :: (term.key ++ 0x3A :: term.valueText)

/-- The condition that is meant. -/
def condition : QueryTerm Double → Condition Double
  | .equal key value => ⟨key, .eq, .text value⟩
  | .unequal key value => ⟨key, .neq, .text value⟩
  | .compare comparison key _ bound => ⟨key, comparison.op, .number bound⟩

/-- What can be written: keys without a colon, values without a space, wanted values
that do not start like a comparison, and literals that are read as the bound. -/
structure Writable (doubles : Doubles Double) (term : QueryTerm Double) : Prop where
  noColon : 0x3A ∉ term.key
  value : match term with
    | .equal _ value => 0x20 ∉ value ∧ value.head? ≠ some 0x3C ∧ value.head? ≠ some 0x3E
    | .unequal _ value => 0x20 ∉ value
    | .compare _ _ literal bound => ∃ rest, doubles.read literal = some (bound, rest) ∧ 0x20 ∉ rest

end QueryTerm

/-- The terms with at least one space between them. -/
def writeQuery (extra : Nat → Nat) : List (QueryTerm Double) → Text
  | [] => []
  | [term] => term.write
  | term :: terms =>
    term.write ++ List.replicate (extra terms.length + 1) 0x20 ++ writeQuery extra terms

theorem writeQuery_cons_cons (extra : Nat → Nat) (term next : QueryTerm Double)
    (terms : List (QueryTerm Double)) :
    writeQuery extra (term :: next :: terms) =
      term.write ++ List.replicate (extra (next :: terms).length + 1) 0x20 ++
        writeQuery extra (next :: terms) :=
  rfl

section Values

variable {value literal : Text}

theorem splitOperator_eq (noLess : value.head? ≠ some 0x3C) (noGreater : value.head? ≠ some 0x3E) :
    splitOperator value = (.eq, value) := by
  cases value with
  | nil => rfl
  | cons byte value =>
    have less : 0x3C ≠ byte := fun same => noLess (congrArg some same.symm)
    have greater : 0x3E ≠ byte := fun same => noGreater (congrArg some same.symm)
    simp [splitOperator, ascii, List.isPrefixOf, less, greater]

/-- A literal does not make another comparison of the one in front of it. -/
theorem splitOperator_text (comparison : Comparison) (noEquals : literal.head? ≠ some 0x3D) :
    splitOperator (comparison.text ++ literal) = (comparison.op, literal) := by
  cases comparison with
  | gte => rfl
  | lte => rfl
  | gt | lt =>
    cases literal with
    | nil => rfl
    | cons byte literal =>
      have different : 0x3D ≠ byte := fun same => noEquals (congrArg some same.symm)
      simp [splitOperator, Comparison.text, Comparison.op, ascii, List.isPrefixOf, different]

end Values

namespace Doubles

variable {doubles : Doubles Double} {literal rest : Text} {bound : Double}

theorem noEquals_of_read (accepted : doubles.read literal = some (bound, rest)) :
    literal.head? ≠ some 0x3D := by
  obtain ⟨number, nonempty, rfl, -, noEquals⟩ := doubles.read_eq accepted
  obtain ⟨byte, number, rfl⟩ := List.exists_cons_of_ne_nil nonempty
  rintro same
  rw [List.cons_append, List.head?_cons, Option.some_inj] at same
  exact noEquals (same ▸ List.mem_cons_self)

theorem noSpace_of_read (accepted : doubles.read literal = some (bound, rest))
    (noSpace : 0x20 ∉ rest) : 0x20 ∉ literal := by
  obtain ⟨number, -, rfl, inNumber, -⟩ := doubles.read_eq accepted
  rw [List.mem_append, not_or]
  exact ⟨inNumber, noSpace⟩

end Doubles

namespace QueryTerm

variable {doubles : Doubles Double} {term : QueryTerm Double}

theorem sign_cases (term : QueryTerm Double) : term.sign = 0x2B ∨ term.sign = 0x2D := by
  cases term with
  | equal => exact .inl rfl
  | unequal => exact .inr rfl
  | compare => exact .inl rfl

theorem Writable.noSpace (writable : term.Writable doubles) : 0x20 ∉ term.valueText := by
  have value := writable.value
  cases term with
  | equal key value => exact value.1
  | unequal key value => exact value
  | compare comparison key literal bound =>
    obtain ⟨rest, accepted, restNoSpace⟩ := value
    rw [valueText, List.mem_append, not_or]
    refine ⟨?_, Doubles.noSpace_of_read accepted restNoSpace⟩
    cases comparison <;> decide

/-- The parser makes of the parts of a term the condition that is meant. -/
theorem Writable.makeCondition (writable : term.Writable doubles) :
    makeCondition doubles.numerals (term.sign = 0x2D) term.key term.valueText =
      some term.condition := by
  have value := writable.value
  cases term with
  | equal key value =>
    simp [Game.makeCondition, sign, valueText, splitOperator_eq value.2.1 value.2.2,
      QueryTerm.key, condition]
  | unequal key value => rfl
  | compare comparison key literal bound =>
    obtain ⟨rest, accepted, -⟩ := value
    have read : doubles.numerals.fromChars literal = some bound := by
      simp [Doubles.numerals, accepted]
    have split := splitOperator_text comparison (Doubles.noEquals_of_read accepted)
    cases comparison <;>
      simp [Game.makeCondition, sign, valueText, split, read, Comparison.op, QueryTerm.key,
        condition]

theorem Writable.parse_write (writable : term.Writable doubles) (rest : Text)
    (ends : ∀ byte ∈ rest.head?, byte = 0x20) :
    parse doubles.numerals (term.write ++ rest) =
      term.condition :: parse doubles.numerals rest := by
  have parsed := parse_condition doubles.numerals term.sign_cases writable.noColon
    writable.noSpace rest ends
  rw [writable.makeCondition] at parsed
  rw [write, List.cons_append, List.append_assoc, List.cons_append]
  exact parsed

end QueryTerm

/-- `Parse` gives back the conditions, in their order. -/
theorem parse_writeQuery {doubles : Doubles Double} {terms : List (QueryTerm Double)}
    (writable : ∀ term ∈ terms, term.Writable doubles) (extra : Nat → Nat) :
    parse doubles.numerals (writeQuery extra terms) = terms.map QueryTerm.condition := by
  induction terms with
  | nil => exact parse_nil _
  | cons term terms ih =>
    obtain ⟨first, others⟩ := List.forall_mem_cons.mp writable
    cases terms with
    | nil =>
      have parsed := first.parse_write [] nofun
      rwa [List.append_nil, parse_nil] at parsed
    | cons next terms =>
      have spaces : ∀ byte ∈ List.replicate (extra (next :: terms).length + 1) (0x20 : UInt8),
          ¬ (byte = 0x2B ∨ byte = 0x2D) := by
        intro byte inside
        rw [List.eq_of_mem_replicate inside]
        decide
      rw [writeQuery_cons_cons, List.append_assoc,
        first.parse_write _ (by simp [List.replicate_succ]), parse_skip_all _ spaces,
        ih others]
      rfl

section Meaning

variable {Value : Type}

/-- The value of the first property with the key. -/
def First (pairs : List (Text × Value)) (key : Text) (value : Value) : Prop :=
  ∃ before after, pairs = before ++ (key, value) :: after ∧ ∀ pair ∈ before, pair.1 ≠ key

theorem lookup_eq_some {pairs : List (Text × Value)} {key : Text} {value : Value} :
    pairs.lookup key = some value ↔ First pairs key value := by
  rw [List.lookup_eq_some_iff, First]
  simp only [bne_iff_ne, ne_comm]

end Meaning

namespace QueryTerm

/-- What a term asks of the properties of a ticket. -/
def Means (doubles : Doubles Double) (props : Properties Double) : QueryTerm Double → Prop
  | .equal key value => First props.strings key value
  | .unequal key value => ¬ First props.strings key value
  | .compare comparison key _ bound =>
    ∃ value, First props.numbers key value ∧ comparison.Holds doubles value bound

theorem holds_condition (doubles : Doubles Double) (props : Properties Double)
    (term : QueryTerm Double) :
    term.condition.holds doubles.numerals props = true ↔ term.Means doubles props := by
  cases term with
  | equal key value =>
    rw [Means, ← lookup_eq_some]
    exact decide_eq_true_iff
  | unequal key value =>
    rw [Means, ← lookup_eq_some]
    exact decide_eq_true_iff
  | compare comparison key literal bound =>
    simp only [Means, ← lookup_eq_some]
    cases found : props.numbers.lookup key with
    | none => simp [Condition.holds, condition, found]
    | some value =>
      cases comparison <;>
        simp [Condition.holds, condition, found, Comparison.op, Comparison.Holds,
          Doubles.numerals]

end QueryTerm

/-- For every list of terms that can be written, with any number of spaces between
them: `Parse` gives back their conditions in the same order, and `Evaluate` of what
it gives is the conjunction of what the terms mean. -/
theorem writeQuery_round_trip (doubles : Doubles Double) (terms : List (QueryTerm Double))
    (writable : ∀ term ∈ terms, term.Writable doubles) (extra : Nat → Nat) :
    parse doubles.numerals (writeQuery extra terms) = terms.map QueryTerm.condition ∧
      ∀ props, evaluate doubles.numerals
          (parse doubles.numerals (writeQuery extra terms)) props = true ↔
        ∀ term ∈ terms, term.Means doubles props := by
  have parsed := parse_writeQuery writable extra
  refine ⟨parsed, fun props => ?_⟩
  rw [parsed, evaluate, List.all_map, List.all_eq_true]
  exact forall₂_congr fun term _ => term.holds_condition doubles props

/-- Natural numbers in decimal digits. -/
def Doubles.naturals : Doubles Nat where
  read text :=
    let digits := text.takeWhile fun byte => 0x30 ≤ byte && byte ≤ 0x39
    if digits = [] then none
    else
      some (digits.foldl (fun value byte => value * 10 + (byte.toNat - 0x30)) 0,
        text.dropWhile fun byte => 0x30 ≤ byte && byte ≤ 0x39)
  read_eq {text value rest} found := by
    have outside : ∀ byte ∈ text.takeWhile (fun byte => 0x30 ≤ byte && byte ≤ 0x39),
        byte ≠ 0x20 ∧ byte ≠ 0x3D := by
      intro byte inside
      have digit := List.mem_takeWhile_imp inside
      constructor
      · rintro rfl
        exact absurd digit (by decide)
      · rintro rfl
        exact absurd digit (by decide)
    dsimp only at found
    split at found
    case isTrue => cases found
    case isFalse nonempty =>
      cases found
      exact ⟨_, nonempty, List.takeWhile_append_dropWhile.symm,
        fun space => (outside _ space).1 rfl, fun equals => (outside _ equals).2 rfl⟩
  ge value bound := bound ≤ value
  gt value bound := bound < value
  le value bound := value ≤ bound
  lt value bound := value < bound

/-- `+mode:ranked   -map:desert   +skill:>=40` of a ticket in ranked mode with skill 42. -/
theorem ranked_round_trip :
    let terms := [.equal (ascii "mode") (ascii "ranked"), .unequal (ascii "map") (ascii "desert"),
      .compare .gte (ascii "skill") (ascii "40") 40]
    writeQuery (fun _ => 2) terms = ascii "+mode:ranked   -map:desert   +skill:>=40" ∧
      (∀ term ∈ terms, term.Writable .naturals) ∧
      parse Doubles.naturals.numerals (writeQuery (fun _ => 2) terms) =
        terms.map QueryTerm.condition ∧
      ∀ term ∈ terms, term.Means .naturals
        { strings := [(ascii "mode", ascii "ranked")], numbers := [(ascii "skill", 42)] } := by
  intro terms
  have writable : ∀ term ∈ terms, term.Writable .naturals := by
    rw [List.forall_mem_cons, List.forall_mem_cons, List.forall_mem_singleton]
    exact ⟨⟨by decide, by decide⟩, ⟨by decide, by decide⟩, ⟨by decide, [], by decide, by decide⟩⟩
  obtain ⟨parsed, evaluated⟩ := writeQuery_round_trip .naturals terms writable fun _ => 2
  refine ⟨by decide, writable, parsed, (evaluated _).mp ?_⟩
  decide

end UringServer.Game
