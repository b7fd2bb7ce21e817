import UringServer.Semantics.Search
import UringServer.Web.RadixTree

/-!
# `QueryParser`

The queries of matchmaking tickets: `Parse` reads conditions of the form
`+key:value`, `+key:>=num` and `-key:value`, `Evaluate` asks them of the properties
of another ticket. What `double` offers is a parameter, so that what follows holds
whatever `std::from_chars` accepts and however the comparisons treat a NaN.
-/

namespace UringServer.Game

open UringServer.Semantics UringServer.Web

/-- `std::from_chars` and the comparisons of `double`. -/
structure Numerals (Double : Type) where
  /-- No value stands for an error code; what follows the number is ignored. -/
  fromChars : Text → Option Double
  ge : Double → Double → Bool
  gt : Double → Double → Bool
  le : Double → Double → Bool
  lt : Double → Double → Bool

/-- Enough for queries without numbers. -/
def Numerals.unread : Numerals Unit where
  fromChars _ := none
  ge _ _ := false
  gt _ _ := false
  le _ _ := false
  lt _ _ := false

/-- `QueryParser::Op`. -/
inductive Op where
  | eq
  | neq
  | gte
  | gt
  | lte
  | lt
  deriving DecidableEq

/-- The `std::variant` in a condition. -/
inductive Operand (Double : Type) where
  | text (value : Text)
  | number (value : Double)

/-- `QueryParser::Condition`. -/
structure Condition (Double : Type) where
  key : Text
  op : Op
  value : Operand Double

/-- `QueryParser::Properties`, the keys next to their values. -/
structure Properties (Double : Type) where
  strings : List (Text × Text) := []
  numbers : List (Text × Double) := []

variable {Double : Type}

/-- The operator in front of a value, and what is left of the value. -/
def splitOperator (value : Text) : Op × Text :=
  if (ascii ">=").isPrefixOf value then (.gte, value.drop 2)
  else if (ascii "<=").isPrefixOf value then (.lte, value.drop 2)
  else if (ascii ">").isPrefixOf value then (.gt, value.drop 1)
  else if (ascii "<").isPrefixOf value then (.lt, value.drop 1)
  else (.eq, value)

/-- The condition of a key and the text behind the colon. A number that cannot be
read leaves no condition. -/
def makeCondition (numerals : Numerals Double) (negate : Bool) (key value : Text) :
    Option (Condition Double) :=
  if negate then some ⟨key, .neq, .text value⟩
  else
    match splitOperator value with
    | (.eq, operand) => some ⟨key, .eq, .text operand⟩
    | (op, operand) => (numerals.fromChars operand).map (⟨key, op, .number ·⟩)

/-- The query from `pos` on, and `result`. -/
structure Parsing (Double : Type) where
  rest : Text
  result : List (Condition Double) := []

/-- One pass of the loop in `Parse`; the end of the query and both `break`s leave it. -/
def parseStep (numerals : Numerals Double) (parsing : Parsing Double) :
    Option (Parsing Double) :=
  match parsing.rest.dropWhile (· = 0x20) with
  | [] => none
  | sign :: rest =>
    if sign = 0x2B ∨ sign = 0x2D then
      match findFrom rest 0x3A 0 with
      | none => none
      | some colon =>
        let value := (rest.drop (colon + 1)).takeWhile (· ≠ 0x20)
        some
          { rest := (rest.drop (colon + 1)).dropWhile (· ≠ 0x20)
            result := parsing.result ++
              (makeCondition numerals (sign = 0x2D) (rest.take colon) value).toList }
    else
      -- Any other byte is skipped.
      some { parsing with rest := rest }

theorem parseStep_lt {numerals : Numerals Double} {parsing next : Parsing Double}
    (taken : parseStep numerals parsing = some next) :
    next.rest.length < parsing.rest.length := by
  have skipped := (List.dropWhile_sublist (fun byte => decide (byte = 0x20))
    (l := parsing.rest)).length_le
  unfold parseStep at taken
  split at taken
  case h_1 => cases taken
  case h_2 sign rest found =>
    rw [found, List.length_cons] at skipped
    split at taken
    case isTrue =>
      split at taken
      case h_1 => cases taken
      case h_2 colon _ =>
        cases taken
        have shorter := (List.dropWhile_sublist (fun byte => decide (byte ≠ 0x20))
          (l := rest.drop (colon + 1))).length_le
        rw [List.length_drop] at shorter
        dsimp only
        omega
    case isFalse =>
      cases taken
      dsimp only
      omega

/-- The loop of `Parse`. -/
def queryLoop (numerals : Numerals Double) : Loop (Parsing Double) where
  body := parseStep numerals
  Inv _ := True
  remaining parsing := parsing.rest.length
  preserved _ _ := trivial
  decreases _ taken := parseStep_lt taken

/-- `QueryParser::Parse`. -/
def parse (numerals : Numerals Double) (query : Text) : List (Condition Double) :=
  ((queryLoop numerals).run { rest := query }).result

section Passes

theorem findFrom_zero {byte : UInt8} {before : Text} (absent : byte ∉ before) (after : Text) :
    findFrom (before ++ byte :: after) byte 0 = some before.length := by
  have early : before.findIdx? (· = byte) = none := by
    rw [List.findIdx?_eq_none_iff]
    intro other inside
    exact decide_eq_false (fun same => absent (same ▸ inside))
  simp [findFrom, List.findIdx?_append, early, List.findIdx?_cons]

variable (numerals : Numerals Double)

/-- What was found before is kept in front. -/
theorem parseStep_result (rest : Text) (result : List (Condition Double)) :
    parseStep numerals ⟨rest, result⟩ =
      (parseStep numerals ⟨rest, []⟩).map fun next => ⟨next.rest, result ++ next.result⟩ := by
  unfold parseStep
  dsimp only
  split
  case h_1 => rfl
  case h_2 sign rest found =>
    split
    case isTrue => split <;> rfl
    case isFalse => simp

theorem result_run (rest : Text) (result : List (Condition Double)) :
    ((queryLoop numerals).run ⟨rest, result⟩).result = result ++ parse numerals rest := by
  cases taken : parseStep numerals ⟨rest, []⟩ with
  | none =>
    have left : parseStep numerals ⟨rest, result⟩ = none := by
      rw [parseStep_result, taken, Option.map_none]
    rw [parse, Loop.run_of_none left, Loop.run_of_none taken, List.append_nil]
  | some next =>
    have shorter := parseStep_lt taken
    have along : parseStep numerals ⟨rest, result⟩ =
        some ⟨next.rest, result ++ next.result⟩ := by
      rw [parseStep_result, taken, Option.map_some]
    have alone : parse numerals rest = next.result ++ parse numerals next.rest := by
      rw [parse, Loop.run_of_some trivial taken]
      exact result_run next.rest next.result
    rw [Loop.run_of_some trivial along, alone, ← List.append_assoc]
    exact result_run next.rest (result ++ next.result)
termination_by rest.length

variable {numerals} {query rest : Text}

theorem parse_of_none (left : parseStep numerals ⟨query, []⟩ = none) :
    parse numerals query = [] := by
  rw [parse, Loop.run_of_none left]

theorem parse_of_some {next : Parsing Double} (taken : parseStep numerals ⟨query, []⟩ = some next) :
    parse numerals query = next.result ++ parse numerals next.rest := by
  rw [parse, Loop.run_of_some trivial taken, result_run]

variable (numerals)

theorem parse_nil : parse numerals [] = [] := parse_of_none rfl

/-- A byte in front that is no sign changes nothing. -/
theorem parse_skip {byte : UInt8} (unsigned : ¬ (byte = 0x2B ∨ byte = 0x2D)) (rest : Text) :
    parse numerals (byte :: rest) = parse numerals rest := by
  by_cases space : byte = 0x20
  · have same : parseStep numerals ⟨byte :: rest, []⟩ = parseStep numerals ⟨rest, []⟩ := by
      simp [parseStep, space]
    cases taken : parseStep numerals ⟨rest, []⟩ with
    | none => rw [parse_of_none taken, parse_of_none (same.trans taken)]
    | some next => rw [parse_of_some taken, parse_of_some (same.trans taken)]
  · have taken : parseStep numerals ⟨byte :: rest, []⟩ = some ⟨rest, []⟩ := by
      simp [parseStep, space, unsigned]
    rw [parse_of_some taken, List.nil_append]

theorem parse_skip_all {skipped : Text}
    (unsigned : ∀ byte ∈ skipped, ¬ (byte = 0x2B ∨ byte = 0x2D)) (rest : Text) :
    parse numerals (skipped ++ rest) = parse numerals rest := by
  induction skipped with
  | nil => rfl
  | cons byte skipped ih =>
    obtain ⟨first, others⟩ := List.forall_mem_cons.mp unsigned
    rw [List.cons_append, parse_skip numerals first, ih others]

variable {sign : UInt8} (signed : sign = 0x2B ∨ sign = 0x2D)
include signed

theorem not_space_of_signed : sign ≠ 0x20 := by
  rintro rfl
  exact absurd signed (by decide)

/-- A key without a colon leaves the loop. -/
theorem parse_unclosed (noColon : 0x3A ∉ rest) : parse numerals (sign :: rest) = [] := by
  have absent : findFrom rest 0x3A 0 = none := by
    have early : rest.findIdx? (· = 0x3A) = none := by
      rw [List.findIdx?_eq_none_iff]
      intro byte inside
      exact decide_eq_false (fun same => noColon (same ▸ inside))
    simp [findFrom, early]
  refine parse_of_none ?_
  simp [parseStep, not_space_of_signed signed, signed, absent]

/-- One condition, in front of the end or of a space. -/
theorem parse_condition {key value : Text} (noColon : 0x3A ∉ key) (noSpace : 0x20 ∉ value)
    (rest : Text) (ends : ∀ byte ∈ rest.head?, byte = 0x20) :
    parse numerals (sign :: (key ++ 0x3A :: (value ++ rest))) =
      (makeCondition numerals (sign = 0x2D) key value).toList ++ parse numerals rest := by
  have colon := findFrom_zero noColon (value ++ rest)
  have behind : (key ++ 0x3A :: (value ++ rest)).drop (key.length + 1) = value ++ rest := by
    rw [← List.drop_drop, List.drop_left, List.drop_one, List.tail_cons]
  have inValue : ∀ byte ∈ value, decide (byte ≠ 0x20) = true := by
    intro byte inside
    exact decide_eq_true (fun same => noSpace (same ▸ inside))
  have stops : ∀ byte ∈ rest.head?, decide (byte ≠ 0x20) = false := by
    intro byte first
    exact decide_eq_false (not_not.mpr (ends byte first))
  have taken : parseStep numerals ⟨sign :: (key ++ 0x3A :: (value ++ rest)), []⟩ =
      some ⟨rest, (makeCondition numerals (sign = 0x2D) key value).toList⟩ := by
    simp only [parseStep, List.dropWhile_cons, not_space_of_signed signed, decide_false,
      Bool.false_eq_true, if_false, signed, if_true, colon, behind, List.take_left,
      takeWhile_append_of_boundary inValue stops, dropWhile_append_of_boundary inValue stops,
      List.nil_append]
  exact parse_of_some taken

end Passes

/-- What `Evaluate` asks of one condition. A property that is missing fails every
comparison and every `+key:value`, and passes every `-key:value`. -/
def Condition.holds (numerals : Numerals Double) (props : Properties Double)
    (condition : Condition Double) : Bool :=
  match condition.value with
  | .number bound =>
    match props.numbers.lookup condition.key with
    | none => false
    | some value =>
      match condition.op with
      | .gte => numerals.ge value bound
      | .gt => numerals.gt value bound
      | .lte => numerals.le value bound
      | .lt => numerals.lt value bound
      | .eq | .neq => false
  | .text wanted =>
    match condition.op with
    | .eq => props.strings.lookup condition.key = some wanted
    | .neq => props.strings.lookup condition.key ≠ some wanted
    | .gte | .gt | .lte | .lt => false

/-- `QueryParser::Evaluate`. -/
def evaluate (numerals : Numerals Double) (conditions : List (Condition Double))
    (props : Properties Double) : Bool :=
  conditions.all (·.holds numerals props)

end UringServer.Game
