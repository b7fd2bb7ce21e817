import Mathlib.Data.List.TakeWhile
import UringServer.Game.QueryParser

/-!
# The tokens of a query

Conditions are written one after the other with a space between them. `Parse` looks
for the colon of a condition in all of the query that is left, so a token with a
sign and no colon takes the key of its condition from the tokens behind it.
`parseTokens` is that scan, a token at a time.
-/

namespace UringServer.Game

open UringServer.Semantics UringServer.Web

variable {Double : Type}

/-- The token from its first sign on. -/
def fromSign (token : Text) : Text :=
  token.dropWhile fun byte => ¬ (byte = 0x2B ∨ byte = 0x2D)

/-- The text in front of the first colon. -/
def beforeColon (text : Text) : Text := text.takeWhile (· ≠ 0x3A)

/-- The text behind the first colon. -/
def behindColon (text : Text) : Text := (text.dropWhile (· ≠ 0x3A)).tail

/-- The condition that a token opens and does not close: its first sign has no colon behind it.
With `negate` and with what the token has of the key. -/
def leftOpen (token : Text) : Option (Bool × Text) :=
  match fromSign token with
  | [] => none
  | sign :: key => if 0x3A ∈ key then none else some (sign = 0x2D, key)

/-- A comparison with a number that `std::from_chars` does not read. -/
def Refused (numerals : Numerals Double) (negate : Bool) (value : Text) : Prop :=
  negate = false ∧ (splitOperator value).1 ≠ .eq ∧
    numerals.fromChars (splitOperator value).2 = none

/-- The token has no condition of its own: no sign, no colon behind its first sign, or a number that
is refused. -/
def Fruitless (numerals : Numerals Double) (token : Text) : Prop :=
  match fromSign token with
  | [] => True
  | sign :: after => 0x3A ∈ after → Refused numerals (sign = 0x2D) (behindColon after)

/-- A condition that is left open takes the next token with a colon. That changes nothing exactly if
neither this token alone nor the condition with its value leaves anything. -/
def Separate (numerals : Numerals Double) : Option Bool → List Text → Prop
  | _, [] => True
  | none, token :: tokens => Separate numerals ((leftOpen token).map Prod.fst) tokens
  | some negate, token :: tokens =>
    if 0x3A ∈ token then
      Fruitless numerals token ∧ Refused numerals negate (behindColon token) ∧
        Separate numerals none tokens
    else Separate numerals (some negate) tokens

/-- `Parse` on tokens, with the condition whose colon is still to come. -/
def parseTokens (numerals : Numerals Double) :
    Option (Bool × Text) → List Text → List (Condition Double)
  | _, [] => []
  | none, token :: tokens =>
    parse numerals token ++ parseTokens numerals (leftOpen token) tokens
  | some (negate, key), token :: tokens =>
    if 0x3A ∈ token then
      (makeCondition numerals negate (key ++ 0x20 :: beforeColon token)
        (behindColon token)).toList ++ parseTokens numerals none tokens
    else parseTokens numerals (some (negate, key ++ 0x20 :: token)) tokens

/-- The text of a condition that was left open. -/
def pending : Option (Bool × Text) → Text
  | none => []
  | some (negate, key) => (if negate then 0x2D else 0x2B) :: key

section Forms

variable {token skipped after key value : Text} {sign : UInt8}

/-- A token has no sign, or a first one. -/
theorem unsigned_or_signed (token : Text) :
    (∀ byte ∈ token, ¬ (byte = 0x2B ∨ byte = 0x2D)) ∨
      ∃ skipped sign after, token = skipped ++ sign :: after ∧
        (∀ byte ∈ skipped, ¬ (byte = 0x2B ∨ byte = 0x2D)) ∧ (sign = 0x2B ∨ sign = 0x2D) := by
  induction token with
  | nil => exact .inl nofun
  | cons byte token ih =>
    by_cases signed : byte = 0x2B ∨ byte = 0x2D
    · exact .inr ⟨[], byte, token, rfl, nofun, signed⟩
    · rcases ih with unsigned | ⟨skipped, sign, after, rfl, unsigned, later⟩
      · exact .inl (List.forall_mem_cons.mpr ⟨signed, unsigned⟩)
      · exact .inr ⟨byte :: skipped, sign, after, rfl,
          List.forall_mem_cons.mpr ⟨signed, unsigned⟩, later⟩

theorem fromSign_unsigned (unsigned : ∀ byte ∈ token, ¬ (byte = 0x2B ∨ byte = 0x2D)) :
    fromSign token = [] := by
  rw [fromSign, List.dropWhile_eq_nil_iff]
  intro byte inside
  exact decide_eq_true (unsigned byte inside)

theorem fromSign_signed (unsigned : ∀ byte ∈ skipped, ¬ (byte = 0x2B ∨ byte = 0x2D))
    (signed : sign = 0x2B ∨ sign = 0x2D) : fromSign (skipped ++ sign :: after) = sign :: after := by
  refine dropWhile_append_of_boundary ?_ ?_
  · exact fun byte inside => decide_eq_true (unsigned byte inside)
  · intro byte first
    cases first
    exact decide_eq_false (not_not.mpr signed)

theorem colon_split (noColon : 0x3A ∉ key) (value : Text) :
    beforeColon (key ++ 0x3A :: value) = key ∧ behindColon (key ++ 0x3A :: value) = value := by
  have inKey : ∀ byte ∈ key, decide (byte ≠ 0x3A) = true := by
    intro byte inside
    exact decide_eq_true (fun same => noColon (same ▸ inside))
  have stops : ∀ byte ∈ (0x3A :: value : Text).head?, decide (byte ≠ 0x3A) = false := by
    intro byte first
    cases first
    rfl
  rw [beforeColon, behindColon, takeWhile_append_of_boundary inKey stops,
    dropWhile_append_of_boundary inKey stops]
  exact ⟨rfl, rfl⟩

end Forms

section Parsing

variable (numerals : Numerals Double) {token text rest : Text}

theorem parse_unsigned (unsigned : ∀ byte ∈ token, ¬ (byte = 0x2B ∨ byte = 0x2D)) :
    parse numerals token = [] := by
  have skipped := parse_skip_all numerals unsigned []
  rwa [List.append_nil, parse_nil] at skipped

/-- Without a colon there is no condition. -/
theorem parse_of_no_colon (noColon : 0x3A ∉ text) : parse numerals text = [] := by
  rcases unsigned_or_signed text with unsigned | ⟨skipped, sign, after, rfl, unsigned, signed⟩
  · exact parse_unsigned numerals unsigned
  · rw [parse_skip_all numerals unsigned]
    exact parse_unclosed numerals signed fun inside => noColon (by simp [inside])

/-- One condition and nothing behind it. -/
theorem parse_alone {sign : UInt8} (signed : sign = 0x2B ∨ sign = 0x2D) {key value : Text}
    (noColon : 0x3A ∉ key) (noSpace : 0x20 ∉ value) :
    parse numerals (sign :: (key ++ 0x3A :: value)) =
      (makeCondition numerals (sign = 0x2D) key value).toList := by
  have parsed := parse_condition numerals signed noColon noSpace [] nofun
  rwa [List.append_nil, parse_nil, List.append_nil] at parsed

theorem makeCondition_eq_none_iff {negate : Bool} {key value : Text} :
    makeCondition numerals negate key value = none ↔ Refused numerals negate value := by
  unfold makeCondition Refused
  cases negate with
  | true => simp
  | false =>
    obtain ⟨op, operand⟩ := splitOperator value
    cases op <;> simp

theorem fruitless_iff (noSpace : 0x20 ∉ token) :
    Fruitless numerals token ↔ parse numerals token = [] := by
  rcases unsigned_or_signed token with unsigned | ⟨skipped, sign, after, rfl, unsigned, signed⟩
  · simp [Fruitless, fromSign_unsigned unsigned, parse_unsigned numerals unsigned]
  · simp only [Fruitless, fromSign_signed unsigned signed, parse_skip_all numerals unsigned]
    by_cases closed : 0x3A ∈ after
    · obtain ⟨key, value, rfl, noColon⟩ := List.eq_append_cons_of_mem closed
      have valueNoSpace : 0x20 ∉ value := fun inside => noSpace (by simp [inside])
      rw [parse_alone numerals signed noColon valueNoSpace, Option.toList_eq_nil_iff,
        makeCondition_eq_none_iff, (colon_split noColon value).2]
      simp
    · simp [closed, parse_unclosed numerals signed closed]

/-- A token in front of the end or of a space: its condition, or one that is left open. -/
theorem parse_append (noSpace : 0x20 ∉ token) (ends : ∀ byte ∈ rest.head?, byte = 0x20) :
    parse numerals (token ++ rest) =
      parse numerals token ++ parse numerals (pending (leftOpen token) ++ rest) := by
  rcases unsigned_or_signed token with unsigned | ⟨skipped, sign, after, rfl, unsigned, signed⟩
  · rw [parse_skip_all numerals unsigned, parse_unsigned numerals unsigned, leftOpen,
      fromSign_unsigned unsigned]
    rfl
  · rw [List.append_assoc, parse_skip_all numerals unsigned, parse_skip_all numerals unsigned,
      leftOpen, fromSign_signed unsigned signed]
    by_cases closed : 0x3A ∈ after
    · obtain ⟨key, value, rfl, noColon⟩ := List.eq_append_cons_of_mem closed
      have valueNoSpace : 0x20 ∉ value := fun inside => noSpace (by simp [inside])
      rw [parse_alone numerals signed noColon valueNoSpace]
      simpa [pending] using parse_condition numerals signed noColon valueNoSpace rest ends
    · rw [parse_unclosed numerals signed closed]
      rcases signed with rfl | rfl <;> simp [closed, pending]

theorem makeCondition_key {negate : Bool} {key value : Text} {condition : Condition Double}
    (made : makeCondition numerals negate key value = some condition) : condition.key = key := by
  unfold makeCondition at made
  split at made
  case isTrue =>
    cases made
    rfl
  case isFalse =>
    split at made
    case h_1 =>
      cases made
      rfl
    case h_2 =>
      obtain ⟨number, -, rfl⟩ := Option.map_eq_some_iff.mp made
      rfl

/-- The keys of a token are parts of it. -/
theorem noSpace_of_mem_parse (noSpace : 0x20 ∉ token) {condition : Condition Double}
    (found : condition ∈ parse numerals token) : 0x20 ∉ condition.key := by
  rcases unsigned_or_signed token with unsigned | ⟨skipped, sign, after, rfl, unsigned, signed⟩
  · rw [parse_unsigned numerals unsigned] at found
    cases found
  · rw [parse_skip_all numerals unsigned] at found
    by_cases closed : 0x3A ∈ after
    · obtain ⟨key, value, rfl, noColon⟩ := List.eq_append_cons_of_mem closed
      have valueNoSpace : 0x20 ∉ value := fun inside => noSpace (by simp [inside])
      rw [parse_alone numerals signed noColon valueNoSpace, Option.mem_toList] at found
      rw [makeCondition_key numerals found]
      exact fun inside => noSpace (by simp [inside])
    · rw [parse_unclosed numerals signed closed] at found
      cases found

end Parsing

section Apart

variable (numerals : Numerals Double) {tokens : List Text} {opened : Option (Bool × Text)}

theorem noColon_leftOpen {token : Text} : ∀ condition ∈ leftOpen token, 0x3A ∉ condition.2 := by
  intro condition found
  unfold leftOpen at found
  split at found
  case h_1 => cases found
  case h_2 sign key _ =>
    obtain ⟨noColon, same⟩ := Option.ite_none_left_eq_some.mp found
    cases same
    exact noColon

/-- The scan of the bytes is the scan of the tokens. -/
theorem parse_pending (noSpace : ∀ token ∈ tokens, 0x20 ∉ token)
    (noColon : ∀ condition ∈ opened, 0x3A ∉ condition.2) :
    parse numerals (pending opened ++ tokens.flatMap (0x20 :: ·)) =
      parseTokens numerals opened tokens := by
  induction tokens generalizing opened with
  | nil =>
    rw [List.flatMap_nil, List.append_nil]
    cases opened with
    | none => exact parse_nil numerals
    | some condition =>
      refine parse_unclosed numerals ?_ (noColon condition rfl)
      cases condition.1 <;> decide
  | cons token tokens ih =>
    obtain ⟨first, others⟩ := List.forall_mem_cons.mp noSpace
    have ends : ∀ byte ∈ (tokens.flatMap (0x20 :: ·) : Text).head?, byte = 0x20 := by
      cases tokens <;> simp
    rw [List.flatMap_cons]
    cases opened with
    | none =>
      change parse numerals (0x20 :: (token ++ _)) = _
      rw [parse_skip numerals (by decide), parse_append numerals first ends,
        ih others noColon_leftOpen, parseTokens]
    | some condition =>
      obtain ⟨negate, key⟩ := condition
      have keyNoColon : 0x3A ∉ key := noColon _ rfl
      have signed : (if negate then 0x2D else 0x2B : UInt8) = 0x2B ∨
          (if negate then 0x2D else 0x2B : UInt8) = 0x2D := by cases negate <;> decide
      by_cases colon : 0x3A ∈ token
      · obtain ⟨before, value, rfl, beforeNoColon⟩ := List.eq_append_cons_of_mem colon
        have wholeNoColon : 0x3A ∉ key ++ 0x20 :: before := by simp [keyNoColon, beforeNoColon]
        have valueNoSpace : 0x20 ∉ value := fun inside => first (by simp [inside])
        have taken := parse_condition numerals signed wholeNoColon valueNoSpace _ ends
        obtain ⟨sameKey, sameValue⟩ := colon_split beforeNoColon value
        rw [parseTokens, if_pos colon, sameKey, sameValue, ← ih others (by simp)]
        cases negate <;> simpa [pending] using taken
      · have longer : 0x3A ∉ key ++ 0x20 :: token := by simp [keyNoColon, colon]
        rw [parseTokens, if_neg colon, ← ih others (by simpa using longer)]
        simp [pending]

/-- A condition that a token closes for another one has a space in its key. -/
theorem countP_parseTokens_le (opened : Option (Bool × Text))
    (noSpace : ∀ token ∈ tokens, 0x20 ∉ token) :
    (parseTokens numerals opened tokens).countP (fun condition => 0x20 ∉ condition.key) ≤
      (tokens.flatMap (parse numerals)).length := by
  induction tokens generalizing opened with
  | nil => simp [parseTokens]
  | cons token tokens ih =>
    obtain ⟨first, others⟩ := List.forall_mem_cons.mp noSpace
    rw [List.flatMap_cons, List.length_append]
    cases opened with
    | none =>
      rw [parseTokens, List.countP_append]
      exact Nat.add_le_add List.countP_le_length (ih _ others)
    | some condition =>
      obtain ⟨negate, key⟩ := condition
      rw [parseTokens]
      split
      case isTrue =>
        have spaced : ((makeCondition numerals negate (key ++ 0x20 :: beforeColon token)
            (behindColon token)).toList).countP (fun condition => 0x20 ∉ condition.key) = 0 := by
          rw [List.countP_eq_zero]
          intro condition made
          rw [makeCondition_key numerals (Option.mem_toList.mp made)]
          simp
        rw [List.countP_append, spaced, Nat.zero_add]
        exact (ih _ others).trans (Nat.le_add_left _ _)
      case isFalse => exact (ih _ others).trans (Nat.le_add_left _ _)

/-- So are the keys of all tokens, each read alone. -/
theorem noSpace_of_mem_flatMap (noSpace : ∀ token ∈ tokens, 0x20 ∉ token)
    {condition : Condition Double} (found : condition ∈ tokens.flatMap (parse numerals)) :
    0x20 ∉ condition.key := by
  obtain ⟨token, among, found⟩ := List.mem_flatMap.mp found
  exact noSpace_of_mem_parse numerals (noSpace token among) found

/-- More conditions without spaces than the tokens have alone are never found. -/
theorem parseTokens_eq_append_iff (noSpace : ∀ token ∈ tokens, 0x20 ∉ token) {token : Text}
    (first : 0x20 ∉ token) :
    parseTokens numerals opened tokens = parse numerals token ++ tokens.flatMap (parse numerals) ↔
      parse numerals token = [] ∧
        parseTokens numerals opened tokens = tokens.flatMap (parse numerals) := by
  constructor
  · intro same
    have counted := countP_parseTokens_le numerals opened noSpace
    have unspaced : ∀ condition ∈ parse numerals token ++ tokens.flatMap (parse numerals),
        decide (0x20 ∉ condition.key) = true := by
      intro condition found
      rw [← List.flatMap_cons] at found
      have all : ∀ part ∈ token :: tokens, 0x20 ∉ part :=
        List.forall_mem_cons.mpr ⟨first, noSpace⟩
      exact decide_eq_true (noSpace_of_mem_flatMap numerals all found)
    rw [same, List.countP_eq_length.mpr unspaced, List.length_append] at counted
    have nothing : parse numerals token = [] := List.eq_nil_of_length_eq_zero (by omega)
    rw [nothing, List.nil_append] at same
    exact ⟨nothing, same⟩
  · rintro ⟨nothing, same⟩
    rw [nothing, List.nil_append, same]

/-- Exactly when each token is read as if alone. -/
theorem parseTokens_eq_flatMap_iff (noSpace : ∀ token ∈ tokens, 0x20 ∉ token) :
    parseTokens numerals opened tokens = tokens.flatMap (parse numerals) ↔
      Separate numerals (opened.map Prod.fst) tokens := by
  induction tokens generalizing opened with
  | nil => cases opened <;> simp [parseTokens, Separate]
  | cons token tokens ih =>
    obtain ⟨first, others⟩ := List.forall_mem_cons.mp noSpace
    rw [List.flatMap_cons]
    cases opened with
    | none =>
      rw [parseTokens, List.append_cancel_left_eq, ih others]
      rfl
    | some condition =>
      obtain ⟨negate, key⟩ := condition
      simp only [Option.map_some, Separate, parseTokens]
      by_cases colon : 0x3A ∈ token
      · rw [if_pos colon, if_pos colon]
        cases made : makeCondition numerals negate (key ++ 0x20 :: beforeColon token)
            (behindColon token) with
        | none =>
          have refused := (makeCondition_eq_none_iff numerals).mp made
          rw [Option.toList_none, List.nil_append, parseTokens_eq_append_iff numerals others first,
            ih others, fruitless_iff numerals first]
          simp [refused]
        | some taken =>
          have kept : ¬ Refused numerals negate (behindColon token) := by
            rw [← makeCondition_eq_none_iff numerals, made]
            simp
          refine iff_of_false ?_ (fun separate => kept separate.2.1)
          intro same
          have found : taken ∈ (token :: tokens).flatMap (parse numerals) := by
            rw [List.flatMap_cons, ← same]
            simp
          refine noSpace_of_mem_flatMap numerals noSpace found ?_
          rw [makeCondition_key numerals made]
          simp
      · rw [if_neg colon, if_neg colon, parse_of_no_colon numerals colon, List.nil_append,
          ih others]
        rfl

theorem intercalate_space (token : Text) (tokens : List Text) :
    [0x20].intercalate (token :: tokens) = token ++ tokens.flatMap (0x20 :: ·) := by
  induction tokens generalizing token with
  | nil => simp
  | cons next tokens ih =>
    rw [List.intercalate_cons_cons, ih]
    simp

end Apart

/-- Joined by single spaces, the tokens are parsed as each of them alone. -/
def ParsedApart (numerals : Numerals Double) (tokens : List Text) : Prop :=
  parse numerals ([0x20].intercalate tokens) = tokens.flatMap (parse numerals)

/-- Tokens without spaces are parsed apart exactly if every token with a colon that is taken into a
condition left open before it neither has a condition of its own nor closes one. -/
theorem parsedApart_iff (numerals : Numerals Double) (tokens : List Text)
    (noSpace : ∀ token ∈ tokens, 0x20 ∉ token) :
    ParsedApart numerals tokens ↔ Separate numerals none tokens := by
  have spaced : parse numerals ([0x20].intercalate tokens) = parseTokens numerals none tokens := by
    rw [← parse_pending numerals noSpace (by simp)]
    cases tokens with
    | nil => rfl
    | cons token tokens =>
      rw [intercalate_space]
      exact (parse_skip numerals (by decide) _).symm
  rw [ParsedApart, spaced]
  exact parseTokens_eq_flatMap_iff numerals noSpace

/-- Two conditions and a word that is none. -/
theorem mode_map_parsedApart :
    (∀ token ∈ [ascii "+mode:ranked", ascii "fast", ascii "-map:desert"], 0x20 ∉ token) ∧
      ∀ numerals : Numerals Unit,
        ParsedApart numerals [ascii "+mode:ranked", ascii "fast", ascii "-map:desert"] := by
  have noSpace : ∀ token ∈ [ascii "+mode:ranked", ascii "fast", ascii "-map:desert"],
      0x20 ∉ token := by decide
  exact ⟨noSpace, fun numerals => (parsedApart_iff numerals _ noSpace).mpr trivial⟩

/-- `+ranked -map:desert` asks for a property `ranked -map`, and no longer refuses the map. -/
theorem ranked_not_parsedApart :
    (∀ token ∈ [ascii "+ranked", ascii "-map:desert"], 0x20 ∉ token) ∧
      (parse .unread ([0x20].intercalate [ascii "+ranked", ascii "-map:desert"])).map
          (fun condition => (condition.key, condition.op)) = [(ascii "ranked -map", .eq)] ∧
      ([ascii "+ranked", ascii "-map:desert"].flatMap (parse .unread)).map
          (fun condition => (condition.key, condition.op)) = [(ascii "map", .neq)] ∧
      ¬ ParsedApart .unread [ascii "+ranked", ascii "-map:desert"] := by
  have joined : (parse .unread ([0x20].intercalate [ascii "+ranked", ascii "-map:desert"])).map
      (fun condition => (condition.key, condition.op)) = [(ascii "ranked -map", .eq)] := by
    decide
  have apart : ([ascii "+ranked", ascii "-map:desert"].flatMap (parse .unread)).map
      (fun condition => (condition.key, condition.op)) = [(ascii "map", .neq)] := by
    decide
  refine ⟨by decide, joined, apart, ?_⟩
  intro same
  rw [ParsedApart] at same
  rw [same, apart] at joined
  exact absurd joined (by decide)

end UringServer.Game
