import Mathlib.Data.List.Lex
import UringServer.Web.RadixTree

/-!
# What a set of routes selects

A pattern is its segments with the names of parameters and wildcards dropped. A
table says which handler a pattern has. Among the patterns of a table that match
a path the smallest is selected, comparing segment by segment with static before
parameter before wildcard. `select` searches in that order, and
`select_selects` says that it finds that pattern.
-/

namespace UringServer.Web

/-- A segment of a pattern. -/
inductive PatternSegment where
  | static (text : Text)
  | param
  | wildcard
deriving DecidableEq

namespace PatternSegment

/-- Static before parameter before wildcard. -/
def rank : PatternSegment → Nat
  | .static _ => 0
  | .param => 1
  | .wildcard => 2

end PatternSegment

/-- A pattern. -/
abbrev Pattern := List PatternSegment

/-- The pattern of the segments of a route; a wildcard cuts it. -/
def patternOf : List Text → Pattern
  | [] => []
  | segment :: rest =>
    if isWildcard segment then
      [.wildcard]
    else if isParam segment then
      .param :: patternOf rest
    else
      .static segment :: patternOf rest

/-- Whether a pattern matches the segments of a path. -/
def Matches : Pattern → List Text → Prop
  | [], [] => True
  | .static text :: pattern, segment :: rest => text = segment ∧ Matches pattern rest
  | .param :: pattern, _ :: rest => Matches pattern rest
  | [.wildcard], _ :: _ => True
  | _, _ => False

/-- The first pattern is the smaller one. -/
def Precedes (pattern other : Pattern) : Prop :=
  List.Lex (fun left right => left.rank < right.rank) pattern other

section Select

variable {Handler : Type}

/-- `pattern` is the one a table selects for a path. -/
structure Selects (table : Pattern → Option Handler) (segments : List Text) (pattern : Pattern) :
    Prop where
  registered : table pattern ≠ none
  matching : Matches pattern segments
  smallest : ∀ other, table other ≠ none → Matches other segments →
    other = pattern ∨ Precedes pattern other

/-- The search for the selected pattern, segment by segment. -/
def select (table : Pattern → Option Handler) : List Text → Option Handler
  | [] => table []
  | segment :: rest =>
    (select (fun pattern => table (.static segment :: pattern)) rest).or
      ((select (fun pattern => table (.param :: pattern)) rest).or (table [.wildcard]))

/-- How a pattern can match a path that has a segment. -/
theorem matches_cons_iff {pattern : Pattern} {segment : Text} {rest : List Text} :
    Matches pattern (segment :: rest) ↔
      (∃ tail, pattern = .static segment :: tail ∧ Matches tail rest) ∨
        (∃ tail, pattern = .param :: tail ∧ Matches tail rest) ∨ pattern = [.wildcard] := by
  match pattern with
  | [] => simp [Matches]
  | .static text :: tail => simp [Matches, and_comm, eq_comm]
  | .param :: tail => simp [Matches]
  | [.wildcard] => simp [Matches]
  | .wildcard :: _ :: _ => simp [Matches]

theorem matches_nil_iff {pattern : Pattern} : Matches pattern [] ↔ pattern = [] := by
  match pattern with
  | [] => simp [Matches]
  | .static text :: tail => simp [Matches]
  | .param :: tail => simp [Matches]
  | [.wildcard] => simp [Matches]
  | .wildcard :: _ :: _ => simp [Matches]

variable {table : Pattern → Option Handler} {segments : List Text}

/-- The search fails exactly when no registered pattern matches. -/
theorem select_eq_none_iff :
    select table segments = none ↔ ∀ pattern, Matches pattern segments → table pattern = none := by
  induction segments generalizing table with
  | nil => simp [select, matches_nil_iff]
  | cons segment rest ih =>
    simp only [select, Option.or_eq_none_iff, ih, matches_cons_iff]
    constructor
    · rintro ⟨static, param, wildcard⟩ pattern
        (⟨tail, rfl, tailMatches⟩ | ⟨tail, rfl, tailMatches⟩ | rfl)
      · exact static tail tailMatches
      · exact param tail tailMatches
      · exact wildcard
    · intro none_
      exact ⟨fun tail tailMatches => none_ _ (.inl ⟨tail, rfl, tailMatches⟩),
        fun tail tailMatches => none_ _ (.inr (.inl ⟨tail, rfl, tailMatches⟩)),
        none_ _ (.inr (.inr rfl))⟩

section Branches

variable {table : Pattern → Option Handler} {segment : Text} {rest : List Text} {tail : Pattern}

/-- What is selected behind a static segment is selected. -/
theorem Selects.static
    (selects : Selects (fun pattern => table (.static segment :: pattern)) rest tail) :
    Selects table (segment :: rest) (.static segment :: tail) := by
  refine ⟨selects.registered, ⟨rfl, selects.matching⟩, ?_⟩
  intro other registered matching
  rcases matches_cons_iff.mp matching with
    ⟨otherTail, rfl, tailMatches⟩ | ⟨otherTail, rfl, tailMatches⟩ | rfl
  · rcases selects.smallest otherTail registered tailMatches with rfl | smaller
    · exact .inl rfl
    · exact .inr (.cons smaller)
  · exact .inr (.rel Nat.zero_lt_one)
  · exact .inr (.rel Nat.zero_lt_two)

/-- What is selected behind a parameter is selected if nothing is behind the static segment. -/
theorem Selects.param
    (noStatic : select (fun pattern => table (.static segment :: pattern)) rest = none)
    (selects : Selects (fun pattern => table (.param :: pattern)) rest tail) :
    Selects table (segment :: rest) (.param :: tail) := by
  refine ⟨selects.registered, selects.matching, ?_⟩
  intro other registered matching
  rcases matches_cons_iff.mp matching with
    ⟨otherTail, rfl, tailMatches⟩ | ⟨otherTail, rfl, tailMatches⟩ | rfl
  · exact absurd (select_eq_none_iff.mp noStatic otherTail tailMatches) registered
  · rcases selects.smallest otherTail registered tailMatches with rfl | smaller
    · exact .inl rfl
    · exact .inr (.cons smaller)
  · exact .inr (.rel Nat.one_lt_two)

/-- A wildcard is selected if nothing else is. -/
theorem Selects.wildcard
    (noStatic : select (fun pattern => table (.static segment :: pattern)) rest = none)
    (noParam : select (fun pattern => table (.param :: pattern)) rest = none)
    (registered : table [.wildcard] ≠ none) : Selects table (segment :: rest) [.wildcard] := by
  refine ⟨registered, trivial, ?_⟩
  intro other registered matching
  rcases matches_cons_iff.mp matching with
    ⟨otherTail, rfl, tailMatches⟩ | ⟨otherTail, rfl, tailMatches⟩ | rfl
  · exact absurd (select_eq_none_iff.mp noStatic otherTail tailMatches) registered
  · exact absurd (select_eq_none_iff.mp noParam otherTail tailMatches) registered
  · exact .inl rfl

theorem Selects.nil (registered : table [] ≠ none) : Selects table [] [] :=
  ⟨registered, trivial, fun _ _ matching => .inl (matches_nil_iff.mp matching)⟩

end Branches

/-- What the search finds is the handler of the selected pattern. -/
theorem select_selects {handler : Handler} (found : select table segments = some handler) :
    ∃ pattern, table pattern = some handler ∧ Selects table segments pattern := by
  induction segments generalizing table with
  | nil => exact ⟨[], found, .nil (by simp [show table [] = some handler from found])⟩
  | cons segment rest ih =>
    rw [select, Option.or_eq_some_iff, Option.or_eq_some_iff] at found
    rcases found with found | ⟨noStatic, found | ⟨noParam, found⟩⟩
    · obtain ⟨tail, handlerIs, selects⟩ := ih found
      exact ⟨.static segment :: tail, handlerIs, selects.static⟩
    · obtain ⟨tail, handlerIs, selects⟩ := ih found
      exact ⟨.param :: tail, handlerIs, selects.param noStatic⟩
    · exact ⟨[.wildcard], found, .wildcard noStatic noParam (by simp [found])⟩

instance : Std.Asymm Precedes :=
  haveI : Std.Asymm fun left right : PatternSegment => left.rank < right.rank :=
    ⟨fun _ _ less => Nat.lt_asymm less⟩
  List.Lex.asymm _

/-- One pattern at most is selected. -/
theorem Selects.unique {pattern other : Pattern} (selects : Selects table segments pattern)
    (otherSelects : Selects table segments other) : pattern = other := by
  rcases selects.smallest other otherSelects.registered otherSelects.matching with same | less
  · exact same.symm
  · rcases otherSelects.smallest pattern selects.registered selects.matching with same | more
    · exact same
    · exact absurd more (Std.Asymm.asymm _ _ less)

/-- The search asks the table for the patterns that match, and for no others. -/
theorem select_congr {table other : Pattern → Option Handler}
    (same : ∀ pattern, Matches pattern segments → table pattern = other pattern) :
    select table segments = select other segments := by
  induction segments generalizing table other with
  | nil => exact same [] trivial
  | cons segment rest ih =>
    have static := ih fun tail tailMatches =>
      same (.static segment :: tail) ⟨rfl, tailMatches⟩
    have param := ih fun tail tailMatches => same (.param :: tail) tailMatches
    rw [select, select, static, param, same [.wildcard] trivial]

/-- A route that is the path itself comes before all others. -/
theorem select_static
    {handler : Handler} (registered : table (segments.map .static) = some handler) :
    select table segments = some handler := by
  induction segments generalizing table with
  | nil => exact registered
  | cons segment rest ih =>
    rw [select, ih registered, Option.some_or]

theorem matches_static_iff {texts segments : List Text} :
    Matches (texts.map .static) segments ↔ segments = texts := by
  induction texts generalizing segments with
  | nil =>
    cases segments with
    | nil => simp [Matches]
    | cons segment rest => simp [Matches]
  | cons text texts ih =>
    cases segments with
    | nil => simp [Matches]
    | cons segment rest => simp [Matches, ih, eq_comm]

end Select

end UringServer.Web
