import UringServer.Web.RouteTable

/-!
# When a path exists

`Router::Dispatch` answers 405 instead of 404 if `Match` finds no handler but sets
`path_exists`. The search of `MatchNode` stops at a handler, so what it has seen
differs from method to method. Still `path_exists` says the same for all of them:
some pattern that matches is registered for some method.
-/

namespace UringServer.Web

section Tree

variable {Handler : Type} {node : Node Handler}

theorem hasAnyHandler_iff :
    node.hasAnyHandler = true ↔ ∃ method, node.handlers method ≠ none := by
  simp only [Node.hasAnyHandler, List.any_eq_true, Option.isSome_iff_ne_none]
  constructor
  · rintro ⟨method, _, registered⟩
    exact ⟨method, registered⟩
  · rintro ⟨method, registered⟩
    exact ⟨method, by cases method <;> simp, registered⟩

/-- Some method has a handler at a pattern that matches, in a tree that may be missing. -/
def Registered (tree : Option (Node Handler)) (segments : List Text) : Prop :=
  ∃ pattern, Matches pattern segments ∧ ∃ method, tree.bind (Node.lookup method pattern) ≠ none

theorem registered_none (segments : List Text) :
    ¬ Registered (none : Option (Node Handler)) segments := by
  rintro ⟨pattern, _, method, registered⟩
  exact registered rfl

theorem registered_nil :
    Registered (some node) [] ↔ ∃ method, node.handlers method ≠ none := by
  constructor
  · rintro ⟨pattern, matching, method, registered⟩
    rw [matches_nil_iff.mp matching] at registered
    exact ⟨method, registered⟩
  · rintro ⟨method, registered⟩
    exact ⟨[], trivial, method, registered⟩

/-- Where a pattern for a path with a segment can be registered: the three branches. -/
theorem registered_cons {segment : Text} {rest : List Text} :
    Registered (some node) (segment :: rest) ↔
      Registered (node.children.find? fun child => child.segment = segment) rest ∨
        Registered node.paramChild rest ∨ Registered node.wildcardChild [] := by
  constructor
  · rintro ⟨pattern, matching, method, registered⟩
    rcases matches_cons_iff.mp matching with
      ⟨tail, rfl, tailMatches⟩ | ⟨tail, rfl, tailMatches⟩ | rfl
    · exact .inl ⟨tail, tailMatches, method, registered⟩
    · exact .inr (.inl ⟨tail, tailMatches, method, registered⟩)
    · exact .inr (.inr ⟨[], trivial, method, registered⟩)
  · rintro (⟨tail, tailMatches, method, registered⟩ | ⟨tail, tailMatches, method, registered⟩ |
      ⟨pattern, matching, method, registered⟩)
    · exact ⟨.static segment :: tail, matches_cons_iff.mpr (.inl ⟨tail, rfl, tailMatches⟩),
        method, registered⟩
    · exact ⟨.param :: tail, matches_cons_iff.mpr (.inr (.inl ⟨tail, rfl, tailMatches⟩)),
        method, registered⟩
    · rw [matches_nil_iff.mp matching] at registered
      exact ⟨[.wildcard], matches_cons_iff.mpr (.inr (.inr rfl)), method, registered⟩

/-- A search that began without a handler: it has set `path_exists` if it was set before or the
path is registered, and it is if a handler was found. -/
structure Searched (tree : Option (Node Handler)) (segments : List Text)
    (before after : MatchResult Handler) : Prop where
  pathExists : after.pathExists = true ↔ before.pathExists = true ∨ Registered tree segments
  found : after.handler ≠ none → Registered tree segments

variable {result : MatchResult Handler}

theorem searched_none {segments : List Text}
    (none_ : result.handler = none) : Searched none segments result result := by
  refine ⟨?_, fun found => absurd none_ found⟩
  simp only [registered_none, or_false]

variable {params : List (Text × StringView)}

theorem searched_matchHandlers {method : HttpMethod}
    (none_ : result.handler = none) :
    Searched (some node) [] result (matchHandlers node method params result) := by
  refine ⟨?_, ?_⟩
  · rw [registered_nil, ← hasAnyHandler_iff]
    unfold matchHandlers
    split
    case h_1 handler is =>
      have any : node.hasAnyHandler = true := hasAnyHandler_iff.mpr ⟨method, by simp [is]⟩
      simp [any]
    case h_2 =>
      by_cases any : node.hasAnyHandler = true
      · simp [any]
      · simp [any]
  · rw [matchHandlers_handler none_, registered_nil]
    exact fun found => ⟨method, found⟩

/-- Taking up the next branch only without a handler: `path_exists` is as if it were taken up
always. -/
theorem pathExists_ite {tree : Option (Node Handler)} {segments : List Text}
    {before first second : MatchResult Handler} {more : Prop}
    (searched : Searched tree segments before first)
    (later : first.handler = none → (second.pathExists = true ↔ first.pathExists = true ∨ more)) :
    (if first.handler.isSome then first else second).pathExists = true ↔
      before.pathExists = true ∨ Registered tree segments ∨ more := by
  cases found : first.handler with
  | none =>
    rw [if_neg (by simp), later found, searched.pathExists, or_assoc]
  | some handler =>
    have registered := searched.found (by simp [found])
    rw [if_pos Option.isSome_some, searched.pathExists]
    simp [registered]

/-- A handler that `MatchNode` finds is registered. -/
theorem registered_of_matchNode {method : HttpMethod} {segments : List Segment}
    (none_ : result.handler = none)
    (found : (matchNode method segments node params result).handler ≠ none) :
    Registered (some node) (segments.map Segment.text) := by
  rw [matchNode_handler none_, ne_eq, select_eq_none_iff] at found
  push Not at found
  obtain ⟨pattern, matching, registered⟩ := found
  exact ⟨pattern, matching, method, registered⟩

/-- What `MatchNode` says of the path, whatever the method. -/
theorem matchNode_pathExists {method : HttpMethod} {segments : List Segment}
    (none_ : result.handler = none) :
    (matchNode method segments node params result).pathExists = true ↔
      result.pathExists = true ∨ Registered (some node) (segments.map Segment.text) := by
  induction segments generalizing node params result with
  | nil => exact (searched_matchHandlers none_).pathExists
  | cons segment rest ih =>
    have branch : ∀ (child : Option (Node Handler)) params {result : MatchResult Handler},
        result.handler = none → Searched child (rest.map Segment.text) result
          (child.elim result fun child => matchNode method rest child params result) := by
      intro child params result none_
      cases child with
      | none => exact searched_none none_
      | some child => exact ⟨ih none_, registered_of_matchNode none_⟩
    rw [matchNode, if_neg (by simp [none_]), List.map_cons, registered_cons]
    refine pathExists_ite (branch _ params none_) ?_
    intro noStatic
    refine pathExists_ite (branch _ _ noStatic) ?_
    intro noParam
    cases node.wildcardChild with
    | none => exact (searched_none noParam).pathExists
    | some child => exact (searched_matchHandlers noParam).pathExists

/-- `Match` sets `path_exists` for a method exactly if it finds a handler for some method. -/
theorem pathExists_iff_some_method (insertions : List (Insertion Handler)) (method : HttpMethod)
    (base : Nat) (path : Text) :
    (matchPath (insertAll insertions) method base path).pathExists = true ↔
      ∃ other, (matchPath (insertAll insertions) other base path).handler ≠ none := by
  simp only [matchPath_eq]
  rw [matchNode_pathExists rfl]
  constructor
  · rintro (unset | ⟨pattern, matching, other, registered⟩)
    · cases unset
    · refine ⟨other, ?_⟩
      rw [matchNode_handler rfl, ne_eq, select_eq_none_iff]
      exact fun none_ => registered (none_ pattern matching)
  · rintro ⟨other, found⟩
    exact .inr (registered_of_matchNode rfl found)

end Tree

end UringServer.Web
