import UringServer.Web.BoundValues

/-!
# The values of parameters

The parameters of a route take segments of the path, in its order. The segment
that `SplitPathView` adds for a trailing slash is no piece of the path, so a route
that ends with a parameter binds it to the empty text: `/users/` matches
`/users/:id`.
-/

namespace UringServer.Web

open UringServer.Semantics (ascii)

/-- The segments that the parameters of a pattern take. -/
def paramSegments : Pattern → List Segment → List Segment
  | .static _ :: pattern, _ :: rest => paramSegments pattern rest
  | .param :: pattern, segment :: rest => segment :: paramSegments pattern rest
  | .wildcard :: _, _ => []
  | [], _ => []
  | _ :: _, [] => []

theorem paramSegments_sublist (pattern : Pattern) (segments : List Segment) :
    (paramSegments pattern segments).Sublist segments := by
  induction pattern generalizing segments with
  | nil => cases segments <;> exact List.nil_sublist _
  | cons head pattern ih =>
    cases segments with
    | nil => cases head <;> exact List.nil_sublist _
    | cons segment rest =>
      cases head with
      | static text => exact (ih rest).cons segment
      | param => exact (ih rest).cons_cons segment
      | wildcard => exact List.nil_sublist _

/-- The values of the parameters come before that of a wildcard. -/
theorem take_boundValues {pattern : Pattern} {segments : List Segment}
    (matching : Matches pattern (segments.map Segment.text)) :
    (boundValues pattern segments).take (pattern.count .param) =
      (paramSegments pattern segments).map Segment.view := by
  induction pattern generalizing segments with
  | nil => cases segments <;> rfl
  | cons head pattern ih =>
    cases segments with
    | nil => exact absurd (matches_nil_iff.mp matching) (List.cons_ne_nil _ _)
    | cons segment rest =>
      cases head with
      | static text =>
        have other : PatternSegment.static text ≠ .param := nofun
        rw [List.count_cons_of_ne other]
        exact ih matching.2
      | param =>
        rw [List.count_cons_self]
        exact congrArg (segment.view :: ·) (ih matching)
      | wildcard =>
        cases pattern with
        | nil => rfl
        | cons => cases matching

/-- A pattern that matches more than nothing ends as its rest does. -/
theorem getLast?_cons_of_matches {head : PatternSegment} {tail : Pattern} {rest : List Segment}
    {last : Segment} (matching : Matches tail ((rest ++ [last]).map Segment.text)) :
    (head :: tail).getLast? = tail.getLast? := by
  cases tail with
  | nil => cases rest <;> cases matching
  | cons next tail => exact List.getLast?_cons_cons

/-- The last segment is taken by a parameter exactly if the pattern ends with one. -/
theorem paramSegments_concat {pattern : Pattern} {segments : List Segment} {last : Segment}
    (matching : Matches pattern ((segments ++ [last]).map Segment.text)) :
    paramSegments pattern (segments ++ [last]) =
      paramSegments pattern segments ++ if pattern.getLast? = some .param then [last] else [] := by
  induction segments generalizing pattern with
  | nil =>
    rcases matches_cons_iff.mp matching with ⟨tail, rfl, ends⟩ | ⟨tail, rfl, ends⟩ | rfl
    · rw [matches_nil_iff.mp ends]
      rfl
    · rw [matches_nil_iff.mp ends]
      rfl
    · rfl
  | cons segment rest ih =>
    rcases matches_cons_iff.mp matching with ⟨tail, rfl, further⟩ | ⟨tail, rfl, further⟩ | rfl
    · rw [getLast?_cons_of_matches further]
      exact ih further
    · rw [getLast?_cons_of_matches further]
      exact congrArg (segment :: ·) (ih further)
    · rfl

/-- Views of pieces of a path that are not empty and have no slash, in the order of the path. -/
structure InPath (base : Nat) (path : Text) (values : List StringView) : Prop where
  piece : ∀ value ∈ values, ∃ text, text ≠ [] ∧ slash ∉ text ∧ value.Reads base path text
  ordered : values.Pairwise fun first second => first.data + first.size < second.data

/-- The views of some segments of a path are in it. -/
theorem inPath_of_sublist {base : Nat} {path : Text} {segments : List Segment}
    (sublist : segments.Sublist (splitSegments base path)) :
    InPath base path (segments.map Segment.view) := by
  have carved := splitSegments_carved base path
  refine ⟨?_, List.pairwise_map.mpr (carved.ordered.sublist sublist)⟩
  intro value member
  obtain ⟨segment, isSegment, rfl⟩ := List.mem_map.mp member
  have lies := carved.lies segment (sublist.subset isSegment)
  exact ⟨segment.text, lies.nonempty, lies.noSlash, lies.reads⟩

/-- The empty view behind a trailing slash is not in the path. -/
theorem not_inPath_of_sentinel {base : Nat} {path : Text} {values : List StringView}
    (member : Segment.view ⟨0, []⟩ ∈ values) : ¬ InPath base path values := by
  intro inPath
  obtain ⟨text, nonempty, -, reads⟩ := inPath.piece _ member
  exact nonempty (List.length_eq_zero_iff.mp reads.size.symm)

section Tree

variable {Handler : Type}

/-- The values of the parameters of the selected route. -/
def paramValues (pattern : Pattern) (result : MatchResult Handler) : List StringView :=
  (result.params.map Prod.snd).take (pattern.count .param)

/-- The values of the parameters are pieces of the path, in its order, exactly if not both the path
has a trailing slash and the route ends with a parameter. -/
theorem param_values_inPath_iff (root : Node Handler) (method : HttpMethod) (base : Nat)
    (path : Text) (pattern : Pattern)
    (selects : Selects (fun pattern => Node.lookup method pattern root)
      ((splitPathView base path).map Segment.text) pattern) :
    InPath base path (paramValues pattern (matchPath root method base path)) ↔
      ¬ (Trailing path ∧ pattern.getLast? = some .param) := by
  have pushed := (matchPath_params selects).2.values
  have matching := selects.matching
  rw [paramValues, pushed, List.map_nil, List.nil_append, take_boundValues matching]
  by_cases trailing : Trailing path
  · rw [splitPathView_of_trailing trailing] at matching ⊢
    rw [paramSegments_concat matching]
    by_cases ending : pattern.getLast? = some .param
    · rw [if_pos ending]
      refine iff_of_false (not_inPath_of_sentinel ?_) fun apart => apart ⟨trailing, ending⟩
      rw [List.map_append]
      exact List.mem_append_right _ (List.mem_singleton.mpr rfl)
    · rw [if_neg ending, List.append_nil]
      exact iff_of_true (inPath_of_sublist (paramSegments_sublist _ _)) fun both => ending both.2
  · rw [splitPathView_of_open trailing]
    exact iff_of_true (inPath_of_sublist (paramSegments_sublist _ _)) fun both => trailing both.1

end Tree

/-- The users by their id. -/
def idRoutes : Node Nat := insertAll [⟨.get, ascii "/users/:id", 7⟩]

theorem idRoutes_selects (base : Nat) {path : Text} (id : Text)
    (texts : pathTexts path = [ascii "users", id]) :
    Selects (fun pattern => Node.lookup .get pattern idRoutes)
      ((splitPathView base path).map Segment.text) [.static (ascii "users"), .param] := by
  rw [splitPathView_texts, texts]
  exact .static (.param rfl (.nil (by decide)))

/-- The id in `/users/42`. -/
theorem users_42_inPath :
    InPath 0x1000 (ascii "/users/42")
      (paramValues [.static (ascii "users"), .param]
        (matchPath idRoutes .get 0x1000 (ascii "/users/42"))) :=
  (param_values_inPath_iff idRoutes .get 0x1000 (ascii "/users/42")
    [.static (ascii "users"), .param] (idRoutes_selects _ (ascii "42") (by decide))).mpr
    (by decide)

/-- `/users/` is routed to the handler of `/users/:id`, with an empty id. -/
theorem users_slash_not_inPath :
    (matchPath idRoutes .get 0x1000 (ascii "/users/")).handler = some 7 ∧
      (matchPath idRoutes .get 0x1000 (ascii "/users/")).params = [(ascii "id", ⟨0, 0⟩)] ∧
      ¬ InPath 0x1000 (ascii "/users/") (paramValues [.static (ascii "users"), .param]
        (matchPath idRoutes .get 0x1000 (ascii "/users/"))) := by
  have bound : (matchPath idRoutes .get 0x1000 (ascii "/users/")).params =
      [(ascii "id", ⟨0, 0⟩)] := by decide
  refine ⟨by decide, bound, not_inPath_of_sentinel ?_⟩
  rw [paramValues, bound]
  exact List.mem_singleton.mpr rfl

end UringServer.Web
