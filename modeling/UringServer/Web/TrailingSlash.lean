import UringServer.Web.PathSegments
import UringServer.Web.RouteTable

/-!
# Routes and trailing slashes

For `Match` a trailing slash makes another path: `SplitPathView` adds an empty
segment for it. `SplitPath` adds none, so `Insert` registers `/users/` as the
route `/users`. A static route is found under its own path, and not under the
one with the other ending, exactly if it is written without the slash.
-/

namespace UringServer.Web

open UringServer.Semantics (ascii)

section Tree

variable {Handler : Type}

theorem matchPath_select (root : Node Handler) (method : HttpMethod) (base : Nat) (path : Text) :
    (matchPath root method base path).handler =
      select (fun pattern => Node.lookup method pattern root) (pathTexts path) := by
  rw [matchPath_eq, matchNode_handler rfl, splitPathView_texts]

/-- No segment of a route is a parameter or a wildcard. -/
def Static (route : Text) : Prop :=
  ∀ segment ∈ splitPath route, segment.head? ≠ some 0x3A ∧ segment.head? ≠ some 0x2A

instance (route : Text) : Decidable (Static route) := List.decidableBAll _ _

theorem patternOf_static {segments : List Text}
    (static : ∀ segment ∈ segments, segment.head? ≠ some 0x3A ∧ segment.head? ≠ some 0x2A) :
    patternOf segments = segments.map .static := by
  induction segments with
  | nil => rfl
  | cons segment rest ih =>
    obtain ⟨⟨noParam, noWildcard⟩, others⟩ := List.forall_mem_cons.mp static
    have notWildcard : ¬ isWildcard segment = true := by simp [isWildcard, noWildcard]
    have notParam : ¬ isParam segment = true := by simp [isParam, noParam]
    rw [patternOf, if_neg notWildcard, if_neg notParam, ih others, List.map_cons]

/-- The insertion of a static route changes what is found for its segments and for no others. -/
theorem matchPath_insert_static (root : Node Handler) (method : HttpMethod) {route : Text}
    (static : Static route) (handler : Handler) (base : Nat) (path : Text) :
    (matchPath (insert root method route (some handler)) method base path).handler =
      if pathTexts path = pieces route then some handler
      else (matchPath root method base path).handler := by
  have pattern : patternOf (splitPath route) = (pieces route).map .static := by
    rw [patternOf_static static, splitPath_eq]
  rw [matchPath_select, matchPath_select]
  simp only [lookup_insert, true_and, pattern]
  split
  case isTrue same =>
    rw [same]
    exact select_static (if_pos rfl)
  case isFalse different =>
    refine select_congr fun other matching => if_neg ?_
    rintro rfl
    exact different (matches_static_iff.mp matching)

/-- The path is routed to the handler, and the path with the other ending is not. -/
def RoutedExactly (root : Node Handler) (method : HttpMethod) (path : Text) (handler : Handler) :
    Prop :=
  (∀ base, (matchPath root method base path).handler = some handler) ∧
    ∀ other base, other ++ [slash] = path ∨ path ++ [slash] = other →
      (matchPath root method base other).handler ≠ some handler

/-- A path that ends with a slash is not told from the one with a slash more or less: neither by
the insertion, nor by the tree before it. -/
theorem not_routedExactly_of_slash (root : Node Handler) (method : HttpMethod) {front : Text}
    (static : Static (front ++ [slash])) (handler : Handler) :
    ¬ RoutedExactly (insert root method (front ++ [slash]) (some handler)) method
      (front ++ [slash]) handler := by
  rintro ⟨own, others⟩
  have found := own 0
  have notFound := others front 0 (.inl rfl)
  rw [matchPath_insert_static root method static] at found notFound
  by_cases trailing : Trailing front
  · -- Both paths have the same segments, with the empty one for the slash.
    have longer : Trailing (front ++ [slash]) :=
      ⟨by rw [List.length_append]; exact Nat.lt_add_right 1 trailing.1, List.getLast?_concat⟩
    have same : pathTexts (front ++ [slash]) = pathTexts front := by
      rw [pathTexts, pathTexts, if_pos longer, if_pos trailing, pieces_concat_slash]
    rw [if_neg fun both => (pathTexts_eq_pieces_iff.mp both).1 trailing] at notFound
    rw [if_neg fun both => (pathTexts_eq_pieces_iff.mp both).1 longer] at found
    rw [matchPath_select, same, ← matchPath_select root method 0] at found
    exact notFound found
  · exact notFound (if_pos (pathTexts_eq_pieces_iff.mpr
      ⟨trailing, (pieces_concat_slash front).symm⟩))

/-- After its insertion a static route is found under its path, and not under the path with the
other ending, exactly if it does not end with a slash and the tree did not route the path with the
slash to that handler already. -/
theorem insert_static_routedExactly_iff (root : Node Handler) (method : HttpMethod) (path : Text)
    (handler : Handler) (rooted : path.head? = some slash) (static : Static path) :
    RoutedExactly (insert root method path (some handler)) method path handler ↔
      path.getLast? ≠ some slash ∧
        ∀ base, (matchPath root method base (path ++ [slash])).handler ≠ some handler := by
  by_cases ending : path.getLast? = some slash
  · obtain ⟨front, rfl⟩ := List.getLast?_eq_some_iff.mp ending
    exact iff_of_false (not_routedExactly_of_slash root method static handler)
      fun both => both.1 ending
  have nonempty : 0 < path.length := by
    obtain ⟨rest, rfl⟩ := List.head?_eq_some_iff.mp rooted
    exact Nat.succ_pos _
  have longer : Trailing (path ++ [slash]) :=
    ⟨by rw [List.length_append]; exact Nat.succ_lt_succ nonempty, List.getLast?_concat⟩
  have other : ∀ base, (matchPath (insert root method path (some handler)) method base
      (path ++ [slash])).handler = (matchPath root method base (path ++ [slash])).handler := by
    intro base
    rw [matchPath_insert_static root method static,
      if_neg fun both => (pathTexts_eq_pieces_iff.mp both).1 longer]
  constructor
  · intro routed
    refine ⟨ending, fun base => ?_⟩
    rw [← other base]
    exact routed.2 _ base (.inr rfl)
  · rintro ⟨-, apart⟩
    refine ⟨fun base => ?_, ?_⟩
    · rw [matchPath_insert_static root method static]
      exact if_pos (pathTexts_eq_pieces_iff.mpr ⟨fun trailing => ending trailing.2, rfl⟩)
    · rintro _ base (rfl | rfl)
      · exact absurd List.getLast?_concat ending
      · rw [other base]
        exact apart base

end Tree

/-- The route `/users` is found under `/users` only. -/
theorem users_routedExactly :
    RoutedExactly (insert {} .get (ascii "/users") (some 1)) .get (ascii "/users") 1 :=
  (insert_static_routedExactly_iff {} .get (ascii "/users") 1 (by decide) (by decide)).mpr
    ⟨by decide, fun _ => by rw [matchPath_select]; decide⟩

/-- The route `/users/` is found under `/users`, and not under its own path. -/
theorem users_slash_not_routedExactly :
    (matchPath (insert {} .get (ascii "/users/") (some 1)) .get 0x1000 (ascii "/users/")).handler =
        none ∧
      (matchPath (insert {} .get (ascii "/users/") (some 1)) .get 0x1000 (ascii "/users")).handler =
        some 1 ∧
      ¬ RoutedExactly (insert {} .get (ascii "/users/") (some 1)) .get (ascii "/users/") 1 := by
  refine ⟨by decide, by decide, ?_⟩
  rintro ⟨own, -⟩
  exact absurd (own 0x1000) (by decide)

end UringServer.Web
