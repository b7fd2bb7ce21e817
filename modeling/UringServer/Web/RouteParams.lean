import UringServer.Web.RouteTable

/-!
# What a route binds

A `Match` that finds a handler has pushed a name and a value for every parameter
and for the wildcard of the selected pattern. The names are those of the nodes on
the way, and the values are those of the segments. What failed branches pushed is
gone.
-/

namespace UringServer.Web

/-- The names on the way of a pattern in a tree. -/
def Node.boundNames {Handler : Type} : Pattern → Node Handler → List Text
  | [], _ => []
  | .static text :: rest, node =>
    (node.children.find? fun child => child.segment = text).elim [] (boundNames rest)
  | .param :: rest, node => node.paramName :: node.paramChild.elim [] (boundNames rest)
  | .wildcard :: _, node => [node.wildcardName]

/-- The values that a pattern takes from the segments of a path. -/
def boundValues : Pattern → List Segment → List StringView
  | .static _ :: pattern, _ :: rest => boundValues pattern rest
  | .param :: pattern, segment :: rest => segment.view :: boundValues pattern rest
  | .wildcard :: _, segment :: rest => [wildcardValue segment (rest.getLastD segment)]
  | [], _ => []
  | _ :: _, [] => []

/-- Names and values were pushed. -/
structure Pushed (before : List (Text × StringView)) (names : List Text)
    (values : List StringView) (after : List (Text × StringView)) : Prop where
  names : after.map Prod.fst = before.map Prod.fst ++ names
  values : after.map Prod.snd = before.map Prod.snd ++ values

namespace Pushed

variable {before after : List (Text × StringView)} {names : List Text} {values : List StringView}

theorem none (before : List (Text × StringView)) : Pushed before [] [] before :=
  ⟨(List.append_nil _).symm, (List.append_nil _).symm⟩

theorem one (before : List (Text × StringView)) (name : Text) (value : StringView) :
    Pushed before [name] [value] (before ++ [(name, value)]) :=
  ⟨List.map_append, List.map_append⟩

/-- What was pushed after another pair. -/
theorem behind {name : Text} {value : StringView}
    (pushed : Pushed (before ++ [(name, value)]) names values after) :
    Pushed before (name :: names) (value :: values) after := by
  refine ⟨?_, ?_⟩
  · rw [pushed.names, List.map_append, List.append_assoc]
    rfl
  · rw [pushed.values, List.map_append, List.append_assoc]
    rfl

end Pushed

section Tree

variable {Handler : Type} {params : List (Text × StringView)} {method : HttpMethod}

theorem matchHandlers_params {node : Node Handler}
    {result : MatchResult Handler} (registered : node.handlers method ≠ none) :
    (matchHandlers node method params result).params = params := by
  obtain ⟨handler, is⟩ := Option.ne_none_iff_exists'.mp registered
  rw [matchHandlers, is]

/-- A result without a handler, or with what the selected pattern binds. -/
def Binds (method : HttpMethod) (node : Node Handler) (segments : List Segment)
    (params : List (Text × StringView)) (result : MatchResult Handler) : Prop :=
  result.handler ≠ none → ∃ pattern,
    Selects (fun pattern => Node.lookup method pattern node) (segments.map Segment.text) pattern ∧
      Pushed params (node.boundNames pattern) (boundValues pattern segments) result.params

theorem Binds.ite {node : Node Handler} {segments : List Segment}
    {first second : MatchResult Handler} (binds : Binds method node segments params first)
    (later : first.handler = none → Binds method node segments params second) :
    Binds method node segments params (if first.handler.isSome then first else second) := by
  cases found : first.handler with
  | none =>
    rw [if_neg (by simp)]
    exact later found
  | some handler =>
    rw [if_pos Option.isSome_some]
    exact binds

/-- A search that finds a handler has pushed what the selected pattern binds. -/
theorem matchNode_binds {segments : List Segment} {node : Node Handler}
    {result : MatchResult Handler} (none_ : result.handler = none) :
    Binds method node segments params (matchNode method segments node params result) := by
  induction segments generalizing node params result with
  | nil =>
    intro found
    have registered : node.handlers method ≠ none := by
      rwa [matchNode, matchHandlers_handler none_] at found
    refine ⟨[], .nil registered, ?_⟩
    rw [matchNode, matchHandlers_params registered]
    exact .none params
  | cons segment rest ih =>
    rw [matchNode, if_neg (by simp [none_])]
    refine .ite ?_ fun noStatic => ?_
    · cases child : node.children.find? fun child => child.segment = segment.text with
      | none => exact fun found => absurd none_ found
      | some below =>
        intro found
        obtain ⟨pattern, selects, pushed⟩ := ih none_ found
        refine ⟨.static segment.text :: pattern, .static ?_, ?_⟩
        · simpa only [Node.lookup, child, Option.bind_some] using selects
        · simpa only [Node.boundNames, child, boundValues, Option.elim_some] using pushed
    have staticSelects := elim_handler none_ (fun _ => matchNode_handler none_) _ ▸ noStatic
    refine .ite ?_ fun noParam => ?_
    · cases child : node.paramChild with
      | none => exact fun found => absurd noStatic found
      | some below =>
        intro found
        obtain ⟨pattern, selects, pushed⟩ := ih noStatic found
        refine ⟨.param :: pattern, .param staticSelects ?_, ?_⟩
        · simpa only [Node.lookup, child, Option.bind_some] using selects
        · simpa only [Node.boundNames, child, boundValues, Option.elim_some] using pushed.behind
    have paramSelects := elim_handler noStatic (fun _ => matchNode_handler noStatic) _ ▸ noParam
    cases child : node.wildcardChild with
    | none => exact fun found => absurd noParam found
    | some below =>
      intro found
      have registered : below.handlers method ≠ none := by
        rwa [Option.elim_some, matchHandlers_handler noParam] at found
      refine ⟨[.wildcard], .wildcard staticSelects paramSelects ?_, ?_⟩
      · simpa only [Node.lookup, child, Option.bind_some] using registered
      · rw [Option.elim_some, matchHandlers_params registered]
        exact .one params node.wildcardName _

/-- The result of `Match` has what the selected pattern binds. -/
theorem matchPath_params {root : Node Handler} {base : Nat} {path : Text} {pattern : Pattern}
    (selects : Selects (fun pattern => Node.lookup method pattern root)
      ((splitPathView base path).map Segment.text) pattern) :
    (matchPath root method base path).handler = Node.lookup method pattern root ∧
      Pushed [] (root.boundNames pattern) (boundValues pattern (splitPathView base path))
        (matchPath root method base path).params := by
  rw [matchPath_eq]
  have found : (matchNode method (splitPathView base path) root [] {}).handler ≠ none := by
    rw [matchNode_handler rfl, ne_eq, select_eq_none_iff]
    exact fun none_ => selects.registered (none_ pattern selects.matching)
  obtain ⟨handler, handlerIs⟩ := Option.ne_none_iff_exists'.mp found
  obtain ⟨other, otherSelects, pushed⟩ := matchNode_binds rfl found
  rw [matchNode_handler rfl] at handlerIs ⊢
  obtain ⟨selected, selectedIs, selectedSelects⟩ := select_selects handlerIs
  rw [selects.unique selectedSelects, selectedIs, handlerIs, ← selects.unique selectedSelects,
    selects.unique otherSelects]
  exact ⟨rfl, pushed⟩

end Tree

end UringServer.Web
