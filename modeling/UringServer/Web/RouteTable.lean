import Mathlib.Data.List.Induction
import UringServer.Web.Routing

/-!
# The routes a tree holds

A tree stands for a table of patterns. `Insert` changes one entry of it and
`Match` finds what the table selects, so the tree routes as its latest
insertions say.
-/

namespace UringServer.Web

open UringServer.Semantics (ascii)

/-- The table that a tree stands for: the handler at the end of a pattern. -/
def Node.lookup {Handler : Type} (method : HttpMethod) :
    Pattern → Node Handler → Option Handler
  | [], node => node.handlers method
  | .static text :: rest, node =>
    (node.children.find? fun child => child.segment = text).bind (lookup method rest)
  | .param :: rest, node => node.paramChild.bind (lookup method rest)
  | [.wildcard], node => node.wildcardChild.bind fun child => child.handlers method
  | .wildcard :: _ :: _, _ => none

section Tree

variable {Handler : Type}

theorem select_of_none (segments : List Text) :
    select (fun _ => (none : Option Handler)) segments = none :=
  select_eq_none_iff.mpr fun _ _ => rfl

variable {method : HttpMethod} {result : MatchResult Handler}

theorem matchHandlers_handler {node : Node Handler}
    {params : List (Text × StringView)} (none_ : result.handler = none) :
    (matchHandlers node method params result).handler = node.handlers method := by
  unfold matchHandlers
  split
  case h_1 handler is => exact is.symm
  case h_2 is => split <;> rw [is, ← none_]

/-- Taking up the next branch only without a handler is `or`. -/
theorem handler_ite {first second : MatchResult Handler} {table : Option Handler}
    (later : first.handler = none → second.handler = table) :
    (if first.handler.isSome then first else second).handler = first.handler.or table := by
  cases found : first.handler with
  | none => simp [later found]
  | some handler => simp [found]

/-- A branch that is not there finds what the empty table selects: nothing. -/
theorem elim_handler {segments : List Text}
    {search : Node Handler → MatchResult Handler} (none_ : result.handler = none)
    (finds : ∀ node, (search node).handler =
      select (fun pattern => Node.lookup method pattern node) segments)
    (child : Option (Node Handler)) :
    (child.elim result search).handler =
      select (fun pattern => child.bind (Node.lookup method pattern)) segments := by
  cases child with
  | none =>
    simp only [Option.bind_none, select_of_none]
    exact none_
  | some child => exact finds child

/-- The handler that `MatchNode` finds is the one the table of the tree selects. -/
theorem matchNode_handler {segments : List Segment} {node : Node Handler}
    {params : List (Text × StringView)} (none_ : result.handler = none) :
    (matchNode method segments node params result).handler =
      select (fun pattern => Node.lookup method pattern node) (segments.map Segment.text) := by
  induction segments generalizing node params result with
  | nil => exact matchHandlers_handler none_
  | cons segment rest ih =>
    rw [matchNode, if_neg (by simp [none_]), List.map_cons, select]
    dsimp only
    rw [handler_ite, elim_handler none_ fun _ => ih none_]
    · rfl
    intro noStatic
    rw [handler_ite, elim_handler noStatic fun _ => ih noStatic]
    · rfl
    intro noParam
    cases wildcard : node.wildcardChild with
    | none => simpa [Node.lookup, wildcard] using noParam
    | some child => simpa [Node.lookup, wildcard] using matchHandlers_handler noParam

@[simp] theorem insertSegments_segment (method : HttpMethod) (handler : Option Handler)
    (segments : List Text) (node : Node Handler) :
    (insertSegments method handler segments node).segment = node.segment := by
  cases segments with
  | nil => rfl
  | cons segment rest =>
    rw [insertSegments]
    split_ifs <;> rfl

/-- The first child for a segment after `updateChild`. -/
theorem find_updateChild {change : Node Handler → Node Handler}
    (keeps : ∀ node, (change node).segment = node.segment) (segment text : Text)
    (children : List (Node Handler)) :
    (updateChild segment change children).find? (fun child => child.segment = text) =
      if text = segment then
        some (change ((children.find? fun child => child.segment = segment).getD { segment }))
      else
        children.find? fun child => child.segment = text := by
  induction children with
  | nil =>
    by_cases same : text = segment
    · simp [updateChild, keeps, same]
    · simp [updateChild, keeps, same, Ne.symm same]
  | cons child others ih =>
    rw [updateChild]
    by_cases here : child.segment = segment
    · by_cases same : text = segment
      · simp [here, keeps, same]
      · simp [here, keeps, same, Ne.symm same]
    · rw [if_neg here, List.find?_cons, List.find?_cons, List.find?_cons, ih]
      by_cases same : text = segment
      · simp [here, same]
      · simp [same]

@[simp] theorem lookup_empty (method : HttpMethod) (pattern : Pattern) (segment : Text) :
    Node.lookup method pattern ({ segment } : Node Handler) = none := by
  match pattern with
  | [] => rfl
  | .static _ :: _ => rfl
  | .param :: _ => rfl
  | [.wildcard] => rfl
  | .wildcard :: _ :: _ => rfl

/-- Looking below a child that may be missing. -/
theorem lookup_getD (method : HttpMethod) (pattern : Pattern) (child : Option (Node Handler))
    (segment : Text) :
    Node.lookup method pattern (child.getD { segment }) =
      child.bind (Node.lookup method pattern) := by
  cases child with
  | none => exact lookup_empty method pattern segment
  | some child => rfl

theorem lookup_setHandler (method other : HttpMethod) (handler : Option Handler)
    (pattern : Pattern) (node : Node Handler) :
    Node.lookup other pattern (node.setHandler method handler) =
      if other = method ∧ pattern = [] then handler else Node.lookup other pattern node := by
  match pattern with
  | [] => simp [Node.lookup, Node.setHandler, Function.update_apply]
  | .static _ :: _ => simp [Node.lookup, Node.setHandler]
  | .param :: _ => simp [Node.lookup, Node.setHandler]
  | [.wildcard] => simp [Node.lookup, Node.setHandler]
  | .wildcard :: _ :: _ => simp [Node.lookup]

/-- `InsertSegments` changes the entry of its pattern and no other. -/
theorem lookup_insertSegments (method other : HttpMethod) (handler : Option Handler)
    (segments : List Text) (pattern : Pattern) (node : Node Handler) :
    Node.lookup other pattern (insertSegments method handler segments node) =
      if other = method ∧ pattern = patternOf segments then handler
      else Node.lookup other pattern node := by
  induction segments generalizing pattern node with
  | nil => exact lookup_setHandler method other handler pattern node
  | cons segment rest ih =>
    rw [insertSegments, patternOf]
    by_cases wildcard : isWildcard segment
    · rw [if_pos wildcard, if_pos wildcard]
      match pattern with
      | [.wildcard] =>
        have child := lookup_setHandler method other handler []
          (node.wildcardChild.getD {})
        rw [lookup_getD] at child
        simpa [Node.lookup] using child
      | [] => simp [Node.lookup]
      | .static _ :: _ => simp [Node.lookup]
      | .param :: _ => simp [Node.lookup]
      | .wildcard :: _ :: _ => simp [Node.lookup]
    rw [if_neg wildcard, if_neg wildcard]
    by_cases param : isParam segment
    · rw [if_pos param, if_pos param]
      match pattern with
      | .param :: tail =>
        have child := ih tail (node.paramChild.getD {})
        rw [lookup_getD] at child
        simpa [Node.lookup] using child
      | [] => simp [Node.lookup]
      | .static _ :: _ => simp [Node.lookup]
      | [.wildcard] => simp [Node.lookup]
      | .wildcard :: _ :: _ => simp [Node.lookup]
    rw [if_neg param, if_neg param]
    match pattern with
    | .static text :: tail =>
      have found := find_updateChild (insertSegments_segment method handler rest)
        segment text node.children
      by_cases same : text = segment
      · subst same
        have child := ih tail
          ((node.children.find? fun child => child.segment = text).getD { segment := text })
        rw [lookup_getD] at child
        simpa [Node.lookup, found] using child
      · simp [Node.lookup, found, same]
    | [] => simp [Node.lookup]
    | .param :: _ => simp [Node.lookup]
    | [.wildcard] => simp [Node.lookup]
    | .wildcard :: _ :: _ => simp [Node.lookup]

/-- A call of `Insert` with a handler that is not empty. -/
structure Insertion (Handler : Type) where
  method : HttpMethod
  path : Text
  handler : Handler

/-- The tree after calls of `Insert`. -/
def insertAll (insertions : List (Insertion Handler)) : Node Handler :=
  insertions.foldl (fun tree call => insert tree call.method call.path (some call.handler)) {}

/-- The pattern a call of `Insert` registers. -/
def Insertion.pattern (call : Insertion Handler) : Pattern := patternOf (splitPath call.path)

/-- The handlers inserted for a pattern, in the order of the calls. -/
def insertedFor (insertions : List (Insertion Handler)) (method : HttpMethod)
    (pattern : Pattern) : List Handler :=
  (insertions.filter fun call => call.method = method ∧ call.pattern = pattern).map
    Insertion.handler

/-- The handler most recently inserted for a pattern. -/
def latest (insertions : List (Insertion Handler)) (method : HttpMethod) (pattern : Pattern) :
    Option Handler :=
  (insertedFor insertions method pattern).getLast?

theorem splitPath_slash : splitPath [slash] = [] := by decide

theorem splitPathView_slash (base : Nat) : splitPathView base [slash] = [] := rfl

/-- `Insert` changes the entry of its pattern and no other. -/
theorem lookup_insert (root : Node Handler) (method other : HttpMethod) (path : Text)
    (handler : Option Handler) (pattern : Pattern) :
    Node.lookup other pattern (insert root method path handler) =
      if other = method ∧ pattern = patternOf (splitPath path) then handler
      else Node.lookup other pattern root := by
  unfold insert
  by_cases isRoot : path = [slash]
  · rw [if_pos isRoot, isRoot, splitPath_slash]
    exact lookup_setHandler method other handler pattern root
  · rw [if_neg isRoot]
    exact lookup_insertSegments method other handler (splitPath path) pattern root

/-- The table of the tree holds the latest handlers. -/
theorem lookup_insertAll (insertions : List (Insertion Handler)) (method : HttpMethod)
    (pattern : Pattern) :
    Node.lookup method pattern (insertAll insertions) = latest insertions method pattern := by
  induction insertions using List.reverseRecOn with
  | nil => exact lookup_empty method pattern []
  | append_singleton rest call ih =>
    rw [insertAll, List.foldl_concat, lookup_insert]
    change (if _ then _ else Node.lookup method pattern (insertAll rest)) = _
    rw [ih, latest, latest, insertedFor, insertedFor, List.filter_append]
    by_cases here : call.method = method ∧ call.pattern = pattern
    · have there : method = call.method ∧ pattern = patternOf (splitPath call.path) :=
        ⟨here.1.symm, here.2.symm⟩
      rw [if_pos there]
      simp [here]
    · have there : ¬ (method = call.method ∧ pattern = patternOf (splitPath call.path)) :=
        fun same => here ⟨same.1.symm, same.2.symm⟩
      rw [if_neg there]
      simp [here]

/-- The special case of the root is what the search does for no segments. -/
theorem matchPath_eq (root : Node Handler) (method : HttpMethod) (base : Nat) (path : Text) :
    matchPath root method base path = matchNode method (splitPathView base path) root [] {} := by
  unfold matchPath
  by_cases isRoot : path = [slash]
  · rw [if_pos isRoot, isRoot, splitPathView_slash]
    rfl
  · rw [if_neg isRoot]

/-- `Match` finds what the latest handlers select. -/
theorem matchPath_handler (insertions : List (Insertion Handler)) (method : HttpMethod)
    (base : Nat) (path : Text) :
    (matchPath (insertAll insertions) method base path).handler =
      select (latest insertions method) ((splitPathView base path).map Segment.text) := by
  have table : (fun pattern => Node.lookup method pattern (insertAll insertions)) =
      latest insertions method := funext (lookup_insertAll insertions method)
  rw [matchPath_eq, matchNode_handler rfl, table]

theorem latest_eq_none_iff {insertions : List (Insertion Handler)} {pattern : Pattern} :
    latest insertions method pattern = none ↔
      ∀ call ∈ insertions, call.method = method → call.pattern ≠ pattern := by
  simp [latest, insertedFor]

/-- `Match` returns no handler if no inserted pattern matches, and else the handler most
recently inserted for the smallest matching pattern; the order in which different
patterns were inserted does not matter. -/
theorem radixTree_match_selects (insertions : List (Insertion Handler)) (method : HttpMethod)
    (base : Nat) (path : Text) :
    ((matchPath (insertAll insertions) method base path).handler = none ↔
      ∀ call ∈ insertions, call.method = method →
        ¬ Matches call.pattern ((splitPathView base path).map Segment.text)) ∧
    (∀ handler, (matchPath (insertAll insertions) method base path).handler = some handler →
      ∃ call ∈ insertions, call.method = method ∧
        Matches call.pattern ((splitPathView base path).map Segment.text) ∧
        (∀ other ∈ insertions, other.method = method →
          Matches other.pattern ((splitPathView base path).map Segment.text) →
          other.pattern = call.pattern ∨ Precedes call.pattern other.pattern) ∧
        latest insertions method call.pattern = some handler) ∧
    (∀ reordered : List (Insertion Handler),
      (∀ method pattern, insertedFor reordered method pattern =
        insertedFor insertions method pattern) →
      (matchPath (insertAll reordered) method base path).handler =
        (matchPath (insertAll insertions) method base path).handler) := by
  refine ⟨?_, ?_, ?_⟩
  · rw [matchPath_handler, select_eq_none_iff]
    simp only [latest_eq_none_iff]
    constructor
    · intro none_ call member sameMethod matching
      exact none_ call.pattern matching call member sameMethod rfl
    · rintro none_ pattern matching call member sameMethod rfl
      exact none_ call member sameMethod matching
  · intro handler found
    rw [matchPath_handler] at found
    obtain ⟨pattern, handlerIs, selects⟩ := select_selects found
    have inserted : ∀ call ∈ insertions, call.method = method →
        latest insertions method call.pattern ≠ none := fun call member sameMethod none_ =>
      latest_eq_none_iff.mp none_ call member sameMethod rfl
    obtain ⟨call, member, sameMethod, rfl⟩ : ∃ call ∈ insertions, call.method = method ∧
        call.pattern = pattern := by
      by_contra missing
      exact selects.registered (latest_eq_none_iff.mpr fun call member sameMethod samePattern =>
        missing ⟨call, member, sameMethod, samePattern⟩)
    refine ⟨call, member, sameMethod, selects.matching, ?_, handlerIs⟩
    intro other otherMember otherMethod matching
    exact selects.smallest _ (inserted other otherMember otherMethod) matching
  · intro reordered same
    rw [matchPath_handler, matchPath_handler]
    have tables : latest reordered method = latest insertions method := by
      funext pattern
      rw [latest, latest, same]
    rw [tables]

end Tree

/-- A parameter, a static and a wildcard route that all match `/users/new`. -/
def userRoutes : List (Insertion Nat) :=
  [⟨.get, ascii "/users/:id", 2⟩, ⟨.get, ascii "/users/new", 1⟩, ⟨.get, ascii "/users/*rest", 3⟩]

/-- The static route is selected though it was not inserted first. -/
theorem radixTree_match_selects_static :
    ∃ call ∈ userRoutes, call.method = .get ∧
      Matches call.pattern ((splitPathView 0x1000 (ascii "/users/new")).map Segment.text) ∧
      (∀ other ∈ userRoutes, other.method = .get →
        Matches other.pattern ((splitPathView 0x1000 (ascii "/users/new")).map Segment.text) →
        other.pattern = call.pattern ∨ Precedes call.pattern other.pattern) ∧
      latest userRoutes .get call.pattern = some 1 :=
  (radixTree_match_selects userRoutes .get 0x1000 (ascii "/users/new")).2.1 1 (by decide)

end UringServer.Web
