import UringServer.Web.RouteParams

/-!
# The names of places

A place is the beginning of a pattern up to a parameter or a wildcard. Routes
share the nodes of their places, and a node keeps the name it was created with,
so the name of a place is the one the first route with it gave it.
-/

namespace UringServer.Web

/-- The names that stand in the segments of a route. -/
def segmentNames (segments : List Text) : List Text :=
  (segments.filter fun segment => isParam segment || isWildcard segment).map (·.drop 1)

/-- The names that stand in a route, in their order. -/
def routeNames (path : Text) : List Text := segmentNames (splitPath path)

/-- The names behind the wildcard of a route. -/
def ignoredNames : List Text → List Text
  | [] => []
  | segment :: rest => if isWildcard segment then segmentNames rest else ignoredNames rest

/-- The places at which a route has a name, with the names. -/
def namedPlaces : List Text → List (Pattern × Text)
  | [] => []
  | segment :: rest =>
    if isWildcard segment then
      [([.wildcard], segment.drop 1)]
    else if isParam segment then
      ([.param], segment.drop 1) :: (namedPlaces rest).map (Prod.map (.param :: ·) id)
    else
      (namedPlaces rest).map (Prod.map (.static segment :: ·) id)

/-- The places at which a pattern binds a name. -/
def places : Pattern → List Pattern
  | [] => []
  | .static text :: rest => (places rest).map (.static text :: ·)
  | .param :: rest => [.param] :: (places rest).map (.param :: ·)
  | .wildcard :: _ => [[.wildcard]]

theorem nil_not_mem_places (pattern : Pattern) : [] ∉ places pattern := by
  match pattern with
  | [] => simp [places]
  | .static _ :: _ => simp [places]
  | .param :: _ => simp [places]
  | .wildcard :: _ => simp [places]

theorem map_fst_below (head : PatternSegment) (entries : List (Pattern × Text)) :
    (entries.map (Prod.map (head :: ·) id)).map Prod.fst =
      (entries.map Prod.fst).map (head :: ·) := by
  rw [List.map_map, List.map_map]
  rfl

theorem map_snd_below (head : PatternSegment) (entries : List (Pattern × Text)) :
    (entries.map (Prod.map (head :: ·) id)).map Prod.snd = entries.map Prod.snd := by
  rw [List.map_map]
  rfl

/-- The places of a route are those of its pattern. -/
theorem namedPlaces_fst (segments : List Text) :
    (namedPlaces segments).map Prod.fst = places (patternOf segments) := by
  induction segments with
  | nil => rfl
  | cons segment rest ih =>
    rw [namedPlaces, patternOf]
    split_ifs
    · rfl
    · rw [List.map_cons, map_fst_below, ih]
      rfl
    · rw [map_fst_below, ih]
      rfl

/-- The names of a route are those at its places and those behind its wildcard. -/
theorem segmentNames_eq (segments : List Text) :
    segmentNames segments = (namedPlaces segments).map Prod.snd ++ ignoredNames segments := by
  induction segments with
  | nil => rfl
  | cons segment rest ih =>
    rw [namedPlaces, ignoredNames, segmentNames, List.filter_cons]
    by_cases wildcard : isWildcard segment
    · rw [if_pos wildcard, if_pos wildcard, if_pos (by rw [wildcard, Bool.or_true])]
      rfl
    rw [if_neg wildcard, if_neg wildcard]
    by_cases param : isParam segment
    · rw [if_pos param, if_pos (by rw [param, Bool.true_or]), List.map_cons, List.map_cons,
        map_snd_below, List.cons_append, ← ih]
      rfl
    · have unnamed : ¬ (isParam segment || isWildcard segment) = true := by simp [wildcard, param]
      rw [if_neg param, if_neg unnamed, map_snd_below, ← ih]
      rfl

/-- The first name for a place. -/
def nameFor (place : Pattern) (entries : List (Pattern × Text)) : Option Text :=
  (entries.find? fun entry => entry.1 = place).map Prod.snd

theorem nameFor_cons (place held : Pattern) (name : Text) (entries : List (Pattern × Text)) :
    nameFor place ((held, name) :: entries) =
      if held = place then some name else nameFor place entries := by
  unfold nameFor
  rw [List.find?_cons]
  by_cases same : held = place
  · simp [same]
  · simp [same]

theorem nameFor_append (place : Pattern) (first second : List (Pattern × Text)) :
    nameFor place (first ++ second) = (nameFor place first).or (nameFor place second) := by
  unfold nameFor
  rw [List.find?_append, Option.map_or]

theorem nameFor_below (head : PatternSegment) (place : Pattern)
    (entries : List (Pattern × Text)) :
    nameFor (head :: place) (entries.map (Prod.map (head :: ·) id)) = nameFor place entries := by
  induction entries with
  | nil => rfl
  | cons entry entries ih =>
    obtain ⟨held, name⟩ := entry
    rw [List.map_cons, Prod.map_apply, nameFor_cons, nameFor_cons, ih]
    simp

/-- All places of a route start as it does. -/
theorem head?_of_mem_namedPlaces {segment : Text} {rest : List Text} {entry : Pattern × Text}
    (member : entry ∈ namedPlaces (segment :: rest)) :
    entry.1.head? = (patternOf (segment :: rest)).head? := by
  have below : ∀ head, entry ∈ (namedPlaces rest).map (Prod.map (head :: ·) id) →
      entry.1.head? = some head := by
    intro head inside
    obtain ⟨held, -, rfl⟩ := List.mem_map.mp inside
    rfl
  rw [namedPlaces] at member
  rw [patternOf]
  split_ifs at member ⊢
  · rw [List.mem_singleton.mp member]
  · rcases List.mem_cons.mp member with rfl | inside
    · rfl
    · exact below .param inside
  · exact below (.static segment) member

/-- A route names no place that starts otherwise. -/
theorem unnamed {segment : Text} {rest : List Text} {head : PatternSegment}
    (starts : (patternOf (segment :: rest)).head? = some head) {place : Pattern}
    (elsewhere : place.head? ≠ some head) (found : Option Text) :
    found = found.or (nameFor place (namedPlaces (segment :: rest))) := by
  have none_ : nameFor place (namedPlaces (segment :: rest)) = none := by
    unfold nameFor
    rw [Option.map_eq_none_iff, List.find?_eq_none]
    intro entry member
    rw [decide_eq_true_iff]
    rintro rfl
    exact elsewhere ((head?_of_mem_namedPlaces member).trans starts)
  rw [none_, Option.or_none]

/-- The name of a place in a tree. -/
def Node.nameAt {Handler : Type} : Pattern → Node Handler → Option Text
  | [], _ => none
  | .static text :: rest, node =>
    (node.children.find? fun child => child.segment = text).bind (nameAt rest)
  | [.param], node => node.paramChild.map fun _ => node.paramName
  | .param :: next :: rest, node => node.paramChild.bind (nameAt (next :: rest))
  | [.wildcard], node => node.wildcardChild.map fun _ => node.wildcardName
  | .wildcard :: _ :: _, _ => none

section Tree

variable {Handler : Type}

theorem nameAt_empty (place : Pattern) (segment : Text) :
    Node.nameAt place ({ segment } : Node Handler) = none := by
  match place with
  | [] => rfl
  | .static _ :: _ => rfl
  | [.param] => rfl
  | .param :: _ :: _ => rfl
  | [.wildcard] => rfl
  | .wildcard :: _ :: _ => rfl

/-- Looking below a child that may be missing. -/
theorem nameAt_getD (place : Pattern) (child : Option (Node Handler)) (segment : Text) :
    Node.nameAt place (child.getD { segment }) = child.bind (Node.nameAt place) := by
  cases child with
  | none => exact nameAt_empty place segment
  | some child => rfl

theorem nameAt_setHandler (method : HttpMethod) (handler : Option Handler) (place : Pattern)
    (node : Node Handler) :
    Node.nameAt place (node.setHandler method handler) = Node.nameAt place node := by
  match place with
  | [] => rfl
  | .static _ :: _ => rfl
  | [.param] => rfl
  | .param :: _ :: _ => rfl
  | [.wildcard] => rfl
  | .wildcard :: _ :: _ => rfl

section Frames

variable (node : Node Handler) {place : Pattern}

theorem nameAt_wildcard_frame (child : Option (Node Handler)) (name : Text)
    (elsewhere : place.head? ≠ some .wildcard) :
    Node.nameAt place { node with wildcardChild := child, wildcardName := name } =
      Node.nameAt place node := by
  cases place with
  | nil => rfl
  | cons head tail =>
    cases head with
    | static => rfl
    | param => cases tail <;> rfl
    | wildcard => exact absurd rfl elsewhere

theorem nameAt_param_frame (child : Option (Node Handler)) (name : Text)
    (elsewhere : place.head? ≠ some .param) :
    Node.nameAt place { node with paramChild := child, paramName := name } =
      Node.nameAt place node := by
  cases place with
  | nil => rfl
  | cons head tail =>
    cases head with
    | static => rfl
    | param => exact absurd rfl elsewhere
    | wildcard => cases tail <;> rfl

theorem nameAt_children_frame (children : List (Node Handler))
    (same : ∀ text, place.head? = some (.static text) →
      (children.find? fun child => child.segment = text) =
        node.children.find? fun child => child.segment = text) :
    Node.nameAt place { node with children } = Node.nameAt place node := by
  cases place with
  | nil => rfl
  | cons head tail =>
    cases head with
    | static text => rw [Node.nameAt, Node.nameAt, same text rfl]
    | param => cases tail <;> rfl
    | wildcard => cases tail <;> rfl

end Frames

section Insertion

variable (method : HttpMethod) (handler : Option Handler) {segment : Text} {rest : List Text}

/-- An insertion of the segments names the places of their route that have no name yet. -/
def NamesPlaces (segments : List Text) : Prop :=
  ∀ place node, Node.nameAt place (insertSegments method handler segments node) =
    (Node.nameAt place node).or (nameFor place (namedPlaces segments))

theorem namesPlaces_wildcard (wildcard : isWildcard segment) :
    NamesPlaces method handler (segment :: rest) := by
  intro place node
  have starts : (patternOf (segment :: rest)).head? = some .wildcard := by
    rw [patternOf, if_pos wildcard, List.head?_cons]
  rw [insertSegments, if_pos wildcard]
  by_cases here : place.head? = some .wildcard
  · obtain ⟨tail, rfl⟩ := List.head?_eq_some_iff.mp here
    cases tail with
    | nil =>
      cases child : node.wildcardChild <;>
        simp [Node.nameAt, child, namedPlaces, wildcard, nameFor_cons]
    | cons next tail => simp [Node.nameAt, namedPlaces, wildcard, nameFor]
  · rw [nameAt_wildcard_frame node _ _ here]
    exact unnamed starts here _

theorem namesPlaces_param (wildcard : ¬ isWildcard segment) (param : isParam segment)
    (below : NamesPlaces method handler rest) : NamesPlaces method handler (segment :: rest) := by
  intro place node
  have starts : (patternOf (segment :: rest)).head? = some .param := by
    rw [patternOf, if_neg wildcard, if_pos param, List.head?_cons]
  rw [insertSegments, if_neg wildcard, if_pos param]
  by_cases here : place.head? = some .param
  · obtain ⟨tail, rfl⟩ := List.head?_eq_some_iff.mp here
    cases tail with
    | nil =>
      cases child : node.paramChild <;>
        simp [Node.nameAt, child, namedPlaces, wildcard, param, nameFor_cons]
    | cons next tail =>
      have child := below (next :: tail) (node.paramChild.getD {})
      rw [nameAt_getD] at child
      simpa [Node.nameAt, namedPlaces, wildcard, param, nameFor_cons, nameFor_below] using child
  · rw [nameAt_param_frame node _ _ here]
    exact unnamed starts here _

theorem namesPlaces_static (wildcard : ¬ isWildcard segment) (param : ¬ isParam segment)
    (below : NamesPlaces method handler rest) : NamesPlaces method handler (segment :: rest) := by
  intro place node
  have starts : (patternOf (segment :: rest)).head? = some (.static segment) := by
    rw [patternOf, if_neg wildcard, if_neg param, List.head?_cons]
  have found := fun text => find_updateChild (insertSegments_segment method handler rest)
    segment text node.children
  rw [insertSegments, if_neg wildcard, if_neg param]
  by_cases here : place.head? = some (.static segment)
  · obtain ⟨tail, rfl⟩ := List.head?_eq_some_iff.mp here
    have child := below tail
      ((node.children.find? fun child => child.segment = segment).getD { segment })
    rw [nameAt_getD] at child
    simpa [Node.nameAt, found segment, namedPlaces, wildcard, param, nameFor_below] using child
  · rw [nameAt_children_frame node]
    · exact unnamed starts here _
    · intro text other
      have different : text ≠ segment := fun same => here (same ▸ other)
      rw [found text, if_neg different]

/-- `InsertSegments` names the places of its route that have no name yet. -/
theorem nameAt_insertSegments (segments : List Text) : NamesPlaces method handler segments := by
  induction segments with
  | nil =>
    intro place node
    rw [insertSegments, nameAt_setHandler]
    exact Option.or_none.symm
  | cons segment rest ih =>
    by_cases wildcard : isWildcard segment
    · exact namesPlaces_wildcard method handler wildcard
    by_cases param : isParam segment
    · exact namesPlaces_param method handler wildcard param ih
    · exact namesPlaces_static method handler wildcard param ih

end Insertion

/-- The name that the first route with a place gave it. -/
def firstName (insertions : List (Insertion Handler)) (place : Pattern) : Option Text :=
  nameFor place (insertions.flatMap fun call => namedPlaces (splitPath call.path))

/-- The places of a tree keep their first names. -/
theorem nameAt_insertAll (insertions : List (Insertion Handler)) (place : Pattern) :
    Node.nameAt place (insertAll insertions) = firstName insertions place := by
  induction insertions using List.reverseRecOn with
  | nil => exact nameAt_empty place []
  | append_singleton rest call ih =>
    have named : Node.nameAt place
        (insert (insertAll rest) call.method call.path (some call.handler)) =
        (Node.nameAt place (insertAll rest)).or
          (nameFor place (namedPlaces (splitPath call.path))) := by
      unfold insert
      split
      case isTrue isRoot =>
        rw [isRoot, splitPath_slash, nameAt_setHandler]
        exact Option.or_none.symm
      case isFalse => exact nameAt_insertSegments ..
    rw [insertAll, List.foldl_concat]
    refine named.trans ?_
    rw [ih, firstName, firstName, List.flatMap_append, nameFor_append,
      List.flatMap_singleton]

/-- The names on the way of a registered pattern are those of its places. -/
theorem map_nameAt {method : HttpMethod} {pattern : Pattern} {node : Node Handler}
    (registered : Node.lookup method pattern node ≠ none) :
    (places pattern).map (Node.nameAt · node) = (node.boundNames pattern).map some := by
  induction pattern generalizing node with
  | nil => rfl
  | cons head rest ih =>
    cases head with
    | static text =>
      cases child : node.children.find? fun child => child.segment = text with
      | none => simp [Node.lookup, child] at registered
      | some below =>
        simp only [Node.lookup, child, Option.bind_some] at registered
        simp only [places, Node.boundNames, child, Option.elim_some, List.map_map]
        rw [← ih registered]
        refine List.map_congr_left fun place _ => ?_
        simp [Node.nameAt, child]
    | param =>
      cases child : node.paramChild with
      | none => simp [Node.lookup, child] at registered
      | some below =>
        simp only [Node.lookup, child, Option.bind_some] at registered
        simp only [places, Node.boundNames, child, Option.elim_some, List.map_cons,
          List.map_map]
        rw [← ih registered]
        refine congrArg₂ List.cons (by simp [Node.nameAt, child])
          (List.map_congr_left fun place member => ?_)
        obtain ⟨next, tail, rfl⟩ :=
          List.exists_cons_of_ne_nil fun empty => nil_not_mem_places rest (empty ▸ member)
        simp [Node.nameAt, child]
    | wildcard =>
      cases rest with
      | nil =>
        cases child : node.wildcardChild with
        | none => simp [Node.lookup, child] at registered
        | some below => simp [places, Node.boundNames, Node.nameAt, child]
      | cons => exact absurd rfl registered

end Tree

end UringServer.Web
