import UringServer.Web.PlaceNames

/-!
# The names a route binds

A route is bound with the names that its places have, and these are the names of
the first routes that came by. What stands behind a wildcard is never looked at.
-/

namespace UringServer.Web

open UringServer.Semantics (ascii)

section Tree

variable {Handler : Type}

/-- The call of `Insert` with which the handler was inserted that `Match` returns for a path. -/
structure Returned (insertions : List (Insertion Handler)) (method : HttpMethod) (base : Nat)
    (path : Text) (call : Insertion Handler) : Prop where
  selected : Selects (latest insertions method) ((splitPathView base path).map Segment.text)
    call.pattern
  last : (insertions.filter fun other =>
    other.method = method ∧ other.pattern = call.pattern).getLast? = some call

theorem exists_returned {insertions : List (Insertion Handler)} {method : HttpMethod} {base : Nat}
    {path : Text} (found : (matchPath (insertAll insertions) method base path).handler ≠ none) :
    ∃ call, Returned insertions method base path call := by
  obtain ⟨handler, handlerIs⟩ := Option.ne_none_iff_exists'.mp found
  rw [matchPath_handler] at handlerIs
  obtain ⟨pattern, inserted, selects⟩ := select_selects handlerIs
  rw [latest, insertedFor, List.getLast?_map] at inserted
  obtain ⟨call, last, -⟩ := Option.map_eq_some_iff.mp inserted
  have isFor := of_decide_eq_true (List.mem_filter.mp (List.mem_of_getLast? last)).2
  obtain ⟨-, rfl⟩ := isFor
  exact ⟨call, selects, last⟩

/-- What `Match` returns, for the call with which the handler was inserted. -/
theorem Returned.matchPath {insertions : List (Insertion Handler)} {method : HttpMethod}
    {base : Nat} {path : Text} {call : Insertion Handler}
    (returned : Returned insertions method base path call) :
    (matchPath (insertAll insertions) method base path).handler = some call.handler ∧
      ((matchPath (insertAll insertions) method base path).params.map Prod.fst).map some =
        (namedPlaces (splitPath call.path)).map fun entry => firstName insertions entry.1 := by
  have table : (fun pattern => Node.lookup method pattern (insertAll insertions)) =
      latest insertions method := funext (lookup_insertAll insertions method)
  have selects := returned.selected
  rw [← table] at selects
  obtain ⟨handler, pushed⟩ := matchPath_params selects
  refine ⟨?_, ?_⟩
  · rw [handler, lookup_insertAll, latest, insertedFor, List.getLast?_map, returned.last]
    rfl
  · have names := map_nameAt selects.registered
    rw [pushed.names, List.map_nil, List.nil_append, ← names, Insertion.pattern, ← namedPlaces_fst,
      List.map_map]
    exact List.map_congr_left fun entry _ => nameAt_insertAll insertions entry.1

/-- `Match` returns the names of the route with which the handler was inserted exactly if no name
stands behind its wildcard and each of its names is the first that its place was given. -/
theorem match_names_iff (insertions : List (Insertion Handler)) (method : HttpMethod)
    (base : Nat) (path : Text)
    (found : (matchPath (insertAll insertions) method base path).handler ≠ none) :
    ∃ call, Returned insertions method base path call ∧
      (matchPath (insertAll insertions) method base path).handler = some call.handler ∧
      ((matchPath (insertAll insertions) method base path).params.map Prod.fst =
          routeNames call.path ↔
        ignoredNames (splitPath call.path) = [] ∧
          ∀ entry ∈ namedPlaces (splitPath call.path),
            firstName insertions entry.1 = some entry.2) := by
  obtain ⟨call, returned⟩ := exists_returned found
  obtain ⟨handler, names⟩ := returned.matchPath
  refine ⟨call, returned, handler, ?_⟩
  rw [routeNames, segmentNames_eq]
  constructor
  · intro same
    rw [same, List.map_append] at names
    have short := congrArg List.length names
    simp only [List.length_append, List.length_map, Nat.add_eq_left, List.length_eq_zero_iff]
      at short
    rw [short, List.map_nil, List.append_nil, List.map_map] at names
    exact ⟨short, fun entry member => (List.map_inj_left.mp names entry member).symm⟩
  · rintro ⟨short, first⟩
    rw [short, List.append_nil]
    refine List.map_injective_iff.mpr (Option.some_injective Text) ?_
    rw [names, List.map_map]
    exact List.map_congr_left first

end Tree

/-- Two routes with different names for one parameter. -/
def sharedRoutes : List (Insertion Nat) :=
  [⟨.get, ascii "/users/:id/posts", 1⟩, ⟨.get, ascii "/users/:user/likes", 2⟩]

/-- `/users/7/posts` is bound with the name of its route. -/
theorem shared_posts_names :
    ∃ call, Returned sharedRoutes .get 0x1000 (ascii "/users/7/posts") call ∧
      (matchPath (insertAll sharedRoutes) .get 0x1000 (ascii "/users/7/posts")).handler =
        some call.handler ∧
      ((matchPath (insertAll sharedRoutes) .get 0x1000 (ascii "/users/7/posts")).params.map
          Prod.fst = routeNames call.path ↔
        ignoredNames (splitPath call.path) = [] ∧
          ∀ entry ∈ namedPlaces (splitPath call.path),
            firstName sharedRoutes entry.1 = some entry.2) :=
  match_names_iff sharedRoutes .get 0x1000 (ascii "/users/7/posts") (by decide)

/-- `/users/7/likes` is bound with the name of the other route. -/
theorem shared_likes_names :
    Returned sharedRoutes .get 0x1000 (ascii "/users/7/likes")
        ⟨.get, ascii "/users/:user/likes", 2⟩ ∧
      (matchPath (insertAll sharedRoutes) .get 0x1000 (ascii "/users/7/likes")).handler = some 2 ∧
      (matchPath (insertAll sharedRoutes) .get 0x1000 (ascii "/users/7/likes")).params.map
        Prod.fst = [ascii "id"] ∧
      routeNames (ascii "/users/:user/likes") = [ascii "user"] := by
  have pattern : (⟨.get, ascii "/users/:user/likes", 2⟩ : Insertion Nat).pattern =
      [.static (ascii "users"), .param, .static (ascii "likes")] := by decide
  have texts : (splitPathView 0x1000 (ascii "/users/7/likes")).map Segment.text =
      [ascii "users", ascii "7", ascii "likes"] := by decide
  refine ⟨⟨?_, rfl⟩, by decide, by decide, by decide⟩
  rw [pattern, texts]
  exact .static (.param (by decide) (.static (.nil (by decide))))

end UringServer.Web
