import Mathlib.Logic.Function.Basic
import UringServer.Semantics.Bytes
import UringServer.Semantics.Loop

/-!
# `RadixTree`

The tree of routes of `RadixTree.cpp`. A handler is any value; an empty slot is
an empty `std::function`. A request path lies at some address, and the segments
of it are views into it, because `MatchNode` computes the value of a wildcard
from the addresses of the first and of the last segment.
-/

namespace UringServer.Web

open UringServer.Semantics

/-- `HttpMethod`. -/
inductive HttpMethod where
  | get
  | head
  | post
  | put
  | delete
  | options
  | patch
  | unknown
deriving DecidableEq

/-- The bytes of a `std::string`. -/
abbrev Text := List UInt8

/-- The byte `'/'`. -/
def slash : UInt8 := 0x2F

/-- A `std::string_view`; a null pointer is the address 0. -/
structure StringView where
  data : Nat
  size : Nat
deriving DecidableEq

/-- A segment of a path: where it lies and its bytes. -/
structure Segment where
  data : Nat
  text : Text
deriving DecidableEq

/-- The view of a segment. -/
def Segment.view (segment : Segment) : StringView := ⟨segment.data, segment.text.length⟩

/-- `text.find(byte, start)`. -/
def findFrom (text : Text) (byte : UInt8) (start : Nat) : Option Nat :=
  ((text.drop start).findIdx? (· = byte)).map (start + ·)

theorem le_of_findFrom {text : Text} {byte : UInt8} {start position : Nat}
    (found : findFrom text byte start = some position) : start ≤ position := by
  obtain ⟨index, -, rfl⟩ := Option.map_eq_some_iff.mp found
  exact Nat.le_add_right start index

/-- The variables of the splitting loop. -/
structure Split where
  segments : List Segment := []
  start : Nat

/-- One pass of the splitting loop; leaving it by `break` is a start at the end. -/
def splitStep (base : Nat) (path : Text) (split : Split) : Option Split :=
  if split.start < path.length then
    match findFrom path slash split.start with
    | none => some
        { segments := split.segments ++ [⟨base + split.start, path.drop split.start⟩]
          start := path.length }
    | some position => some
        { segments :=
            if position > split.start then
              split.segments ++ [⟨base + split.start,
                (path.drop split.start).take (position - split.start)⟩]
            else
              split.segments
          start := position + 1 }
  else
    none

theorem splitStep_lt {base : Nat} {path : Text} {split next : Split}
    (taken : splitStep base path split = some next) :
    path.length - next.start < path.length - split.start := by
  unfold splitStep at taken
  split at taken
  case isTrue inside =>
    split at taken
    case h_1 =>
      cases taken
      dsimp only
      omega
    case h_2 position found =>
      have after := le_of_findFrom found
      cases taken
      dsimp only
      omega
  case isFalse => cases taken

/-- The loop that `SplitPath` and `SplitPathView` share. -/
def splitLoop (base : Nat) (path : Text) : Loop Split where
  body := splitStep base path
  Inv _ := True
  remaining split := path.length - split.start
  preserved _ _ := trivial
  decreases _ taken := splitStep_lt taken

/-- The start of the first segment, past a leading slash. -/
def splitStart (path : Text) : Nat := if path.head? = some slash then 1 else 0

/-- The segments of a path at an address. -/
def splitSegments (base : Nat) (path : Text) : List Segment :=
  ((splitLoop base path).run { start := splitStart path }).segments

/-- `RadixTree::SplitPath`. -/
def splitPath (path : Text) : List Text := (splitSegments 0 path).map Segment.text

/-- `RadixTree::SplitPathView`, with an empty segment at no address after a trailing slash. -/
def splitPathView (base : Nat) (path : Text) : List Segment :=
  if path.length > 1 ∧ path.getLast? = some slash then
    splitSegments base path ++ [⟨0, []⟩]
  else
    splitSegments base path

/-- `RadixTree::Node`. -/
structure Node (Handler : Type) where
  segment : Text := []
  children : List (Node Handler) := []
  paramChild : Option (Node Handler) := none
  paramName : Text := []
  wildcardChild : Option (Node Handler) := none
  wildcardName : Text := []
  handlers : HttpMethod → Option Handler := fun _ => none

namespace Node

variable {Handler : Type}

/-- `HasAnyHandler`. -/
def hasAnyHandler (node : Node Handler) : Bool :=
  [.get, .head, .post, .put, .delete, .options, .patch, .unknown].any
    fun method => (node.handlers method).isSome

/-- `node->handlers[method] = handler`. -/
def setHandler (method : HttpMethod) (handler : Option Handler) (node : Node Handler) :
    Node Handler :=
  { node with handlers := Function.update node.handlers method handler }

end Node

/-- A segment `*name`. -/
def isWildcard (segment : Text) : Bool := segment.length > 1 && segment.head? = some 0x2A

/-- A segment `:name`. -/
def isParam (segment : Text) : Bool := segment.length > 1 && segment.head? = some 0x3A

section Tree

variable {Handler : Type}

/-- Change the first child for a segment, or a new one at the end. -/
def updateChild (segment : Text) (change : Node Handler → Node Handler) :
    List (Node Handler) → List (Node Handler)
  | [] => [change { segment }]
  | child :: others =>
    if child.segment = segment then
      change child :: others
    else
      child :: updateChild segment change others

/-- `RadixTree::InsertSegments`. -/
def insertSegments (method : HttpMethod) (handler : Option Handler) :
    List Text → Node Handler → Node Handler
  | [], node => node.setHandler method handler
  | segment :: rest, node =>
    if isWildcard segment then
      { node with
        wildcardChild := some ((node.wildcardChild.getD {}).setHandler method handler)
        wildcardName := if node.wildcardChild.isSome then node.wildcardName else segment.drop 1 }
    else if isParam segment then
      { node with
        paramChild := some (insertSegments method handler rest (node.paramChild.getD {}))
        paramName := if node.paramChild.isSome then node.paramName else segment.drop 1 }
    else
      { node with
        children := updateChild segment (insertSegments method handler rest) node.children }

/-- `RadixTree::Insert`. -/
def insert (root : Node Handler) (method : HttpMethod) (path : Text) (handler : Option Handler) :
    Node Handler :=
  if path = [slash] then
    root.setHandler method handler
  else
    insertSegments method handler (splitPath path) root

/-- `MatchResult`. -/
structure MatchResult (Handler : Type) where
  handler : Option Handler := none
  params : List (Text × StringView) := []
  pathExists : Bool := false

/-- The check of the handlers of a node that is reached. -/
def matchHandlers (node : Node Handler) (method : HttpMethod)
    (params : List (Text × StringView)) (result : MatchResult Handler) : MatchResult Handler :=
  match node.handlers method with
  | some handler => { handler := some handler, params, pathExists := true }
  | none => if node.hasAnyHandler then { result with pathExists := true } else result

/-- The span from the first segment to the end of the last, in 64-bit addresses. -/
def wildcardValue (first last : Segment) : StringView :=
  ⟨first.data, (last.data + last.text.length + 2 ^ 64 - first.data) % 2 ^ 64⟩

/-- `RadixTree::MatchNode`. What a failed branch pushed to `params` it has popped again. -/
def matchNode (method : HttpMethod) :
    List Segment → Node Handler → List (Text × StringView) → MatchResult Handler →
      MatchResult Handler
  | [], node, params, result => matchHandlers node method params result
  | segment :: rest, node, params, result =>
    if result.handler.isSome then
      result
    else
      let static := node.children.find? fun child => child.segment = segment.text
      let result := static.elim result fun child => matchNode method rest child params result
      if result.handler.isSome then
        result
      else
        let bound := params ++ [(node.paramName, segment.view)]
        let result := node.paramChild.elim result fun child =>
          matchNode method rest child bound result
        if result.handler.isSome then
          result
        else
          let captured := wildcardValue segment (rest.getLastD segment)
          node.wildcardChild.elim result fun child =>
            matchHandlers child method (params ++ [(node.wildcardName, captured)]) result

/-- `RadixTree::Match`. -/
def matchPath (root : Node Handler) (method : HttpMethod) (base : Nat) (path : Text) :
    MatchResult Handler :=
  if path = [slash] then
    match root.handlers method with
    | some handler => { handler := some handler, pathExists := true }
    | none => if root.hasAnyHandler then { pathExists := true } else {}
  else
    matchNode method (splitPathView base path) root [] {}

end Tree

end UringServer.Web
