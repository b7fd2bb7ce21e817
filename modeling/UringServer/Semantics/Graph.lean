import Mathlib.Logic.Relation
import Mathlib.Data.Finset.Card

/-!
# Finite graphs and their walks

A graph is given by the neighbours of each node, as a program lists them, and
by finitely many nodes that its edges never leave. A walk is the list of the
nodes it enters, so that its length is the number of its steps.
-/

namespace UringServer.Semantics

universe u

/-- The neighbours of every node, within finitely many nodes. -/
structure FiniteGraph (Node : Type u) where
  nodes : Finset Node
  neighbours : Node → List Node
  stays : ∀ {node next}, node ∈ nodes → next ∈ neighbours node → next ∈ nodes

namespace FiniteGraph

variable {Node : Type u} (graph : FiniteGraph Node)

/-- One step along an edge. -/
def Edge (node next : Node) : Prop := next ∈ graph.neighbours node

/-- Any number of steps. -/
def Reaches (node final : Node) : Prop := Relation.ReflTransGen graph.Edge node final

/-- The nodes entered on the way from one node to another. -/
inductive Walk : Node → List Node → Node → Prop where
  | nil (node : Node) : Walk node [] node
  | cons {node next : Node} {path : List Node} {final : Node} (edge : graph.Edge node next)
      (rest : Walk next path final) : Walk node (next :: path) final

variable {graph} {node next middle final : Node} {path more : List Node}

theorem Walk.append (first : graph.Walk node path middle) (second : graph.Walk middle more final) :
    graph.Walk node (path ++ more) final := by
  induction first with
  | nil => exact second
  | cons edge _ ih => exact .cons edge (ih second)

theorem Walk.concat (first : graph.Walk node path middle) (edge : graph.Edge middle final) :
    graph.Walk node (path ++ [final]) final :=
  first.append (.cons edge (.nil final))

theorem Walk.reaches (walk : graph.Walk node path final) : graph.Reaches node final := by
  induction walk with
  | nil => exact .refl
  | cons edge _ ih => exact .head edge ih

theorem Reaches.exists_walk (reaches : graph.Reaches node final) :
    ∃ path, graph.Walk node path final := by
  induction reaches with
  | refl => exact ⟨[], .nil node⟩
  | tail _ edge ih =>
    obtain ⟨path, walk⟩ := ih
    exact ⟨path ++ [_], walk.concat edge⟩

end FiniteGraph

end UringServer.Semantics
