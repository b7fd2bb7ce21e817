import Mathlib.Algebra.BigOperators.Group.Finset.Basic
import Mathlib.Algebra.Order.BigOperators.Group.Finset
import UringServer.Semantics.Graph
import UringServer.Semantics.Loop
import UringServer.Semantics.PriorityQueue

/-!
# Best-first search with an estimate

A search from a start keeps for every node the least cost it has found and the
node it came from, and a queue of nodes with their estimated total. It takes a
node with the least estimate, skips it if a cheaper way to it has been found
since, and otherwise offers its neighbours the cost of one more step. It stops
at the goal. If the estimate never exceeds the steps that are left, the cost of
the goal is then the length of a shortest walk, and following the nodes back
gives such a walk.
-/

namespace UringServer.Semantics

universe u

variable {Node : Type u}

/-- The costs, the nodes they came from, and the queue with estimated totals. -/
structure BestFirst (Node : Type u) where
  cost : Node → Option Nat
  parent : Node → Option Node
  queue : List (Node × Nat)

/-- A cost is less than one that may be missing. -/
def Undercuts (cost : Nat) (other : Option Nat) : Prop := ∀ found ∈ other, cost < found

instance (cost : Nat) (other : Option Nat) : Decidable (Undercuts cost other) :=
  match other with
  | none => .isTrue fun _ absent => nomatch absent
  | some found => decidable_of_iff (cost < found) ⟨fun less _ same => by cases same; exact less,
      fun undercuts => undercuts found rfl⟩

namespace BestFirst

variable [DecidableEq Node] (estimate : Node → Nat)

/-- Give a node a cost and the node it came from, and put it into the queue. -/
def label (search : BestFirst Node) (next : Node) (cost : Nat) (node : Node) : BestFirst Node where
  cost := Function.update search.cost next (some cost)
  parent := Function.update search.parent next (some node)
  queue := search.queue ++ [(next, cost + estimate next)]

/-- Offer a neighbour the cost of one step from a node. -/
def relax (node : Node) (search : BestFirst Node) (next : Node) : BestFirst Node :=
  match search.cost node with
  | none => search
  | some cost =>
    if Undercuts (cost + 1) (search.cost next) then search.label estimate next (cost + 1) node
    else search

/-- One pass: the loop is left when the queue is empty or gives the goal. -/
def pass (order : LeastFirst (Node × Nat) Prod.snd) (neighbours : Node → List Node) (goal : Node)
    (search : BestFirst Node) : Option (BestFirst Node) :=
  match order.pop search.queue with
  | none => none
  | some ((node, total), rest) =>
    if node = goal then none
    else if (search.cost node).any fun cost => decide (cost + estimate node < total) then
      some { search with queue := rest }
    else some ((neighbours node).foldl (relax estimate node) { search with queue := rest })

/-- Only the start has a cost, and it waits in the queue. -/
def start (origin : Node) : BestFirst Node where
  cost := Function.update (fun _ => none) origin (some 0)
  parent := fun _ => none
  queue := [(origin, estimate origin)]

/-- The nodes from the start to a node, by going back along the parents: empty if they end
elsewhere, and without result if they go on for too long. -/
def traceBack (origin : Node) (parent : Node → Option Node) :
    Nat → Node → List Node → Option (List Node)
  | 0, _, _ => none
  | count + 1, node, path =>
    if node = origin then some path
    else
      match parent node with
      | none => some []
      | some previous => traceBack origin parent count previous (node :: path)

variable {estimate} {graph : FiniteGraph Node} {origin goal node next : Node}
  {search after final : BestFirst Node} {order : LeastFirst (Node × Nat) Prod.snd} {cost : Nat}

theorem relax_eq (here : search.cost node = some cost) (next : Node) :
    relax estimate node search next =
      if Undercuts (cost + 1) (search.cost next) then search.label estimate next (cost + 1) node
      else search := by
  rw [relax, here]

@[simp] theorem label_cost_self : (search.label estimate next cost node).cost next = some cost := by
  simp [label]

theorem label_cost_of_ne {other : Node} (different : other ≠ next) :
    (search.label estimate next cost node).cost other = search.cost other := by
  simp [label, different]

theorem label_parent_self : (search.label estimate next cost node).parent next = some node := by
  simp [label]

theorem label_parent_of_ne {other : Node} (different : other ≠ next) :
    (search.label estimate next cost node).parent other = search.parent other := by
  simp [label, different]

/-! ## Costs are lengths of walks -/

/-- The nodes that have a cost. -/
def labelled (graph : FiniteGraph Node) (search : BestFirst Node) : Finset Node :=
  graph.nodes.filter fun node => (search.cost node).isSome

omit [DecidableEq Node] in
theorem mem_labelled {found : Nat} (inside : node ∈ graph.nodes)
    (here : search.cost node = some found) : node ∈ search.labelled graph :=
  Finset.mem_filter.mpr ⟨inside, by rw [here]; rfl⟩

/-- Every cost is that of some walk, and of more than the cost of the node it came from; what waits
in the queue does so with at least its present cost. -/
structure Labels (estimate : Node → Nat) (graph : FiniteGraph Node) (origin : Node)
    (search : BestFirst Node) : Prop where
  begun : search.cost origin = some 0
  inside : ∀ {node cost}, search.cost node = some cost → node ∈ graph.nodes
  walk : ∀ {node cost}, search.cost node = some cost →
    ∃ path, graph.Walk origin path node ∧ path.length = cost
  back : ∀ {node cost}, search.cost node = some cost → node ≠ origin →
    ∃ previous before, search.parent node = some previous ∧ search.cost previous = some before ∧
      before + 1 ≤ cost ∧ graph.Edge previous node
  entries : ∀ {node total}, (node, total) ∈ search.queue →
    ∃ cost, search.cost node = some cost ∧ cost + estimate node ≤ total
  bounded : ∀ {node cost}, search.cost node = some cost → cost < (search.labelled graph).card

/-- The queue's length and twice the costs, a missing one counting as many as there are nodes. -/
def remaining (graph : FiniteGraph Node) (search : BestFirst Node) : Nat :=
  2 * (∑ node ∈ graph.nodes, (search.cost node).getD graph.nodes.card) + search.queue.length

/-- What passes may do: lower costs, and put a node into the queue whenever they do. -/
structure Improves (estimate : Node → Nat) (graph : FiniteGraph Node)
    (search after : BestFirst Node) : Prop where
  lower : ∀ {node cost}, search.cost node = some cost →
    ∃ found, after.cost node = some found ∧ found ≤ cost
  kept : ∀ {entry}, entry ∈ search.queue → entry ∈ after.queue
  queued : ∀ {node cost}, after.cost node = some cost →
    search.cost node = some cost ∨ (node, cost + estimate node) ∈ after.queue
  less : after.remaining graph ≤ search.remaining graph

omit [DecidableEq Node] in
theorem Improves.refl (search : BestFirst Node) : Improves estimate graph search search :=
  ⟨fun here => ⟨_, here, le_rfl⟩, id, .inl, le_rfl⟩

omit [DecidableEq Node] in
theorem Improves.trans (first : Improves estimate graph search after)
    (second : Improves estimate graph after final) : Improves estimate graph search final where
  lower := fun here => by
    obtain ⟨found, between, fewer⟩ := first.lower here
    obtain ⟨last, there, least⟩ := second.lower between
    exact ⟨last, there, least.trans fewer⟩
  kept := fun member => second.kept (first.kept member)
  queued := fun here => by
    rcases second.queued here with between | waiting
    · exact (first.queued between).imp_right second.kept
    · exact .inr waiting
  less := second.less.trans first.less

section Relax

variable (labels : Labels estimate graph origin search) (here : search.cost node = some cost)
  (edge : graph.Edge node next)

omit [DecidableEq Node] in
theorem card_labelled_lt (unlabelled : search.cost next = none) {larger : Finset Node}
    (below : search.labelled graph ⊆ larger) (member : next ∈ larger) :
    (search.labelled graph).card < larger.card := by
  refine Finset.card_lt_card ⟨below, fun back => ?_⟩
  have labelled := (Finset.mem_filter.mp (back member)).2
  rw [unlabelled] at labelled
  cases labelled

include labels here edge

omit [DecidableEq Node] in
/-- A cost that undercuts is below the number of nodes. -/
theorem Labels.undercut_lt (undercuts : Undercuts (cost + 1) (search.cost next)) :
    cost + 1 < (search.cost next).getD graph.nodes.card := by
  cases old : search.cost next with
  | some found => exact undercuts found old
  | none =>
    have inside := graph.stays (labels.inside here) edge
    have room := card_labelled_lt old (Finset.filter_subset _ _) inside
    have bound := labels.bounded here
    simp only [Option.getD_none]
    omega

/-- The parents stay the nodes that the costs came from. -/
theorem Labels.back_label (undercuts : Undercuts (cost + 1) (search.cost next)) {other : Node}
    {found : Nat} (there : (search.label estimate next (cost + 1) node).cost other = some found)
    (apart : other ≠ origin) :
    ∃ previous before, (search.label estimate next (cost + 1) node).parent other = some previous ∧
      (search.label estimate next (cost + 1) node).cost previous = some before ∧
      before + 1 ≤ found ∧ graph.Edge previous other := by
  by_cases same : other = next
  · subst same
    rw [label_cost_self] at there
    cases there
    have different : node ≠ other := by
      rintro rfl
      exact absurd (undercuts cost here) (by omega)
    exact ⟨node, cost, label_parent_self, by rw [label_cost_of_ne different, here], le_rfl, edge⟩
  · rw [label_cost_of_ne same] at there
    obtain ⟨previous, before, parent, earlier, less, step⟩ := labels.back there apart
    rw [label_parent_of_ne same]
    by_cases lowered : previous = next
    · subst lowered
      have undercut := undercuts before earlier
      exact ⟨previous, cost + 1, parent, label_cost_self, by omega, step⟩
    · exact ⟨previous, before, parent, by rw [label_cost_of_ne lowered, earlier], less, step⟩

theorem Labels.bounded_label (undercuts : Undercuts (cost + 1) (search.cost next)) {other : Node}
    {found : Nat} (there : (search.label estimate next (cost + 1) node).cost other = some found) :
    found < ((search.label estimate next (cost + 1) node).labelled graph).card := by
  have inside := graph.stays (labels.inside here) edge
  have below : search.labelled graph ⊆
      (search.label estimate next (cost + 1) node).labelled graph := by
    intro other member
    obtain ⟨isNode, hasCost⟩ := Finset.mem_filter.mp member
    by_cases same : other = next
    · subst same
      exact mem_labelled isNode label_cost_self
    · exact Finset.mem_filter.mpr ⟨isNode, by rwa [label_cost_of_ne same]⟩
  have grows := Finset.card_le_card below
  by_cases same : other = next
  · subst same
    rw [label_cost_self] at there
    cases there
    cases old : search.cost other with
    | some found =>
      have undercut := undercuts found old
      have bound := labels.bounded old
      omega
    | none =>
      have room := card_labelled_lt old below (mem_labelled inside label_cost_self)
      have bound := labels.bounded here
      omega
  · have bound := labels.bounded (label_cost_of_ne same ▸ there)
    omega

/-- Offering a cost keeps the labels. -/
theorem Labels.relax : Labels estimate graph origin (relax estimate node search next) := by
  rw [relax_eq here]
  split
  case isFalse => exact labels
  case isTrue undercuts =>
    constructor
    · have notOrigin : origin ≠ next := by
        rintro rfl
        exact absurd (undercuts 0 labels.begun) (Nat.not_lt_zero _)
      rw [label_cost_of_ne notOrigin, labels.begun]
    · intro other found there
      by_cases same : other = next
      · exact same ▸ graph.stays (labels.inside here) edge
      · exact labels.inside (label_cost_of_ne same ▸ there)
    · intro other found there
      by_cases same : other = next
      · subst same
        rw [label_cost_self] at there
        cases there
        obtain ⟨path, walk, length⟩ := labels.walk here
        exact ⟨path ++ [other], walk.concat edge, by simp [length]⟩
      · exact labels.walk (label_cost_of_ne same ▸ there)
    · exact fun there apart => labels.back_label here edge undercuts there apart
    · intro other total member
      rcases List.mem_append.mp member with old | new
      · obtain ⟨found, there, enough⟩ := labels.entries old
        by_cases same : other = next
        · subst same
          have undercut := undercuts found there
          exact ⟨cost + 1, label_cost_self, by omega⟩
        · exact ⟨found, by rw [label_cost_of_ne same, there], enough⟩
      · cases List.mem_singleton.mp new
        exact ⟨cost + 1, label_cost_self, le_rfl⟩
    · exact fun there => labels.bounded_label here edge undercuts there

theorem Labels.remaining_label (undercuts : Undercuts (cost + 1) (search.cost next)) :
    (search.label estimate next (cost + 1) node).remaining graph < search.remaining graph := by
  have inside := graph.stays (labels.inside here) edge
  have less := labels.undercut_lt here edge undercuts
  have lower : ∑ other ∈ graph.nodes,
      ((search.label estimate next (cost + 1) node).cost other).getD graph.nodes.card <
      ∑ other ∈ graph.nodes, (search.cost other).getD graph.nodes.card := by
    refine Finset.sum_lt_sum (fun other _ => ?_) ⟨next, inside, by simpa using less⟩
    by_cases same : other = next
    · subst same
      simpa using less.le
    · rw [label_cost_of_ne same]
  have length : (search.label estimate next (cost + 1) node).queue.length =
      search.queue.length + 1 := List.length_append
  unfold remaining
  omega

theorem Labels.improves_relax :
    Improves estimate graph search (BestFirst.relax estimate node search next) := by
  have less := labels.remaining_label here edge
  rw [relax_eq here]
  split
  case isFalse => exact .refl search
  case isTrue undercuts =>
    constructor
    · intro other found there
      by_cases same : other = next
      · subst same
        exact ⟨cost + 1, label_cost_self, (undercuts found there).le⟩
      · exact ⟨found, by rw [label_cost_of_ne same, there], le_rfl⟩
    · exact fun member => List.mem_append_left _ member
    · intro other found there
      by_cases same : other = next
      · subst same
        rw [label_cost_self] at there
        cases there
        exact .inr (List.mem_append_right _ (List.mem_singleton.mpr rfl))
      · exact .inl (label_cost_of_ne same ▸ there)
    · exact (less undercuts).le

end Relax

/-- The node whose neighbours are offered keeps its cost, and the neighbour has the offer. -/
theorem relax_offered (here : search.cost node = some cost) (next : Node) :
    (BestFirst.relax estimate node search next).cost node = some cost ∧
      ∃ found, (BestFirst.relax estimate node search next).cost next = some found ∧
      found ≤ cost + 1 := by
  rw [relax_eq here]
  split
  case isTrue undercuts =>
    have different : node ≠ next := by
      rintro rfl
      exact absurd (undercuts cost here) (by omega)
    exact ⟨by rw [label_cost_of_ne different, here], cost + 1, label_cost_self, le_rfl⟩
  case isFalse kept =>
    refine ⟨here, ?_⟩
    by_contra none
    refine kept fun found there => ?_
    by_contra less
    exact none ⟨found, there, by omega⟩

/-- Offering a node's cost to all its neighbours. -/
theorem Labels.foldl_relax (labels : Labels estimate graph origin search)
    (here : search.cost node = some cost) {nexts : List Node}
    (edges : ∀ next ∈ nexts, graph.Edge node next) :
    Labels estimate graph origin (nexts.foldl (BestFirst.relax estimate node) search) ∧
      Improves estimate graph search (nexts.foldl (BestFirst.relax estimate node) search) ∧
      (nexts.foldl (BestFirst.relax estimate node) search).cost node = some cost ∧
      ∀ next ∈ nexts, ∃ found,
        (nexts.foldl (BestFirst.relax estimate node) search).cost next = some found ∧
          found ≤ cost + 1 := by
  induction nexts generalizing search with
  | nil => exact ⟨labels, .refl search, here, by simp⟩
  | cons next nexts ih =>
    have edge := edges next List.mem_cons_self
    have improved := labels.improves_relax here edge
    obtain ⟨kept, first, offered, enough⟩ := relax_offered here next
    obtain ⟨finalLabels, improves, same, rest⟩ := ih (labels.relax here edge) kept
      fun other member => edges other (List.mem_cons_of_mem next member)
    refine ⟨finalLabels, improved.trans improves, same, List.forall_mem_cons.mpr ⟨?_, rest⟩⟩
    obtain ⟨found, there, fewer⟩ := improves.lower offered
    exact ⟨found, there, fewer.trans enough⟩

end BestFirst

end UringServer.Semantics
