import UringServer.Semantics.BestFirst

/-!
# Shortest walks

The passes of a best-first search as a loop that ends, the cost of the goal as
the length of a shortest walk to it, and the walk found by going back.
-/

namespace UringServer.Semantics

universe u

variable {Node : Type u}

namespace BestFirst

variable [DecidableEq Node] {estimate : Node → Nat} {graph : FiniteGraph Node}
  {origin goal node next : Node} {search after final : BestFirst Node}
  {order : LeastFirst (Node × Nat) Prod.snd} {cost : Nat}

/-! ## The search as a loop -/

/-- A node waits in the queue with its present cost, or its neighbours have been offered it. -/
structure Sound (estimate : Node → Nat) (graph : FiniteGraph Node) (origin : Node)
    (search : BestFirst Node) : Prop extends Labels estimate graph origin search where
  closed : ∀ {node cost}, search.cost node = some cost →
    (node, cost + estimate node) ∈ search.queue ∨
      ∀ next, graph.Edge node next → ∃ found, search.cost next = some found ∧ found ≤ cost + 1

theorem Sound.start (inside : origin ∈ graph.nodes) :
    Sound estimate graph origin (start estimate origin) := by
  have only : ∀ {node cost}, (BestFirst.start estimate origin).cost node = some cost →
      node = origin ∧ cost = 0 := by
    intro node cost here
    by_cases same : node = origin
    · subst same
      simp only [BestFirst.start, Function.update_self, Option.some.injEq] at here
      exact ⟨rfl, here.symm⟩
    · simp [BestFirst.start, same] at here
  have begun : (BestFirst.start estimate origin).cost origin = some 0 := by simp [BestFirst.start]
  refine ⟨⟨begun, ?_, ?_, ?_, ?_, ?_⟩, ?_⟩
  · intro node cost here
    exact (only here).1 ▸ inside
  · intro node cost here
    obtain ⟨rfl, rfl⟩ := only here
    exact ⟨[], .nil _, rfl⟩
  · intro node cost here apart
    exact absurd (only here).1 apart
  · intro node total member
    cases List.mem_singleton.mp member
    exact ⟨0, begun, (Nat.zero_add _).le⟩
  · intro node cost here
    obtain ⟨rfl, rfl⟩ := only here
    exact Finset.card_pos.mpr ⟨_, mem_labelled inside begun⟩
  · intro node cost here
    obtain ⟨rfl, rfl⟩ := only here
    exact .inl (List.mem_singleton.mpr (by rw [Nat.zero_add]))

/-- What a pass does: it takes an entry out of the queue, and either the entry is outdated or all
neighbours of its node are offered its cost. -/
theorem pass_eq_some (labels : Labels estimate graph origin search)
    (taken : search.pass estimate order graph.neighbours goal = some after) :
    ∃ node total rest cost, order.pop search.queue = some ((node, total), rest) ∧
      search.cost node = some cost ∧
      (cost + estimate node < total ∧ after = { search with queue := rest } ∨
        after = (graph.neighbours node).foldl (BestFirst.relax estimate node)
          { search with queue := rest }) := by
  unfold pass at taken
  split at taken
  case h_1 => cases taken
  case h_2 node total rest popped =>
    obtain ⟨cost, here, -⟩ := labels.entries ((LeastFirst.mem_iff popped).mpr (.inl rfl))
    refine ⟨node, total, rest, cost, popped, here, ?_⟩
    split at taken
    case isTrue => cases taken
    case isFalse =>
      split at taken
      case isTrue outdated =>
        rw [here] at outdated
        exact .inl ⟨of_decide_eq_true outdated, (Option.some.inj taken).symm⟩
      case isFalse => exact .inr (Option.some.inj taken).symm

omit [DecidableEq Node] in
theorem Labels.unqueue (labels : Labels estimate graph origin search) {rest : List (Node × Nat)}
    (fewer : ∀ entry ∈ rest, entry ∈ search.queue) :
    Labels estimate graph origin { search with queue := rest } :=
  ⟨labels.begun, labels.inside, labels.walk, labels.back,
    fun member => labels.entries (fewer _ member), labels.bounded⟩

theorem Sound.pass (sound : Sound estimate graph origin search)
    (taken : search.pass estimate order graph.neighbours goal = some after) :
    Sound estimate graph origin after ∧ after.remaining graph < search.remaining graph := by
  obtain ⟨node, total, rest, cost, popped, here, did⟩ := pass_eq_some sound.toLabels taken
  have labels : Labels estimate graph origin { search with queue := rest } :=
    sound.toLabels.unqueue fun entry member => (LeastFirst.mem_iff popped).mpr (.inr member)
  have shorter : ({ search with queue := rest } : BestFirst Node).remaining graph <
      search.remaining graph := by
    have length := LeastFirst.length_eq popped
    unfold remaining
    simp only
    omega
  rcases did with ⟨outdated, rfl⟩ | rfl
  · refine ⟨⟨labels, fun {other found} there => ?_⟩, shorter⟩
    rcases sound.closed there with waiting | offered
    · rcases (LeastFirst.mem_iff popped).mp waiting with taken | stays
      · cases taken
        have same : some found = some cost := there.symm.trans here
        cases same
        omega
      · exact .inl stays
    · exact .inr offered
  · obtain ⟨finalLabels, improves, kept, offers⟩ := labels.foldl_relax here
      fun (next : Node) (member : next ∈ graph.neighbours node) => member
    refine ⟨⟨finalLabels, fun {other found} there => ?_⟩, improves.less.trans_lt shorter⟩
    rcases improves.queued there with before | waiting
    · rcases sound.closed before with queued | offered
      · rcases (LeastFirst.mem_iff popped).mp queued with taken | stays
        · cases taken
          have same : some found = some cost := there.symm.trans kept
          cases same
          exact .inr offers
        · exact .inl (improves.kept stays)
      · refine .inr fun next edge => ?_
        obtain ⟨value, nextCost, enough⟩ := offered next edge
        obtain ⟨lower, nextNow, fewer⟩ := improves.lower nextCost
        exact ⟨lower, nextNow, fewer.trans enough⟩
    · exact .inl waiting

/-! ## The cost of the goal -/

/-- An estimate falls by at most one in a step, and is nothing at the goal. -/
structure Consistent (graph : FiniteGraph Node) (goal : Node) (estimate : Node → Nat) : Prop where
  step : ∀ {node next}, graph.Edge node next → estimate node ≤ estimate next + 1
  arrived : estimate goal = 0

omit [DecidableEq Node] in
theorem Consistent.le_length (consistent : Consistent graph goal estimate) {path : List Node}
    (walk : graph.Walk node path goal) : estimate node ≤ path.length := by
  induction walk with
  | nil => exact consistent.arrived.le
  | cons edge _ ih =>
    have falls := consistent.step edge
    have rest := ih consistent
    rw [List.length_cons]
    omega

omit [DecidableEq Node] in
/-- A walk from a node with a cost ends at a goal no dearer than that, or passes a waiting node
whose total does not exceed it. -/
theorem Sound.goal_or_waiting (sound : Sound estimate graph origin search)
    (consistent : Consistent graph goal estimate) {path : List Node}
    (walk : graph.Walk node path goal) (here : search.cost node = some cost) :
    (∃ found, search.cost goal = some found ∧ found ≤ cost + path.length) ∨
      ∃ entry ∈ search.queue, entry.2 ≤ cost + path.length := by
  induction walk generalizing cost with
  | nil => exact .inl ⟨cost, here, le_rfl⟩
  | @cons node next path final edge rest ih =>
    rcases sound.closed here with waiting | offered
    · have below := consistent.le_length (.cons edge rest)
      exact .inr ⟨_, waiting, by simpa using below⟩
    · obtain ⟨found, there, enough⟩ := offered next edge
      have longer : found + path.length ≤ cost + (next :: path).length := by
        rw [List.length_cons]
        omega
      rcases ih consistent there with ⟨value, arrived, fewer⟩ | ⟨entry, member, fewer⟩
      · exact .inl ⟨value, arrived, fewer.trans longer⟩
      · exact .inr ⟨entry, member, fewer.trans longer⟩

/-- Where the search has stopped, the goal costs no more than any walk to it. -/
theorem Sound.goal_le (sound : Sound estimate graph origin search)
    (consistent : Consistent graph goal estimate)
    (stopped : search.pass estimate order graph.neighbours goal = none) {path : List Node}
    (walk : graph.Walk origin path goal) :
    ∃ found, search.cost goal = some found ∧ found ≤ path.length := by
  have either := sound.goal_or_waiting consistent walk sound.begun
  rw [Nat.zero_add] at either
  rcases either with arrived | ⟨entry, member, fewer⟩
  · exact arrived
  · unfold BestFirst.pass at stopped
    split at stopped
    case h_1 nothing =>
      rw [order.empty nothing] at member
      cases member
    case h_2 node total rest popped =>
      split at stopped
      case isFalse => split at stopped <;> cases stopped
      case isTrue isGoal =>
        subst isGoal
        obtain ⟨found, here, enough⟩ := sound.entries ((LeastFirst.mem_iff popped).mpr (.inl rfl))
        refine ⟨found, here, ?_⟩
        rcases (LeastFirst.mem_iff popped).mp member with rfl | later
        · omega
        · have least := order.least popped entry later
          omega

/-- Going back from a node with a cost gives a walk that is no longer than it. -/
theorem Labels.exists_traceBack (labels : Labels estimate graph origin search) {count : Nat}
    (here : search.cost node = some cost) (enough : cost < count) (path : List Node) :
    ∃ walk, traceBack origin search.parent count node path = some (walk ++ path) ∧
      graph.Walk origin walk node ∧ walk.length ≤ cost := by
  induction count generalizing node cost path with
  | zero => exact absurd enough (Nat.not_lt_zero _)
  | succ count ih =>
    by_cases arrived : node = origin
    · subst arrived
      exact ⟨[], by simp [traceBack], .nil node, Nat.zero_le _⟩
    · obtain ⟨previous, before, parent, earlier, less, edge⟩ := labels.back here arrived
      obtain ⟨walk, traced, valid, short⟩ :=
        ih earlier (by omega) (node :: path)
      refine ⟨walk ++ [node], ?_, valid.concat edge, ?_⟩
      · rw [traceBack, if_neg arrived, parent]
        simp [traced]
      · rw [List.length_append, List.length_singleton]
        omega

end BestFirst

namespace FiniteGraph

open BestFirst

variable [DecidableEq Node] (graph : FiniteGraph Node) (order : LeastFirst (Node × Nat) Prod.snd)
  (estimate : Node → Nat) (origin goal : Node)

/-- The passes of a search. -/
def searching : Loop (BestFirst Node) where
  body := BestFirst.pass estimate order graph.neighbours goal
  Inv := BestFirst.Sound estimate graph origin
  remaining := BestFirst.remaining graph
  preserved := fun sound taken => (sound.pass taken).1
  decreases := fun sound taken => (sound.pass taken).2

/-- The nodes from the start to the goal that a search finds: none if it does not come to the
goal, and no result if the parents of the goal do not end. -/
def bestPath : Option (List Node) :=
  let final := (graph.searching order estimate origin goal).run (BestFirst.start estimate origin)
  match final.cost goal with
  | none => some []
  | some _ => traceBack origin final.parent (graph.nodes.card + 1) goal []

variable {graph order estimate origin goal}

/-- A search returns; if the goal can be reached, it returns a shortest walk to it, and if not,
nothing. -/
theorem exists_bestPath (inside : origin ∈ graph.nodes)
    (consistent : Consistent graph goal estimate) :
    ∃ path, graph.bestPath order estimate origin goal = some path ∧
      (graph.Reaches origin goal → graph.Walk origin path goal ∧
        ∀ other, graph.Walk origin other goal → path.length ≤ other.length) ∧
      (¬ graph.Reaches origin goal → path = []) := by
  have started :
      (graph.searching order estimate origin goal).Inv (BestFirst.start estimate origin) :=
    Sound.start inside
  have sound := (graph.searching order estimate origin goal).run_inv started
  have stopped := (graph.searching order estimate origin goal).body_run started
  simp only [bestPath]
  generalize (graph.searching order estimate origin goal).run _ = final at sound stopped
  change Sound estimate graph origin final at sound
  change final.pass estimate order graph.neighbours goal = none at stopped
  cases here : final.cost goal with
  | none =>
    refine ⟨[], by simp only, fun reaches => ?_, fun _ => rfl⟩
    obtain ⟨path, walk⟩ := reaches.exists_walk
    obtain ⟨found, arrived, -⟩ := sound.goal_le consistent stopped walk
    rw [here] at arrived
    cases arrived
  | some cost =>
    have bound := sound.bounded here
    have most : (final.labelled graph).card ≤ graph.nodes.card :=
      Finset.card_le_card (Finset.filter_subset _ _)
    have enough : cost < graph.nodes.card + 1 := by omega
    obtain ⟨walk, traced, valid, short⟩ := sound.toLabels.exists_traceBack here enough []
    rw [List.append_nil] at traced
    refine ⟨walk, traced, fun _ => ⟨valid, fun other otherWalk => ?_⟩, fun unreachable => ?_⟩
    · obtain ⟨found, arrived, fewer⟩ := sound.goal_le consistent stopped otherWalk
      rw [here] at arrived
      cases arrived
      exact short.trans fewer
    · exact absurd valid.reaches unreachable

end FiniteGraph

end UringServer.Semantics
