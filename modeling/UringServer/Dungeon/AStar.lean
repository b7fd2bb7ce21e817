import Mathlib.Algebra.GroupWithZero.Nat
import Mathlib.Algebra.Order.Group.Int
import Mathlib.Data.List.Flatten
import UringServer.Semantics.ShortestWalk

/-!
# Bots finding their way

`BotManager::AStarSearch` of the example game server is a best-first search over
the floor tiles of a dungeon with the Manhattan distance as estimate. Its costs
and totals are small integers, which a `float` holds exactly. It returns a
shortest way whenever there is one.
-/

namespace UringServer.Dungeon

open Semantics

/-- `DungeonGenerator::Coord`. -/
structure Coord where
  tileX : Int
  tileY : Int
  deriving DecidableEq, Repr

/-- A cell of `grid_`: 0 is floor and 1 is wall. -/
inductive Tile where
  | floor
  | wall
  deriving DecidableEq, Repr

/-- `GRID_WIDTH` and `GRID_HEIGHT`. -/
structure Settings where
  gridWidth : Nat := 120
  gridHeight : Nat := 70

/-- `grid_`, of which only the cells in range are ever read or written. -/
abbrev Grid := Coord → Tile

variable (settings : Settings) (order : LeastFirst (Coord × Nat) Prod.snd) (grid : Grid)

def isInMapRange (tile : Coord) : Prop :=
  0 ≤ tile.tileX ∧ tile.tileX < settings.gridWidth ∧
    0 ≤ tile.tileY ∧ tile.tileY < settings.gridHeight

instance (tile : Coord) : Decidable (isInMapRange settings tile) :=
  inferInstanceAs (Decidable (_ ∧ _))

/-- `GetTile`: everything outside is wall. -/
def getTile (tile : Coord) : Tile :=
  if isInMapRange settings tile then grid tile else .wall

/-- The cells of the grid, column by column. -/
def scan : List Coord :=
  (List.range settings.gridWidth).flatMap fun (x : Nat) =>
    (List.range settings.gridHeight).map fun (y : Nat) => ⟨x, y⟩

variable {settings} in
theorem mem_scan {tile : Coord} : tile ∈ scan settings ↔ isInMapRange settings tile := by
  simp only [scan, List.mem_flatMap, List.mem_range, List.mem_map]
  constructor
  · rintro ⟨x, insideX, y, insideY, rfl⟩
    refine ⟨?_, ?_, ?_, ?_⟩ <;> simp only <;> omega
  · rintro ⟨aboveX, belowX, aboveY, belowY⟩
    refine ⟨tile.tileX.toNat, by omega, tile.tileY.toNat, by omega, ?_⟩
    rw [Int.toNat_of_nonneg aboveX, Int.toNat_of_nonneg aboveY]

theorem nodup_scan (settings : Settings) : (scan settings).Nodup := by
  refine List.nodup_flatMap.mpr ⟨?_, ?_⟩
  · intro x _
    refine List.nodup_range.map fun one two same => ?_
    exact Int.ofNat.inj (congrArg Coord.tileY same)
  · refine List.nodup_range.imp fun {one two} different => ?_
    intro tile first second
    obtain ⟨_, _, rfl⟩ := List.mem_map.mp first
    obtain ⟨_, _, same⟩ := List.mem_map.mp second
    exact different (Int.ofNat.inj (congrArg Coord.tileX same)).symm

/-- The cells in range. -/
def cells : Finset Coord := ⟨scan settings, Multiset.coe_nodup.mpr (nodup_scan settings)⟩

variable {settings} in
theorem mem_cells {tile : Coord} : tile ∈ cells settings ↔ isInMapRange settings tile := mem_scan

/-- The cells in range and, of each, the neighbours in the order of `dx` and `dy` that a bot may
enter. -/
def walkGraph : FiniteGraph Coord where
  nodes := cells settings
  neighbours := fun tile =>
    ([⟨tile.tileX, tile.tileY + 1⟩, ⟨tile.tileX, tile.tileY - 1⟩, ⟨tile.tileX + 1, tile.tileY⟩,
      ⟨tile.tileX - 1, tile.tileY⟩] : List Coord).filter fun next =>
        isInMapRange settings next ∧ getTile settings grid next = .floor
  stays := fun {tile next} _ member => by
    obtain ⟨-, holds⟩ := List.mem_filter.mp member
    exact mem_cells.mpr (of_decide_eq_true holds).1

/-- The estimate of the steps that are left. -/
def manhattan (goal tile : Coord) : Nat :=
  (tile.tileX - goal.tileX).natAbs + (tile.tileY - goal.tileY).natAbs

def aStarSearch (start goal : Coord) : Option (List Coord) :=
  if ¬ isInMapRange settings start then some []
  else if ¬ isInMapRange settings goal then some []
  else if getTile settings grid goal ≠ .floor then some []
  else if start = goal then some []
  else (walkGraph settings grid).bestPath order (manhattan goal) start goal

/-- Two tiles that share a side. -/
def Beside (tile next : Coord) : Prop :=
  (tile.tileX = next.tileX ∧ (next.tileY - tile.tileY).natAbs = 1) ∨
    (tile.tileY = next.tileY ∧ (next.tileX - tile.tileX).natAbs = 1)

/-- A floor tile of the grid. -/
def Floor (tile : Coord) : Prop := isInMapRange settings tile ∧ grid tile = .floor

/-- A way on foot: each tile entered is floor and shares a side with the one before. -/
inductive Way : Coord → List Coord → Coord → Prop where
  | arrived (tile : Coord) : Way tile [] tile
  | step {tile next goal : Coord} {path : List Coord} (beside : Beside tile next)
      (floor : Floor settings grid next) (rest : Way next path goal) : Way tile (next :: path) goal

variable {settings} {order} {grid} {tile next start goal : Coord} {path : List Coord}

theorem getTile_eq_floor : getTile settings grid tile = .floor ↔ Floor settings grid tile := by
  unfold getTile Floor
  split
  case isTrue inside => exact ⟨fun floor => ⟨inside, floor⟩, And.right⟩
  case isFalse outside => exact ⟨fun wall => (nomatch wall), fun floor => absurd floor.1 outside⟩

theorem edge_walkGraph : (walkGraph settings grid).Edge tile next ↔
    Beside tile next ∧ Floor settings grid next := by
  change next ∈ List.filter _ _ ↔ _
  rw [List.mem_filter, decide_eq_true_eq, getTile_eq_floor,
    and_iff_right_of_imp (fun floor : Floor settings grid next => floor.1)]
  refine and_congr_left fun _ => ?_
  obtain ⟨tileX, tileY⟩ := tile
  obtain ⟨nextX, nextY⟩ := next
  simp only [List.mem_cons, List.not_mem_nil, or_false, Coord.mk.injEq, Beside]
  omega

theorem walk_walkGraph : (walkGraph settings grid).Walk start path goal ↔
    Way settings grid start path goal := by
  constructor
  · intro walk
    induction walk with
    | nil => exact .arrived _
    | cons edge _ ih =>
      obtain ⟨beside, floor⟩ := edge_walkGraph.mp edge
      exact .step beside floor ih
  · intro way
    induction way with
    | arrived => exact .nil _
    | step beside floor _ ih =>
      exact .cons (edge_walkGraph.mpr ⟨beside, floor⟩) ih

theorem consistent_manhattan (goal : Coord) :
    BestFirst.Consistent (walkGraph settings grid) goal (manhattan goal) where
  step := fun {tile next} edge => by
    have beside := (edge_walkGraph.mp edge).1
    unfold Beside at beside
    unfold manhattan
    omega
  arrived := by simp [manhattan]

theorem Way.floor_goal (way : Way settings grid start path goal) (apart : start ≠ goal) :
    Floor settings grid goal := by
  induction way with
  | arrived => exact absurd rfl apart
  | @step tile next goal path _ floor _ ih =>
    by_cases same : next = goal
    · exact same ▸ floor
    · exact ih same

/-- The start and the goal between which there is something to search. -/
def Searched (settings : Settings) (grid : Grid) (start goal : Coord) : Prop :=
  isInMapRange settings start ∧ Floor settings grid goal ∧ start ≠ goal

theorem aStarSearch_of_searched (searched : Searched settings grid start goal) :
    aStarSearch settings order grid start goal =
      (walkGraph settings grid).bestPath order (manhattan goal) start goal := by
  obtain ⟨inside, floor, apart⟩ := searched
  rw [aStarSearch, if_neg (not_not.mpr inside), if_neg (not_not.mpr floor.1),
    if_neg (not_not.mpr (getTile_eq_floor.mpr floor)), if_neg apart]

theorem aStarSearch_of_not_searched (unsearched : ¬ Searched settings grid start goal) :
    aStarSearch settings order grid start goal = some [] := by
  unfold aStarSearch
  split
  · rfl
  · split
    · rfl
    · split
      · rfl
      · split
        · rfl
        case isFalse inside _ floor apart =>
          exact absurd ⟨not_not.mp inside, getTile_eq_floor.mp (not_not.mp floor), apart⟩ unsearched

/-- If there is a way, the search returns one that no other is shorter than. -/
theorem aStarSearch_of_way {other : List Coord} (inside : isInMapRange settings start)
    (apart : start ≠ goal) (way : Way settings grid start other goal) :
    ∃ path, aStarSearch settings order grid start goal = some path ∧ path ≠ [] ∧
      Way settings grid start path goal ∧
      ∀ other, Way settings grid start other goal → path.length ≤ other.length := by
  have inGraph : start ∈ (walkGraph settings grid).nodes := mem_cells.mpr inside
  obtain ⟨path, returned, reached, -⟩ :=
    @FiniteGraph.exists_bestPath _ _ _ order _ _ _ inGraph (consistent_manhattan goal)
  obtain ⟨walk, least⟩ := reached (walk_walkGraph.mpr way).reaches
  simp only [walk_walkGraph] at walk least
  refine ⟨path, ?_, ?_, walk, least⟩
  · rw [aStarSearch_of_searched ⟨inside, way.floor_goal apart, apart⟩, returned]
  · rintro rfl
    cases walk
    exact apart rfl

/-- If there is none, it returns nothing. -/
theorem aStarSearch_of_no_way (none : ∀ other, ¬ Way settings grid start other goal) :
    aStarSearch settings order grid start goal = some [] := by
  by_cases searched : Searched settings grid start goal
  · have inGraph : start ∈ (walkGraph settings grid).nodes := mem_cells.mpr searched.1
    obtain ⟨path, returned, -, unreached⟩ :=
      @FiniteGraph.exists_bestPath _ _ _ order _ _ _ inGraph (consistent_manhattan goal)
    rw [aStarSearch_of_searched searched, returned, unreached]
    intro reaches
    obtain ⟨other, walk⟩ := reaches.exists_walk
    exact none other (walk_walkGraph.mp walk)
  · exact aStarSearch_of_not_searched searched

/-- `AStarSearch` always returns: nothing if start and goal coincide, the start is off the grid or
no way leads from one to the other, and otherwise a way that no other way is shorter than. -/
theorem aStarSearch_shortest (settings : Settings) (order : LeastFirst (Coord × Nat) Prod.snd)
    (grid : Grid) (start goal : Coord) :
    ∃ path, aStarSearch settings order grid start goal = some path ∧
      (path ≠ [] ↔ isInMapRange settings start ∧ start ≠ goal ∧
        ∃ other, Way settings grid start other goal) ∧
      (path ≠ [] → Way settings grid start path goal ∧
        ∀ other, Way settings grid start other goal → path.length ≤ other.length) := by
  by_cases possible : isInMapRange settings start ∧ start ≠ goal ∧
      ∃ other, Way settings grid start other goal
  · obtain ⟨inside, apart, other, way⟩ := possible
    obtain ⟨path, returned, nonempty, shortest⟩ := aStarSearch_of_way inside apart way
    exact ⟨path, returned, ⟨fun _ => ⟨inside, apart, other, way⟩, fun _ => nonempty⟩,
      fun _ => shortest⟩
  · have nothing : aStarSearch settings order grid start goal = some [] := by
      by_cases searched : Searched settings grid start goal
      · exact aStarSearch_of_no_way fun other way =>
          possible ⟨searched.1, searched.2.2, other, way⟩
      · exact aStarSearch_of_not_searched searched
    exact ⟨[], nothing, ⟨fun contrary => absurd rfl contrary, fun holds => absurd holds possible⟩,
      fun contrary => absurd rfl contrary⟩

end UringServer.Dungeon
