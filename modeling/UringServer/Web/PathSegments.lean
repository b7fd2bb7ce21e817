import UringServer.Semantics.Search
import UringServer.Web.RadixTree

/-!
# Where the segments of a path lie

The splitting loop carves a path at its slashes and drops what is empty between
them. `Carved` says so for the rest of a path at an address. The facts about
segments are read from it: their texts, where they lie, and where the last ends.
-/

namespace UringServer.Web

open UringServer.Semantics

/-- What lies between the slashes of a path, without the empty pieces. -/
def pieces (path : Text) : List Text := (path.splitOn slash).filter (· ≠ [])

theorem pieces_append_slash (front back : Text) :
    pieces (front ++ slash :: back) = pieces front ++ pieces back := by
  unfold pieces
  rw [List.splitOn_append_cons_self, List.filter_append]

theorem pieces_nil : pieces [] = [] := rfl

theorem pieces_of_not_mem {piece : Text} (nonempty : piece ≠ []) (noSlash : slash ∉ piece) :
    pieces piece = [piece] := by
  unfold pieces
  rw [List.splitOn_eq_singleton noSlash]
  simp [nonempty]

/-- A slash at the end adds no piece. -/
theorem pieces_concat_slash (path : Text) : pieces (path ++ [slash]) = pieces path := by
  rw [pieces_append_slash, pieces_nil, List.append_nil]

theorem nil_not_mem_pieces (path : Text) : [] ∉ pieces path := by
  simp [pieces]

/-- The segments of the rest of a path at an address. -/
inductive Carved : Nat → Text → List Segment → Prop where
  | nil (address : Nat) : Carved address [] []
  | slash {address : Nat} {rest : Text} {segments : List Segment} :
      Carved (address + 1) rest segments → Carved address (slash :: rest) segments
  | last (address : Nat) {piece : Text} : piece ≠ [] → slash ∉ piece →
      Carved address piece [⟨address, piece⟩]
  | piece {address : Nat} {piece rest : Text} {segments : List Segment} :
      piece ≠ [] → slash ∉ piece → Carved (address + piece.length + 1) rest segments →
      Carved address (piece ++ slash :: rest) (⟨address, piece⟩ :: segments)

/-- A segment is a piece of the path at an address. -/
structure Segment.Lies (address : Nat) (path : Text) (segment : Segment) : Prop where
  nonempty : segment.text ≠ []
  noSlash : slash ∉ segment.text
  inside : ∃ front back, path = front ++ segment.text ++ back ∧
    segment.data = address + front.length

/-- What lies in the rest of a path lies in the path. -/
theorem Segment.Lies.behind (front : Text) {address : Nat} {rest : Text} {segment : Segment}
    (lies : segment.Lies (address + front.length) rest) : segment.Lies address (front ++ rest) := by
  obtain ⟨before, after, rfl, place⟩ := lies.inside
  refine ⟨lies.nonempty, lies.noSlash, front ++ before, after, ?_, ?_⟩
  · simp only [List.append_assoc]
  · rw [place, List.length_append, Nat.add_assoc]

/-- What stands behind a slash in a path that does not end with one. -/
theorem behind_slash (front : Text) {rest : Text}
    (open_ : (front ++ slash :: rest).getLast? ≠ some slash) :
    rest ≠ [] ∧ rest.getLast? ≠ some slash := by
  cases rest with
  | nil => exact absurd List.getLast?_concat open_
  | cons byte rest =>
    rw [List.getLast?_append, List.getLast?_cons_cons, List.getLast?_cons] at open_
    rw [List.getLast?_cons]
    exact ⟨List.cons_ne_nil _ _, open_⟩

namespace Carved

variable {address : Nat} {path : Text} {segments : List Segment}

theorem texts (carved : Carved address path segments) :
    segments.map Segment.text = pieces path := by
  induction carved with
  | nil => exact pieces_nil.symm
  | slash _ ih =>
    rw [ih]
    exact (pieces_append_slash [] _).symm
  | last _ nonempty noSlash => exact (pieces_of_not_mem nonempty noSlash).symm
  | piece nonempty noSlash _ ih =>
    rw [List.map_cons, ih, pieces_append_slash,
      pieces_of_not_mem nonempty noSlash, List.singleton_append]

theorem lies (carved : Carved address path segments) :
    ∀ segment ∈ segments, segment.Lies address path := by
  induction carved with
  | nil => exact nofun
  | slash _ ih =>
    intro segment member
    exact Segment.Lies.behind [Web.slash] (ih segment member)
  | last address nonempty noSlash =>
    intro segment member
    rw [List.mem_singleton.mp member]
    exact ⟨nonempty, noSlash, [], [], by simp, rfl⟩
  | @piece address piece rest segments nonempty noSlash _ ih =>
    intro segment member
    rcases List.mem_cons.mp member with rfl | member
    · exact ⟨nonempty, noSlash, [], Web.slash :: rest, rfl, rfl⟩
    · have split : piece ++ Web.slash :: rest = (piece ++ [Web.slash]) ++ rest := by
        rw [List.append_assoc, List.singleton_append]
      rw [split]
      refine Segment.Lies.behind _ ?_
      rw [List.length_append, ← Nat.add_assoc]
      exact ih segment member

/-- The segments lie in the order of the path, with a slash between them. -/
theorem ordered (carved : Carved address path segments) :
    segments.Pairwise fun first second => first.data + first.text.length < second.data := by
  induction carved with
  | nil => exact .nil
  | slash _ ih => exact ih
  | last => exact List.pairwise_singleton ..
  | piece _ _ carved ih =>
    refine .cons ?_ ih
    intro segment member
    obtain ⟨front, back, -, place⟩ := (carved.lies segment member).inside
    rw [place]
    dsimp only
    omega

/-- Without a slash at the end there is a last segment, and it ends where the path does. -/
theorem last_ends (carved : Carved address path segments) (nonempty : path ≠ [])
    (open_ : path.getLast? ≠ some Web.slash) :
    ∃ segment ∈ segments.getLast?, segment.data + segment.text.length = address + path.length := by
  induction carved with
  | nil => exact absurd rfl nonempty
  | slash _ ih =>
    obtain ⟨restNonempty, restOpen⟩ := behind_slash [] open_
    obtain ⟨segment, isLast, ends⟩ := ih restNonempty restOpen
    refine ⟨segment, isLast, ?_⟩
    rw [ends, List.length_cons, Nat.add_assoc, Nat.add_comm 1]
  | last address => exact ⟨_, rfl, rfl⟩
  | piece _ _ _ ih =>
    obtain ⟨restNonempty, restOpen⟩ := behind_slash _ open_
    obtain ⟨segment, isLast, ends⟩ := ih restNonempty restOpen
    refine ⟨segment, ?_, ?_⟩
    · rw [List.getLast?_cons, Option.mem_some_iff]
      rw [Option.mem_def.mp isLast, Option.getD_some]
    · rw [ends, List.length_append, List.length_cons]
      omega

end Carved

theorem findFrom_eq (text : Text) (byte : UInt8) (start : Nat) :
    findFrom text byte start = (findElement (text.drop start) byte 0).map (start + ·) := by
  simp [findFrom, findElement]

/-- What a pass of the loop does with the rest of the path. -/
inductive SplitPass (base : Nat) (path : Text) (split : Split) : Split → Prop where
  | last (nonempty : path.drop split.start ≠ []) (noSlash : slash ∉ path.drop split.start) :
      SplitPass base path split
        ⟨split.segments ++ [⟨base + split.start, path.drop split.start⟩], path.length⟩
  | slash {rest : Text} (behind : path.drop split.start = slash :: rest) :
      SplitPass base path split ⟨split.segments, split.start + 1⟩
  | piece {piece rest : Text} (behind : path.drop split.start = piece ++ Web.slash :: rest)
      (nonempty : piece ≠ []) (noSlash : Web.slash ∉ piece) :
      SplitPass base path split
        ⟨split.segments ++ [⟨base + split.start, piece⟩], split.start + piece.length + 1⟩

variable {path : Text}

theorem splitStep_cases {base : Nat} {split next : Split}
    (taken : splitStep base path split = some next) : SplitPass base path split next := by
  unfold splitStep at taken
  split at taken
  case isFalse => cases taken
  case isTrue inside =>
    split at taken
    case h_1 none_ =>
      rw [findFrom_eq, Option.map_eq_none_iff, findElement_eq_none] at none_
      cases taken
      exact .last (List.drop_eq_nil_iff.not.mpr (Nat.not_le.mpr inside)) none_
    case h_2 position found =>
      rw [findFrom_eq] at found
      obtain ⟨length, here, rfl⟩ := Option.map_eq_some_iff.mp found
      obtain ⟨piece, rest, behind, noSlash, rfl⟩ := findElement_eq_some.mp here
      cases taken
      by_cases empty : piece = []
      · subst empty
        rw [List.length_nil, Nat.add_zero, if_neg (Nat.lt_irrefl _)]
        exact .slash behind
      · have long : split.start + piece.length > split.start :=
          Nat.lt_add_of_pos_right (List.length_pos_iff.mpr empty)
        rw [if_pos long, behind, Nat.add_sub_cancel_left, List.take_left]
        exact .piece behind empty noSlash

theorem length_le_of_splitStep_eq_none {base : Nat} {split : Split}
    (left : splitStep base path split = none) : path.length ≤ split.start := by
  by_contra inside
  rw [splitStep, if_pos (Nat.lt_of_not_le inside)] at left
  split at left <;> cases left

/-- The loop carves what is left of the path. -/
theorem splitLoop_carved (base : Nat) (path : Text) (split : Split) :
    ∃ segments, ((splitLoop base path).run split).segments = split.segments ++ segments ∧
      Carved (base + split.start) (path.drop split.start) segments := by
  refine (splitLoop base path).run_rule
    (R := fun split final => ∃ segments, final.segments = split.segments ++ segments ∧
      Carved (base + split.start) (path.drop split.start) segments) ?_ ?_ split trivial
  · intro split _ left
    refine ⟨[], (List.append_nil _).symm, ?_⟩
    rw [List.drop_eq_nil_of_le (length_le_of_splitStep_eq_none left)]
    exact .nil _
  · rintro split next final _ taken ⟨segments, whole, carved⟩
    cases splitStep_cases taken with
    | last nonempty noSlash =>
      dsimp only at whole carved
      rw [List.drop_length] at carved
      have nothing : segments = [] := List.map_eq_nil_iff.mp (carved.texts.trans pieces_nil)
      rw [nothing, List.append_nil] at whole
      exact ⟨_, whole, .last _ nonempty noSlash⟩
    | slash behind =>
      dsimp only at whole carved
      rw [← List.drop_drop, behind] at carved
      rw [behind]
      exact ⟨segments, whole, .slash carved⟩
    | piece behind nonempty noSlash =>
      dsimp only at whole carved
      rw [Nat.add_assoc, ← List.drop_drop, behind, ← List.drop_drop, List.drop_left,
        ← Nat.add_assoc, ← Nat.add_assoc] at carved
      rw [List.append_assoc] at whole
      rw [behind]
      exact ⟨_, whole, .piece nonempty noSlash carved⟩

/-- The segments of a path carve it. -/
theorem splitSegments_carved (base : Nat) (path : Text) :
    Carved base path (splitSegments base path) := by
  obtain ⟨segments, whole, carved⟩ := splitLoop_carved base path { start := splitStart path }
  have same : splitSegments base path = segments := whole
  rw [same]
  unfold splitStart at carved
  split at carved
  case isTrue starts =>
    obtain ⟨rest, rfl⟩ := List.head?_eq_some_iff.mp starts
    exact .slash carved
  case isFalse => exact carved

theorem splitPath_eq (path : Text) : splitPath path = pieces path :=
  (splitSegments_carved 0 path).texts

/-- A path that ends with a slash and is not the root. -/
def Trailing (path : Text) : Prop := path.length > 1 ∧ path.getLast? = some slash

instance (path : Text) : Decidable (Trailing path) := instDecidableAnd

/-- A path with a segment ends with a slash only if it is a trailing one. -/
theorem Carved.open_of_mem {address : Nat} {segments : List Segment}
    {segment : Segment} (carved : Carved address path segments) (member : segment ∈ segments)
    (open_ : ¬ Trailing path) : path ≠ [] ∧ path.getLast? ≠ some Web.slash := by
  have some_ : pieces path ≠ [] := by
    rw [← carved.texts]
    exact List.ne_nil_of_mem (List.mem_map_of_mem member)
  refine ⟨fun empty => some_ (empty ▸ pieces_nil), fun ending => ?_⟩
  obtain ⟨front, rfl⟩ := List.getLast?_eq_some_iff.mp ending
  have short : front = [] := by
    by_contra long
    refine open_ ⟨?_, ending⟩
    rw [List.length_append]
    exact Nat.lt_add_of_pos_left (List.length_pos_iff.mpr long)
  rw [short, pieces_concat_slash] at some_
  exact some_ pieces_nil

theorem splitPathView_of_trailing {base : Nat} (trailing : Trailing path) :
    splitPathView base path = splitSegments base path ++ [⟨0, []⟩] :=
  if_pos trailing

theorem splitPathView_of_open {base : Nat} (open_ : ¬ Trailing path) :
    splitPathView base path = splitSegments base path :=
  if_neg open_

/-- The texts of the segments that `Match` sees. -/
def pathTexts (path : Text) : List Text :=
  if Trailing path then pieces path ++ [[]] else pieces path

theorem splitPathView_texts (base : Nat) (path : Text) :
    (splitPathView base path).map Segment.text = pathTexts path := by
  have carved := splitSegments_carved base path
  by_cases trailing : Trailing path
  · rw [splitPathView_of_trailing trailing, pathTexts, if_pos trailing, List.map_append,
      carved.texts]
    rfl
  · rw [splitPathView_of_open trailing, pathTexts, if_neg trailing, carved.texts]

/-- What `Match` sees is what a route without a trailing slash is inserted as. -/
theorem pathTexts_eq_pieces_iff {path route : Text} :
    pathTexts path = pieces route ↔ ¬ Trailing path ∧ pieces path = pieces route := by
  unfold pathTexts
  split
  case isTrue trailing =>
    constructor
    · intro same
      exact absurd (same ▸ List.mem_append_right _ (List.mem_singleton.mpr rfl))
        (nil_not_mem_pieces route)
    · exact fun both => absurd trailing both.1
  case isFalse open_ => exact ⟨fun same => ⟨open_, same⟩, fun both => both.2⟩

end UringServer.Web
