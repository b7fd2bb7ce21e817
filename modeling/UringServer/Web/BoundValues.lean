import Mathlib.Algebra.GroupWithZero.Nat
import UringServer.Web.PathSegments
import UringServer.Web.RouteParams

/-!
# The values a route binds

The value of a parameter is the view of a segment, and the value of a wildcard
reaches from its first segment to the end of the last. For a path with a trailing
slash the last segment is an empty view at no address. Where a parameter takes it,
the value is empty, and where a wildcard ends with it, the length wraps around.
-/

namespace UringServer.Web

open UringServer.Semantics (ascii)

/-- The text that a view of a path at an address reads. -/
structure StringView.Reads (base : Nat) (path : Text) (view : StringView) (text : Text) : Prop where
  size : view.size = text.length
  inside : text ≠ [] → ∃ front back, path = front ++ text ++ back ∧ view.data = base + front.length

/-- A segment of a path reads its text. -/
theorem Segment.Lies.reads {base : Nat} {path : Text} {segment : Segment}
    (lies : segment.Lies base path) : segment.view.Reads base path segment.text :=
  ⟨rfl, fun _ => lies.inside⟩

/-- The path from a segment on. The empty segment behind a trailing slash has nothing behind it. -/
def Segment.suffix (base : Nat) (path : Text) (segment : Segment) : Text :=
  if segment.text = [] then [] else path.drop (segment.data - base)

theorem Segment.Lies.data {base : Nat} {path : Text} {segment : Segment}
    (lies : segment.Lies base path) :
    ∃ front, segment.data = base + front.length ∧ path = front ++ segment.suffix base path := by
  obtain ⟨front, back, whole, place⟩ := lies.inside
  refine ⟨front, place, ?_⟩
  rw [suffix, if_neg lies.nonempty, place, Nat.add_sub_cancel_left]
  rw [whole, List.append_assoc, List.drop_left]

theorem Segment.length_suffix_le (segment : Segment) (base : Nat) (path : Text) :
    (segment.suffix base path).length ≤ path.length := by
  unfold suffix
  split
  · exact Nat.zero_le _
  · exact (List.length_drop ..).trans_le (Nat.sub_le _ _)

section Wildcard

/-- The value of a wildcard and the segment it starts at. -/
theorem boundValues_wildcard {front : Pattern} {segments : List Segment}
    (matching : Matches (front ++ [.wildcard]) (segments.map Segment.text)) :
    ∃ before first rest values, segments = before ++ first :: rest ∧ before.length = front.length ∧
      boundValues (front ++ [.wildcard]) segments =
        values ++ [wildcardValue first (rest.getLastD first)] := by
  induction front generalizing segments with
  | nil =>
    cases segments with
    | nil => cases matching
    | cons first rest => exact ⟨[], first, rest, [], rfl, rfl, rfl⟩
  | cons head front ih =>
    cases segments with
    | nil => exact absurd (matches_nil_iff.mp matching) (List.cons_ne_nil _ _)
    | cons segment segments =>
      cases head with
      | static text =>
        obtain ⟨before, first, rest, values, rfl, long, bound⟩ :=
          ih matching.2
        refine ⟨segment :: before, first, rest, values, rfl, congrArg (· + 1) long, bound⟩
      | param =>
        obtain ⟨before, first, rest, values, rfl, long, bound⟩ := ih matching
        refine ⟨segment :: before, first, rest, segment.view :: values, rfl,
          congrArg (· + 1) long, congrArg (segment.view :: ·) bound⟩
      | wildcard => cases front <;> cases matching

variable {base : Nat} {path : Text} {first last : Segment}

/-- A wildcard that ends where the path does reads the path from its first segment on. -/
theorem wildcardValue_reads (fits : base + path.length < 2 ^ 64) (lies : first.Lies base path)
    (ends : last.data + last.text.length = base + path.length) :
    (wildcardValue first last).Reads base path (first.suffix base path) := by
  obtain ⟨front, place, whole⟩ := lies.data
  have long : path.length = front.length + (first.suffix base path).length := by
    rw [← List.length_append, ← whole]
  refine ⟨?_, fun _ => ⟨front, [], by rw [List.append_nil]; exact whole, place⟩⟩
  dsimp only [wildcardValue]
  rw [ends, place]
  omega

/-- A wildcard that ends with the empty segment behind a trailing slash is too long. -/
theorem wildcardValue_sentinel_not_reads (fits : base + path.length < 2 ^ 64)
    (lies : first.Lies base path) :
    ¬ (wildcardValue first ⟨0, []⟩).Reads base path (first.suffix base path) := by
  obtain ⟨front, place, whole⟩ := lies.data
  have long : path.length = front.length + (first.suffix base path).length := by
    rw [← List.length_append, ← whole]
  have some_ : 0 < path.length := by
    obtain ⟨before, behind, text, -⟩ := lies.inside
    have positive := List.length_pos_iff.mpr lies.nonempty
    rw [text, List.length_append, List.length_append]
    omega
  intro reads
  have size := reads.size
  dsimp only [wildcardValue] at size
  rw [place, List.length_nil] at size
  omega

/-- A wildcard that has nothing but the empty segment is empty. -/
theorem wildcardValue_sentinel_reads :
    (wildcardValue ⟨0, []⟩ ⟨0, []⟩).Reads base path (Segment.suffix base path ⟨0, []⟩) :=
  ⟨rfl, fun nonempty => absurd rfl nonempty⟩

end Wildcard

section Claims

variable {Handler : Type}

/-- The path from the segment on at which the wildcard behind `front` starts is what `Match`
captured. -/
def CapturesSuffix (base : Nat) (path : Text) (front : Pattern) (result : MatchResult Handler) :
    Prop :=
  ∃ first name value, (splitPathView base path)[front.length]? = some first ∧
    result.params.getLast? = some (name, value) ∧
    value.Reads base path (first.suffix base path) ∧ value.size ≤ path.length

/-- What a match captured is the value of the wildcard. -/
theorem capturesSuffix_iff {base : Nat} {path : Text} {front : Pattern}
    {result : MatchResult Handler} {before rest : List Segment} {first : Segment}
    {values : List StringView} {value : StringView}
    (whole : splitPathView base path = before ++ first :: rest)
    (long : before.length = front.length)
    (pushed : result.params.map Prod.snd = values ++ [value]) :
    CapturesSuffix base path front result ↔ value.Reads base path (first.suffix base path) := by
  have isFirst : (splitPathView base path)[front.length]? = some first := by
    rw [whole, ← long, List.getElem?_append_right (Nat.le_refl _), Nat.sub_self]
    rfl
  have captured := congrArg List.getLast? pushed
  rw [List.getLast?_map, List.getLast?_concat] at captured
  obtain ⟨⟨name, _⟩, isLast, rfl⟩ := Option.map_eq_some_iff.mp captured
  constructor
  · rintro ⟨other, otherName, otherValue, otherFirst, otherLast, reads, -⟩
    cases isFirst.symm.trans otherFirst
    cases isLast.symm.trans otherLast
    exact reads
  · intro reads
    exact ⟨first, name, _, isFirst, isLast, reads, reads.size ▸ first.length_suffix_le base path⟩

/-- A wildcard captures the rest of the path exactly if the path has no trailing slash, or the
wildcard has nothing but the empty segment behind it. -/
theorem wildcard_captures_suffix_iff (root : Node Handler) (method : HttpMethod) (base : Nat)
    (path : Text) (front : Pattern) (fits : base + path.length < 2 ^ 64)
    (selects : Selects (fun pattern => Node.lookup method pattern root)
      ((splitPathView base path).map Segment.text) (front ++ [.wildcard])) :
    CapturesSuffix base path front (matchPath root method base path) ↔
      path.getLast? ≠ some slash ∨ (splitPathView base path).length = front.length + 1 := by
  obtain ⟨before, first, rest, values, whole, long, bound⟩ := boundValues_wildcard selects.matching
  have pushed := (matchPath_params selects).2.values
  rw [bound] at pushed
  rw [capturesSuffix_iff whole long pushed]
  have count : (splitPathView base path).length = front.length + 1 ↔ rest = [] := by
    rw [whole, List.length_append, List.length_cons, long, ← List.length_eq_zero_iff]
    omega
  have carved := splitSegments_carved base path
  rw [count]
  by_cases trailing : Trailing path
  · rw [splitPathView_of_trailing trailing] at whole
    have notOpen : ¬ path.getLast? ≠ some slash := not_not.mpr trailing.2
    rw [or_iff_right notOpen]
    rcases List.eq_nil_or_concat rest with rfl | ⟨middle, last, rfl⟩
    · obtain ⟨-, sentinel⟩ := List.append_inj' whole rfl
      cases sentinel
      exact iff_of_true wildcardValue_sentinel_reads rfl
    · rw [List.concat_eq_append, ← List.cons_append, ← List.append_assoc] at whole
      obtain ⟨same, sentinel⟩ := List.append_inj' whole rfl
      cases sentinel
      have lies := carved.lies first (by rw [same]; simp)
      rw [List.concat_eq_append, List.getLastD_concat]
      exact iff_of_false (wildcardValue_sentinel_not_reads fits lies) (by simp)
  · rw [splitPathView_of_open trailing] at whole
    have member : first ∈ splitSegments base path := by rw [whole]; simp
    obtain ⟨nonempty, open_⟩ := carved.open_of_mem member trailing
    obtain ⟨last, isLast, ends⟩ := carved.last_ends nonempty open_
    rw [whole, List.getLast?_append, List.getLast?_cons, Option.some_or, Option.mem_some_iff,
      ← List.getLastD_eq_getLast?] at isLast
    rw [isLast]
    exact iff_of_true (wildcardValue_reads fits (carved.lies first member) ends) (.inl open_)

end Claims

/-- Files below `/static`. -/
def staticRoutes : Node Nat := insertAll [⟨.get, ascii "/static/*filepath", 7⟩]

theorem staticRoutes_selects (base : Nat) {path : Text}
    (texts : pathTexts path = [ascii "static", ascii "css"]) :
    Selects (fun pattern => Node.lookup .get pattern staticRoutes)
      ((splitPathView base path).map Segment.text)
      ([.static (ascii "static")] ++ [.wildcard]) := by
  rw [splitPathView_texts, texts]
  exact .static (.wildcard rfl rfl (by decide))

/-- The wildcard captures `css` in `/static/css`. -/
theorem static_css_captured :
    CapturesSuffix 0x1000 (ascii "/static/css") [.static (ascii "static")]
      (matchPath staticRoutes .get 0x1000 (ascii "/static/css")) :=
  (wildcard_captures_suffix_iff staticRoutes .get 0x1000 (ascii "/static/css")
    [.static (ascii "static")] (by decide) (staticRoutes_selects _ (by decide))).mpr
    (.inl (by decide))

/-- In `/static/css/` it captures a view of almost the whole address space. -/
theorem static_css_slash_not_captured :
    (matchPath staticRoutes .get 0x1000 (ascii "/static/css/")).handler = some 7 ∧
      (matchPath staticRoutes .get 0x1000 (ascii "/static/css/")).params =
        [(ascii "filepath", ⟨0x1008, 2 ^ 64 - 0x1008⟩)] ∧
      ¬ CapturesSuffix 0x1000 (ascii "/static/css/") [.static (ascii "static")]
        (matchPath staticRoutes .get 0x1000 (ascii "/static/css/")) := by
  have captured : (matchPath staticRoutes .get 0x1000 (ascii "/static/css/")).params =
      [(ascii "filepath", ⟨0x1008, 2 ^ 64 - 0x1008⟩)] := by decide +kernel
  refine ⟨by decide, captured, ?_⟩
  rintro ⟨first, name, value, -, isLast, -, short⟩
  rw [captured] at isLast
  cases isLast
  exact absurd short (by decide)

end UringServer.Web
