import XYAnnotation.Annotations.Draw
import XYAnnotation.Annotations.EdgeHits

namespace XYAnnotation

open QPointF

def Path.segments : Path → List (QPointF × QPointF)
  | .rect p1 p2 => edges [p1, ⟨p2.x, p1.y⟩, p2, ⟨p1.x, p2.y⟩]
  | .segment p1 p2 => [(p1, p2)]
  | .polygon points closedSubpath => if closedSubpath then edges points else points.zip points.tail
  | .curve points => points.zip points.tail

def WithinSense (p a b : QPointF) : Prop :=
  ∃ u : ℚ, 0 ≤ u ∧ u ≤ 1 ∧ (p - between a b u).manhattanLength ≤ senseDis

theorem NearEdge.withinSense {p a b : QPointF} (near : NearEdge p a b) : WithinSense p a b := by
  obtain ⟨_, _, u, low, high, _, reaches⟩ := near
  exact ⟨u, low.le, high.le, reaches⟩

namespace Shape

variable {shape : Shape} {p : QPointF}

/-- A hit with the answer `pos` is one on the segment between two neighbours that `draw` paints. -/
def HitsDrawn (shape : Shape) (p : QPointF) (pos : ℕ) : Prop :=
  1 ≤ pos ∧ pos ≤ shape.pointCount - 1 ∧
    ∃ a b picture, shape.points.oriPoints[pos - 1]? = some a ∧ shape.points.oriPoints[pos]? = some b ∧
      shape.draw false = .ok (some picture) ∧ picture.path.segments[pos - 1]? = some (a, b) ∧ WithinSense p a b

theorem polyline_draw (polyline : shape.type = .polyline) :
    ∃ picture, shape.draw false = .ok (some picture) ∧
      picture.path.segments = shape.points.oriPoints.zip shape.points.oriPoints.tail := by
  obtain ⟨markers, marked⟩ := shape.markers_completes (shape.shownPoints false)
  refine ⟨⟨.polygon (shape.shownPoints false) false, shape.pen, markers, false⟩, ?_, rfl⟩
  simp only [draw, polyline, marked]
  rfl

theorem hitsDrawn_succ_iff (polyline : shape.type = .polyline) {k : ℕ} (hit : shape.HitAt p k) :
    shape.HitsDrawn p (k + 1) ↔ k < shape.pointCount - 1 := by
  constructor
  · rintro ⟨_, inside, _⟩
    omega
  · intro inside
    obtain ⟨a, b, ⟨first, second⟩, _, near⟩ := hit
    rw [Nat.mod_eq_of_lt (by omega)] at second
    obtain ⟨picture, drawn, segments⟩ := polyline_draw polyline
    refine ⟨by omega, by omega, a, b, picture, first, second, drawn, ?_, near.withinSense⟩
    rw [segments, Nat.add_sub_cancel, List.getElem?_zip_eq_some, List.getElem?_tail]
    exact ⟨first, second⟩

/-- The hits of a polyline are hits of what is drawn exactly when the line from the last point back to the first is
    not hit, or a drawn segment is hit as well. -/
theorem polyline_hits_drawn_iff (shape : Shape) (polyline : shape.type = .polyline) (three : 3 ≤ shape.pointCount)
    (p : QPointF) :
    (∀ pos, shape.isEdgeHavPt p = some pos → shape.HitsDrawn p pos) ↔
      (shape.HitAt p (shape.pointCount - 1) → ∃ k < shape.pointCount - 1, shape.HitAt p k) := by
  have tests : shape.testsEdges = true := by
    unfold testsEdges
    rw [polyline]
  have answers : ∀ {pos}, shape.isEdgeHavPt p = some pos → ∃ k, IsLeast {k | shape.HitAt p k} k ∧ pos = k + 1 :=
    fun found => (isEdgeHavPt_some_iff tests (by omega)).mp found
  constructor
  · intro drawn closing
    cases found : shape.isEdgeHavPt p with
    | none => exact absurd closing ((isEdgeHavPt_none_iff tests (by omega)).mp found _)
    | some pos =>
      obtain ⟨k, least, rfl⟩ := answers found
      exact ⟨k, (hitsDrawn_succ_iff polyline least.1).mp (drawn _ found), least.1⟩
  · intro earlier pos found
    obtain ⟨k, least, rfl⟩ := answers found
    apply (hitsDrawn_succ_iff polyline least.1).mpr
    have inside := HitAt.inside least.1
    by_contra beyond
    obtain rfl : k = shape.pointCount - 1 := by omega
    obtain ⟨j, before, hit⟩ := earlier least.1
    exact absurd (least.2 hit) (not_le.mpr before)

def corner : Shape := { ofPoints .polyline [⟨0, 0⟩, ⟨100, 0⟩, ⟨100, 100⟩] with isClosed := true }

theorem corner_drawn_hit :
    corner.type = .polyline ∧ 3 ≤ corner.pointCount ∧ corner.isEdgeHavPt ⟨50, 5⟩ = some 1 ∧
      corner.HitsDrawn ⟨50, 5⟩ 1 := by
  have found : corner.isEdgeHavPt ⟨50, 5⟩ = some 1 := by decide +kernel
  refine ⟨rfl, by decide, found, ?_⟩
  apply (polyline_hits_drawn_iff corner rfl (by decide) ⟨50, 5⟩).mpr _ 1 found
  intro closing
  obtain ⟨inside, hit⟩ := hitAt_iff.mp closing
  have missed : edgeHasPt ⟨50, 5⟩ (⟨100, 100⟩, ⟨0, 0⟩) = false := by decide +kernel
  exact absurd (missed.symm.trans hit) (by decide)

theorem corner_gap_hit :
    corner.type = .polyline ∧ corner.isClosed = true ∧ corner.pointCount = 3 ∧
      corner.isEdgeHavPt ⟨50, 53⟩ = some 3 ∧ ¬ corner.HitsDrawn ⟨50, 53⟩ 3 := by
  refine ⟨rfl, rfl, rfl, by decide +kernel, ?_⟩
  rintro ⟨_, inside, _⟩
  exact absurd inside (by decide)

end Shape

end XYAnnotation
