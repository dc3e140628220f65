import Mathlib
import SketchSolver.Proofs.Residual

/-!
# How far a coordinate has to slide

In the real plane the residual of an angle is not negative, and it vanishes exactly if the vector
points at the angle (`angleResidual_eq_zero`).  Where all coordinates but one are known and the ray
meets the axis along which that one may slide, the residual is more than a number to be made small:
it says how far to slide, in one of both directions, for the angle to hold (`Slot.along_shift`).
-/

namespace SketchSolver

/-- One of the coordinates of two points. -/
inductive Slot where
  /-- The horizontal coordinate of the first point. -/
  | startX
  /-- The vertical coordinate of the first point. -/
  | startY
  /-- The horizontal coordinate of the second point. -/
  | endX
  /-- The vertical coordinate of the second point. -/
  | endY
deriving DecidableEq, Repr

namespace Slot

/-- All coordinates are known but this one. -/
def only : Slot → KnownCoords
  | .startX => ⟨false, true, true, true⟩
  | .startY => ⟨true, false, true, true⟩
  | .endX => ⟨true, true, false, true⟩
  | .endY => ⟨true, true, true, false⟩

variable {α : Type} [Exact α]

/-- Both points, with this coordinate moved. -/
def shift (d : α) (p q : Point α) : Slot → Point α × Point α
  | .startX => (⟨p.x + d, p.y⟩, q)
  | .startY => (⟨p.x, p.y + d⟩, q)
  | .endX => (p, ⟨q.x + d, q.y⟩)
  | .endY => (p, ⟨q.x, q.y + d⟩)

/-- How far along the ray the other coordinate is reached, if the ray leads there. -/
def meets (p q : Point α) (θ : α) : Slot → Option α
  | .startX | .endX => AngleResidual.reach (q.y - p.y) (Exact.sin θ)
  | .startY | .endY => AngleResidual.reach (q.x - p.x) (Exact.cos θ)

/-- How far this coordinate is from where it should be, so far along the ray. -/
def slip (p q : Point α) (θ t : α) : Slot → α
  | .startX => p.x - (q.x - t * Exact.cos θ)
  | .startY => p.y - (q.y - t * Exact.sin θ)
  | .endX => q.x - (p.x + t * Exact.cos θ)
  | .endY => q.y - (p.y + t * Exact.sin θ)

variable {p q : Point α} {θ t : α} {u : Slot}

/-- Where the ray leads to the other coordinate, the residual is what this one slips. -/
lemma angleResidual_of_meets (h : u.meets p q θ = some t) :
    AngleResidual.angleResidual p q θ u.only = |u.slip p q θ t| := by
  cases u with
  | startX | endX =>
      have h : AngleResidual.reach (q.y - p.y) (Scalar.sin θ) = some t := h
      simp only [AngleResidual.angleResidual, only, h]
      rfl
  | startY | endY =>
      have h : AngleResidual.reach (q.x - p.x) (Scalar.cos θ) = some t := h
      simp only [AngleResidual.angleResidual, only, h]
      rfl

/-- Once this coordinate has slid back, the vector points at the angle. -/
lemma along_shift [PlaneLaws α] (h : u.meets p q θ = some t) :
    (u.shift (-u.slip p q θ t) p q).1.Along (u.shift (-u.slip p q θ t) p q).2 θ := by
  cases u with
  | startX | endX =>
      obtain ⟨-, ht, hgap⟩ := AngleResidual.reach_eq_some h
      refine Point.along_of_ray ht ?_ (sub_eq_iff_eq_add'.1 hgap)
      simp only [shift, slip]
      ring
  | startY | endY =>
      obtain ⟨-, ht, hgap⟩ := AngleResidual.reach_eq_some h
      refine Point.along_of_ray ht (sub_eq_iff_eq_add'.1 hgap) ?_
      simp only [shift, slip]
      ring

end Slot

/-! ## In the real plane -/

namespace AngleResidual

variable {α : Type} [Exact α] {p q : Point ℝ} {θ : ℝ}

lemma distance_nonneg (p q : Point ℝ) : 0 ≤ p.distance q :=
  Real.sqrt_nonneg _

lemma slide_nonneg {gap slope turn : α} {slip : α → α} (hturn : 0 ≤ turn) :
    0 ≤ match reach gap slope with
      | some t => Scalar.abs (slip t)
      | none => turn := by
  cases reach gap slope with
  | none => exact hturn
  | some t => exact abs_nonneg (slip t)

lemma angleResidual_nonneg (p q : Point ℝ) (θ : ℝ) (known : KnownCoords) :
    0 ≤ angleResidual p q θ known := by
  have hturnEnd : 0 ≤ turnEnd p q θ := distance_nonneg _ _
  have hturnStart : 0 ≤ turnStart p q θ := distance_nonneg _ _
  unfold angleResidual
  split
  · exact hturnEnd
  · exact hturnStart
  · exact slide_nonneg hturnEnd
  · exact slide_nonneg hturnEnd
  · exact slide_nonneg hturnStart
  · exact slide_nonneg hturnStart
  · rw [Scalar.least]
    split_ifs
    · exact hturnEnd
    · exact hturnStart

/-- To point at an angle is to be as long as it is, in the direction of the angle. -/
lemma along_iff_sub : p.Along q θ ↔
    q - p = (⟨Real.cos θ, Real.sin θ⟩ : Point ℝ).scaleBy √((q.x - p.x) ^ 2 + (q.y - p.y) ^ 2) := by
  have hdistance : p.distance q = √((q.x - p.x) ^ 2 + (q.y - p.y) ^ 2) := by
    rw [Point.distance_comm]
    rfl
  rw [Point.along_iff, hdistance, Point.ext_iff]
  refine and_congr ?_ ?_
  · exact (sub_eq_iff_eq_add'.trans (by rw [Point.x_scaleBy, mul_comm]; rfl)).symm
  · exact (sub_eq_iff_eq_add'.trans (by rw [Point.y_scaleBy, mul_comm]; rfl)).symm

/-- **The residual of an angle** is not negative, and zero exactly if the vector between the points
is as long as it is in the direction of the angle, whichever coordinates are known.  Where one is
not, and the ray leads to the other coordinate of its point, the vector points at the angle once the
unknown one has slid by the residual, forth or back. -/
theorem angleResidual_spec (p q : Point ℝ) (θ : ℝ) :
    (∀ known, 0 ≤ angleResidual p q θ known ∧
      (angleResidual p q θ known = 0 ↔ q - p =
        (⟨Real.cos θ, Real.sin θ⟩ : Point ℝ).scaleBy √((q.x - p.x) ^ 2 + (q.y - p.y) ^ 2))) ∧
    ∀ u : Slot, u.meets p q θ ≠ none →
      ∃ d, (d = angleResidual p q θ u.only ∨ d = -angleResidual p q θ u.only) ∧
        (u.shift d p q).1.Along (u.shift d p q).2 θ := by
  refine ⟨fun known => ⟨angleResidual_nonneg p q θ known,
    (angleResidual_eq_zero known).trans along_iff_sub⟩, fun u hmeets => ?_⟩
  obtain ⟨t, ht⟩ := Option.ne_none_iff_exists'.1 hmeets
  refine ⟨-u.slip p q θ t, ?_, Slot.along_shift ht⟩
  rw [Slot.angleResidual_of_meets ht]
  rcases abs_choice (u.slip p q θ t) with h | h
  · exact Or.inr (by rw [h])
  · exact Or.inl h.symm

end AngleResidual

end SketchSolver
