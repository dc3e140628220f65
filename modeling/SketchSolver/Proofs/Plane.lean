import Mathlib
import SketchSolver.Plane
import SketchSolver.Proofs.Exact

/-!
# Plane geometry with exact numbers

Exact numbers come with any functions at all in the place of those of plane geometry.  `PlaneLaws`
says what is relied on: there is one unit vector at each angle, half a turn reverses it, and no
vector but that of no length is zero.

The real numbers satisfy these laws, and so does the taxicab plane over the rational numbers, in
which everything can be computed.
-/

namespace SketchSolver

/-- What lengths and angles in the plane satisfy. -/
class PlaneLaws (α : Type) [Exact α] : Prop where
  hypot_eq_zero : ∀ {x y : α}, Exact.hypot x y = 0 ↔ x = 0 ∧ y = 0
  hypot_neg : ∀ x y : α, Exact.hypot (-x) (-y) = Exact.hypot x y
  hypot_ray : ∀ {t : α} (θ : α), 0 ≤ t → Exact.hypot (t * Exact.cos θ) (t * Exact.sin θ) = t
  cos_sub_pi : ∀ θ : α, Exact.cos (θ - Exact.pi) = -Exact.cos θ
  sin_sub_pi : ∀ θ : α, Exact.sin (θ - Exact.pi) = -Exact.sin θ

namespace Point

variable {α : Type} [Exact α] {p q : Point α} {θ t : α}

@[simp] lemma x_add (p q : Point α) : (p + q).x = p.x + q.x := rfl
@[simp] lemma y_add (p q : Point α) : (p + q).y = p.y + q.y := rfl
@[simp] lemma x_sub (p q : Point α) : (p - q).x = p.x - q.x := rfl
@[simp] lemma y_sub (p q : Point α) : (p - q).y = p.y - q.y := rfl
@[simp] lemma x_scaleBy (p : Point α) (t : α) : (p.scaleBy t).x = p.x * t := rfl
@[simp] lemma y_scaleBy (p : Point α) (t : α) : (p.scaleBy t).y = p.y * t := rfl
@[simp] lemma x_ofAngle (θ : α) : (ofAngle θ).x = Exact.cos θ := rfl
@[simp] lemma y_ofAngle (θ : α) : (ofAngle θ).y = Exact.sin θ := rfl

lemma distance_eq (p q : Point α) : p.distance q = Exact.hypot (p.x - q.x) (p.y - q.y) := rfl

/-- The vector from `p` to `q` points at the angle. -/
def Along (p q : Point α) (θ : α) : Prop :=
  q = p + (ofAngle θ).scaleBy (p.distance q)

lemma along_iff : p.Along q θ ↔
    q.x = p.x + p.distance q * Exact.cos θ ∧ q.y = p.y + p.distance q * Exact.sin θ := by
  rw [Along, Point.ext_iff, x_add, y_add, x_scaleBy, y_scaleBy, x_ofAngle, y_ofAngle, mul_comm,
    mul_comm (Exact.sin θ)]

variable [PlaneLaws α]

lemma distance_eq_zero : p.distance q = 0 ↔ p = q := by
  rw [distance_eq, PlaneLaws.hypot_eq_zero, sub_eq_zero, sub_eq_zero, Point.ext_iff]

lemma distance_comm (p q : Point α) : p.distance q = q.distance p := by
  rw [distance_eq, distance_eq, ← PlaneLaws.hypot_neg, neg_sub, neg_sub]

/-- What lies on the ray at an angle is as far away as it is along the ray. -/
lemma distance_of_ray (ht : 0 ≤ t) (hx : q.x = p.x + t * Exact.cos θ)
    (hy : q.y = p.y + t * Exact.sin θ) : p.distance q = t := by
  rw [distance_comm, distance_eq, hx, hy, add_sub_cancel_left, add_sub_cancel_left,
    PlaneLaws.hypot_ray θ ht]

lemma along_of_ray (ht : 0 ≤ t) (hx : q.x = p.x + t * Exact.cos θ)
    (hy : q.y = p.y + t * Exact.sin θ) : p.Along q θ := by
  rw [along_iff, distance_of_ray ht hx hy]
  exact ⟨hx, hy⟩

/-- Of a point that is on the ray as far as its abscissa goes, the ordinate decides, unless the ray
runs upright. -/
lemma along_iff_of_x (ht : 0 ≤ t) (hslope : Exact.cos θ ≠ 0) (hx : q.x = p.x + t * Exact.cos θ) :
    p.Along q θ ↔ q.y = p.y + t * Exact.sin θ := by
  refine ⟨fun halong => ?_, along_of_ray ht hx⟩
  obtain ⟨hx', hy'⟩ := along_iff.1 halong
  obtain rfl : t = p.distance q :=
    mul_right_cancel₀ hslope (add_left_cancel (hx.symm.trans hx'))
  exact hy'

/-- And the other way round, unless the ray runs level. -/
lemma along_iff_of_y (ht : 0 ≤ t) (hslope : Exact.sin θ ≠ 0) (hy : q.y = p.y + t * Exact.sin θ) :
    p.Along q θ ↔ q.x = p.x + t * Exact.cos θ := by
  refine ⟨fun halong => ?_, fun hx => along_of_ray ht hx hy⟩
  obtain ⟨hx', hy'⟩ := along_iff.1 halong
  obtain rfl : t = p.distance q :=
    mul_right_cancel₀ hslope (add_left_cancel (hy.symm.trans hy'))
  exact hx'

/-- Looking back, the angle differs by half a turn. -/
lemma along_reverse : p.Along q (θ - Exact.pi) ↔ q.Along p θ := by
  rw [along_iff, along_iff, PlaneLaws.cos_sub_pi, PlaneLaws.sin_sub_pi, distance_comm q p]
  refine and_congr ?_ ?_
  · constructor <;> intro h <;> linear_combination -h
  · constructor <;> intro h <;> linear_combination -h

/-- Full turns do not count. -/
lemma along_add_turns (n : ℤ) : p.Along q (θ + n * (2 * Exact.pi)) ↔ p.Along q θ := by
  have hturns : ∀ {f : α → α}, (∀ θ, f (θ - Exact.pi) = -f θ) →
      f (θ + n * (2 * Exact.pi)) = f θ := by
    intro f hhalf
    have hback : Function.Antiperiodic f (-Exact.pi) := fun θ => by rw [← sub_eq_add_neg, hhalf]
    have hforth : Function.Antiperiodic f Exact.pi := by simpa using hback.neg
    exact hforth.periodic_two_mul.int_mul n θ
  rw [along_iff, along_iff, hturns PlaneLaws.cos_sub_pi, hturns PlaneLaws.sin_sub_pi]

end Point

/-! ## The real plane -/

noncomputable instance : Exact ℝ where
  isFinite _ := true
  pi := Real.pi
  hypot x y := √(x ^ 2 + y ^ 2)
  sin := Real.sin
  cos := Real.cos
  atan2 y x := Complex.arg ⟨x, y⟩

instance : PlaneLaws ℝ where
  hypot_eq_zero {x y} := by
    show √(x ^ 2 + y ^ 2) = 0 ↔ _
    rw [Real.sqrt_eq_zero (by positivity)]
    constructor
    · intro h
      exact ⟨by nlinarith [sq_nonneg x, sq_nonneg y], by nlinarith [sq_nonneg x, sq_nonneg y]⟩
    · rintro ⟨rfl, rfl⟩
      norm_num
  hypot_neg x y := by
    show √((-x) ^ 2 + (-y) ^ 2) = √(x ^ 2 + y ^ 2)
    rw [neg_sq, neg_sq]
  hypot_ray {t} θ ht := by
    show √((t * Real.cos θ) ^ 2 + (t * Real.sin θ) ^ 2) = t
    rw [show (t * Real.cos θ) ^ 2 + (t * Real.sin θ) ^ 2 = t ^ 2 by
      rw [mul_pow, mul_pow, ← mul_add, Real.cos_sq_add_sin_sq, mul_one], Real.sqrt_sq ht]
  cos_sub_pi := Real.cos_sub_pi
  sin_sub_pi := Real.sin_sub_pi

/-! ## The taxicab plane -/

/-- Rational numbers, with the geometry in which a vector is as long as the sum of its legs. -/
def Taxicab : Type := ℚ

namespace Taxicab

instance : Field Taxicab := inferInstanceAs (Field ℚ)
instance : LinearOrder Taxicab := inferInstanceAs (LinearOrder ℚ)
instance : IsStrictOrderedRing Taxicab := inferInstanceAs (IsStrictOrderedRing ℚ)
instance : FloorRing Taxicab := inferInstanceAs (FloorRing ℚ)

/-- The abscissa of the point at an angle on the unit circle, which is a square.  A full turn is
four, one for each side. -/
def wave (θ : Taxicab) : Taxicab :=
  |θ - 4 * ⌊θ / 4⌋ - 2| - 1

instance : Exact Taxicab where
  isFinite _ := true
  pi := 2
  hypot x y := |x| + |y|
  sin θ := wave (θ - 1)
  cos := wave
  atan2 y x :=
    let c := x / (|x| + |y|)
    if 0 ≤ y then 1 - c else c - 1

/-- Full turns do not count. -/
lemma wave_add_turns (n : ℤ) {r : Taxicab} (h : 0 ≤ r) (h' : r < 4) :
    wave (4 * n + r) = |r - 2| - 1 := by
  have hfloor : ⌊(4 * n + r) / 4⌋ = n := by
    rw [Int.floor_eq_iff]
    constructor <;> linarith
  rw [wave, hfloor, add_sub_cancel_left]

/-- An angle is some full turns and less than another one. -/
lemma exists_turns (θ : Taxicab) : ∃ (n : ℤ) (r : Taxicab), 0 ≤ r ∧ r < 4 ∧ θ = 4 * n + r := by
  refine ⟨⌊θ / 4⌋, θ - 4 * ⌊θ / 4⌋, ?_, ?_, by ring⟩
  · have := Int.floor_le (θ / 4)
    linarith
  · have := Int.lt_floor_add_one (θ / 4)
    linarith

lemma wave_sub_two (θ : Taxicab) : wave (θ - 2) = -wave θ := by
  obtain ⟨n, r, h, h', rfl⟩ := exists_turns θ
  rw [wave_add_turns n h h']
  by_cases hr : 2 ≤ r
  · rw [show (4 * n + r - 2 : Taxicab) = 4 * n + (r - 2) by ring,
      wave_add_turns n (by linarith) (by linarith), abs_of_nonneg (by linarith : 0 ≤ r - 2)]
    rw [abs_of_nonpos (by linarith)]
    ring
  · push Not at hr
    rw [show (4 * n + r - 2 : Taxicab) = 4 * (n - 1 : ℤ) + (r + 2) by push_cast; ring,
      wave_add_turns _ (by linarith) (by linarith), abs_of_neg (by linarith : r - 2 < 0)]
    rw [abs_of_nonneg (by linarith)]
    ring

lemma abs_wave_add (θ : Taxicab) : |wave θ| + |wave (θ - 1)| = 1 := by
  obtain ⟨n, r, h, h', rfl⟩ := exists_turns θ
  rw [wave_add_turns n h h']
  by_cases hr : 1 ≤ r
  · rw [show (4 * n + r - 1 : Taxicab) = 4 * n + (r - 1) by ring,
      wave_add_turns n (by linarith) (by linarith)]
    rcases abs_cases (r - 2) with ⟨h₁, _⟩ | ⟨h₁, _⟩ <;>
      rcases abs_cases (r - 1 - 2) with ⟨h₂, _⟩ | ⟨h₂, _⟩ <;> rw [h₁, h₂] <;> grind
  · push Not at hr
    rw [show (4 * n + r - 1 : Taxicab) = 4 * (n - 1 : ℤ) + (r + 3) by push_cast; ring,
      wave_add_turns _ (by linarith) (by linarith), abs_of_neg (by linarith : r - 2 < 0),
      abs_of_nonneg (by linarith : 0 ≤ r + 3 - 2)]
    grind

instance : PlaneLaws Taxicab where
  hypot_eq_zero {x y} := by
    show |x| + |y| = 0 ↔ _
    rw [add_eq_zero_iff_of_nonneg (abs_nonneg x) (abs_nonneg y), abs_eq_zero, abs_eq_zero]
  hypot_neg x y := by
    show |-x| + |-y| = |x| + |y|
    rw [abs_neg, abs_neg]
  hypot_ray {t} θ ht := by
    show |t * wave θ| + |t * wave (θ - 1)| = t
    rw [abs_mul, abs_mul, abs_of_nonneg ht, ← mul_add, abs_wave_add, mul_one]
  cos_sub_pi := wave_sub_two
  sin_sub_pi θ := by
    show wave (θ - 2 - 1) = -wave (θ - 1)
    rw [← wave_sub_two, sub_right_comm]

end Taxicab

end SketchSolver
