import Mathlib
import SketchSolver.Constraint.Residual
import SketchSolver.Proofs.Arena.Bound
import SketchSolver.Proofs.Plane

/-!
# When a residual vanishes

With exact numbers and the laws of plane geometry, the residual of a distance vanishes exactly if
its variable is the distance, and that of an angle if the vector points at the angle, whichever
coordinates are known.

* `AngleResidual.angleResidual_eq_zero` — turning and sliding vanish together.
* `Residual.error_distance_iff`, `Residual.error_angle_iff` — what it means that a residual
  vanishes.
* `Residual.Repeats` — one residual says what another one says: their points coincide, and what they
  own is unified accordingly.
* `Residual.repeats_of_clash` — that is so of what is dropped, if it is dropped for the same points
  and unified.
* `Residual.Repeats.vanishes` — then it vanishes with the other one.
-/

namespace SketchSolver

variable {α : Type} [Exact α]

/-! ## Angles -/

namespace AngleResidual

open Point (distance_eq_zero along_iff_of_x along_iff_of_y)

variable {p q : Point α} {θ : α}

/-- A ray that reaches a coordinate does not run across, and leads there. -/
lemma reach_eq_some {gap slope t : α} (h : reach gap slope = some t) :
    slope ≠ 0 ∧ 0 ≤ t ∧ gap = t * slope := by
  rw [reach] at h
  split_ifs at h with hacross hbehind
  cases h
  have hslope : slope ≠ 0 := by
    rintro rfl
    have hzero : |(0 : α)| < Scalar.tolerance := by
      rw [abs_zero]
      exact Exact.tolerance_pos
    exact hacross hzero
  exact ⟨hslope, le_of_not_gt hbehind, (div_mul_cancel₀ gap hslope).symm⟩

/-- Sliding takes a distance along the ray.  Where there is none, turning takes its place. -/
lemma slide_eq_zero {gap slope turn : α} {slip : α → α} {P : Prop} (hturn : turn = 0 ↔ P)
    (hslide : slope ≠ 0 → ∀ t, 0 ≤ t → gap = t * slope → (slip t = 0 ↔ P)) :
    (match reach gap slope with
      | some t => Scalar.abs (slip t)
      | none => turn) = 0 ↔ P := by
  cases hreach : reach gap slope with
  | none => exact hturn
  | some t =>
      obtain ⟨hslope, ht, hgap⟩ := reach_eq_some hreach
      rw [← hslide hslope t ht hgap]
      exact abs_eq_zero

variable [PlaneLaws α]

lemma turnEnd_eq_zero : turnEnd p q θ = 0 ↔ p.Along q θ := distance_eq_zero

lemma turnStart_eq_zero : turnStart p q θ = 0 ↔ p.Along q θ := by
  rw [turnStart, distance_eq_zero, Point.Along, Point.ext_iff, Point.ext_iff]
  simp only [Point.x_sub, Point.y_sub, Point.x_add, Point.y_add]
  refine and_congr ?_ ?_
  · constructor <;> intro h <;> linear_combination -h
  · constructor <;> intro h <;> linear_combination -h

/-- **The residual of an angle vanishes** exactly if the vector points at the angle, whichever
coordinates are known. -/
theorem angleResidual_eq_zero (known : KnownCoords) :
    angleResidual p q θ known = 0 ↔ p.Along q θ := by
  have hback : ∀ {u v w : α}, u - (v - w) = 0 ↔ v = u + w := fun {u v w} =>
    sub_eq_zero.trans (eq_sub_iff_add_eq.trans eq_comm)
  unfold angleResidual
  split
  · exact turnEnd_eq_zero
  · exact turnStart_eq_zero
  · exact slide_eq_zero turnEnd_eq_zero fun hslope t ht hgap =>
      sub_eq_zero.trans (along_iff_of_x ht hslope (sub_eq_iff_eq_add'.1 hgap)).symm
  · exact slide_eq_zero turnEnd_eq_zero fun hslope t ht hgap =>
      sub_eq_zero.trans (along_iff_of_y ht hslope (sub_eq_iff_eq_add'.1 hgap)).symm
  · exact slide_eq_zero turnStart_eq_zero fun hslope t ht hgap =>
      hback.trans (along_iff_of_x ht hslope (sub_eq_iff_eq_add'.1 hgap)).symm
  · exact slide_eq_zero turnStart_eq_zero fun hslope t ht hgap =>
      hback.trans (along_iff_of_y ht hslope (sub_eq_iff_eq_add'.1 hgap)).symm
  · rw [Scalar.least]
    split_ifs
    · exact turnEnd_eq_zero
    · exact turnStart_eq_zero

end AngleResidual

/-! ## Residuals that say the same -/

variable {a b : Arena α} {p q p' q' : Coords} {u v : VarId}

omit [Exact α] in
lemma Coords.read_eq_ok_iff {z : Point α} :
    p.read a = .ok z ↔ a.value? p.x = some z.x ∧ a.value? p.y = some z.y := by
  rw [← Arena.value_eq_ok_iff, ← Arena.value_eq_ok_iff, Coords.read]
  constructor
  · intro h
    obtain ⟨x, hx, h⟩ := bind_eq_ok_iff.1 h
    obtain ⟨y, hy, hpure⟩ := bind_eq_ok_iff.1 h
    cases hpure
    exact ⟨hx, hy⟩
  · rintro ⟨hx, hy⟩
    rw [hx, hy]
    rfl

/-- Two points coincide: their coordinates are unified with each other as they are. -/
structure Coords.Coincide (a : Arena α) (p q : Coords) : Prop where
  x : a.Bound ⟨p.x, q.x, .identity⟩
  y : a.Bound ⟨p.y, q.y, .identity⟩

lemma Coords.Coincide.of_shape (h : p.Coincide a q) (hshape : b.shape = a.shape) :
    p.Coincide b q :=
  ⟨h.x.of_shape hshape, h.y.of_shape hshape⟩

section

variable (ha : a.WellFormed) (hinv : a.Invertible)

include ha hinv

lemma Coords.Coincide.refl (p : Coords) : p.Coincide a p :=
  ⟨⟨rfl, ha.between_self hinv p.x⟩, ⟨rfl, ha.between_self hinv p.y⟩⟩

lemma Arena.Bound.value_identity (h : a.Bound ⟨u, v, .identity⟩) : a.value? u = a.value? v := by
  have hidentity : (Affine.identity : Affine α).apply = id := funext Affine.apply_identity
  rw [h.value ha hinv, hidentity, Option.map_id, id]

/-- Points that coincide have the same position. -/
lemma Coords.Coincide.read (h : p.Coincide a q) {z : Point α} :
    p.read a = .ok z ↔ q.read a = .ok z := by
  rw [Coords.read_eq_ok_iff, Coords.read_eq_ok_iff, h.x.value_identity ha hinv,
    h.y.value_identity ha hinv]

end

namespace Residual

/-- The first residual says what the second one says: they relate the same points, in the same
direction or in opposite ones, and what they own is unified so that the first one adds nothing.  An
angle may be unified with some full turns more or less. -/
inductive Repeats (a : Arena α) : Residual α → Residual α → Prop where
  | distance {p q p' q' : Coords} {u v : VarId} : p'.Coincide a p → q'.Coincide a q →
      a.Bound ⟨v, u, .identity⟩ → Repeats a (.distance p q u) (.distance p' q' v)
  | distanceBack {p q p' q' : Coords} {u v : VarId} : p'.Coincide a q → q'.Coincide a p →
      a.Bound ⟨v, u, .identity⟩ → Repeats a (.distance p q u) (.distance p' q' v)
  | angle {p q p' q' : Coords} {u v : VarId} (n : ℤ) : p'.Coincide a p → q'.Coincide a q →
      a.Bound ⟨v, u, ⟨1, n * (2 * Exact.pi)⟩⟩ → Repeats a (.angle p q u) (.angle p' q' v)
  | angleBack {p q p' q' : Coords} {u v : VarId} (n : ℤ) : p'.Coincide a q → q'.Coincide a p →
      a.Bound ⟨v, u, ⟨1, n * (2 * Exact.pi) - Exact.pi⟩⟩ → Repeats a (.angle p q u) (.angle p' q' v)

lemma Repeats.of_shape {x y : Residual α} (h : Repeats a y x) (hshape : b.shape = a.shape) :
    Repeats b y x := by
  cases h with
  | distance hp hq hu =>
      exact .distance (hp.of_shape hshape) (hq.of_shape hshape) (hu.of_shape hshape)
  | distanceBack hp hq hu =>
      exact .distanceBack (hp.of_shape hshape) (hq.of_shape hshape) (hu.of_shape hshape)
  | angle n hp hq hu =>
      exact .angle n (hp.of_shape hshape) (hq.of_shape hshape) (hu.of_shape hshape)
  | angleBack n hp hq hu =>
      exact .angleBack n (hp.of_shape hshape) (hq.of_shape hshape) (hu.of_shape hshape)

/-- The points between which a residual measures. -/
def points : Residual α → List Coords
  | .distance p q _ | .angle p q _ => [p, q]
  | .finger .. | .formula .. => []

/-- What makes no difference to a measured variable: a full turn of an angle. -/
def period : Residual α → α
  | .angle .. => Exact.pi + Exact.pi
  | .finger .. | .distance .. | .formula .. => 0

/-- A residual that would be dropped says the same, if what counts as the same point coincides and
what would be unified is, up to full turns of an angle. -/
lemma repeats_of_clash {x y : Residual α} {e : Tie α}
    (hclash : x.clash a y = some (e.this, e.that, e.offset))
    (hexact : ∀ p ∈ x.points, ∀ q ∈ y.points, q.sameAs p a = true → q.Coincide b p) (n : ℤ)
    (hbound : b.Bound ⟨e.this, e.that, ⟨e.offset.scale, e.offset.shift + n * x.period⟩⟩) :
    Repeats b x y := by
  obtain ⟨this, that, offset⟩ := e
  cases x <;> cases y <;> simp only [clash] at hclash
  case distance.distance =>
      rw [Option.ite_none_right_eq_some] at hclash
      obtain ⟨hsame, howned⟩ := hclash
      cases howned
      simp only [points, List.forall_mem_cons, List.not_mem_nil, false_imp_iff, implies_true,
        and_true] at hexact
      have hidentity : (⟨1, 0 + n * 0⟩ : Affine α) = .identity := by simp [Affine.identity]
      simp only [Bool.or_eq_true, Bool.and_eq_true] at hsame
      rcases hsame with ⟨hp, hq⟩ | ⟨hp, hq⟩
      · exact .distance (hexact.1.1 hp) (hexact.2.2 hq) (hidentity ▸ hbound)
      · exact .distanceBack (hexact.2.1 hp) (hexact.1.2 hq) (hidentity ▸ hbound)
  case angle.angle =>
      simp only [points, List.forall_mem_cons, List.not_mem_nil, false_imp_iff, implies_true,
        and_true] at hexact
      split_ifs at hclash with hsame hreverse <;> cases hclash
      · rw [Bool.and_eq_true] at hsame
        have hturns : (⟨1, 0 + n * (Exact.pi + Exact.pi)⟩ : Affine α) =
            ⟨1, n * (2 * Exact.pi)⟩ := by
          rw [zero_add, two_mul]
        exact .angle n (hexact.1.1 hsame.1) (hexact.2.2 hsame.2) (hturns ▸ hbound)
      · rw [Bool.and_eq_true] at hreverse
        have hturns : (⟨1, -Exact.pi + n * (Exact.pi + Exact.pi)⟩ : Affine α) =
            ⟨1, n * (2 * Exact.pi) - Exact.pi⟩ := by
          rw [neg_add_eq_sub, two_mul]
        exact .angleBack n (hexact.2.1 hreverse.1) (hexact.1.2 hreverse.2) (hturns ▸ hbound)
  all_goals cases hclash

/-- At the present values the residual is zero and writes nothing, where no variable is free and
whatever is known. -/
def Vanishes (a : Arena α) (god : Bool) (x : Residual α) : Prop :=
  ∀ knowns, x.error knowns .empty god a = .ok (0, a)

variable {knowns : Knowns} {god : Bool}

lemma not_free (c : VarId) : (OrderedSet.empty : OrderedSet VarId).contains c = false := rfl

/-- The residual of a distance vanishes exactly if its variable is the distance. -/
lemma error_distance_iff : (distance p q u).error knowns .empty god a = .ok (0, a) ↔
    ∃ y z, p.read a = .ok y ∧ q.read a = .ok z ∧ a.value? u = some (y.distance z) := by
  simp only [error, not_free]
  constructor
  · intro h
    obtain ⟨y, hy, h⟩ := bind_eq_ok_iff.1 h
    obtain ⟨z, hz, h⟩ := bind_eq_ok_iff.1 h
    obtain ⟨x, hx, hpure⟩ := bind_eq_ok_iff.1 h
    have hzero : y.distance z - x = 0 := congrArg Prod.fst (Except.ok.inj hpure)
    refine ⟨y, z, hy, hz, ?_⟩
    rw [← Arena.value_eq_ok_iff, hx, sub_eq_zero.1 hzero]
  · rintro ⟨y, z, hy, hz, hu⟩
    rw [← Arena.value_eq_ok_iff] at hu
    rw [hy, hz, ok_bind, ok_bind, hu]
    show Except.ok (y.distance z - y.distance z, a) = _
    rw [sub_self]

variable [PlaneLaws α]

/-- The residual of an angle vanishes exactly if the vector points at the angle. -/
lemma error_angle_iff : (angle p q u).error knowns .empty god a = .ok (0, a) ↔
    ∃ y z θ, p.read a = .ok y ∧ q.read a = .ok z ∧ a.value? u = some θ ∧ y.Along z θ := by
  simp only [error, not_free]
  constructor
  · intro h
    obtain ⟨y, hy, h⟩ := bind_eq_ok_iff.1 h
    obtain ⟨z, hz, h⟩ := bind_eq_ok_iff.1 h
    obtain ⟨θ, hθ, hpure⟩ := bind_eq_ok_iff.1 h
    have hzero := congrArg Prod.fst (Except.ok.inj hpure)
    exact ⟨y, z, θ, hy, hz, (Arena.value_eq_ok_iff _ _ _).1 hθ,
      (AngleResidual.angleResidual_eq_zero _).1 hzero⟩
  · rintro ⟨y, z, θ, hy, hz, hθ, halong⟩
    rw [← Arena.value_eq_ok_iff] at hθ
    rw [hy, hz, ok_bind, ok_bind, hθ, ok_bind]
    refine congrArg (fun x => Except.ok (x, a)) ?_
    exact (AngleResidual.angleResidual_eq_zero _).2 halong

/-- What is known makes no difference to whether a residual vanishes. -/
lemma vanishes_of_error {x : Residual α} (h : x.error knowns .empty god a = .ok (0, a)) :
    Vanishes a god x := by
  cases x with
  | distance => exact fun _ => error_distance_iff.2 (error_distance_iff.1 h)
  | angle => exact fun _ => error_angle_iff.2 (error_angle_iff.1 h)
  | finger | formula => exact fun _ => h

/-- **What says the same vanishes together.** -/
theorem Repeats.vanishes {x y : Residual α} (h : Repeats a y x) (ha : a.WellFormed)
    (hinv : a.Invertible) (hx : Vanishes a god x) : Vanishes a god y := by
  intro knowns
  cases h with
  | distance hp hq howned =>
      obtain ⟨y, z, hy, hz, hv⟩ := error_distance_iff.1 (hx knowns)
      rw [howned.value_identity ha hinv] at hv
      exact error_distance_iff.2 ⟨y, z, (hp.read ha hinv).1 hy, (hq.read ha hinv).1 hz, hv⟩
  | distanceBack hp hq howned =>
      obtain ⟨y, z, hy, hz, hv⟩ := error_distance_iff.1 (hx knowns)
      rw [howned.value_identity ha hinv, Point.distance_comm] at hv
      exact error_distance_iff.2 ⟨z, y, (hq.read ha hinv).1 hz, (hp.read ha hinv).1 hy, hv⟩
  | angle n hp hq howned =>
      obtain ⟨y, z, θ, hy, hz, hv, halong⟩ := error_angle_iff.1 (hx knowns)
      rw [howned.value ha hinv, Option.map_eq_some_iff] at hv
      obtain ⟨φ, hu, rfl⟩ := hv
      rw [Affine.apply_eq, one_mul, Point.along_add_turns] at halong
      exact error_angle_iff.2
        ⟨y, z, φ, (hp.read ha hinv).1 hy, (hq.read ha hinv).1 hz, hu, halong⟩
  | angleBack n hp hq howned =>
      obtain ⟨y, z, θ, hy, hz, hv, halong⟩ := error_angle_iff.1 (hx knowns)
      rw [howned.value ha hinv, Option.map_eq_some_iff] at hv
      obtain ⟨φ, hu, rfl⟩ := hv
      rw [Affine.apply_eq, one_mul, ← add_sub_assoc, Point.along_reverse,
        Point.along_add_turns] at halong
      exact error_angle_iff.2
        ⟨z, y, φ, (hq.read ha hinv).1 hz, (hp.read ha hinv).1 hy, hu, halong⟩

end Residual

end SketchSolver
