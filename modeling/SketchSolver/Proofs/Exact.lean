import Mathlib
import SketchSolver.Affine

/-!
# Exact numbers

An ordered field in the place of machine numbers, with any functions at all in the place of those
of plane geometry.  What needs arithmetic to be exact is proved there.

Affine maps whose scale is not zero can be undone then: `comp_assoc`, `identity_comp` and
`inverse_comp` are what the rest computes with.  A map that is not degenerate is one of them
(`scale_ne_zero`).
-/

namespace SketchSolver

/-- An ordered field, with some functions in the place of those of plane geometry. -/
class Exact (α : Type) extends Field α, LinearOrder α, IsStrictOrderedRing α where
  isFinite : α → Bool
  pi : α
  hypot : α → α → α
  sin : α → α
  cos : α → α
  atan2 : α → α → α

instance {α : Type} [Exact α] : Scalar α where
  decideLt := inferInstance
  decideLe := inferInstance
  abs x := |x|
  isFinite := Exact.isFinite
  pi := Exact.pi
  hypot := Exact.hypot
  sin := Exact.sin
  cos := Exact.cos
  atan2 := Exact.atan2

/-- These numbers are exact: they are those of an ordered field. -/
def Scalar.IsExact (α : Type) [numbers : Scalar α] : Prop :=
  ∃ field : Exact α, numbers = @instScalarOfExact α field

/-- Rational numbers, with rough geometry. -/
instance : Exact ℚ where
  isFinite _ := true
  pi := 22 / 7
  hypot x y := |x| + |y|
  sin x := x
  cos _ := 1
  atan2 y _ := y

namespace Exact

variable {α : Type} [Exact α]

lemma leastNormal_eq : (Scalar.leastNormal : α) = ((2.2250738585072014e-308 : ℚ≥0) : α) :=
  (NNRat.cast_ofScientific ..).symm

lemma leastNormal_pos : 0 < (Scalar.leastNormal : α) := by
  have hliteral : (0 : ℚ≥0) < 2.2250738585072014e-308 := by decide +kernel
  rw [leastNormal_eq]
  exact NNRat.cast_pos.2 hliteral

lemma tolerance_pos : 0 < (Scalar.tolerance : α) := by
  have hliteral : (0 : ℚ≥0) < 1e-5 := by decide +kernel
  have hcast : (Scalar.tolerance : α) = ((1e-5 : ℚ≥0) : α) := (NNRat.cast_ofScientific ..).symm
  rw [hcast]
  exact NNRat.cast_pos.2 hliteral

end Exact

namespace Affine

variable {α : Type} [Exact α] {f : Affine α}

@[simp] lemma scale_comp (f g : Affine α) : (f.comp g).scale = f.scale * g.scale := rfl

@[simp] lemma shift_comp (f g : Affine α) :
    (f.comp g).shift = f.scale * g.shift + f.shift := rfl

@[simp] lemma scale_inverse (f : Affine α) : f.inverse.scale = f.scale⁻¹ := one_div _

@[simp] lemma shift_inverse (f : Affine α) : f.inverse.shift = -f.shift / f.scale := rfl

@[simp] lemma scale_identity : (identity : Affine α).scale = 1 := rfl

@[simp] lemma shift_identity : (identity : Affine α).shift = 0 := rfl

lemma apply_eq (f : Affine α) (x : α) : f.apply x = f.scale * x + f.shift := rfl

@[simp] lemma apply_identity (x : α) : identity.apply x = x := by
  simp [apply_eq]

lemma apply_comp (f g : Affine α) (x : α) : (f.comp g).apply x = f.apply (g.apply x) := by
  simp only [apply_eq, scale_comp, shift_comp]
  ring

lemma comp_assoc (f g h : Affine α) : (f.comp g).comp h = f.comp (g.comp h) := by
  ext
  · simp only [scale_comp]
    ring
  · simp only [scale_comp, shift_comp]
    ring

@[simp] lemma identity_comp (f : Affine α) : identity.comp f = f := by
  ext <;> simp

@[simp] lemma comp_identity (f : Affine α) : f.comp identity = f := by
  ext <;> simp

@[simp] lemma inverse_identity : (identity : Affine α).inverse = identity := by
  ext <;> simp

lemma inverse_comp (hf : f.scale ≠ 0) : f.inverse.comp f = identity := by
  ext
  · simp [hf]
  · simp only [shift_comp, scale_inverse, shift_inverse, shift_identity]
    field_simp
    ring

lemma comp_inverse (hf : f.scale ≠ 0) : f.comp f.inverse = identity := by
  ext
  · simp [hf]
  · simp only [shift_comp, shift_inverse, shift_identity]
    field_simp
    ring

/-- The inverse of a composition is the composition of the inverses, in opposite order. -/
lemma inverse_comp_rev {g : Affine α} (hf : f.scale ≠ 0) (hg : g.scale ≠ 0) :
    (f.comp g).inverse = g.inverse.comp f.inverse := by
  ext
  · simp only [scale_inverse, scale_comp, mul_inv]
    ring
  · simp only [shift_inverse, scale_inverse, scale_comp, shift_comp]
    field_simp
    ring

/-- A map that is not degenerate has an inverse. -/
lemma scale_ne_zero (hf : f.isDegenerate = false) : f.scale ≠ 0 := by
  intro hzero
  rw [isDegenerate, decide_eq_false_iff_not, hzero] at hf
  have hsmall : |(0 : α)| < Scalar.leastNormal := by
    rw [abs_zero]
    exact Exact.leastNormal_pos
  exact hf hsmall

end Affine

end SketchSolver
