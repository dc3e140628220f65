import Mathlib
import SketchSolver.Scalar

/-!
# Numbers that are rounded

`Scalar` asks for no law.  These are the laws that the numbers of a machine obey in spite of
rounding: defined numbers are ordered, signs are right, and a difference is negative only where the
first number is the lesser.  Nothing is said about how large a result is.
-/

namespace SketchSolver

namespace Scalar

/-- Numbers that are compared as numbers should be, and rounded to the right side of zero. -/
class Lawful (α : Type) [Scalar α] : Prop where
  irrefl (x : α) : ¬ x < x
  trans {x y z : α} : x < y → y < z → x < z
  not_lt_of_le {x y : α} : x ≤ y → ¬ y < x
  lt_of_not_lt {x y z : α} : isUndefined y = false → ¬ x < y → x < z → y < z
  lt_of_not_le {x y z : α} : x ≤ y → isUndefined z = false → ¬ x ≤ z → z < x
  le_of_not_lt {x y : α} : isUndefined x = false → isUndefined y = false → ¬ x < y → y ≤ x
  lt_of_sub_lt {x y z : α} : isFinite x = true → isFinite y = true → x - y < z → ¬ 0 < z → x < y
  mul_nonneg {x y : α} : ¬ x < 0 → ¬ y < 0 → ¬ x * y < 0
  mul_nonpos {x y : α} : ¬ x < 0 → ¬ 0 < y → ¬ 0 < x * y
  one_nonneg : ¬ (1 : α) < 0
  half_nonneg : ¬ (0.5 : α) < 0
  tenth_nonneg : ¬ (0.1 : α) < 0
  isFinite_zero : isFinite (0 : α) = true
  isFinite_one : isFinite (1 : α) = true
  isFinite_abs {x : α} : isFinite x = true → isFinite (abs x) = true
  isFinite_half {x : α} : isFinite x = true → isFinite (x * 0.5) = true
  isUndefined_of_isFinite {x : α} : isFinite x = true → isUndefined x = false
  isUndefined_mul {x y : α} : isFinite x = true → isFinite y = true → isUndefined (x * y) = false

variable {α : Type} [Scalar α] {x y z bound : α} {sizes : List α}

/-- The greater of two numbers is one of them. -/
lemma greatest_eq (x y : α) : greatest x y = x ∨ greatest x y = y := by
  rw [greatest]
  split_ifs
  · exact Or.inr rfl
  · exact Or.inl rfl

lemma isFinite_greatest (hx : isFinite x = true) (hy : isFinite y = true) :
    isFinite (greatest x y) = true := by
  rcases greatest_eq x y with h | h
  · rwa [h]
  · rwa [h]

lemma isFinite_foldl_greatest (hsizes : ∀ size ∈ sizes, isFinite size = true)
    (hbound : isFinite bound = true) : isFinite (sizes.foldl greatest bound) = true := by
  induction sizes generalizing bound with
  | nil => exact hbound
  | cons size sizes ih =>
      rw [List.forall_mem_cons] at hsizes
      exact ih hsizes.2 (isFinite_greatest hbound hsizes.1)

variable [Lawful α]

/-- Where the greater of two numbers is less, both are. -/
lemma lt_of_greatest_lt (hx : isFinite x = true) (hy : isFinite y = true)
    (h : greatest x y < z) : x < z ∧ y < z := by
  rw [greatest, Lawful.isUndefined_of_isFinite hx, Bool.false_or] at h
  by_cases hlt : x < y
  · rw [if_pos (decide_eq_true hlt)] at h
    exact ⟨Lawful.trans hlt h, h⟩
  · rw [if_neg (by simpa using hlt)] at h
    exact ⟨h, Lawful.lt_of_not_lt (Lawful.isUndefined_of_isFinite hy) hlt h⟩

lemma lt_of_foldl_greatest_lt (hsizes : ∀ size ∈ sizes, isFinite size = true)
    (hbound : isFinite bound = true) (h : sizes.foldl greatest bound < z) :
    bound < z ∧ ∀ size ∈ sizes, size < z := by
  induction sizes generalizing bound with
  | nil => exact ⟨h, by simp⟩
  | cons size sizes ih =>
      rw [List.forall_mem_cons] at hsizes ⊢
      obtain ⟨hgreatest, hrest⟩ := ih hsizes.2 (isFinite_greatest hbound hsizes.1) h
      obtain ⟨hleft, hright⟩ := lt_of_greatest_lt hbound hsizes.1 hgreatest
      exact ⟨hleft, hright, hrest⟩

end Scalar

end SketchSolver
