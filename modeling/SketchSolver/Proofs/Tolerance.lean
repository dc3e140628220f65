import Mathlib
import SketchSolver.Affine
import SketchSolver.Scalar.Double

/-!
# Numbers that are as good as equal

Machine numbers have two zeros, which compare as equal and are told apart by dividing only.  The
solver divides by scales, and a scale that small is degenerate.  So it cannot tell numbers apart
that are equal up to the sign of a zero.

* `Scalar.Tolerates r` — all that is needed of a relation between numbers for this argument.
* `Double.UpToZero` — equality up to the sign of a zero, which is such a relation
  (`Double.tolerates_upToZero`).
-/

namespace SketchSolver

namespace Scalar

/-- Numbers that are related give related results, and compare in the same way.  They may be
divided by a number, but not be divided by; and above the least normal number they are equal. -/
structure Tolerates {α : Type} [Scalar α] (r : α → α → Prop) : Prop where
  refl : ∀ x, r x x
  trans : ∀ {x y z}, r x y → r y z → r x z
  add : ∀ {x x' y y'}, r x x' → r y y' → r (x + y) (x' + y')
  sub : ∀ {x x' y y'}, r x x' → r y y' → r (x - y) (x' - y')
  mul : ∀ {x x' y y'}, r x x' → r y y' → r (x * y) (x' * y')
  neg : ∀ {x x'}, r x x' → r (-x) (-x')
  div : ∀ {x x'}, r x x' → ∀ y, r (x / y) (x' / y)
  abs_lt : ∀ {x x'}, r x x' → ∀ y, Scalar.abs x < y ↔ Scalar.abs x' < y
  eq_of_large : ∀ {x x'}, r x x' → ¬ Scalar.abs x < leastNormal → x = x'

lemma tolerates_eq {α : Type} [Scalar α] : Tolerates (Eq : α → α → Prop) where
  refl _ := rfl
  trans := Eq.trans
  add := by rintro x _ y _ rfl rfl; rfl
  sub := by rintro x _ y _ rfl rfl; rfl
  mul := by rintro x _ y _ rfl rfl; rfl
  neg := by rintro x _ rfl; rfl
  div := by rintro x _ rfl y; rfl
  abs_lt := by rintro x _ rfl y; rfl
  eq_of_large h _ := h

end Scalar

namespace Double

open Float.Model Float.Model.UnpackedFloat

/-- Equal up to the sign of a zero. -/
def UpToZero (x y : Float) : Prop :=
  x = y ∨ (x == 0) = true ∧ (y == 0) = true

/-! ## Zeros -/

lemma beq_zero_iff (x : Float) : (x == 0) = true ↔ ∃ sign, x.toModel.unpack = .zero sign := by
  have hzero : (0 : Float).toModel.unpack = .zero .positive := rfl
  have hbeq : (x == 0) = UnpackedFloat.beq x.toModel.unpack (0 : Float).toModel.unpack := rfl
  rw [hbeq, hzero, beq_iff_ne_notANumber_and_eq]
  constructor
  · rintro ⟨-, -, h | ⟨h, -⟩ | ⟨h, -⟩⟩ <;> exact ⟨_, h⟩
  · rintro ⟨sign, h⟩
    cases sign <;> simp [h]

lemma unpack_pack_zero (sign : Sign) : (pack (.zero sign)).unpack = .zero sign :=
  unpack_packedZero

/-- Equal up to the sign of a zero, before rounding. -/
def Unsigned (u v : UnpackedFloat) : Prop :=
  u = v ∨ ∃ s s', u = .zero s ∧ v = .zero s'

lemma upToZero_of_unsigned {u v : UnpackedFloat} (h : Unsigned u v) :
    UpToZero (.ofModel (pack u)) (.ofModel (pack v)) := by
  rcases h with rfl | ⟨s, s', rfl, rfl⟩
  · exact Or.inl rfl
  · exact Or.inr ⟨(beq_zero_iff _).2 ⟨s, unpack_pack_zero s⟩,
      (beq_zero_iff _).2 ⟨s', unpack_pack_zero s'⟩⟩

lemma UpToZero.trans {x y z : Float} (hxy : UpToZero x y) (hyz : UpToZero y z) : UpToZero x z := by
  rcases hxy with rfl | ⟨hx, hy⟩
  · exact hyz
  · rcases hyz with rfl | ⟨-, hz⟩
    · exact Or.inr ⟨hx, hy⟩
    · exact Or.inr ⟨hx, hz⟩

/-- An operation that does not see the sign of a zero in one of its places. -/
lemma UpToZero.map {x x' : Float} (h : UpToZero x x') {f : UnpackedFloat → UnpackedFloat}
    (hf : ∀ s s', Unsigned (f (.zero s)) (f (.zero s'))) :
    UpToZero (.ofModel (pack (f x.toModel.unpack))) (.ofModel (pack (f x'.toModel.unpack))) := by
  rcases h with rfl | ⟨hx, hx'⟩
  · exact Or.inl rfl
  · obtain ⟨s, hs⟩ := (beq_zero_iff x).1 hx
    obtain ⟨s', hs'⟩ := (beq_zero_iff x').1 hx'
    rw [hs, hs']
    exact upToZero_of_unsigned (hf s s')

section

variable (format : Float.Model.Format) (s s' : Sign) (v : UnpackedFloat)

lemma unsigned_zero : Unsigned (.zero s) (.zero s') :=
  Or.inr ⟨s, s', rfl, rfl⟩

lemma unsigned_add_left :
    Unsigned (.add format (.zero s) v) (.add format (.zero s') v) := by
  cases v with
  | zero t => cases s <;> cases s' <;> cases t <;> exact unsigned_zero _ _
  | _ => exact Or.inl rfl

lemma unsigned_add_right :
    Unsigned (.add format v (.zero s)) (.add format v (.zero s')) := by
  cases v with
  | zero t => cases s <;> cases s' <;> cases t <;> exact unsigned_zero _ _
  | _ => exact Or.inl rfl

lemma unsigned_sub_left :
    Unsigned (.sub format (.zero s) v) (.sub format (.zero s') v) := by
  cases v with
  | zero t => cases s <;> cases s' <;> cases t <;> exact unsigned_zero _ _
  | _ => exact Or.inl rfl

lemma unsigned_sub_right :
    Unsigned (.sub format v (.zero s)) (.sub format v (.zero s')) := by
  cases v with
  | zero t => cases s <;> cases s' <;> cases t <;> exact unsigned_zero _ _
  | _ => exact Or.inl rfl

lemma unsigned_mul_left :
    Unsigned (.mul format (.zero s) v) (.mul format (.zero s') v) := by
  cases v with
  | notANumber => exact Or.inl rfl
  | infinity t => exact Or.inl rfl
  | _ => exact unsigned_zero _ _

lemma unsigned_mul_right :
    Unsigned (.mul format v (.zero s)) (.mul format v (.zero s')) := by
  cases v with
  | notANumber => exact Or.inl rfl
  | infinity t => exact Or.inl rfl
  | _ => exact unsigned_zero _ _

lemma unsigned_div :
    Unsigned (.div format (.zero s) v) (.div format (.zero s') v) := by
  cases v with
  | notANumber => exact Or.inl rfl
  | zero t => exact Or.inl rfl
  | _ => exact unsigned_zero _ _

end

/-- **Equality up to the sign of a zero** is as good as equality to the solver. -/
theorem tolerates_upToZero : Scalar.Tolerates UpToZero where
  refl _ := Or.inl rfl
  trans := UpToZero.trans
  add {x x' y y'} hx hy :=
    (hx.map (f := fun u => .add .binary64 u y.toModel.unpack)
      fun s s' => unsigned_add_left _ s s' _).trans
    (hy.map (f := fun v => .add .binary64 x'.toModel.unpack v)
      fun s s' => unsigned_add_right _ s s' _)
  sub {x x' y y'} hx hy :=
    (hx.map (f := fun u => .sub .binary64 u y.toModel.unpack)
      fun s s' => unsigned_sub_left _ s s' _).trans
    (hy.map (f := fun v => .sub .binary64 x'.toModel.unpack v)
      fun s s' => unsigned_sub_right _ s s' _)
  mul {x x' y y'} hx hy :=
    (hx.map (f := fun u => .mul .binary64 u y.toModel.unpack)
      fun s s' => unsigned_mul_left _ s s' _).trans
    (hy.map (f := fun v => .mul .binary64 x'.toModel.unpack v)
      fun s s' => unsigned_mul_right _ s s' _)
  neg hx := hx.map (f := UnpackedFloat.neg) fun s s' => unsigned_zero _ _
  div hx y := hx.map (f := fun u => .div .binary64 u y.toModel.unpack)
    fun s s' => unsigned_div _ s s' _
  abs_lt := by
    rintro x x' (rfl | ⟨hx, hx'⟩) y
    · rfl
    · obtain ⟨s, hs⟩ := (beq_zero_iff x).1 hx
      obtain ⟨s', hs'⟩ := (beq_zero_iff x').1 hx'
      have habs : Float.abs x = Float.abs x' := by
        rw [Float.abs, Float.abs, Float.Model.abs, Float.Model.abs, hs, hs']
        rfl
      show Float.abs x < y ↔ Float.abs x' < y
      rw [habs]
  eq_of_large := by
    rintro x x' (rfl | ⟨hx, hx'⟩) hlarge
    · rfl
    · obtain ⟨s, hs⟩ := (beq_zero_iff x).1 hx
      refine absurd ?_ hlarge
      have habs : Float.abs x = 0 := by
        rw [Float.abs, Float.Model.abs, hs]
        rfl
      show Float.abs x < _
      rw [habs]
      decide +kernel

/-- Numbers that compare as equal are equal up to the sign of a zero. -/
lemma upToZero_of_beq {x y : Float} (h : (x == y) = true) : UpToZero x y := by
  rcases Float.beq_iff_ne_nan_and_eq.1 h with ⟨-, -, heq | ⟨rfl, rfl⟩ | ⟨rfl, rfl⟩⟩
  · exact Or.inl heq
  · exact Or.inr ⟨rfl, rfl⟩
  · exact Or.inr ⟨rfl, rfl⟩

end Double

end SketchSolver
