import Mathlib
import SketchSolver.Proofs.Lawful
import SketchSolver.Scalar.Double

/-!
# The laws of double-precision numbers

`Float` computes on bits; its operations are those of `Float.Model`, which unpacks the bits into a
sign, a significand and an exponent.  Here that arithmetic is related to integers: every number is
a multiple of the least positive one (`units`), and an infinite one is beyond all others.

* `compare_eq`: comparing numbers is comparing these integers, because significands are `Normal`.
* `sign?_stored`: rounding keeps signs, from which `units_sub_nonneg`, `units_mul_nonneg` and
  `units_mul_nonpos` follow.
* `isFinite_stored`: what has a small exponent stays finite when it is stored.

Together they make `Float` an instance of `Scalar.Lawful`.
-/

namespace SketchSolver

namespace Double

open Float.Model Float.Model.UnpackedFloat

/-! ## Numbers as integers -/

/-- A finite number without its sign, as a multiple of the least positive one. -/
def scaled (m : Nat) (e : Int) : Int :=
  m * 2 ^ (e + 1074).toNat

/-- More than every finite number. -/
def beyond : Int := 2 ^ 2200

/-- A number as a multiple of the least positive one; an infinite one is beyond all others. -/
def units : UnpackedFloat → Int
  | .notANumber => 0
  | .infinity s => s.apply beyond
  | .zero _ => 0
  | .finite s m e _ => s.apply (scaled m e)

/-- The significand has full precision, or the exponent is the least. -/
def Full (m : Nat) (e : Int) : Prop :=
  m < 2 ^ 53 ∧ -1074 ≤ e ∧ e ≤ 971 ∧ (2 ^ 52 ≤ m ∨ e = -1074)

/-- A number that is unpacked as the format has it. -/
def Normal : UnpackedFloat → Prop
  | .finite _ m e _ => Full m e
  | _ => True

/-- A finite number is a zero, or has a significand. -/
lemma cases_of_isFinite {u : UnpackedFloat} (h : u.isFinite = true) :
    (∃ s, u = .zero s) ∨ ∃ s m e hm, u = .finite s m e hm := by
  cases u with
  | notANumber => cases h
  | infinity s => cases h
  | zero s => exact Or.inl ⟨s, rfl⟩
  | finite s m e hm => exact Or.inr ⟨s, m, e, hm, rfl⟩

lemma normal_unpack (b : BitVec Format.binary64.numBits) :
    Normal (UnpackedFloat.unpack Format.binary64 b) := by
  have hbias : ((Format.binary64.exponentBias : Int) + (52 : Nat)) = 1075 := by decide
  have hm : (unpackMantissa b).toNat < 2 ^ 52 := (unpackMantissa b).isLt
  have he : (unpackExponent b).toNat < 2 ^ 11 := (unpackExponent b).isLt
  simp only [UnpackedFloat.unpack]
  split_ifs with hall hzero hleast hnone
  · trivial
  · trivial
  · trivial
  · simp only [Normal, Full, hbias, hleast, BitVec.toNat_zero]
    omega
  · have hne : (unpackExponent b).toNat ≠ 0 := fun h =>
      hleast (BitVec.eq_of_toNat_eq (by simpa using h))
    have hne' : (unpackExponent b).toNat ≠ 2047 := fun h =>
      hall (BitVec.eq_of_toNat_eq (by simpa using h))
    have hnat : (1#1 ++ unpackMantissa b).toNat = 2 ^ 52 + (unpackMantissa b).toNat := by
      rw [BitVec.toNat_append, ← Nat.shiftLeft_add_eq_or_of_lt hm]
      rfl
    simp only [Normal, Full, hbias, hnat]
    omega

lemma scaled_pos {m : Nat} (e : Int) (h : 0 < m) : 0 < scaled m e :=
  mul_pos (by exact_mod_cast h) (by positivity)

lemma beyond_pos : 0 < beyond := by
  rw [beyond]
  positivity

section

variable {m m' : Nat} {e e' : Int}

lemma scaled_lt_beyond (hu : Full m e) : scaled m e < beyond := by
  obtain ⟨hm, -, hhigh, -⟩ := hu
  calc scaled m e
      < 2 ^ 53 * 2 ^ (e + 1074).toNat :=
        mul_lt_mul_of_pos_right (by exact_mod_cast hm) (by positivity)
    _ = 2 ^ (53 + (e + 1074).toNat) := (pow_add _ _ _).symm
    _ ≤ beyond := pow_le_pow_right₀ (by decide) (by omega)

/-- A greater exponent weighs more than any significand. -/
lemma scaled_lt_of_exponent (hu : Full m e) (hv : Full m' e') (he : e < e') :
    scaled m e < scaled m' e' := by
  obtain ⟨hm, hlow, -, -⟩ := hu
  obtain ⟨-, -, -, hfull⟩ := hv
  have hfull : (2 ^ 52 : Int) ≤ m' := by
    exact_mod_cast hfull.resolve_right (by omega)
  obtain ⟨d, hd⟩ : ∃ d, (e' + 1074).toNat = (e + 1074).toNat + 1 + d :=
    ⟨(e' - e - 1).toNat, by omega⟩
  calc scaled m e
      < 2 ^ 53 * 2 ^ (e + 1074).toNat :=
        mul_lt_mul_of_pos_right (by exact_mod_cast hm) (by positivity)
    _ = 2 ^ 52 * 2 ^ ((e + 1074).toNat + 1) := by ring
    _ ≤ m' * 2 ^ ((e + 1074).toNat + 1) := mul_le_mul_of_nonneg_right hfull (by positivity)
    _ ≤ m' * (2 ^ ((e + 1074).toNat + 1) * 2 ^ d) :=
        mul_le_mul_of_nonneg_left (le_mul_of_one_le_right (by positivity)
          (one_le_pow₀ (by decide))) (by positivity)
    _ = scaled m' e' := by rw [scaled, hd, pow_add _ _ d]

lemma scaled_lt_of_mantissa (e : Int) (hm : m < m') : scaled m e < scaled m' e :=
  mul_lt_mul_of_pos_right (by exact_mod_cast hm) (by positivity)

/-- Exponents are compared first, and then significands. -/
lemma compare_scaled (hu : Full m e) (hv : Full m' e') :
    (compare e e').then (compare m m') = compare (scaled m e) (scaled m' e') := by
  rcases lt_trichotomy e e' with he | rfl | he
  · rw [compare_lt_iff_lt.2 he, compare_lt_iff_lt.2 (scaled_lt_of_exponent hu hv he)]
    rfl
  · rw [compare_eq_iff_eq.2 (rfl : e = e)]
    rcases lt_trichotomy m m' with hm | rfl | hm
    · rw [compare_lt_iff_lt.2 hm, compare_lt_iff_lt.2 (scaled_lt_of_mantissa e hm)]
      rfl
    · rw [compare_eq_iff_eq.2 (rfl : m = m), compare_eq_iff_eq.2 rfl]
      rfl
    · rw [compare_gt_iff_gt.2 hm, compare_gt_iff_gt.2 (scaled_lt_of_mantissa e hm)]
      rfl
  · rw [compare_gt_iff_gt.2 he, compare_gt_iff_gt.2 (scaled_lt_of_exponent hv hu he)]
    rfl

end

/-- **Comparing numbers is comparing integers.** -/
lemma compare_eq {u v : UnpackedFloat} (hu : Normal u) (hv : Normal v) (hu' : u ≠ .notANumber)
    (hv' : v ≠ .notANumber) : u.compare v = some (compare (units u) (units v)) := by
  have hbeyond := beyond_pos
  have hlt : ∀ {x y : Int}, x < y → some Ordering.lt = some (compare x y) := fun h => by
    rw [compare_lt_iff_lt.2 h]
  have hgt : ∀ {x y : Int}, y < x → some Ordering.gt = some (compare x y) := fun h => by
    rw [compare_gt_iff_gt.2 h]
  have heq : ∀ x : Int, some Ordering.eq = some (compare x x) := fun x => by
    rw [compare_eq_iff_eq.2 rfl]
  -- the sides differ in sign or size, unless both are finite and have the same sign
  cases u with
  | notANumber => exact absurd rfl hu'
  | infinity s =>
      cases v with
      | notANumber => exact absurd rfl hv'
      | infinity t =>
          cases s <;> cases t <;>
            first
            | exact heq _
            | exact hlt (by simp only [units, Sign.apply]; omega)
            | exact hgt (by simp only [units, Sign.apply]; omega)
      | zero t =>
          cases s
          · exact hlt (by simp only [units, Sign.apply]; omega)
          · exact hgt (by simp only [units, Sign.apply]; omega)
      | finite t m e hm =>
          have hpos := scaled_pos e hm
          have hbound := scaled_lt_beyond hv
          cases s <;> cases t <;>
            first
            | exact hlt (by simp only [units, Sign.apply]; omega)
            | exact hgt (by simp only [units, Sign.apply]; omega)
  | zero s =>
      cases v with
      | notANumber => exact absurd rfl hv'
      | zero t => exact heq _
      | infinity t =>
          cases t
          · exact hgt (by simp only [units, Sign.apply]; omega)
          · exact hlt (by simp only [units, Sign.apply]; omega)
      | finite t m e hm =>
          have hpos := scaled_pos e hm
          cases t
          · exact hgt (by simp only [units, Sign.apply]; omega)
          · exact hlt (by simp only [units, Sign.apply]; omega)
  | finite s m e hm =>
      have hpos := scaled_pos e hm
      have hbound := scaled_lt_beyond hu
      cases v with
      | notANumber => exact absurd rfl hv'
      | infinity t =>
          cases s <;> cases t <;>
            first
            | exact hlt (by simp only [units, Sign.apply]; omega)
            | exact hgt (by simp only [units, Sign.apply]; omega)
      | zero t =>
          cases s
          · exact hlt (by simp only [units, Sign.apply]; omega)
          · exact hgt (by simp only [units, Sign.apply]; omega)
      | finite t m' e' hm' =>
          have hpos' := scaled_pos e' hm'
          have hsame := compare_scaled hu hv
          cases s <;> cases t
          · show some ((compare e e').then (compare m m')).swap =
              some (compare (-scaled m e) (-scaled m' e'))
            rw [hsame]
            rcases lt_trichotomy (scaled m e) (scaled m' e') with h | h | h
            · rw [compare_lt_iff_lt.2 h, compare_gt_iff_gt.2 (neg_lt_neg h)]
              rfl
            · rw [h, compare_eq_iff_eq.2 rfl, compare_eq_iff_eq.2 rfl]
              rfl
            · rw [compare_gt_iff_gt.2 h, compare_lt_iff_lt.2 (neg_lt_neg h)]
              rfl
          · exact hlt (by simp only [units, Sign.apply]; omega)
          · exact hgt (by simp only [units, Sign.apply]; omega)
          · exact congrArg some hsame

/-! ## Signs of rounded numbers -/

/-- The sign of a number that is defined. -/
def sign? : UnpackedFloat → Option Sign
  | .notANumber => none
  | .infinity s => some s
  | .zero s => some s
  | .finite s _ _ _ => some s

lemma sign?_unpack_components (s : Sign) {e : BitVec 11} {m : BitVec 52}
    (h : e = -1#11 → m = 0#52) :
    sign? (UnpackedFloat.unpack .binary64 (packComponents .binary64 s e m)) = some s := by
  simp only [UnpackedFloat.unpack, unpackMantissa_packComponents, unpackExponent_packComponents,
    unpackSign_packComponents, Sign.ofBitVec_toBitVec]
  split_ifs with hall hzero
  · rfl
  · exact absurd (h hall) hzero
  · rfl
  · rfl
  · rfl

/-- Rounding to the format keeps the sign. -/
lemma sign?_unpack_pack (u : UnpackedFloat) :
    sign? (UnpackedFloat.unpack .binary64 (UnpackedFloat.pack .binary64 u)) = sign? u := by
  cases u with
  | notANumber => rw [UnpackedFloat.pack, unpack_packedNaN]
  | infinity s => exact sign?_unpack_components s fun _ => rfl
  | zero s => exact sign?_unpack_components s fun _ => rfl
  | finite s m e hm =>
      simp only [UnpackedFloat.pack]
      split_ifs with hlarge hfull
      · exact sign?_unpack_components s fun _ => rfl
      · refine sign?_unpack_components s fun hall => absurd (congrArg BitVec.toNat hall) ?_
        have hall : (-1#11).toNat = 2 ^ 11 - 1 := rfl
        rw [BitVec.toNat_ofNat, hall]
        omega
      · exact sign?_unpack_components s fun hall => absurd hall (by decide)

lemma sign?_roundWithAccuracy (format : Float.Model.Format) (s : Sign) (m : Nat) (e : Int)
    (accuracy : Accuracy) : sign? (roundWithAccuracy format s m e accuracy) = some s := by
  simp only [roundWithAccuracy]
  split <;> rfl

/-- A number whose sign is known lies on that side of zero. -/
lemma units_nonneg {u : UnpackedFloat} (h : sign? u ≠ some .negative) : 0 ≤ units u := by
  cases u with
  | notANumber => exact le_refl 0
  | infinity s =>
      cases s
      · exact absurd rfl h
      · exact beyond_pos.le
  | zero s => exact le_refl 0
  | finite s m e hm =>
      cases s
      · exact absurd rfl h
      · exact (scaled_pos e hm).le

lemma units_nonpos {u : UnpackedFloat} (h : sign? u ≠ some .positive) : units u ≤ 0 := by
  cases u with
  | notANumber => exact le_refl 0
  | infinity s =>
      cases s
      · exact neg_nonpos.2 beyond_pos.le
      · exact absurd rfl h
  | zero s => exact le_refl 0
  | finite s m e hm =>
      cases s
      · exact neg_nonpos.2 (scaled_pos e hm).le
      · exact absurd rfl h

/-- What subtraction computes with, in multiples of the least positive number. -/
lemma apply_shiftLeft (s : Sign) (m : Nat) {e e' : Int} (he : -1074 ≤ e') (hle : e' ≤ e) :
    s.apply (m <<< (e - e').toNat : Nat) * 2 ^ (e' + 1074).toNat = s.apply (scaled m e) := by
  have hexponent : (e + 1074).toNat = (e - e').toNat + (e' + 1074).toNat := by omega
  have hshift : ((m <<< (e - e').toNat : Nat) : Int) = m * 2 ^ (e - e').toNat := by
    rw [Nat.shiftLeft_eq]
    push_cast
    rfl
  rw [hshift, scaled, hexponent, pow_add]
  cases s <;> simp only [Sign.apply] <;> ring

/-- What a number is after it has been stored. -/
def stored (u : UnpackedFloat) : UnpackedFloat :=
  UnpackedFloat.unpack .binary64 (UnpackedFloat.pack .binary64 u)

lemma sign?_stored (u : UnpackedFloat) : sign? (stored u) = sign? u :=
  sign?_unpack_pack u

@[simp] lemma units_stored_zero (s : Sign) : units (stored (.zero s)) = 0 := by
  rw [stored, UnpackedFloat.pack, unpack_packedZero, units]

lemma sign?_normalize (format : Float.Model.Format) {n : Int} (hn : 0 ≤ n) (e : Int) :
    sign? (normalize format n e .positive) = some .positive := by
  rw [UnpackedFloat.normalize]
  split
  · rename_i hneg
    exact absurd (compare_lt_iff_lt.1 hneg) (not_lt.2 hn)
  · rfl
  · exact sign?_roundWithAccuracy _ _ _ _ _

/-- Subtracting what is not greater does not lead below zero. -/
lemma units_sub_nonneg {u v : UnpackedFloat} (hu : Normal u) (hv : Normal v)
    (hfu : u.isFinite = true) (hfv : v.isFinite = true) (hle : units v ≤ units u) :
    0 ≤ units (stored (UnpackedFloat.sub .binary64 u v)) := by
  have hpositive : ∀ {w : UnpackedFloat}, sign? w = some .positive → 0 ≤ units (stored w) :=
    fun hw => units_nonneg (by rw [sign?_stored, hw]; simp)
  rcases cases_of_isFinite hfu with ⟨s, rfl⟩ | ⟨s, m, e, hm, rfl⟩
  · rcases cases_of_isFinite hfv with ⟨t, rfl⟩ | ⟨t, m, e, hm, rfl⟩
    · rw [UnpackedFloat.sub]
      split_ifs <;> rw [units_stored_zero]
    · refine hpositive ?_
      cases t
      · rfl
      · exact absurd hle (not_le.2 (scaled_pos e hm))
  · have hpos := scaled_pos e hm
    rcases cases_of_isFinite hfv with ⟨t, rfl⟩ | ⟨t, m', e', hm', rfl⟩
    · refine hpositive ?_
      cases s
      · exact absurd hle (not_le.2 (neg_neg_of_pos hpos))
      · rfl
    · refine hpositive (sign?_normalize _ ?_ _)
      have hlow : -1074 ≤ min e e' := le_min hu.2.1 hv.2.1
      have hleft := apply_shiftLeft s m hlow (min_le_left e e')
      have hright := apply_shiftLeft t m' hlow (min_le_right e e')
      have hscale : (0 : Int) < 2 ^ (min e e' + 1074).toNat := by positivity
      refine nonneg_of_mul_nonneg_left ?_ hscale
      show 0 ≤ (s.apply (m <<< (e - min e e').toNat : Nat) -
        t.apply (m' <<< (e' - min e e').toNat : Nat)) * 2 ^ (min e e' + 1074).toNat
      rw [sub_mul, hleft, hright]
      exact sub_nonneg.2 hle

/-- A product that is not zero has the product of the signs. -/
lemma units_mul (u v : UnpackedFloat) :
    units (stored (UnpackedFloat.mul .binary64 u v)) = 0 ∨
      ∃ s t, sign? u = some s ∧ sign? v = some t ∧ units u ≠ 0 ∧ units v ≠ 0 ∧
        sign? (UnpackedFloat.mul .binary64 u v) = some (s * t) := by
  have hbeyond : ∀ s : Sign, s.apply beyond ≠ 0 := fun s => by
    have := beyond_pos
    cases s <;> simp only [Sign.apply] <;> omega
  have hscaled : ∀ (s : Sign) {m : Nat} (e : Int) (_ : 0 < m), s.apply (scaled m e) ≠ 0 :=
    fun s m e hm => by
      have := scaled_pos e hm
      cases s <;> simp only [Sign.apply] <;> omega
  have hnan : units (stored .notANumber) = 0 := by
    rw [stored, UnpackedFloat.pack, unpack_packedNaN, units]
  cases u with
  | notANumber => exact Or.inl hnan
  | infinity s =>
      cases v with
      | notANumber => exact Or.inl hnan
      | infinity t => exact Or.inr ⟨s, t, rfl, rfl, hbeyond s, hbeyond t, rfl⟩
      | zero t => exact Or.inl hnan
      | finite t m e hm => exact Or.inr ⟨s, t, rfl, rfl, hbeyond s, hscaled t e hm, rfl⟩
  | zero s =>
      cases v with
      | notANumber => exact Or.inl hnan
      | infinity t => exact Or.inl hnan
      | zero t => exact Or.inl (units_stored_zero _)
      | finite t m e hm => exact Or.inl (units_stored_zero _)
  | finite s m e hm =>
      cases v with
      | notANumber => exact Or.inl hnan
      | infinity t => exact Or.inr ⟨s, t, rfl, rfl, hscaled s e hm, hbeyond t, rfl⟩
      | zero t => exact Or.inl (units_stored_zero _)
      | finite t m' e' hm' =>
          exact Or.inr ⟨s, t, rfl, rfl, hscaled s e hm, hscaled t e' hm',
            sign?_roundWithAccuracy _ _ _ _ _⟩

/-- Factors of which neither is below zero have no product below zero. -/
lemma units_mul_nonneg {u v : UnpackedFloat} (hu : 0 ≤ units u) (hv : 0 ≤ units v) :
    0 ≤ units (stored (UnpackedFloat.mul .binary64 u v)) := by
  rcases units_mul u v with hzero | ⟨s, t, hs, ht, hu', hv', hmul⟩
  · exact hzero.ge
  · refine units_nonneg ?_
    rw [sign?_stored, hmul]
    have hs' : s = .positive := by
      cases s with
      | positive => rfl
      | negative => exact absurd (le_antisymm (units_nonpos (by simp [hs])) hu) hu'
    have ht' : t = .positive := by
      cases t with
      | positive => rfl
      | negative => exact absurd (le_antisymm (units_nonpos (by simp [ht])) hv) hv'
    subst hs' ht'
    simp [HMul.hMul, Mul.mul]

/-- Factors of which one is not below zero and the other not above have no product above zero. -/
lemma units_mul_nonpos {u v : UnpackedFloat} (hu : 0 ≤ units u) (hv : units v ≤ 0) :
    units (stored (UnpackedFloat.mul .binary64 u v)) ≤ 0 := by
  rcases units_mul u v with hzero | ⟨s, t, hs, ht, hu', hv', hmul⟩
  · exact hzero.le
  · refine units_nonpos ?_
    rw [sign?_stored, hmul]
    have hs' : s = .positive := by
      cases s with
      | positive => rfl
      | negative => exact absurd (le_antisymm (units_nonpos (by simp [hs])) hu) hu'
    have ht' : t = .negative := by
      cases t with
      | negative => rfl
      | positive => exact absurd (le_antisymm hv (units_nonneg (by simp [ht]))) hv'
    subst hs' ht'
    simp [HMul.hMul, Mul.mul]

/-! ## Comparing -/

variable {x y z : Float}

/-- A number as an integer. -/
def measure (x : Float) : Int :=
  units x.toModel.unpack

/-- It is a number, perhaps infinite. -/
abbrev Defined (x : Float) : Prop :=
  x.toModel.unpack ≠ .notANumber

lemma normal (x : Float) : Normal x.toModel.unpack :=
  normal_unpack _

/-- What is not a number compares with nothing. -/
lemma compare_cases (x y : Float) :
    (Defined x ∧ Defined y ∧
      x.toModel.unpack.compare y.toModel.unpack = some (compare (measure x) (measure y))) ∨
    (¬ (Defined x ∧ Defined y) ∧ x.toModel.unpack.compare y.toModel.unpack = none) := by
  by_cases hx : Defined x
  · by_cases hy : Defined y
    · exact Or.inl ⟨hx, hy, compare_eq (normal x) (normal y) hx hy⟩
    · rw [not_not] at hy
      refine Or.inr ⟨fun h => h.2 hy, ?_⟩
      rw [hy]
      cases x.toModel.unpack <;> rfl
  · rw [not_not] at hx
    refine Or.inr ⟨fun h => h.1 hx, ?_⟩
    rw [hx]
    rfl

lemma lt_iff (x y : Float) : x < y ↔ Defined x ∧ Defined y ∧ measure x < measure y := by
  have hlt : x < y ↔ (x.toModel.unpack.compare y.toModel.unpack == some .lt) = true :=
    decide_eq_true_iff
  rw [hlt]
  rcases compare_cases x y with ⟨hx, hy, h⟩ | ⟨hundefined, h⟩
  · simp [h, hx, hy, compare_lt_iff_lt]
  · rw [h]
    refine ⟨fun hfalse => ?_, fun hxy => absurd ⟨hxy.1, hxy.2.1⟩ hundefined⟩
    cases hfalse

lemma le_iff (x y : Float) : x ≤ y ↔ Defined x ∧ Defined y ∧ measure x ≤ measure y := by
  have hle : x ≤ y ↔ (x.toModel.unpack.compare y.toModel.unpack).any (·.isLE) = true :=
    decide_eq_true_iff
  rw [hle]
  rcases compare_cases x y with ⟨hx, hy, h⟩ | ⟨hundefined, h⟩
  · rw [h]
    simp [hx, hy, Ordering.isLE_iff_ne_gt, compare_gt_iff_gt]
  · rw [h]
    refine ⟨fun hfalse => ?_, fun hxy => absurd ⟨hxy.1, hxy.2.1⟩ hundefined⟩
    cases hfalse

lemma isUndefined_eq_false_iff (x : Float) : Scalar.isUndefined x = false ↔ Defined x := by
  have hbeq : (x == x) = (x.toModel.unpack.compare x.toModel.unpack == some .eq) := rfl
  rw [Scalar.isUndefined, hbeq]
  rcases compare_cases x x with ⟨hx, -, h⟩ | ⟨hundefined, h⟩
  · simp [h, hx]
  · rw [h]
    refine ⟨fun hfalse => ?_, fun hx => absurd ⟨hx, hx⟩ hundefined⟩
    cases hfalse

lemma defined_of_isFinite (h : Scalar.isFinite x = true) : Defined x := by
  intro hnan
  have hfinite : x.toModel.unpack.isFinite = true := h
  rw [hnan] at hfinite
  cases hfinite

lemma defined_zero : Defined 0 :=
  defined_of_isFinite rfl

lemma not_lt_zero_iff (x : Float) : ¬ x < 0 ↔ 0 ≤ measure x := by
  rw [lt_iff, ← not_lt, not_iff_not]
  refine ⟨fun h => h.2.2, fun h => ⟨?_, defined_zero, h⟩⟩
  intro hnan
  rw [measure, hnan] at h
  exact lt_irrefl 0 h

lemma not_zero_lt_iff (x : Float) : ¬ 0 < x ↔ measure x ≤ 0 := by
  rw [lt_iff, ← not_lt, not_iff_not]
  refine ⟨fun h => h.2.2, fun h => ⟨defined_zero, ?_, h⟩⟩
  intro hnan
  rw [measure, hnan] at h
  exact lt_irrefl 0 h

/-! ## Numbers that stay finite -/

/-- The exponent is not too large to be stored. -/
def Storable : UnpackedFloat → Prop
  | .zero _ => True
  | .finite _ _ e _ => e ≤ 971
  | _ => False

lemma isFinite_unpack_components (s : Sign) {e : BitVec 11} {m : BitVec 52} (h : e ≠ -1#11) :
    (UnpackedFloat.unpack .binary64 (packComponents .binary64 s e m)).isFinite = true := by
  simp only [UnpackedFloat.unpack, unpackMantissa_packComponents, unpackExponent_packComponents]
  rw [if_neg h]
  split_ifs <;> rfl

lemma isFinite_stored {u : UnpackedFloat} (hu : Storable u) : (stored u).isFinite = true := by
  cases u with
  | notANumber => cases hu
  | infinity s => cases hu
  | zero s => exact isFinite_unpack_components s (by decide)
  | finite s m e hm =>
      have hbias : ((Format.binary64.exponentBias : Int) + (52 : Nat)) = 1075 := by decide
      have he : e ≤ 971 := hu
      simp only [stored, UnpackedFloat.pack, add_assoc, hbias]
      rw [if_neg (by omega)]
      split_ifs with hfull
      · refine isFinite_unpack_components s fun hall => absurd (congrArg BitVec.toNat hall) ?_
        have hall : (-1#11).toNat = 2 ^ 11 - 1 := rfl
        rw [BitVec.toNat_ofNat, hall]
        omega
      · exact isFinite_unpack_components s (by decide)

lemma mantissa_shiftRight (k : Nat) (em : ExtendedMantissa) :
    (em >>> k).mantissa = em.mantissa / 2 ^ k := by
  induction k with
  | zero => exact (Nat.div_one _).symm
  | succ k ih =>
      show (em >>> k).mantissa / 2 = _
      rw [ih, Nat.div_div_eq_div_mul, Nat.pow_succ]

lemma roundedMantissa_le (em : ExtendedMantissa) : em.roundedMantissa ≤ em.mantissa + 1 := by
  obtain ⟨m, _ | _, _ | _⟩ := em
  · exact Nat.le_succ m
  · exact Nat.le_succ m
  · show m + m % 2 ≤ m + 1
    omega
  · exact le_refl _

lemma targetExponent_eq (t : Int) : Format.binary64.targetExponent t = max (t - 53) (-1074) := rfl

/-- A significand that is shifted and rounded to the format has 53 bits at most, or is the power of
two above. -/
lemma log2_rounded_le {m shift : Nat} (h : m.log2 ≤ shift + 52) :
    (ExtendedMantissa.ofMantissaAndAccuracy m .exact >>> shift).roundedMantissa.log2 ≤ 53 := by
  have hlt : m / 2 ^ shift < 2 ^ 53 := by
    rw [Nat.div_lt_iff_lt_mul (Nat.two_pow_pos _), ← Nat.pow_add]
    exact Nat.lt_log2_self.trans_le (Nat.pow_le_pow_right (by decide) (by omega))
  have hle := roundedMantissa_le (ExtendedMantissa.ofMantissaAndAccuracy m .exact >>> shift)
  rw [mantissa_shiftRight] at hle
  have hle := hle.trans (Nat.succ_le_of_lt hlt)
  rcases Nat.eq_zero_or_pos
    (ExtendedMantissa.ofMantissaAndAccuracy m .exact >>> shift).roundedMantissa with hzero | hpos
  · rw [hzero]
    decide
  · exact Nat.lt_succ_iff.1 ((Nat.log2_lt hpos.ne').2 (hle.trans_lt (by decide)))

lemma storable_of_exponent {s : Sign} {m : Nat} {e : Int} (he : e ≤ 971) :
    Storable (if h : m = 0 then .zero s else .finite s m e (Nat.pos_of_ne_zero h)) := by
  split_ifs
  · trivial
  · exact he

/-- Rounding raises the exponent by one at most. -/
lemma storable_round (s : Sign) {m : Nat} {e : Int} (he : e ≤ 970)
    (hm : (m.log2 : Int) + e ≤ 1022) : Storable (roundWithAccuracy .binary64 s m e .exact) := by
  simp only [roundWithAccuracy, shiftToTargetExponent, shiftToExponent, targetExponent_eq,
    totalExponent]
  refine storable_of_exponent ?_
  have hlog := @log2_rounded_le m (max ((m.log2 : Int) + 1 + e - 53) (-1074) - e).toNat (by omega)
  omega

lemma unpack_half : (0.5 : Float).toModel.unpack = .finite .positive (2 ^ 52) (-53) (by decide) :=
  rfl

/-- Half of a finite number is finite. -/
lemma isFinite_half (h : Scalar.isFinite x = true) : Scalar.isFinite (x * 0.5) = true := by
  have hx : x.toModel.unpack.isFinite = true := h
  have hnormal := normal x
  show (stored (UnpackedFloat.mul .binary64 x.toModel.unpack (0.5 : Float).toModel.unpack)).isFinite
    = true
  rw [unpack_half]
  rcases cases_of_isFinite hx with ⟨s, hu⟩ | ⟨s, m, e, hm, hu⟩
  · rw [hu]
    exact isFinite_stored trivial
  · rw [hu] at hnormal ⊢
    obtain ⟨hlt, hlow, hhigh, -⟩ := hnormal
    refine isFinite_stored (storable_round _ (by omega) ?_)
    have hlog : (m * 2 ^ 52).log2 < 105 := by
      refine (Nat.log2_lt (by positivity)).2 ?_
      calc m * 2 ^ 52 < 2 ^ 53 * 2 ^ 52 := Nat.mul_lt_mul_of_pos_right hlt (by decide)
        _ = 2 ^ 105 := by norm_num
    omega

/-- The size of a finite number is finite. -/
lemma isFinite_abs (h : Scalar.isFinite x = true) : Scalar.isFinite (Scalar.abs x) = true := by
  have hx : x.toModel.unpack.isFinite = true := h
  have hnormal := normal x
  show (stored x.toModel.unpack.abs).isFinite = true
  rcases cases_of_isFinite hx with ⟨s, hu⟩ | ⟨s, m, e, hm, hu⟩
  · rw [hu]
    exact isFinite_stored trivial
  · rw [hu] at hnormal ⊢
    exact isFinite_stored hnormal.2.2.1

/-- The product of finite numbers is defined. -/
lemma sign?_mul_ne_none {u v : UnpackedFloat} (hu : u.isFinite = true) (hv : v.isFinite = true) :
    sign? (UnpackedFloat.mul .binary64 u v) ≠ none := by
  rcases cases_of_isFinite hu with ⟨s, rfl⟩ | ⟨s, m, e, hm, rfl⟩
  · rcases cases_of_isFinite hv with ⟨t, rfl⟩ | ⟨t, m', e', hm', rfl⟩
    · exact Option.some_ne_none _
    · exact Option.some_ne_none _
  · rcases cases_of_isFinite hv with ⟨t, rfl⟩ | ⟨t, m', e', hm', rfl⟩
    · exact Option.some_ne_none _
    · rw [UnpackedFloat.mul, sign?_roundWithAccuracy]
      exact Option.some_ne_none _

end Double

open Double in
instance : Scalar.Lawful Float where
  irrefl x h := lt_irrefl _ ((lt_iff x x).1 h).2.2
  trans := by
    intro x y z hxy hyz
    rw [lt_iff] at *
    exact ⟨hxy.1, hyz.2.1, hxy.2.2.trans hyz.2.2⟩
  not_lt_of_le := by
    intro x y hle hlt
    exact absurd ((le_iff x y).1 hle).2.2 (not_le.2 ((lt_iff y x).1 hlt).2.2)
  lt_of_not_lt := by
    intro x y z hy hxy hxz
    rw [isUndefined_eq_false_iff] at hy
    rw [lt_iff] at *
    have hle : measure y ≤ measure x := not_lt.1 fun h => hxy ⟨hxz.1, hy, h⟩
    exact ⟨hy, hxz.2.1, hle.trans_lt hxz.2.2⟩
  lt_of_not_le := by
    intro x y z hxy hz hxz
    rw [isUndefined_eq_false_iff] at hz
    rw [le_iff] at hxy hxz
    rw [lt_iff]
    exact ⟨hz, hxy.1, not_le.1 fun h => hxz ⟨hxy.1, hz, h⟩⟩
  le_of_not_lt := by
    intro x y hx hy hxy
    rw [isUndefined_eq_false_iff] at hx hy
    rw [lt_iff] at hxy
    rw [le_iff]
    exact ⟨hy, hx, not_lt.1 fun h => hxy ⟨hx, hy, h⟩⟩
  lt_of_sub_lt := by
    intro x y z hx hy hsub hz
    rw [lt_iff] at *
    have hz : measure z ≤ 0 := not_lt.1 fun h => hz ⟨defined_zero, hsub.2.1, h⟩
    refine ⟨defined_of_isFinite hx, defined_of_isFinite hy, not_le.1 fun hle => ?_⟩
    have hnonneg := units_sub_nonneg (normal x) (normal y) hx hy hle
    exact absurd (hsub.2.2.trans_le hz) (not_lt.2 hnonneg)
  mul_nonneg := by
    intro x y hx hy
    rw [not_lt_zero_iff] at *
    exact units_mul_nonneg hx hy
  mul_nonpos := by
    intro x y hx hy
    rw [not_lt_zero_iff] at hx
    rw [not_zero_lt_iff] at *
    exact units_mul_nonpos hx hy
  one_nonneg := by decide
  half_nonneg := by decide
  tenth_nonneg := by decide
  isFinite_zero := rfl
  isFinite_one := rfl
  isFinite_abs := isFinite_abs
  isFinite_half := isFinite_half
  isUndefined_of_isFinite := by
    intro x h
    exact (isUndefined_eq_false_iff x).2 (defined_of_isFinite h)
  isUndefined_mul := by
    intro x y hx hy
    rw [isUndefined_eq_false_iff]
    intro hnan
    refine sign?_mul_ne_none hx hy ?_
    rw [← sign?_stored]
    exact congrArg sign? hnan

end SketchSolver
