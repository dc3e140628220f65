import Mathlib
import SketchSolver.Proofs.Double

/-!
# Products that are not rounded

A number survives being unpacked and packed again (`pack_unpack`), and a significand that is only
shifted survives rounding (`round_shifted`).  So multiplying by one changes nothing (`one_mul_eq`)
and multiplying by minus one turns the sign (`neg_one_mul_eq`), for every number there is.
-/

namespace SketchSolver

namespace Double

open Float.Model Float.Model.UnpackedFloat

/-! ## Packing -/

/-- The bits of a number are those of its components. -/
lemma packComponents_unpack (b : BitVec Format.binary64.numBits) :
    packComponents .binary64 (Sign.ofBitVec (unpackSign b)) (unpackExponent b) (unpackMantissa b) =
      b := by
  have hsign : (Sign.ofBitVec (unpackSign b)).toBitVec = unpackSign b := by
    generalize unpackSign b = sign
    revert sign
    decide
  rw [packComponents, hsign]
  simp only [unpackSign, unpackExponent, unpackMantissa, BitVec.extractLsb]
  ext i hi
  grind

section

variable {b : BitVec Format.binary64.numBits}

lemma packComponents_eq {e : BitVec 11} {m : BitVec 52} (he : unpackExponent b = e)
    (hm : unpackMantissa b = m) :
    packComponents .binary64 (Sign.ofBitVec (unpackSign b)) e m = b := by
  subst he hm
  exact packComponents_unpack b

/-- A significand with full precision is packed without its leading bit. -/
lemma pack_full {s : Sign} {m : Nat} {e : Int} (hm : 0 < m) (hu : Full m e) (hfull : 2 ^ 52 ≤ m) :
    UnpackedFloat.pack .binary64 (.finite s m e hm) =
      packComponents .binary64 s (BitVec.ofNat 11 (e + 1075).toNat) (BitVec.ofNat 52 m) := by
  obtain ⟨hlt, hlow, hhigh, -⟩ := hu
  have hbias : ((Format.binary64.exponentBias : Int) + (52 : Nat)) = 1075 := by decide
  have hlog : m.log2 + 1 = Format.binary64.mantissaBits :=
    le_antisymm ((Nat.log2_lt hm.ne').2 hlt) (Nat.succ_le_succ ((Nat.le_log2 hm.ne').2 hfull))
  simp only [UnpackedFloat.pack, add_assoc, hbias]
  rw [if_neg (by omega), if_pos hlog]

/-- A significand without full precision is packed as it is, with the least exponent. -/
lemma pack_small {s : Sign} {m : Nat} (hm : 0 < m) (hlt : m < 2 ^ 52) :
    UnpackedFloat.pack .binary64 (.finite s m (-1074) hm) =
      packComponents .binary64 s 0#11 (BitVec.ofNat 52 m) := by
  have hlog : ¬ m.log2 + 1 = Format.binary64.mantissaBits := by
    have hless := (Nat.log2_lt hm.ne').2 hlt
    have hbits : Format.binary64.mantissaBits = 53 := rfl
    omega
  have hleast : ((-1074 : Int) + Format.binary64.exponentBias + (52 : Nat)).toNat = 1 := by decide
  simp only [UnpackedFloat.pack, hleast]
  rw [if_neg (by decide), if_neg hlog]

/-- **Packing what has been unpacked** gives the same bits again. -/
lemma pack_unpack (hb : Format.binary64.Valid b) :
    UnpackedFloat.pack .binary64 (UnpackedFloat.unpack .binary64 b) = b := by
  have hnormal := normal_unpack b
  have hbias : ((Format.binary64.exponentBias : Int) + (52 : Nat)) = 1075 := by decide
  have hm : (unpackMantissa b).toNat < 2 ^ 52 := (unpackMantissa b).isLt
  simp only [UnpackedFloat.unpack, hbias] at hnormal ⊢
  split_ifs at hnormal ⊢ with hall hzero hleast hnone
  · exact packComponents_eq hall hzero
  · exact (hb.eq_packedNaN hall hzero).symm
  · exact packComponents_eq hleast hnone
  · have hexponent : ((0#11).toNat : Int) - 1075 + 1 = -1074 := by decide
    simp only [hleast, hexponent]
    rw [pack_small _ hm]
    exact packComponents_eq hleast (by rw [BitVec.ofNat_toNat, BitVec.setWidth_eq])
  · have hnat : (1#1 ++ unpackMantissa b).toNat = 2 ^ 52 + (unpackMantissa b).toNat := by
      rw [BitVec.toNat_append, ← Nat.shiftLeft_add_eq_or_of_lt hm]
      rfl
    rw [pack_full _ hnormal (by omega)]
    refine packComponents_eq (BitVec.eq_of_toNat_eq ?_) (BitVec.eq_of_toNat_eq ?_)
    · have hlt : (unpackExponent b).toNat < 2 ^ 11 := (unpackExponent b).isLt
      rw [BitVec.toNat_ofNat, sub_add_cancel, Int.toNat_natCast, Nat.mod_eq_of_lt hlt]
    · rw [BitVec.toNat_ofNat, hnat, Nat.add_mod_left, Nat.mod_eq_of_lt hm]

end

/-- A number is the only one that is unpacked the way it is. -/
lemma ofModel_pack_unpack (x : Float) : Float.ofModel (Float.Model.pack x.toModel.unpack) = x := by
  obtain ⟨⟨bits, hvalid⟩⟩ := x
  have hbits := pack_unpack hvalid
  simp only [Float.Model.pack, Float.Model.unpack, hbits]

/-- What the format has is stored as it is. -/
lemma stored_of_full (s : Sign) {m : Nat} {e : Int} (hm : 0 < m) (hu : Full m e) :
    stored (.finite s m e hm) = .finite s m e hm := by
  obtain ⟨hlt, hlow, hhigh, hleast⟩ := id hu
  have hbias : ((Format.binary64.exponentBias : Int) + (52 : Nat)) = 1075 := by decide
  by_cases hfull : 2 ^ 52 ≤ m
  · have hexponent : (BitVec.ofNat 11 (e + 1075).toNat).toNat = (e + 1075).toNat := by
      rw [BitVec.toNat_ofNat, Nat.mod_eq_of_lt (by omega)]
    have hmantissa : (1#1 ++ BitVec.ofNat 52 m).toNat = m := by
      rw [BitVec.toNat_append, ← Nat.shiftLeft_add_eq_or_of_lt (BitVec.ofNat 52 m).isLt,
        BitVec.toNat_ofNat]
      show 2 ^ 52 + m % 2 ^ 52 = m
      omega
    have hall : BitVec.ofNat 11 (e + 1075).toNat ≠ -1#11 := fun h => by
      have h := congrArg BitVec.toNat h
      have hall : (-1#11).toNat = 2 ^ 11 - 1 := rfl
      omega
    have hzero : BitVec.ofNat 11 (e + 1075).toNat ≠ 0#11 := fun h => by
      have h := congrArg BitVec.toNat h
      have hzero : (0#11).toNat = 0 := rfl
      omega
    rw [stored, pack_full hm hu hfull]
    simp only [UnpackedFloat.unpack, unpackMantissa_packComponents, unpackExponent_packComponents,
      unpackSign_packComponents, Sign.ofBitVec_toBitVec, hbias]
    rw [if_neg hall, if_neg hzero]
    simp only [hmantissa, hexponent]
    congr 1
    omega
  · obtain rfl : e = -1074 := hleast.resolve_left hfull
    have hmantissa : (BitVec.ofNat 52 m).toNat = m := by
      rw [BitVec.toNat_ofNat, Nat.mod_eq_of_lt (by omega)]
    have hnone : BitVec.ofNat 52 m ≠ 0#52 := fun h => by
      have h := congrArg BitVec.toNat h
      have hzero : (0#52).toNat = 0 := rfl
      omega
    rw [stored, pack_small hm (by omega)]
    simp only [UnpackedFloat.unpack, unpackMantissa_packComponents, unpackExponent_packComponents,
      unpackSign_packComponents, Sign.ofBitVec_toBitVec, hbias]
    rw [if_neg (by decide), if_pos trivial, dif_neg hnone]
    simp only [hmantissa]
    rfl

/-! ## Rounding -/

/-- Shifting out zeros loses nothing. -/
lemma shiftRight_shifted (m k : Nat) :
    (ExtendedMantissa.ofMantissaAndAccuracy (m * 2 ^ k) .exact) >>> k =
      ExtendedMantissa.ofMantissaAndAccuracy m .exact := by
  induction k generalizing m with
  | zero => rw [pow_zero, mul_one]; rfl
  | succ k ih =>
      have hshift : ExtendedMantissa.ofMantissaAndAccuracy (m * 2 ^ (k + 1)) .exact >>> (k + 1) =
          (ExtendedMantissa.ofMantissaAndAccuracy (m * 2 * 2 ^ k) .exact >>> k).shiftRightOne := by
        rw [pow_succ', ← mul_assoc]
        rfl
      rw [hshift, ih, ExtendedMantissa.ofMantissaAndAccuracy, ExtendedMantissa.shiftRightOne]
      simp [ExtendedMantissa.ofMantissaAndAccuracy]

lemma log2_shifted {m : Nat} (k : Nat) (hm : 0 < m) : (m * 2 ^ k).log2 = m.log2 + k := by
  induction k with
  | zero => rw [pow_zero, mul_one, add_zero]
  | succ k ih =>
      rw [pow_succ', ← mul_assoc, mul_right_comm, mul_comm, Nat.log2_two_mul (by positivity), ih,
        add_assoc]

/-- A significand is shifted to the place that the format has for it. -/
lemma shiftToTargetExponent_shifted {m : Nat} {e : Int} (k : Nat) (hm : 0 < m) (hu : Full m e) :
    shiftToTargetExponent .binary64 (m * 2 ^ k) (e - k) .exact =
      (ExtendedMantissa.ofMantissaAndAccuracy m .exact, e) := by
  obtain ⟨hlt, hlow, -, hleast⟩ := hu
  have hlog := log2_shifted k hm
  have hbound : m.log2 ≤ 52 := Nat.lt_succ_iff.1 ((Nat.log2_lt hm.ne').2 hlt)
  have hfull : m.log2 = 52 ∨ e = -1074 :=
    hleast.imp_left fun h => le_antisymm hbound ((Nat.le_log2 hm.ne').2 h)
  have htarget : Format.binary64.targetExponent (totalExponent (m * 2 ^ k) (e - k)) = e := by
    rw [targetExponent_eq, totalExponent, hlog]
    omega
  have hamount : (e - (e - k)).toNat = k := by omega
  rw [shiftToTargetExponent, htarget, shiftToExponent]
  simp only [hamount, shiftRight_shifted, sub_add_cancel]

/-- **A significand that is only shifted** is not rounded. -/
lemma round_shifted (s : Sign) {m : Nat} {e : Int} (k : Nat) (hm : 0 < m) (hu : Full m e) :
    roundWithAccuracy .binary64 s (m * 2 ^ k) (e - k) .exact = .finite s m e hm := by
  have hagain := shiftToTargetExponent_shifted 0 hm hu
  rw [pow_zero, mul_one, Nat.cast_zero, sub_zero] at hagain
  have hrounded : (ExtendedMantissa.ofMantissaAndAccuracy m .exact).roundedMantissa = m := rfl
  simp only [roundWithAccuracy, shiftToTargetExponent_shifted k hm hu, hrounded, hagain]
  exact dif_neg hm.ne'

/-! ## One -/

/-- A number of size one only contributes its sign. -/
lemma mul_unit (s : Sign) {u : UnpackedFloat} (hu : Normal u) :
    UnpackedFloat.mul .binary64 (.finite s (2 ^ 52) (-52) (by decide)) u =
      match s with
      | .positive => u
      | .negative => u.neg := by
  have hsign : ∀ t : Sign, s * t = match s with
      | .positive => t
      | .negative => -t := by
    intro t
    cases s <;> cases t <;> rfl
  cases u with
  | notANumber => cases s <;> rfl
  | infinity t => cases s <;> cases t <;> rfl
  | zero t => cases s <;> cases t <;> rfl
  | finite t m e hm =>
      have hround := round_shifted (s * t) 52 hm hu
      rw [UnpackedFloat.mul, mul_comm (2 ^ 52) m, neg_add_eq_sub]
      refine hround.trans ?_
      cases s <;> cases t <;> rfl

lemma one_mul_eq (x : Float) : 1 * x = x := by
  refine Eq.trans ?_ (ofModel_pack_unpack x)
  exact congrArg (Float.ofModel ∘ Float.Model.pack) (mul_unit .positive (normal x))

lemma neg_one_mul_eq (x : Float) : -1 * x = -x :=
  congrArg (Float.ofModel ∘ Float.Model.pack) (mul_unit .negative (normal x))

end Double

end SketchSolver
