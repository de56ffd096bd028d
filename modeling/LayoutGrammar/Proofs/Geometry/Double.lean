import LayoutGrammar.Geometry.Scalar
import Mathlib.Data.Nat.Log
import Mathlib.Tactic.Linarith

/-!
# Integers that doubles reach

An integer becomes a double by shifting its digits into a mantissa of 53 of them, and packing gives
an infinity only for an exponent beyond 971. None of the steps in between raises an exponent by more
than a few times the number of digits, so it is enough to follow how large mantissas and exponents
can get (`Within`): through rounding (`within_roundWithAccuracy`), multiplying (`within_mul`), and
packing and unpacking (`within_unpack_pack`). An integer of up to 64 digits does not come near an
infinity (`overflows_float_of_lt`).
-/

namespace LayoutGrammar.Double

open Float.Model (Format totalExponent UnpackedFloat)
open Float.Model.UnpackedFloat (Accuracy ExtendedMantissa Sign unpackExponent)

/-- Zero, or a finite number with bounds for the digits of its mantissa and for its exponent. -/
def Within (bits : Nat) (bound : Int) : UnpackedFloat → Prop
  | .zero _ => True
  | .finite _ m e _ => m < 2 ^ bits ∧ e ≤ bound
  | .infinity _ => False
  | .notANumber => False

instance (bits : Nat) (bound : Int) : (f : UnpackedFloat) → Decidable (Within bits bound f)
  | .zero _ => .isTrue trivial
  | .finite _ m e _ => inferInstanceAs (Decidable (m < 2 ^ bits ∧ e ≤ bound))
  | .infinity _ | .notANumber => .isFalse id

variable {bits bits' : Nat} {bound bound' : Int} {f g : UnpackedFloat}

namespace Within

theorem isInf (h : Within bits bound f) : f.isInf = false := by
  cases f with
  | infinity _ => exact h.elim
  | notANumber | zero _ | finite _ _ _ _ => rfl

theorem mono (h : Within bits bound f) (hle : bound ≤ bound') : Within bits bound' f := by
  cases f with
  | infinity _ | notANumber => exact h.elim
  | zero _ => trivial
  | finite _ _ _ _ => exact ⟨h.1, h.2.trans hle⟩

theorem neg (h : Within bits bound f) : Within bits bound f.neg := by
  cases f with
  | infinity _ | notANumber => exact h.elim
  | zero _ => trivial
  | finite _ _ _ _ => exact h

end Within

/-! ## Rounding -/

theorem mantissa_shiftRight_le (em : ExtendedMantissa) (n : Nat) :
    (em >>> n).mantissa ≤ em.mantissa := by
  change (n.repeat ExtendedMantissa.shiftRightOne em).mantissa ≤ _
  induction n with
  | zero => exact le_refl _
  | succ n ih => exact (Nat.div_le_self _ _).trans ih

theorem roundedMantissa_le (em : ExtendedMantissa) : em.roundedMantissa ≤ em.mantissa + 1 := by
  obtain ⟨m, round, sticky⟩ := em
  have heven : m + m % 2 ≤ m + 1 := by omega
  cases round <;> cases sticky
  · exact Nat.le_succ m
  · exact Nat.le_succ m
  · exact heven
  · exact le_refl _

theorem targetExponent_eq (total : Int) :
    Format.binary64.targetExponent total = max (total - 53) (-1074) := by
  unfold Format.targetExponent
  rfl

/-- The target exponent is above the exponent by no more than the digits of the mantissa. -/
theorem targetExponent_le {m : Nat} {e : Int} (hm : m < 2 ^ bits) (hbits : 0 < bits)
    (he : e ≤ bound) (hbound : 0 ≤ bound) :
    Format.binary64.targetExponent (totalExponent m e) ≤ bound + bits := by
  have hlog : m.log2 < bits := by
    by_cases hzero : m = 0
    · rw [hzero, Nat.log2_zero]
      omega
    · exact (Nat.log2_lt hzero).2 hm
  rw [targetExponent_eq, totalExponent]
  omega

theorem shiftToTargetExponent_le {m : Nat} {e : Int} (accuracy : Accuracy) (hm : m < 2 ^ bits)
    (hbits : 0 < bits) (he : e ≤ bound) (hbound : 0 ≤ bound) :
    (UnpackedFloat.shiftToTargetExponent .binary64 m e accuracy).1.mantissa ≤ m ∧
      (UnpackedFloat.shiftToTargetExponent .binary64 m e accuracy).2 ≤ bound + bits := by
  have htarget := targetExponent_le hm hbits he hbound
  have hshifted : (UnpackedFloat.shiftToTargetExponent .binary64 m e accuracy).2 =
    e + (Format.binary64.targetExponent (totalExponent m e) - e).toNat := rfl
  refine ⟨?_, by omega⟩
  refine (mantissa_shiftRight_le _ _).trans (le_of_eq ?_)
  cases accuracy with
  | exact => rfl
  | inexact position => cases position <;> rfl

/-- Rounding shifts twice: away from too many digits, and once more if rounding up adds one. -/
theorem within_roundWithAccuracy (bits : Nat) (bound : Int) {m : Nat} {e : Int} (sign : Sign)
    (accuracy : Accuracy) (hm : m < 2 ^ bits) (hbits : 0 < bits) (he : e ≤ bound)
    (hbound : 0 ≤ bound) :
    Within (bits + 1) (bound + 2 * bits + 1)
      (UnpackedFloat.roundWithAccuracy .binary64 sign m e accuracy) := by
  obtain ⟨hmantissa, hexponent⟩ := shiftToTargetExponent_le accuracy hm hbits he hbound
  unfold UnpackedFloat.roundWithAccuracy
  generalize UnpackedFloat.shiftToTargetExponent .binary64 m e accuracy = shifted at *
  obtain ⟨em, e'⟩ := shifted
  have hrounded : em.roundedMantissa < 2 ^ (bits + 1) := by
    have hle : em.roundedMantissa ≤ em.mantissa + 1 := roundedMantissa_le em
    have hle' : em.mantissa ≤ m := hmantissa
    have hdouble : 2 ^ (bits + 1) = 2 ^ bits + 2 ^ bits := by rw [Nat.pow_succ, Nat.mul_two]
    omega
  obtain ⟨hfinal, hfinal'⟩ :=
    shiftToTargetExponent_le .exact hrounded (by omega) hexponent (by omega)
  dsimp only at hfinal hfinal' ⊢
  by_cases hzero :
      (UnpackedFloat.shiftToTargetExponent .binary64 em.roundedMantissa e' .exact).1.mantissa = 0
  · rw [dif_pos hzero]
    trivial
  · rw [dif_neg hzero]
    refine ⟨hfinal.trans_lt hrounded, ?_⟩
    push_cast at hfinal'
    linarith

theorem mul_finite (s s' : Sign) (m m' : Nat) (e e' : Int) (hm : 0 < m) (hm' : 0 < m') :
    UnpackedFloat.mul .binary64 (.finite s m e hm) (.finite s' m' e' hm') =
      UnpackedFloat.roundWithAccuracy .binary64 (s * s') (m * m') (e + e') .exact := rfl

theorem within_mul (hf : Within bits bound f) (hg : Within bits' bound' g)
    (hbits : 0 < bits + bits') (hbound : 0 ≤ bound + bound') :
    Within (bits + bits' + 1) (bound + bound' + 2 * (bits + bits' : Nat) + 1)
      (UnpackedFloat.mul .binary64 f g) := by
  cases f with
  | infinity _ | notANumber => exact hf.elim
  | zero _ =>
    cases g with
    | infinity _ | notANumber => exact hg.elim
    | zero _ | finite _ _ _ _ => trivial
  | finite s m e hm =>
    cases g with
    | infinity _ | notANumber => exact hg.elim
    | zero _ => trivial
    | finite s' m' e' hm' =>
      have hlt : m * m' < 2 ^ (bits + bits') := by
        rw [Nat.pow_add]
        exact Nat.mul_lt_mul'' hf.1 hg.1
      rw [mul_finite]
      exact within_roundWithAccuracy _ _ _ .exact hlt hbits (add_le_add hf.2 hg.2) hbound

/-! ## Packing -/

theorem within_unpack {b : BitVec Format.binary64.numBits} {k : Nat}
    (h : (unpackExponent b).toNat ≤ k) (hpos : 1 ≤ k) (hk : k < 2047) :
    Within 53 (k - 1075) (UnpackedFloat.unpack .binary64 b) := by
  have hfinite : unpackExponent b ≠ -1#_ := by
    intro hones
    rw [hones] at h
    change 2047 ≤ k at h
    omega
  unfold UnpackedFloat.unpack
  dsimp only
  rw [if_neg hfinite]
  by_cases hsubnormal : unpackExponent b = 0#_
  · rw [if_pos hsubnormal]
    by_cases hzero : UnpackedFloat.unpackMantissa b = 0#_
    · rw [dif_pos hzero]
      trivial
    · -- the exponent of a subnormal number is one more than what is stored
      rw [dif_neg hzero]
      refine ⟨lt_trans (BitVec.isLt _) (by decide), ?_⟩
      rw [hsubnormal]
      change (0 : Int) - (1023 + 52) + 1 ≤ k - 1075
      omega
  · rw [if_neg hsubnormal]
    refine ⟨BitVec.isLt _, ?_⟩
    change ((unpackExponent b).toNat : Int) - (1023 + 52) ≤ k - 1075
    omega

theorem unpackExponent_pack (h : Within bits bound f) (hbound : bound ≤ 971) :
    (unpackExponent (UnpackedFloat.pack .binary64 f)).toNat ≤ (bound + 1075).toNat := by
  cases f with
  | infinity _ | notANumber => exact h.elim
  | zero sign =>
    change (unpackExponent (UnpackedFloat.packComponents .binary64 sign 0 0)).toNat ≤ _
    rw [UnpackedFloat.unpackExponent_packComponents]
    exact Nat.zero_le _
  | finite sign m e hm =>
    have he : e ≤ bound := h.2
    have hbiased : (e + 1023 + 52).toNat ≤ (bound + 1075).toNat := by omega
    change (unpackExponent (if 2048 ≤ (e + 1023 + 52).toNat + 1 then _
      else if m.log2 + 1 = 53 then UnpackedFloat.packComponents _ _ _ _
      else UnpackedFloat.packComponents _ _ _ _)).toNat ≤ _
    rw [if_neg (by omega)]
    split
    · rw [UnpackedFloat.unpackExponent_packComponents, BitVec.toNat_ofNat]
      exact (Nat.mod_le _ _).trans hbiased
    · rw [UnpackedFloat.unpackExponent_packComponents]
      exact Nat.zero_le _

/-- Packing a number whose exponent is small enough does not make it larger. -/
theorem within_unpack_pack (h : Within bits bound f) (hlow : -1074 ≤ bound)
    (hhigh : bound ≤ 971) : Within 53 bound (Float.Model.pack f).unpack := by
  have hexponent := unpackExponent_pack h hhigh
  have hwithin := within_unpack hexponent (by omega) (by omega)
  have hbias : ((bound + 1075).toNat : Int) - 1075 = bound := by omega
  rw [hbias] at hwithin
  exact hwithin

/-! ## Integers -/

variable {n : Nat}

theorem within_ofNat (h : n < 2 ^ 53) : Within 107 213 (UnpackedFloat.ofNat .binary64 n) := by
  unfold UnpackedFloat.ofNat UnpackedFloat.ofInt UnpackedFloat.normalize
  split
  · next hlt => exact absurd (Int.compare_eq_lt.1 hlt) (by omega)
  · trivial
  · rw [Int.toNat_natCast]
    unfold UnpackedFloat.round UnpackedFloat.decreaseExponent
    dsimp only
    have htarget : -52 ≤ Format.binary64.targetExponent (totalExponent n 0) := by
      rw [targetExponent_eq, totalExponent]
      omega
    generalize Format.binary64.targetExponent (totalExponent n 0) = target at *
    have hshifted : n <<< (0 - target).toNat < 2 ^ 106 := by
      rw [Nat.shiftLeft_eq]
      calc n * 2 ^ (0 - target).toNat < 2 ^ 53 * 2 ^ 53 :=
            Nat.mul_lt_mul'' h (Nat.pow_lt_pow_right (by decide) (by omega))
        _ = 2 ^ 106 := by decide
    exact within_roundWithAccuracy 106 0 .positive .exact hshifted (by decide) (by omega)
      (by decide)

theorem within_ofScientific (h : n < 2 ^ 64) :
    Within 118 235 (UnpackedFloat.ofScientific .binary64 n 0) := by
  unfold UnpackedFloat.ofScientific
  by_cases hzero : n = 0
  · rw [dif_pos hzero]
    trivial
  · have hrange : (2 : Int) ^ Format.binary64.exponentBits = 2048 := by decide
    rw [dif_neg hzero, if_neg (by decide), if_neg (by omega), if_pos (le_refl 0), mul_finite]
    have hshifted : n <<< Format.binary64.mantissaBits * 10 ^ (0 : Int).toNat < 2 ^ 117 := by
      rw [Nat.shiftLeft_eq, Int.toNat_zero, pow_zero, mul_one]
      calc n * 2 ^ 53 < 2 ^ 64 * 2 ^ 53 := Nat.mul_lt_mul_of_pos_right h (by decide)
        _ = 2 ^ 117 := by decide
    generalize n <<< Format.binary64.mantissaBits * 10 ^ (0 : Int).toNat = m at *
    exact within_roundWithAccuracy 117 0 _ .exact hshifted (by decide) (by decide) (by decide)

theorem within_float_ofNat (h : n < 2 ^ 64) : Within 53 426 (Float.ofNat n).toModel.unpack := by
  change Within 53 426 (Float.ofScientific n false 0).toModel.unpack
  unfold Float.ofScientific
  split
  · -- a number of 53 digits is converted exactly and multiplied by one
    next hshort =>
    have hone : Within 53 0 (Float.ofBits 0x3FF0000000000000).toModel.unpack := by decide +kernel
    have hn : Within 53 213 (n.toUInt64.toFloat).toModel.unpack := by
      refine within_unpack_pack (within_ofNat ?_) (by decide) (by decide)
      rw [UInt64.toNat_ofNat']
      exact (Nat.mod_le _ _).trans_lt hshort.1
    have hproduct := within_mul hn hone (by decide) (by decide)
    exact within_unpack_pack hproduct (by decide) (by decide)
  · exact (within_unpack_pack (within_ofScientific h) (by decide) (by decide)).mono (by decide)

end Double

/-- An integer of up to 64 binary digits is no larger than every double. -/
theorem Scalar.overflows_float_of_lt {n : Int} (h : n.natAbs < 2 ^ 64) :
    Scalar.overflows Float n = false := by
  cases n with
  | ofNat n => exact (Double.within_float_ofNat h).isInf
  | negSucc n =>
    have hneg := (Double.within_float_ofNat h).neg
    exact (Double.within_unpack_pack hneg (by decide) (by decide)).isInf

end LayoutGrammar
