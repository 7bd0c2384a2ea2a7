import Backtest.Proofs.NumberText
import Backtest.Rule.Typing

namespace Backtest.Proofs.Period

open Backtest.Binary64
open Backtest.Rule
open Backtest.Proofs.Representable
open Backtest.Proofs.NumberText

/-- The whole number next to `x` on the side of zero. -/
def truncate (x : ℚ) : ℤ := if 0 ≤ x then ⌊x⌋ else ⌈x⌉

/-- The closest number from 1 to the largest of 64 bits. -/
def clamp (n : ℤ) : ℤ := max 1 (min (2 ^ 64 - 1) n)

/-- The value of a literal, truncated toward zero and clamped; 1 for NaN. -/
def truncatedPeriod (value : Float) : ℤ :=
  match parts value with
  | .nan => 1
  | .infinite negative => if negative then 1 else 2 ^ 64 - 1
  | .finite negative mantissa exponent =>
      clamp (truncate ((if negative then -1 else 1) * (mantissa * 2 ^ exponent)))

theorem floor_mul_zpow (mantissa : ℕ) (exponent : ℤ) :
    ⌊(mantissa : ℚ) * 2 ^ exponent⌋ =
      ((mantissa * 2 ^ exponent.toNat / 2 ^ (-exponent).toNat : ℕ) : ℤ) := by
  obtain ⟨up, hupEq⟩ : ∃ up, up = exponent.toNat := ⟨_, rfl⟩
  obtain ⟨down, hdownEq⟩ : ∃ down, down = (-exponent).toNat := ⟨_, rfl⟩
  have hpower : (2 : ℚ) ^ exponent = 2 ^ up / 2 ^ down := by
    rw [show exponent = (up : ℤ) - (down : ℤ) by omega, zpow_sub₀ two_ne_zero, zpow_natCast,
      zpow_natCast]
  have hquotient : (mantissa : ℚ) * 2 ^ exponent =
      ((mantissa * 2 ^ up : ℕ) : ℚ) / ((2 ^ down : ℕ) : ℚ) := by
    rw [hpower, ← mul_div_assoc]
    push_cast
    rfl
  rw [hquotient, Rat.floor_natCast_div_natCast, ← hupEq, ← hdownEq, Int.natCast_div]

theorem clamp_natCast (n : ℕ) : clamp n = (max 1 (min maxPeriod n) : ℕ) := by
  have hlargest : maxPeriod = 2 ^ 64 - 1 := rfl
  rw [clamp, hlargest]
  omega

theorem clamp_of_nonpos {n : ℤ} (hnonpos : n ≤ 0) : clamp n = 1 := by
  rw [clamp]
  omega

theorem truncate_nonpos {x : ℚ} (hnonpos : x ≤ 0) : truncate x ≤ 0 := by
  rw [truncate]
  split
  · next hnonneg => exact (Int.floor_le_ceil x).trans (Int.ceil_nonpos.mpr hnonpos)
  · exact Int.ceil_nonpos.mpr hnonpos

theorem periodOf_eq_truncatedPeriod (value : Float) :
    (periodOf value : ℤ) = truncatedPeriod value := by
  unfold periodOf truncatedPeriod
  cases parts value with
  | nan => rfl
  | infinite negative => cases negative <;> rfl
  | finite negative mantissa exponent =>
      have hmagnitude : (0 : ℚ) ≤ mantissa * 2 ^ exponent := by positivity
      cases negative with
      | false =>
          simp only [Bool.false_eq_true, if_false, one_mul, Nat.pow_eq]
          rw [truncate, if_pos hmagnitude, floor_mul_zpow, clamp_natCast]
      | true =>
          simp only [if_true, neg_one_mul]
          rw [clamp_of_nonpos (truncate_nonpos (neg_nonpos.mpr hmagnitude))]
          rfl

/-- The number is a mantissa of at most 53 bits times a power of two within range. -/
def IsExact (n : Nat) : Prop :=
  ∃ mantissa scale : Nat, n = mantissa * 2 ^ scale ∧ mantissa < 2 ^ 53 ∧ scale ≤ 971

theorem exists_canonical {n : Nat} (hexact : IsExact n) (hnonzero : 0 < n) :
    ∃ mantissa exponent, IsCanonical mantissa exponent ∧ 0 < mantissa ∧
      HasValue n 1 mantissa exponent := by
  obtain ⟨mantissa, scale, rfl, hmantissaLt, hscaleLe⟩ := hexact
  have hpositive : 0 < mantissa := Nat.pos_of_mul_pos_right hnonzero
  have hlow : 2 ^ mantissa.log2 ≤ mantissa := Nat.log2_self_le hpositive.ne'
  have hhigh : mantissa < 2 ^ (mantissa.log2 + 1) := Nat.lt_log2_self
  have hshort : mantissa.log2 ≤ 52 := by
    have := (Nat.log2_lt hpositive.ne').mpr hmantissaLt
    omega
  obtain ⟨shift, htotal⟩ : ∃ shift, mantissa.log2 + shift = 52 := ⟨52 - mantissa.log2, by omega⟩
  refine ⟨mantissa * 2 ^ shift, (scale : Int) - shift, ⟨?_, .inl ?_, by omega, by omega⟩,
    by positivity, ?_⟩
  · calc mantissa * 2 ^ shift < 2 ^ (mantissa.log2 + 1) * 2 ^ shift := by gcongr
      _ = 2 ^ 53 := by rw [← pow_add]; congr 1; omega
  · calc 2 ^ 52 = 2 ^ mantissa.log2 * 2 ^ shift := by rw [← pow_add, htotal]
      _ ≤ mantissa * 2 ^ shift := by gcongr
  · have hmoved : scale + (-((scale : Int) - shift)).toNat =
        shift + ((scale : Int) - shift).toNat := by omega
    rw [HasValue, mul_assoc, ← pow_add, hmoved, pow_add, one_mul, mul_assoc]

/-- The number that the digits of a whole number are read as. -/
def ofWhole (n : Nat) : Float := (Decimal.ofDigits (Nat.toDigits 10 n) []).toFloat

theorem ofWhole_eq {n : Nat} (hnonzero : 0 < n) :
    ofWhole n = ofSignBits false (nearestBits n 1) := by
  have hdigits : Decimal.ofDigits (Nat.toDigits 10 n) [] = { digits := n, exponent := 0 } := by
    rw [Decimal.ofDigits, List.append_nil, valueOf_toDigits]
    rfl
  have hnear : ¬(0 : Int) < -400 - n.log2 := by omega
  rw [ofWhole, hdigits, Decimal.toFloat, Decimal.magnitudeBits, if_neg hnonzero.ne',
    if_neg (show ¬(400 : Int) < 0 by decide), if_neg hnear]
  simp

theorem periodOf_ofWhole {n : Nat} (hexact : IsExact n) (hleast : 1 ≤ n)
    (hmost : n ≤ maxPeriod) : periodOf (ofWhole n) = n := by
  obtain ⟨mantissa, exponent, hcanonical, hnonzero, hvalue⟩ := exists_canonical hexact hleast
  have hwhole : mantissa * 2 ^ exponent.toNat / 2 ^ (-exponent).toNat = n := by
    rw [HasValue, one_mul] at hvalue
    rw [← hvalue, Nat.mul_div_cancel _ (by positivity)]
  rw [ofWhole_eq hleast, nearestBits_eq hvalue one_pos hnonzero hcanonical, periodOf,
    parts_encode hcanonical]
  simp only [Nat.pow_eq, hwhole]
  rw [min_eq_right hmost, max_eq_right hleast]

theorem isExact_whole {mantissa : Nat} {exponent : Int}
    (hcanonical : IsCanonical mantissa exponent) :
    IsExact (mantissa * 2 ^ exponent.toNat / 2 ^ (-exponent).toNat) := by
  obtain ⟨hmantissaLt, -, -, hexponentLe⟩ := hcanonical
  rcases lt_or_ge exponent 0 with hfractional | hwhole
  · have hnone : exponent.toNat = 0 := by omega
    refine ⟨mantissa / 2 ^ (-exponent).toNat, 0, ?_, ?_, by decide⟩
    · rw [hnone, pow_zero, mul_one, mul_one]
    · exact lt_of_le_of_lt (Nat.div_le_self _ _) hmantissaLt
  · have hnone : (-exponent).toNat = 0 := by omega
    exact ⟨mantissa, exponent.toNat, by rw [hnone, pow_zero, Nat.div_one], hmantissaLt, by omega⟩

theorem periodOf_cases (value : Float) :
    periodOf value = maxPeriod ∨
      IsExact (periodOf value) ∧ 1 ≤ periodOf value ∧ periodOf value ≤ maxPeriod := by
  have hone : IsExact 1 ∧ 1 ≤ 1 ∧ 1 ≤ maxPeriod :=
    ⟨⟨1, 0, rfl, by decide, by decide⟩, by decide, by decide⟩
  unfold periodOf
  split
  · next mantissa exponent hfinite =>
      have hexact := isExact_whole (isCanonical_of_parts hfinite).1
      simp only [Nat.pow_eq]
      generalize mantissa * 2 ^ exponent.toNat / 2 ^ (-exponent).toNat = whole at hexact ⊢
      rcases lt_or_ge whole 1 with hzero | hleast
      · rw [max_eq_left ((min_le_right _ _).trans hzero.le)]
        exact .inr hone
      · rcases lt_or_ge maxPeriod whole with hlarger | hmost
        · rw [min_eq_left hlarger.le]
          exact .inl (by decide)
        · rw [min_eq_right hmost, max_eq_right hleast]
          exact .inr ⟨hexact, hleast, hmost⟩
  · exact .inl rfl
  · exact .inr hone

theorem periodOf_ofWhole_maxPeriod : periodOf (ofWhole maxPeriod) = maxPeriod := by
  decide +kernel

/-- The period of any number is, written out, read as a number of that same period. -/
theorem periodOf_ofWhole_periodOf (value : Float) :
    periodOf (ofWhole (periodOf value)) = periodOf value := by
  rcases periodOf_cases value with hlargest | ⟨hexact, hleast, hmost⟩
  · rw [hlargest, periodOf_ofWhole_maxPeriod]
  · exact periodOf_ofWhole hexact hleast hmost

end Backtest.Proofs.Period
