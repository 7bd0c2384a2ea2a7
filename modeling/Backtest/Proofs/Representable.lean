import Mathlib
import Backtest.Number.Decimal

/-!
Numbers that binary64 holds exactly. A canonical mantissa and exponent have bits of their own, from
which they are read back, and a quotient of that value is rounded to those bits: what can be
represented is its own nearest number. The lemmas on the bits of a `Float` belong to no module of
the library below the whole of it.
-/

namespace Backtest.Proofs.Representable

open Backtest.Binary64
open Float.Model Float.Model.UnpackedFloat

/-- A mantissa and an exponent as they are kept in the bits of a number: a mantissa of less than 53
bits only at the least exponent. -/
structure IsCanonical (mantissa : Nat) (exponent : Int) : Prop where
  mantissa_lt : mantissa < 2 ^ 53
  normal : 2 ^ 52 ≤ mantissa ∨ exponent = -1074
  le_exponent : -1074 ≤ exponent
  exponent_le : exponent ≤ 971

/-- The bits of a canonical mantissa and exponent. -/
def encode (mantissa : Nat) (exponent : Int) : Nat :=
  (exponent + 1074).toNat * 2 ^ 52 + mantissa

theorem encode_lt {mantissa : Nat} {exponent : Int} (hcanonical : IsCanonical mantissa exponent) :
    encode mantissa exponent < infinityBits := by
  obtain ⟨hmantissaLt, -, -, hexponentLe⟩ := hcanonical
  have hsteps : (exponent + 1074).toNat ≤ 2045 := by omega
  change (exponent + 1074).toNat * 2 ^ 52 + mantissa < 2047 * 2 ^ 52
  omega

theorem isNaNBits_eq_false {bits : UInt64} (hsmall : bits.toNat ≤ infinityBits) :
    @isNaNBits Format.binary64 bits.toBitVec = false := by
  change bits.toNat ≤ 2047 * 2 ^ 52 at hsmall
  rw [isNaNBits, decide_eq_false_iff_not, unpackExponent_def, unpackMantissa_def]
  rintro ⟨hones, hfraction⟩
  have hfull := congrArg BitVec.toNat hones
  simp only [BitVec.extractLsb'_toNat, UInt64.toNat_toBitVec] at hfull
  change bits.toNat >>> 52 % 2 ^ 11 = 2047 at hfull
  rw [Nat.shiftRight_eq_div_pow] at hfull
  refine hfraction (BitVec.eq_of_toNat_eq ?_)
  simp only [BitVec.extractLsb'_toNat, UInt64.toNat_toBitVec]
  change bits.toNat % 2 ^ 52 = 0
  omega

theorem toNat_toBits_ofSignBits {bits : Nat} (hsmall : bits ≤ infinityBits) :
    (ofSignBits false bits).toBits.toNat = bits := by
  have hkept : (UInt64.ofNat bits).toNat = bits :=
    UInt64.toNat_ofNat_of_lt (lt_of_le_of_lt hsmall (by decide))
  have hpacked := @pack_unpack Format.binary64 (UInt64.ofNat bits).toBitVec
  rw [isNaNBits_eq_false (by rw [hkept]; exact hsmall)] at hpacked
  have hsame : (ofSignBits false bits).toBits = UInt64.ofNat bits :=
    congrArg UInt64.ofBitVec hpacked
  rw [hsame, hkept]

theorem ofSignBits_eq {x : Float} {negative : Bool} {bits : Nat}
    (hsame : x.toBits.toNat = if negative then 2 ^ 63 + bits else bits) :
    ofSignBits negative bits = x := by
  have hwhole : UInt64.ofNat (if negative then 2 ^ 63 + bits else bits) = x.toBits := by
    rw [← hsame, UInt64.ofNat_toNat]
  exact (congrArg Float.ofBits hwhole).trans (Float.ofBits_toBits x)

theorem parts_of_toBits {x : Float} {bits : Nat} (hsame : x.toBits.toNat = bits)
    (hsmall : bits ≤ infinityBits) :
    parts x =
      if bits / 2 ^ 52 = 2047 then .infinite false
      else if bits / 2 ^ 52 = 0 then .finite false (bits % 2 ^ 52) (-1074)
      else .finite false (2 ^ 52 + bits % 2 ^ 52) (((bits / 2 ^ 52 : Nat) : Int) - 1075) := by
  change bits ≤ 2047 * 2 ^ 52 at hsmall
  have hpositive : (bits / 2 ^ 63 == 1) = false := by
    rw [beq_eq_false_iff_ne]
    omega
  have hbiased : bits / 2 ^ 52 % 2048 = bits / 2 ^ 52 := Nat.mod_eq_of_lt (by omega)
  have hfraction (hfull : bits / 2 ^ 52 = 2047) : bits % 2 ^ 52 = 0 := by omega
  simp only [parts, hsame, Nat.pow_eq, hbiased, hpositive]
  split
  · next hfull => rw [if_pos (hfraction hfull)]
  · rfl

theorem parts_encode {mantissa : Nat} {exponent : Int}
    (hcanonical : IsCanonical mantissa exponent) :
    parts (ofSignBits false (encode mantissa exponent)) = .finite false mantissa exponent := by
  have hsmall := (encode_lt hcanonical).le
  rw [parts_of_toBits (toNat_toBits_ofSignBits hsmall) hsmall]
  obtain ⟨hmantissaLt, hnormal, hleExponent, hexponentLe⟩ := hcanonical
  unfold encode
  rcases lt_or_ge mantissa (2 ^ 52) with hshort | hfull
  · obtain rfl := hnormal.resolve_left (by omega)
    rw [if_neg (by omega), if_pos (by omega)]
    congr 1
    omega
  · rw [if_neg (by omega), if_neg (by omega)]
    congr 1 <;> omega

/-- A finite number is put together again from its parts. -/
theorem isCanonical_of_parts {x : Float} {negative : Bool} {mantissa : Nat} {exponent : Int}
    (hfinite : parts x = .finite negative mantissa exponent) :
    IsCanonical mantissa exponent ∧ ofSignBits negative (encode mantissa exponent) = x := by
  have hbitsLt : x.toBits.toNat < 2 ^ 64 := x.toBits.toNat_lt
  have hsigned {bits : Nat} (hfraction : x.toBits.toNat % 2 ^ 63 = bits) :
      x.toBits.toNat = if (x.toBits.toNat / 2 ^ 63 == 1) = true then 2 ^ 63 + bits else bits := by
    split
    · next hnegative =>
        rw [beq_iff_eq] at hnegative
        omega
    · next hpositive =>
        rw [beq_iff_eq] at hpositive
        omega
  unfold parts at hfinite
  simp only [Nat.pow_eq] at hfinite
  split at hfinite
  · split at hfinite <;> exact nomatch hfinite
  · split at hfinite
    · obtain ⟨rfl, rfl, rfl⟩ := Parts.finite.inj hfinite
      refine ⟨⟨by omega, .inr rfl, by omega, by omega⟩, ofSignBits_eq (hsigned ?_)⟩
      unfold encode
      omega
    · obtain ⟨rfl, rfl, rfl⟩ := Parts.finite.inj hfinite
      refine ⟨⟨by omega, .inl (by omega), by omega, by omega⟩, ofSignBits_eq (hsigned ?_)⟩
      unfold encode
      omega

theorem ofSignBits_of_infinite {x : Float} {negative : Bool}
    (hinfinite : parts x = .infinite negative) : ofSignBits negative infinityBits = x := by
  have hbitsLt : x.toBits.toNat < 2 ^ 64 := x.toBits.toNat_lt
  refine ofSignBits_eq ?_
  change _ = if negative = true then 2 ^ 63 + 2047 * 2 ^ 52 else 2047 * 2 ^ 52
  unfold parts at hinfinite
  simp only [Nat.pow_eq] at hinfinite
  split at hinfinite
  · split at hinfinite
    · obtain rfl := Parts.infinite.inj hinfinite
      split
      · next hnegative =>
          rw [beq_iff_eq] at hnegative
          omega
      · next hpositive =>
          rw [beq_iff_eq] at hpositive
          omega
    · exact nomatch hinfinite
  · split at hinfinite <;> exact nomatch hinfinite

theorem toBits_nan : (0.0 / 0.0 : Float).toBits.toBitVec = packedNaN Format.binary64 := by
  decide +kernel

theorem eq_nan_of_parts {x : Float} (hnan : parts x = .nan) : x = 0.0 / 0.0 := by
  have hfull : x.toBits.toNat / 2 ^ 52 % 2048 = 2047 ∧ x.toBits.toNat % 2 ^ 52 ≠ 0 := by
    unfold parts at hnan
    simp only [Nat.pow_eq] at hnan
    split at hnan
    · next hones =>
        split at hnan
        · exact nomatch hnan
        · next hfraction => exact ⟨hones, hfraction⟩
    · split at hnan <;> exact nomatch hnan
  have hbits : x.toBits.toBitVec = packedNaN Format.binary64 := by
    refine x.toModel.valid.eq_packedNaN (BitVec.eq_of_toNat_eq ?_) fun hnone => hfull.2 ?_
    · rw [unpackExponent_def, BitVec.extractLsb'_toNat]
      change x.toBits.toNat >>> 52 % 2 ^ 11 = 2047
      rw [Nat.shiftRight_eq_div_pow]
      exact hfull.1
    · rw [unpackMantissa_def] at hnone
      have hzero := congrArg BitVec.toNat hnone
      rw [BitVec.extractLsb'_toNat] at hzero
      exact hzero
  exact Float.toBits_inj.mp (congrArg UInt64.ofBitVec (hbits.trans toBits_nan.symm))

theorem parts_ofSignBits {bits : Nat} (hsmall : bits ≤ infinityBits) :
    parts (ofSignBits false bits) = .infinite false ∨
      ∃ mantissa exponent, parts (ofSignBits false bits) = .finite false mantissa exponent := by
  rw [parts_of_toBits (toNat_toBits_ofSignBits hsmall) hsmall]
  split
  · exact .inl rfl
  · split <;> exact .inr ⟨_, _, rfl⟩

/-- The value of `num / den` is the mantissa times that power of two. -/
def HasValue (num den mantissa : Nat) (exponent : Int) : Prop :=
  num * 2 ^ (-exponent).toNat = mantissa * (den * 2 ^ exponent.toNat)

theorem log2_bounds {num den mantissa : Nat} {exponent : Int}
    (hvalue : HasValue num den mantissa exponent) (hpositive : 0 < den)
    (hnonzero : 0 < mantissa) (hmantissaLt : mantissa < 2 ^ 53) :
    (num.log2 : Int) - den.log2 ≤ 53 + exponent ∧
      (2 ^ 52 ≤ mantissa → 52 + exponent ≤ (num.log2 : Int) - den.log2) := by
  unfold HasValue at hvalue
  generalize hup : (-exponent).toNat = a at hvalue
  generalize hdown : exponent.toNat = b at hvalue
  have hlow : 2 ^ den.log2 ≤ den := Nat.log2_self_le hpositive.ne'
  have hhigh : den < 2 ^ (den.log2 + 1) := Nat.lt_log2_self
  have hnumPos : num ≠ 0 := by
    rintro rfl
    rw [Nat.zero_mul] at hvalue
    have : 0 < mantissa * (den * 2 ^ b) := by positivity
    omega
  have hlow' : 2 ^ num.log2 ≤ num := Nat.log2_self_le hnumPos
  have hhigh' : num < 2 ^ (num.log2 + 1) := Nat.lt_log2_self
  constructor
  · have hbound : 2 ^ (num.log2 + a) < 2 ^ (53 + (den.log2 + 1) + b) := by
      calc 2 ^ (num.log2 + a) = 2 ^ num.log2 * 2 ^ a := pow_add ..
        _ ≤ num * 2 ^ a := Nat.mul_le_mul_right _ hlow'
        _ = mantissa * (den * 2 ^ b) := hvalue
        _ < 2 ^ 53 * (2 ^ (den.log2 + 1) * 2 ^ b) := by gcongr
        _ = 2 ^ (53 + (den.log2 + 1) + b) := by ring
    have := (Nat.pow_lt_pow_iff_right (by decide)).mp hbound
    omega
  · intro hfull
    have hbound : 2 ^ (52 + den.log2 + b) < 2 ^ (num.log2 + 1 + a) := by
      calc 2 ^ (52 + den.log2 + b) = 2 ^ 52 * (2 ^ den.log2 * 2 ^ b) := by
            rw [pow_add, pow_add, mul_assoc]
        _ ≤ mantissa * (den * 2 ^ b) := by gcongr
        _ = num * 2 ^ a := hvalue.symm
        _ < 2 ^ (num.log2 + 1) * 2 ^ a := by gcongr
        _ = 2 ^ (num.log2 + 1 + a) := (pow_add ..).symm
    have := (Nat.pow_lt_pow_iff_right (by decide)).mp hbound
    omega

theorem scaled_self {num den mantissa : Nat} {exponent : Int}
    (hvalue : HasValue num den mantissa exponent) :
    scaled num den exponent =
      (mantissa * (den * 2 ^ exponent.toNat), den * 2 ^ exponent.toNat) :=
  Prod.ext hvalue rfl

theorem hasValue_pred {num den mantissa : Nat} {exponent : Int}
    (hvalue : HasValue num den mantissa exponent) :
    HasValue num den (2 * mantissa) (exponent - 1) := by
  unfold HasValue at hvalue ⊢
  rcases lt_or_ge 0 exponent with hpositive | hnegative
  · obtain ⟨k, rfl⟩ : ∃ k : Nat, exponent = k + 1 := ⟨(exponent - 1).toNat, by omega⟩
    have hnone : (-((k : Int) + 1)).toNat = 0 := by omega
    have hnone' : (-((k : Int) + 1 - 1)).toNat = 0 := by omega
    have hup : ((k : Int) + 1).toNat = k + 1 := by omega
    have hup' : ((k : Int) + 1 - 1).toNat = k := by omega
    rw [hnone, hup] at hvalue
    rw [hnone', hup', hvalue, pow_succ]
    ring
  · obtain ⟨k, rfl⟩ : ∃ k : Nat, exponent = -k := ⟨(-exponent).toNat, by omega⟩
    have hnone : (-(k : Int)).toNat = 0 := by omega
    have hnone' : (-(k : Int) - 1).toNat = 0 := by omega
    have hup : (-(-(k : Int))).toNat = k := by omega
    have hup' : (-(-(k : Int) - 1)).toNat = k + 1 := by omega
    rw [hnone, hup] at hvalue
    rw [hnone', hup', pow_succ, ← mul_assoc, hvalue]
    ring

theorem spacing_eq {num den mantissa : Nat} {exponent : Int}
    (hvalue : HasValue num den mantissa exponent) (hpositive : 0 < den)
    (hnonzero : 0 < mantissa) (hcanonical : IsCanonical mantissa exponent) :
    spacing num den = exponent := by
  obtain ⟨hmantissaLt, hnormal, hleExponent, -⟩ := hcanonical
  obtain ⟨hupper, hlower⟩ := log2_bounds hvalue hpositive hnonzero hmantissaLt
  have hquotient {mantissa : Nat} {exponent : Int}
      (hvalue : HasValue num den mantissa exponent) :
      (scaled num den exponent).1 / (scaled num den exponent).2 = mantissa := by
    rw [scaled_self hvalue]
    exact Nat.mul_div_cancel _ (by positivity)
  unfold spacing
  simp only [Nat.pow_eq]
  generalize hlowest : max (-1074) ((num.log2 : Int) - den.log2 - 53) = low
  -- the logarithms leave two powers of two, and the size of the quotient tells them apart
  have hclose : low = exponent ∨ low = exponent - 1 ∧ 2 ^ 52 ≤ mantissa := by
    rcases hnormal with hfull | hleast
    · have := hlower hfull
      omega
    · omega
  rcases hclose with rfl | ⟨rfl, hfull⟩
  · rw [hquotient hvalue, if_neg (by omega)]
  · rw [hquotient (hasValue_pred hvalue), if_pos (by omega), sub_add_cancel]

/-- A quotient that can be represented is its own nearest number. -/
theorem nearestBits_eq {num den mantissa : Nat} {exponent : Int}
    (hvalue : HasValue num den mantissa exponent) (hpositive : 0 < den)
    (hnonzero : 0 < mantissa) (hcanonical : IsCanonical mantissa exponent) :
    nearestBits num den = encode mantissa exponent := by
  have hdivisor : 0 < den * 2 ^ exponent.toNat := by positivity
  have hrounded : roundDiv (mantissa * (den * 2 ^ exponent.toNat)) (den * 2 ^ exponent.toNat) =
      mantissa := by
    unfold roundDiv
    simp only [Nat.mul_mod_left, mul_zero]
    rw [if_pos hdivisor, Nat.mul_div_cancel _ hdivisor]
  unfold nearestBits
  rw [spacing_eq hvalue hpositive hnonzero hcanonical]
  simp only [scaled_self hvalue, hrounded]
  exact min_eq_right (encode_lt hcanonical).le

end Backtest.Proofs.Representable
