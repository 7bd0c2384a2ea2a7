import Mathlib.Data.Prod.Lex
import Mathlib.Tactic.NormNum
import Backtest.Number.Scalar

namespace Backtest.Proofs.FloatOrder

open Float.Model

/-- Where a number stands among the others: the side of zero that it is on, and its place there. -/
def key? : UnpackedFloat → Option (ℤ ×ₗ ℤ ×ₗ ℤ)
  | .notANumber => none
  | .infinity .negative => some (toLex (-2, toLex (0, 0)))
  | .finite .negative mantissa exponent _ => some (toLex (-1, toLex (-exponent, -mantissa)))
  | .zero _ => some (toLex (0, toLex (0, 0)))
  | .finite .positive mantissa exponent _ => some (toLex (1, toLex (exponent, mantissa)))
  | .infinity .positive => some (toLex (2, toLex (0, 0)))

theorem compare_sign_eq_lt {sign sign' : UnpackedFloat.Sign} :
    compare sign sign' = .lt ↔ sign = .negative ∧ sign' = .positive := by
  cases sign <;> cases sign' <;> simp [compare]

theorem then_compare_eq_lt {e e' : ℤ} {m m' : ℕ} :
    (compare e e').then (compare m m') = .lt ↔ e < e' ∨ e = e' ∧ m < m' := by
  rw [Ordering.then_eq_lt, compare_lt_iff_lt, compare_eq_iff_eq, compare_lt_iff_lt]

theorem then_compare_eq_gt {e e' : ℤ} {m m' : ℕ} :
    (compare e e').then (compare m m') = .gt ↔ e' < e ∨ e = e' ∧ m' < m := by
  rw [Ordering.then_eq_gt, compare_gt_iff_gt, compare_eq_iff_eq, compare_gt_iff_gt]

theorem compare_sign_isLE {sign sign' : UnpackedFloat.Sign} :
    (compare sign sign').isLE = true ↔ sign = .negative ∨ sign' = .positive := by
  cases sign <;> cases sign' <;> simp [compare]

theorem then_compare_isLE {e e' : ℤ} {m m' : ℕ} :
    ((compare e e').then (compare m m')).isLE = true ↔ e < e' ∨ e = e' ∧ m ≤ m' := by
  rw [Ordering.isLE_iff_ne_gt, then_compare_eq_gt]
  omega

theorem then_compare_isGE {e e' : ℤ} {m m' : ℕ} :
    ((compare e e').then (compare m m')).isGE = true ↔ e' < e ∨ e = e' ∧ m' ≤ m := by
  rw [Ordering.isGE_iff_ne_lt, then_compare_eq_lt]
  omega

theorem compare_eq_lt_iff (x y : UnpackedFloat) :
    x.compare y = some .lt ↔ ∃ k ∈ key? x, ∃ k' ∈ key? y, k < k' := by
  rcases x with (_ | _) | _ | (_ | _) | ⟨_ | _, m, e, hm⟩ <;>
    rcases y with (_ | _) | _ | (_ | _) | ⟨_ | _, m', e', hm'⟩ <;>
    dsimp only [UnpackedFloat.compare, key?] <;>
    simp [Prod.Lex.toLex_lt_toLex, compare_sign_eq_lt, then_compare_eq_lt, then_compare_eq_gt]

theorem any_isLE_compare_iff (x y : UnpackedFloat) :
    (x.compare y).any Ordering.isLE = true ↔ ∃ k ∈ key? x, ∃ k' ∈ key? y, k ≤ k' := by
  rcases x with (_ | _) | _ | (_ | _) | ⟨_ | _, m, e, hm⟩ <;>
    rcases y with (_ | _) | _ | (_ | _) | ⟨_ | _, m', e', hm'⟩ <;>
    dsimp only [UnpackedFloat.compare, key?] <;>
    simp [Prod.Lex.toLex_le_toLex, compare_sign_isLE, then_compare_isLE, then_compare_isGE]

theorem exists_key {x : UnpackedFloat} (h : x.isNaN = false) : ∃ k, k ∈ key? x := by
  rcases x with (_ | _) | _ | (_ | _) | ⟨_ | _, m, e, hm⟩
  case notANumber => exact absurd h (by decide)
  all_goals exact ⟨_, rfl⟩

theorem lt_iff {a b : Float} :
    a < b ↔ ∃ k ∈ key? a.toModel.unpack, ∃ k' ∈ key? b.toModel.unpack, k < k' := by
  rw [← compare_eq_lt_iff]
  exact decide_eq_true_iff.trans beq_iff_eq

theorem le_iff {a b : Float} :
    a ≤ b ↔ ∃ k ∈ key? a.toModel.unpack, ∃ k' ∈ key? b.toModel.unpack, k ≤ k' := by
  rw [← any_isLE_compare_iff]
  exact decide_eq_true_iff

theorem scalar_lt_iff {a b : Float} : Scalar.lt a b = true ↔ a < b := decide_eq_true_iff

theorem not_lt_self (a : Float) : ¬a < a := by
  intro h
  obtain ⟨k, hk, k', hk', hlt⟩ := lt_iff.mp h
  obtain rfl : k = k' := Option.some.inj (hk.symm.trans hk')
  exact lt_irrefl k hlt

theorem lt_trans {a b c : Float} (hab : a < b) (hbc : b < c) : a < c := by
  obtain ⟨k, hk, k', hk', hlt⟩ := lt_iff.mp hab
  obtain ⟨l, hl, l', hl', hlt'⟩ := lt_iff.mp hbc
  obtain rfl : k' = l := Option.some.inj (hk'.symm.trans hl)
  exact lt_iff.mpr ⟨k, hk, l', hl', hlt.trans hlt'⟩

theorem not_lt_of_lt {a b : Float} (h : a < b) : ¬b < a :=
  fun h' => not_lt_self a (lt_trans h h')

/-- Any two values that are numbers can be compared. -/
theorem le_or_lt {a b : Float} (ha : a.isNaN = false) (hb : b.isNaN = false) : a ≤ b ∨ b < a := by
  obtain ⟨k, hk⟩ := exists_key ha
  obtain ⟨k', hk'⟩ := exists_key hb
  rw [le_iff, lt_iff]
  rcases le_or_gt k k' with hle | hlt
  · exact .inl ⟨k, hk, k', hk', hle⟩
  · exact .inr ⟨k', hk', k, hk, hlt⟩

end Backtest.Proofs.FloatOrder
