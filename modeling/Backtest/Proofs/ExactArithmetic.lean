import Mathlib.Algebra.Order.Field.Rat
import Mathlib.Algebra.Order.Group.Unbundled.Abs
import Backtest.Number.Scalar

namespace Backtest.Proofs.ExactArithmetic

instance : Scalar ℚ where
  ofNat := Nat.cast
  negZero := 0
  abs := abs
  lt a b := decide (a < b)
  le a b := decide (a ≤ b)
  eq a b := decide (a = b)
  tolerance := 1 / 1000000000

@[simp] theorem zero_eq : (Scalar.zero : ℚ) = 0 := Nat.cast_zero

@[simp] theorem one_eq : (Scalar.one : ℚ) = 1 := Nat.cast_one

@[simp] theorem ofNat_eq (n : Nat) : (Scalar.ofNat n : ℚ) = n := rfl

@[simp] theorem eq_iff {a b : ℚ} : Scalar.eq a b = true ↔ a = b := decide_eq_true_iff

@[simp] theorem lt_iff {a b : ℚ} : Scalar.lt a b = true ↔ a < b := decide_eq_true_iff

theorem foldl_add (values : List ℚ) : values.foldl (· + ·) Scalar.zero = values.sum := by
  rw [zero_eq]
  exact List.sum_eq_foldl.symm

theorem sum_eq (values : List ℚ) : Scalar.sum values = values.sum :=
  List.sum_eq_foldl.symm

end Backtest.Proofs.ExactArithmetic
