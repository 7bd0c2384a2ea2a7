/-!
The arithmetic that prices and figures are computed in. The computations are written once for every
type with these operations, in a fixed order, so that they hold the same steps over binary64 numbers
and over exact fractions.
-/

namespace Backtest

/-- Arithmetic and comparisons, with no laws. `negZero` is what a running total starts from: for
binary64 numbers a negative zero, which alone leaves every first term as it is. -/
class Scalar (α : Type) extends Add α, Sub α, Mul α, Div α where
  ofNat : Nat → α
  negZero : α
  abs : α → α
  lt : α → α → Bool
  le : α → α → Bool
  eq : α → α → Bool
  /-- The distance below which two values count as equal in a rule. -/
  tolerance : α

instance : Scalar Float where
  ofNat := Float.ofNat
  negZero := -0.0
  abs := Float.abs
  lt a b := decide (a < b)
  le a b := decide (a ≤ b)
  eq a b := a == b
  tolerance := 1e-9

namespace Scalar

variable {α : Type} [Scalar α]

def zero : α := ofNat 0

def one : α := ofNat 1

def sum (values : List α) : α := values.foldl (· + ·) negZero

end Scalar

end Backtest
