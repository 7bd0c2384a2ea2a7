import Backtest.Number.Scalar

namespace Backtest.Rule

inductive CompareOp
  | gt
  | lt
  | ge
  | le
  | eq
  deriving DecidableEq, Repr

namespace CompareOp

def symbol : CompareOp → String
  | gt => ">"
  | lt => "<"
  | ge => ">="
  | le => "<="
  | eq => "=="

/-- Compares two values. Equality has a tolerance, since computed values seldom meet exactly. -/
def holds {α : Type} [Scalar α] : CompareOp → α → α → Bool
  | gt, a, b => Scalar.lt b a
  | lt, a, b => Scalar.lt a b
  | ge, a, b => Scalar.le b a
  | le, a, b => Scalar.le a b
  | eq, a, b => Scalar.lt (Scalar.abs (a - b)) Scalar.tolerance

end CompareOp

inductive BoolOp
  | and
  | or
  deriving DecidableEq, Repr

namespace BoolOp

def symbol : BoolOp → String
  | and => "AND"
  | or => "OR"

def apply : BoolOp → Bool → Bool → Bool
  | and, a, b => a && b
  | or, a, b => a || b

end BoolOp

end Backtest.Rule
