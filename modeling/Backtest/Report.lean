import Backtest.Figures

namespace Backtest

variable {α : Type} [Scalar α]

structure Report (α : Type) where
  trades : List (Trade α)
  totalProfit : α
  totalReturn : α
  maxDrawdown : α
  /-- Whether the end of the data closed the last position. -/
  closedAtEnd : Bool
  equityCurve : List α
  figures : Figures α

def Report.ofTrades (trades : List (Trade α)) (closedAtEnd : Bool) : Report α :=
  let curve := Backtest.equityCurve trades
  { trades
    totalProfit := Scalar.sum (trades.map Trade.profit)
    totalReturn := compoundedReturn trades
    maxDrawdown := Backtest.maxDrawdown curve
    closedAtEnd
    equityCurve := curve
    figures := Figures.ofTrades trades }

end Backtest
