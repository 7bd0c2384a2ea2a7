import Backtest.Trade

namespace Backtest

variable {α : Type} [Scalar α]

structure Figures (α : Type) where
  total : Nat
  won : Nat
  lost : Nat
  /-- Trades that were neither won nor lost. -/
  even : Nat
  winRate : α
  meanGain : α
  largestWin : α
  largestLoss : α
  meanBarsHeld : α

namespace Trade

def isWon (trade : Trade α) : Bool := Scalar.lt Scalar.zero trade.profit

def isLost (trade : Trade α) : Bool := !trade.isWon && Scalar.lt trade.profit Scalar.zero

end Trade

def largest (values : List α) : α :=
  values.foldl (fun best value => if Scalar.lt best value then value else best) Scalar.zero

/-- The figures of a list of trades; means over no trades are zero. -/
def Figures.ofTrades (trades : List (Trade α)) : Figures α :=
  let won := trades.filter Trade.isWon
  let lost := trades.filter Trade.isLost
  let mean (total : α) : α :=
    if trades.isEmpty then Scalar.zero else total / Scalar.ofNat trades.length
  { total := trades.length
    won := won.length
    lost := lost.length
    even := (trades.filter fun trade => !trade.isWon && !trade.isLost).length
    winRate := mean (Scalar.ofNat won.length)
    meanGain := mean (Scalar.sum (trades.map Trade.gain))
    largestWin := largest (won.map Trade.profit)
    largestLoss := largest (lost.map fun trade => Scalar.abs trade.profit)
    meanBarsHeld := mean (Scalar.ofNat ((trades.map Trade.barsHeld).foldl (· + ·) 0)) }

def compound (capital : α) (trade : Trade α) : α := capital * (Scalar.one + trade.gain)

/-- The capital from an amount on, before the first trade and after each. -/
def equityFrom (capital : α) : List (Trade α) → List α
  | [] => [capital]
  | trade :: rest => capital :: equityFrom (compound capital trade) rest

def equityCurve (trades : List (Trade α)) : List α := equityFrom Scalar.one trades

def compoundedReturn (trades : List (Trade α)) : α :=
  trades.foldl compound Scalar.one - Scalar.one

/-- The largest fall from the running peak as a fraction of the peak, given the peak and the largest
fall before the rest of a curve. A fall from a peak of zero or less does not count. -/
def drawdownFrom (peak fall : α) : List α → α
  | [] => fall
  | capital :: rest =>
    if Scalar.lt peak capital then drawdownFrom capital fall rest
    else if Scalar.lt Scalar.zero peak then
      let next := (peak - capital) / peak
      drawdownFrom peak (if Scalar.lt fall next then next else fall) rest
    else drawdownFrom peak fall rest

/-- The largest fall of a curve from its running peak, as a fraction of the peak. -/
def maxDrawdown : List α → α
  | [] => Scalar.zero
  | first :: rest => drawdownFrom first Scalar.zero (first :: rest)

end Backtest
