import Backtest.Calendar.Date
import Backtest.Number.Scalar

namespace Backtest

/-- A unit that has been bought and not yet sold. -/
structure Position (α : Type) where
  entryIndex : Nat
  entryDate : Date
  entryPrice : α

structure Trade (α : Type) where
  entryIndex : Nat
  entryDate : Date
  entryPrice : α
  exitIndex : Nat
  exitDate : Date
  exitPrice : α
  profit : α
  /-- The profit as a fraction of the price paid. -/
  gain : α
  /-- Whether the end of the data closed the position. -/
  forced : Bool

namespace Position

variable {α : Type} [Scalar α]

def profitAt (position : Position α) (price : α) : α := price - position.entryPrice

/-- Sells the unit. A price paid of zero or less gives no fraction, so the gain counts as zero. -/
def close (position : Position α) (index : Nat) (date : Date) (price : α) (forced : Bool) :
    Trade α :=
  let profit := position.profitAt price
  { entryIndex := position.entryIndex
    entryDate := position.entryDate
    entryPrice := position.entryPrice
    exitIndex := index
    exitDate := date
    exitPrice := price
    profit
    gain :=
      if Scalar.lt Scalar.zero position.entryPrice then profit / position.entryPrice
      else Scalar.zero
    forced }

end Position

def Trade.barsHeld {α : Type} (trade : Trade α) : Nat := trade.exitIndex - trade.entryIndex

end Backtest
