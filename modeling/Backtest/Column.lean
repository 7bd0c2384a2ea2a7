namespace Backtest

inductive Column
  | opening
  | high
  | low
  | close
  | volume
  deriving DecidableEq, Repr

namespace Column

/-- All columns, in the order that counts wherever one comes before another. -/
def all : List Column := [opening, high, low, close, volume]

theorem mem_all (column : Column) : column ∈ all := by
  cases column <;> decide

def name : Column → String
  | opening => "open"
  | high => "high"
  | low => "low"
  | close => "close"
  | volume => "volume"

/-- The column of a name, which is spelled in small letters. -/
def ofName? (name : String) : Option Column :=
  all.find? fun column => column.name == name

end Column

end Backtest
