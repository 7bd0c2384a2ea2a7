import Backtest.Column
import Backtest.Rule.Tree

namespace Backtest.Rule

inductive Indicator
  | sma
  | ema
  | rsi
  deriving DecidableEq, Repr

namespace Indicator

def name : Indicator → String
  | sma => "SMA"
  | ema => "EMA"
  | rsi => "RSI"

end Indicator

inductive Term (α : Type)
  | column (column : Column)
  | yesterday (column : Column)
  | constant (value : α)
  | indicator (indicator : Indicator) (source : Term α) (period : Nat)

/-- From which side a crossing arrives above or below. -/
inductive Direction
  | above
  | below
  deriving DecidableEq, Repr

namespace Direction

def name : Direction → String
  | above => "crosses_above"
  | below => "crosses_below"

end Direction

inductive Condition (α : Type)
  | compare (op : CompareOp) (left right : Term α)
  | cross (direction : Direction) (left right : Term α)
  | logical (op : BoolOp) (left right : Condition α)

/-- What stands before the name of a column for its value one bar earlier. -/
def yesterdayMark : String := "yesterday_"

namespace Term

def toText : Term Float → String
  | column c => c.name
  | yesterday c => yesterdayMark ++ c.name
  | constant value => shortestText value
  | indicator i source period =>
    i.name ++ "(" ++ source.toText ++ ", " ++ toString period ++ ")"

def reads {α : Type} (wanted : Column) : Term α → Bool
  | column c => c == wanted
  | yesterday c => c == wanted
  | constant _ => false
  | indicator _ source _ => source.reads wanted

end Term

namespace Condition

def toText : Condition Float → String
  | compare op left right => "(" ++ left.toText ++ " " ++ op.symbol ++ " " ++ right.toText ++ ")"
  | cross direction left right =>
    direction.name ++ "(" ++ left.toText ++ ", " ++ right.toText ++ ")"
  | logical op left right => "(" ++ left.toText ++ " " ++ op.symbol ++ " " ++ right.toText ++ ")"

def reads {α : Type} (wanted : Column) : Condition α → Bool
  | compare _ left right => left.reads wanted || right.reads wanted
  | cross _ left right => left.reads wanted || right.reads wanted
  | logical _ left right => left.reads wanted || right.reads wanted

end Condition

/-- The columns that a rule set reads, in the order of columns. -/
def RuleSet.requiredColumns {α : Type} (rules : RuleSet (Condition α)) : List Column :=
  let readBy (column : Column) : Option (Condition α) → Bool
    | some condition => condition.reads column
    | none => false
  Column.all.filter fun column => readBy column rules.entry || readBy column rules.exit

end Backtest.Rule
