import Backtest.Number.Text
import Backtest.Rule.Operator

namespace Backtest.Rule

inductive Tree
  | identifier (name : String)
  | number (value : Float)
  | call (name : String) (args : List Tree)
  | compare (op : CompareOp) (left right : Tree)
  | logical (op : BoolOp) (left right : Tree)

namespace Tree

def toText : Tree → String
  | identifier name => name
  | number value => shortestText value
  | call name args => name ++ "(" ++ String.intercalate ", " (args.map toText) ++ ")"
  | compare op left right => "(" ++ left.toText ++ " " ++ op.symbol ++ " " ++ right.toText ++ ")"
  | logical op left right => "(" ++ left.toText ++ " " ++ op.symbol ++ " " ++ right.toText ++ ")"

end Tree

inductive Side
  | entry
  | exit
  deriving DecidableEq, Repr

namespace Side

def keyword : Side → String
  | entry => "ENTRY"
  | exit => "EXIT"

end Side

structure RuleSet (β : Type) where
  entry : Option β := none
  exit : Option β := none

namespace RuleSet

variable {β γ : Type}

def get (rules : RuleSet β) : Side → Option β
  | .entry => rules.entry
  | .exit => rules.exit

def set (rules : RuleSet β) : Side → β → RuleSet β
  | .entry, rule => { rules with entry := some rule }
  | .exit, rule => { rules with exit := some rule }

def isEmpty (rules : RuleSet β) : Bool := rules.entry.isNone && rules.exit.isNone

/-- One line for each present block, the entry first. -/
def toText (render : β → String) (rules : RuleSet β) : String :=
  let block (side : Side) : String :=
    match rules.get side with
    | some rule => side.keyword ++ ": " ++ render rule ++ "\n"
    | none => ""
  block .entry ++ block .exit

end RuleSet

end Backtest.Rule
