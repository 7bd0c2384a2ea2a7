import Backtest.Rule.Signal
import Backtest.Rule.Tree.Parse
import Backtest.Rule.Typing
import Backtest.Trading

namespace Backtest

inductive CompileError
  | unreadable (error : Rule.SyntaxError)
  | illTyped (error : Rule.TypeError)
  /-- A request in other words was refused instead of being turned into rule text. -/
  | requestRefused (reason : String)

namespace CompileError

def message : CompileError → String
  | unreadable error => error.message
  | illTyped error => error.message
  | requestRefused reason => "rule translation failed: " ++ reason

end CompileError

def compileRules (source : String) :
    Except CompileError (Rule.RuleSet (Rule.Condition Float)) := do
  let tree ← (Rule.parse source).mapError .unreadable
  tree.typed.mapError .illTyped

structure Strategy where
  name : String
  description : String
  /-- The rule text as written. -/
  source : String
  rules : Rule.RuleSet (Rule.Condition Float)

namespace Strategy

def compile (name description source : String) : Except CompileError Strategy := do
  let rules ← compileRules source
  return { name, description, source, rules }

/-- Compiles the rule text that a translator gives for a request, which becomes the
description. -/
def ofRequest (name : String) (translate : String → Except String String) (request : String) :
    Except CompileError Strategy := do
  let source ← (translate request).mapError .requestRefused
  compile name request source

def run (strategy : Strategy) (frame : Frame Float) : Except FrameError (Report Float) := do
  let signals ← strategy.rules.signals frame
  return frame.report signals.entry signals.exit

/-- Runs the strategy on the first bars of a table, for every count of them from none to all. -/
def replay (strategy : Strategy) (dates : List Date) (columns : Columns Float) :
    List (Except FrameError (Report Float)) :=
  (List.range (dates.length + 1)).map fun count => do
    let frame ← Frame.ofColumns (dates.take count) fun column =>
      (columns column).map (·.take count)
    strategy.run frame

end Strategy

end Backtest
