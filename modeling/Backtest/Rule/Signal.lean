import Backtest.Frame
import Backtest.Rule.Typed
import Backtest.Series

namespace Backtest.Rule

variable {α : Type} [Scalar α]

def Indicator.apply : Indicator → Nat → Series α → Series α
  | .sma => Series.sma
  | .ema => Series.ema
  | .rsi => Series.rsi

def Direction.apply : Direction → Series α → Series α → List Bool
  | .above => Series.crossesAbove
  | .below => Series.crossesBelow

/-- Compares two values; an undefined one satisfies no comparison. -/
def CompareOp.holdsDefined (op : CompareOp) : Option α → Option α → Bool
  | some a, some b => op.holds a b
  | _, _ => false

def Term.series (frame : Frame α) : Term α → Except FrameError (Series α)
  | .column c => do return Series.ofValues (← frame.column c)
  | .yesterday c => do return (Series.ofValues (← frame.column c)).shift
  | .constant value => .ok (List.replicate frame.size (some value))
  | .indicator i source period => do return i.apply period (← source.series frame)

def Condition.signal (frame : Frame α) : Condition α → Except FrameError (List Bool)
  | .compare op left right => do
    let left ← left.series frame
    let right ← right.series frame
    return List.zipWith op.holdsDefined left right
  | .cross direction left right => do
    let left ← left.series frame
    let right ← right.series frame
    return direction.apply left right
  | .logical op left right => do
    let left ← left.signal frame
    let right ← right.signal frame
    return List.zipWith op.apply left right

structure Signals where
  entry : List Bool
  exit : List Bool

/-- The truth values of a block, which never holds where it is absent. -/
def blockSignal (frame : Frame α) : Option (Condition α) → Except FrameError (List Bool)
  | some condition => condition.signal frame
  | none => .ok (List.replicate frame.size false)

def firstMissing? (frame : Frame α) (columns : List Column) : Option Column :=
  columns.find? fun column => (frame.columns column).isNone

/-- The signals of a rule set. All columns that it reads are looked for before anything is
computed. -/
def RuleSet.signals (rules : RuleSet (Condition α)) (frame : Frame α) :
    Except FrameError Signals := do
  if frame.isEmpty then throw .noBars
  match firstMissing? frame rules.requiredColumns with
  | some column => throw (.missingColumn column)
  | none =>
    return { entry := ← blockSignal frame rules.entry, exit := ← blockSignal frame rules.exit }

end Backtest.Rule
