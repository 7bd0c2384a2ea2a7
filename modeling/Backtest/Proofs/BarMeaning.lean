import Backtest.Rule.Signal

/-!
What a rule means at a single bar. The value of a term is given bar by bar, by recursion on the term
and, for an exponential average, on the bar; a condition then holds at a bar or does not.
-/

namespace Backtest.Proofs.BarMeaning

open Backtest.Rule
open Backtest.Series

variable {α : Type}

/-- The values at `count` bars in a row, if all of them are defined. -/
def valuesOn (value : Nat → Option α) (first count : Nat) : Option (List α) :=
  (List.range' first count).mapM value

def before (value : Nat → Option α) : Nat → Option α
  | 0 => none
  | bar + 1 => value bar

/-- The first bar of the run of defined values that reaches up to a bar; the bar itself, if the
value just before it is undefined. -/
def runStart (value : Nat → Option α) : Nat → Nat
  | 0 => 0
  | bar + 1 => if (value bar).isSome then runStart value bar else bar + 1

/-- A function of the values at the last `size` bars, if all of them are defined. -/
def overLast (size : Nat) (f : List α → α) (value : Nat → Option α) (bar : Nat) : Option α :=
  if bar + 1 < size then none else (valuesOn value (bar + 1 - size) size).map f

variable [Scalar α]

def meanAt (period : Nat) : (Nat → Option α) → Nat → Option α :=
  overLast period fun values => Scalar.sum values / Scalar.ofNat period

/-- The exponential moving average: the mean of the run of values as soon as it is `period` bars
long, and from then on a weighted mean of the value and the average one bar before. -/
def averageAt (period : Nat) (value : Nat → Option α) (bar : Nat) : Option α :=
  (value bar).bind fun current =>
    let weight := Scalar.ofNat 2 / (Scalar.ofNat period + Scalar.one)
    let first := runStart value bar
    if bar + 1 < first + period then none
    else if bar + 1 = first + period then
      (valuesOn value first period).map fun values =>
        values.foldl (· + ·) Scalar.zero / Scalar.ofNat period
    else
      match bar with
      | 0 => none
      | previous + 1 => (averageAt period value previous).map fun average =>
          current * weight + average * (Scalar.one - weight)

def quarterSteps : List α → List α
  | value :: next :: rest =>
    (next / Scalar.ofNat 4 - value / Scalar.ofNat 4) :: quarterSteps (next :: rest)
  | _ => []

/-- The mean gain: each rise divided by the period, added up from left to right. -/
def meanGain (period : Nat) (changes : List α) : α :=
  (changes.filter fun change => Scalar.lt Scalar.zero change).foldl
    (fun gain rise => gain + rise / Scalar.ofNat period) Scalar.zero

def meanLoss (period : Nat) (changes : List α) : α :=
  (changes.filter fun change => !Scalar.lt Scalar.zero change).foldl
    (fun loss fall => loss - fall / Scalar.ofNat period) Scalar.zero

/-- The relative strength over the last `period` changes, which needs one more value. -/
def strengthAt (period : Nat) : (Nat → Option α) → Nat → Option α :=
  overLast (period + 1) fun values =>
    let gain := meanGain period (quarterSteps values)
    let loss := meanLoss period (quarterSteps values)
    if Scalar.eq loss Scalar.zero then
      if Scalar.lt Scalar.zero gain then Scalar.ofNat 100 else Scalar.ofNat 50
    else Scalar.ofNat 100 - Scalar.ofNat 100 / (Scalar.one + gain / loss)

def indicatorAt : Indicator → Nat → (Nat → Option α) → Nat → Option α
  | .sma => meanAt
  | .ema => averageAt
  | .rsi => strengthAt

def columnAt (frame : Frame α) (column : Column) (bar : Nat) : Option α :=
  (frame.columns column).bind fun values => values[bar]?

/-- The value of a term at a bar. A period of 0 counts as 1. -/
def valueAt (frame : Frame α) : Term α → Nat → Option α
  | .column column => columnAt frame column
  | .yesterday column => before (columnAt frame column)
  | .constant value => fun _ => some value
  | .indicator indicator source period =>
    indicatorAt indicator (max 1 period) (valueAt frame source)

/-- Whether two values pass each other from one bar to the next. -/
def Passes (direction : Direction) (left right left' right' : α) : Prop :=
  match direction with
  | .above => Scalar.le left right = true ∧ Scalar.lt right' left' = true
  | .below => Scalar.le right left = true ∧ Scalar.lt left' right' = true

/-- The truth of a condition at a bar. -/
def HoldsAt (frame : Frame α) : Condition α → Nat → Prop
  | .compare op left right, bar =>
    ∃ a b, valueAt frame left bar = some a ∧ valueAt frame right bar = some b ∧ op.holds a b = true
  | .cross direction left right, bar =>
    ∃ previous, bar = previous + 1 ∧ ∃ a b a' b',
      valueAt frame left previous = some a ∧ valueAt frame right previous = some b ∧
        valueAt frame left bar = some a' ∧ valueAt frame right bar = some b' ∧
          Passes direction a b a' b'
  | .logical .and left right, bar => HoldsAt frame left bar ∧ HoldsAt frame right bar
  | .logical .or left right, bar => HoldsAt frame left bar ∨ HoldsAt frame right bar

end Backtest.Proofs.BarMeaning
