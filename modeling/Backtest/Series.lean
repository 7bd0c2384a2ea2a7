import Backtest.Number.Scalar

/-!
Series of values, one for each bar, and the indicators computed from them. A value may be undefined:
before a window is full, or where a bar has none before it. Nothing here fails; an undefined value
only makes further ones undefined.
-/

namespace Backtest

/-- One value for each bar, or none where it is undefined. -/
abbrev Series (α : Type) := List (Option α)

namespace Series

variable {α : Type}

def ofValues (values : List α) : Series α := values.map some

def shift (series : Series α) : Series α := (none :: series).dropLast

/-- The last `size` elements of a list up to and with the one at an index. -/
def window {β : Type} (size index : Nat) (xs : List β) : List β :=
  (xs.take (index + 1)).drop (index + 1 - size)

def gapless (xs : Series α) : Option (List α) := xs.mapM id

/-- Applies a function to the window of each bar. It is undefined where the window reaches back
before the bar `first` or has a gap. -/
def overWindows {β : Type} (size first : Nat) (f : List α → β) (series : Series α) : Series β :=
  (List.range series.length).map fun index =>
    if index + 1 < size + first then none else (gapless (window size index series)).map f

variable [Scalar α]

/-- The simple moving average: the mean of the last `period` values. A period of 0 counts as 1, for
this indicator and the others. -/
def sma (period : Nat) (series : Series α) : Series α :=
  let period := max 1 period
  overWindows period 0 (fun values => Scalar.sum values / Scalar.ofNat period) series

/-- The state of an exponential moving average: the sum and the count of the values that its first
value is to be the mean of, or its last value. -/
inductive EmaState (α : Type)
  | seeding (sum : α) (count : Nat)
  | running (average : α)

namespace EmaState

def next (period : Nat) : EmaState α → α → EmaState α
  | seeding sum count, value =>
    if count + 1 = period then running ((sum + value) / Scalar.ofNat period)
    else seeding (sum + value) (count + 1)
  | running average, value =>
    let weight := Scalar.ofNat 2 / (Scalar.ofNat period + Scalar.one)
    running (value * weight + average * (Scalar.one - weight))

def value? : EmaState α → Option α
  | seeding _ _ => none
  | running average => some average

def start : EmaState α := seeding Scalar.zero 0

end EmaState

/-- The averages of a series read on from a state. A gap starts the average anew. -/
def emaFrom (period : Nat) : EmaState α → Series α → Series α
  | _, [] => []
  | _, none :: rest => none :: emaFrom period .start rest
  | state, some value :: rest =>
    let next := state.next period value
    next.value? :: emaFrom period next rest

/-- The exponential moving average with the weight `2 / (period + 1)`, which starts from the mean of
the first `period` values after a gap. -/
def ema (period : Nat) (series : Series α) : Series α := emaFrom (max 1 period) .start series

/-- A quarter of the change from one bar to the next. Quarters cannot overflow, and the quotient of
gains and losses does not depend on the scale. -/
def quarterChange : Option α → Option α → Option α
  | some before, some now => some (now / Scalar.ofNat 4 - before / Scalar.ofNat 4)
  | _, _ => none

def quarterChanges (series : Series α) : Series α :=
  List.zipWith quarterChange series.shift series

/-- The mean gain and the mean loss over a count of changes, each change divided by the count before
it is added. -/
def meanGainLoss (count : Nat) (changes : List α) : α × α :=
  changes.foldl
    (fun (gain, loss) change =>
      if Scalar.lt Scalar.zero change then (gain + change / Scalar.ofNat count, loss)
      else (gain, loss - change / Scalar.ofNat count))
    (Scalar.zero, Scalar.zero)

/-- The strength of gains against losses on a scale from 0 to 100, and 50 where nothing changes. -/
def strength (gain loss : α) : α :=
  if Scalar.eq loss Scalar.zero then
    if Scalar.lt Scalar.zero gain then Scalar.ofNat 100 else Scalar.ofNat 50
  else Scalar.ofNat 100 - Scalar.ofNat 100 / (Scalar.one + gain / loss)

/-- The relative strength index over the last `period` changes. The first change is that of the
second bar. -/
def rsi (period : Nat) (series : Series α) : Series α :=
  let period := max 1 period
  overWindows period 1
    (fun changes =>
      let (gain, loss) := meanGainLoss period changes
      strength gain loss)
    series.quarterChanges

/-- Whether two pairs of values, one bar after the other, satisfy a relation. Undefined values
satisfy none. -/
def crossed (relation : α → α → α → α → Bool) :
    Option α × Option α → Option α × Option α → Bool
  | (some a, some b), (some a', some b') => relation a b a' b'
  | _, _ => false

def crossings (relation : α → α → α → α → Bool) (a b : Series α) : List Bool :=
  List.zipWith (crossed relation) (a.shift.zip b.shift) (a.zip b)

/-- Where one series passes another upwards: not above it at the bar before, above it now. -/
def crossesAbove (a b : Series α) : List Bool :=
  crossings (fun a b a' b' => Scalar.le a b && Scalar.lt b' a') a b

def crossesBelow (a b : Series α) : List Bool :=
  crossings (fun a b a' b' => Scalar.le b a && Scalar.lt a' b') a b

end Series

end Backtest
