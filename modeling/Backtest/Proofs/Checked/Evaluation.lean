import Backtest.Proofs.Checked.Access
import Backtest.Proofs.SignalMeaning

namespace Backtest.Proofs.Checked

open Backtest.Rule
open Backtest.Proofs.BarMeaning
open Backtest.Proofs.SeriesPrefix
open Backtest.Proofs.IndicatorMeaning
open Backtest.Proofs.SignalMeaning

variable {α : Type}

def shift (series : Series α) : Option (Series α) :=
  if series.isEmpty then some []
  else do
    let front ← slice series 0 (← sub series.length 1)
    return none :: front

def overWindows {β : Type} (size first : Nat) (f : List α → β) (series : Series α) :
    Option (Series β) :=
  (List.range series.length).mapM fun index =>
    if index + 1 < size + first then some none
    else do
      let window ← slice series (← sub (index + 1) size) (index + 1)
      return (Series.gapless window).map f

def crossings (relation : α → α → α → α → Bool) (a b : Series α) : Option (List Bool) :=
  (List.range (min a.length b.length)).mapM fun bar =>
    match sub bar 1 with
    | none => some false
    | some previous => do
      return Series.crossed relation (← a[previous]?, ← b[previous]?) (← a[bar]?, ← b[bar]?)

variable [Scalar α]

def sma (period : Nat) (series : Series α) : Option (Series α) :=
  let period := max 1 period
  overWindows period 0 (fun values => Scalar.sum values / Scalar.ofNat period) series

def quarterChanges (series : Series α) : Option (Series α) :=
  (List.range series.length).mapM fun bar => do
    let previous ← match sub bar 1 with
      | none => some none
      | some previous => series[previous]?
    return Series.quarterChange previous (← series[bar]?)

def rsi (period : Nat) (series : Series α) : Option (Series α) := do
  let period := max 1 period
  let changes ← quarterChanges series
  overWindows period 1
    (fun changes =>
      let (gain, loss) := Series.meanGainLoss period changes
      Series.strength gain loss)
    changes

def apply : Indicator → Nat → Series α → Option (Series α)
  | .sma, period, series => sma period series
  | .ema, period, series => some (series.ema period)
  | .rsi, period, series => rsi period series

def cross : Direction → Series α → Series α → Option (List Bool)
  | .above, a, b => crossings (fun a b a' b' => Scalar.le a b && Scalar.lt b' a') a b
  | .below, a, b => crossings (fun a b a' b' => Scalar.le b a && Scalar.lt a' b') a b

def series (frame : Frame α) : Term α → ExceptT FrameError Option (Series α)
  | .column c => allowed (Series.ofValues <$> frame.column c)
  | .yesterday c => do
    let values ← allowed (frame.column c)
    ExceptT.lift (shift (Series.ofValues values))
  | .constant value => allowed (.ok (List.replicate frame.size (some value)))
  | .indicator i source period => do
    let values ← series frame source
    ExceptT.lift (apply i period values)

def signal (frame : Frame α) : Condition α → ExceptT FrameError Option (List Bool)
  | .compare op left right => do
    let left ← series frame left
    let right ← series frame right
    return List.zipWith op.holdsDefined left right
  | .cross direction left right => do
    let left ← series frame left
    let right ← series frame right
    ExceptT.lift (cross direction left right)
  | .logical op left right => do
    let left ← signal frame left
    let right ← signal frame right
    return List.zipWith op.apply left right

def blockSignal (frame : Frame α) : Option (Condition α) → ExceptT FrameError Option (List Bool)
  | some condition => signal frame condition
  | none => allowed (.ok (List.replicate frame.size false))

def signals (rules : RuleSet (Condition α)) (frame : Frame α) :
    ExceptT FrameError Option Signals := do
  if frame.isEmpty then allowed (.error .noBars)
  else match firstMissing? frame rules.requiredColumns with
    | some column => allowed (.error (.missingColumn column))
    | none =>
      let entry ← blockSignal frame rules.entry
      let exit ← blockSignal frame rules.exit
      return { entry, exit }

section Series

omit [Scalar α]

theorem shift_eq (series : Series α) : shift series = some series.shift := by
  cases series with
  | nil => rfl
  | cons value series =>
      have hsub : sub (value :: series).length 1 = some series.length :=
        sub_eq (Nat.le_add_left 1 series.length)
      have hslice : slice (value :: series) 0 series.length =
          some ((value :: series).take series.length) :=
        if_pos ⟨Nat.zero_le _, Nat.le_add_right series.length 1⟩
      simp only [shift, hsub, hslice, Option.bind_eq_bind, Option.bind_some]
      rw [shift_eq_take, List.length_cons, List.take_succ_cons]
      rfl

theorem window_eq (size : Nat) {index : Nat} {series : Series α} (hindex : index < series.length) :
    slice series (index + 1 - size) (index + 1) = some (Series.window size index series) :=
  if_pos ⟨Nat.sub_le _ _, hindex⟩

theorem overWindows_eq {β : Type} (size first : Nat) (f : List α → β) (series : Series α) :
    overWindows size first f series = some (Series.overWindows size first f series) := by
  refine mapM_eq_map fun index hindex => ?_
  have hlt := List.mem_range.mp hindex
  split
  · rfl
  · next hfull =>
      have hsize : size ≤ index + 1 := by omega
      simp only [sub_eq hsize, window_eq size hlt, Option.bind_eq_bind, Option.bind_some]
      rfl

/-- The value at a bar, undefined also past the end. -/
def valueIn (series : Series α) (bar : Nat) : Option α := series[bar]?.join

theorem getElem?_eq_valueIn {series : Series α} {bar : Nat} (h : bar < series.length) :
    series[bar]? = some (valueIn series bar) := by
  rw [valueIn, List.getElem?_eq_getElem h]
  rfl

theorem take_eq_seriesOf {series : Series α} {count : Nat} (h : count ≤ series.length) :
    series.take count = seriesOf (valueIn series) count := by
  apply List.ext_getElem?
  intro bar
  by_cases hbar : bar < count
  · rw [getElem?_seriesOf hbar, List.getElem?_take_of_lt hbar,
      getElem?_eq_valueIn (Nat.lt_of_lt_of_le hbar h)]
  · have htake : (series.take count).length ≤ bar := by
      rw [List.length_take]
      omega
    have hseries : (seriesOf (valueIn series) count).length ≤ bar := by
      rw [length_seriesOf]
      omega
    rw [List.getElem?_eq_none htake, List.getElem?_eq_none hseries]

theorem eq_seriesOf (series : Series α) : series = seriesOf (valueIn series) series.length := by
  have h := take_eq_seriesOf (Nat.le_refl series.length)
  rwa [List.take_length] at h

theorem crossings_eq (relation : α → α → α → α → Bool) (a b : Series α) :
    crossings relation a b = some (Series.crossings relation a b) := by
  have ha : min a.length b.length ≤ a.length := Nat.min_le_left _ _
  have hb : min a.length b.length ≤ b.length := Nat.min_le_right _ _
  have hmodel : Series.crossings relation a b = (List.range (min a.length b.length)).map fun bar =>
      Series.crossed relation (before (valueIn a) bar, before (valueIn b) bar)
        (valueIn a bar, valueIn b bar) := by
    rw [← crossings_seriesOf, ← take_eq_seriesOf ha, ← take_eq_seriesOf hb, ← take_crossings,
      ← length_crossings relation, List.take_length]
  rw [hmodel]
  refine mapM_eq_map fun bar hbar => ?_
  have hlt := List.mem_range.mp hbar
  cases bar with
  | zero => rfl
  | succ previous =>
      have hsub : sub (previous + 1) 1 = some previous := sub_eq (Nat.le_add_left 1 previous)
      have hprevious : previous < min a.length b.length := Nat.lt_of_succ_lt hlt
      simp only [hsub, getElem?_eq_valueIn (Nat.lt_of_lt_of_le hprevious ha),
        getElem?_eq_valueIn (Nat.lt_of_lt_of_le hprevious hb),
        getElem?_eq_valueIn (Nat.lt_of_lt_of_le hlt ha),
        getElem?_eq_valueIn (Nat.lt_of_lt_of_le hlt hb), Option.bind_eq_bind, Option.bind_some]
      rfl

end Series

theorem quarterChanges_eq (series : Series α) :
    quarterChanges series = some series.quarterChanges := by
  have hmodel : series.quarterChanges = (List.range series.length).map fun bar =>
      Series.quarterChange (before (valueIn series) bar) (valueIn series bar) := by
    have hchanges := quarterChanges_seriesOf (valueIn series) series.length
    rwa [← eq_seriesOf series] at hchanges
  rw [hmodel]
  refine mapM_eq_map fun bar hbar => ?_
  have hlt := List.mem_range.mp hbar
  cases bar with
  | zero => simp only [getElem?_eq_valueIn hlt, Option.bind_eq_bind, Option.bind_some]; rfl
  | succ previous =>
      have hsub : sub (previous + 1) 1 = some previous := sub_eq (Nat.le_add_left 1 previous)
      simp only [hsub, getElem?_eq_valueIn (Nat.lt_of_succ_lt hlt), getElem?_eq_valueIn hlt,
        Option.bind_eq_bind, Option.bind_some]
      rfl

theorem apply_eq (indicator : Indicator) (period : Nat) (series : Series α) :
    apply indicator period series = some (indicator.apply period series) := by
  cases indicator with
  | sma => exact overWindows_eq _ _ _ series
  | ema => rfl
  | rsi =>
      rw [apply, rsi, quarterChanges_eq]
      exact overWindows_eq _ _ _ _

theorem cross_eq (direction : Direction) (a b : Series α) :
    cross direction a b = some (direction.apply a b) := by
  cases direction with
  | above => exact crossings_eq _ a b
  | below => exact crossings_eq _ a b

theorem series_eq (frame : Frame α) (term : Term α) :
    series frame term = allowed (term.series frame) := by
  induction term with
  | column c => rfl
  | yesterday c =>
      rw [series]
      refine allowed_bind_map fun values => ?_
      rw [shift_eq]
      rfl
  | constant value => rfl
  | indicator i source period ih =>
      rw [series, ih]
      refine allowed_bind_map fun values => ?_
      rw [apply_eq]
      rfl

theorem signal_eq (frame : Frame α) (condition : Condition α) :
    signal frame condition = allowed (condition.signal frame) := by
  induction condition with
  | compare op left right =>
      rw [signal, series_eq, series_eq]
      exact allowed_bind fun left => allowed_bind fun right => rfl
  | cross direction left right =>
      rw [signal, series_eq, series_eq]
      refine allowed_bind fun left => allowed_bind fun right => ?_
      rw [cross_eq]
      rfl
  | logical op left right ih ih' =>
      rw [signal, ih, ih']
      exact allowed_bind fun left => allowed_bind fun right => rfl

theorem blockSignal_eq (frame : Frame α) (block : Option (Condition α)) :
    blockSignal frame block = allowed (Rule.blockSignal frame block) := by
  cases block with
  | none => rfl
  | some condition => exact signal_eq frame condition

/-- The checked evaluation gives what the evaluation gives. -/
theorem signals_eq (rules : RuleSet (Condition α)) (frame : Frame α) :
    signals rules frame = allowed (rules.signals frame) := by
  rw [signals, RuleSet.signals]
  split
  · rfl
  · cases firstMissing? frame rules.requiredColumns with
    | some column => rfl
    | none =>
        rw [blockSignal_eq, blockSignal_eq]
        exact allowed_bind fun entry => allowed_bind fun exit => rfl

end Backtest.Proofs.Checked
