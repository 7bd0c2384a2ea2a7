import Backtest.Proofs.BarMeaning
import Backtest.Proofs.SeriesPrefix

namespace Backtest.Proofs.IndicatorMeaning

open Backtest.Rule
open Backtest.Series
open Backtest.Proofs.BarMeaning
open Backtest.Proofs.SeriesPrefix

variable {α : Type}

def seriesOf (value : Nat → Option α) (count : Nat) : Series α := (List.range count).map value

@[simp] theorem length_seriesOf (value : Nat → Option α) (count : Nat) :
    (seriesOf value count).length = count := by
  simp [seriesOf]

theorem getElem?_seriesOf {value : Nat → Option α} {count bar : Nat} (h : bar < count) :
    (seriesOf value count)[bar]? = some (value bar) := by
  simp [seriesOf, h]

theorem ofValues_eq_seriesOf (values : List α) :
    ofValues values = seriesOf (fun bar => values[bar]?) values.length := by
  apply List.ext_getElem
  · simp
  · intro bar hbar _
    simp [ofValues, seriesOf]

theorem shift_seriesOf (value : Nat → Option α) (count : Nat) :
    (seriesOf value count).shift = seriesOf (before value) count := by
  rw [shift_eq_take, length_seriesOf]
  apply List.ext_getElem
  · simp
  · intro bar hbar _
    cases bar with
    | zero => simp [before, seriesOf]
    | succ bar => simp [before, seriesOf]

theorem window_seriesOf (value : Nat → Option α) {size index count : Nat}
    (hsize : size ≤ index + 1) (hindex : index < count) :
    window size index (seriesOf value count) =
      (List.range' (index + 1 - size) size).map value := by
  have htake : (List.range count).take (index + 1) = List.range (index + 1) := by
    rw [List.take_range, Nat.min_eq_left hindex]
  have hdrop : (List.range (index + 1)).drop (index + 1 - size) =
      List.range' (index + 1 - size) size := by
    rw [List.range_eq_range', List.drop_range']
    congr 1 <;> omega
  rw [seriesOf, window, ← List.map_take, htake, ← List.map_drop, hdrop]

theorem overWindows_seriesOf {β : Type} (size first : Nat) (f : List α → β)
    (value : Nat → Option α) (count : Nat) :
    overWindows size first f (seriesOf value count) =
      seriesOf (fun bar =>
        if bar + 1 < size + first then none
        else (valuesOn value (bar + 1 - size) size).map f) count := by
  rw [overWindows, length_seriesOf]
  apply List.map_congr_left
  intro bar hbar
  rw [List.mem_range] at hbar
  split
  · rfl
  · rename_i hfull
    rw [window_seriesOf value (by omega) hbar, gapless, List.mapM_map]
    rfl

theorem valuesOn_cons (value : Nat → Option α) (first count : Nat) :
    valuesOn value first (count + 1) =
      (value first).bind fun head => (valuesOn value (first + 1) count).map (head :: ·) := by
  rw [valuesOn, List.range'_succ, List.mapM_cons, valuesOn]
  cases value first with
  | none => rfl
  | some head => cases (List.range' (first + 1) count).mapM value <;> rfl

theorem valuesOn_concat {value : Nat → Option α} {first count : Nat} {values : List α} {last : α}
    (hvalues : valuesOn value first count = some values)
    (hlast : value (first + count) = some last) :
    valuesOn value first (count + 1) = some (values ++ [last]) := by
  rw [valuesOn] at hvalues ⊢
  rw [List.range'_1_concat, List.mapM_append, hvalues]
  simp [hlast]

variable [Scalar α]

theorem sma_seriesOf (period : Nat) (value : Nat → Option α) (count : Nat) :
    (seriesOf value count).sma period = seriesOf (meanAt (max 1 period) value) count := by
  rw [sma, overWindows_seriesOf]
  rfl

theorem quarterChanges_seriesOf (value : Nat → Option α) (count : Nat) :
    (seriesOf value count).quarterChanges =
      seriesOf (fun bar => quarterChange (before value bar) (value bar)) count := by
  rw [quarterChanges, shift_seriesOf, seriesOf, seriesOf, List.zipWith_map, List.zipWith_self]
  rfl

theorem quarterSteps_valuesOn (value : Nat → Option α) (first count : Nat) :
    (valuesOn value first (count + 2)).map quarterSteps =
      (quarterChange (value first) (value (first + 1))).bind fun change =>
        ((valuesOn value (first + 1) (count + 1)).map quarterSteps).map (change :: ·) := by
  rw [valuesOn_cons, valuesOn_cons]
  cases value first with
  | none => rfl
  | some current =>
      cases value (first + 1) with
      | none => rfl
      | some next => cases valuesOn value (first + 1 + 1) count <;> rfl

theorem valuesOn_quarterChange (value : Nat → Option α) (first count : Nat) :
    valuesOn (fun bar => quarterChange (before value bar) (value bar)) (first + 1) (count + 1) =
      (valuesOn value first (count + 2)).map quarterSteps := by
  induction count generalizing first with
  | zero =>
      rw [valuesOn_cons, quarterSteps_valuesOn, valuesOn_cons]
      change (quarterChange (value first) (value (first + 1))).bind _ = _
      cases value first <;> cases value (first + 1) <;> rfl
  | succ count ih =>
      rw [valuesOn_cons, ih, quarterSteps_valuesOn value first]
      rfl

theorem foldl_gainLoss (period : Nat) (changes : List α) (gain loss : α) :
    changes.foldl (fun (gain, loss) change =>
      if Scalar.lt Scalar.zero change then (gain + change / Scalar.ofNat period, loss)
      else (gain, loss - change / Scalar.ofNat period)) (gain, loss) =
      ((changes.filter fun change => Scalar.lt Scalar.zero change).foldl
          (fun gain rise => gain + rise / Scalar.ofNat period) gain,
        (changes.filter fun change => !Scalar.lt Scalar.zero change).foldl
          (fun loss fall => loss - fall / Scalar.ofNat period) loss) := by
  induction changes generalizing gain loss with
  | nil => rfl
  | cons change rest ih =>
      rw [List.foldl_cons]
      dsimp only
      cases hrise : Scalar.lt Scalar.zero change with
      | true =>
          rw [if_pos rfl, ih, List.filter_cons_of_pos hrise,
            List.filter_cons_of_neg (by simp [hrise])]
          rfl
      | false =>
          rw [if_neg Bool.false_ne_true, ih, List.filter_cons_of_neg (by simp [hrise]),
            List.filter_cons_of_pos (by simp [hrise])]
          rfl

theorem strengthAt_eq (period : Nat) :
    strengthAt (α := α) period = overLast (period + 1) fun values =>
      let (gain, loss) := meanGainLoss period (quarterSteps values)
      strength gain loss := by
  simp only [meanGainLoss, foldl_gainLoss]
  rfl

theorem rsi_seriesOf (period : Nat) (value : Nat → Option α) (count : Nat) :
    (seriesOf value count).rsi period = seriesOf (strengthAt (max 1 period) value) count := by
  rw [rsi, quarterChanges_seriesOf, overWindows_seriesOf]
  obtain ⟨size, hsize⟩ : ∃ size, max 1 period = size + 1 := Nat.exists_eq_add_of_le' (by omega)
  rw [hsize]
  refine congrArg (seriesOf · count) (funext fun bar => ?_)
  rw [strengthAt_eq, overLast]
  by_cases hshort : bar + 1 < size + 1 + 1
  · rw [if_pos hshort, if_pos hshort]
  · have hfirst : bar + 1 - (size + 1) = bar + 1 - (size + 1 + 1) + 1 := by omega
    rw [if_neg hshort, if_neg hshort, hfirst, valuesOn_quarterChange, Option.map_map]
    rfl

theorem averageAt_eq_none_of_gap {period bar : Nat} {value : Nat → Option α}
    (hgap : value bar = none) : averageAt period value bar = none := by
  rw [averageAt, hgap]
  rfl

theorem averageAt_eq_none_of_short {period bar : Nat} {value : Nat → Option α}
    (hshort : bar + 1 < runStart value bar + period) : averageAt period value bar = none := by
  rw [averageAt]
  cases value bar with
  | none => rfl
  | some current => exact if_pos hshort

theorem averageAt_of_full {period bar : Nat} {value : Nat → Option α} {current : α}
    {values : List α} (hcurrent : value bar = some current)
    (hfull : bar + 1 = runStart value bar + period)
    (hvalues : valuesOn value (runStart value bar) period = some values) :
    averageAt period value bar =
      some (values.foldl (· + ·) Scalar.zero / Scalar.ofNat period) := by
  rw [averageAt, hcurrent, Option.bind_some]
  dsimp only
  rw [if_neg (by omega), if_pos hfull, hvalues]
  rfl

theorem averageAt_of_long {period previous : Nat} {value : Nat → Option α} {current average : α}
    (hcurrent : value (previous + 1) = some current)
    (hlong : runStart value (previous + 1) + period ≤ previous + 1)
    (haverage : averageAt period value previous = some average) :
    averageAt period value (previous + 1) =
      let weight := Scalar.ofNat 2 / (Scalar.ofNat period + Scalar.one)
      some (current * weight + average * (Scalar.one - weight)) := by
  rw [averageAt, hcurrent, Option.bind_some]
  dsimp only
  rw [if_neg (by omega), if_neg (by omega), haverage]
  rfl

/-- What the state of the average before a bar stands for: the sum of a run of values that is still
too short, or the average at the bar before. -/
inductive Follows (period : Nat) (value : Nat → Option α) (bar : Nat) : EmaState α → Prop
  | seeding {values : List α} (hshort : values.length < period)
      (hbar : runStart value bar + values.length = bar)
      (hvalues : valuesOn value (runStart value bar) values.length = some values) :
      Follows period value bar
        (.seeding (values.foldl (· + ·) Scalar.zero) values.length)
  | running {previous : Nat} {average : α} (hbar : bar = previous + 1)
      (hlong : runStart value bar + period ≤ bar)
      (haverage : averageAt period value previous = some average) :
      Follows period value bar (.running average)

theorem follows_start {period bar : Nat} {value : Nat → Option α} (hperiod : 0 < period)
    (hstart : runStart value bar = bar) : Follows period value bar .start :=
  @Follows.seeding _ _ period value bar [] hperiod (by simpa using hstart) rfl

theorem Follows.next {period bar : Nat} {value : Nat → Option α} {state : EmaState α}
    (h : Follows period value bar state) {current : α} (hcurrent : value bar = some current) :
    Follows period value (bar + 1) (state.next period current) ∧
      (state.next period current).value? = averageAt period value bar := by
  have hstart : runStart value (bar + 1) = runStart value bar := by
    rw [runStart, hcurrent]
    rfl
  cases h with
  | @seeding values hshort hbar hvalues =>
      have hlonger : valuesOn value (runStart value bar) (values.length + 1) =
          some (values ++ [current]) := valuesOn_concat hvalues (by rw [hbar, hcurrent])
      have hsum : values.foldl (· + ·) Scalar.zero + current =
          (values ++ [current]).foldl (· + ·) Scalar.zero := by
        rw [List.foldl_append, List.foldl_cons, List.foldl_nil]
      have hlength : (values ++ [current]).length = values.length + 1 := by simp
      by_cases hfull : values.length + 1 = period
      · have haverage := averageAt_of_full hcurrent (by omega) (hfull ▸ hlonger)
        rw [EmaState.next, if_pos hfull, hsum, haverage]
        exact ⟨.running rfl (by omega) haverage, rfl⟩
      · rw [EmaState.next, if_neg hfull, hsum, averageAt_eq_none_of_short (by omega), ← hlength]
        refine ⟨.seeding (by omega) (by omega) ?_, rfl⟩
        rw [hstart, hlength, hlonger]
  | @running previous average hbar hlong haverage =>
      subst hbar
      have hnext := averageAt_of_long hcurrent hlong haverage
      rw [hnext]
      exact ⟨.running rfl (by omega) hnext, rfl⟩

/-- The average over the bars from one on, by induction on their count. -/
theorem emaFrom_seriesOf {period : Nat} (hperiod : 0 < period) (value : Nat → Option α)
    (count bar : Nat) (state : EmaState α) (h : Follows period value bar state) :
    emaFrom period state ((List.range' bar count).map value) =
      (List.range' bar count).map (averageAt period value) := by
  induction count generalizing bar state with
  | zero => rfl
  | succ count ih =>
      rw [List.range'_succ, List.map_cons, List.map_cons]
      cases hcurrent : value bar with
      | none =>
          have hgap : runStart value (bar + 1) = bar + 1 := by
            rw [runStart, hcurrent]
            rfl
          rw [emaFrom, ih (bar + 1) _ (follows_start hperiod hgap),
            averageAt_eq_none_of_gap hcurrent]
      | some current =>
          obtain ⟨hnext, hvalue⟩ := h.next hcurrent
          rw [emaFrom, ih (bar + 1) _ hnext, hvalue]

theorem ema_seriesOf (period : Nat) (value : Nat → Option α) (count : Nat) :
    (seriesOf value count).ema period = seriesOf (averageAt (max 1 period) value) count := by
  have hperiod : 0 < max 1 period := by omega
  rw [ema, seriesOf, seriesOf, List.range_eq_range',
    emaFrom_seriesOf hperiod value count 0 _ (follows_start hperiod rfl)]

end Backtest.Proofs.IndicatorMeaning
