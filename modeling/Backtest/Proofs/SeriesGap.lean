import Backtest.Proofs.SignalCausality

namespace Backtest.Proofs.SeriesGap

open Backtest.Rule
open Backtest.Series
open Backtest.Proofs.SeriesPrefix
open Backtest.Proofs.SignalShape
open Backtest.Proofs.SignalCausality

variable {α β : Type}

theorem mem_window {size index bar : Nat} {value : β} {xs : List β}
    (hvalue : xs[bar]? = some value) (hbar : bar ≤ index) (hindex : index < bar + size) :
    value ∈ window size index xs := by
  apply List.mem_of_getElem? (i := bar - (index + 1 - size))
  have hsame : index + 1 - size + (bar - (index + 1 - size)) = bar := by omega
  rw [window, List.getElem?_drop, hsame, List.getElem?_take_of_lt (by omega), hvalue]

theorem gapless_eq_none {xs : Series α} (h : none ∈ xs) : gapless xs = none := by
  induction xs with
  | nil => exact absurd h List.not_mem_nil
  | cons value rest ih =>
      rw [gapless, List.mapM_cons]
      cases value with
      | none => rfl
      | some value =>
          have hrest : rest.mapM id = none := ih (by simpa using h)
          rw [hrest]
          rfl

theorem gapless_window {size index bar : Nat} {series : Series α} (hgap : series[bar]? = some none)
    (hbar : bar ≤ index) (hindex : index < bar + size) :
    gapless (window size index series) = none :=
  gapless_eq_none (mem_window hgap hbar hindex)

section Parts

variable (xs ys : Series α)

theorem getElem?_gap : (xs ++ none :: ys)[xs.length]? = some none := by
  simp

theorem getElem?_after (bar : Nat) : (xs ++ none :: ys)[xs.length + (bar + 1)]? = ys[bar]? := by
  rw [List.getElem?_append_right (by omega), Nat.add_sub_cancel_left, List.getElem?_cons_succ]

theorem window_before {size index : Nat} (h : index < xs.length) :
    window size index (xs ++ none :: ys) = window size index xs := by
  have htake : (xs ++ none :: ys).take xs.length = xs := by simp
  rw [← window_take h, htake]

theorem window_after {size index : Nat} (h : size ≤ index + 1) :
    window size (xs.length + (index + 1)) (xs ++ none :: ys) = window size index ys := by
  have hfront : xs ++ none :: ys = (xs ++ [none]) ++ ys := by simp
  have hlast : xs.length + (index + 1) + 1 = (xs ++ [none]).length + (index + 1) := by
    simp only [List.length_append, List.length_singleton]
    omega
  have hfirst : (xs ++ [none]).length + (index + 1) - size =
      (xs ++ [none]).length + (index + 1 - size) := by omega
  rw [window, window, hfront, hlast, hfirst, List.take_length_add_append,
    List.drop_length_add_append]

theorem gapless_window_soon_after {size first index : Nat} (hsize : 0 < size)
    (hfirst : ∀ bar < first, bar < ys.length → ys[bar]? = some none)
    (hindex : index < ys.length) (hshort : index + 1 < size + first) :
    gapless (window size (xs.length + (index + 1)) (xs ++ none :: ys)) = none := by
  by_cases hgap : index + 1 < size
  · exact gapless_window (getElem?_gap xs ys) (by omega) (by omega)
  · have hbar : ys[index + 1 - size]? = some none := hfirst _ (by omega) (by omega)
    rw [← getElem?_after xs ys] at hbar
    exact gapless_window hbar (by omega) (by omega)

/-- The windows of the whole are those of the parts, if the first bars of the second part, which are
left out, have no value. -/
theorem overWindows_append_gap {size first : Nat} (hsize : 0 < size) (f : List α → β)
    (hfirst : ∀ bar < first, bar < ys.length → ys[bar]? = some none) :
    overWindows size first f (xs ++ none :: ys) =
      overWindows size first f xs ++ none :: overWindows size first f ys := by
  have hrange : List.range (xs ++ none :: ys).length =
      List.range xs.length ++
        xs.length :: (List.range ys.length).map fun index => xs.length + (index + 1) := by
    rw [List.length_append, List.length_cons, List.range_add, List.range_succ_eq_map,
      List.map_cons, List.map_map]
    rfl
  rw [overWindows, hrange, List.map_append, List.map_cons, List.map_map]
  congr 1
  · apply List.map_congr_left
    intro index hindex
    rw [window_before xs ys (List.mem_range.mp hindex)]
  congr 1
  · rw [gapless_window (getElem?_gap xs ys) (by omega) (by omega)]
    simp
  · apply List.map_congr_left
    intro index hindex
    rw [List.mem_range] at hindex
    dsimp only [Function.comp_apply]
    by_cases hshort : index + 1 < size + first
    · rw [if_pos hshort, gapless_window_soon_after xs ys hsize hfirst hindex hshort]
      simp
    · rw [if_neg hshort, if_neg (by omega), window_after xs ys (by omega)]

end Parts

theorem shift_eq_gap {series : Series α} (h : series ≠ []) :
    series.shift = [] ++ none :: series.take (series.length - 1) := by
  rw [shift_eq_take, List.nil_append, List.take_cons (List.length_pos_iff.mpr h)]

variable [Scalar α]

theorem sma_append_gap (period : Nat) (xs ys : Series α) :
    sma period (xs ++ none :: ys) = sma period xs ++ none :: sma period ys :=
  overWindows_append_gap xs ys (by omega) _ nofun

theorem emaFrom_append_gap (period : Nat) (state : EmaState α) (xs ys : Series α) :
    emaFrom period state (xs ++ none :: ys) =
      emaFrom period state xs ++ none :: emaFrom period .start ys := by
  induction xs generalizing state with
  | nil => rfl
  | cons value rest ih =>
      cases value with
      | none => simp [emaFrom, ih]
      | some value => simp [emaFrom, ih]

theorem ema_append_gap (period : Nat) (xs ys : Series α) :
    ema period (xs ++ none :: ys) = ema period xs ++ none :: ema period ys :=
  emaFrom_append_gap _ _ xs ys

theorem quarterChanges_eq_zipWith (series : Series α) :
    series.quarterChanges = List.zipWith quarterChange (none :: series) series := by
  rw [quarterChanges, shift_eq_take]
  apply List.ext_getElem
  · simp
  · intro bar hbar hbar'
    simp

theorem changes_append_gap (before : Option α) (xs ys : Series α) :
    List.zipWith quarterChange (before :: (xs ++ none :: ys)) (xs ++ none :: ys) =
      List.zipWith quarterChange (before :: xs) xs ++
        none :: List.zipWith quarterChange (none :: ys) ys := by
  induction xs generalizing before with
  | nil => cases before <;> rfl
  | cons value rest ih => exact congrArg (quarterChange before value :: ·) (ih value)

theorem quarterChanges_append_gap (xs ys : Series α) :
    quarterChanges (xs ++ none :: ys) = xs.quarterChanges ++ none :: ys.quarterChanges := by
  simp only [quarterChanges_eq_zipWith]
  exact changes_append_gap none xs ys

theorem rsi_append_gap (period : Nat) (xs ys : Series α) :
    rsi period (xs ++ none :: ys) = rsi period xs ++ none :: rsi period ys := by
  rw [rsi, quarterChanges_append_gap]
  apply overWindows_append_gap _ _ (by omega)
  intro bar hbar hinside
  obtain rfl : bar = 0 := by omega
  cases ys with
  | nil => simp at hinside
  | cons value rest => rfl

theorem apply_append_gap (indicator : Indicator) (period : Nat) (xs ys : Series α) :
    indicator.apply period (xs ++ none :: ys) =
      indicator.apply period xs ++ none :: indicator.apply period ys := by
  cases indicator with
  | sma => exact sma_append_gap period xs ys
  | ema => exact ema_append_gap period xs ys
  | rsi => exact rsi_append_gap period xs ys

theorem apply_zero (indicator : Indicator) (series : Series α) :
    indicator.apply 0 series = indicator.apply 1 series := by
  cases indicator <;> rfl

theorem apply_shift (indicator : Indicator) (period : Nat) (series : Series α) :
    indicator.apply period series.shift = (indicator.apply period series).shift := by
  have hlength := length_apply indicator period series
  by_cases hempty : series = []
  · have hnil := List.length_eq_zero_iff.mp (length_apply indicator period ([] : Series α))
    rw [hempty, hnil]
    exact hnil
  · have hne : indicator.apply period series ≠ [] := by
      intro hnil
      rw [hnil] at hlength
      exact hempty (List.length_eq_zero_iff.mp hlength.symm)
    rw [shift_eq_gap hempty, apply_append_gap, shift_eq_gap hne, hlength, take_apply,
      List.length_eq_zero_iff.mp (length_apply indicator period [])]

/-- An undefined value cuts a series into parts that an indicator treats each on its own. So every
indicator commutes with the shift, and the values after a gap are the same whatever comes before
it. A period of 0 counts as 1. -/
theorem apply_parts_independent (indicator : Indicator) (period : Nat) :
    (∀ xs ys : Series α, indicator.apply period (xs ++ [none] ++ ys) =
      indicator.apply period xs ++ [none] ++ indicator.apply period ys) ∧
    (∀ series : Series α, indicator.apply 0 series = indicator.apply 1 series) ∧
    (∀ series : Series α,
      indicator.apply period series.shift = (indicator.apply period series).shift) ∧
    ∀ xs xs' ys : Series α,
      (indicator.apply period (xs ++ [none] ++ ys)).drop (xs.length + 1) =
        (indicator.apply period (xs' ++ [none] ++ ys)).drop (xs'.length + 1) := by
  have hparts (xs ys : Series α) : indicator.apply period (xs ++ [none] ++ ys) =
      indicator.apply period xs ++ [none] ++ indicator.apply period ys := by
    simpa using apply_append_gap indicator period xs ys
  have hafter (xs ys : Series α) :
      (indicator.apply period (xs ++ [none] ++ ys)).drop (xs.length + 1) =
        indicator.apply period ys := by
    rw [hparts, List.drop_left' (by simp [length_apply])]
  refine ⟨hparts, apply_zero indicator, apply_shift indicator period, fun xs xs' ys => ?_⟩
  rw [hafter, hafter]

end Backtest.Proofs.SeriesGap
