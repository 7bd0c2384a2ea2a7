import Mathlib.Algebra.BigOperators.Intervals
import Backtest.Proofs.Checked.Evaluation
import Backtest.Proofs.ExactArithmetic
import Backtest.Proofs.WarmUp

namespace Backtest.Proofs.ExactSeries

open Backtest.Rule
open Backtest.Proofs.BarMeaning
open Backtest.Proofs.IndicatorMeaning
open Backtest.Proofs.SignalMeaning
open Backtest.Proofs.WarmUp
open Backtest.Proofs.Checked (valueIn eq_seriesOf)

/-- The values of a series at the bars of an interval, all of them defined. -/
def HasValues (series : Series ℚ) (first last : ℕ) (value : ℕ → ℚ) : Prop :=
  ∀ bar, first ≤ bar → bar ≤ last → series[bar]? = some (some (value bar))

theorem HasValues.lt_length {series : Series ℚ} {first last : ℕ} {value : ℕ → ℚ}
    (h : HasValues series first last value) (hle : first ≤ last) : last < series.length :=
  (List.getElem?_eq_some_iff.mp (h last hle (Nat.le_refl last))).1

theorem valueIn_eq_some_iff {series : Series ℚ} {bar : ℕ} {x : ℚ} :
    valueIn series bar = some x ↔ series[bar]? = some (some x) :=
  Option.join_eq_some_iff

theorem series_ext {xs ys : Series ℚ} (hlength : xs.length = ys.length)
    (h : ∀ (bar : ℕ) (x : ℚ), xs[bar]? = some (some x) ↔ ys[bar]? = some (some x)) : xs = ys := by
  have hvalue : valueIn xs = valueIn ys := by
    funext bar
    apply Option.ext
    intro x
    rw [valueIn_eq_some_iff, valueIn_eq_some_iff, h]
  rw [eq_seriesOf xs, eq_seriesOf ys, hlength, hvalue]

theorem getElem?_apply_iff (indicator : Indicator) {period : ℕ} (hperiod : 1 ≤ period) (bar : ℕ)
    (series : Series ℚ) (x : ℚ) :
    (indicator.apply period series)[bar]? = some (some x) ↔
      bar < series.length ∧ indicatorAt indicator period (valueIn series) bar = some x := by
  have happly := apply_seriesOf indicator period (valueIn series) series.length
  rw [← eq_seriesOf series, Nat.max_eq_right hperiod] at happly
  rw [happly]
  by_cases hbar : bar < series.length
  · rw [getElem?_seriesOf hbar, Option.some_inj, and_iff_right hbar]
  · rw [List.getElem?_eq_none (by simpa using hbar)]
    simp [hbar]

theorem valuesOn_eq_map {value? : ℕ → Option ℚ} {value : ℕ → ℚ} {first count : ℕ}
    (h : ∀ bar, first ≤ bar → bar < first + count → value? bar = some (value bar)) :
    valuesOn value? first count = some ((List.range' first count).map value) := by
  induction count generalizing first with
  | zero => rfl
  | succ count ih =>
      rw [valuesOn_cons, h first (Nat.le_refl first) (by omega),
        ih fun bar hfirst hlast => h bar (by omega) (by omega), List.range'_succ]
      rfl

section Interval

variable {series : Series ℚ} {first last count : ℕ}

theorem exists_hasValues
    (h : ∀ bar, first ≤ bar → bar ≤ last → ∃ x, series[bar]? = some (some x)) :
    ∃ value, HasValues series first last value := by
  refine ⟨fun bar => (valueIn series bar).getD 0, fun bar hfirst hlast => ?_⟩
  obtain ⟨x, hx⟩ := h bar hfirst hlast
  dsimp only
  rw [valueIn_eq_some_iff.mpr hx, hx, Option.getD_some]

theorem valuesOn_eq_some_iff (hcount : first + count = last + 1) {values : List ℚ} :
    valuesOn (valueIn series) first count = some values ↔
      ∃ value, HasValues series first last value ∧
        values = (List.range' first count).map value := by
  have hmap {value : ℕ → ℚ} (h : HasValues series first last value) :
      valuesOn (valueIn series) first count = some ((List.range' first count).map value) :=
    valuesOn_eq_map fun bar hfirst hlast =>
      valueIn_eq_some_iff.mpr (h bar hfirst (by omega))
  constructor
  · intro hvalues
    obtain ⟨value, h⟩ : ∃ value, HasValues series first last value := by
      apply exists_hasValues
      intro bar hfirst hlast
      simp only [← valueIn_eq_some_iff]
      apply Option.ne_none_iff_exists'.mp
      intro hgap
      have hnone : valuesOn (valueIn series) first count = none :=
        valuesOn_eq_none_iff.mpr ⟨bar, hfirst, by omega, hgap⟩
      exact nomatch hvalues.symm.trans hnone
    exact ⟨value, h, Option.some.inj (hvalues.symm.trans (hmap h))⟩
  · rintro ⟨value, h, rfl⟩
    exact hmap h

theorem sum_map_range' (hcount : first + count = last + 1) (f : ℕ → ℚ) :
    ((List.range' first count).map f).sum = ∑ bar ∈ Finset.Icc first last, f bar := by
  have hlength : count = last + 1 - first := by omega
  rw [Nat.Icc_eq_range', hlength]
  rfl

end Interval

end Backtest.Proofs.ExactSeries
