import Mathlib.Algebra.BigOperators.Ring.Finset
import Mathlib.Data.Set.Finite.Lemmas
import Mathlib.Tactic.Linarith
import Mathlib.Tactic.LinearCombination
import Mathlib.Tactic.Positivity
import Mathlib.Tactic.Ring
import Backtest.Proofs.ExactSeries

/-!
Moving averages over exact fractions. The exponential average, whose loop starts with a mean and
goes on from value to value, is a weighted sum over its whole run, with weights that make up one. So
both averages lie between the least and the greatest of the values that they are taken of, and leave
a constant and, with a period of one, every series as it is.
-/

namespace Backtest.Proofs.ExactAverages

open Backtest.Series
open Backtest.Proofs.BarMeaning
open Backtest.Proofs.ExactArithmetic
open Backtest.Proofs.ExactSeries
open Backtest.Proofs.IndicatorMeaning
open Backtest.Proofs.Checked (valueIn)

/-- The values of a series from the start of a run of defined values up to a bar. -/
structure IsRun (series : Series ℚ) (first bar : ℕ) (value : ℕ → ℚ) : Prop where
  first_le : first ≤ bar
  values : HasValues series first bar value
  starts : first = 0 ∨ series[first - 1]? = some none

theorem runStart_eq {value? : ℕ → Option ℚ} {first bar : ℕ} (hle : first ≤ bar)
    (hvalues : ∀ place, first ≤ place → place < bar → (value? place).isSome = true)
    (hstarts : first = 0 ∨ value? (first - 1) = none) : runStart value? bar = first := by
  induction bar, hle using Nat.le_induction with
  | base =>
      cases first with
      | zero => rfl
      | succ first =>
          have hgap : value? first = none := hstarts.resolve_left (Nat.succ_ne_zero first)
          rw [runStart, hgap]
          rfl
  | succ bar hle ih =>
      rw [runStart, if_pos (hvalues bar hle (Nat.lt_succ_self bar))]
      exact ih fun place hfirst hlt => hvalues place hfirst (Nat.lt_succ_of_lt hlt)

theorem IsRun.runStart_valueIn {series : Series ℚ} {first bar : ℕ} {value : ℕ → ℚ}
    (h : IsRun series first bar value) : runStart (valueIn series) bar = first := by
  apply runStart_eq h.first_le
  · intro place hfirst hlt
    rw [valueIn_eq_some_iff.mpr (h.values place hfirst (Nat.le_of_lt hlt))]
    rfl
  · refine h.starts.imp_right fun hgap => ?_
    rw [valueIn, hgap]
    rfl

theorem exists_isRun {series : Series ℚ} {bar : ℕ} {x : ℚ} (h : series[bar]? = some (some x)) :
    ∃ first value, IsRun series first bar value := by
  obtain ⟨first, hle, hvalues, hstarts⟩ : ∃ first ≤ bar,
      (∀ place, first ≤ place → place ≤ bar → ∃ x, series[place]? = some (some x)) ∧
        (first = 0 ∨ series[first - 1]? = some none) := by
    induction bar generalizing x with
    | zero =>
        refine ⟨0, Nat.le_refl 0, fun place _ hlast => ?_, .inl rfl⟩
        obtain rfl := Nat.le_zero.mp hlast
        exact ⟨x, h⟩
    | succ bar ih =>
        have hbar : bar < series.length :=
          Nat.lt_of_succ_lt (List.getElem?_eq_some_iff.mp h).1
        cases hbefore : series[bar] with
        | none =>
            refine ⟨bar + 1, Nat.le_refl _, fun place hfirst hlast => ?_, .inr ?_⟩
            · obtain rfl := Nat.le_antisymm hlast hfirst
              exact ⟨x, h⟩
            · rw [Nat.add_sub_cancel, List.getElem?_eq_getElem hbar, hbefore]
        | some y =>
            have hy : series[bar]? = some (some y) := by
              rw [List.getElem?_eq_getElem hbar, hbefore]
            obtain ⟨first, hle, hvalues, hstarts⟩ := ih hy
            refine ⟨first, Nat.le_succ_of_le hle, fun place hfirst hlast => ?_, hstarts⟩
            rcases Nat.le_succ_iff.mp hlast with hplace | rfl
            · exact hvalues place hfirst hplace
            · exact ⟨x, h⟩
  obtain ⟨value, hvalue⟩ := exists_hasValues hvalues
  exact ⟨first, value, hle, hvalue, hstarts⟩

/-- The weight of the newest value in an exponential average. -/
def weight (period : ℕ) : ℚ := 2 / (period + 1)

/-- The mean of the first `period` values of a run and the later values up to a bar, with weights
that fall the further back a value lies. -/
def smoothed (period : ℕ) (value : ℕ → ℚ) (first bar : ℕ) : ℚ :=
  let seeded := first + period - 1
  (1 - weight period) ^ (bar - seeded) *
      ((∑ place ∈ Finset.Icc first seeded, value place) / period) +
    ∑ place ∈ Finset.Ioc seeded bar,
      weight period * (1 - weight period) ^ (bar - place) * value place

theorem weight_nonneg (period : ℕ) : 0 ≤ weight period := by
  rw [weight]
  positivity

theorem weight_le_one {period : ℕ} (hperiod : 1 ≤ period) : weight period ≤ 1 := by
  have hcast : (1 : ℚ) ≤ period := by exact_mod_cast hperiod
  rw [weight, div_le_one (by positivity)]
  linarith

theorem sum_weights_succ (k : ℚ) (f : ℕ → ℚ) {seeded bar : ℕ} (h : seeded ≤ bar) :
    ∑ place ∈ Finset.Ioc seeded (bar + 1), k * (1 - k) ^ (bar + 1 - place) * f place =
      f (bar + 1) * k +
        (∑ place ∈ Finset.Ioc seeded bar, k * (1 - k) ^ (bar - place) * f place) * (1 - k) := by
  have hshrink : ∀ place ∈ Finset.Ioc seeded bar, k * (1 - k) ^ (bar + 1 - place) * f place =
      k * (1 - k) ^ (bar - place) * f place * (1 - k) := by
    intro place hplace
    have hle : place ≤ bar := (Finset.mem_Ioc.mp hplace).2
    rw [Nat.succ_sub hle, pow_succ]
    ring
  rw [Finset.sum_Ioc_succ_top h, Finset.sum_congr rfl hshrink, ← Finset.sum_mul, Nat.sub_self,
    pow_zero]
  ring

theorem smoothed_seeded (period : ℕ) (value : ℕ → ℚ) (first : ℕ) :
    smoothed period value first (first + period - 1) =
      (∑ place ∈ Finset.Icc first (first + period - 1), value place) / period := by
  simp [smoothed]

theorem smoothed_succ {period : ℕ} (value : ℕ → ℚ) {first bar : ℕ} (h : first + period - 1 ≤ bar) :
    smoothed period value first (bar + 1) =
      value (bar + 1) * weight period + smoothed period value first bar * (1 - weight period) := by
  simp only [smoothed]
  rw [sum_weights_succ _ _ h, Nat.succ_sub h, pow_succ]
  ring

theorem sum_weights (k : ℚ) {seeded bar : ℕ} (h : seeded ≤ bar) :
    (1 - k) ^ (bar - seeded) +
      ∑ place ∈ Finset.Ioc seeded bar, k * (1 - k) ^ (bar - place) = 1 := by
  induction bar, h using Nat.le_induction with
  | base => simp
  | succ bar h ih =>
      have hstep := sum_weights_succ k (fun _ => 1) h
      simp only [mul_one, one_mul] at hstep
      rw [hstep, Nat.succ_sub h, pow_succ]
      linear_combination (1 - k) * ih

def Between (value : ℕ → ℚ) (first last : ℕ) (x : ℚ) : Prop :=
  ∃ least greatest, IsLeast (value '' Set.Icc first last) least ∧
    IsGreatest (value '' Set.Icc first last) greatest ∧ least ≤ x ∧ x ≤ greatest

def Bounded (value : ℕ → ℚ) (first last : ℕ) (x : ℚ) : Prop :=
  ∀ low high, (∀ place, first ≤ place → place ≤ last → low ≤ value place ∧ value place ≤ high) →
    low ≤ x ∧ x ≤ high

theorem Bounded.between {value : ℕ → ℚ} {first last : ℕ} {x : ℚ} (h : Bounded value first last x)
    (hle : first ≤ last) : Between value first last x := by
  have hfinite : (Set.Icc first last).Finite := Set.finite_Icc first last
  have hsome : (Set.Icc first last).Nonempty := Set.nonempty_Icc.mpr hle
  obtain ⟨low, hlow, hleast⟩ := Set.exists_min_image _ value hfinite hsome
  obtain ⟨high, hhigh, hgreatest⟩ := Set.exists_max_image _ value hfinite hsome
  refine ⟨value low, value high, ⟨⟨low, hlow, rfl⟩, ?_⟩, ⟨⟨high, hhigh, rfl⟩, ?_⟩, ?_⟩
  · rintro _ ⟨place, hplace, rfl⟩
    exact hleast place hplace
  · rintro _ ⟨place, hplace, rfl⟩
    exact hgreatest place hplace
  · exact h _ _ fun place hfirst hlast =>
      ⟨hleast place ⟨hfirst, hlast⟩, hgreatest place ⟨hfirst, hlast⟩⟩

theorem Bounded.eq_of_constant {value : ℕ → ℚ} {first last : ℕ} {x c : ℚ}
    (h : Bounded value first last x)
    (hconstant : ∀ place, first ≤ place → place ≤ last → value place = c) : x = c := by
  obtain ⟨hlow, hhigh⟩ := h c c fun place hfirst hlast =>
    ⟨(hconstant place hfirst hlast).ge, (hconstant place hfirst hlast).le⟩
  exact le_antisymm hhigh hlow

theorem bounded_mean (value : ℕ → ℚ) {first last period : ℕ} (hperiod : 1 ≤ period)
    (hcount : first + period = last + 1) :
    Bounded value first last ((∑ place ∈ Finset.Icc first last, value place) / period) := by
  intro low high hvalues
  have hpos : (0 : ℚ) < period := by exact_mod_cast hperiod
  have hcard : (Finset.Icc first last).card = period := by
    rw [Nat.card_Icc]
    omega
  constructor
  · have hsum := Finset.card_nsmul_le_sum (Finset.Icc first last) value low fun place hplace =>
      (hvalues place (Finset.mem_Icc.mp hplace).1 (Finset.mem_Icc.mp hplace).2).1
    rw [hcard, nsmul_eq_mul] at hsum
    rwa [le_div_iff₀ hpos, mul_comm]
  · have hsum := Finset.sum_le_card_nsmul (Finset.Icc first last) value high fun place hplace =>
      (hvalues place (Finset.mem_Icc.mp hplace).1 (Finset.mem_Icc.mp hplace).2).2
    rw [hcard, nsmul_eq_mul] at hsum
    rwa [div_le_iff₀ hpos, mul_comm]

theorem bounded_smoothed {period : ℕ} (hperiod : 1 ≤ period) (value : ℕ → ℚ) {first bar : ℕ}
    (h : first + period - 1 ≤ bar) : Bounded value first bar (smoothed period value first bar) := by
  induction bar, h using Nat.le_induction with
  | base =>
      rw [smoothed_seeded]
      exact bounded_mean value hperiod (by omega)
  | succ bar h ih =>
      intro low high hvalues
      obtain ⟨hlow, hhigh⟩ := ih low high fun place hfirst hlast =>
        hvalues place hfirst (Nat.le_succ_of_le hlast)
      obtain ⟨hlow', hhigh'⟩ := hvalues (bar + 1) (by omega) (Nat.le_refl _)
      have hnew := weight_nonneg period
      have hold : 0 ≤ 1 - weight period := sub_nonneg.mpr (weight_le_one hperiod)
      rw [smoothed_succ value h]
      constructor
      · calc low = low * weight period + low * (1 - weight period) := by ring
          _ ≤ _ := add_le_add (mul_le_mul_of_nonneg_right hlow' hnew)
            (mul_le_mul_of_nonneg_right hlow hold)
      · calc _ ≤ high * weight period + high * (1 - weight period) :=
            add_le_add (mul_le_mul_of_nonneg_right hhigh' hnew)
              (mul_le_mul_of_nonneg_right hhigh hold)
          _ = high := by ring

/-- The exponential average over a run is its weighted sum, by induction on the bars since the run
was long enough. -/
theorem averageAt_eq_smoothed {period : ℕ} (hperiod : 1 ≤ period) {series : Series ℚ}
    {first bar : ℕ} {value : ℕ → ℚ} (h : first + period - 1 ≤ bar)
    (hrun : IsRun series first bar value) :
    averageAt period (valueIn series) bar = some (smoothed period value first bar) := by
  induction bar, h using Nat.le_induction with
  | base =>
      have hcount : first + period = first + period - 1 + 1 := by omega
      have hstart := hrun.runStart_valueIn
      have hcurrent := valueIn_eq_some_iff.mpr (hrun.values _ hrun.first_le (Nat.le_refl _))
      have hvalues : valuesOn (valueIn series) (runStart (valueIn series) (first + period - 1))
          period = some ((List.range' first period).map value) := by
        rw [hstart]
        exact (valuesOn_eq_some_iff hcount).mpr ⟨value, hrun.values, rfl⟩
      rw [averageAt_of_full hcurrent (by omega) hvalues, foldl_add, sum_map_range' hcount,
        smoothed_seeded]
      rfl
  | succ bar h ih =>
      have hbefore : IsRun series first bar value :=
        ⟨by omega, fun place hfirst hlast => hrun.values place hfirst (Nat.le_succ_of_le hlast),
          hrun.starts⟩
      have hstart := hrun.runStart_valueIn
      have hcurrent := valueIn_eq_some_iff.mpr (hrun.values _ hrun.first_le (Nat.le_refl _))
      rw [averageAt_of_long hcurrent (by omega) (ih hbefore), smoothed_succ value h]
      rfl

theorem getElem?_ema_iff {period : ℕ} (hperiod : 1 ≤ period) {series : Series ℚ} {bar : ℕ} {x : ℚ} :
    (ema period series)[bar]? = some (some x) ↔ ∃ first value, IsRun series first bar value ∧
      first + period ≤ bar + 1 ∧ x = smoothed period value first bar := by
  have hmeaning : (ema period series)[bar]? = some (some x) ↔
      bar < series.length ∧ averageAt period (valueIn series) bar = some x :=
    getElem?_apply_iff .ema hperiod bar series x
  rw [hmeaning]
  constructor
  · rintro ⟨-, haverage⟩
    have hcurrent : ∃ current, series[bar]? = some (some current) := by
      simp only [← valueIn_eq_some_iff]
      apply Option.ne_none_iff_exists'.mp
      intro hgap
      exact nomatch haverage.symm.trans (averageAt_eq_none_of_gap hgap)
    obtain ⟨current, hcurrent⟩ := hcurrent
    obtain ⟨first, value, hrun⟩ := exists_isRun hcurrent
    have hlong : first + period ≤ bar + 1 := by
      apply Nat.le_of_not_lt
      intro hshort
      rw [← hrun.runStart_valueIn] at hshort
      exact nomatch haverage.symm.trans (averageAt_eq_none_of_short hshort)
    have hvalue := averageAt_eq_smoothed hperiod (by omega) hrun
    exact ⟨first, value, hrun, hlong, Option.some.inj (haverage.symm.trans hvalue)⟩
  · rintro ⟨first, value, hrun, hlong, rfl⟩
    exact ⟨hrun.values.lt_length hrun.first_le, averageAt_eq_smoothed hperiod (by omega) hrun⟩

theorem getElem?_sma_iff {period : ℕ} (hperiod : 1 ≤ period) {series : Series ℚ} {bar : ℕ} {x : ℚ} :
    (sma period series)[bar]? = some (some x) ↔ ∃ value, period ≤ bar + 1 ∧
      HasValues series (bar + 1 - period) bar value ∧
        x = (∑ place ∈ Finset.Icc (bar + 1 - period) bar, value place) / period := by
  have hmeaning : (sma period series)[bar]? = some (some x) ↔
      bar < series.length ∧ meanAt period (valueIn series) bar = some x :=
    getElem?_apply_iff .sma hperiod bar series x
  rw [hmeaning, meanAt, overLast]
  by_cases hshort : bar + 1 < period
  · simp [hshort]
  · have hcount : bar + 1 - period + period = bar + 1 := by omega
    rw [if_neg hshort, Option.map_eq_some_iff]
    simp only [valuesOn_eq_some_iff hcount]
    constructor
    · rintro ⟨-, _, ⟨value, h, rfl⟩, rfl⟩
      refine ⟨value, Nat.le_of_not_lt hshort, h, ?_⟩
      rw [sum_eq, sum_map_range' hcount, ofNat_eq]
    · rintro ⟨value, -, h, rfl⟩
      refine ⟨h.lt_length (by omega), _, ⟨value, h, rfl⟩, ?_⟩
      rw [sum_eq, sum_map_range' hcount, ofNat_eq]

theorem smoothed_one (value : ℕ → ℚ) {first bar : ℕ} (h : first ≤ bar) :
    smoothed 1 value first bar = value bar := by
  have hweight : weight 1 = 1 := by norm_num [weight]
  induction bar, h using Nat.le_induction with
  | base => simpa using smoothed_seeded 1 value first
  | succ bar h =>
      rw [smoothed_succ value (by omega), hweight, sub_self, mul_zero, add_zero, mul_one]

theorem ema_one (series : Series ℚ) : ema 1 series = series := by
  apply series_ext
  · simp
  intro bar x
  rw [getElem?_ema_iff (Nat.le_refl 1)]
  constructor
  · rintro ⟨first, value, hrun, -, rfl⟩
    rw [smoothed_one value hrun.first_le]
    exact hrun.values bar hrun.first_le (Nat.le_refl bar)
  · intro h
    obtain ⟨first, value, hrun⟩ := exists_isRun h
    have hvalue := hrun.values bar hrun.first_le (Nat.le_refl bar)
    refine ⟨first, value, hrun, Nat.succ_le_succ hrun.first_le, ?_⟩
    rw [smoothed_one value hrun.first_le]
    exact Option.some.inj (Option.some.inj (h.symm.trans hvalue))

theorem sma_one (series : Series ℚ) : sma 1 series = series := by
  apply series_ext
  · simp
  intro bar x
  rw [getElem?_sma_iff (Nat.le_refl 1), Nat.add_sub_cancel]
  simp only [Finset.Icc_self, Finset.sum_singleton, Nat.cast_one, div_one]
  constructor
  · rintro ⟨value, -, h, rfl⟩
    exact h bar (Nat.le_refl bar) (Nat.le_refl bar)
  · intro h
    refine ⟨fun _ => x, Nat.succ_le_succ (Nat.zero_le bar), fun place hfirst hlast => ?_, rfl⟩
    obtain rfl := Nat.le_antisymm hlast hfirst
    exact h

/-- Each value of an exponential average is the weighted sum of its run of values, with shares of
one for weights, and each value of a simple average is the mean of its window. Both lie between the
least and the greatest of these values, so that a constant is kept, and with a period of one both
leave a series as it is. The run and the window alone decide whether there is a value. -/
theorem averages_are_weighted_means (period : ℕ) (hperiod : 1 ≤ period) (series : Series ℚ) :
    (∀ (bar : ℕ) (x : ℚ), (ema period series)[bar]? = some (some x) →
      ∃ first value, IsRun series first bar value ∧ first + period ≤ bar + 1 ∧
        x = smoothed period value first bar ∧ Between value first bar x ∧
        ∀ c, (∀ place, first ≤ place → place ≤ bar → value place = c) → x = c) ∧
    (∀ (bar first : ℕ) (value : ℕ → ℚ), IsRun series first bar value → first + period ≤ bar + 1 →
      ∃ x, (ema period series)[bar]? = some (some x)) ∧
    (∀ seeded bar, seeded ≤ bar →
      0 ≤ (1 - weight period) ^ (bar - seeded) ∧
        (∀ place, 0 ≤ weight period * (1 - weight period) ^ (bar - place)) ∧
        (1 - weight period) ^ (bar - seeded) +
          ∑ place ∈ Finset.Ioc seeded bar, weight period * (1 - weight period) ^ (bar - place) =
            1) ∧
    (∀ (bar : ℕ) (x : ℚ), (sma period series)[bar]? = some (some x) →
      period ≤ bar + 1 ∧ ∃ value, HasValues series (bar + 1 - period) bar value ∧
        x = (∑ place ∈ Finset.Icc (bar + 1 - period) bar, value place) / period ∧
        Between value (bar + 1 - period) bar x ∧
        ∀ c, (∀ place, bar + 1 - period ≤ place → place ≤ bar → value place = c) → x = c) ∧
    (∀ (bar : ℕ) (value : ℕ → ℚ), period ≤ bar + 1 →
      HasValues series (bar + 1 - period) bar value →
        ∃ x, (sma period series)[bar]? = some (some x)) ∧
    ema 1 series = series ∧ sma 1 series = series := by
  refine ⟨?_, ?_, ?_, ?_, ?_, ema_one series, sma_one series⟩
  · intro bar x hx
    obtain ⟨first, value, hrun, hlong, rfl⟩ := (getElem?_ema_iff hperiod).mp hx
    have hseeded : first + period - 1 ≤ bar := by omega
    have hbounded := bounded_smoothed hperiod value hseeded
    exact ⟨first, value, hrun, hlong, rfl, hbounded.between hrun.first_le,
      fun _ => hbounded.eq_of_constant⟩
  · intro bar first value hrun hlong
    exact ⟨_, (getElem?_ema_iff hperiod).mpr ⟨first, value, hrun, hlong, rfl⟩⟩
  · intro seeded bar h
    have hold : 0 ≤ 1 - weight period := sub_nonneg.mpr (weight_le_one hperiod)
    exact ⟨pow_nonneg hold _, fun place => mul_nonneg (weight_nonneg period) (pow_nonneg hold _),
      sum_weights _ h⟩
  · intro bar x hx
    obtain ⟨value, hlong, h, rfl⟩ := (getElem?_sma_iff hperiod).mp hx
    have hcount : bar + 1 - period + period = bar + 1 := by omega
    have hbounded := bounded_mean value hperiod hcount
    exact ⟨hlong, value, h, rfl, hbounded.between (by omega), fun _ => hbounded.eq_of_constant⟩
  · intro bar value hlong h
    exact ⟨_, (getElem?_sma_iff hperiod).mpr ⟨value, hlong, h, rfl⟩⟩

def gappedSeries : Series ℚ := [some 100, none, some 10, some 12, some 17]

theorem averages_are_weighted_means_gappedSeries :
    1 ≤ 2 ∧ (ema 2 gappedSeries)[4]? = some (some 15) ∧
      (∃ first value, IsRun gappedSeries first 4 value ∧ first + 2 ≤ 4 + 1 ∧
        15 = smoothed 2 value first 4) ∧
      (sma 2 gappedSeries)[4]? = some (some (29 / 2)) ∧
      ∃ value, HasValues gappedSeries 3 4 value ∧ Between value 3 4 (29 / 2) := by
  have haverage : (ema 2 gappedSeries)[4]? = some (some 15) := by decide +kernel
  have hmean : (sma 2 gappedSeries)[4]? = some (some (29 / 2)) := by decide +kernel
  obtain ⟨hema, -, -, hsma, -⟩ := averages_are_weighted_means 2 (by decide) gappedSeries
  obtain ⟨first, value, hrun, hlong, hx, -⟩ := hema 4 15 haverage
  obtain ⟨-, value', h, -, hbetween, -⟩ := hsma 4 (29 / 2) hmean
  exact ⟨by decide, haverage, ⟨first, value, hrun, hlong, hx⟩, hmean, ⟨value', h, hbetween⟩⟩

end Backtest.Proofs.ExactAverages
