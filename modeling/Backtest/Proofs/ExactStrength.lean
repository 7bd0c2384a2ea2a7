import Mathlib.Algebra.BigOperators.Field
import Mathlib.Tactic.FieldSimp
import Mathlib.Tactic.Linarith
import Mathlib.Tactic.Positivity
import Mathlib.Tactic.Ring
import Backtest.Proofs.ExactSeries

namespace Backtest.Proofs.ExactStrength

open Backtest.Series
open Backtest.Proofs.BarMeaning
open Backtest.Proofs.ExactArithmetic
open Backtest.Proofs.ExactSeries
open Backtest.Proofs.Checked (valueIn)

def change (value : ℕ → ℚ) (bar : ℕ) : ℚ := value bar - value (bar - 1)

/-- The sum of the positive changes after one bar and up to another. -/
def gains (value : ℕ → ℚ) (first last : ℕ) : ℚ :=
  ∑ bar ∈ Finset.Ioc first last with 0 < change value bar, change value bar

def losses (value : ℕ → ℚ) (first last : ℕ) : ℚ :=
  ∑ bar ∈ Finset.Ioc first last with change value bar < 0, |change value bar|

/-- The share of the gains, on a scale to 100, with the middle where nothing changes. -/
def strengthIndex (gain loss : ℚ) : ℚ :=
  if gain + loss = 0 then 50 else 100 * gain / (gain + loss)

def gainPart (x : ℚ) : ℚ := if 0 < x then x else 0

def lossPart (x : ℚ) : ℚ := if x < 0 then |x| else 0

theorem gains_eq (value : ℕ → ℚ) (first last : ℕ) :
    gains value first last = ∑ bar ∈ Finset.Ioc first last, gainPart (change value bar) :=
  Finset.sum_filter _ _

theorem losses_eq (value : ℕ → ℚ) (first last : ℕ) :
    losses value first last = ∑ bar ∈ Finset.Ioc first last, lossPart (change value bar) :=
  Finset.sum_filter _ _

theorem gainPart_div {scale : ℚ} (hscale : 0 < scale) (x : ℚ) :
    gainPart (x / scale) = gainPart x / scale := by
  have hpos : 0 < x / scale ↔ 0 < x := div_pos_iff_of_pos_right hscale
  simp only [gainPart, hpos]
  split
  · rfl
  · exact (zero_div scale).symm

theorem lossPart_div {scale : ℚ} (hscale : 0 < scale) (x : ℚ) :
    lossPart (x / scale) = lossPart x / scale := by
  have hneg : x / scale < 0 ↔ x < 0 := by rw [div_lt_iff₀ hscale, zero_mul]
  simp only [lossPart, hneg]
  split
  · rw [abs_div, abs_of_pos hscale]
  · exact (zero_div scale).symm

theorem gains_nonneg (value : ℕ → ℚ) (first last : ℕ) : 0 ≤ gains value first last :=
  Finset.sum_nonneg fun _ hbar => (Finset.mem_filter.mp hbar).2.le

theorem losses_nonneg (value : ℕ → ℚ) (first last : ℕ) : 0 ≤ losses value first last :=
  Finset.sum_nonneg fun _ _ => abs_nonneg _

section Index

variable {gain loss : ℚ}

theorem strength_div_div (hgain : 0 ≤ gain) (hloss : 0 ≤ loss) {scale : ℚ} (hscale : 0 < scale) :
    strength (gain / scale) (loss / scale) = strengthIndex gain loss := by
  have hzero : loss / scale = 0 ↔ loss = 0 := by simp [hscale.ne']
  have hpos : 0 < gain / scale ↔ 0 < gain := div_pos_iff_of_pos_right hscale
  rw [strength, strengthIndex]
  simp only [eq_iff, lt_iff, zero_eq, one_eq, ofNat_eq, hzero, hpos]
  by_cases hnone : loss = 0
  · rw [if_pos hnone, hnone, add_zero]
    rcases hgain.eq_or_lt with rfl | hsome
    · simp
    · rw [if_pos hsome, if_neg hsome.ne', mul_div_cancel_right₀ _ hsome.ne']
      simp
  · have hsome : 0 < loss := lt_of_le_of_ne hloss (Ne.symm hnone)
    rw [if_neg hnone, if_neg (by positivity), div_div_div_cancel_right₀ hscale.ne']
    push_cast
    field_simp
    ring

theorem strengthIndex_swap (gain loss : ℚ) :
    strengthIndex loss gain = 100 - strengthIndex gain loss := by
  rw [strengthIndex, strengthIndex, add_comm loss gain]
  split
  · norm_num
  · rename_i hsome
    field_simp
    ring

theorem strengthIndex_nonneg (hgain : 0 ≤ gain) (hloss : 0 ≤ loss) :
    0 ≤ strengthIndex gain loss := by
  rw [strengthIndex]
  split
  · norm_num
  · positivity

theorem strengthIndex_le_hundred (hgain : 0 ≤ gain) (hloss : 0 ≤ loss) :
    strengthIndex gain loss ≤ 100 := by
  have hrest := strengthIndex_nonneg hloss hgain
  rw [strengthIndex_swap] at hrest
  linarith

theorem strengthIndex_eq_hundred_iff (hgain : 0 ≤ gain) :
    strengthIndex gain loss = 100 ↔ loss = 0 ∧ 0 < gain := by
  rw [strengthIndex]
  split
  · rename_i hnone
    constructor
    · intro h
      norm_num at h
    · rintro ⟨rfl, hsome⟩
      linarith
  · rename_i hsome
    rw [div_eq_iff hsome]
    constructor
    · intro h
      have hloss : loss = 0 := by linarith
      rw [hloss, add_zero] at hsome
      exact ⟨hloss, lt_of_le_of_ne hgain (Ne.symm hsome)⟩
    · rintro ⟨rfl, -⟩
      rw [add_zero]

theorem strengthIndex_eq_zero_iff (hloss : 0 ≤ loss) :
    strengthIndex gain loss = 0 ↔ gain = 0 ∧ 0 < loss := by
  rw [← strengthIndex_eq_hundred_iff hloss, strengthIndex_swap, sub_eq_zero, eq_comm]

end Index

theorem meanGainLoss_concat (count : ℕ) (changes : List ℚ) (last : ℚ) :
    meanGainLoss count (changes ++ [last]) =
      if 0 < last then
        ((meanGainLoss count changes).1 + last / count, (meanGainLoss count changes).2)
      else ((meanGainLoss count changes).1, (meanGainLoss count changes).2 - last / count) := by
  have hstep : meanGainLoss count (changes ++ [last]) =
      if Scalar.lt Scalar.zero last then
        ((meanGainLoss count changes).1 + last / Scalar.ofNat count, (meanGainLoss count changes).2)
      else ((meanGainLoss count changes).1,
        (meanGainLoss count changes).2 - last / Scalar.ofNat count) := by
    rw [meanGainLoss, List.foldl_append]
    rfl
  simpa using hstep

theorem meanGainLoss_eq (count : ℕ) (changes : List ℚ) :
    meanGainLoss count changes =
      ((changes.map gainPart).sum / count, (changes.map lossPart).sum / count) := by
  induction changes using List.reverseRecOn with
  | nil => simp [meanGainLoss]
  | append_singleton changes last ih =>
      rw [meanGainLoss_concat, ih]
      by_cases hgain : 0 < last
      · simp [gainPart, lossPart, hgain, hgain.not_gt, add_div]
      · rcases (not_lt.mp hgain).eq_or_lt with rfl | hloss
        · simp [gainPart, lossPart]
        · simp [gainPart, lossPart, hgain, hloss, abs_of_neg hloss, add_div, neg_div,
            sub_eq_add_neg]

theorem quarterSteps_map (value : ℕ → ℚ) (first count : ℕ) :
    quarterSteps ((List.range' first (count + 1)).map value) =
      (List.range' (first + 1) count).map fun bar => change value bar / 4 := by
  induction count generalizing first with
  | zero => rfl
  | succ count ih =>
      have hnext : (List.range' (first + 1) (count + 1)).map value =
          value (first + 1) :: (List.range' (first + 1 + 1) count).map value := by
        rw [List.range'_succ, List.map_cons]
      have hchange : value (first + 1) / Scalar.ofNat 4 - value first / Scalar.ofNat 4 =
          change value (first + 1) / 4 := by
        rw [change, Nat.add_sub_cancel, sub_div]
        rfl
      rw [List.range'_succ, List.map_cons, hnext, quarterSteps, ← hnext, ih, hchange,
        @List.range'_succ (first + 1), List.map_cons]

theorem sum_parts {part : ℚ → ℚ} (hpart : ∀ x, part (x / 4) = part x / 4) (value : ℕ → ℚ)
    {first last count : ℕ} (hcount : first + count = last) :
    (((List.range' (first + 1) count).map fun bar => change value bar / 4).map part).sum =
      (∑ bar ∈ Finset.Ioc first last, part (change value bar)) / 4 := by
  have hbars : first + 1 + count = last + 1 := by omega
  rw [List.map_map, sum_map_range' hbars, Finset.Icc_add_one_left_eq_Ioc, Finset.sum_div]
  exact Finset.sum_congr rfl fun bar _ => hpart (change value bar)

/-- The gains and losses that the index is computed from are those of the window, on one scale. -/
theorem meanGainLoss_quarterSteps (value : ℕ → ℚ) {first last count : ℕ}
    (hcount : first + count = last) :
    meanGainLoss count (quarterSteps ((List.range' first (count + 1)).map value)) =
      (gains value first last / (4 * count), losses value first last / (4 * count)) := by
  have hfour : (0 : ℚ) < 4 := by norm_num
  rw [quarterSteps_map, meanGainLoss_eq, sum_parts (gainPart_div hfour) value hcount,
    sum_parts (lossPart_div hfour) value hcount, ← gains_eq, ← losses_eq, div_div, div_div]

theorem strength_quarterSteps (value : ℕ → ℚ) {first last period : ℕ} (hperiod : 1 ≤ period)
    (hlast : first + period = last) :
    (let (gain, loss) := meanGainLoss period
      (quarterSteps ((List.range' first (period + 1)).map value))
    strength gain loss) = strengthIndex (gains value first last) (losses value first last) := by
  have hscale : (0 : ℚ) < 4 * period := by positivity
  rw [meanGainLoss_quarterSteps value hlast]
  exact strength_div_div (gains_nonneg value first last) (losses_nonneg value first last) hscale

theorem getElem?_rsi_iff {period bar : ℕ} (hperiod : 1 ≤ period) {series : Series ℚ} {x : ℚ} :
    (rsi period series)[bar]? = some (some x) ↔ ∃ value, period ≤ bar ∧
      HasValues series (bar - period) bar value ∧
        x = strengthIndex (gains value (bar - period) bar) (losses value (bar - period) bar) := by
  have hmeaning : (rsi period series)[bar]? = some (some x) ↔
      bar < series.length ∧ strengthAt period (valueIn series) bar = some x :=
    getElem?_apply_iff .rsi hperiod bar series x
  rw [hmeaning, IndicatorMeaning.strengthAt_eq, overLast, Nat.add_sub_add_right]
  by_cases hshort : bar < period
  · simp [hshort]
  · have hlast : bar - period + period = bar := by omega
    have hcount : bar - period + (period + 1) = bar + 1 := by omega
    rw [if_neg (by omega), Option.map_eq_some_iff]
    simp only [valuesOn_eq_some_iff hcount]
    constructor
    · rintro ⟨-, _, ⟨value, h, rfl⟩, rfl⟩
      exact ⟨value, Nat.le_of_not_lt hshort, h, strength_quarterSteps value hperiod hlast⟩
    · rintro ⟨value, -, h, rfl⟩
      exact ⟨h.lt_length (by omega), _, ⟨value, h, rfl⟩,
        strength_quarterSteps value hperiod hlast⟩

theorem change_div (value : ℕ → ℚ) (scale shift : ℚ) (bar : ℕ) :
    change (fun bar => (value bar - shift) / scale) bar = change value bar / scale := by
  rw [change, change, ← sub_div, sub_sub_sub_cancel_right]

theorem strengthIndex_rescaled (value : ℕ → ℚ) (first last : ℕ) {scale : ℚ} (hscale : 0 < scale)
    (shift : ℚ) :
    strengthIndex (gains (fun bar => (value bar - shift) / scale) first last)
        (losses (fun bar => (value bar - shift) / scale) first last) =
      strengthIndex (gains value first last) (losses value first last) := by
  have hgain := gains_nonneg value first last
  have hloss := losses_nonneg value first last
  have hgains : gains (fun bar => (value bar - shift) / scale) first last =
      gains value first last / scale := by
    simp only [gains_eq, change_div, gainPart_div hscale, Finset.sum_div]
  have hlosses : losses (fun bar => (value bar - shift) / scale) first last =
      losses value first last / scale := by
    simp only [losses_eq, change_div, lossPart_div hscale, Finset.sum_div]
  rw [hgains, hlosses, ← strength_div_div hgain hloss hscale,
    ← strength_div_div (div_nonneg hgain hscale.le) (div_nonneg hloss hscale.le) one_pos, div_one,
    div_one]

theorem hasValues_rescaled {series : Series ℚ} {first last : ℕ} {value : ℕ → ℚ} {scale : ℚ}
    (hscale : 0 < scale) (shift : ℚ) :
    HasValues (series.map (Option.map fun x => scale * x + shift)) first last value ↔
      HasValues series first last fun bar => (value bar - shift) / scale := by
  have hinverse (x y : ℚ) : scale * x + shift = y ↔ x = (y - shift) / scale := by
    rw [eq_div_iff hscale.ne', ← eq_sub_iff_add_eq, mul_comm]
  have hbar (bar : ℕ) :
      (series.map (Option.map fun x => scale * x + shift))[bar]? = some (some (value bar)) ↔
        series[bar]? = some (some ((value bar - shift) / scale)) := by
    simp [List.getElem?_map, Option.map_eq_some_iff, hinverse]
  simp only [HasValues, hbar]

theorem rsi_rescaled {period : ℕ} (hperiod : 1 ≤ period) (series : Series ℚ) {scale : ℚ}
    (hscale : 0 < scale) (shift : ℚ) :
    rsi period (series.map (Option.map fun x => scale * x + shift)) = rsi period series := by
  apply series_ext
  · simp
  intro bar x
  rw [getElem?_rsi_iff hperiod, getElem?_rsi_iff hperiod]
  simp only [hasValues_rescaled hscale]
  constructor
  · rintro ⟨value, hlong, h, rfl⟩
    exact ⟨_, hlong, h, (strengthIndex_rescaled value _ _ hscale shift).symm⟩
  · rintro ⟨value, hlong, h, rfl⟩
    have hback : (fun bar => (scale * value bar + shift - shift) / scale) = value := by
      funext bar
      rw [add_sub_cancel_right, mul_div_cancel_left₀ _ hscale.ne']
    have hindex := strengthIndex_rescaled (fun bar => scale * value bar + shift) (bar - period) bar
      hscale shift
    simp only [hback] at hindex
    exact ⟨fun bar => scale * value bar + shift, hlong, hback.symm ▸ h, hindex⟩

/-- Each value of the relative strength index is the share of the gains in the changes of its
window, on a scale to 100 that it never leaves and of which it reaches an end exactly if there are
only gains or only losses. The window alone decides whether there is a value, and neither level nor
unit of the series matters. -/
theorem rsi_eq_share (period : ℕ) (hperiod : 1 ≤ period) (series : Series ℚ) :
    (∀ (bar : ℕ) (x : ℚ), (rsi period series)[bar]? = some (some x) →
      period ≤ bar ∧ ∃ value, HasValues series (bar - period) bar value ∧
        let gain := gains value (bar - period) bar
        let loss := losses value (bar - period) bar
        x = (if gain + loss = 0 then 50 else 100 * gain / (gain + loss)) ∧
          0 ≤ x ∧ x ≤ 100 ∧ (x = 100 ↔ loss = 0 ∧ 0 < gain) ∧ (x = 0 ↔ gain = 0 ∧ 0 < loss)) ∧
    (∀ (bar : ℕ) (value : ℕ → ℚ), period ≤ bar → HasValues series (bar - period) bar value →
      ∃ x, (rsi period series)[bar]? = some (some x)) ∧
    ∀ scale shift : ℚ, 0 < scale →
      rsi period (series.map (Option.map fun x => scale * x + shift)) = rsi period series := by
  refine ⟨?_, ?_, fun scale shift hscale => rsi_rescaled hperiod series hscale shift⟩
  · intro bar x hx
    obtain ⟨value, hlong, h, rfl⟩ := (getElem?_rsi_iff hperiod).mp hx
    have hgain := gains_nonneg value (bar - period) bar
    have hloss := losses_nonneg value (bar - period) bar
    exact ⟨hlong, value, h, rfl, strengthIndex_nonneg hgain hloss,
      strengthIndex_le_hundred hgain hloss, strengthIndex_eq_hundred_iff hgain,
      strengthIndex_eq_zero_iff hloss⟩
  · intro bar value hlong h
    exact ⟨_, (getElem?_rsi_iff hperiod).mpr ⟨value, hlong, h, rfl⟩⟩

def brokenSeries : Series ℚ := [some 10, none, some 12, some 11, some 14]

theorem rsi_eq_share_brokenSeries :
    1 ≤ 2 ∧ (rsi 2 brokenSeries)[4]? = some (some 75) ∧
      (∃ value, HasValues brokenSeries 2 4 value ∧
        75 = (if gains value 2 4 + losses value 2 4 = 0 then 50
          else 100 * gains value 2 4 / (gains value 2 4 + losses value 2 4))) ∧
      0 < (3 : ℚ) ∧
      rsi 2 (brokenSeries.map (Option.map fun x => 3 * x + 7)) = rsi 2 brokenSeries := by
  have hvalue : (rsi 2 brokenSeries)[4]? = some (some 75) := by decide +kernel
  have hscale : 0 < (3 : ℚ) := by norm_num
  obtain ⟨hshare, -, hrescaled⟩ := rsi_eq_share 2 (by decide) brokenSeries
  obtain ⟨-, value, h, hindex, -⟩ := hshare 4 75 hvalue
  exact ⟨by decide, hvalue, ⟨value, h, hindex⟩, hscale, hrescaled 3 7 hscale⟩

end Backtest.Proofs.ExactStrength
