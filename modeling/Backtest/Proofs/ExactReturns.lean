import Mathlib.Algebra.Order.BigOperators.GroupWithZero.List
import Mathlib.Algebra.Order.Field.Basic
import Mathlib.Tactic.Linarith
import Backtest.Proofs.ExactArithmetic
import Backtest.Proofs.TradingLoop

namespace Backtest.Proofs.ExactReturns

open Backtest.Proofs.ExactArithmetic
open Backtest.Proofs.TradeSchedule
open Backtest.Proofs.TradingLoop

/-- A trade at prices that are not negative, with the gain that they give. -/
structure Priced (trade : Trade ℚ) : Prop where
  entryPrice_nonneg : 0 ≤ trade.entryPrice
  exitPrice_nonneg : 0 ≤ trade.exitPrice
  gain_eq : trade.gain =
    if 0 < trade.entryPrice then (trade.exitPrice - trade.entryPrice) / trade.entryPrice else 0

theorem priced_tradeBetween {frame : Frame ℚ} (hnonneg : ∀ price ∈ frame.close, 0 ≤ price)
    (opened closed : Fin frame.size) (forced : Bool) :
    Priced (tradeBetween frame opened closed forced) where
  entryPrice_nonneg := hnonneg _ (List.get_mem _ _)
  exitPrice_nonneg := hnonneg _ (List.get_mem _ _)
  gain_eq := by simp [tradeBetween]

/-- What a trade multiplies the capital by. -/
def growth (trade : Trade ℚ) : ℚ :=
  if 0 < trade.entryPrice then trade.exitPrice / trade.entryPrice else 1

theorem Priced.one_add_gain {trade : Trade ℚ} (hpriced : Priced trade) :
    1 + trade.gain = growth trade := by
  rw [hpriced.gain_eq, growth]
  split
  · rename_i hpositive
    rw [sub_div, div_self hpositive.ne', add_sub_cancel]
  · exact add_zero 1

theorem Priced.growth_nonneg {trade : Trade ℚ} (hpriced : Priced trade) : 0 ≤ growth trade := by
  rw [growth]
  split
  · exact div_nonneg hpriced.exitPrice_nonneg hpriced.entryPrice_nonneg
  · exact zero_le_one

theorem Priced.neg_one_le_gain {trade : Trade ℚ} (hpriced : Priced trade) : -1 ≤ trade.gain := by
  have hnonneg := hpriced.growth_nonneg
  rw [← hpriced.one_add_gain] at hnonneg
  linarith

theorem prod_map_growth (trades : List (Trade ℚ)) :
    (trades.map growth).prod =
      ((trades.filter (0 < ·.entryPrice)).map fun trade =>
        trade.exitPrice / trade.entryPrice).prod := by
  induction trades with
  | nil => rfl
  | cons trade rest ih =>
      rw [List.map_cons, List.prod_cons, ih, List.filter_cons, growth]
      by_cases hpaid : 0 < trade.entryPrice
      · simp [hpaid]
      · simp [hpaid]

theorem compound_eq {trade : Trade ℚ} (hpriced : Priced trade) (capital : ℚ) :
    compound capital trade = capital * growth trade := by
  rw [← hpriced.one_add_gain, compound, one_eq]

theorem foldl_compound {trades : List (Trade ℚ)} (hpriced : ∀ trade ∈ trades, Priced trade)
    (capital : ℚ) : trades.foldl compound capital = capital * (trades.map growth).prod := by
  induction trades generalizing capital with
  | nil => exact (mul_one capital).symm
  | cons trade rest ih =>
      obtain ⟨hfirst, hothers⟩ := List.forall_mem_cons.mp hpriced
      rw [List.foldl_cons, ih hothers, compound_eq hfirst, mul_assoc, List.map_cons, List.prod_cons]

theorem nonneg_of_mem_equityFrom {trades : List (Trade ℚ)}
    (hpriced : ∀ trade ∈ trades, Priced trade) {start capital : ℚ} (hnonneg : 0 ≤ start)
    (hmem : capital ∈ equityFrom start trades) : 0 ≤ capital := by
  induction trades generalizing start with
  | nil => exact List.mem_singleton.mp hmem ▸ hnonneg
  | cons trade rest ih =>
      obtain ⟨hfirst, hothers⟩ := List.forall_mem_cons.mp hpriced
      rcases List.mem_cons.mp hmem with rfl | hlater
      · exact hnonneg
      · refine ih hothers ?_ hlater
        rw [compound_eq hfirst]
        exact mul_nonneg hnonneg hfirst.growth_nonneg

theorem compoundedReturn_eq {trades : List (Trade ℚ)}
    (hpriced : ∀ trade ∈ trades, Priced trade) :
    compoundedReturn trades = (trades.map growth).prod - 1 := by
  rw [compoundedReturn, one_eq, foldl_compound hpriced, one_mul]

/-- A fall from a peak to a capital that is not negative is a fraction of at most one. -/
theorem fall_mem {peak capital : ℚ} (hpositive : 0 < peak) (hbelow : capital ≤ peak)
    (hnonneg : 0 ≤ capital) : 0 ≤ (peak - capital) / peak ∧ (peak - capital) / peak ≤ 1 := by
  refine ⟨div_nonneg (sub_nonneg.mpr hbelow) hpositive.le, ?_⟩
  rw [div_le_one hpositive]
  exact sub_le_self peak hnonneg

theorem drawdownFrom_mem {curve : List ℚ} (hnonneg : ∀ capital ∈ curve, 0 ≤ capital)
    {peak fall : ℚ} (hstart : 0 ≤ fall ∧ fall ≤ 1) :
    0 ≤ drawdownFrom peak fall curve ∧ drawdownFrom peak fall curve ≤ 1 := by
  induction curve generalizing peak fall with
  | nil => exact hstart
  | cons capital rest ih =>
      obtain ⟨hfirst, hothers⟩ := List.forall_mem_cons.mp hnonneg
      simp only [drawdownFrom, lt_iff, zero_eq]
      split
      · exact ih hothers hstart
      split
      · -- no new peak: the capital lies between zero and the peak
        rename_i hnotHigher hpositive
        have hnext := fall_mem hpositive (not_lt.mp hnotHigher) hfirst
        split
        · exact ih hothers hnext
        · exact ih hothers hstart
      · exact ih hothers hstart

theorem maxDrawdown_mem {curve : List ℚ} (hnonneg : ∀ capital ∈ curve, 0 ≤ capital) :
    0 ≤ maxDrawdown curve ∧ maxDrawdown curve ≤ 1 := by
  have hstart : (0 : ℚ) ≤ Scalar.zero ∧ (Scalar.zero : ℚ) ≤ 1 := by
    rw [zero_eq]
    exact ⟨le_refl 0, zero_le_one⟩
  cases curve with
  | nil => exact hstart
  | cons first rest => exact drawdownFrom_mem hnonneg hstart

theorem priced_of_mem_trades {frame : Frame ℚ} (hnonneg : ∀ price ∈ frame.close, 0 ≤ price)
    {entry exit : List Bool} {trade : Trade ℚ} (hmem : trade ∈ (frame.report entry exit).trades) :
    Priced trade := by
  obtain ⟨opened, closed, forced, rfl, -⟩ := (schedule_trades frame entry exit).of_mem hmem
  exact priced_tradeBetween hnonneg opened closed forced

/-- Over closing prices that are not negative, no trade loses more than its price, the return of a
run is the product of the quotients of the prices less one and so at least a total loss, the capital
is never negative, and its largest fall is a fraction between none and all of the peak. -/
theorem report_bounds (frame : Frame ℚ) (entry exit : List Bool)
    (hnonneg : ∀ price ∈ frame.close, 0 ≤ price) :
    let report := frame.report entry exit
    (∀ trade ∈ report.trades, -1 ≤ trade.gain) ∧
      report.totalReturn =
        ((report.trades.filter (0 < ·.entryPrice)).map fun trade =>
          trade.exitPrice / trade.entryPrice).prod - 1 ∧
      -1 ≤ report.totalReturn ∧
      (∀ capital ∈ report.equityCurve, 0 ≤ capital) ∧
      0 ≤ report.maxDrawdown ∧ report.maxDrawdown ≤ 1 := by
  intro report
  have hpriced : ∀ trade ∈ report.trades, Priced trade := fun _ => priced_of_mem_trades hnonneg
  have htotal : report.totalReturn = (report.trades.map growth).prod - 1 :=
    compoundedReturn_eq hpriced
  have hproduct : 0 ≤ (report.trades.map growth).prod :=
    List.prod_nonneg <| List.forall_mem_map.mpr fun trade hmem => (hpriced trade hmem).growth_nonneg
  have hcurve : ∀ capital ∈ report.equityCurve, 0 ≤ capital := fun capital =>
    nonneg_of_mem_equityFrom hpriced (by rw [one_eq]; exact zero_le_one)
  refine ⟨fun trade hmem => (hpriced trade hmem).neg_one_le_gain, ?_, ?_, hcurve,
    maxDrawdown_mem hcurve⟩
  · rw [htotal, prod_map_growth]
  · rw [htotal]
    linarith

def fallenBars : Frame ℚ where
  dates := [⟨2023, 7, 3, by decide⟩, ⟨2023, 7, 4, by decide⟩, ⟨2023, 7, 5, by decide⟩,
    ⟨2023, 7, 6, by decide⟩, ⟨2023, 7, 7, by decide⟩, ⟨2023, 7, 10, by decide⟩]
  columns column := if column = .close then some [0, 3, 6, 0, 4, 5] else none
  close_isSome := rfl
  aligned := by
    intro column values hpresent
    dsimp only at hpresent
    split at hpresent
    · obtain rfl := Option.some.inj hpresent
      rfl
    · exact nomatch hpresent
  increasing := by decide

def fallenEntry : List Bool := [true, false, true, false, true]

def fallenExit : List Bool := [false, true, false, true]

theorem report_bounds_fallenBars :
    (∀ price ∈ fallenBars.close, 0 ≤ price) ∧
      let report := fallenBars.report fallenEntry fallenExit
      report.trades.map Trade.gain = [0, -1, 1 / 4] ∧ report.totalReturn = -1 ∧
        (∀ trade ∈ report.trades, -1 ≤ trade.gain) ∧
        (∀ capital ∈ report.equityCurve, 0 ≤ capital) ∧
        0 ≤ report.maxDrawdown ∧ report.maxDrawdown ≤ 1 := by
  have hnonneg : ∀ price ∈ fallenBars.close, 0 ≤ price := by decide
  obtain ⟨hgains, -, -, hcurve, hfall⟩ := report_bounds fallenBars fallenEntry fallenExit hnonneg
  exact ⟨hnonneg, by decide +kernel, by decide +kernel, hgains, hcurve, hfall⟩

end Backtest.Proofs.ExactReturns
