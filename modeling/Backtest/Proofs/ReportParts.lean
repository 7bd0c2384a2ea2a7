import Backtest.Proofs.FloatOrder
import Backtest.Proofs.TradingLoop

namespace Backtest.Proofs.ReportParts

open Backtest.Proofs.FloatOrder
open Backtest.Proofs.TradeSchedule
open Backtest.Proofs.TradingLoop

section Curve

variable {α : Type} [Scalar α]

theorem length_equityFrom (capital : α) (trades : List (Trade α)) :
    (equityFrom capital trades).length = trades.length + 1 := by
  induction trades generalizing capital with
  | nil => rfl
  | cons trade rest ih => simp [equityFrom, ih]

theorem head?_equityFrom (capital : α) (trades : List (Trade α)) :
    (equityFrom capital trades).head? = some capital := by
  cases trades <;> rfl

theorem getLast?_equityFrom (capital : α) (trades : List (Trade α)) :
    (equityFrom capital trades).getLast? = some (trades.foldl compound capital) := by
  induction trades generalizing capital with
  | nil => rfl
  | cons trade rest ih =>
      rw [equityFrom, List.getLast?_cons, ih]
      rfl

/-- The curve has a point before the first trade and one after each, and the total return is the
distance of the last point from the first. -/
structure CurveAgrees (report : Report α) : Prop where
  length_eq : report.equityCurve.length = report.trades.length + 1
  head_eq : report.equityCurve.head? = some Scalar.one
  last_eq : report.equityCurve.getLast?.map (· - Scalar.one) = some report.totalReturn

theorem curveAgrees_report (frame : Frame α) (entry exit : List Bool) :
    CurveAgrees (frame.report entry exit) where
  length_eq := length_equityFrom _ _
  head_eq := head?_equityFrom _ _
  last_eq := congrArg (Option.map (· - Scalar.one)) (getLast?_equityFrom _ _)

theorem length_eq_counts (trades : List (Trade α)) :
    trades.length = (trades.filter Trade.isWon).length + (trades.filter Trade.isLost).length +
      (trades.filter fun trade => !trade.isWon && !trade.isLost).length := by
  induction trades with
  | nil => rfl
  | cons trade rest ih =>
      have hlost (hwon : trade.isWon = true) : trade.isLost = false := by simp [Trade.isLost, hwon]
      cases hwon : trade.isWon with
      | true =>
          simp [hwon, hlost hwon, ih]
          omega
      | false =>
          cases hlost : trade.isLost with
          | true =>
              simp [hwon, hlost, ih]
              omega
          | false =>
              simp [hwon, hlost, ih]
              omega

end Curve

theorem isWon_eq (trade : Trade Float) : trade.isWon = decide (0 < trade.profit) := rfl

theorem isLost_eq (trade : Trade Float) : trade.isLost = decide (trade.profit < 0) := by
  rw [Bool.eq_iff_iff, Trade.isLost, isWon_eq, Bool.and_eq_true, Bool.not_eq_true',
    decide_eq_false_iff_not, scalar_lt_iff, decide_eq_true_iff]
  exact ⟨And.right, fun h => ⟨not_lt_of_lt h, h⟩⟩

/-- The figure is the largest of some sizes and zero. -/
structure IsLargest (figure : Float) (sizes : List Float) : Prop where
  attained : figure = 0 ∨ figure ∈ sizes
  not_lt : ∀ size ∈ sizes, ¬figure < size

theorem foldl_largest (sizes : List Float) (best : Float) :
    let figure := sizes.foldl (fun best size => if Scalar.lt best size then size else best) best
    (figure = best ∨ best < figure ∧ figure ∈ sizes) ∧ ∀ size ∈ sizes, ¬figure < size := by
  induction sizes generalizing best with
  | nil => exact ⟨.inl rfl, nofun⟩
  | cons size rest ih =>
      rw [List.foldl_cons]
      by_cases hsize : best < size
      · simp only [scalar_lt_iff, if_pos hsize] at ih ⊢
        obtain ⟨hfigure, hrest⟩ := ih size
        refine ⟨.inr ?_, List.forall_mem_cons.mpr ⟨?_, hrest⟩⟩
        · rcases hfigure with heq | ⟨hlt, hmem⟩
          · rw [heq]
            exact ⟨hsize, List.mem_cons_self⟩
          · exact ⟨lt_trans hsize hlt, List.mem_cons_of_mem _ hmem⟩
        · rcases hfigure with heq | ⟨hlt, -⟩
          · rw [heq]
            exact not_lt_self size
          · exact not_lt_of_lt hlt
      · simp only [scalar_lt_iff, if_neg hsize] at ih ⊢
        obtain ⟨hfigure, hrest⟩ := ih best
        refine ⟨hfigure.imp_right fun h => ⟨h.1, List.mem_cons_of_mem _ h.2⟩,
          List.forall_mem_cons.mpr ⟨fun hlt => hsize ?_, hrest⟩⟩
        rcases hfigure with heq | ⟨hbest, -⟩
        · rwa [heq] at hlt
        · exact lt_trans hbest hlt

theorem isLargest_largest (sizes : List Float) : IsLargest (largest sizes) sizes where
  attained := (foldl_largest sizes 0).1.imp_right And.right
  not_lt := (foldl_largest sizes 0).2

/-- The trades of a schedule are held for different bars, and none of them for the bar it ends
on. -/
theorem sum_barsHeld_le {α : Type} [Scalar α] {frame : Frame α} {entry exit : List Bool}
    {start : Nat} {trades : List (Trade α)} (h : Schedule frame entry exit start trades) :
    (trades.map Trade.barsHeld).sum + trades.length ≤ frame.size - start := by
  induction h with
  | done => simp
  | @closed start opened closed rest hentry hexit hrest ih =>
      have hopened := hentry.start_le
      have hclosed := hexit.start_le
      have hheld : (tradeBetween frame opened closed false).barsHeld = closed - opened := rfl
      rw [List.map_cons, List.sum_cons, List.length_cons, hheld]
      omega
  | @forced start opened last hentry hexit hlast =>
      have hopened := hentry.start_le
      have hheld : (tradeBetween frame opened last true).barsHeld = last - opened := rfl
      rw [List.map_singleton, List.sum_singleton, List.length_singleton, hheld]
      omega

theorem report_parts_agree (entry exit : List Bool) :
    (∀ {α : Type} [Scalar α] (frame : Frame α), CurveAgrees (frame.report entry exit)) ∧
      ∀ frame : Frame Float,
        let trades := (frame.report entry exit).trades
        let figures := (frame.report entry exit).figures
        let won := trades.filter fun trade => 0 < trade.profit
        let lost := trades.filter fun trade => trade.profit < 0
        figures.total = trades.length ∧
          figures.won = won.length ∧
          figures.lost = lost.length ∧
          trades.length = figures.won + figures.lost + figures.even ∧
          IsLargest figures.largestWin (won.map fun trade => trade.profit) ∧
          IsLargest figures.largestLoss (lost.map fun trade => trade.profit.abs) ∧
          (trades.map Trade.barsHeld).sum + trades.length ≤ frame.size ∧
          ∀ trade ∈ trades, 1 ≤ trade.barsHeld := by
  refine ⟨fun frame => curveAgrees_report frame entry exit, ?_⟩
  intro frame trades figures won lost
  have hschedule : Schedule frame entry exit 0 trades := schedule_trades frame entry exit
  have hlost : trades.filter Trade.isLost = lost :=
    List.filter_congr fun trade _ => isLost_eq trade
  have hfigures : figures.lost = lost.length := congrArg List.length hlost
  have hloss : figures.largestLoss = largest (lost.map fun trade => trade.profit.abs) := by
    rw [← hlost]
    rfl
  refine ⟨rfl, rfl, hfigures, length_eq_counts trades, isLargest_largest _, ?_,
    sum_barsHeld_le hschedule, ?_⟩
  · rw [hloss]
    exact isLargest_largest _
  · intro trade hmem
    obtain ⟨opened, closed, forced, rfl, -, hlt, -⟩ := hschedule.of_mem hmem
    exact Nat.sub_pos_of_lt hlt

end Backtest.Proofs.ReportParts
