import Backtest.Proofs.Checked.Access
import Backtest.Proofs.TradingLoop

namespace Backtest.Proofs.Checked

open Backtest.Proofs.TradeSchedule
open Backtest.Proofs.TradingLoop (exists_last schedule_trades size_pos_of_left)

variable {α : Type} [Scalar α]

/-- The sale of a position at the date and the close that are found at the last index. -/
def forcedSale (frame : Frame α) (position : Position α) : Option (Trade α) := do
  let last := frame.close.length - 1
  let date ← frame.dates[last]?
  let price ← frame.close[last]?
  return position.close last date price true

/-- The trades of a frame, the last one by force if a position is left, and whether one is. -/
def trades (frame : Frame α) (entry exit : List Bool) : Option (List (Trade α) × Bool) :=
  let last := frame.close.length - 1
  let (closed, held) := tradesFrom last none 0 (frame.dates.zip frame.close) entry exit
  match held with
  | none => some (closed, false)
  | some position => do
    let forced ← forcedSale frame position
    return (closed ++ [forced], true)

def barsHeld (trade : Trade α) : Option Nat := sub trade.exitIndex trade.entryIndex

def figures (trades : List (Trade α)) : Option (Figures α) := do
  let held ← trades.mapM barsHeld
  let total := Scalar.ofNat (held.foldl (· + ·) 0)
  let meanBarsHeld :=
    if trades.isEmpty then Scalar.zero else total / Scalar.ofNat trades.length
  return { Figures.ofTrades trades with meanBarsHeld }

def report (frame : Frame α) (entry exit : List Bool) : Option (Report α) := do
  let (trades, closedAtEnd) ← trades frame entry exit
  let figures ← figures trades
  return { Report.ofTrades trades closedAtEnd with figures }

theorem forcedSale_eq {frame : Frame α} (hpos : 0 < frame.size) (position : Position α) :
    ∃ trade, forcedSale frame position = some trade ∧ frame.forcedSale position = some trade := by
  obtain ⟨last, hlast⟩ := exists_last hpos
  have hindex : frame.close.length - 1 = last := by
    rw [frame.length_close]
    omega
  have hdate : frame.dates[last.val]? = some (dateAt frame last) :=
    List.getElem?_eq_getElem last.isLt
  have hprice : frame.close[last.val]? = some (priceAt frame last) :=
    List.getElem?_eq_getElem (last.cast frame.length_close.symm).isLt
  refine ⟨_, ?_, TradingLoop.forcedSale_eq hlast position⟩
  rw [forcedSale, hindex, hdate, hprice]
  rfl

/-- There is a last bar to sell on if a position is left. -/
theorem trades_eq (frame : Frame α) (entry exit : List Bool) :
    trades frame entry exit =
      some ((frame.report entry exit).trades, (frame.report entry exit).closedAtEnd) := by
  rw [trades, frame.length_close, Frame.report]
  dsimp only
  split
  · next hleft =>
      rw [hleft, Option.bind_none, Option.toList_none, List.append_nil]
      rfl
  · next position hleft =>
      obtain ⟨trade, hchecked, htrade⟩ := forcedSale_eq (size_pos_of_left hleft) position
      rw [hleft, hchecked, Option.bind_some, htrade]
      rfl

theorem figures_eq {trades : List (Trade α)}
    (h : ∀ trade ∈ trades, trade.entryIndex ≤ trade.exitIndex) :
    figures trades = some (Figures.ofTrades trades) := by
  have hheld : trades.mapM barsHeld = some (trades.map Trade.barsHeld) :=
    mapM_eq_map fun trade hmem => sub_eq (h trade hmem)
  rw [figures, hheld]
  rfl

theorem report_eq (frame : Frame α) (entry exit : List Bool) :
    report frame entry exit = some (frame.report entry exit) := by
  have hspan : ∀ trade ∈ (frame.report entry exit).trades,
      trade.entryIndex ≤ trade.exitIndex := by
    intro trade hmem
    obtain ⟨opened, closed, forced, rfl, -, hlt, -⟩ :=
      (schedule_trades frame entry exit).of_mem hmem
    exact Nat.le_of_lt hlt
  rw [report, trades_eq, Option.bind_eq_bind, Option.bind_some]
  dsimp only
  rw [figures_eq hspan]
  rfl

end Backtest.Proofs.Checked
