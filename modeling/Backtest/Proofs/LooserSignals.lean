import Backtest.Proofs.SignalCausality
import Backtest.Proofs.TradingLoop

/-!
Signals that hold more often never cost a trade. The two schedules soon drift apart, so they are not
compared bar by bar but trade by trade: where the looser signals start no later, their first trade
opens and closes no later than the first of the others, and so they start no later on the rest.
-/

namespace Backtest.Proofs.LooserSignals

open Backtest.Proofs.SignalCausality
open Backtest.Proofs.TradeSchedule
open Backtest.Proofs.TradingLoop

variable {α : Type}

/-- Whether a signal holds wherever another one does on the first bars. -/
def Looser (size : Nat) (loose strict : List Bool) : Prop :=
  ∀ index < size, Holds strict index → Holds loose index

instance (size : Nat) (loose strict : List Bool) : Decidable (Looser size loose strict) :=
  inferInstanceAs (Decidable (∀ index < size, _ → _))

/-- Trades that keep up with other ones: for each of these there is one in the same place that opens
and closes no later. -/
inductive KeepsUp : List (Trade α) → List (Trade α) → Prop
  | nil {trades : List (Trade α)} : KeepsUp trades []
  | cons {trade trade' : Trade α} {rest rest' : List (Trade α)}
      (hentry : trade'.entryIndex ≤ trade.entryIndex) (hexit : trade'.exitIndex ≤ trade.exitIndex)
      (hrest : KeepsUp rest' rest) : KeepsUp (trade' :: rest') (trade :: rest)

namespace KeepsUp

variable {trades trades' : List (Trade α)}

theorem length_le (h : KeepsUp trades' trades) : trades.length ≤ trades'.length := by
  induction h with
  | nil => exact Nat.zero_le _
  | cons _ _ _ ih => exact Nat.succ_le_succ ih

theorem exists_getElem? (h : KeepsUp trades' trades) {place : Nat} {trade : Trade α}
    (htrade : trades[place]? = some trade) :
    ∃ trade', trades'[place]? = some trade' ∧ trade'.entryIndex ≤ trade.entryIndex ∧
      trade'.exitIndex ≤ trade.exitIndex := by
  induction h generalizing place with
  | nil => exact nomatch htrade
  | cons hentry hexit _ ih =>
      cases place with
      | zero =>
          obtain rfl := Option.some.inj htrade
          exact ⟨_, rfl, hentry, hexit⟩
      | succ place => exact ih htrade

end KeepsUp

variable [Scalar α] {frame : Frame α} {entry exit entry' exit' : List Bool}

/-- A looser schedule that starts no later keeps up, by induction on the trades of the other. -/
theorem Schedule.keepsUp (hentry : Looser frame.size entry' entry)
    (hexit : Looser frame.size exit' exit) {start start' : Nat} {trades trades' : List (Trade α)}
    (h : Schedule frame entry exit start trades) (hstart : start' ≤ start)
    (h' : Schedule frame entry' exit' start' trades') : KeepsUp trades' trades := by
  induction h generalizing start' trades' with
  | done => exact .nil
  | @closed start opened closed rest hfirst hsale hrest ih =>
      have hopens : Holds entry' opened := hentry opened opened.isLt hfirst.holds
      have hcloses : Holds exit' closed := hexit closed closed.isLt hsale.holds
      have hopened : start' ≤ opened.val := Nat.le_trans hstart hfirst.start_le
      have hclosed : opened + 1 ≤ closed.val := hsale.start_le
      cases h' with
      | done hnone => exact absurd hopens (hnone opened hopened hfirst.lt_stop)
      | @closed _ opened' closed' rest' hfirst' hsale' hrest' =>
          have hopened' : opened' ≤ opened.val := hfirst'.le_of_holds hopened hopens
          have hclosed' : closed' ≤ closed.val := hsale'.le_of_holds (by omega) hcloses
          exact .cons hopened' hclosed' (ih (Nat.succ_le_succ hclosed') hrest')
      | @forced _ opened' last' hfirst' hnone =>
          have hopened' : opened' ≤ opened.val := hfirst'.le_of_holds hopened hopens
          exact absurd hcloses (hnone closed (by omega) closed.isLt)
  | @forced start opened last hfirst hnone hlast =>
      have hopens : Holds entry' opened := hentry opened opened.isLt hfirst.holds
      have hopened : start' ≤ opened.val := Nat.le_trans hstart hfirst.start_le
      cases h' with
      | done hnone' => exact absurd hopens (hnone' opened hopened hfirst.lt_stop)
      | @closed _ opened' closed' rest' hfirst' hsale' =>
          -- a forced trade closes on the last bar, which no other one can pass
          have hclosed' : closed' ≤ last.val := by omega
          exact .cons (hfirst'.le_of_holds hopened hopens) hclosed' .nil
      | @forced _ opened' last' hfirst' hnone' hlast' =>
          have hclosed' : last' ≤ last.val := by omega
          exact .cons (hfirst'.le_of_holds hopened hopens) hclosed' .nil

/-- Looser signals make at least as many trades, and each of the first ones opens and closes no
later than the trade in its place. -/
theorem looser_report_keeps_up (frame : Frame α) (entry exit entry' exit' : List Bool)
    (hentry : Looser frame.size entry' entry) (hexit : Looser frame.size exit' exit) :
    let trades := (frame.report entry exit).trades
    let trades' := (frame.report entry' exit').trades
    trades.length ≤ trades'.length ∧
      ∀ (place : Nat) (trade : Trade α), trades[place]? = some trade →
        ∃ trade', trades'[place]? = some trade' ∧ trade'.entryIndex ≤ trade.entryIndex ∧
          trade'.exitIndex ≤ trade.exitIndex := by
  intro trades trades'
  have h : KeepsUp trades' trades :=
    Schedule.keepsUp hentry hexit (schedule_trades frame entry exit) (Nat.le_refl 0)
      (schedule_trades frame entry' exit')
  exact ⟨h.length_le, fun _ _ => h.exists_getElem?⟩

def rareEntry : List Bool := [false, false, true, false, false, true]

def rareExit : List Bool := [false, false, false, false, true]

def frequentEntry : List Bool := [true, false, true, true, false, true]

def frequentExit : List Bool := [true, true, false, false, true]

theorem looser_report_keeps_up_sevenBars :
    (Looser 7 frequentEntry rareEntry ∧ Looser 7 frequentExit rareExit) ∧
      let trades := (sevenBars.report rareEntry rareExit).trades
      let trades' := (sevenBars.report frequentEntry frequentExit).trades
      trades.map (fun trade => (trade.entryIndex, trade.exitIndex)) = [(2, 4), (5, 6)] ∧
        trades'.map (fun trade => (trade.entryIndex, trade.exitIndex)) =
          [(0, 1), (2, 4), (5, 6)] ∧
        ∀ (place : Nat) (trade : Trade Float), trades[place]? = some trade →
          ∃ trade', trades'[place]? = some trade' ∧ trade'.entryIndex ≤ trade.entryIndex ∧
            trade'.exitIndex ≤ trade.exitIndex := by
  have hentry : Looser sevenBars.size frequentEntry rareEntry := by decide
  have hexit : Looser sevenBars.size frequentExit rareExit := by decide
  obtain ⟨-, hplaces⟩ :=
    looser_report_keeps_up sevenBars rareEntry rareExit frequentEntry frequentExit hentry hexit
  exact ⟨⟨hentry, hexit⟩, rfl, rfl, hplaces⟩

end Backtest.Proofs.LooserSignals
