import Backtest.Proofs.FrameColumns
import Backtest.Proofs.SignalCausality
import Backtest.Proofs.TradingLoop
import Backtest.Strategy

namespace Backtest.Proofs.Replay

open Backtest.Proofs.FrameColumns
open Backtest.Proofs.Outcome
open Backtest.Proofs.SignalCausality
open Backtest.Proofs.TradeSchedule
open Backtest.Proofs.TradingLoop

variable {α : Type}

theorem close_firstBars (frame : Frame α) (count : Nat) :
    (firstBars frame count).close = frame.close.take count :=
  Option.get_map

theorem dateAt_firstBars {frame : Frame α} {count : Nat} {bar : Fin (firstBars frame count).size}
    {bar' : Fin frame.size} (h : bar.val = bar'.val) :
    dateAt (firstBars frame count) bar = dateAt frame bar' := by
  obtain ⟨index, hindex⟩ := bar
  subst h
  exact List.getElem_take

theorem priceAt_firstBars {frame : Frame α} {count : Nat}
    {bar : Fin (firstBars frame count).size} {bar' : Fin frame.size} (h : bar.val = bar'.val) :
    priceAt (firstBars frame count) bar = priceAt frame bar' := by
  obtain ⟨index, hindex⟩ := bar
  subst h
  simp [priceAt, close_firstBars]

theorem ofColumns_firstBars (frame : Frame α) (count : Nat) :
    Frame.ofColumns (frame.dates.take count) (firstBars frame count).columns =
      .ok (firstBars frame count) :=
  ofColumns_eq_ok.mpr ⟨⟨(firstBars frame count).close_isSome, (firstBars frame count).aligned,
    (firstBars frame count).increasing⟩, rfl, rfl⟩

variable [Scalar α]

theorem tradeBetween_firstBars {frame : Frame α} {count : Nat}
    {opened closed : Fin (firstBars frame count).size} {opened' closed' : Fin frame.size}
    (hopened : opened.val = opened'.val) (hclosed : closed.val = closed'.val) (forced : Bool) :
    tradeBetween (firstBars frame count) opened closed forced =
      tradeBetween frame opened' closed' forced := by
  rw [tradeBetween, tradeBetween, dateAt_firstBars hopened, priceAt_firstBars hopened,
    dateAt_firstBars hclosed, priceAt_firstBars hclosed, hopened, hclosed]

/-- A trade sold by force at the close of a bar instead of where it ended. -/
def cutShort (frame : Frame α) (last : Fin frame.size) (trade : Trade α) : Trade α :=
  { trade with
    exitIndex := last
    exitDate := dateAt frame last
    exitPrice := priceAt frame last
    profit := priceAt frame last - trade.entryPrice
    gain :=
      if Scalar.lt Scalar.zero trade.entryPrice then
        (priceAt frame last - trade.entryPrice) / trade.entryPrice
      else Scalar.zero
    forced := true }

/-- What the replay up to a bar makes of the trades that end after it: the first of them, if it
opens before the bar, is cut short. -/
def pending (frame : Frame α) (last : Fin frame.size) : List (Trade α) → List (Trade α)
  | [] => []
  | next :: _ => if next.entryIndex < last.val then [cutShort frame last next] else []

theorem schedule_pending {frame : Frame α} {entry exit : List Bool} {start : Nat}
    {last opened closed : Fin frame.size} {forced : Bool} (rest : List (Trade α))
    (hentry : FirstIn entry start (frame.size - 1) opened)
    (hexit : NoneIn exit (opened + 1) (last + 1)) :
    Schedule (firstBars frame (last + 1)) (entry.take (last + 1)) (exit.take (last + 1)) start
      (pending frame last (tradeBetween frame opened closed forced :: rest)) := by
  have hsize : (firstBars frame (last + 1)).size = last + 1 := size_firstBars frame last.isLt
  change Schedule _ _ _ _ (if opened.val < last.val then
    [tradeBetween frame opened last true] else [])
  split
  · rename_i hlt
    have hopened : opened.val < (firstBars frame (last + 1)).size := by omega
    have hlast : last.val < (firstBars frame (last + 1)).size := by omega
    have htrade : tradeBetween (firstBars frame (last + 1)) ⟨opened, hopened⟩ ⟨last, hlast⟩ true =
        tradeBetween frame opened last true := tradeBetween_firstBars rfl rfl true
    rw [← htrade]
    refine .forced (hentry.take ?_ ?_) ?_ hsize.symm
    · rw [hsize]
      exact hlt
    · omega
    · exact (hexit.take (last + 1)).mono (Nat.le_refl _) (Nat.le_of_eq hsize)
  · rename_i hlt
    have hnone : NoneIn entry start last :=
      hentry.none_before.mono (Nat.le_refl _) (Nat.le_of_not_lt hlt)
    refine .done ?_
    rw [hsize]
    exact hnone.take (last + 1)

/-- The replay of a schedule up to a bar that is not the last of the frame. -/
theorem schedule_firstBars {frame : Frame α} {entry exit : List Bool} {start : Nat}
    {trades : List (Trade α)} (h : Schedule frame entry exit start trades)
    (last : Fin frame.size) (hlast : last + 1 < frame.size) :
    ∃ kept rest, trades = kept ++ rest ∧
      (∀ trade ∈ kept, trade.exitIndex ≤ last ∧ trade.forced = false) ∧
      (∀ trade ∈ rest, last < trade.exitIndex) ∧
      Schedule (firstBars frame (last + 1)) (entry.take (last + 1)) (exit.take (last + 1)) start
        (kept ++ pending frame last rest) := by
  have hsize : (firstBars frame (last + 1)).size = last + 1 := size_firstBars frame last.isLt
  induction h with
  | done hentry =>
      refine ⟨[], [], rfl, by simp, by simp, .done ?_⟩
      rw [hsize]
      exact (hentry.mono (Nat.le_refl _) (by omega)).take (last + 1)
  | @closed start opened closed rest hentry hexit hrest ih =>
      by_cases hclosed : closed ≤ last.val
      · obtain ⟨kept, rest, rfl, hkept, hlater, hschedule⟩ := ih
        have hopened := hexit.start_le
        have htrade : tradeBetween (firstBars frame (last + 1)) ⟨opened, by omega⟩
            ⟨closed, by omega⟩ false = tradeBetween frame opened closed false :=
          tradeBetween_firstBars rfl rfl false
        refine ⟨tradeBetween frame opened closed false :: kept, rest, rfl, ?_, hlater, ?_⟩
        · intro trade hmem
          rcases List.mem_cons.mp hmem with rfl | hmem
          · exact ⟨hclosed, rfl⟩
          · exact hkept trade hmem
        · rw [List.cons_append, ← htrade]
          refine .closed (hentry.take ?_ ?_) (hexit.take ?_ ?_) hschedule
          all_goals simp only [hsize]; omega
      · refine ⟨[], _, rfl, by simp, ?_, schedule_pending rest hentry ?_⟩
        · intro trade hmem
          rcases List.mem_cons.mp hmem with rfl | hmem
          · exact Nat.lt_of_not_le hclosed
          · obtain ⟨opened', closed', forced, rfl, hstart, hlt, -⟩ := hrest.of_mem hmem
            change last.val < closed'.val
            omega
        · exact hexit.none_before.mono (Nat.le_refl _) (Nat.lt_of_not_le hclosed)
  | @forced start opened end' hentry hexit hend =>
      refine ⟨[], _, rfl, by simp, ?_, schedule_pending [] hentry ?_⟩
      · intro trade hmem
        obtain rfl := List.mem_singleton.mp hmem
        change last.val < end'.val
        omega
      · exact hexit.mono (Nat.le_refl _) last.isLt

theorem run_eq_ok {strategy : Strategy} {frame : Frame Float} {report : Report Float} :
    strategy.run frame = .ok report ↔
      ∃ signals, strategy.rules.signals frame = .ok signals ∧
        frame.report signals.entry signals.exit = report := by
  simp [Strategy.run]

/-- A replay runs the strategy on the first bars of the frame, for every count of them. -/
theorem replay_eq (strategy : Strategy) (frame : Frame Float) :
    strategy.replay frame.dates frame.columns =
      (List.range (frame.size + 1)).map fun count => strategy.run (firstBars frame count) := by
  refine List.map_congr_left fun count _ => ?_
  change (do strategy.run (← Frame.ofColumns _ (firstBars frame count).columns)) = _
  rw [ofColumns_firstBars]
  rfl

/-- What a report shows of the frame's first bars is what the strategy reports on these alone. -/
theorem run_firstBars (strategy : Strategy) (frame : Frame Float) (report : Report Float)
    (hrun : strategy.run frame = .ok report) (n : Nat) (hpos : 1 ≤ n) (hlt : n < frame.size) :
    ∃ earlier kept rest, strategy.run (firstBars frame n) = .ok earlier ∧
      report.trades = kept ++ rest ∧
      (∀ trade ∈ kept, trade.exitIndex < n ∧ trade.forced = false) ∧
      (∀ trade ∈ rest, n ≤ trade.exitIndex) ∧
      (∀ next, rest.head? = some next → next.entryIndex < n - 1 →
        earlier.trades = kept ++ [cutShort frame ⟨n - 1, by omega⟩ next] ∧
          earlier.closedAtEnd = true) ∧
      ((∀ next, rest.head? = some next → n - 1 ≤ next.entryIndex) →
        earlier.trades = kept ∧ earlier.closedAtEnd = false) := by
  obtain ⟨index, rfl⟩ := Nat.exists_eq_add_of_le' hpos
  let last : Fin frame.size := ⟨index, by omega⟩
  obtain ⟨signals, hsignals, rfl⟩ := run_eq_ok.mp hrun
  obtain ⟨kept, rest, htrades, hkept, hlater, hschedule⟩ :=
    schedule_firstBars (schedule_trades frame signals.entry signals.exit) last hlt
  let earlier := (firstBars frame (index + 1)).report (signals.entry.take (index + 1))
    (signals.exit.take (index + 1))
  have hrun' : strategy.run (firstBars frame (index + 1)) = .ok earlier :=
    run_eq_ok.mpr ⟨_, signals_firstBars hsignals hpos (Nat.le_of_lt hlt), rfl⟩
  have hearlier : earlier.trades = kept ++ pending frame last rest :=
    ((schedule_iff _ _ _ _).mp hschedule).symm
  refine ⟨earlier, kept, rest, hrun', htrades, ?_, hlater, ?_, ?_⟩
  · exact fun trade hmem => ⟨Nat.lt_succ_of_le (hkept trade hmem).1, (hkept trade hmem).2⟩
  · intro next hnext hopened
    obtain ⟨tail, rfl⟩ := List.head?_eq_some_iff.mp hnext
    have hpending : pending frame last (next :: tail) = [cutShort frame last next] :=
      if_pos hopened
    rw [hpending] at hearlier
    refine ⟨hearlier, (closedAtEnd_iff _ _ _).mpr ⟨cutShort frame last next, ?_, rfl⟩⟩
    change earlier.trades.getLast? = _
    rw [hearlier, List.getLast?_concat]
  · intro hopened
    have hpending : pending frame last rest = [] := by
      cases rest with
      | nil => rfl
      | cons next tail => exact if_neg (Nat.not_lt_of_le (hopened next rfl))
    rw [hpending, List.append_nil] at hearlier
    refine ⟨hearlier, Bool.eq_false_iff.mpr fun hclosed => ?_⟩
    obtain ⟨trade, htrade, hforced⟩ := (closedAtEnd_iff _ _ _).mp hclosed
    have hmem : trade ∈ kept := hearlier ▸ List.mem_of_getLast? htrade
    exact nomatch hforced.symm.trans (hkept trade hmem).2

def swing : Strategy where
  name := "Swing"
  description := "buy above the mean, sell after a fall"
  source := "ENTRY: crosses_above(close, SMA(close, 2)) EXIT: close < yesterday_close"
  rules := swingRules

set_option maxRecDepth 2000 in
theorem run_firstBars_swing :
    ∃ report, swing.run sevenBars = .ok report ∧
      ∃ earlier kept rest, swing.run (firstBars sevenBars 6) = .ok earlier ∧
        report.trades = kept ++ rest ∧
        (∀ trade ∈ kept, trade.exitIndex < 6 ∧ trade.forced = false) ∧
        (∀ trade ∈ rest, 6 ≤ trade.exitIndex) ∧
        (∀ next, rest.head? = some next → next.entryIndex < 5 →
          earlier.trades = kept ++ [cutShort sevenBars ⟨5, by decide⟩ next] ∧
            earlier.closedAtEnd = true) ∧
        ((∀ next, rest.head? = some next → 5 ≤ next.entryIndex) →
          earlier.trades = kept ∧ earlier.closedAtEnd = false) := by
  have hsignals : swingRules.signals sevenBars =
      .ok ⟨[false, false, true, false, true, false, false],
        [false, true, false, true, false, false, true]⟩ := by rfl
  have hrun : swing.run sevenBars = .ok _ := run_eq_ok.mpr ⟨_, hsignals, rfl⟩
  exact ⟨_, hrun, run_firstBars swing sevenBars _ hrun 6 (by decide) (by decide)⟩

end Backtest.Proofs.Replay
