import Backtest.Proofs.TradeSchedule

namespace Backtest.Proofs.TradingLoop

open Backtest.Proofs.TradeSchedule

variable {α : Type}

theorem length_bars (frame : Frame α) :
    (frame.dates.zip frame.close).length = frame.size := by
  rw [List.length_zip, frame.length_close]
  exact Nat.min_self _

theorem drop_bars (frame : Frame α) (bar : Fin frame.size) :
    (frame.dates.zip frame.close).drop bar =
      (dateAt frame bar, priceAt frame bar) :: (frame.dates.zip frame.close).drop (bar + 1) := by
  have hlt : bar.val < (frame.dates.zip frame.close).length := by
    rw [length_bars]
    exact bar.isLt
  rw [List.drop_eq_getElem_cons hlt, List.getElem_zip]
  rfl

theorem headD_drop (signal : List Bool) (index : Nat) :
    (signal.drop index).headD false = decide (Holds signal index) := by
  simp [Holds, List.headD_eq_head?_getD]

theorem exists_last {frame : Frame α} (hpos : 0 < frame.size) :
    ∃ last : Fin frame.size, last + 1 = frame.size :=
  ⟨⟨frame.size - 1, Nat.sub_one_lt_of_lt hpos⟩, Nat.sub_add_cancel hpos⟩

variable [Scalar α]

theorem forcedSale_eq {frame : Frame α} {last : Fin frame.size} (hlast : last + 1 = frame.size)
    (position : Position α) :
    frame.forcedSale position =
      some (position.close last (dateAt frame last) (priceAt frame last) true) := by
  have hindex : frame.size - 1 = last := by omega
  have hbar : (frame.dates.zip frame.close).getLast? =
      some (dateAt frame last, priceAt frame last) := by
    rw [List.getLast?_eq_getElem?, length_bars, hindex, ← List.head?_drop, drop_bars]
    rfl
  rw [Frame.forcedSale, hbar, hindex]
  rfl

/-- The trades that the loop makes from an index on, with the sale of what is left. -/
def tradesAt (frame : Frame α) (entry exit : List Bool) (held : Option (Position α))
    (index : Nat) : List (Trade α) :=
  let (closed, left) := tradesFrom (frame.size - 1) held index
    ((frame.dates.zip frame.close).drop index) (entry.drop index) (exit.drop index)
  closed ++ (left.bind frame.forcedSale).toList

theorem trades_report (frame : Frame α) (entry exit : List Bool) :
    (frame.report entry exit).trades = tradesAt frame entry exit none 0 :=
  rfl

theorem tradesAt_of_size_le {frame : Frame α} {entry exit : List Bool}
    {held : Option (Position α)} {index : Nat} (h : frame.size ≤ index) :
    tradesAt frame entry exit held index = (held.bind frame.forcedSale).toList := by
  have hdrop : (frame.dates.zip frame.close).drop index = [] :=
    List.drop_eq_nil_of_le (by rwa [length_bars])
  rw [tradesAt, hdrop]
  rfl

theorem tradesAt_eq (frame : Frame α) (entry exit : List Bool) (held : Option (Position α))
    (bar : Fin frame.size) :
    tradesAt frame entry exit held bar =
      match held with
      | some position =>
          if Holds exit bar then
            position.close bar (dateAt frame bar) (priceAt frame bar) false ::
              tradesAt frame entry exit none (bar + 1)
          else tradesAt frame entry exit held (bar + 1)
      | none =>
          if Holds entry bar ∧ bar < frame.size - 1 then
            tradesAt frame entry exit (some (positionAt frame bar)) (bar + 1)
          else tradesAt frame entry exit none (bar + 1) := by
  rw [tradesAt, drop_bars]
  simp only [tradesFrom, headD_drop, List.tail_drop, Bool.and_eq_true, decide_eq_true_eq]
  cases held with
  | some position =>
      dsimp only
      by_cases hexit : Holds exit bar
      · simp only [if_pos hexit]
        rfl
      · simp only [if_neg hexit]
        rfl
  | none =>
      dsimp only
      by_cases hopen : Holds entry bar ∧ bar < frame.size - 1
      · simp only [if_pos hopen]
        rfl
      · simp only [if_neg hopen]
        rfl

/-- What follows while a position opened at a bar is held from an index on: its sale, and after an
exit the schedule from the next bar on. -/
inductive Sold (frame : Frame α) (entry exit : List Bool) (opened : Fin frame.size) :
    Nat → List (Trade α) → Prop
  | closed {start : Nat} {closed : Fin frame.size} {rest : List (Trade α)}
      (hexit : FirstIn exit start frame.size closed)
      (hrest : Schedule frame entry exit (closed + 1) rest) :
      Sold frame entry exit opened start (tradeBetween frame opened closed false :: rest)
  | forced {start : Nat} {last : Fin frame.size} (hexit : NoneIn exit start frame.size)
      (hlast : last + 1 = frame.size) :
      Sold frame entry exit opened start [tradeBetween frame opened last true]

theorem Sold.skip {frame : Frame α} {entry exit : List Bool} {opened : Fin frame.size}
    {start : Nat} {trades : List (Trade α)} (hstart : ¬ Holds exit start)
    (h : Sold frame entry exit opened (start + 1) trades) :
    Sold frame entry exit opened start trades := by
  cases h with
  | closed hexit hrest => exact .closed (hexit.cons fun _ => hstart) hrest
  | forced hexit hlast => exact .forced (hexit.cons fun _ => hstart) hlast

theorem Sold.schedule {frame : Frame α} {entry exit : List Bool} {opened : Fin frame.size}
    {trades : List (Trade α)} (hentry : Holds entry opened) (hlt : opened < frame.size - 1)
    (h : Sold frame entry exit opened (opened + 1) trades) :
    Schedule frame entry exit opened trades := by
  cases h with
  | closed hexit hrest => exact .closed (firstIn_self hlt hentry) hexit hrest
  | forced hexit hlast => exact .forced (firstIn_self hlt hentry) hexit hlast

/-- The invariant of the loop, by induction on the bars that are left. -/
theorem schedule_and_sold_tradesAt (frame : Frame α) (entry exit : List Bool) (index : Nat) :
    Schedule frame entry exit index (tradesAt frame entry exit none index) ∧
      ∀ opened : Fin frame.size, Sold frame entry exit opened index
        (tradesAt frame entry exit (some (positionAt frame opened)) index) := by
  induction hleft : frame.size - index generalizing index with
  | zero =>
      have hle : frame.size ≤ index := by omega
      refine ⟨?_, fun opened => ?_⟩
      · rw [tradesAt_of_size_le hle]
        exact .done (noneIn_of_le (by omega))
      · obtain ⟨last, hlast⟩ := exists_last (Nat.zero_lt_of_lt opened.isLt)
        rw [tradesAt_of_size_le hle, Option.bind_some, forcedSale_eq hlast, close_positionAt]
        exact .forced (noneIn_of_le hle) hlast
  | succ left ih =>
      obtain ⟨hschedule, hsold⟩ := ih (index + 1) (by omega)
      let bar : Fin frame.size := ⟨index, by omega⟩
      refine ⟨?_, fun opened => ?_⟩
      · change Schedule frame entry exit bar (tradesAt frame entry exit none bar)
        rw [tradesAt_eq]
        dsimp only
        split
        · rename_i hopen
          exact (hsold bar).schedule hopen.1 hopen.2
        · rename_i hopen
          exact hschedule.skip fun hlt hentry => hopen ⟨hentry, hlt⟩
      · change Sold frame entry exit opened bar
          (tradesAt frame entry exit (some (positionAt frame opened)) bar)
        rw [tradesAt_eq]
        dsimp only
        split
        · rename_i hexit
          rw [close_positionAt]
          exact .closed (firstIn_self bar.isLt hexit) hschedule
        · rename_i hexit
          exact (hsold opened).skip hexit

theorem schedule_trades (frame : Frame α) (entry exit : List Bool) :
    Schedule frame entry exit 0 (frame.report entry exit).trades := by
  rw [trades_report]
  exact (schedule_and_sold_tradesAt frame entry exit 0).1

theorem schedule_iff (frame : Frame α) (entry exit : List Bool) (trades : List (Trade α)) :
    Schedule frame entry exit 0 trades ↔ trades = (frame.report entry exit).trades := by
  constructor
  · exact fun h => h.unique (schedule_trades frame entry exit)
  · rintro rfl
    exact schedule_trades frame entry exit

theorem forced_tradesFrom {last index : Nat} {held : Option (Position α)}
    {bars : List (Date × α)} {entry exit : List Bool} {trade : Trade α}
    (hmem : trade ∈ (tradesFrom last held index bars entry exit).1) : trade.forced = false := by
  induction bars generalizing held index entry exit with
  | nil => cases hmem
  | cons bar rest ih =>
      obtain ⟨date, price⟩ := bar
      rw [tradesFrom.eq_def] at hmem
      dsimp only at hmem
      cases held with
      | some position =>
          dsimp only at hmem
          split at hmem
          · rcases List.mem_cons.mp hmem with rfl | hmem
            · rfl
            · exact ih hmem
          · exact ih hmem
      | none =>
          dsimp only at hmem
          split at hmem
          · exact ih hmem
          · exact ih hmem

theorem size_pos_of_left {frame : Frame α} {last : Nat} {entry exit : List Bool}
    {position : Position α}
    (hleft : (tradesFrom last none 0 (frame.dates.zip frame.close) entry exit).2 = some position) :
    0 < frame.size := by
  refine Nat.pos_of_ne_zero fun hempty => ?_
  have hbars : frame.dates.zip frame.close = [] := by
    rw [← List.length_eq_zero_iff, length_bars, hempty]
  rw [hbars] at hleft
  cases hleft

theorem closedAtEnd_iff (frame : Frame α) (entry exit : List Bool) :
    (frame.report entry exit).closedAtEnd = true ↔
      ∃ last, (frame.report entry exit).trades.getLast? = some last ∧ last.forced = true := by
  let walk := tradesFrom (frame.size - 1) none 0 (frame.dates.zip frame.close) entry exit
  change walk.2.isSome = true ↔
    ∃ last, (walk.1 ++ (walk.2.bind frame.forcedSale).toList).getLast? = some last ∧
      last.forced = true
  cases hleft : walk.2 with
  | none =>
      simp only [Option.bind_none, Option.toList_none, List.append_nil]
      refine ⟨nofun, ?_⟩
      rintro ⟨last, hlast, hforced⟩
      have hunforced := forced_tradesFrom (List.mem_of_getLast? hlast)
      exact nomatch hforced.symm.trans hunforced
  | some position =>
      obtain ⟨last, hlast⟩ := exists_last (size_pos_of_left hleft)
      rw [Option.bind_some, forcedSale_eq hlast, Option.toList_some, List.getLast?_concat]
      exact ⟨fun _ => ⟨_, rfl, rfl⟩, fun _ => rfl⟩

/-- The trades of a report are the greedy schedule of its frame, at its dates and closes, the last
of them is forced exactly if the report says so, and no eligible entry or exit is passed over. -/
theorem report_trades_schedule (frame : Frame α) (entry exit : List Bool) :
    let report := frame.report entry exit
    (∀ trades, Schedule frame entry exit 0 trades ↔ trades = report.trades) ∧
      (∀ trade ∈ report.trades, ClosesAt frame trade.entryIndex trade.entryDate trade.entryPrice ∧
        ClosesAt frame trade.exitIndex trade.exitDate trade.exitPrice) ∧
      (report.closedAtEnd = true ↔
        ∃ last, report.trades.getLast? = some last ∧ last.forced = true) ∧
      (∀ trade ∈ report.trades, trade.entryIndex < trade.exitIndex) ∧
      report.trades.Pairwise (fun before after => before.exitIndex < after.entryIndex) ∧
      (∀ trade ∈ report.trades.dropLast, trade.forced = false) ∧
      (∀ index < frame.size - 1, Holds entry index →
        ∃ trade ∈ report.trades, trade.entryIndex ≤ index ∧ index ≤ trade.exitIndex) ∧
      (∀ trade ∈ report.trades, ∀ index < frame.size, trade.entryIndex < index →
        Holds exit index → trade.exitIndex ≤ index ∧ trade.forced = false) := by
  intro report
  have h : Schedule frame entry exit 0 report.trades := schedule_trades frame entry exit
  refine ⟨schedule_iff frame entry exit, ?_, closedAtEnd_iff frame entry exit, ?_, h.pairwise,
    fun trade => h.forced_eq_false, fun index => h.exists_of_holds (Nat.zero_le _), ?_⟩
  · intro trade hmem
    obtain ⟨opened, closed, forced, rfl, -⟩ := h.of_mem hmem
    exact ⟨closesAt frame opened, closesAt frame closed⟩
  · intro trade hmem
    obtain ⟨opened, closed, forced, rfl, -, hlt, -⟩ := h.of_mem hmem
    exact hlt
  · intro trade hmem index hsize hopened hexit
    obtain ⟨opened, closed, forced, rfl, -, -, -, hnone, hclosed⟩ := h.of_mem hmem
    have hle : closed ≤ index :=
      Nat.le_of_not_lt fun hlt => hnone index hopened hlt hexit
    refine ⟨hle, ?_⟩
    cases forced with
    | false => rfl
    | true =>
        obtain ⟨hnot, hlast⟩ : ¬ Holds exit closed ∧ closed + 1 = frame.size := by
          simpa using hclosed
        have heq : index = closed := by omega
        exact absurd (heq ▸ hexit) hnot

end Backtest.Proofs.TradingLoop
