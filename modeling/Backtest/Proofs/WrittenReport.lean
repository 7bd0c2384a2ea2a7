import Backtest.ReportFiles
import Backtest.Proofs.DateReading
import Backtest.Proofs.NumeralReading
import Backtest.Proofs.PriceLoading
import Backtest.Proofs.RecordText

namespace Backtest.Proofs.WrittenReport

open Backtest.Binary64
open Backtest.Proofs.DateReading
open Backtest.Proofs.NumberText
open Backtest.Proofs.NumeralReading
open Backtest.Proofs.Outcome
open Backtest.Proofs.PriceLoading
open Backtest.Proofs.RecordText

/-- A written table is read as its header and its rows, if it does not start with a byte order mark,
which a reader would drop. -/
theorem isTable_tableText {header : List String} {rows : List (List String)}
    (hheader : header ≠ [])
    (hmark : (Csv.recordText (header.map String.toList)).head? ≠ some '\ufeff')
    (hequal : ∀ row ∈ rows, row.length = header.length) :
    IsTable (Csv.tableText (header :: rows)) (header.map String.toList)
      (rows.map (List.map String.toList)) := by
  have hnonempty : ∀ row ∈ header :: rows, row ≠ [] := by
    refine List.forall_mem_cons.mpr ⟨hheader, fun row hrow hempty => hheader ?_⟩
    have hlength := hequal row hrow
    rw [hempty, List.length_nil] at hlength
    exact List.length_eq_zero_iff.mp hlength.symm
  have hline : Csv.recordText (header.map String.toList) ≠ [] :=
    List.append_ne_nil_of_right_ne_nil _ (List.cons_ne_nil _ _)
  have hhead : (Csv.tableText (header :: rows)).toList.head? =
      (Csv.recordText (header.map String.toList)).head? := by
    rw [Csv.tableText, String.toList_ofList, List.map_cons, List.flatten_cons,
      List.head?_append_of_ne_nil _ hline]
  have hfields := fields_records_tableText hnonempty (hhead ▸ hmark)
  refine ⟨?_, ?_, ?_⟩
  · rw [hfields]
    rfl
  · rw [hfields]
    rfl
  · simpa using hequal

/-- Reads a trade from the fields of a record. How many bars it was held is left out, since that
follows from the indices. -/
def tradeOf? : List (List Char) → Option (Trade Float)
  | [entryDate, entryIndex, entryPrice, exitDate, exitIndex, exitPrice, profit, gain, _,
      forced] => do
    let entryDate ← (Date.read entryDate).toOption
    let entryPrice ← (readNumeral entryPrice).toOption
    let exitDate ← (Date.read exitDate).toOption
    let exitPrice ← (readNumeral exitPrice).toOption
    let profit ← (readNumeral profit).toOption
    let gain ← (readNumeral gain).toOption
    some
      { entryIndex := Decimal.valueOf entryIndex
        entryDate
        entryPrice
        exitIndex := Decimal.valueOf exitIndex
        exitDate
        exitPrice
        profit
        gain
        forced := forced == (boolText true).toList }
  | _ => none

theorem beq_boolText (b : Bool) : ((boolText b).toList == (boolText true).toList) = b := by
  cases b <;> decide

theorem tradeOf?_fields (trade : Trade Float) :
    tradeOf? (trade.fields.map String.toList) = some trade := by
  have hdate (d : Date) : (Date.read d.toText.toList).toOption = some d :=
    toOption_eq_some.mpr (read_toText d)
  have hnumber (x : Float) : (readNumeral (shortestText x).toList).toOption = some x :=
    toOption_eq_some.mpr (readNumeral_shortestText x)
  simp [tradeOf?, Trade.fields, hdate, hnumber, valueOf_toDigits, beq_boolText]

def tradeRows (report : Report Float) : List (List (List Char)) :=
  (report.trades.map Trade.fields).map (List.map String.toList)

theorem mapM_tradeOf?_tradeRows (report : Report Float) :
    (tradeRows report).mapM tradeOf? = some report.trades := by
  unfold tradeRows
  induction report.trades with
  | nil => rfl
  | cons trade rest ih =>
      rw [List.map_cons, List.map_cons, List.mapM_cons, tradeOf?_fields, ih]
      rfl

theorem isTable_tradesTable (report : Report Float) :
    IsTable report.tradesTable (Report.tradesHeader.map String.toList) (tradeRows report) := by
  refine isTable_tableText (List.cons_ne_nil _ _) (by decide) fun row hrow => ?_
  obtain ⟨trade, -, rfl⟩ := List.mem_map.mp hrow
  rfl

theorem trades_eq_of_tradesTable_eq {report other : Report Float}
    (h : other.tradesTable = report.tradesTable) : other.trades = report.trades := by
  have hrows : tradeRows other = tradeRows report := by
    rw [← (isTable_tradesTable other).below, h, (isTable_tradesTable report).below]
  have hread := mapM_tradeOf?_tradeRows other
  rw [hrows, mapM_tradeOf?_tradeRows] at hread
  exact (Option.some.inj hread).symm

theorem isTable_figuresTable (report : Report Float) (name : String) :
    ∃ rows, IsTable (report.figuresTable name) ["metric".toList, "value".toList] rows ∧
      rows.length = 14 ∧ (∀ row ∈ rows, row.length = 2) ∧
      rows.head? = some ["strategy".toList, name.toList] := by
  refine ⟨_, isTable_tableText (List.cons_ne_nil _ _) ?_ ?_, rfl, ?_, rfl⟩
  · decide
  · simp
  · simp

end Backtest.Proofs.WrittenReport
