import Backtest.Proofs.FileNames
import Backtest.Proofs.WrittenReport

namespace Backtest.Proofs.WrittenFiles

open Backtest.Proofs.FileChanges
open Backtest.Proofs.FileNames
open Backtest.Proofs.Outcome
open Backtest.Proofs.PriceLoading
open Backtest.Proofs.WrittenReport

theorem isFileName_tradesFile : IsFileName Report.tradesFile where
  relative := by simp [Report.tradesFile, Path.isAbsolute]
  plain := by simp [Report.tradesFile]
  long := by decide

theorem isFileName_figuresFile : IsFileName Report.figuresFile where
  relative := by simp [Report.figuresFile, Path.isAbsolute]
  plain := by simp [Report.figuresFile]
  long := by decide

variable {tree between after : FileTree} {path path' text : String}

theorem fromUTF8?_toUTF8 (text : String) : String.fromUTF8? text.toUTF8 = some text :=
  dif_pos text.isValidUTF8

theorem readText_of_entry {location : Location} (hlocate : tree.locate path = .ok location)
    (hentry : tree.entry? location = some (.file text.toUTF8)) : tree.readText path = .ok text := by
  have hbytes : tree.readBytes path = .ok text.toUTF8 :=
    bind_eq_ok.mpr ⟨location, hlocate, by rw [hentry]; rfl⟩
  refine bind_eq_ok.mpr ⟨text.toUTF8, hbytes, ?_⟩
  rw [fromUTF8?_toUTF8]
  rfl

theorem readText_writeBytes (hwrite : tree.writeBytes path text.toUTF8 = .ok after) :
    after.readText path = .ok text := by
  obtain ⟨location, hlocate, hfree, rfl⟩ := writeBytes_eq_ok hwrite
  exact readText_of_entry ((keepsDirectories_set hfree _).locate hlocate)
    (entry?_set_self hfree _)

theorem readText_writeBytes_of_ne {bytes : ByteArray}
    (hother : ∀ location, between.locate path = .ok location → between.locate path' ≠ .ok location)
    (hfirst : tree.writeBytes path text.toUTF8 = .ok between)
    (hsecond : between.writeBytes path' bytes = .ok after) : after.readText path = .ok text := by
  obtain ⟨location, hlocate, hfree, rfl⟩ := writeBytes_eq_ok hfirst
  obtain ⟨location', hlocate', hfree', rfl⟩ := writeBytes_eq_ok hsecond
  have hbetween := (keepsDirectories_set hfree (.file text.toUTF8)).locate hlocate
  have hne : location ≠ location' := fun h => hother location hbetween (h ▸ hlocate')
  refine readText_of_entry ((keepsDirectories_set hfree' _).locate hbetween) ?_
  rw [entry?_set_of_ne hfree' _ hne, entry?_set_self hfree]

theorem run_bind_eq_ok {ε α β : Type} {action : ExceptT ε (StateM FileTree) α}
    {next : α → ExceptT ε (StateM FileTree) β} {result : β} :
    (action >>= next).run.run tree = (.ok result, after) ↔
      ∃ value between, action.run.run tree = (.ok value, between) ∧
        (next value).run.run between = (.ok result, after) := by
  rw [ExceptT.run_bind, StateT.run_bind]
  generalize action.run.run tree = first
  obtain ⟨error | value, between⟩ := first
  · exact ⟨fun h => (nomatch congrArg Prod.fst h), nofun⟩
  · constructor
    · exact fun h => ⟨value, between, rfl, h⟩
    · rintro ⟨_, _, ⟨⟩, h⟩
      exact h

theorem run_writeText_eq_ok :
    (ExceptT.mk (Files.writeText path text) : ExceptT FileError (StateM FileTree) Unit).run.run
      tree = (.ok (), after) ↔ tree.writeBytes path text.toUTF8 = .ok after := by
  rw [ExceptT.run_mk, run_writeText]
  cases tree.writeBytes path text.toUTF8 with
  | error error => exact ⟨fun h => (nomatch congrArg Prod.fst h), nofun⟩
  | ok written =>
      constructor
      · exact fun h => congrArg Except.ok (congrArg Prod.snd h)
      · rintro ⟨⟩
        rfl

theorem readText_write {report : Report Float} {name directory : String}
    (hwrite :
      (report.write name directory : ExceptT FileError (StateM FileTree) Unit).run.run tree =
        (.ok (), after)) :
    after.readText (Path.join directory Report.tradesFile) = .ok report.tradesTable ∧
      after.readText (Path.join directory Report.figuresFile) = .ok (report.figuresTable name) := by
  obtain ⟨_, made, -, hwrite⟩ := run_bind_eq_ok.mp hwrite
  obtain ⟨_, between, hfirst, hsecond⟩ := run_bind_eq_ok.mp hwrite
  have htrades := run_writeText_eq_ok.mp hfirst
  have hfigures := run_writeText_eq_ok.mp hsecond
  refine ⟨readText_writeBytes_of_ne (fun location => ?_) htrades hfigures,
    readText_writeBytes hfigures⟩
  exact locate_join_ne isFileName_tradesFile isFileName_figuresFile (by decide)

/-- Both files of a report are read back: the table of trades has its header and a record of ten
fields for each trade in order, which determine the trade, and the table of figures has fourteen
records of two fields, the first of which holds the name. -/
theorem written_report_reads_back {report : Report Float} {name directory : String}
    (hwrite :
      (report.write name directory : ExceptT FileError (StateM FileTree) Unit).run.run tree =
        (.ok (), after)) :
    (∃ text rows, after.readText (Path.join directory Report.tradesFile) = .ok text ∧
      IsTable text (Report.tradesHeader.map String.toList) rows ∧
      (∀ row ∈ rows, row.length = 10) ∧ rows.mapM tradeOf? = some report.trades ∧
      ∀ other : Report Float, other.tradesTable = text → other.trades = report.trades) ∧
    ∃ text rows, after.readText (Path.join directory Report.figuresFile) = .ok text ∧
      IsTable text ["metric".toList, "value".toList] rows ∧ rows.length = 14 ∧
      (∀ row ∈ rows, row.length = 2) ∧ rows.head? = some ["strategy".toList, name.toList] := by
  obtain ⟨htrades, hfigures⟩ := readText_write hwrite
  have htable := isTable_tradesTable report
  obtain ⟨rows, htable', hrows⟩ := isTable_figuresTable report name
  refine ⟨⟨report.tradesTable, tradeRows report, htrades, htable, htable.equal,
    mapM_tradeOf?_tradeRows report, fun other h => trades_eq_of_tradesTable_eq h⟩, ?_⟩
  exact ⟨report.figuresTable name, rows, hfigures, htable', hrows⟩

def openTrade : Trade Float where
  entryIndex := 1
  entryDate := ⟨2022, 12, 30, by decide⟩
  entryPrice := 0.1
  exitIndex := 3
  exitDate := ⟨2023, 1, 3, by decide⟩
  exitPrice := 1.0 / 0.0
  profit := 1.0 / 0.0
  gain := 1.0 / 0.0
  forced := true

def openReport : Report Float := Report.ofTrades [openTrade] true

def lineName : String := "up, \"or\"\ndown"

def tradesWritten : FileTree :=
  (FileTree.empty []).set [Report.tradesFile] (.file openReport.tradesTable.toUTF8)

def bothWritten : FileTree :=
  tradesWritten.set [Report.figuresFile] (.file (openReport.figuresTable lineName).toUTF8)

theorem write_openReport :
    (openReport.write lineName "" : ExceptT FileError (StateM FileTree) Unit).run.run
      (FileTree.empty []) = (.ok (), bothWritten) := by
  have hlocate : (FileTree.empty []).locate Report.tradesFile = .ok [Report.tradesFile] :=
    locate_inRoot rfl isFileName_tradesFile (by simp [Report.tradesFile]) (by decide)
  have hlocate' : tradesWritten.locate Report.figuresFile = .ok [Report.figuresFile] :=
    locate_inRoot rfl isFileName_figuresFile (by simp [Report.figuresFile]) (by decide)
  have htrades : (FileTree.empty []).writeBytes Report.tradesFile
      openReport.tradesTable.toUTF8 = .ok tradesWritten :=
    bind_eq_ok.mpr ⟨_, hlocate, rfl⟩
  have hfigures : tradesWritten.writeBytes Report.figuresFile
      (openReport.figuresTable lineName).toUTF8 = .ok bothWritten :=
    bind_eq_ok.mpr ⟨_, hlocate', rfl⟩
  have hjoin {name : String} (hname : IsFileName name) : Path.join "" name = name := by
    rw [Path.join, hname.relative]
    exact String.empty_append
  refine run_bind_eq_ok.mpr ⟨(), FileTree.empty [], rfl, ?_⟩
  rw [hjoin isFileName_tradesFile, hjoin isFileName_figuresFile]
  exact run_bind_eq_ok.mpr ⟨(), tradesWritten, run_writeText_eq_ok.mpr htrades,
    run_writeText_eq_ok.mpr hfigures⟩

theorem written_report_reads_back_openReport :
    (openReport.write lineName "" : ExceptT FileError (StateM FileTree) Unit).run.run
      (FileTree.empty []) = (.ok (), bothWritten) ∧
    (∃ text rows, bothWritten.readText (Path.join "" Report.tradesFile) = .ok text ∧
      IsTable text (Report.tradesHeader.map String.toList) rows ∧
      rows.mapM tradeOf? = some [openTrade]) ∧
    ∃ text rows, bothWritten.readText (Path.join "" Report.figuresFile) = .ok text ∧
      IsTable text ["metric".toList, "value".toList] rows ∧
      rows.head? = some ["strategy".toList, lineName.toList] := by
  obtain ⟨⟨text, rows, htext, htable, -, hrows, -⟩, text', rows', htext', htable', -, -, hname⟩ :=
    written_report_reads_back write_openReport
  exact ⟨write_openReport, ⟨text, rows, htext, htable, hrows⟩, text', rows', htext', htable', hname⟩

end Backtest.Proofs.WrittenFiles
