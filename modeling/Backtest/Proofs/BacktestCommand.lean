import Backtest.Proofs.FileChanges
import Backtest.Proofs.ValidSettings

namespace Backtest.Proofs.BacktestCommand

open Backtest.Command
open Backtest.Proofs.Outcome
open Backtest.Proofs.FileChanges
open Backtest.Proofs.ScriptRun
open Backtest.Proofs.ValidSettings

def loadedSettings (tree : FileTree) (path : String) : Except SettingsError Settings :=
  match tree.readText path with
  | .ok text => ((Ini.read text).mapError (.badFile path)).map Settings.ofItems
  | .error error => .error (.unreadable path error)

def settingsOf (tree : FileTree) (path : String) (symbol? : Option String) :
    Except Failure Settings := do
  let settings ← (loadedSettings tree path).mapError .settings
  (settings.validate symbol?).mapError .settings
  return settings

def sourceOf (tree : FileTree) (path : String) (settings : Settings) : Except Failure String :=
  match settings.filled? "strategy" "rules" with
  | some rules => .ok rules
  | none => do
    let file ← (settings.require "strategy" "rules_file").mapError .settings
    (tree.readText (resolve path file)).mapError .file

def strategyOf (tree : FileTree) (path : String) (settings : Settings) :
    Except Failure Strategy := do
  let source ← sourceOf tree path settings
  (Strategy.compile ((settings.get? "strategy" "name").getD "Unnamed")
    ((settings.get? "strategy" "description").getD "") source).mapError .rules

def loadedPrices (tree : FileTree) (directory symbol : String) (range : DateRange) :
    Except PriceError (Frame Float) :=
  match tree.readText (PriceFile.pathOf directory symbol) with
  | .ok text => PriceFile.read (PriceFile.pathOf directory symbol) text range
  | .error error => .error (.unreadable (PriceFile.pathOf directory symbol) error)

def frameOf (tree : FileTree) (path : String) (symbol? : Option String) (settings : Settings) :
    Except Failure (Frame Float) := do
  let symbol ← (symbolOf settings symbol?).mapError .settings
  let first ← (settings.date? "start_date").mapError .settings
  let last ← (settings.date? "end_date").mapError .settings
  let directory ← (settings.require "data" "path").mapError .settings
  (loadedPrices tree (resolve path directory) symbol { first, last }).mapError .prices

def reportOf (strategy : Strategy) (frame : Frame Float) : Except Failure (Report Float) :=
  (strategy.run frame).mapError .evaluation

/-- The stages before a result is printed, one after the other until one fails. -/
def prepared (tree : FileTree) (path : String) (symbol? : Option String) :
    Except Failure (Strategy × Report Float) := do
  let settings ← settingsOf tree path symbol?
  let strategy ← strategyOf tree path settings
  let frame ← frameOf tree path symbol? settings
  let report ← reportOf strategy frame
  return (strategy, report)

variable {tree : FileTree} {path : String} {symbol? : Option String} {settings : Settings}
  {failure : Failure}

theorem mapError_eq_error_exitStatus {ε α : Type} {result : Except ε α} {f : ε → Failure}
    {status : Nat} (hsame : ∀ error, (f error).exitStatus = status)
    (hfailed : result.mapError f = .error failure) : failure.exitStatus = status := by
  obtain ⟨error, -, rfl⟩ := mapError_eq_error.mp hfailed
  exact hsame error

theorem validate_of_settingsOf (hdone : settingsOf tree path symbol? = .ok settings) :
    settings.validate symbol? = .ok () := by
  obtain ⟨loaded, -, hdone⟩ := bind_eq_ok.mp hdone
  obtain ⟨_, hvalid, hdone⟩ := bind_eq_ok.mp hdone
  obtain rfl := Except.ok.inj hdone
  exact mapError_eq_ok.mp hvalid

theorem exitStatus_settingsOf (hfailed : settingsOf tree path symbol? = .error failure) :
    failure.exitStatus = 2 := by
  rcases bind_eq_error.mp hfailed with hfailed | ⟨loaded, -, hfailed⟩
  · exact mapError_eq_error_exitStatus (fun _ => rfl) hfailed
  · rcases bind_eq_error.mp hfailed with hfailed | ⟨_, -, hfailed⟩
    · exact mapError_eq_error_exitStatus (fun _ => rfl) hfailed
    · exact nomatch hfailed

theorem exitStatus_sourceOf (hvalid : Valid settings symbol?)
    (hfailed : sourceOf tree path settings = .error failure) : failure.exitStatus = 1 := by
  rw [sourceOf] at hfailed
  cases hinPlace : settings.filled? "strategy" "rules" with
  | some rules =>
      rw [hinPlace] at hfailed
      exact nomatch hfailed
  | none =>
      -- validation has found the key, so only the reading of the file is left to fail
      obtain ⟨file, hgiven, -⟩ := exists_rulesFile hvalid.rules hinPlace
      rw [hinPlace, require_eq_ok.mpr hgiven] at hfailed
      exact mapError_eq_error_exitStatus (fun _ => rfl) hfailed

theorem exitStatus_strategyOf (hvalid : Valid settings symbol?)
    (hfailed : strategyOf tree path settings = .error failure) :
    failure.exitStatus = 1 ∨ failure.exitStatus = 4 := by
  rcases bind_eq_error.mp hfailed with hfailed | ⟨source, -, hfailed⟩
  · exact .inl (exitStatus_sourceOf hvalid hfailed)
  · exact .inr (mapError_eq_error_exitStatus (fun _ => rfl) hfailed)

theorem exitStatus_frameOf (hvalid : Valid settings symbol?)
    (hfailed : frameOf tree path symbol? settings = .error failure) : failure.exitStatus = 3 := by
  obtain ⟨symbol, hchosen, -⟩ := hvalid.exists_symbol
  obtain ⟨first?, last?, hstart, hstop, -⟩ := dates_of_validateDates hvalid.dates
  obtain ⟨directory, hgiven, -⟩ := hvalid.directory
  rw [frameOf, hchosen, hstart, hstop, require_eq_ok.mpr hgiven] at hfailed
  exact mapError_eq_error_exitStatus (fun _ => rfl) hfailed

theorem exitStatus_reportOf {strategy : Strategy} {frame : Frame Float}
    (hfailed : reportOf strategy frame = .error failure) : failure.exitStatus = 5 :=
  mapError_eq_error_exitStatus (fun _ => rfl) hfailed

theorem run_readText (path : String) (tree : FileTree) :
    (Files.readText path : StateM FileTree (Except FileError String)).run tree =
      (tree.readText path, tree) :=
  rfl

theorem finds_loadSettings (tree : FileTree) (path : String) :
    Finds (loadSettings path) tree ((loadedSettings tree path).mapError .settings) := by
  have hanswer : (Settings.load path : StateM FileTree (Except SettingsError Settings)).run tree =
      (loadedSettings tree path, tree) := by
    rw [Settings.load, StateT.run_bind, run_readText, loadedSettings]
    cases tree.readText path <;> rfl
  exact .after (.ask hanswer) (.orStop (fun _ => rfl) _)

theorem finds_readRules (tree : FileTree) (path : String) :
    Finds (readRules path) tree ((tree.readText path).mapError .file) :=
  .after (.ask (run_readText path tree)) (.orStop (fun _ => rfl) _)

theorem finds_loadRules (tree : FileTree) (path : String) (settings : Settings) :
    Finds (loadRules settings path) tree (sourceOf tree path settings) := by
  rw [loadRules, sourceOf]
  cases settings.filled? "strategy" "rules" with
  | some rules => exact .pure rules
  | none =>
      exact .bind (.orStop (fun _ => rfl) _) fun file _ =>
        .after (.say _) (finds_readRules tree (resolve path file))

theorem status_stop (source : String) (error : CompileError) :
    (error.stop source).status = (Failure.rules error).exitStatus := by
  cases error <;> rfl

theorem finds_loadStrategy (tree : FileTree) (path : String) (settings : Settings) :
    Finds (loadStrategy settings path) tree (strategyOf tree path settings) :=
  .bind (finds_loadRules tree path settings) fun source _ => .orStop (status_stop source) _

theorem finds_loadFrame (tree : FileTree) (path : String) (symbol? : Option String)
    (settings : Settings) :
    Finds (loadFrame settings path symbol?) tree (frameOf tree path symbol? settings) := by
  have hanswer (directory symbol : String) (range : DateRange) :
      (PriceFile.load directory symbol range :
        StateM FileTree (Except PriceError (Frame Float))).run tree =
          (loadedPrices tree directory symbol range, tree) := by
    rw [PriceFile.load, StateT.run_bind, run_readText, loadedPrices]
    cases tree.readText (PriceFile.pathOf directory symbol) <;> rfl
  refine .bind (.orStop (fun _ => rfl) _) fun symbol _ => ?_
  refine .bind (.orStop (fun _ => rfl) _) fun first _ => ?_
  refine .bind (.orStop (fun _ => rfl) _) fun last _ => ?_
  refine .bind (.orStop (fun _ => rfl) _) fun directory _ => ?_
  exact .after (.ask (hanswer _ _ _)) (.thenSay (.orStop (fun _ => rfl) _) _)

theorem finds_prepareBacktest (tree : FileTree) (path : String) (symbol? : Option String) :
    Finds (prepareBacktest path symbol?) tree (prepared tree path symbol?) := by
  -- the command loads and validates in two steps, which are one stage here
  simp only [prepared, settingsOf, bind_assoc, pure_bind]
  refine .after (.say _) <| .bind (finds_loadSettings tree path) fun settings _ => ?_
  refine .bind (.orStop (fun _ => rfl) _) fun _ _ => ?_
  refine .bind (finds_loadStrategy tree path settings) fun strategy _ => ?_
  refine .after (.say _) <| .bind (finds_loadFrame tree path symbol? settings) fun frame _ => ?_
  exact .bind (.orStop (fun _ => rfl) _) fun report _ => .pure (strategy, report)

def tablePaths (directory : String) : List String :=
  [Path.join directory Report.tradesFile, Path.join directory Report.figuresFile]

theorem writes_write (report : Report Float) (name directory : String) :
    Writes (Path.ancestors directory) (tablePaths directory)
      (report.write name directory : ExceptT FileError (StateM FileTree) Unit) :=
  .bind (writes_createDirectories (List.Subset.refl _)) fun _ =>
    .bind (writes_writeText (by simp [tablePaths]) _) fun _ =>
      writes_writeText (by simp [tablePaths]) _

/-- A command on a tree of files: its outcome, and the tree after it. -/
def runOn (tree : FileTree) (command : Command) : Outcome × FileTree :=
  (command.run : StateM FileTree Outcome).run tree

theorem runOn_eq (tree : FileTree) (command : Command) :
    runOn tree command =
      match exec command.script {} tree with
      | ((.ok (), transcript), after) => (⟨0, transcript⟩, after)
      | ((.error stop, transcript), after) =>
        (⟨stop.status,
          { transcript with
            stderr := transcript.stderr ++ "error: " ++ stop.text ++ "\n" }⟩, after) := by
  rw [runOn, Command.run, StateT.run_bind, ← exec]
  rcases exec command.script {} tree with ⟨⟨_ | _, transcript⟩, after⟩ <;> rfl

/-- The last stage on a tree of files: what comes of writing a report, and the tree after it. -/
def written (tree : FileTree) (report : Report Float) (name directory : String) :
    Except FileError Unit × FileTree :=
  (report.write name directory : ExceptT FileError (StateM FileTree) Unit).run.run tree

def reporting (strategy : Strategy) (report : Report Float) :
    Option String → Script (StateM FileTree) Unit
  | none => pure ()
  | some directory => do
    orStop (fun error => (Failure.file error).stop)
      (← ask (report.write strategy.name directory).run)
    say ("\nReport written to: " ++ directory)

theorem runBacktest_eq (path : String) (output? symbol? : Option String) :
    (runBacktest path output? symbol? : Script (StateM FileTree) Unit) = (do
      let (strategy, report) ← prepareBacktest path symbol?
      print report.summary
      reporting strategy report output?) := by
  cases output? <;> rfl

def writeStatus : Except FileError Unit → Nat
  | .ok () => 0
  | .error error => (Failure.file error).exitStatus

section

variable {output? : Option String}

theorem runOn_backtest_error (hfailed : prepared tree path symbol? = .error failure) :
    (runOn tree (.backtest path output? symbol?)).1.status = failure.exitStatus ∧
      (runOn tree (.backtest path output? symbol?)).1.transcript.stdout = "" ∧
      (runOn tree (.backtest path output? symbol?)).2 = tree := by
  obtain ⟨found, log, hdone, hsame⟩ := finds_prepareBacktest tree path symbol? {}
  rw [hfailed] at hsame
  obtain ⟨stop, rfl, hstatus⟩ := mapError_eq_error.mp hsame
  have hstopped : exec (script (.backtest path output? symbol?)) {} tree =
      ((.error stop, { stderr := "" ++ log }), tree) := exec_bind_error hdone
  rw [runOn_eq, hstopped]
  exact ⟨hstatus, rfl, rfl⟩

variable {strategy : Strategy} {report : Report Float}
  (hdone : prepared tree path symbol? = .ok (strategy, report))
include hdone

theorem exists_exec_backtest (output? : Option String) :
    ∃ log, exec (script (.backtest path output? symbol?)) {} tree =
      exec (reporting strategy report output?)
        { stdout := report.summary, stderr := log } tree := by
  obtain ⟨found, log, hran, hsame⟩ := finds_prepareBacktest tree path symbol? {}
  rw [hdone] at hsame
  obtain rfl : found = .ok (strategy, report) := mapError_eq_ok.mp hsame
  have hprinted : exec (print report.summary) { stderr := "" ++ log } tree =
      ((.ok (), { stdout := "" ++ report.summary, stderr := "" ++ log }), tree) :=
    exec_print _ _ _
  simp only [String.empty_append] at hran hprinted
  refine ⟨log, ?_⟩
  rw [script, runBacktest_eq, exec_bind_ok hran]
  dsimp only
  rw [exec_bind_ok hprinted]

theorem runOn_backtest_none :
    (runOn tree (.backtest path none symbol?)).1.status = 0 ∧
      (runOn tree (.backtest path none symbol?)).1.transcript.stdout = report.summary ∧
      (runOn tree (.backtest path none symbol?)).2 = tree := by
  obtain ⟨log, hran⟩ := exists_exec_backtest hdone none
  rw [runOn_eq, hran, reporting]
  exact ⟨rfl, rfl, rfl⟩

theorem runOn_backtest_some (directory : String) :
    (runOn tree (.backtest path (some directory) symbol?)).1.status =
        writeStatus (written tree report strategy.name directory).1 ∧
      (runOn tree (.backtest path (some directory) symbol?)).1.transcript.stdout =
        report.summary ∧
      (runOn tree (.backtest path (some directory) symbol?)).2 =
        (written tree report strategy.name directory).2 := by
  obtain ⟨log, hran⟩ := exists_exec_backtest hdone (some directory)
  have hasked : exec (ask (report.write strategy.name directory).run)
      { stdout := report.summary, stderr := log } tree =
        ((.ok (written tree report strategy.name directory).1,
          { stdout := report.summary, stderr := log }),
          (written tree report strategy.name directory).2) := exec_ask _ _ _
  rw [runOn_eq, hran, reporting, exec_bind_ok hasked]
  rcases written tree report strategy.name directory with ⟨_ | _, after⟩
  · exact ⟨rfl, rfl, rfl⟩
  · exact ⟨rfl, rfl, rfl⟩

end

/-- The command stops at the first stage that fails, with its exit status, and then has printed no
result and changed no file. Otherwise it prints the summary once; it changes files only where it is
asked for a report, and then only makes the directory of the report and those above it and writes
the two tables in it. The exit status tells the stage. -/
theorem runOn_backtest (tree : FileTree) (path : String) (output? symbol? : Option String) :
    let run := runOn tree (.backtest path output? symbol?)
    (∀ failure, prepared tree path symbol? = .error failure →
        run.1.status = failure.exitStatus ∧ run.1.transcript.stdout = "" ∧ run.2 = tree) ∧
      (∀ strategy report, prepared tree path symbol? = .ok (strategy, report) →
        run.1.transcript.stdout = report.summary ∧
          (output? = none → run.1.status = 0 ∧ run.2 = tree) ∧
          ∀ directory, output? = some directory →
            run.1.status = writeStatus (written tree report strategy.name directory).1 ∧
              Extends (Path.ancestors directory) (tablePaths directory) tree run.2) ∧
      (∀ failure, settingsOf tree path symbol? = .error failure → failure.exitStatus = 2) ∧
      (∀ settings, settingsOf tree path symbol? = .ok settings →
        (∀ failure, strategyOf tree path settings = .error failure →
            failure.exitStatus = 1 ∨ failure.exitStatus = 4) ∧
          ∀ failure, frameOf tree path symbol? settings = .error failure →
            failure.exitStatus = 3) ∧
      ∀ strategy frame failure, reportOf strategy frame = .error failure →
        failure.exitStatus = 5 := by
  refine ⟨fun failure hfailed => runOn_backtest_error hfailed, ?_,
    fun failure hfailed => exitStatus_settingsOf hfailed, ?_,
    fun strategy frame failure hfailed => exitStatus_reportOf hfailed⟩
  · intro strategy report hdone
    cases output? with
    | none =>
        obtain ⟨hstatus, hprinted, hunchanged⟩ := runOn_backtest_none hdone
        exact ⟨hprinted, fun _ => ⟨hstatus, hunchanged⟩, nofun⟩
    | some directory =>
        obtain ⟨hstatus, hprinted, hchanged⟩ := runOn_backtest_some hdone directory
        refine ⟨hprinted, nofun, ?_⟩
        rintro _ ⟨⟩
        refine ⟨hstatus, ?_⟩
        rw [hchanged]
        exact writes_write report strategy.name directory tree
  · intro settings hdone
    have hvalid := valid_of_validate (validate_of_settingsOf hdone)
    exact ⟨fun failure => exitStatus_strategyOf hvalid, fun failure => exitStatus_frameOf hvalid⟩

end Backtest.Proofs.BacktestCommand
