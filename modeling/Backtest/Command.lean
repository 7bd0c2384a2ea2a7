import Backtest.Failure
import Backtest.ReportFiles

/-!
The commands of the program. A command asks for files through `Files`, collects what it prints, and
ends with an exit status; the first stage that fails ends it.
-/

namespace Backtest

inductive Command
  | backtest (settings : String) (output? symbol? : Option String)
  | validate (rules : String)
  | parse (rules : String)
  | listSymbols (settings : String)
  deriving DecidableEq, Repr

structure Transcript where
  stdout : String := ""
  stderr : String := ""
  deriving DecidableEq, Repr

/-- A failure in the words in which a command reports it, and its exit status. -/
structure Stop where
  text : String
  status : Nat
  deriving DecidableEq, Repr

structure Outcome where
  status : Nat
  transcript : Transcript
  deriving DecidableEq, Repr

/-- A command under way: it prints, asks for files and may stop. -/
abbrev Script (m : Type → Type) := ExceptT Stop (StateT Transcript m)

def Failure.stop (failure : Failure) : Stop := ⟨failure.message, failure.exitStatus⟩

/-- A failure to make sense of rules points into their text where it can. -/
def CompileError.stop (source : String) (error : CompileError) : Stop :=
  match error with
  | .unreadable syntaxError => ⟨syntaxError.inContext source, (Failure.rules error).exitStatus⟩
  | _ => (Failure.rules error).stop

namespace Command

/-- The path that a value in a settings file stands for: relative ones start from the directory of
the file. -/
def resolve (settingsPath value : String) : String :=
  let value := String.ofList (Text.trim value.toList)
  if Path.isAbsolute value then value
  else
    match Path.parent? settingsPath with
    | some directory => Path.join directory value
    | none => value

section

variable {m : Type → Type} [Monad m]

def say (line : String) : Script m Unit :=
  modify fun t => { t with stderr := t.stderr ++ line ++ "\n" }

def print (text : String) : Script m Unit :=
  modify fun t => { t with stdout := t.stdout ++ text }

def orStop {ε α : Type} (stop : ε → Stop) : Except ε α → Script m α
  | .ok value => pure value
  | .error error => throw (stop error)

def settingsStop (error : SettingsError) : Stop := (Failure.settings error).stop

def pricesStop (error : PriceError) : Stop := (Failure.prices error).stop

variable [Files m]

def ask {α : Type} (x : m α) : Script m α := ExceptT.lift (StateT.lift x)

def readRules (path : String) : Script m String := do
  orStop (fun error => ⟨"failed to read " ++ path ++ ": " ++ error.message,
    (Failure.file error).exitStatus⟩) (← ask (Files.readText path))

def loadSettings (path : String) : Script m Settings := do
  orStop settingsStop (← ask (Settings.load path))

/-- The rule text of settings: the one given in place, or else that of a file. -/
def loadRules (settings : Settings) (path : String) : Script m String := do
  match settings.filled? "strategy" "rules" with
  | some rules => return rules
  | none =>
    let file ← orStop settingsStop (settings.require "strategy" "rules_file")
    let rulesPath := resolve path file
    say ("Loading rules from " ++ rulesPath)
    readRules rulesPath

def loadStrategy (settings : Settings) (path : String) : Script m Strategy := do
  let name := (settings.get? "strategy" "name").getD "Unnamed"
  let description := (settings.get? "strategy" "description").getD ""
  let source ← loadRules settings path
  orStop (CompileError.stop source) (Strategy.compile name description source)

/-- The symbol to run: the one chosen, unless it is blank, or else the one in the settings. -/
def symbolOf (settings : Settings) (chosen? : Option String) : Except SettingsError String :=
  match chosen?.filter fun symbol => !Settings.isBlankValue symbol with
  | some symbol => .ok (String.ofList (Text.trim symbol.toList))
  | none => settings.require "data" "symbol"

def loadFrame (settings : Settings) (path : String) (chosen? : Option String) :
    Script m (Frame Float) := do
  let symbol ← orStop settingsStop (symbolOf settings chosen?)
  let first ← orStop settingsStop (settings.date? "start_date")
  let last ← orStop settingsStop (settings.date? "end_date")
  let directory ← orStop settingsStop (settings.require "data" "path")
  let frame ← orStop pricesStop
    (← ask (PriceFile.load (resolve path directory) symbol { first, last }))
  say ("Running backtest: " ++ toString frame.size ++ " bars of " ++ symbol)
  return frame

/-- The stages before anything is printed as a result: settings, rules, prices, evaluation. -/
def prepareBacktest (path : String) (symbol? : Option String) :
    Script m (Strategy × Report Float) := do
  say ("Loading config from " ++ path)
  let settings ← loadSettings path
  orStop settingsStop (settings.validate symbol?)
  let strategy ← loadStrategy settings path
  say ("Loading strategy: " ++ strategy.name)
  let frame ← loadFrame settings path symbol?
  let report ← orStop (fun error => (Failure.evaluation error).stop) (strategy.run frame)
  return (strategy, report)

def runBacktest (path : String) (output? symbol? : Option String) : Script m Unit := do
  let (strategy, report) ← prepareBacktest path symbol?
  print report.summary
  match output? with
  | none => return
  | some directory =>
    orStop (fun error => (Failure.file error).stop)
      (← ask (report.write strategy.name directory).run)
    say ("\nReport written to: " ++ directory)

def runValidate (path : String) : Script m Unit := do
  say ("Validating rules: " ++ path)
  let source ← readRules path
  let rules ← orStop (CompileError.stop source) (compileRules source)
  print (rules.toText Rule.Condition.toText)
  say "Rules are valid."

def runParse (path : String) : Script m Unit := do
  let source ← readRules path
  let rules ← orStop (fun error => CompileError.stop source (.unreadable error))
    (Rule.parse source)
  print (rules.toText Rule.Tree.toText)

def runListSymbols (path : String) : Script m Unit := do
  let settings ← loadSettings path
  let directory ← orStop settingsStop (settings.require "data" "path")
  let symbols ← orStop pricesStop (← ask (PriceFile.symbols (resolve path directory)))
  if symbols.isEmpty then say "No symbols found"
  else
    print (String.join (symbols.map (· ++ "\n")))
    say (toString symbols.length ++ " symbols found")

def script : Command → Script m Unit
  | backtest settings output? symbol? => runBacktest settings output? symbol?
  | validate rules => runValidate rules
  | parse rules => runParse rules
  | listSymbols settings => runListSymbols settings

def run (command : Command) : m Outcome := do
  match ← (command.script.run).run {} with
  | (.ok (), transcript) => return ⟨0, transcript⟩
  | (.error stop, transcript) =>
    return ⟨stop.status,
      { transcript with stderr := transcript.stderr ++ "error: " ++ stop.text ++ "\n" }⟩

end

end Command

end Backtest
