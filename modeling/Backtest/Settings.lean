import Backtest.Calendar.DateText
import Backtest.Files
import Backtest.Settings.Ini

namespace Backtest

inductive SettingsFault
  | twoRuleSources
  | notADate (key : String)
  | datesOutOfOrder
  deriving DecidableEq, Repr

namespace SettingsFault

def reason : SettingsFault → String
  | twoRuleSources => "rules and rules_file are mutually exclusive"
  | notADate key => "invalid " ++ key ++ " format, expected YYYY-MM-DD"
  | datesOutOfOrder => "start_date must be before end_date"

end SettingsFault

inductive SettingsError
  /-- A text that did not come from a file. -/
  | badText (error : Ini.LineError)
  | badFile (path : String) (error : Ini.LineError)
  | unreadable (path : String) (error : FileError)
  | missing (group key : String)
  | invalid (group key : String) (fault : SettingsFault)
  deriving DecidableEq, Repr

namespace SettingsError

def message : SettingsError → String
  | badText error => "config parse error in <string>: " ++ error.message
  | badFile path error =>
    "config parse error in " ++ path ++ ": couldn't read " ++ path ++ ": " ++ error.message
  | unreadable path error =>
    "config parse error in " ++ path ++ ": couldn't read " ++ path ++ ": " ++ error.message
  | missing group key => "missing config key [" ++ group ++ "] " ++ key
  | invalid group key fault =>
    "invalid config value [" ++ group ++ "] " ++ key ++ ": " ++ fault.reason

end SettingsError

/-- The values of the keys of each group. -/
structure Settings where
  get? : (group key : String) → Option String

namespace Settings

def ofItems (items : List Ini.Item) : Settings := ⟨Ini.lookup? items⟩

def ofText (text : String) : Except SettingsError Settings := do
  return ofItems (← (Ini.read text).mapError .badText)

def load {m : Type → Type} [Monad m] [Files m] (path : String) :
    m (Except SettingsError Settings) := do
  match ← Files.readText path with
  | .ok text => return ((Ini.read text).mapError (.badFile path)).map ofItems
  | .error error => return .error (.unreadable path error)

def isBlankValue (value : String) : Bool := Text.allBlank value.toList

/-- The value of a key, unless it is blank. -/
def filled? (settings : Settings) (group key : String) : Option String :=
  (settings.get? group key).filter fun value => !isBlankValue value

/-- The value of a key, which may be blank but must be there. -/
def require (settings : Settings) (group key : String) : Except SettingsError String :=
  match settings.get? group key with
  | some value => .ok value
  | none => .error (.missing group key)

def requireFilled (settings : Settings) (group key : String) : Except SettingsError String :=
  match settings.filled? group key with
  | some value => .ok value
  | none => .error (.missing group key)

def date? (settings : Settings) (key : String) : Except SettingsError (Option Date) :=
  match settings.filled? "data" key with
  | none => .ok none
  | some value =>
    match Date.read (Text.trim value.toList) with
    | .ok date => .ok (some date)
    | .error _ => .error (.invalid "data" key (.notADate key))

/-- Rules are given either in place or as a file. -/
def validateRules (settings : Settings) : Except SettingsError Unit :=
  match settings.filled? "strategy" "rules", settings.filled? "strategy" "rules_file" with
  | some _, none | none, some _ => .ok ()
  | some _, some _ => .error (.invalid "strategy" "rules" .twoRuleSources)
  | none, none => .error (.missing "strategy" "rules")

def validateDates (settings : Settings) : Except SettingsError Unit := do
  let first? ← settings.date? "start_date"
  let last? ← settings.date? "end_date"
  match first?, last? with
  | some first, some last =>
    if first < last then return
    else throw (.invalid "data" "start_date" .datesOutOfOrder)
  | _, _ => return

/-- Checks the settings of a run. A symbol that is chosen elsewhere stands in for the one in the
settings, unless it is blank. -/
def validate (settings : Settings) (chosen? : Option String) : Except SettingsError Unit := do
  settings.validateRules
  let _ ← settings.requireFilled "data" "path"
  match chosen?.filter fun symbol => !isBlankValue symbol with
  | some _ => pure ()
  | none => let _ ← settings.requireFilled "data" "symbol"
  settings.validateDates

end Settings

end Backtest
