import Backtest.Command

/-!
Commands from the words of a command line. A command has named options, each with a value: `--name
value` or `--name=value`, and for those with a letter also `-n value`, `-nvalue` or `-n=value`. An
option is given at most once. A word that starts with a hyphen is never a value of the option before
it, except a hyphen alone.
-/

namespace Backtest

inductive UsageError
  | helpAsked
  | nothingAsked
  | unknownCommand
  | unknownArgument
  | badValue
  | tooManyValues
  | repeatedOption
  | missingOption
  deriving DecidableEq, Repr

namespace UsageError

def exitStatus : UsageError → Nat
  | helpAsked => 0
  | _ => 2

end UsageError

namespace Arguments

/-- An option of a command. The value of one that names a path must not be empty. -/
structure Choice where
  name : String
  letter? : Option Char := none
  isPath : Bool := true
  required : Bool := true
  deriving DecidableEq, Repr

def config : Choice := { name := "config", letter? := some 'c' }

def output : Choice := { name := "output", letter? := some 'o', required := false }

def symbol : Choice := { name := "symbol", isPath := false, required := false }

def rules : Choice := { name := "rules", letter? := some 'r' }

/-- How far the words of a command have been read: the values given, and the option whose value is
not settled, with the word read for it if there is one. -/
structure State where
  given : List (Choice × String) := []
  pending? : Option (Choice × Option String) := none

namespace State

def store (state : State) (choice : Choice) (value : String) : Except UsageError State :=
  if state.given.any fun (other, _) => other == choice then .error .repeatedOption
  else if choice.isPath && value == "" then .error .badValue
  else .ok { given := state.given ++ [(choice, value)] }

def settle (state : State) : Except UsageError State :=
  match state.pending? with
  | none => .ok state
  | some (_, none) => .error .badValue
  | some (choice, some value) => state.store choice value

/-- Reads an option that was given with its value, or else waits for the value. -/
def option (state : State) (choice : Choice) (value? : Option String) :
    Except UsageError State := do
  let settled ← state.settle
  match value? with
  | some value => settled.store choice value
  | none => return { settled with pending? := some (choice, none) }

/-- Ends in a call for help, once what came before it is settled. -/
def help (state : State) : Except UsageError State := do
  let _ ← state.settle
  throw .helpAsked

/-- Reads the rest of a word after two hyphens. -/
def long (choices : List Choice) (state : State) (word : List Char) : Except UsageError State :=
  let (name, after) := word.span (· != '=')
  let value? : Option String :=
    match after with
    | _ :: value => some (String.ofList value)
    | [] => none
  if String.ofList name == "help" then
    if value?.isSome then .error .tooManyValues else state.help
  else
    match choices.find? fun choice => choice.name == String.ofList name with
    | some choice => state.option choice value?
    | none => .error .unknownArgument

/-- Reads the letter after one hyphen and the rest of its word. -/
def short (choices : List Choice) (state : State) (letter : Char) (rest : List Char) :
    Except UsageError State :=
  if letter = 'h' then state.help
  else
    match choices.find? fun choice => choice.letter? == some letter with
    | none => .error .unknownArgument
    | some choice =>
      match rest with
      | [] => state.option choice none
      | '=' :: value => state.option choice (some (String.ofList value))
      | value => state.option choice (some (String.ofList value))

/-- Reads a word that is no option; only a value that is waited for can be one. -/
def plain (state : State) (word : String) : Except UsageError State :=
  match state.pending? with
  | some (choice, none) => .ok { state with pending? := some (choice, some word) }
  | _ => .error .unknownArgument

/-- Reads the words of a command. No word may follow two hyphens that stand alone. -/
def read (choices : List Choice) (state : State) : List String → Except UsageError State
  | [] => state.settle
  | word :: rest => do
    match word.toList with
    | ['-', '-'] => if rest.isEmpty then state.settle else throw .unknownArgument
    | '-' :: '-' :: name => (← state.long choices name).read choices rest
    | '-' :: letter :: after => (← state.short choices letter after).read choices rest
    | _ => (← state.plain word).read choices rest

end State

def values (choices : List Choice) (words : List String) :
    Except UsageError (Choice → Option String) := do
  let state ← State.read choices {} words
  if choices.any fun choice => choice.required && (state.given.lookup choice).isNone then
    throw .missingOption
  return fun choice => state.given.lookup choice

def required (value? : Option String) : Except UsageError String :=
  match value? with
  | some value => .ok value
  | none => .error .missingOption

def command? (name : String) (words : List String) : Option (Except UsageError Command) :=
  match name with
  | "backtest" => some do
    let value ← values [config, output, symbol] words
    return .backtest (← required (value config)) (value output) (value symbol)
  | "validate" => some do
    let value ← values [rules] words
    return .validate (← required (value rules))
  | "parse" => some do
    let value ← values [rules] words
    return .parse (← required (value rules))
  | "list-symbols" => some do
    let value ← values [config] words
    return .listSymbols (← required (value config))
  | _ => none

def commandNames : List String := ["backtest", "validate", "parse", "list-symbols", "help"]

/-- What the words after `help` ask for: nothing, or one command. -/
def helpError : List String → UsageError
  | [] => .helpAsked
  | [name] => if commandNames.contains name then .helpAsked else .unknownCommand
  | _ => .unknownCommand

def trailingError : List String → UsageError
  | [] => .nothingAsked
  | name :: _ => if commandNames.contains name then .unknownArgument else .unknownCommand

end Arguments

open Arguments in
def Command.ofArguments : List String → Except UsageError Command
  | [] => .error .nothingAsked
  | "help" :: words => .error (helpError words)
  | name :: words =>
    match command? name words with
    | some command => command
    | none =>
      match name.toList with
      | ['-', '-'] => .error (trailingError words)
      | '-' :: '-' :: long =>
        let (option, value) := long.span (· != '=')
        if option ≠ "help".toList then .error .unknownArgument
        else if value.isEmpty then .error .helpAsked
        else .error .tooManyValues
      | '-' :: letter :: _ => .error (if letter = 'h' then .helpAsked else .unknownArgument)
      | _ => .error .unknownCommand

end Backtest
