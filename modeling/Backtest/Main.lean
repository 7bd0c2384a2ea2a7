import Backtest.Command.Arguments

namespace Backtest

def fileErrorOf : IO.Error → FileError
  | .noFileOrDirectory .. => .notFound
  | .alreadyExists .. => .alreadyExists
  | .inappropriateType _ code details =>
    if code = 20 then .notDirectory else if code = 21 then .isDirectory else .other details
  | error => .other (toString error)

def caught {α : Type} (action : IO α) : IO (Except FileError α) := do
  match ← action.toBaseIO with
  | .ok value => return .ok value
  | .error error => return .error (fileErrorOf error)

instance : Files IO where
  readText path := do
    match ← caught (IO.FS.readBinFile path) with
    | .error error => return .error error
    | .ok bytes =>
      match String.fromUTF8? bytes with
      | some text => return .ok text
      | none => return .error .notText
  names path := caught do
    let directory : IO.FS.DirEntry := { root := path, fileName := "" }
    return (← directory.root.readDir).toList.map (·.fileName)
  createDirectories path := caught (IO.FS.createDirAll path)
  writeText path text := caught (IO.FS.writeFile path text)

def usage : String :=
  "Usage: backtest <COMMAND>\n\n" ++
    "Commands:\n" ++
    "  backtest      -c <CONFIG> [-o <DIR>] [--symbol <SYMBOL>]\n" ++
    "  validate      -r <RULES>\n" ++
    "  parse         -r <RULES>\n" ++
    "  list-symbols  -c <CONFIG>\n"

end Backtest

open Backtest in
def main (arguments : List String) : IO UInt32 := do
  match Command.ofArguments arguments with
  | .error error =>
    if error = .helpAsked then IO.print usage else IO.eprint usage
    return error.exitStatus.toUInt32
  | .ok command =>
    let outcome : Outcome ← command.run
    IO.print outcome.transcript.stdout
    IO.eprint outcome.transcript.stderr
    return outcome.status.toUInt32
