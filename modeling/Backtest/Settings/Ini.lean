import Backtest.Text.Blank
import Backtest.Text.Lowercase

namespace Backtest.Ini

open Text (trim)

/-- Why a line is no comment, no section and no key. Lines count from 1. -/
inductive LineError
  | openBracket (line : Nat)
  | emptyKey (line : Nat)
  deriving DecidableEq, Repr

def LineError.message : LineError → String
  | openBracket line =>
    "line " ++ toString line ++ ": Found opening bracket for section name but no closing bracket"
  | emptyKey line => "line " ++ toString line ++ ":0: Key cannot be empty"

/-- What one line says. Names are in small letters. -/
inductive Line
  | nothing
  | header (name : String)
  | item (key : String) (value? : Option String)

structure Item where
  group : String
  key : String
  value? : Option String

/-- The section of the keys before the first header. -/
def defaultGroup : String := "default"

def isComment (c : Char) : Bool := c == ';' || c == '#'

def isDelimiter (c : Char) : Bool := c == '=' || c == ':'

def nameOf (text : List Char) : String := Text.lowercase (String.ofList (trim text))

def lines (text : List Char) : List (List Char) :=
  text.splitOn '\n'

/-- Reads a line with a given number. The header of a section ends at the last closing bracket, and
the rest of its line does not count. -/
def readLine (number : Nat) (text : List Char) : Except LineError Line :=
  match trim ((trim text).takeWhile fun c => !isComment c) with
  | [] => .ok .nothing
  | '[' :: rest =>
    match rest.reverse.dropWhile (· != ']') with
    | _ :: name => .ok (.header (nameOf name.reverse))
    | [] => .error (.openBracket number)
  | line =>
    let (key, rest) := line.span fun c => !isDelimiter c
    match rest with
    | [] => .ok (.item (nameOf key) none)
    | _ :: value =>
      if key = [] then .error (.emptyKey number)
      else .ok (.item (nameOf key) (some (String.ofList (trim value))))

def readLines (group : String) (number : Nat) : List (List Char) → Except LineError (List Item)
  | [] => .ok []
  | text :: rest => do
    match ← readLine number text with
    | .nothing => readLines group (number + 1) rest
    | .header name => readLines name (number + 1) rest
    | .item key value? => return ⟨group, key, value?⟩ :: (← readLines group (number + 1) rest)

def read (text : String) : Except LineError (List Item) :=
  readLines defaultGroup 1 (lines text.toList)

/-- The last value that items give to a key. -/
def lookup? (items : List Item) (group key : String) : Option String :=
  let group := Text.lowercase group
  let key := Text.lowercase key
  (items.reverse.find? fun item => item.group == group && item.key == key).bind (·.value?)

end Backtest.Ini
