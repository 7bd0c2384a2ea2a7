import Backtest.Text.Blank

/-!
Comma-separated records. A record ends at a line feed or a carriage return, and empty lines between
records do not count. A quote opens a quoted field only at the start of the field; inside, a quote
is written twice, and text after the closing quote still belongs to the field. All records have to
have as many fields as the first.
-/

namespace Backtest.Csv

open Text

/-- A place in a text: the bytes before it and the line it is on, counting from 1. -/
structure Place where
  byte : Nat := 0
  line : Nat := 1
  deriving DecidableEq, Repr

/-- The place after a character; only a line feed ends a line. -/
def Place.after (place : Place) (c : Char) : Place :=
  { byte := place.byte + c.utf8Size
    line := if c = '\n' then place.line + 1 else place.line }

/-- A record and the place where it starts, which is where the one before it ended. -/
structure Record where
  place : Place
  fields : List (List Char)

inductive Mode
  /-- Before its first character, where line ends are passed over. -/
  | before
  | fieldStart
  | field
  | quoted
  /-- After a quote inside quotes. -/
  | quoteInQuoted

/-- A record being read: the place where it starts, its complete fields and the field being read,
both of them backwards. -/
structure Partial where
  start : Place
  mode : Mode := .before
  fields : List (List Char) := []
  current : List Char := []

namespace Partial

def push (p : Partial) (mode : Mode) (c : Char) : Partial :=
  { p with mode, current := c :: p.current }

def endField (p : Partial) : Partial :=
  { p with mode := .fieldStart, fields := p.current.reverse :: p.fields, current := [] }

def record (p : Partial) : Record :=
  { place := p.start, fields := p.endField.fields.reverse }

end Partial

def isLineEnd (c : Char) : Bool := c == '\n' || c == '\r'

/-- Takes in one character outside quotes; none if it ends the record. -/
def Partial.unquoted? (p : Partial) (c : Char) : Option Partial :=
  if c = ',' then some p.endField
  else if isLineEnd c then none
  else some (p.push .field c)

def Partial.next? (p : Partial) (c : Char) : Option Partial :=
  match p.mode with
  | .before =>
    if isLineEnd c then some p
    else if c = '"' then some { p with mode := .quoted }
    else p.unquoted? c
  | .fieldStart => if c = '"' then some { p with mode := .quoted } else p.unquoted? c
  | .field => p.unquoted? c
  | .quoted => if c = '"' then some { p with mode := .quoteInQuoted } else some (p.push .quoted c)
  | .quoteInQuoted => if c = '"' then some (p.push .quoted '"') else p.unquoted? c

def recordsFrom (p : Partial) (place : Place) : List Char → List Record
  | [] =>
    match p.mode with
    | .before => []
    | _ => [p.record]
  | c :: rest =>
    let place := place.after c
    match p.next? c with
    | some next => recordsFrom next place rest
    | none => p.record :: recordsFrom { start := place } place rest

/-- The records of a text. A byte order mark before the first one counts as bytes, not as text. -/
def records (text : String) : List Record :=
  let start : Place := {}
  match text.toList with
  | '\ufeff' :: rest => recordsFrom { start } (start.after '\ufeff') rest
  | chars => recordsFrom { start } start chars

/-- A record whose count of fields differs from that of the first one. -/
structure UnequalRecord where
  index : Nat
  place : Place
  expected : Nat
  actual : Nat
  deriving DecidableEq, Repr

namespace UnequalRecord

def message (e : UnequalRecord) : String :=
  "CSV error: record " ++ toString e.index ++ " (line: " ++ toString e.place.line ++ ", byte: " ++
    toString e.place.byte ++ "): found record with " ++ toString e.actual ++
    " fields, but the previous record has " ++ toString e.expected ++ " fields"

end UnequalRecord

def Record.unequal? (expected index : Nat) (record : Record) : Option UnequalRecord :=
  if record.fields.length = expected then none
  else some { index, place := record.place, expected, actual := record.fields.length }

end Backtest.Csv
