import Backtest.Calendar.DateText
import Backtest.Csv.Record
import Backtest.Files
import Backtest.Files.Path
import Backtest.Frame
import Backtest.Number.Decimal

/-!
Daily prices from comma-separated files, one file for each symbol. Columns are found by their names
in the first record: a date and a closing price have to be there, other columns are taken as they
come. Records may be in any order and may be limited to a range of dates; the values of records
outside the range are not looked at.
-/

namespace Backtest

inductive PriceError
  | unreadable (path : String) (error : FileError)
  | unlistable (path : String) (error : FileError)
  | unequalRecord (error : Csv.UnequalRecord)
  | noDateColumn
  | noCloseColumn
  | badDate (line : Nat) (error : DateError)
  | badValue (line : Nat) (column : Column) (error : NumeralError)
  | notFinite (line : Nat) (column : Column)
  | negativeVolume (line : Nat)
  | duplicateDate (date : Date) (path : String)
  | badFrame (error : FrameError)

namespace PriceError

def reason : PriceError → String
  | unreadable path error => "failed to read " ++ path ++ ": " ++ error.message
  | unlistable path error => "failed to read directory " ++ path ++ ": " ++ error.message
  | unequalRecord error => "CSV parse error: " ++ error.message
  | noDateColumn => "missing date column"
  | noCloseColumn => "missing close column"
  | badDate line error => "line " ++ toString line ++ ": invalid date format: " ++ error.message
  | badValue line column error =>
    "line " ++ toString line ++ ": invalid " ++ column.name ++ " value: " ++ error.message
  | notFinite line column => "line " ++ toString line ++ ": non-finite " ++ column.name ++ " value"
  | negativeVolume line => "line " ++ toString line ++ ": negative volume"
  | duplicateDate date path => "duplicate date " ++ date.toText ++ " in " ++ path
  | badFrame error => error.message

def message (error : PriceError) : String := "data error: " ++ error.reason

end PriceError

/-- A range of dates, open where a bound is missing. -/
structure DateRange where
  first : Option Date := none
  last : Option Date := none

def DateRange.contains (range : DateRange) (date : Date) : Bool :=
  (match range.first with
    | some first => decide (first ≤ date)
    | none => true) &&
  (match range.last with
    | some last => decide (date ≤ last)
    | none => true)

namespace PriceFile

open Text (trim)

/-- Where the fields of a record hold the date and the columns. -/
structure Layout where
  date : Nat
  columns : List (Column × Nat)

/-- The first field that is a name up to white space around it and the case of letters. -/
def fieldNamed? (header : List (List Char)) (name : String) : Option Nat :=
  header.findIdx? fun field => (trim field).map Char.toLower == name.toList

def Layout.ofHeader (header : List (List Char)) : Except PriceError Layout :=
  match fieldNamed? header "date" with
  | none => .error .noDateColumn
  | some date =>
    let columns := Column.all.filterMap fun column =>
      (fieldNamed? header column.name).map fun index => (column, index)
    if columns.any fun (column, _) => column == .close then .ok { date, columns }
    else .error .noCloseColumn

structure Row where
  date : Date
  values : List (Column × Float)

/-- Reads one value. It has to be finite, and a volume must not be negative. -/
def readValue (line : Nat) (column : Column) (field : List Char) : Except PriceError Float :=
  match readNumeral (trim field) with
  | .error error => .error (.badValue line column error)
  | .ok value =>
    if !value.isFinite then .error (.notFinite line column)
    else if column = .volume ∧ value < 0 then .error (.negativeVolume line)
    else .ok value

/-- Reads a record; none if its date lies outside the range. -/
def readRow (layout : Layout) (range : DateRange) (record : Csv.Record) :
    Except PriceError (Option Row) := do
  let line := record.place.line
  let field (index : Nat) : List Char := record.fields.getD index []
  let date ← (Date.read (trim (field layout.date))).mapError (.badDate line)
  if range.contains date then
    let values ← layout.columns.mapM fun (column, index) => do
      return (column, ← readValue line column (field index))
    return some { date, values }
  else return none

def readRows (layout : Layout) (range : DateRange) (count : Nat) :
    Nat → List Csv.Record → Except PriceError (List Row)
  | _, [] => .ok []
  | index, record :: rest => do
    match record.unequal? count index with
    | some error => throw (.unequalRecord error)
    | none =>
      let row? ← readRow layout range record
      let rows ← readRows layout range count (index + 1) rest
      return row?.toList ++ rows

def firstDuplicate? : List Row → Option Date
  | a :: b :: rest => if a.date = b.date then some a.date else firstDuplicate? (b :: rest)
  | _ => none

def columnsOf (layout : Layout) (rows : List Row) : Columns Float := fun column =>
  (layout.columns.lookup column).bind fun _ => rows.mapM fun row => row.values.lookup column

/-- The frame of the text of a price file; the path is for messages only. -/
def read (path text : String) (range : DateRange) : Except PriceError (Frame Float) := do
  let (header, records) := match Csv.records text with
    | [] => ([], [])
    | header :: records => (header.fields, records)
  let layout ← Layout.ofHeader header
  let rows ← readRows layout range header.length 1 records
  let sorted := rows.mergeSort fun a b => decide (a.date ≤ b.date)
  match firstDuplicate? sorted with
  | some date => throw (.duplicateDate date path)
  | none => (Frame.ofColumns (sorted.map Row.date) (columnsOf layout sorted)).mapError .badFrame

def pathOf (directory symbol : String) : String := Path.join directory (symbol ++ ".csv")

/-- The symbols that the names in a directory stand for, sorted. -/
def symbolsOf (names : List String) : List String :=
  (names.filterMap (Path.stem? "csv")).mergeSort fun a b => decide (a ≤ b)

variable {m : Type → Type} [Monad m] [Files m]

def load (directory symbol : String) (range : DateRange) : m (Except PriceError (Frame Float)) := do
  let path := pathOf directory symbol
  match ← Files.readText path with
  | .ok text => return read path text range
  | .error error => return .error (.unreadable path error)

def symbols (directory : String) : m (Except PriceError (List String)) := do
  match ← Files.names directory with
  | .ok names => return .ok (symbolsOf names)
  | .error error => return .error (.unlistable directory error)

end PriceFile

end Backtest
