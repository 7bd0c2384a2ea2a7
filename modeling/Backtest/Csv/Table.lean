namespace Backtest.Csv

def needsQuotes (field : List Char) : Bool :=
  field.any fun c => c == ',' || c == '"' || c == '\n' || c == '\r'

def doubleQuotes (field : List Char) : List Char :=
  field.flatMap fun c => if c = '"' then ['"', '"'] else [c]

def fieldText (field : List Char) : List Char :=
  if needsQuotes field then '"' :: doubleQuotes field ++ ['"'] else field

def joined : List (List Char) → List Char
  | [] => []
  | [field] => fieldText field
  | field :: rest => fieldText field ++ ',' :: joined rest

/-- The line of a record. A record of one empty field is a pair of quotes, since an empty line is no
record. -/
def recordText (fields : List (List Char)) : List Char :=
  (if joined fields = [] then ['"', '"'] else joined fields) ++ ['\n']

def tableText (records : List (List String)) : String :=
  String.ofList ((records.map fun fields => recordText (fields.map String.toList)).flatten)

end Backtest.Csv
