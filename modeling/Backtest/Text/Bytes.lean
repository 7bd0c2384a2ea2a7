namespace Backtest.Text

def byteLength : List Char → Nat
  | [] => 0
  | c :: rest => c.utf8Size + byteLength rest

/-- The characters before a byte and those from it on. A byte past the end stands for the end, and
one inside a character for that character's end. -/
def splitAtByte : Nat → List Char → List Char × List Char
  | 0, text => ([], text)
  | _ + 1, [] => ([], [])
  | position + 1, c :: rest =>
    let (before, after) := splitAtByte (position + 1 - c.utf8Size) rest
    (c :: before, after)

/-- The line of a text that holds a byte, a caret below the character that starts at the byte, and a
message. The caret's column counts characters. -/
def pointAt (text : String) (position : Nat) (message : String) : String :=
  let (before, after) := splitAtByte position text.toList
  let start := (before.reverse.takeWhile (· != '\n')).reverse
  let line := start ++ after.takeWhile (· != '\n')
  String.ofList line ++ "\n" ++ String.ofList (List.replicate start.length ' ') ++ "^\n" ++ message

end Backtest.Text
