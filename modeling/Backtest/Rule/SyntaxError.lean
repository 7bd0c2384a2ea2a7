import Backtest.Rule.Token.Scan
import Backtest.Rule.Tree
import Backtest.Text.Bytes

namespace Backtest.Rule

/-- What could have stood where a token was refused. -/
inductive Expectation
  /-- A block, where none has been read yet or where the text could also end. -/
  | block (first : Bool)
  | colonAfter (side : Side)
  | bodyAfter (side : Side)
  | expression
  | leftParen
  | rightParen
  | commaOrRightParen
  | stop

namespace Expectation

def describe : Expectation → String
  | block true => "'ENTRY' or 'EXIT'"
  | block false => "'ENTRY', 'EXIT' or end of input"
  | colonAfter side => "':' after '" ++ side.keyword ++ "'"
  | bodyAfter side => "expression after '" ++ side.keyword ++ ":'"
  | expression => "expression"
  | leftParen => "'('"
  | rightParen => "')'"
  | commaOrRightParen => "',' or ')'"
  | stop => "end of input"

end Expectation

inductive ParseCause
  | unexpected (expected : Expectation) (found : Token)
  | duplicateBlock (side : Side)
  | chainedComparison (op : CompareOp)

namespace ParseCause

def describe : ParseCause → String
  | unexpected expected found => "expected " ++ expected.describe ++ ", found " ++ found.describe
  | duplicateBlock side => "duplicate '" ++ side.keyword ++ "' block"
  | chainedComparison op =>
    "chained comparison: unexpected '" ++ op.symbol ++ "' after comparison"

end ParseCause

structure ParseError where
  cause : ParseCause
  position : Nat

inductive SyntaxError
  | scan (error : ScanError)
  | parse (error : ParseError)

def scanMessage (error : ScanError) : String :=
  "lex error at position " ++ toString error.position ++ ": unexpected character '" ++
    String.singleton error.character ++ "'"

def parseMessage (position : Nat) (reason : String) : String :=
  "parse error at position " ++ toString position ++ ": " ++ reason

namespace SyntaxError

def position : SyntaxError → Nat
  | scan error => error.position
  | parse error => error.position

def message : SyntaxError → String
  | scan error => scanMessage error
  | parse error => parseMessage error.position error.cause.describe

/-- The message below the place in the text that it is about. -/
def inContext (error : SyntaxError) (text : String) : String :=
  Text.pointAt text error.position error.message

end SyntaxError

end Backtest.Rule
