import Backtest.Number.Text
import Backtest.Rule.Operator

namespace Backtest.Rule

inductive Keyword
  | entry
  | exit
  | and
  | or
  deriving DecidableEq, Repr

namespace Keyword

def all : List Keyword := [entry, exit, and, or]

def spelling : Keyword → String
  | entry => "ENTRY"
  | exit => "EXIT"
  | and => "AND"
  | or => "OR"

/-- The keyword that a word spells, in any mixture of cases. -/
def ofWord? (word : String) : Option Keyword :=
  all.find? fun keyword => keyword.spelling == word.toUpper

end Keyword

/-- A token. A word before an opening parenthesis is a function name, any other word that is no
keyword an identifier. `stop` stands at the end of every text. -/
inductive Token
  | identifier (name : String)
  | function (name : String)
  | number (value : Float)
  | operator (op : CompareOp)
  | keyword (word : Keyword)
  | leftParen
  | rightParen
  | comma
  | colon
  | stop

namespace Token

def describe : Token → String
  | identifier name => "'" ++ name ++ "'"
  | function name => "'" ++ name ++ "'"
  | number value => "'" ++ shortestText value ++ "'"
  | operator op => "'" ++ op.symbol ++ "'"
  | .keyword word => "'" ++ word.spelling ++ "'"
  | leftParen => "'('"
  | rightParen => "')'"
  | comma => "','"
  | colon => "':'"
  | stop => "end of input"

end Token

/-- A token and the byte at which it starts. -/
structure Lexeme where
  token : Token
  position : Nat

end Backtest.Rule
