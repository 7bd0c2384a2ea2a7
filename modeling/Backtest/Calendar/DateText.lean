import Backtest.Calendar.Date
import Backtest.Number.Decimal
import Backtest.Text.Blank

namespace Backtest

inductive DateError
  | endOfInput
  | unexpectedCharacter
  | outOfRange
  | trailingInput
  deriving DecidableEq, Repr

namespace DateError

def message : DateError → String
  | endOfInput => "premature end of input"
  | unexpectedCharacter => "input contains invalid characters"
  | outOfRange => "input is out of range"
  | trailingInput => "trailing input"

end DateError

namespace DateText

open Text (trimLeft)

/-- Reads the digits that a text starts with; at least one, and at most `most` where a bound is
given. -/
def readDigits (most : Option Nat) (text : List Char) : Except DateError (Nat × List Char) :=
  match text with
  | [] => .error .endOfInput
  | c :: _ =>
    if c.isDigit then
      let run := text.takeWhile Char.isDigit
      let digits := match most with
        | some bound => run.take bound
        | none => run
      .ok (Decimal.valueOf digits, text.drop digits.length)
    else .error .unexpectedCharacter

/-- Reads a year. One that does not fit 32 bits is refused at once, one outside the calendar only
when the date is put together. -/
def readYear (text : List Char) : Except DateError (Int × List Char) := do
  let (year, rest) ← match trimLeft text with
    | '-' :: rest => do
      let (n, rest) ← readDigits none rest
      pure (-(n : Int), rest)
    | '+' :: rest => do
      let (n, rest) ← readDigits none rest
      pure ((n : Int), rest)
    | rest => do
      let (n, rest) ← readDigits (some 4) rest
      pure ((n : Int), rest)
  if -2147483648 ≤ year ∧ year < 2147483648 then pure (year, rest) else throw .outOfRange

/-- Reads a month or a day, which lies between 1 and a bound. -/
def readPart (most : Nat) (text : List Char) : Except DateError (Nat × List Char) := do
  let (n, rest) ← readDigits (some 2) (trimLeft text)
  if 1 ≤ n ∧ n ≤ most then pure (n, rest) else throw .outOfRange

def readHyphen : List Char → Except DateError (List Char)
  | [] => .error .endOfInput
  | c :: rest => if c = '-' then .ok rest else .error .unexpectedCharacter

end DateText

open DateText in
def Date.read (text : List Char) : Except DateError Date := do
  let (year, rest) ← readYear text
  let rest ← readHyphen rest
  let (month, rest) ← readPart 12 rest
  let rest ← readHyphen rest
  let (day, rest) ← readPart 31 rest
  if rest ≠ [] then throw .trailingInput
  match Date.of? year month day with
  | some date => pure date
  | none => throw .outOfRange

end Backtest
