import Backtest.Number.Binary64

namespace Backtest

/-- The value `digits * 10 ^ exponent` under its sign. -/
structure Decimal where
  negative : Bool := false
  digits : Nat
  exponent : Int
  deriving DecidableEq, Repr

namespace Decimal

/-- The bits of the magnitude, correctly rounded. Magnitudes from `10 ^ 400` on are infinite and
those below `10 ^ (-399)` are zero, so no power of ten larger than the text calls for is built. -/
def magnitudeBits (d : Decimal) : Nat :=
  if d.digits = 0 then 0
  else if 400 < d.exponent then Binary64.infinityBits
  else if d.exponent < -400 - d.digits.log2 then 0
  else Binary64.nearestBits (d.digits * Nat.pow 10 d.exponent.toNat)
    (Nat.pow 10 (-d.exponent).toNat)

def toFloat (d : Decimal) : Float :=
  Binary64.ofSignBits d.negative d.magnitudeBits

def digitValue (c : Char) : Nat := c.toNat - '0'.toNat

def valueOf (digits : List Char) : Nat :=
  digits.foldl (fun value c => 10 * value + digitValue c) 0

/-- The decimal written as the digits `whole`, a point and the digits `fraction`. -/
def ofDigits (whole fraction : List Char) : Decimal where
  digits := valueOf (whole ++ fraction)
  exponent := -(fraction.length : Int)

end Decimal

inductive NumeralError
  | empty
  | malformed
  deriving DecidableEq, Repr

namespace NumeralError

def message : NumeralError → String
  | empty => "cannot parse float from empty string"
  | malformed => "invalid float literal"

end NumeralError

namespace Decimal

/-- Splits a leading sign off; true for a minus. -/
def splitSign : List Char → Bool × List Char
  | '-' :: rest => (true, rest)
  | '+' :: rest => (false, rest)
  | rest => (false, rest)

/-- The power of ten that a text after the digits gives: none at all, or `e`, an optional sign and
at least one digit. -/
def exponentOf? : List Char → Option Int
  | [] => some 0
  | c :: rest =>
    let (negative, digits) := splitSign rest
    if (c = 'e' ∨ c = 'E') ∧ digits ≠ [] ∧ digits.all Char.isDigit then
      some (if negative then -(valueOf digits : Int) else valueOf digits)
    else none

/-- The value of digits with an optional point among or beside them and an optional exponent. -/
def ofUnsigned? (negative : Bool) (text : List Char) : Option Decimal :=
  let whole := text.takeWhile Char.isDigit
  let (fraction, rest) :=
    match text.dropWhile Char.isDigit with
    | '.' :: rest => (rest.takeWhile Char.isDigit, rest.dropWhile Char.isDigit)
    | rest => ([], rest)
  if whole = [] ∧ fraction = [] then none
  else (exponentOf? rest).map fun power =>
    let unscaled := ofDigits whole fraction
    { negative, digits := unscaled.digits, exponent := unscaled.exponent + power }

end Decimal

/-- Reads a field as a number: decimal notation, or `inf`, `infinity` or `nan` in any case, under
an optional sign. -/
def readNumeral (text : List Char) : Except NumeralError Float :=
  if text = [] then .error .empty
  else
    let (negative, unsigned) := Decimal.splitSign text
    match String.ofList (unsigned.map Char.toLower) with
    | "nan" => .ok (0.0 / 0.0)
    | "inf" | "infinity" => .ok (Binary64.ofSignBits negative Binary64.infinityBits)
    | _ =>
      match Decimal.ofUnsigned? negative unsigned with
      | some d => .ok d.toFloat
      | none => .error .malformed

end Backtest
