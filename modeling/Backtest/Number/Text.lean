import Backtest.Number.Decimal

namespace Backtest

namespace Decimal

/-- Digits with a point before the last `places` of them, after as many leading zeros as that
takes. -/
def withPoint (places : Nat) (digits : List Char) : List Char :=
  if places = 0 then digits
  else
    let padded := List.replicate (places + 1 - digits.length) '0' ++ digits
    padded.take (padded.length - places) ++ '.' :: padded.drop (padded.length - places)

/-- Positional notation: no exponent, however large or small the value. -/
def positional (d : Decimal) : List Char :=
  let zeros := List.replicate d.exponent.toNat '0'
  let text := withPoint (-d.exponent).toNat (Nat.toDigits 10 d.digits ++ zeros)
  if d.negative then '-' :: text else text

def ofBinary (mantissa : Nat) (exponent : Int) : Decimal where
  digits := mantissa * Nat.pow 2 exponent.toNat * Nat.pow 5 (-exponent).toNat
  exponent := min 0 exponent

/-- The two decimals of `count` significant digits around `num / den`, whose leading digit stands
just below `10 ^ magnitude`. The nearer one comes first; at the same distance, the upper one. -/
def neighbours (num den : Nat) (magnitude : Int) (count : Nat) : List Decimal :=
  let unit := magnitude - count
  let n := num * Nat.pow 10 (-unit).toNat
  let d := den * Nat.pow 10 unit.toNat
  let lower : Decimal := { digits := n / d, exponent := unit }
  let upper : Decimal :=
    if n / d + 1 = Nat.pow 10 count then { digits := 1, exponent := magnitude }
    else { digits := n / d + 1, exponent := unit }
  if 2 * (n % d) < d then [lower, upper] else [upper, lower]

/-- The least power of ten above the positive number `num / den`, which must not lie below
`10 ^ (-330)`. -/
def magnitude (num den : Nat) : Int :=
  (Nat.toDigits 10 (num * Nat.pow 10 330 / den)).length - 330

/-- The shortest decimal that reads back as `mantissa * 2 ^ exponent`, and of several of that
length the nearest. Seventeen digits always suffice; the exact value stands in where they would
not. -/
def shortest (mantissa : Nat) (exponent : Int) : Decimal :=
  if mantissa = 0 then { digits := 0, exponent := 0 }
  else
    let num := mantissa * Nat.pow 2 exponent.toNat
    let den := Nat.pow 2 (-exponent).toNat
    let bits := Binary64.nearestBits num den
    let size := magnitude num den
    let found := (List.range 17).findSome? fun i =>
      (neighbours num den size (i + 1)).find? fun d => d.magnitudeBits = bits
    found.getD (ofBinary mantissa exponent)

end Decimal

/-- The shortest text that reads back as the number: positional, with a sign for a negative zero
and none for NaN. -/
def shortestText (x : Float) : String :=
  match Binary64.parts x with
  | .nan => "NaN"
  | .infinite negative => if negative then "-inf" else "inf"
  | .finite negative mantissa exponent =>
    String.ofList { Decimal.shortest mantissa exponent with negative }.positional

/-- The number with `places` digits after the point, the exact value rounded with ties to even. The
sign of a number that rounds to zero stays. -/
def fixedText (places : Nat) (x : Float) : String :=
  match Binary64.parts x with
  | .nan => "NaN"
  | .infinite negative => if negative then "-inf" else "inf"
  | .finite negative mantissa exponent =>
    let digits := Binary64.roundDiv (mantissa * Nat.pow 2 exponent.toNat * Nat.pow 10 places)
      (Nat.pow 2 (-exponent).toNat)
    let text := String.ofList (Decimal.withPoint places (Nat.toDigits 10 digits))
    if negative then "-" ++ text else text

/-- As `fixedText`, with a plus before a number that has no minus. -/
def signedFixedText (places : Nat) (x : Float) : String :=
  match Binary64.parts x with
  | .nan => "NaN"
  | .infinite false | .finite false _ _ => "+" ++ fixedText places x
  | _ => fixedText places x

end Backtest
