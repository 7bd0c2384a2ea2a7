/-!
Binary64 numbers taken apart and put together in exact arithmetic on naturals. `parts` reads a
number as a sign, a mantissa and a power of two; `nearestBits` gives the bits of the number closest
to a quotient of naturals.
-/

namespace Backtest.Binary64

/-- A number taken apart. A finite one is `mantissa * 2 ^ exponent` under its sign. -/
inductive Parts
  | nan
  | infinite (negative : Bool)
  | finite (negative : Bool) (mantissa : Nat) (exponent : Int)
  deriving DecidableEq, Repr

/-- The bits of positive infinity, the largest of all non-negative numbers. -/
def infinityBits : Nat := 2047 * Nat.pow 2 52

def parts (x : Float) : Parts :=
  let bits := x.toBits.toNat
  let negative := bits / Nat.pow 2 63 == 1
  let biased : Nat := bits / Nat.pow 2 52 % 2048
  let fraction := bits % Nat.pow 2 52
  if biased = 2047 then
    if fraction = 0 then .infinite negative else .nan
  else if biased = 0 then .finite negative fraction (-1074)
  else .finite negative (Nat.pow 2 52 + fraction) ((biased : Int) - 1075)

/-- The natural closest to `num / den`; of two at the same distance, the even one. -/
def roundDiv (num den : Nat) : Nat :=
  let quotient := num / den
  let twice := 2 * (num % den)
  if twice < den then quotient
  else if den < twice then quotient + 1
  else quotient + quotient % 2

/-- The numerator and denominator of `num / den / 2 ^ exponent`. -/
def scaled (num den : Nat) (exponent : Int) : Nat × Nat :=
  (num * Nat.pow 2 (-exponent).toNat, den * Nat.pow 2 exponent.toNat)

/-- The power of two by which `num / den` is scaled before it is rounded: the least one that leaves
at most 53 bits, but never one below the spacing of the smallest numbers. -/
def spacing (num den : Nat) : Int :=
  let low : Int := max (-1074) (num.log2 - den.log2 - 53)
  let (n, d) := scaled num den low
  if Nat.pow 2 53 ≤ n / d then low + 1 else low

/-- The bits of the non-negative number closest to `num / den`, with a tie going to the even
mantissa and everything past the largest finite number to infinity. Bits grow with the number, so a
mantissa that rounds up to `2 ^ 53` lands on the next power of two by itself. -/
def nearestBits (num den : Nat) : Nat :=
  let exponent := spacing num den
  let (n, d) := scaled num den exponent
  min infinityBits ((exponent + 1074).toNat * Nat.pow 2 52 + roundDiv n d)

def ofSignBits (negative : Bool) (bits : Nat) : Float :=
  Float.ofBits (UInt64.ofNat (if negative then Nat.pow 2 63 + bits else bits))

end Backtest.Binary64
