namespace Backtest

def isLeapYear (year : Int) : Bool :=
  year % 4 == 0 && (year % 100 != 0 || year % 400 == 0)

def daysInMonth (year : Int) (month : Nat) : Nat :=
  if month = 2 then (if isLeapYear year then 29 else 28)
  else if month = 4 ∨ month = 6 ∨ month = 9 ∨ month = 11 then 30
  else 31

/-- Whether the calendar has the day; it runs from the year -262143 to the year 262142. -/
def IsDate (year : Int) (month day : Nat) : Prop :=
  (-262143 ≤ year ∧ year ≤ 262142) ∧ (1 ≤ month ∧ month ≤ 12) ∧
    (1 ≤ day ∧ day ≤ daysInMonth year month)

instance (year : Int) (month day : Nat) : Decidable (IsDate year month day) :=
  inferInstanceAs (Decidable (_ ∧ _))

structure Date where
  year : Int
  month : Nat
  day : Nat
  isDate : IsDate year month day
  deriving DecidableEq

namespace Date

def of? (year : Int) (month day : Nat) : Option Date :=
  if h : IsDate year month day then some ⟨year, month, day, h⟩ else none

/-- A number that grows with the date: months are counted as if each had 31 days. -/
def rank (d : Date) : Int := d.year * 372 + d.month * 31 + d.day

instance : LT Date := ⟨fun a b => a.rank < b.rank⟩

instance : LE Date := ⟨fun a b => a.rank ≤ b.rank⟩

instance (a b : Date) : Decidable (a < b) := inferInstanceAs (Decidable (a.rank < b.rank))

instance (a b : Date) : Decidable (a ≤ b) := inferInstanceAs (Decidable (a.rank ≤ b.rank))

/-- The day after, unless the calendar ends. -/
def next? (d : Date) : Option Date :=
  of? d.year d.month (d.day + 1) <|> of? d.year (d.month + 1) 1 <|> of? (d.year + 1) 1 1

/-- `count` days in a row from a first one, as far as the calendar goes. -/
def daily (first : Date) : Nat → List Date
  | 0 => []
  | count + 1 =>
    first :: match first.next? with
      | some next => daily next count
      | none => []

end Date

/-- The digits of a number after as many zeros as it takes to reach a width. -/
def padded (width n : Nat) : String :=
  let digits := Nat.toDigits 10 n
  String.ofList (List.replicate (width - digits.length) '0' ++ digits)

namespace Date

/-- Year, month and day with hyphens between them. A year of more than four digits, or before the
year 0, has a sign. -/
def toText (d : Date) : String :=
  let year := padded 4 d.year.natAbs
  let sign := if d.year < 0 then "-" else if 9999 < d.year then "+" else ""
  sign ++ year ++ "-" ++ padded 2 d.month ++ "-" ++ padded 2 d.day

instance : ToString Date := ⟨toText⟩

end Date

end Backtest
