import Backtest.Frame
import Backtest.Report

/-!
One position at a time through the bars of a frame. While none is held, an entry signal opens one at
the close of its bar; while one is held, an exit signal closes it. Nothing is opened on the last
bar, and what is still held there is closed by force.
-/

namespace Backtest

variable {α : Type} [Scalar α]

/-- The trades that exit signals close from a bar on and the position that is held after the bars,
given the one held before them and what is left of the signals. A signal that has run out does not
hold, and no position is opened on the bar with the last index. -/
def tradesFrom (last : Nat) (held : Option (Position α)) (index : Nat) :
    List (Date × α) → List Bool → List Bool → List (Trade α) × Option (Position α)
  | [], _, _ => ([], held)
  | (date, price) :: rest, entry, exit =>
    match held with
    | some position =>
      if exit.headD false then
        let (closed, left) := tradesFrom last none (index + 1) rest entry.tail exit.tail
        (position.close index date price false :: closed, left)
      else tradesFrom last held (index + 1) rest entry.tail exit.tail
    | none =>
      if entry.headD false && index < last then
        tradesFrom last (some ⟨index, date, price⟩) (index + 1) rest entry.tail exit.tail
      else tradesFrom last none (index + 1) rest entry.tail exit.tail

namespace Frame

/-- The sale of a position at the close of the last bar. -/
def forcedSale (frame : Frame α) (position : Position α) : Option (Trade α) := do
  let (date, price) ← (frame.dates.zip frame.close).getLast?
  return position.close (frame.size - 1) date price true

def report (frame : Frame α) (entry exit : List Bool) : Report α :=
  let bars := frame.dates.zip frame.close
  let (closed, held) := tradesFrom (frame.size - 1) none 0 bars entry exit
  Report.ofTrades (closed ++ (held.bind frame.forcedSale).toList) held.isSome

end Frame

end Backtest
