import Backtest.Csv.Table
import Backtest.Files
import Backtest.Files.Path
import Backtest.Number.Text
import Backtest.Strategy

namespace Backtest

def boolText (b : Bool) : String := if b then "true" else "false"

namespace Trade

def fields (trade : Trade Float) : List String :=
  [trade.entryDate.toText, toString trade.entryIndex, shortestText trade.entryPrice,
    trade.exitDate.toText, toString trade.exitIndex, shortestText trade.exitPrice,
    shortestText trade.profit, shortestText trade.gain, toString trade.barsHeld,
    boolText trade.forced]

/-- The line of a trade in the summary, with its gain in percent. -/
def summaryLine (trade : Trade Float) : String :=
  "  " ++ trade.entryDate.toText ++ " @ " ++ fixedText 4 trade.entryPrice ++ " -> " ++
    trade.exitDate.toText ++ " @ " ++ fixedText 4 trade.exitPrice ++ "  " ++
    signedFixedText 2 (trade.gain * 100) ++ "%" ++
    (if trade.forced then " (end of data)" else "") ++ "\n"

end Trade

namespace Report

def tradesHeader : List String :=
  ["entry_date", "entry_index", "entry_price", "exit_date", "exit_index", "exit_price", "pnl",
    "return", "bars_held", "forced_exit"]

def tradesTable (report : Report Float) : String :=
  Csv.tableText (tradesHeader :: report.trades.map Trade.fields)

def figuresTable (report : Report Float) (name : String) : String :=
  let figures := report.figures
  Csv.tableText
    [["metric", "value"],
      ["strategy", name],
      ["total_trades", toString figures.total],
      ["trades_won", toString figures.won],
      ["trades_lost", toString figures.lost],
      ["trades_breakeven", toString figures.even],
      ["win_rate", shortestText figures.winRate],
      ["total_pnl", shortestText report.totalProfit],
      ["total_return", shortestText report.totalReturn],
      ["max_drawdown", shortestText report.maxDrawdown],
      ["avg_return", shortestText figures.meanGain],
      ["largest_win", shortestText figures.largestWin],
      ["largest_loss", shortestText figures.largestLoss],
      ["avg_bars_held", shortestText figures.meanBarsHeld],
      ["closed_at_end", boolText report.closedAtEnd]]

def summary (report : Report Float) : String :=
  "=== Results ===\n" ++
    "Total Return:     " ++ fixedText 2 (report.totalReturn * 100) ++ "%\n" ++
    "Total PnL:        " ++ fixedText 4 report.totalProfit ++ "\n" ++
    "Max Drawdown:     -" ++ fixedText 1 (report.maxDrawdown * 100) ++ "%\n" ++
    "Total Trades:     " ++ toString report.figures.total ++ "\n" ++
    "Win Rate:         " ++ fixedText 1 (report.figures.winRate * 100) ++ "%\n" ++
    (if report.closedAtEnd then "Last position closed at end of data\n" else "") ++
    (if report.trades.isEmpty then ""
      else "\n=== Trades ===\n" ++ String.join (report.trades.map Trade.summaryLine))

def tradesFile : String := "trades.csv"

def figuresFile : String := "summary.csv"

/-- Writes the tables of a report into a directory, which is made if it is missing. -/
def write {m : Type → Type} [Monad m] [Files m] (report : Report Float) (name directory : String) :
    ExceptT FileError m Unit := do
  ExceptT.mk (Files.createDirectories directory)
  ExceptT.mk (Files.writeText (Path.join directory tradesFile) report.tradesTable)
  ExceptT.mk (Files.writeText (Path.join directory figuresFile) (report.figuresTable name))

end Report

end Backtest
