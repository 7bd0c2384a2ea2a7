import Backtest.PriceFile
import Backtest.Settings
import Backtest.Strategy

namespace Backtest

inductive Failure
  | file (error : FileError)
  | settings (error : SettingsError)
  | prices (error : PriceError)
  | rules (error : CompileError)
  | evaluation (error : FrameError)

namespace Failure

def message : Failure → String
  | file error => error.message
  | settings error => error.message
  | prices error => error.message
  | rules error => error.message
  | evaluation error => error.message

def exitStatus : Failure → Nat
  | file _ => 1
  | settings _ => 2
  | prices _ => 3
  | rules _ => 4
  | evaluation _ => 5

end Failure

end Backtest
