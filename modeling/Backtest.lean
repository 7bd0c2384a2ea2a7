import Backtest.Files.Tree
import Backtest.Main
import Backtest.Proofs.SignalShape
import Backtest.Proofs.TradingLoop
import Backtest.Proofs.SignalCausality
import Backtest.Proofs.Replay
import Backtest.Proofs.Grammar
import Backtest.Proofs.ViablePrefix
import Backtest.Proofs.DerivationRun
import Backtest.Proofs.ViableProgram
import Backtest.Proofs.ParserGrammar
import Backtest.Proofs.Spelling
import Backtest.Proofs.Viability
import Backtest.Proofs.WrittenRule
import Backtest.Proofs.ErrorPosition
import Backtest.Proofs.NumberText
import Backtest.Proofs.FullText
import Backtest.Proofs.TreeText
import Backtest.Proofs.Period
import Backtest.Proofs.TypeSystem
import Backtest.Proofs.RuleText
import Backtest.Proofs.BarMeaning
import Backtest.Proofs.IndicatorMeaning
import Backtest.Proofs.SignalMeaning
import Backtest.Proofs.MissingColumn
import Backtest.Proofs.FrameColumns
import Backtest.Proofs.PriceTable
import Backtest.Proofs.PriceReading
import Backtest.Proofs.PriceLoading
import Backtest.Proofs.Checked.Access
import Backtest.Proofs.Checked.Scan
import Backtest.Proofs.Checked.Parse
import Backtest.Proofs.Checked.Typing
import Backtest.Proofs.Checked.Evaluation
import Backtest.Proofs.Checked.Trading
import Backtest.Proofs.Checked.Strategy
import Backtest.Proofs.LetterCase
import Backtest.Proofs.NameCase
import Backtest.Proofs.ExactArithmetic
import Backtest.Proofs.ExactReturns
import Backtest.Proofs.FileChanges
import Backtest.Proofs.ScriptRun
import Backtest.Proofs.ValidSettings
import Backtest.Proofs.BacktestCommand
import Backtest.Proofs.FloatOrder
import Backtest.Proofs.ReportParts
import Backtest.Proofs.RecordText
import Backtest.Proofs.NumeralReading
import Backtest.Proofs.DateReading
import Backtest.Proofs.WrittenReport
import Backtest.Proofs.FileNames
import Backtest.Proofs.WrittenFiles
import Backtest.Proofs.LongestToken
import Backtest.Proofs.Tiling
import Backtest.Proofs.SeriesGap
import Backtest.Proofs.WarmUp
import Backtest.Proofs.FaultPlace
import Backtest.Proofs.TreeViews
import Backtest.Proofs.BlankedComments
import Backtest.Proofs.CrossingEdges
import Backtest.Proofs.LooserSignals
import Backtest.Proofs.ExactSeries
import Backtest.Proofs.ExactStrength
import Backtest.Proofs.ExactAverages
import Backtest.Proofs.LargestFall
import Backtest.Proofs.Checked.Caret
import Backtest.Proofs.ErrorContext
import Backtest.Proofs.FrameRefusal
