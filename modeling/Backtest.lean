import Backtest.Arith
import Backtest.Arith.Double
import Backtest.Binary64
import Backtest.Decimal.Shortest
import Backtest.Decimal.Notation
import Backtest.Decimal.Reader
import Backtest.Text.Blank
import Backtest.Calendar.Date
import Backtest.Calendar.Timestamp
import Backtest.Calendar.Pattern
import Backtest.EngineCode
import Backtest.ConfigFault
import Backtest.Fault
import Backtest.Slot
import Backtest.Bar
import Backtest.Account
import Backtest.Instruction
import Backtest.Order
import Backtest.OrderBook.Basic
import Backtest.OrderBook.Actions
import Backtest.OrderBook.Settlement
import Backtest.OrderBook.Valuation
import Backtest.Json.Basic
import Backtest.Json.Reader
import Backtest.Json.Record
import Backtest.Files.Tree
import Backtest.Text.Table
import Backtest.History.Reader
import Backtest.History.Resample
import Backtest.History.Alignment
import Backtest.Pair
import Backtest.Market.Buffer
import Backtest.Market.View
import Backtest.Market.Basic
import Backtest.Goal
import Backtest.RunFigures
import Backtest.Statistics.Basic
import Backtest.Statistics.Trades
import Backtest.Statistics.Weekly
import Backtest.Statistics.Result
import Backtest.Search.Parameter
import Backtest.Report.Trades
import Backtest.Report.Figures
import Backtest.Report.Evaluations
import Backtest.Random.ChaCha
import Backtest.Random.Draw
import Backtest.Search.Score
import Backtest.Search.Settings
import Backtest.StopPoint
import Backtest.Search.Sink
import Backtest.Search.Genetic.Breeding
import Backtest.Search.Genetic.Basic
import Backtest.Search.Basic
import Backtest.Search.WorkerId
import Backtest.Config.Basic
import Backtest.Config.Reader
import Backtest.Config.Writer
import Backtest.Config.Check
import Backtest.RunScope
import Backtest.Engine.Basic
import Backtest.Engine.Script
import Backtest.Engine.AverageCross
import Backtest.Engine.Host
import Backtest.Instance.Basic
import Backtest.Instance.Step
import Backtest.Instance.Candidate
import Backtest.Portfolio.Basic
import Backtest.Portfolio.Report
import Backtest.Tester.Basic
import Backtest.Tester.Run
import Backtest.Main
import Backtest.Proofs.Binary64.Value
import Backtest.Proofs.Binary64.Rounding
import Backtest.Proofs.Binary64.Operations
import Backtest.Proofs.Arith.Exact
import Backtest.Proofs.Binary64.Whole
import Backtest.Proofs.Binary64.Scale
import Backtest.Proofs.Arith.Order
import Backtest.Proofs.History.Front
import Backtest.Proofs.History.Spans
import Backtest.Proofs.History.Increasing
import Backtest.Proofs.History.Openings
import Backtest.Proofs.History.Coarse
import Backtest.Proofs.OrderBook.Change
import Backtest.Proofs.OrderBook.Operation
import Backtest.Proofs.OrderBook.Invariant
import Backtest.Proofs.OrderBook.Life
import Backtest.Proofs.OrderBook.Ledger
import Backtest.Proofs.OrderBook.Emission
import Backtest.Proofs.OrderBook.Faults
import Backtest.Proofs.Statistics.Feed
import Backtest.Proofs.Market.Reach
import Backtest.Proofs.Market.Twin
import Backtest.Proofs.Market.SameUntil
import Backtest.Proofs.Market.WarmUp
import Backtest.Proofs.Engine.Isolation
import Backtest.Proofs.Engine.Sessions
import Backtest.Proofs.Instance.Ledgers
import Backtest.Proofs.Instance.Twin
import Backtest.Proofs.Instance.LookAhead
import Backtest.Proofs.Instance.Bar
import Backtest.Proofs.Instance.WarmUp
import Backtest.Proofs.Instance.Progress
import Backtest.Proofs.Instance.Isolation
import Backtest.Proofs.Instance.Emission
import Backtest.Proofs.Instance.Hosting
import Backtest.Proofs.Portfolio.Passes
import Backtest.Proofs.Portfolio.Release
import Backtest.Proofs.Portfolio.Isolation
import Backtest.Proofs.Portfolio.Conservation
import Backtest.Proofs.Portfolio.Totals
import Backtest.Proofs.Search.Bank
import Backtest.Proofs.Search.Convergence
import Backtest.Proofs.Search.Ranking
import Backtest.Proofs.OrderBook.Lots
import Backtest.Proofs.OrderBook.Reflection
import Backtest.Proofs.OrderBook.Mirror
import Backtest.Proofs.Instance.Calls
import Backtest.Proofs.Instance.Exhaustion
import Backtest.Proofs.Instance.Schedule
import Backtest.Proofs.Binary64.Order
import Backtest.Proofs.OrderBook.Bare
import Backtest.Proofs.Engine.AverageCross
import Backtest.Proofs.Instance.Crossing
import Backtest.Proofs.Market.Window
import Backtest.Proofs.Portfolio.Single
import Backtest.Proofs.Random.Draw
import Backtest.Proofs.Search.Breeding
import Backtest.Proofs.Search.Course
import Backtest.Proofs.Search.Exploration
import Backtest.Proofs.Search.Elitism
import Backtest.Proofs.Search.Batch
import Backtest.Proofs.Search.Stopping
import Backtest.Proofs.Search.Faults
import Backtest.Proofs.Config.Accepted
import Backtest.Proofs.Config.Slots
import Backtest.Proofs.Market.Faults
import Backtest.Proofs.Instance.Faults
import Backtest.Proofs.Instance.Labels
import Backtest.Proofs.Portfolio.Asking
import Backtest.Proofs.Tester.Plans
import Backtest.Proofs.Tester.Slots
import Backtest.Proofs.Tester.Readiness
import Backtest.Proofs.History.Alignment
import Backtest.Proofs.Market.Operations
import Backtest.Proofs.Market.Loading
import Backtest.Proofs.Statistics.Costs
import Backtest.Proofs.Instance.SingleOrder
import Backtest.Proofs.OrderBook.Places
import Backtest.Proofs.OrderBook.Fates
import Backtest.Proofs.OrderBook.InPlace
import Backtest.Proofs.OrderBook.Liquidation
import Backtest.Proofs.Binary64.Line
import Backtest.Proofs.Arith.Line
import Backtest.Proofs.OrderBook.Stops
import Backtest.Proofs.Instance.Stops
import Backtest.Proofs.OrderBook.Swap
import Backtest.Proofs.Statistics.Span
import Backtest.Proofs.Statistics.Decline
import Backtest.Proofs.Statistics.Drawdown
import Backtest.Proofs.Statistics.Weeks
import Backtest.Proofs.Arith.Extremes
import Backtest.Proofs.History.Summary
import Backtest.Proofs.History.Nesting
import Backtest.Proofs.Search.Size
import Backtest.Proofs.Search.Grid
import Backtest.Proofs.Search.WorkerId
import Backtest.Proofs.Market.Pair
import Backtest.Proofs.Decimal.Digits
import Backtest.Proofs.Calendar.Date
import Backtest.Proofs.Calendar.Reading
import Backtest.Proofs.Calendar.Order
import Backtest.Proofs.Report.Chronology
import Backtest.Proofs.Statistics.Ratios
import Backtest.Proofs.Portfolio.Progress
