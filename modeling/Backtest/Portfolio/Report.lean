import Backtest.Portfolio.Basic
import Backtest.Report.Trades

namespace Backtest

structure InstanceSummary (α : Type) where
  instanceId : Int
  symbol : String
  result : RunFigures α
  curve : List (CurvePoint α)
  trades : List (TradeRow α)
deriving Repr

structure PortfolioSummary (α : Type) where
  combined : RunFigures α
  curve : List (CurvePoint α)
  instances : List (InstanceSummary α)
deriving Repr

def PortfolioSummary.failed {α : Type} (p : PortfolioSummary α) : List Int :=
  (p.instances.filter (·.result.failure.isSome)).map (·.instanceId)

variable {α σ : Type} [Arith α]

def InstanceRun.report (c : RunScope α) (r : InstanceRun α σ) : InstanceSummary α :=
  let result := r.result
  { instanceId := r.instanceId
    symbol := result.symbol
    result := result
    curve := r.statistics.curve
    trades := TradeRow.ofOrders result.symbol c.initialBalance r.book.closedOrders.toList }

namespace Portfolio

def counters (p : Portfolio α σ) : TradeCounts :=
  p.runs.foldl (fun sum r => sum.sum r.book.counters) .zero

def meanHolding (p : Portfolio α σ) : α :=
  let held := Arith.total (p.runs.map fun r =>
    r.book.meanHolding * Arith.ofCount r.book.closedOrders.size)
  let closed := p.runs.foldr (fun r n => r.book.closedOrders.size + n) 0
  if closed = 0 then 0 else held / Arith.ofCount closed

def failure? (p : Portfolio α σ) : Option String :=
  let failures := p.runs.filterMap fun r =>
    r.failure.map fun text => toString r.instanceId ++ ": " ++ text
  if failures.isEmpty then none else some ("; ".intercalate failures)

def result (p : Portfolio α σ) : RunFigures α :=
  let symbols := ",".intercalate (p.runs.map (·.rates.symbol))
  let bars := (p.runs.map (·.barsProcessed)).foldl max 0
  { p.combined.result symbols p.counters p.meanHolding bars with failure := p.failure? }

def report (c : RunScope α) (p : Portfolio α σ) : PortfolioSummary α where
  combined := p.result
  curve := p.combined.curve
  instances := p.runs.map (·.report c)

end Portfolio
end Backtest
