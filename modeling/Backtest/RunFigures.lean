import Backtest.Arith
import Backtest.Goal
import Backtest.Order

namespace Backtest

structure RunFigures (α : Type) where
  symbol : String
  counters : TradeCounts
  initialBalance : α
  finalBalance : α
  /-- Largest decline from a peak, in money. -/
  drawdownDepth : α
  /-- Largest decline in percent of its peak, or of the initial balance without compounding. -/
  drawdownPercent : α
  /-- Longest time below a peak, in seconds. -/
  drawdownLength : Int
  profitFactor : α
  r2 : α
  ulcerIndex : α
  sharpe : α
  /-- Growth in percent a year. -/
  growth : α
  growthToDrawdown : α
  growthToUlcer : α
  winningPercent : α
  riskReward : α
  /-- Mean holding time in seconds. -/
  meanHolding : α
  years : α
  barsProcessed : Nat
  /-- What ended the run early. -/
  failure : Option String
deriving Repr

namespace RunFigures

variable {α : Type} [Arith α]

def blank : RunFigures α where
  symbol := ""
  counters := .zero
  initialBalance := 0
  finalBalance := 0
  drawdownDepth := 0
  drawdownPercent := 0
  drawdownLength := 0
  profitFactor := 0
  r2 := 0
  ulcerIndex := 0
  sharpe := 0
  growth := 0
  growthToDrawdown := 0
  growthToUlcer := 0
  winningPercent := 0
  riskReward := 0
  meanHolding := 0
  years := 0
  barsProcessed := 0
  failure := none

def yearlyTrades (r : RunFigures α) : α :=
  if r.years > 0 then Arith.ofCount r.counters.total / r.years else 0

def goalFigure (r : RunFigures α) : Goal → α
  | .profit => r.finalBalance - r.initialBalance
  | .maxDrawdown => r.drawdownPercent
  | .drawdownLength => Arith.ofInt r.drawdownLength
  | .profitFactor => r.profitFactor
  | .r2 => r.r2
  | .ulcerIndex => r.ulcerIndex
  | .sharpe => r.sharpe
  | .growthToDrawdown => r.growthToDrawdown
  | .growth => r.growth

end RunFigures
end Backtest
