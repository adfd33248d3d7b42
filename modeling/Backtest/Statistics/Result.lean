import Backtest.Statistics.Trades
import Backtest.Statistics.Weekly
import Backtest.RunFigures

namespace Backtest
namespace Statistics

variable {α : Type} [Arith α]

def secondsPerYear : α := 31557600.0

def years (s : Statistics α) : α :=
  Arith.ofInt (max (s.endTime - s.startTime.getD s.endTime) 0) / secondsPerYear

/-- Growth in percent a year; all is lost at a balance that is not positive. -/
def growth (s : Statistics α) : α :=
  if s.years ≤ 0 then 0
  else if s.balance ≤ 0 then -100.0
  else 100.0 * (Arith.pow (s.balance / s.initialBalance) (1 / s.years) - 1)

def result (s : Statistics α) (symbol : String) (counters : TradeCounts) (meanHolding : α)
    (barsProcessed : Nat) : RunFigures α :=
  let tally := TradeTally.ofTrades s.trades.toList
  let growth := s.growth
  let ulcer := s.ulcerIndex
  { symbol := symbol
    counters := counters
    initialBalance := s.initialBalance
    finalBalance := s.balance
    drawdownDepth := s.drawdown.depth
    drawdownPercent := s.drawdown.percent
    drawdownLength := s.drawdown.longest s.balance s.endTime
    profitFactor := tally.profitFactor
    r2 := s.straightness
    ulcerIndex := ulcer
    sharpe := s.sharpe
    growth := growth
    growthToDrawdown := if s.drawdown.percent > 0 then growth / s.drawdown.percent else 0
    growthToUlcer := if ulcer > 0 then growth / ulcer else 0
    winningPercent := tally.winningPercent
    riskReward := tally.riskReward
    meanHolding := meanHolding
    years := s.years
    barsProcessed := barsProcessed
    failure := none }

end Statistics
end Backtest
