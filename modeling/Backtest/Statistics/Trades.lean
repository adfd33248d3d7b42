import Backtest.Statistics.Basic

namespace Backtest

structure RunningMean (α : Type) where
  count : Nat
  mean : α
deriving Repr

namespace RunningMean

variable {α : Type} [Arith α]

def empty : RunningMean α := ⟨0, 0⟩

def add (m : RunningMean α) (x : α) : RunningMean α :=
  ⟨m.count + 1, m.mean + (x - m.mean) / Arith.ofCount (m.count + 1)⟩

end RunningMean

/-- Wins and losses: their sums, and the mean sizes of the trades against the balance after them. -/
structure TradeTally (α : Type) where
  won : α
  lost : α
  wins : RunningMean α
  losses : RunningMean α
deriving Repr

namespace TradeTally

variable {α : Type} [Arith α]

def empty : TradeTally α := ⟨0, 0, .empty, .empty⟩

def relativeSize (t : Trade α) : α :=
  if t.balance == 0 then 0 else Arith.magnitude (t.profit / t.balance)

/-- Adds a trade; one that breaks even is neither won nor lost. -/
def add (y : TradeTally α) (t : Trade α) : TradeTally α :=
  if t.metricProfit == 0 then y
  else if t.metricProfit > 0 then
    { y with won := y.won + t.metricProfit, wins := y.wins.add (relativeSize t) }
  else
    { y with
      lost := y.lost + Arith.magnitude t.metricProfit
      losses := y.losses.add (relativeSize t) }

def ofTrades (trades : List (Trade α)) : TradeTally α := trades.foldl add empty

def profitFactor (y : TradeTally α) : α := if y.lost > 0 then y.won / y.lost else 0

/-- Share of wins among the trades that did not break even. -/
def winningPercent (y : TradeTally α) : α :=
  let decided := y.wins.count + y.losses.count
  if decided = 0 then 0 else Arith.ofCount y.wins.count / Arith.ofCount decided * 100.0

def riskReward (y : TradeTally α) : α :=
  if y.losses.mean > 0 then y.wins.mean / y.losses.mean else 0

end TradeTally

namespace Statistics

variable {α : Type} [Arith α]

/-- Held between zero and one; what is not finite counts as zero. -/
def unitRange (x : α) : α :=
  if Arith.isFinite x then if x < 0 then 0 else if x > 1 then 1 else x else 0

/-- How well a line through the first point fits the others, from zero to one. -/
def lineFit (xs ys : List α) : α :=
  let sumXX := Arith.total (xs.map fun x => x * x)
  if sumXX == 0 then 0
  else
    let slope := Arith.total (List.zipWith (· * ·) xs ys) / sumXX
    let mean := Arith.total ys / Arith.ofCount ys.length
    let residual := Arith.total (List.zipWith (fun x y => Arith.square (slope * x - y)) xs ys)
    let spread := Arith.total (ys.map fun y => Arith.square (y - mean))
    if spread == 0 then 0 else unitRange (1 - residual / spread)

/-- The line fit of the balance after each trade over time: of its logarithm, unless compounding is
off or a balance is not positive. Two trades are the least. -/
def straightness (s : Statistics α) : α :=
  if s.trades.size < 2 then 0
  else
    let start := s.startTime.getD s.endTime
    let balances := s.initialBalance :: s.trades.toList.map (·.balance)
    let xs := 0 :: s.trades.toList.map fun t => Arith.ofInt (t.time - start)
    let logarithmic := !s.options.disableCompounding && balances.all (0 < ·)
    let ys := if logarithmic then balances.map fun b => Arith.ln b - Arith.ln s.initialBalance
      else balances.map (· - s.initialBalance)
    lineFit xs ys

end Statistics
end Backtest
