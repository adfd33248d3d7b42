import Backtest.Arith
import Backtest.Order

namespace Backtest

structure StatisticsOptions where
  /-- Measure returns and drawdowns against the initial balance. -/
  disableCompounding : Bool
  /-- Count swap and commission in the trade figures. -/
  includeCosts : Bool
deriving Repr, DecidableEq

def StatisticsOptions.standard : StatisticsOptions := ⟨false, true⟩

structure CurvePoint (α : Type) where
  time : Int
  balance : α
deriving Repr

/-- A closed trade with the balances after it. The metric profit is the one that trade figures use. -/
structure Trade (α : Type) where
  time : Int
  profit : α
  metricProfit : α
  balance : α
  metricBalance : α
deriving Repr

/-- The running drawdown: the last peak, since when the balance is below it, and the worst so far. -/
structure Drawdown (α : Type) where
  peak : α
  since : Int
  isOpen : Bool
  depth : α
  percent : α
  length : Int
deriving Repr

namespace Drawdown

variable {α : Type} [Arith α]

def start (balance : α) : Drawdown α := ⟨balance, 0, false, 0, 0, 0⟩

/-- Takes in the balance after a trade; `fixedBase` is what percentages refer to, if not the peak. A
balance that reaches the peak ends an open drawdown and is the new peak. -/
def note (d : Drawdown α) (fixedBase : Option α) (time : Int) (balance : α) : Drawdown α :=
  if balance < d.peak then
    let depth := d.peak - balance
    let base := fixedBase.getD d.peak
    let percent := if base > 0 then Arith.smaller (depth / base * 100.0) 100.0 else 100.0
    { d with
      isOpen := true
      depth := Arith.larger d.depth depth
      percent := Arith.larger d.percent percent
      length := max d.length (time - d.since) }
  else
    { d with
      peak := balance
      since := time
      isOpen := false
      length := if d.isOpen then max d.length (time - d.since) else d.length }

/-- The longest stretch below a peak, one that is still open at the end included. -/
def longest (d : Drawdown α) (balance : α) (endTime : Int) : Int :=
  if balance < d.peak then max d.length (endTime - d.since) else d.length

end Drawdown

structure Statistics (α : Type) where
  initialBalance : α
  options : StatisticsOptions
  startTime : Option Int
  /-- The largest time noted, and at least zero. -/
  endTime : Int
  balance : α
  metricBalance : α
  trades : Array (Trade α)
  drawdown : Drawdown α
deriving Repr

namespace Statistics

variable {α : Type} [Arith α]

def start (balance : α) (options : StatisticsOptions) : Statistics α :=
  ⟨balance, options, none, 0, balance, balance, #[], .start balance⟩

/-- Notes simulated time; the first one begins the curve. -/
def noteTime (s : Statistics α) (time : Int) : Statistics α :=
  let s := { s with endTime := max s.endTime time }
  if s.startTime.isNone then
    { s with startTime := some time, drawdown := { s.drawdown with since := time } }
  else s

def addClose (s : Statistics α) (time : Int) (profit gross : α) : Statistics α :=
  let s := s.noteTime time
  let balance := s.balance + profit
  let metricProfit := if s.options.includeCosts then profit else gross
  let metricBalance := s.metricBalance + metricProfit
  let fixedBase := if s.options.disableCompounding then some s.initialBalance else none
  { s with
    balance := balance
    metricBalance := metricBalance
    trades := s.trades.push ⟨time, profit, metricProfit, balance, metricBalance⟩
    drawdown := s.drawdown.note fixedBase time balance }

def addEvents (s : Statistics α) (events : List (TradeEvent α)) : Statistics α :=
  (events.filter (·.event.isClose)).foldl (fun s e => s.addClose e.time e.profit e.priceProfit) s

/-- The start, a point for each trade, and the end; empty before any time is known. -/
def curve (s : Statistics α) : List (CurvePoint α) :=
  match s.startTime with
  | none => []
  | some start =>
    ⟨start, s.initialBalance⟩ :: s.trades.toList.map (fun t => ⟨t.time, t.balance⟩) ++
      [⟨s.endTime, s.balance⟩]

end Statistics
end Backtest
