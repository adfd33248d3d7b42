import Backtest.Engine.Host
import Backtest.Market.View
import Backtest.OrderBook.Actions
import Backtest.OrderBook.Settlement
import Backtest.OrderBook.Valuation
import Backtest.RunScope
import Backtest.Statistics.Result

namespace Backtest

/-- Everything that one instance needs to run. -/
structure InstancePlan (α σ : Type) where
  instanceId : Int
  engine : Engine α σ
  engineConfig : String
  settings : SlotVector α
  account : Account α
  rates : MarketView α

inductive RunState where
  | notStarted | running | finished | aborted
deriving Repr, DecidableEq

structure InstanceRun (α σ : Type) where
  plan : InstancePlan α σ
  /-- The rates as far as the run has come. -/
  rates : MarketView α
  book : OrderBook α
  statistics : Statistics α
  state : RunState
  /-- Index of the next bar. -/
  cursor : Nat
  barsProcessed : Nat
  engineCalls : Nat
  /-- Events of the last step. -/
  stepEvents : List (TradeEvent α)
  failure : Option String

namespace InstanceRun

variable {α σ : Type}

def instanceId (r : InstanceRun α σ) : Int := r.plan.instanceId

/-- The history of the traded symbol, bar by bar of which the run proceeds. -/
def primary (r : InstanceRun α σ) : Series α := r.plan.rates.primary

def isRunning (r : InstanceRun α σ) : Bool := r.state = .running

def nextTime? (r : InstanceRun α σ) : Option Int := r.primary.timeAt? r.cursor

def barsLeft (r : InstanceRun α σ) : Nat := r.primary.size - r.cursor

def eventsFrom (r : InstanceRun α σ) (start : Nat) : List (TradeEvent α) :=
  r.book.events.toList.drop start

variable [Arith α]

def ofPlan (c : RunScope α) (s : InstancePlan α σ) : InstanceRun α σ where
  plan := s
  rates := s.rates
  book := .empty s.instanceId s.account c.initialBalance s.settings.orderLimit
  statistics := .start c.initialBalance c.statistics
  state := .notStarted
  cursor := 0
  barsProcessed := 0
  engineCalls := 0
  stepEvents := []
  failure := none

def result (r : InstanceRun α σ) : RunFigures α :=
  { r.statistics.result r.rates.symbol r.book.counters r.book.meanHolding r.barsProcessed with
    failure := r.failure }

/-- Ends a run on a fault. A fault that reaches beyond the instance is handed on. -/
def abort (r : InstanceRun α σ) (f : Fault α) : InstanceRun α σ × Option (Fault α) :=
  ({ r with state := .aborted, failure := some f.message }, if f.isFatal then some f else none)

/-- The market as an instance deals in it on a bar: at the bar's opening, and with the bar before as the
last one that is closed. -/
def quote (r : InstanceRun α σ) (bar : Bar α) : Quote α where
  time := bar.time
  bid := bar.openPrice
  ask := bar.openPrice + r.plan.account.spread
  conversion := r.rates.termFactor bar.time bar.openPrice
  lastBar := if r.cursor = 0 then none else r.primary.bar? (r.cursor - 1)

def snapshot (c : RunScope α) (r : InstanceRun α σ) (q : Quote α) (bar : Bar α) : Snapshot α where
  instanceId := r.instanceId
  barIndex := r.cursor
  time := q.time
  settings := r.plan.settings
  symbol := r.rates.symbol
  accountCurrency := c.accountCurrency
  broker := c.broker
  referenceBroker := c.referenceBroker
  account :=
    { number := r.instanceId
      balance := r.book.balance
      equity := r.book.equity q
      margin := r.book.margin
      leverage := r.book.account.leverage
      contractSize := r.book.account.contractSize
      minimumStop := r.book.account.minimumStop
      stopOutPercent := r.book.account.stopOutPercent }
  market :=
    { bid := q.bid
      ask := q.ask
      baseFactor := r.rates.baseFactor q.time bar.openPrice
      termFactor := q.conversion }
  orders := r.book.openOrders
  buffers := r.rates.buffers.map fun b => ⟨b.info, b.view⟩

end InstanceRun
end Backtest
