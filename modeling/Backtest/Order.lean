import Backtest.Bar
import Backtest.Instruction

namespace Backtest

/-- An order of one instance. Times are unix seconds; levels that are zero are not set. -/
structure Order (α : Type) where
  ticket : Int
  instanceId : Int
  kind : OrderKind
  openTime : Int
  closeTime : Int
  stopLoss : α
  takeProfit : α
  expiration : Int
  openPrice : α
  closePrice : α
  lots : α
  profit : α
  commission : α
  swap : α
  isOpen : Bool
deriving Repr

/-- The market on one bar: current prices, the factor from the pair's second currency to the account's,
and the last bar that is fully closed. -/
structure Quote (α : Type) where
  time : Int
  bid : α
  ask : α
  conversion : α
  lastBar : Option (Bar α)
deriving Repr

inductive EventKind where
  | opened | filled | modified | closed | stopLoss | takeProfit | cancelled
deriving Repr, DecidableEq

def EventKind.isClose : EventKind → Bool
  | .closed | .stopLoss | .takeProfit => true
  | _ => false

structure TradeEvent (α : Type) where
  time : Int
  instanceId : Int
  ticket : Int
  event : EventKind
  order : OrderKind
  price : α
  lots : α
  stopLoss : α
  takeProfit : α
  /-- Realized profit; zero unless the event closes the order. -/
  profit : α
  /-- The part of `profit` that price moved, before swap and commission. -/
  priceProfit : α
  balance : α
deriving Repr

/-- Trades counted when placed; a pending order that is cancelled is taken out again. -/
structure TradeCounts where
  total : Nat
  longs : Nat
  shorts : Nat
deriving Repr, DecidableEq

namespace TradeCounts

def zero : TradeCounts := ⟨0, 0, 0⟩

def add (c : TradeCounts) (buy : Bool) : TradeCounts :=
  if buy then ⟨c.total + 1, c.longs + 1, c.shorts⟩ else ⟨c.total + 1, c.longs, c.shorts + 1⟩

def remove (c : TradeCounts) (buy : Bool) : TradeCounts :=
  if buy then ⟨c.total - 1, c.longs - 1, c.shorts⟩ else ⟨c.total - 1, c.longs, c.shorts - 1⟩

def sum (c d : TradeCounts) : TradeCounts :=
  ⟨c.total + d.total, c.longs + d.longs, c.shorts + d.shorts⟩

end TradeCounts

namespace Order

variable {α : Type} [Arith α]

def toNumbers (o : Order α) : List α :=
  [Arith.ofInt o.ticket, Arith.ofInt o.instanceId, Arith.ofCount o.kind.code,
   Arith.ofInt o.openTime, Arith.ofInt o.closeTime, o.stopLoss, o.takeProfit,
   Arith.ofInt o.expiration, o.openPrice, o.closePrice, o.lots, o.profit, o.commission, o.swap,
   if o.isOpen then 1 else 0]

def isReached (o : Order α) (bar : Bar α) : Bool :=
  match o.kind with
  | .buyLimit | .sellStop => bar.low < o.openPrice
  | .buyStop | .sellLimit => bar.high > o.openPrice
  | .buy | .sell => false

def isExpired (o : Order α) (time : Int) : Bool := 0 < o.expiration && o.expiration ≤ time

/-- The level at which the last bar or the current price ends a market order, if one does. A stop that
only the current price has passed is dealt at that price. -/
def exitPrice? (o : Order α) (bar : Bar α) (q : Quote α) : Option α :=
  let spread := Arith.larger (q.ask - q.bid) 0
  match o.kind with
  | .buy =>
    if o.stopLoss > 0 && (o.stopLoss ≥ bar.low || o.stopLoss ≥ q.bid) then
      some (if o.stopLoss ≥ q.bid && o.stopLoss < bar.low then q.bid else o.stopLoss)
    else if o.takeProfit > 0 && (o.takeProfit ≤ bar.high || o.takeProfit ≤ q.bid) then
      some o.takeProfit
    else none
  | .sell =>
    if o.stopLoss > 0 && (o.stopLoss ≤ bar.high + spread || o.stopLoss ≤ q.ask) then
      some (if o.stopLoss ≤ q.ask && o.stopLoss > bar.high + spread then q.ask else o.stopLoss)
    else if o.takeProfit > 0 && (o.takeProfit ≥ bar.low + spread || o.takeProfit ≥ q.ask) then
      some o.takeProfit
    else none
  | _ => none

def priceProfit (o : Order α) (contractSize price conversion : α) : α :=
  (price - o.openPrice) * o.lots * o.kind.direction * contractSize * conversion

def closingPrice (o : Order α) (q : Quote α) : α := if o.kind.isBuy then q.bid else q.ask

end Order
end Backtest
