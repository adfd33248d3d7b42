import Backtest.Account
import Backtest.Fault
import Backtest.Order

namespace Backtest

structure OrderBook (α : Type) where
  instanceId : Int
  account : Account α
  orderLimit : Nat
  initialBalance : α
  balance : α
  nextTicket : Int
  /-- Oldest first. -/
  openOrders : List (Order α)
  closedOrders : Array (Order α)
  events : Array (TradeEvent α)
  counters : TradeCounts
  /-- When swap was last booked; zero before the first time. -/
  lastSwapTime : Int
  /-- Seconds for which closed orders were held, summed up. -/
  heldSeconds : α
  closeCount : Nat
deriving Repr

namespace OrderBook

variable {α : Type} [Arith α]

def empty (instanceId : Int) (account : Account α) (balance : α) (orderLimit : Nat) :
    OrderBook α where
  instanceId := instanceId
  account := account
  orderLimit := max orderLimit 1
  initialBalance := balance
  balance := balance
  nextTicket := 1
  openOrders := []
  closedOrders := #[]
  events := #[]
  counters := .zero
  lastSwapTime := 0
  heldSeconds := 0
  closeCount := 0

def record (b : OrderBook α) (o : Order α) (event : EventKind) (time : Int)
    (price profit gross : α) : OrderBook α :=
  { b with
    events := b.events.push
      { time := time
        instanceId := b.instanceId
        ticket := o.ticket
        event := event
        order := o.kind
        price := price
        lots := o.lots
        stopLoss := o.stopLoss
        takeProfit := o.takeProfit
        profit := profit
        priceProfit := gross
        balance := b.balance } }

def drop (b : OrderBook α) (ticket : Int) : OrderBook α :=
  { b with openOrders := b.openOrders.filter (·.ticket != ticket) }

def replace (b : OrderBook α) (o : Order α) : OrderBook α :=
  { b with openOrders := b.openOrders.map fun p => if p.ticket = o.ticket then o else p }

/-- The open orders of a kind, or the one with a ticket; a ticket that is not there is a fault. -/
def addressedBy (b : OrderBook α) (kind : OrderKind) (ticket : Int) :
    Except (Fault α) (List (Order α)) :=
  let found := b.openOrders.filter fun o =>
    o.kind = kind && (ticket = everyTicket || o.ticket = ticket)
  if found.isEmpty && ticket ≠ everyTicket then .error (.unknownTicket b.instanceId ticket)
  else .ok found

def cancel (b : OrderBook α) (o : Order α) (time : Int) : OrderBook α :=
  let b := { b.drop o.ticket with counters := b.counters.remove o.kind.isBuy }
  b.record { o with isOpen := false, closeTime := time } .cancelled time o.openPrice 0 0

/-- Closes a market order and books its profit. A close before the order's opening is ignored. -/
def settle (b : OrderBook α) (o : Order α) (price : α) (q : Quote α) (event : EventKind) :
    OrderBook α :=
  if q.time < o.openTime then b
  else
    let gross := o.priceProfit b.account.contractSize price q.conversion
    let profit := gross + o.swap - o.commission
    let closed := { o with
      isOpen := false, closeTime := q.time, closePrice := price, profit := profit }
    let booked := { b.drop o.ticket with
      balance := b.balance + profit
      heldSeconds := b.heldSeconds + Arith.ofInt (q.time - o.openTime)
      closeCount := b.closeCount + 1
      closedOrders := b.closedOrders.push closed }
    booked.record closed event q.time price profit gross

end OrderBook
end Backtest
