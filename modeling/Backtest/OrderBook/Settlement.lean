import Backtest.Calendar.Timestamp
import Backtest.OrderBook.Basic

namespace Backtest
namespace OrderBook

variable {α : Type} [Arith α]

def fill (b : OrderBook α) (o : Order α) (time : Int) : OrderBook α :=
  let o := { o with kind := o.kind.filled, openTime := time }
  (b.replace o).record o .filled time o.openPrice 0 0

/-- Lets one pending order run out, or fill if the bar crossed its entry. -/
def settleEntry (b : OrderBook α) (o : Order α) (bar : Bar α) (time : Int) : OrderBook α :=
  if !o.kind.isPending then b
  else if o.isExpired time then b.cancel o time
  else if o.isReached bar then b.fill o time
  else b

/-- Settles the pending orders against the last closed bar, the oldest first. -/
def settleEntries (b : OrderBook α) (q : Quote α) : OrderBook α :=
  match q.lastBar with
  | none => b
  | some bar => b.openOrders.foldl (fun b o => b.settleEntry o bar q.time) b

/-- An exit that made money counts as taken profit, and any other as a loss stopped. -/
def exitEvent (b : OrderBook α) (o : Order α) (price : α) (q : Quote α) : EventKind :=
  let gross := o.priceProfit b.account.contractSize price q.conversion
  if gross + o.swap - o.commission > 0 then .takeProfit else .stopLoss

def settleExit (b : OrderBook α) (o : Order α) (bar : Bar α) (q : Quote α) : OrderBook α :=
  match o.exitPrice? bar q with
  | some price => b.settle o price q (b.exitEvent o price q)
  | none => b

/-- Closes the market orders whose levels the last closed bar or the current price touched. -/
def settleExits (b : OrderBook α) (q : Quote α) : OrderBook α :=
  match q.lastBar with
  | none => b
  | some bar => b.openOrders.foldl (fun b o => b.settleExit o bar q) b

/-- Swap is booked when more than this many seconds have passed since the last time. -/
def swapInterval : Int := 3600

/-- On Wednesdays swap counts three times. -/
def swapFactor (time : Int) : α := if dayOfWeek time = 3 then 3.0 else 1

def withSwap (b : OrderBook α) (time : Int) (o : Order α) : Order α :=
  if o.kind.isPending then o
  else
    let rate := if o.kind.isBuy then b.account.swapLong else b.account.swapShort
    { o with swap := o.swap + rate * o.lots * swapFactor time }

def bookSwap (b : OrderBook α) (time : Int) : OrderBook α :=
  if time - b.lastSwapTime ≤ swapInterval then b
  else if b.openOrders.any (!·.kind.isPending) then
    { b with openOrders := b.openOrders.map (b.withSwap time), lastSwapTime := time }
  else b

end OrderBook
end Backtest
