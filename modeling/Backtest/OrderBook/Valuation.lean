import Backtest.OrderBook.Basic

namespace Backtest
namespace OrderBook

variable {α : Type} [Arith α]

def marketOrders (b : OrderBook α) : List (Order α) := b.openOrders.filter (!·.kind.isPending)

/-- Profit that closing the market orders now would make, swap included. -/
def openProfit (b : OrderBook α) (q : Quote α) : α :=
  Arith.total (b.marketOrders.map fun o =>
    o.priceProfit b.account.contractSize (o.closingPrice q) q.conversion + o.swap)

def equity (b : OrderBook α) (q : Quote α) : α := b.balance + b.openProfit q

def margin (b : OrderBook α) : α :=
  Arith.total (b.marketOrders.map fun o => o.lots * b.account.contractSize / b.account.leverage)

/-- The fault of a ledger whose closed profits do not add up to the change of the balance, within a
millionth of the balance. -/
def ledgerFault? (b : OrderBook α) : Option (Fault α) :=
  let realized := Arith.total (b.closedOrders.toList.map (·.profit))
  let expected := b.balance - b.initialBalance
  let tolerance := 1e-6 * Arith.larger (Arith.magnitude b.balance) 1
  if Arith.magnitude (realized - expected) > tolerance then
    some (.ledgerMismatch b.instanceId expected realized)
  else none

def meanHolding (b : OrderBook α) : α :=
  if b.closeCount = 0 then 0 else b.heldSeconds / Arith.ofCount b.closeCount

end OrderBook
end Backtest
