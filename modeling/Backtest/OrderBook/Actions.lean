import Backtest.OrderBook.Basic

namespace Backtest
namespace OrderBook

variable {α : Type} [Arith α]

/-- The level at a distance from a price, upward or downward by `side`. Zero leaves it unset, and so
does a distance below the broker's minimum. -/
def levelAt (b : OrderBook α) (price side distance : α) : α :=
  if distance ≤ 0 then 0
  else if distance < b.account.minimumStop then 0
  else price + side * distance

def entryPrice? (kind : OrderKind) (r : Instruction α) (q : Quote α) : Option α :=
  match kind with
  | .buy => some q.ask
  | .sell => some q.bid
  | _ => if r.entryPrice > 0 then some r.entryPrice else none

def newOrder (b : OrderBook α) (kind : OrderKind) (r : Instruction α) (q : Quote α)
    (lots price : α) : Order α where
  ticket := b.nextTicket
  instanceId := b.instanceId
  kind := kind
  openTime := q.time
  closeTime := 0
  stopLoss := b.levelAt price (-kind.direction) r.stopDistance
  takeProfit := b.levelAt price kind.direction r.profitDistance
  expiration := Arith.toInt64 (Arith.larger r.expiration 0)
  openPrice := price
  closePrice := 0
  lots := lots
  profit := 0
  commission := b.account.commissionPerLot * lots
  swap := 0
  isOpen := true

/-- Places an order and gives its ticket. Nothing happens when the lots round to zero or a pending order
names no entry; a full book is a fault. -/
def place (b : OrderBook α) (kind : OrderKind) (r : Instruction α) (q : Quote α) :
    Except (Fault α) (OrderBook α × Option Int) :=
  let lots := roundLots r.lots b.account.minLot
  if lots ≤ 0 then .ok (b, none)
  else if b.openOrders.length ≥ b.orderLimit then
    .error (.tooManyOrders b.instanceId b.orderLimit)
  else
    match entryPrice? kind r q with
    | none => .ok (b, none)
    | some price =>
      let o := b.newOrder kind r q lots price
      let placed := { b with
        nextTicket := b.nextTicket + 1
        counters := b.counters.add kind.isBuy
        openOrders := b.openOrders ++ [o] }
      .ok (placed.record o .opened q.time price 0 0, some o.ticket)

/-- Ends one order at the current price: a pending one is cancelled, a market one settled. -/
def closeOrder (b : OrderBook α) (o : Order α) (q : Quote α) : OrderBook α :=
  if o.kind.isPending then b.cancel o q.time else b.settle o (o.closingPrice q) q .closed

/-- Closes the order with a ticket, or every order of the kind, the newest first. -/
def close (b : OrderBook α) (kind : OrderKind) (ticket : Int) (q : Quote α) :
    Except (Fault α) (OrderBook α) := do
  let found ← b.addressedBy kind ticket
  return found.reverse.foldl (fun b o => b.closeOrder o q) b

/-- The level after an update: a zero distance clears it, and one below the broker's minimum keeps the
old one. -/
def updatedLevel (b : OrderBook α) (base side distance current : α) : α :=
  if distance == 0 then 0
  else if distance < b.account.minimumStop then current
  else base + side * distance

/-- Moves the levels of one order, counted from the current price, or from the entry of a pending one,
which the record may move as well. -/
def updateOrder (b : OrderBook α) (o : Order α) (r : Instruction α) (q : Quote α) : OrderBook α :=
  let o := if o.kind.isPending && r.entryPrice > 0 then { o with openPrice := r.entryPrice } else o
  let base := match o.kind with
    | .buy => q.ask
    | .sell => q.bid
    | _ => o.openPrice
  let o := { o with
    stopLoss := b.updatedLevel base (-o.kind.direction) r.stopDistance o.stopLoss
    takeProfit := b.updatedLevel base o.kind.direction r.profitDistance o.takeProfit
    expiration := if r.expiration > 0 then Arith.toInt64 r.expiration else o.expiration }
  (b.replace o).record o .modified q.time base 0 0

/-- Updates the order with a ticket, or every order of the kind, the oldest first. -/
def update (b : OrderBook α) (kind : OrderKind) (ticket : Int) (r : Instruction α) (q : Quote α) :
    Except (Fault α) (OrderBook α) := do
  let found ← b.addressedBy kind ticket
  return found.foldl (fun b o => b.updateOrder o r q) b

def act (b : OrderBook α) (q : Quote α) : Action α → Except (Fault α) (OrderBook α)
  | .place kind r => (b.place kind r q).map (·.1)
  | .close kind ticket => b.close kind ticket q
  | .update kind ticket r => b.update kind ticket r q

/-- Performs actions until one fails; the book keeps what was done before. -/
def actAll (b : OrderBook α) (q : Quote α) : List (Action α) → OrderBook α × Option (Fault α)
  | [] => (b, none)
  | a :: rest =>
    match b.act q a with
    | .ok b => b.actAll q rest
    | .error f => (b, some f)

def applyRecords (b : OrderBook α) (records : List (Instruction α)) (q : Quote α) :
    OrderBook α × Option (Fault α) :=
  b.actAll q (records.flatMap Instruction.actions)

end OrderBook
end Backtest
