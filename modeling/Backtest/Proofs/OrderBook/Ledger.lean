import Backtest.Proofs.OrderBook.Operation
import Backtest.Report.Trades
import Backtest.Statistics.Basic

namespace Backtest

section Closes

variable {α : Type}

def Order.close (o : Order α) : Int × α := (o.closeTime, o.profit)

def TradeEvent.close (e : TradeEvent α) : Int × α := (e.time, e.profit)

/-- The closes that a stretch of events reports. -/
def closesOf (events : List (TradeEvent α)) : List (Int × α) :=
  (events.filter (·.event.isClose)).map TradeEvent.close

end Closes

variable {α : Type} [Arith α]

/-- The balance after some closes, which are given with their times and profits. -/
def balanceAfter (balance : α) (closes : List (Int × α)) : α :=
  closes.foldl (fun total close => total + close.2) balance

/-- The balance after each of some closes. -/
def runningPoints (balance : α) : List (Int × α) → List (CurvePoint α)
  | [] => []
  | (time, profit) :: rest => ⟨time, balance + profit⟩ :: runningPoints (balance + profit) rest

namespace TradeRow

/-- The balance column of a trade list is the running sum of its profits. -/
theorem ofOrders_points (symbol : String) (balance : α) (orders : List (Order α)) :
    List.zipWith (fun o row => ⟨o.closeTime, row.balance⟩) orders (ofOrders symbol balance orders) =
      runningPoints balance (orders.map Order.close) := by
  induction orders generalizing balance with
  | nil => rfl
  | cons o rest ih =>
    simp only [ofOrders, List.zipWith_cons_cons, List.map_cons, runningPoints, Order.close, ofOrder]
    rw [ih]

theorem ofOrders_last (symbol : String) (balance : α) (orders : List (Order α)) :
    ((ofOrders symbol balance orders).getLast?.map TradeRow.balance).getD balance =
      balanceAfter balance (orders.map Order.close) := by
  induction orders generalizing balance with
  | nil => rfl
  | cons o rest ih =>
    change _ = balanceAfter (balance + o.profit) (rest.map Order.close)
    rw [← ih]
    cases h : ofOrders symbol (balance + o.profit) rest with
    | nil => simp [ofOrders, h, ofOrder]
    | cons row rows => simp [ofOrders, h, List.getLast?_cons]

end TradeRow

namespace OrderBook

/-- The closing events report the closed orders, and the balance is what their profits add up to. -/
structure Booked (b : OrderBook α) : Prop where
  closes : closesOf b.events.toList = b.closedOrders.toList.map Order.close
  balance : b.balance = balanceAfter b.initialBalance (b.closedOrders.toList.map Order.close)

/-- An event that closes nothing leaves the ledger as it is. -/
theorem Booked.record {b c : OrderBook α} (h : b.Booked) {o : Order α} {event : EventKind}
    {time : Int} {price profit gross : α} (he : event.isClose = false)
    (events : c.events = b.events) (closed : c.closedOrders = b.closedOrders)
    (balance : c.balance = b.balance) (initial : c.initialBalance = b.initialBalance) :
    (c.record o event time price profit gross).Booked where
  closes := by
    rw [record_closedOrders, closed, ← h.closes]
    simp [OrderBook.record, closesOf, he, events]
  balance := by
    rw [record_closedOrders, record_balance, record_initialBalance, closed, balance, initial]
    exact h.balance

theorem Change.booked {b b' : OrderBook α} (c : Change b b') (h : b.Booked) : b'.Booked := by
  cases c with
  | enter kind r q lots price room => exact h.record rfl rfl rfl rfl rfl
  | cancel time ho hk => exact h.record rfl rfl rfl rfl rfl
  | @settle o price q event ho hk ht he =>
    rw [settle_eq b ht]
    have filed : (b.file o price q).closedOrders.toList.map Order.close =
        b.closedOrders.toList.map Order.close ++ [(q.time, (b.closedOrder o price q).profit)] := by
      simp only [file, Array.toList_push, List.map_append, List.map_singleton]
      rfl
    refine ⟨?_, ?_⟩
    · rw [record_closedOrders, filed, ← h.closes]
      simp [OrderBook.record, closesOf, he, file, drop, TradeEvent.close]
    · rw [record_closedOrders, record_balance, record_initialBalance, filed, balanceAfter,
        List.foldl_append]
      change b.balance + _ = balanceAfter b.initialBalance _ + _
      rw [← h.balance]
  | update r q ho => exact h.record rfl rfl rfl rfl rfl
  | fill time ho hk => exact h.record rfl rfl rfl rfl rfl
  | swap time => exact ⟨h.closes, h.balance⟩

theorem Changes.booked {b b' : OrderBook α} (c : Changes b b') (h : b.Booked) : b'.Booked := by
  induction c with
  | refl => exact h
  | tail _ step ih => exact step.booked ih

theorem empty_booked (instanceId : Int) (account : Account α) (balance : α) (orderLimit : Nat) :
    (empty instanceId account balance orderLimit).Booked :=
  ⟨rfl, rfl⟩

/-- Seconds for which some closed orders were held, summed up in their order. -/
def heldFor (orders : List (Order α)) : α :=
  (orders.map fun o => Arith.ofInt (o.closeTime - o.openTime)).foldl (· + ·) 0

/-- The book's sums over the closed orders are those of the orders filed. -/
structure Timed (b : OrderBook α) : Prop where
  count : b.closeCount = b.closedOrders.size
  held : b.heldSeconds = heldFor b.closedOrders.toList

theorem Change.timed {b b' : OrderBook α} (c : Change b b') (h : b.Timed) : b'.Timed := by
  cases c with
  | @settle o price q event ho hk ht he =>
    rw [settle_eq b ht]
    refine ⟨?_, ?_⟩
    · change b.closeCount + 1 = (b.closedOrders.push (b.closedOrder o price q)).size
      rw [Array.size_push, h.count]
    · change b.heldSeconds + Arith.ofInt (q.time - o.openTime) =
        heldFor (b.closedOrders.push (b.closedOrder o price q)).toList
      have held := h.held
      unfold heldFor at held ⊢
      rw [Array.toList_push, List.map_append, List.foldl_append, ← held]
      rfl
  | _ => exact ⟨h.count, h.held⟩

theorem Changes.timed {b b' : OrderBook α} (c : Changes b b') (h : b.Timed) : b'.Timed := by
  induction c with
  | refl => exact h
  | tail _ step ih => exact step.timed ih

theorem empty_timed (instanceId : Int) (account : Account α) (balance : α) (orderLimit : Nat) :
    (empty instanceId account balance orderLimit).Timed :=
  ⟨rfl, rfl⟩

end OrderBook
end Backtest
