import Backtest.Calendar.Timestamp
import Backtest.Order
import Backtest.Text.Table

namespace Backtest

structure TradeRow (α : Type) where
  ticket : Int
  side : OrderKind
  openTime : String
  closeTime : String
  openPrice : α
  closePrice : α
  lots : α
  profit : α
  stopLoss : α
  takeProfit : α
  balance : α
  instanceId : Int
  symbol : String
  swap : α
deriving Repr

namespace TradeRow

def ofOrder {α : Type} (symbol : String) (balance : α) (o : Order α) : TradeRow α where
  ticket := o.ticket
  side := o.kind
  openTime := timestampText o.openTime
  closeTime := timestampText o.closeTime
  openPrice := o.openPrice
  closePrice := o.closePrice
  lots := o.lots
  profit := o.profit
  stopLoss := o.stopLoss
  takeProfit := o.takeProfit
  balance := balance
  instanceId := o.instanceId
  symbol := symbol
  swap := o.swap

def ofOrders {α : Type} [Arith α] (symbol : String) : α → List (Order α) → List (TradeRow α)
  | _, [] => []
  | balance, o :: rest =>
    ofOrder symbol (balance + o.profit) o :: ofOrders symbol (balance + o.profit) rest

/-- By closing time as written, then by ticket. -/
def before {α : Type} (a b : TradeRow α) : Bool :=
  a.closeTime < b.closeTime || (a.closeTime == b.closeTime && a.ticket ≤ b.ticket)

def header : List String :=
  ["ticket", "side", "open_time", "close_time", "open_price", "close_price", "lots", "profit", "sl",
   "tp", "balance", "instance_id", "symbol", "swap"]

def fields (r : TradeRow Float) : List String :=
  let number := Decimal.compactText
  [toString r.ticket, r.side.label, r.openTime, r.closeTime, number r.openPrice,
   number r.closePrice, number r.lots, number r.profit, number r.stopLoss, number r.takeProfit,
   number r.balance, toString r.instanceId, r.symbol, number r.swap]

def sorted {α : Type} (records : List (TradeRow α)) : List (TradeRow α) :=
  records.mergeSort before

def table (records : List (TradeRow Float)) : String :=
  if records.isEmpty then "" else Table.write ',' (header :: (sorted records).map fields)

end TradeRow
end Backtest
