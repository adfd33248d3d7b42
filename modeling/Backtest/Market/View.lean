import Backtest.Market.Buffer
import Backtest.Pair

namespace Backtest

structure ConversionHistory (α : Type) where
  symbol : String
  leg : ConversionRoute
  series : Series α

/-- The opening of the latest bar that starts at or before a time. -/
def ConversionHistory.openingAt? {α : Type} (c : ConversionHistory α) (time : Int) : Option α :=
  let n := c.series.boundary (· ≤ time) 0 c.series.size
  if n = 0 then none else (c.series.bar? (n - 1)).map Bar.openPrice

structure MarketView (α : Type) where
  symbol : String
  pair : Option Pair
  accountCurrency : String
  primary : Series α
  buffers : List (BarBuffer α)
  conversions : List (ConversionHistory α)

namespace MarketView

variable {α : Type}

def advance (r : MarketView α) (time : Int) : MarketView α :=
  { r with buffers := r.buffers.map (·.advance time) }

def isWarm (r : MarketView α) : Bool := r.buffers.all BarBuffer.isWarm

variable [Arith α]

def rateOn? (r : MarketView α) (leg : ConversionRoute) (time : Int) : Option α := do
  let c ← r.conversions.find? (·.leg = leg)
  let rate ← c.openingAt? time
  if rate > 0 then some rate else none

/-- Factor from the second currency of the pair to the account's. The second currency's own rates come
first, and then those of the first currency across the pair's price; without any it is one. -/
def termFactor (r : MarketView α) (time : Int) (price : α) : α :=
  match r.pair with
  | none => 1
  | some p =>
    if r.accountCurrency = p.term then 1
    else if r.accountCurrency = p.base then if price > 0 then 1 / price else 1
    else
      match r.rateOn? .termAccount time, r.rateOn? .accountTerm time with
      | some rate, _ => rate
      | none, some rate => 1 / rate
      | none, none =>
        if price > 0 then
          match r.rateOn? .baseAccount time, r.rateOn? .accountBase time with
          | some rate, _ => rate / price
          | none, some rate => 1 / (rate * price)
          | none, none => 1
        else 1

def baseFactor (r : MarketView α) (time : Int) (price : α) : α :=
  match r.pair with
  | none => 1
  | some p =>
    if r.accountCurrency = p.base then 1
    else if r.accountCurrency = p.term then price
    else
      match r.rateOn? .baseAccount time, r.rateOn? .accountBase time with
      | some rate, _ => rate
      | none, some rate => 1 / rate
      | none, none => r.termFactor time price * price

end MarketView
end Backtest
