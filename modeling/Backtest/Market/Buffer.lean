import Backtest.Arith
import Backtest.Bar

namespace Backtest

/-- What a strategy needs of one history. Symbol `D` is the traded one, and timeframe zero the
strategy's own. -/
structure Requirement where
  symbol : String
  timeframe : Nat
  bars : Nat
deriving Repr, DecidableEq

def tradedSymbol : String := "D"

def maxBuffers : Nat := 10

namespace Requirement

/-- The timeframe that a strategy on `own` minutes needs. -/
def timeframeFor (r : Requirement) (own : Nat) : Nat := if r.timeframe = 0 then own else r.timeframe

def symbolFor (r : Requirement) (own : String) : String :=
  if r.symbol = tradedSymbol then own else r.symbol

end Requirement

namespace Series

variable {α : Type}

/-- The first index from `lo` up to `hi` whose time fails `early`, by halving; the times that satisfy
`early` must come first. -/
def boundary (s : Series α) (early : Int → Bool) (lo hi : Nat) : Nat :=
  if lo < hi then
    let mid := (lo + hi) / 2
    if (s.timeAt? mid).any early then boundary s early (mid + 1) hi else boundary s early lo mid
  else lo
termination_by hi - lo
decreasing_by all_goals omega

end Series

/-- Base bars that a buffer spans: the bars needed and a fifth more, in base bars. -/
def windowLength (α : Type) [Arith α] (bars required actual : Nat) : Nat :=
  let ratio : α := Arith.ofCount required / Arith.ofCount (max actual 1)
  Arith.toCount (Arith.round (Arith.ofCount bars * 1.2 * ratio))

structure BufferInfo (α : Type) where
  slot : Nat
  required : Nat
  actual : Nat
  bars : Nat
  /-- Length of the window in base bars. -/
  capacity : Nat
  symbol : String
  digits : Nat
  point : α
deriving Repr

/-- The seven numbers under which an engine reads a buffer; its bars come in the timeframe required. -/
def BufferInfo.toNumbers {α : Type} [Arith α] (i : BufferInfo α) (delivered : Nat) : List α :=
  [1, Arith.ofCount i.required, Arith.ofCount i.bars, Arith.ofCount i.required,
   Arith.ofCount delivered, i.point, Arith.ofCount i.digits]

/-- A buffer with the number of base bars closed, the number of its own bars closed, and the first bar
inside the window. -/
structure BarBuffer (α : Type) where
  info : BufferInfo α
  base : Series α
  series : Series α
  baseClosed : Nat
  closed : Nat
  windowStart : Nat

namespace BarBuffer

variable {α : Type}

def ofSeries (info : BufferInfo α) (base series : Series α) : BarBuffer α :=
  ⟨info, base, series, 0, 0, 0⟩

def basePeriod (b : BarBuffer α) : Int := (b.info.actual * 60 : Nat)
def period (b : BarBuffer α) : Int := (b.info.required * 60 : Nat)

/-- The opening of the oldest base bar in the window, if a base bar has closed. -/
def windowOpening? (b : BarBuffer α) : Option Int :=
  if b.baseClosed = 0 then none else b.base.timeAt? (b.baseClosed - b.info.capacity)

/-- Moves the window so that it ends with the last bar closed at a time. It never moves back. A bar
that opens before the window is left out. -/
def advance (b : BarBuffer α) (time : Int) : BarBuffer α :=
  let b := { b with
    baseClosed := b.base.skipWhile (fun t => t + b.basePeriod ≤ time) b.baseClosed
    closed := b.series.skipWhile (fun t => t + b.period ≤ time) b.closed }
  match b.windowOpening? with
  | some opening => { b with windowStart := b.series.boundary (· < opening) 0 b.closed }
  | none => { b with windowStart := 0 }

def view (b : BarBuffer α) : Series α := b.series.extract b.windowStart b.closed

def isWarm (b : BarBuffer α) : Bool := b.closed - b.windowStart ≥ b.info.bars

end BarBuffer
end Backtest
