import Backtest.Arith
import Backtest.Bar
import Backtest.Fault

namespace Backtest

def Bar.absorb {α : Type} [Arith α] (bar next : Bar α) : Bar α :=
  { bar with
    high := Arith.larger bar.high next.high
    low := Arith.smaller bar.low next.low
    close := next.close
    volume := bar.volume + next.volume
    shortSwap := next.shortSwap
    longSwap := next.longSwap }

namespace Series

variable {α : Type} [Arith α]

def spanStart (period time : Int) : Int := time / period * period

/-- Adds a bar to the coarse bar of its span, which is the last one or a new one. -/
def addToSpans (period : Int) (out : Series α) (b : Bar α) : Series α :=
  let start := spanStart period b.time
  match out.back? with
  | some last =>
    if last.time = start then out.pop.push (last.absorb b) else out.push { b with time := start }
  | none => out.push { b with time := start }

/-- The bars of a history on a coarser timeframe, in minutes; the same timeframe changes nothing. -/
def resample (s : Series α) (base target : Nat) : Except (Fault α) (Series α) :=
  if target < base || base = 0 then .error (.invalidTimeframe base target)
  else if target = base then .ok s
  else .ok (s.foldl (addToSpans (target * 60 : Nat)) #[])

end Series
end Backtest
