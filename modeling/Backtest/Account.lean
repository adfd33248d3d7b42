import Backtest.Arith

namespace Backtest

structure Account (α : Type) where
  contractSize : α
  digits : Nat
  spread : α
  minLot : α
  minimumStop : α
  leverage : α
  stopOutPercent : α
  swapLong : α
  swapShort : α
  commissionPerLot : α
deriving Repr

def Account.standard {α : Type} [Arith α] : Account α where
  contractSize := 100000.0
  digits := 5
  spread := 0
  minLot := 0.01
  minimumStop := 0
  leverage := 100.0
  stopOutPercent := 20.0
  swapLong := 0
  swapShort := 0
  commissionPerLot := 0

/-- Lots rounded down to whole steps, with a billionth of a step forgiven, and then to the decimals of
the step; zero if not one step is asked for. A step that is not positive leaves lots as they are. -/
def roundLots {α : Type} [Arith α] (lots step : α) : α :=
  if step ≤ 0 then Arith.larger lots 0
  else
    let steps := Arith.floor (lots / step + 1e-9)
    if steps < 1 then 0
    else
      let factor := Arith.natPow 10.0 (Arith.places step)
      Arith.round (steps * step * factor) / factor

end Backtest
