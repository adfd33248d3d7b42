import Backtest.Decimal.Notation
import Backtest.Fault
import Backtest.Slot

namespace Backtest

structure Parameter (α : Type) where
  index : Nat
  start : α
  step : α
  stop : α
deriving Repr

namespace Parameter

variable {α : Type} [Arith α]

/-- Values in a range, counted in a word; the stop is included even if rounding leaves it a billionth of a
step short. A step that is not positive, or a stop below the start, leaves the start alone. -/
def count (p : Parameter α) : Except Breach Nat :=
  if p.step ≤ 0 || p.stop < p.start then .ok 1
  else Breach.inWord (Arith.toCount (Arith.floor ((p.stop - p.start) / p.step + 1e-9)) + 1)

def point (p : Parameter α) (k : Nat) : α := p.start + Arith.ofCount k * p.step

def values (p : Parameter α) : Except Breach (List α) :=
  if p.step ≤ 0 || p.stop < p.start then .ok [p.start]
  else do
    let count ← p.count
    return (List.range count).map p.point

end Parameter

/-- A candidate: values with the slots they go into. -/
abbrev Assignment (α : Type) := List (Nat × α)

namespace Assignment

def writeInto {α : Type} (s : Assignment α) (v : SlotVector α) : SlotVector α :=
  s.foldl (fun v p => v.putAt p.1 p.2) v

def display (s : Assignment Float) : String :=
  "\x7b" ++ ", ".intercalate (s.map fun p =>
    "'" ++ Slot.nameOf p.1 ++ "': " ++ Decimal.plainText p.2) ++ "\x7d"

end Assignment

/-- Every choice of one element of each list, the last list varying fastest. -/
def choices {β : Type} : List (List β) → List (List β)
  | [] => [[]]
  | xs :: rest => xs.flatMap fun x => (choices rest).map (x :: ·)

section Grid

variable {α : Type} [Arith α]

/-- The grid: every candidate that takes one value of each parameter. -/
def grid (params : List (Parameter α)) : Except Breach (List (Assignment α)) := do
  let ranges ← params.mapM Parameter.values
  return (choices ranges).map fun vs => (params.map (·.index)).zip vs

/-- Points of the grid, multiplied in a word; no parameters have none. -/
def gridSize (params : List (Parameter α)) : Except Breach Nat :=
  if params.isEmpty then .ok 0
  else params.foldlM (fun n p => do
    let values ← p.values
    Breach.inWord (n * values.length)) 1

end Grid
end Backtest
