import Backtest.RunFigures

namespace Backtest

/-- What a candidate reached, or that it does not count. -/
inductive Score (α : Type) where
  | penalised
  | reached (x : α)
deriving Repr

namespace Score

variable {α : Type} [Arith α]

def below : Score α → Score α → Bool
  | penalised, reached _ => true
  | reached a, reached b => a < b
  | _, penalised => false

/-- The score of a goal's value; one that is not finite does not count. -/
def ofValue (goal : Goal) (value : α) : Score α :=
  if Arith.isFinite value then reached (if goal.prefersLess then -value else value) else penalised

/-- Whether a score equals the first one of a population, within a billionth. When the first one does
not count, no distance from it can be told, and every score passes. -/
def matchesFirst (first s : Score α) : Bool :=
  match first, s with
  | penalised, _ => true
  | reached _, penalised => false
  | reached a, reached b =>
    b == a || Arith.magnitude (b - a) ≤ 1e-9 * Arith.larger (Arith.magnitude a) 1

end Score

/-- The last of the elements with the largest score. -/
def lastBest {α β : Type} [Arith α] (score : β → Score α) (xs : List β) : Option β :=
  xs.foldl (fun best x =>
    match best with
    | none => some x
    | some b => if (score x).below (score b) then some b else some x) none

/-- The first of the elements with the smallest score. -/
def firstWorst {α β : Type} [Arith α] (score : β → Score α) (xs : List β) : Option β :=
  xs.foldl (fun worst x =>
    match worst with
    | none => some x
    | some w => if (score x).below (score w) then some x else some w) none

end Backtest
