namespace Backtest

/-- One candle; `time` is its opening in unix seconds. -/
structure Bar (α : Type) where
  time : Int
  openPrice : α
  high : α
  low : α
  close : α
  volume : α
  shortSwap : α
  longSwap : α
deriving Repr, DecidableEq

abbrev Series (α : Type) := Array (Bar α)

namespace Series

variable {α : Type}

def bar? (s : Series α) (i : Nat) : Option (Bar α) := s[i]?

def timeAt? (s : Series α) (i : Nat) : Option Int := s[i]?.map Bar.time

def firstUnordered? (s : Series α) : Option Nat :=
  (List.range (s.size - 1)).find? fun i =>
    match s.timeAt? i, s.timeAt? (i + 1) with
    | some a, some b => b ≤ a
    | _, _ => false

/-- Index of the first bar, at or after `start`, whose time fails `before`; all bars from `start` up to
there satisfy it. -/
def skipWhile (s : Series α) (before : Int → Bool) (start : Nat) : Nat :=
  if h : start < s.size then
    if before s[start].time then skipWhile s before (start + 1) else start
  else start
termination_by s.size - start

end Series
end Backtest
