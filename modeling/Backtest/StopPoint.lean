namespace Backtest

/-- After how many steps a stop is requested, if ever. A step is a bar of a run, or an evaluation of a
search. -/
abbrev StopPoint := Option Nat

def StopPoint.isReached (p : StopPoint) (steps : Nat) : Bool := p.any (· ≤ steps)

end Backtest
