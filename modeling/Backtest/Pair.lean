import Backtest.Fault

namespace Backtest

/-- The two currencies of a pair, three bytes each, and what the broker puts behind them. -/
structure Pair where
  base : String
  term : String
  suffix : String
deriving Repr, DecidableEq

namespace Pair

/-- Cuts a text behind `n` bytes, if a character ends there. -/
def cutAt : Nat → List Char → Option (List Char × List Char)
  | 0, cs => some ([], cs)
  | _ + 1, [] => none
  | n + 1, c :: cs =>
    if c.utf8Size ≤ n + 1 then
      (cutAt (n + 1 - c.utf8Size) cs).map fun (front, rest) => (c :: front, rest)
    else none

/-- Splits a symbol. One that is shorter than six bytes, or has no cut behind the sixth, is no pair;
one that can be cut there but not behind the third byte is a fault. -/
def ofSymbol {α : Type} (symbol : String) : Except (Fault α) (Option Pair) :=
  match cutAt 6 symbol.toList with
  | none => .ok none
  | some (front, suffix) =>
    match cutAt 3 front with
    | none => .error (.brokenSymbol symbol)
    | some (base, term) =>
      .ok (some ⟨String.ofList base, String.ofList term, String.ofList suffix⟩)

end Pair

/-- What a conversion history prices: one currency of the pair in the account's, or the reverse. -/
inductive ConversionRoute where
  | baseAccount | accountBase | termAccount | accountTerm
deriving Repr, DecidableEq

/-- The histories that convert a pair into an account currency that is neither of its own. -/
def Pair.conversions (p : Pair) (currency : String) : List (ConversionRoute × String) :=
  if currency = p.base || currency = p.term then []
  else
    [(.baseAccount, p.base ++ currency ++ p.suffix), (.accountBase, currency ++ p.base ++ p.suffix),
     (.termAccount, p.term ++ currency ++ p.suffix), (.accountTerm, currency ++ p.term ++ p.suffix)]

def conversionsOf {α : Type} (symbol currency : String) :
    Except (Fault α) (List (ConversionRoute × String)) := do
  return match ← Pair.ofSymbol symbol with
    | some p => p.conversions currency
    | none => []

end Backtest
