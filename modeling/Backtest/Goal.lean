namespace Backtest

inductive Goal where
  | profit | maxDrawdown | drawdownLength | profitFactor | r2 | ulcerIndex | sharpe
  | growthToDrawdown | growth
deriving Repr, DecidableEq

namespace Goal

def all : List Goal :=
  [.profit, .maxDrawdown, .drawdownLength, .profitFactor, .r2, .ulcerIndex, .sharpe,
   .growthToDrawdown, .growth]

def name : Goal → String
  | .profit => "Profit"
  | .maxDrawdown => "Max_DD"
  | .drawdownLength => "Max_DD_Length"
  | .profitFactor => "Profit_Factor"
  | .r2 => "R2"
  | .ulcerIndex => "Ulcer_Index"
  | .sharpe => "Sharpe"
  | .growthToDrawdown => "CAGR/Max_DD"
  | .growth => "CAGR"

def prefersLess : Goal → Bool
  | .maxDrawdown | .drawdownLength | .ulcerIndex => true
  | _ => false

end Goal
end Backtest
