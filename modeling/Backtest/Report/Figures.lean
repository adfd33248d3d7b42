import Backtest.Arith.Double
import Backtest.Calendar.Timestamp
import Backtest.Json.Record
import Backtest.Statistics.Basic
import Backtest.RunFigures

namespace Backtest
namespace RunFigures

def display (r : RunFigures Float) : List (String × String) :=
  let fixed := Decimal.fixedText
  [("Symbol", r.symbol),
   ("Total_Trades", toString r.counters.total),
   ("Longs", toString r.counters.longs),
   ("Shorts", toString r.counters.shorts),
   ("Final_Balance", fixed 2 r.finalBalance),
   ("Max_DD", fixed 2 r.drawdownDepth),
   ("Max_DD_%", fixed 2 r.drawdownPercent),
   ("Max_DD_Length_days", fixed 1 (Float.ofInt r.drawdownLength / 86400.0)),
   ("Profit_Factor", fixed 3 r.profitFactor),
   ("R2", fixed 4 r.r2),
   ("Ulcer_Index", fixed 3 r.ulcerIndex),
   ("Sharpe", fixed 3 r.sharpe),
   ("CAGR_%", fixed 3 r.growth),
   ("CAGR/Max_DD", fixed 3 r.growthToDrawdown),
   ("Martin", fixed 3 r.growthToUlcer),
   ("Winning_%", fixed 2 r.winningPercent),
   ("Risk_Reward", fixed 3 r.riskReward),
   ("Avg_Trade_Duration_h", fixed 2 (r.meanHolding / 3600.0)),
   ("Years_Traded", fixed 3 r.years),
   ("Bars_Processed", toString r.barsProcessed)] ++
  r.failure.toList.map fun f => ("Failure", f)

def members (r : RunFigures Float) : List (String × Json) :=
  [("symbol", .text r.symbol),
   ("total_trades", .integer r.counters.total),
   ("num_longs", .integer r.counters.longs),
   ("num_shorts", .integer r.counters.shorts),
   ("initial_balance", .number r.initialBalance),
   ("final_balance", .number r.finalBalance),
   ("max_dd_depth", .number r.drawdownDepth),
   ("max_dd_percent", .number r.drawdownPercent),
   ("max_dd_length", .integer r.drawdownLength),
   ("profit_factor", .number r.profitFactor),
   ("r2", .number r.r2),
   ("ulcer_index", .number r.ulcerIndex),
   ("sharpe", .number r.sharpe),
   ("cagr", .number r.growth),
   ("cagr_to_max_dd", .number r.growthToDrawdown),
   ("martin", .number r.growthToUlcer),
   ("winning_percent", .number r.winningPercent),
   ("risk_reward", .number r.riskReward),
   ("avg_trade_duration", .number r.meanHolding),
   ("years_traded", .number r.years),
   ("bars_processed", .integer r.barsProcessed),
   ("failure", r.failure.elim .null .text)]

def jsonText (r : RunFigures Float) : String := Json.renderLines r.members

open Json in
/-- The figures that JSON members hold; those that are missing are blank. -/
def ofJson? (j : Json) : Option (RunFigures Float) := do
  let r ← Record.of? ((blank : RunFigures Float).members.map (·.1)) j
  let number (name : String) : Option Float := r.optional name 0.0 number?
  let count (name : String) : Option Nat := r.optional name 0 (natural? 64)
  some
    { symbol := ← r.optional "symbol" "" text?
      counters := ⟨← count "total_trades", ← count "num_longs", ← count "num_shorts"⟩
      initialBalance := ← number "initial_balance"
      finalBalance := ← number "final_balance"
      drawdownDepth := ← number "max_dd_depth"
      drawdownPercent := ← number "max_dd_percent"
      drawdownLength := ← r.optional "max_dd_length" 0 (integer? Arith.minInt64 Arith.maxInt64)
      profitFactor := ← number "profit_factor"
      r2 := ← number "r2"
      ulcerIndex := ← number "ulcer_index"
      sharpe := ← number "sharpe"
      growth := ← number "cagr"
      growthToDrawdown := ← number "cagr_to_max_dd"
      growthToUlcer := ← number "martin"
      winningPercent := ← number "winning_percent"
      riskReward := ← number "risk_reward"
      meanHolding := ← number "avg_trade_duration"
      years := ← number "years_traded"
      barsProcessed := ← count "bars_processed"
      failure := ← r.optional "failure" none (absent? text?) }

end RunFigures

def curveTable (curve : List (CurvePoint Float)) : String :=
  "datetime;balance\n" ++ String.join (curve.map fun p =>
    timestampText p.time ++ ";" ++ Decimal.fixedText 2 p.balance ++ "\n")

end Backtest
