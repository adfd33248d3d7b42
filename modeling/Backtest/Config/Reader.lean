import Backtest.Arith.Double
import Backtest.Config.Basic
import Backtest.Json.Reader
import Backtest.Json.Record

namespace Backtest
namespace Config

open Json

def readAccount (j : Json) : Option (Account Float) := do
  let r ← Record.of?
    ["contract_size", "digits", "spread", "min_lot_size", "minimum_stop", "leverage",
     "stop_out_percent", "swap_long", "swap_short", "commission_per_lot"] j
  let standard : Account Float := .standard
  some
    { contractSize := ← r.optional "contract_size" standard.contractSize number?
      digits := ← r.optional "digits" standard.digits (natural? 32)
      spread := ← r.optional "spread" standard.spread number?
      minLot := ← r.optional "min_lot_size" standard.minLot number?
      minimumStop := ← r.optional "minimum_stop" standard.minimumStop number?
      leverage := ← r.optional "leverage" standard.leverage number?
      stopOutPercent := ← r.optional "stop_out_percent" standard.stopOutPercent number?
      swapLong := ← r.optional "swap_long" standard.swapLong number?
      swapShort := ← r.optional "swap_short" standard.swapShort number?
      commissionPerLot := ← r.optional "commission_per_lot" standard.commissionPerLot number? }

def readStatistics (j : Json) : Option StatisticsOptions := do
  let r ← Record.of? ["disable_compounding", "include_costs_in_metrics"] j
  let standard := StatisticsOptions.standard
  some
    { disableCompounding := ← r.optional "disable_compounding" standard.disableCompounding bool?
      includeCosts := ← r.optional "include_costs_in_metrics" standard.includeCosts bool? }

def readRequirement (j : Json) : Option Requirement := do
  let r ← Record.of? ["symbol", "timeframe", "bars"] j
  some
    { symbol := ← r.optional "symbol" tradedSymbol text?
      timeframe := ← r.optional "timeframe" 0 (natural? 32)
      bars := ← r.required "bars" (natural? 64) }

def readSystem (j : Json) : Option (SystemConfig Float) := do
  let r ← Record.of?
    ["instance_id", "engine_path", "engine_config", "symbol", "strategy_timeframe", "settings",
     "rate_requirements", "account"] j
  some
    { instanceId := ← r.required "instance_id" (integer? (-2147483648) 2147483647)
      enginePath := ← r.required "engine_path" text?
      engineConfig := ← r.optional "engine_config" "" text?
      symbol := ← r.required "symbol" text?
      timeframe := ← r.required "strategy_timeframe" (natural? 32)
      settings := ← r.optional "settings" [] (named? number?)
      requirements := ← r.required "rate_requirements" (list? readRequirement)
      account := ← r.optional "account" .standard readAccount }

def readCommon (j : Json) : Option (CommonConfig Float) := do
  let r ← Record.of?
    ["mode", "initial_balance", "account_currency", "broker_name", "ref_broker_name",
     "account_label", "history_path", "base_timeframe", "from_date", "to_date", "threads",
     "exit_results_path", "statistics"] j
  some
    { mode := ← r.required "mode" text?
      initialBalance := ← r.required "initial_balance" number?
      accountCurrency := ← r.required "account_currency" text?
      broker := ← r.optional "broker_name" "" text?
      referenceBroker := ← r.optional "ref_broker_name" "" text?
      accountLabel := ← r.optional "account_label" "" text?
      historyPath := ← r.required "history_path" text?
      baseTimeframe := ← r.required "base_timeframe" (natural? 32)
      fromDate := ← r.optional "from_date" none (absent? text?)
      toDate := ← r.optional "to_date" none (absent? text?)
      threads := ← r.optional "threads" none (absent? (natural? 64))
      exitPath := ← r.required "exit_results_path" text?
      statistics := ← r.optional "statistics" .standard readStatistics }

def readGoal : Json → Option Goal := choice? (Goal.all.map fun g => (g.name, g))

def readCrossover : Json → Option Crossover := choice? (Crossover.all.map fun c => (c.name, c))

def readMutation : Json → Option Mutation := choice? (Mutation.all.map fun m => (m.name, m))

def readGenetic (j : Json) : Option (GeneticSettings Float) := do
  let r ← Record.of?
    ["population_size", "max_generations", "crossover_probability", "mutation_probability",
     "migration_probability", "islands", "elitism", "crossover_mode", "mutation_mode",
     "stop_if_converged", "min_trades_a_year", "seed"] j
  some
    { population := ← r.required "population_size" (natural? 64)
      generations := ← r.required "max_generations" (natural? 64)
      crossoverChance := ← r.required "crossover_probability" number?
      mutationChance := ← r.required "mutation_probability" number?
      migrationChance := ← r.optional "migration_probability" 0 number?
      islands := ← r.optional "islands" 1 (natural? 64)
      elitism := ← r.optional "elitism" true bool?
      crossover := ← r.optional "crossover_mode" .uniform readCrossover
      mutation := ← r.optional "mutation_mode" .uniform readMutation
      stopIfConverged := ← r.optional "stop_if_converged" false bool?
      minTradesPerYear := ← r.optional "min_trades_a_year" 0 number?
      seed := ← r.optional "seed" none (absent? (natural? 64)) }

def readMethod (j : Json) : Option (SearchMethod Float) := do
  let (name, content) ← variant? j
  if name = bruteForceName then
    match content with
    | .null => some .bruteForce
    | _ => none
  else if name = geneticName then
    let r ← Record.of? ["ga_params"] content
    some (.genetic (← r.required "ga_params" readGenetic))
  else none

def readParameter (j : Json) : Option (ParameterChoice Float) := do
  let r ← Record.of? ["name", "index", "start", "step", "stop"] j
  some
    { name := ← r.optional "name" none (absent? text?)
      index := ← r.optional "index" none (absent? (natural? 64))
      start := ← r.required "start" number?
      step := ← r.required "step" number?
      stop := ← r.required "stop" number? }

def readSearch (j : Json) : Option (SearchSettings Float) := do
  let r ← Record.of? ["optimizer_type", "optimization_goal", "params"] j
  some
    { method := ← r.required "optimizer_type" readMethod
      goal := ← r.optional "optimization_goal" .growthToDrawdown readGoal
      parameters := ← r.optional "params" [] (list? readParameter) }

def read? (text : String) : Option (RunConfig Float) := do
  let r ← Record.of? ["common", "systems", "optimization"] (← Json.read? text)
  some
    { common := ← r.required "common" readCommon
      systems := ← r.required "systems" (list? readSystem)
      search := ← r.optional "optimization" none (absent? readSearch) }

end Config
end Backtest
