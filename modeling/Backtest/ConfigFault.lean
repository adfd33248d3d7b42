namespace Backtest

inductive ConfigFault where
  | zeroThreads
  | unknownMode
  | nonPositiveBalance
  | currencyLength (currency : String)
  | zeroBaseTimeframe
  | unreadableDate (date : String)
  | noSystems
  | noRequirements (instanceId : Int)
  | emptyRequirement (instanceId : Int) (symbol : String)
  | unknownSetting (name : String)
  | accountNotPositive (instanceId : Int)
  | workerOutOfRange (instanceId : Int) (worker : Nat)
  | stepNotPositive
  | stopBelowStart
  | slotOutOfRange (index : Nat)
  | unknownParameter (name : String)
  | unnamedParameter
  | emptyPopulation
  | noGenerations
  | islandCount
  | probability (name : String)
  | emptyExitPath
  | exitPathNotDirectory
  /-- A reason that a candidate's evaluation gives in its own words. -/
  | stated (reason : String)
deriving Repr, DecidableEq

namespace ConfigFault

def dateText (date : String) : String :=
  "Unrecognised date '" ++ date ++ "'. Use dd/mm/yy or YYYY-MM-DD"

def text : ConfigFault → String
  | .zeroThreads => "'threads' cannot be zero"
  | .unknownMode => "wrong mode setting, use one of [\"Debug\", \"Optimize\"]"
  | .nonPositiveBalance => "initial_balance must be positive"
  | .currencyLength currency => "account_currency '" ++ currency ++ "' must be a 3 letter code"
  | .zeroBaseTimeframe => "base_timeframe must be at least 1 minute"
  | .unreadableDate date => dateText date
  | .noSystems => "provide at least one system"
  | .noRequirements id => "system " ++ toString id ++ " declares no rate requirements"
  | .emptyRequirement id symbol => "system " ++ toString id ++ " requires zero bars of " ++ symbol
  | .unknownSetting name => "unknown setting '" ++ name ++ "'"
  | .accountNotPositive id =>
    "system " ++ toString id ++ ": contract_size, leverage and min_lot_size must be positive"
  | .workerOutOfRange id worker =>
    "instance " ++ toString id ++ " cannot hold candidate ids for worker " ++ toString worker
  | .stepNotPositive => "optimization step must be positive"
  | .stopBelowStart => "optimization stop must not be below start"
  | .slotOutOfRange index => "optimization index " ++ toString index ++ " out of range"
  | .unknownParameter name => "unknown optimization setting '" ++ name ++ "'"
  | .unnamedParameter => "optimization param needs 'name' or 'index'"
  | .emptyPopulation => "GA population_size must be greater than 0"
  | .noGenerations => "GA max_generations must be greater than 0"
  | .islandCount => "GA islands must be between 1 and population_size"
  | .probability name => "GA " ++ name ++ " must be between 0.0 and 1.0"
  | .emptyExitPath => "exit path cannot be empty"
  | .exitPathNotDirectory => "exit path is not a directory"
  | .stated reason => reason

end ConfigFault
end Backtest
