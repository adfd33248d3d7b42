import Backtest.Config.Check
import Backtest.Pair

namespace Backtest

structure RunScope (α : Type) where
  initialBalance : α
  accountCurrency : String
  broker : String
  referenceBroker : String
  accountLabel : String
  historyPath : String
  baseTimeframe : Nat
  fromTime : Option Int
  toTime : Option Int
  statistics : StatisticsOptions
  /-- At least one. -/
  threads : Nat
  exitPath : String
  /-- Traded symbols in the order of their instances' ids. -/
  symbols : List (Int × String)
  /-- Conversion histories that may serve a traded symbol. -/
  conversions : List (String × List String)
deriving Repr

namespace RunScope

variable {α : Type}

def start (initialBalance : α) (accountCurrency : String) (baseTimeframe : Nat) : RunScope α where
  initialBalance := initialBalance
  accountCurrency := accountCurrency
  broker := ""
  referenceBroker := ""
  accountLabel := ""
  historyPath := "."
  baseTimeframe := baseTimeframe
  fromTime := none
  toTime := none
  statistics := .standard
  threads := 1
  exitPath := "."
  symbols := []
  conversions := []

def insertSymbol (id : Int) (symbol : String) : List (Int × String) → List (Int × String)
  | [] => [(id, symbol)]
  | entry :: rest =>
    if id < entry.1 then (id, symbol) :: entry :: rest else entry :: insertSymbol id symbol rest

def register (c : RunScope α) (id : Int) (symbol : String) : Except (Fault α) (RunScope α) :=
  if (c.symbols.lookup id).isSome then .error (.duplicateInstance id)
  else do
    let legs ← conversionsOf symbol c.accountCurrency
    let conversions := if (c.conversions.lookup symbol).isSome then c.conversions
      else c.conversions ++ [(symbol, legs.map (·.2))]
    return { c with symbols := insertSymbol id symbol c.symbols, conversions := conversions }

def symbolOf? (c : RunScope α) (id : Int) : Option String := c.symbols.lookup id

def conversionsFor (c : RunScope α) (symbol : String) : List String :=
  (c.conversions.lookup symbol).getD []

def symbolsTraded (c : RunScope α) : List String := (c.symbols.map (·.2)).eraseDups

/-- Engines are called strictly between the two times only. -/
def admitsTime (c : RunScope α) (time : Int) : Bool :=
  c.fromTime.all (· < time) && c.toTime.all (time < ·)

variable [Arith α]

def ofConfig (cores : Nat) (config : RunConfig α) : Except (Fault α) (RunScope α) := do
  let common := config.common
  let fromTime ← CommonConfig.readDate common.fromDate
  let toTime ← CommonConfig.readDate common.toDate
  let c : RunScope α :=
    { start common.initialBalance common.accountCurrency common.baseTimeframe with
      broker := common.broker
      referenceBroker := common.referenceBroker
      accountLabel := common.accountLabel
      historyPath := common.historyPath
      fromTime := fromTime
      toTime := toTime
      statistics := common.statistics
      threads := max (config.workers cores) 1
      exitPath := common.exitPath }
  config.systems.foldlM (fun c s => c.register s.instanceId s.symbol) c

end RunScope
end Backtest
