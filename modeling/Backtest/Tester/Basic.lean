import Backtest.Config.Reader
import Backtest.Instance.Basic
import Backtest.Market.Basic

namespace Backtest

inductive RunFault (α : Type) where
  | unreadableConfig
  /-- A search is asked for, but not described. -/
  | noSearch
  /-- A fault, with what was being done when it arose. -/
  | fault (activity : Option String) (f : Fault α)
deriving Repr

namespace RunFault

variable {α β : Type}

def during (activity : String) : Except (Fault α) β → Except (RunFault α) β :=
  Except.mapError (.fault (some activity))

def plain : Except (Fault α) β → Except (RunFault α) β := Except.mapError (.fault none)

def message [Arith α] : RunFault α → String
  | .unreadableConfig => "Failed to parse settings JSON"
  | .noSearch => "Mode 'Optimize' needs an 'optimization' section"
  | .fault none f => f.message
  | .fault (some activity) f => activity ++ "\n\nCaused by:\n    " ++ f.message

end RunFault

abbrev EngineLoader (α σ : Type) := String → Option (Engine α σ)

/-- A run that is ready: nothing is left to load but the engines. -/
structure Tester (α : Type) where
  config : RunConfig α
  scope : RunScope α
  market : Market α

/-- Symbols whose histories must be there: those traded and those required. -/
def RunConfig.symbols {α : Type} (c : RunConfig α) : List String :=
  c.systems.flatMap fun s =>
    s.symbol :: (s.requirements.map (·.symbol)).filter (· ≠ tradedSymbol)

/-- Files that a run may read: the histories it needs, and those that may convert into its currency. -/
def RunConfig.historyPaths (c : RunConfig Float) : List String :=
  let market : Market Float := .empty c.common.historyPath c.common.baseTimeframe
  let legs := c.systems.flatMap fun s =>
    match (conversionsOf s.symbol c.common.accountCurrency : Except (Fault Float) _) with
    | .ok legs => legs.map (·.2)
    | .error _ => []
  (c.symbols ++ legs).eraseDups.map market.historyPath

def RunConfig.ofText (text : String) (cores : Nat) (t : FileTree) :
    Except (RunFault Float) (RunConfig Float × FileTree) :=
  match Config.read? text with
  | none => .error .unreadableConfig
  | some c => RunFault.plain (c.check cores t)

namespace Tester

def prepare (cores : Nat) (t : FileTree) (config : RunConfig Float) :
    Except (RunFault Float) (Tester Float) := do
  let scope ← RunFault.plain (RunScope.ofConfig cores config)
  let market := Market.empty scope.historyPath scope.baseTimeframe
  let market ← RunFault.during ("Failed to load history from " ++ scope.historyPath)
    (market.load t config.symbols)
  match market.loadConversions t scope.accountCurrency scope.symbolsTraded with
  | (market, none) => return ⟨config, scope, market⟩
  | (_, some f) => throw (.fault none f)

variable {α σ : Type} [Arith α]

def plan (common : CommonConfig α) (engine : Engine α σ) (m : Market α) (s : SystemConfig α) :
    Market α × Except (Fault α) (InstancePlan α σ) :=
  let (m, rates) := m.buildView s.symbol s.timeframe s.requirements s.account.digits
    common.accountCurrency
  (m, do
    let rates ← rates
    let settings ← s.slots common
    return ⟨s.instanceId, engine, s.engineConfig, settings, s.account, rates⟩)

def planAll (common : CommonConfig α) (engines : EngineLoader α σ) :
    Market α → List (SystemConfig α) → Except (RunFault α) (List (InstancePlan α σ))
  | _, [] => .ok []
  | m, s :: rest =>
    match engines s.enginePath with
    | none => .error (.fault (some ("Failed to load strategy framework " ++ s.enginePath)) .library)
    | some e => do
      let (m, made) := plan common e m s
      let first ← RunFault.plain made
      return first :: (← planAll common engines m rest)

def plans (x : Tester α) (engines : EngineLoader α σ) :
    Except (RunFault α) (List (InstancePlan α σ)) :=
  planAll x.config.common engines x.market x.config.systems

end Tester
end Backtest
