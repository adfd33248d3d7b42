import Backtest.Calendar.Pattern
import Backtest.Config.Basic
import Backtest.Files.Tree
import Backtest.Search.WorkerId

namespace Backtest

variable {α : Type} [Arith α]

namespace CommonConfig

def capThreads (c : CommonConfig α) (cores : Nat) : Except (Fault α) (CommonConfig α) :=
  match c.threads with
  | some 0 => .error (.config .zeroThreads)
  | some n => .ok { c with threads := some (min n cores) }
  | none => .ok c

def checkAccount (c : CommonConfig α) : Except (Fault α) Unit :=
  if c.mode ≠ RunConfig.testMode ∧ c.mode ≠ RunConfig.searchMode then .error (.config .unknownMode)
  else if c.initialBalance ≤ 0 then .error (.config .nonPositiveBalance)
  else if c.accountCurrency.utf8ByteSize ≠ 3 then
    .error (.config (.currencyLength c.accountCurrency))
  else if c.baseTimeframe = 0 then .error (.config .zeroBaseTimeframe)
  else .ok ()

def readDate (date : Option String) : Except (Fault α) (Option Int) :=
  match date with
  | none => .ok none
  | some d =>
    match readRunDate? d with
    | some time => .ok (some time)
    | none => .error (.config (.unreadableDate d))

def checkDates (c : CommonConfig α) : Except (Fault α) Unit := do
  let _ ← readDate (α := α) c.fromDate
  let _ ← readDate (α := α) c.toDate

end CommonConfig

namespace SystemConfig

def checkRequirement (s : SystemConfig α) (base : Nat) (r : Requirement) : Except (Fault α) Unit :=
  if r.timeframe ≠ 0 ∧ r.timeframe < base then .error (.invalidTimeframe base r.timeframe)
  else if r.bars = 0 then .error (.config (.emptyRequirement s.instanceId r.symbol))
  else .ok ()

def checkRequirements (s : SystemConfig α) (base : Nat) : Except (Fault α) Unit :=
  if s.requirements.isEmpty then .error (.config (.noRequirements s.instanceId))
  else if s.requirements.length > maxBuffers then .error (.tooManyBuffers s.requirements.length)
  else if s.timeframe < base then .error (.invalidTimeframe base s.timeframe)
  else s.requirements.forM (s.checkRequirement base)

def checkSettings (s : SystemConfig α) : Except (Fault α) Unit :=
  match s.settings.find? fun (name, _) => (Slot.ofSetting? name).isNone with
  | some (name, _) => .error (.config (.unknownSetting name))
  | none => .ok ()

def checkAccount (s : SystemConfig α) : Except (Fault α) Unit :=
  let a := s.account
  if a.contractSize ≤ 0 ∨ a.leverage ≤ 0 ∨ a.minLot ≤ 0 then
    .error (.config (.accountNotPositive s.instanceId))
  else .ok ()

def check (s : SystemConfig α) (base : Nat) : Except (Fault α) Unit := do
  s.checkRequirements base
  s.checkSettings
  s.checkAccount

def checkAll (base : Nat) : List Int → List (SystemConfig α) → Except (Fault α) Unit
  | _, [] => .ok ()
  | seen, s :: rest => do
    if seen.contains s.instanceId then throw (.duplicateInstance s.instanceId)
    s.check base
    checkAll base (s.instanceId :: seen) rest

end SystemConfig

def ParameterChoice.check (p : ParameterChoice α) : Except (Fault α) Unit :=
  if p.step ≤ 0 then .error (.config .stepNotPositive)
  else if p.stop < p.start then .error (.config .stopBelowStart)
  else .ok ()

namespace GeneticSettings

def checkProbability (name : String) (p : α) : Except (Fault α) Unit :=
  if 0 ≤ p ∧ p ≤ 1 then .ok () else .error (.config (.probability name))

def check (g : GeneticSettings α) : Except (Fault α) Unit := do
  if g.population = 0 then throw (.config .emptyPopulation)
  if g.generations = 0 then throw (.config .noGenerations)
  if g.islands = 0 ∨ g.islands > g.population then throw (.config .islandCount)
  checkProbability "crossover_probability" g.crossoverChance
  checkProbability "mutation_probability" g.mutationChance
  checkProbability "migration_probability" g.migrationChance

end GeneticSettings

def SearchMethod.check : SearchMethod α → Except (Fault α) Unit
  | .bruteForce => .ok ()
  | .genetic g => g.check

namespace RunConfig

def checkSearch (c : RunConfig α) (cores : Nat) : Except (Fault α) Unit :=
  if !c.isSearch then .ok ()
  else
    match c.search with
    | none => .error .noParameters
    | some search => do
      if search.parameters.isEmpty then throw .noParameters
      c.systems.forM fun s => do
        let _ ← workerId (α := α) s.instanceId (c.workers cores - 1)
      search.parameters.forM ParameterChoice.check
      let _ ← search.resolve
      search.method.check

def trimSlashes (path : String) : String :=
  String.ofList (path.toList.reverse.dropWhile (· == '/')).reverse

/-- The directory for results is created if nothing is there. -/
def prepareExit (path : String) (t : FileTree) : Except (Fault α) FileTree :=
  let path := trimSlashes path
  if path.isEmpty then .error (.config .emptyExitPath)
  else if !t.holds path then
    match t.createDirectories path with
    | some t => .ok t
    | none => .error (.files "cannot create a directory")
  else if t.isDirectory path then .ok t
  else .error (.config .exitPathNotDirectory)

def check (c : RunConfig α) (cores : Nat) (t : FileTree) :
    Except (Fault α) (RunConfig α × FileTree) := do
  let c := { c with common := ← c.common.capThreads cores }
  c.common.checkAccount
  c.common.checkDates
  if c.systems.isEmpty then throw (.config .noSystems)
  SystemConfig.checkAll c.common.baseTimeframe [] c.systems
  c.checkSearch cores
  return (c, ← prepareExit c.common.exitPath t)

end RunConfig
end Backtest
