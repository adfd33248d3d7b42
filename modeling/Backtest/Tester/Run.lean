import Backtest.Instance.Candidate
import Backtest.Portfolio.Report
import Backtest.Report.Figures
import Backtest.Tester.Basic

namespace Backtest

/-- What a run leaves behind: its files, the lines it prints, the state of its engines, and the fault
that ended it early. -/
structure RunOutcome (σ : Type) where
  files : FileTree
  output : String
  world : σ
  fault : Option (RunFault Float)

/-- Writes files in order, until one cannot be written; each comes with the fault for that case. -/
def FileTree.writeAll (t : FileTree) :
    List (String × String × Fault Float) → FileTree × Option (Fault Float)
  | [] => (t, none)
  | (path, text, f) :: rest =>
    match t.write path text.toUTF8 with
    | some t => t.writeAll rest
    | none => (t, some f)

namespace PortfolioSummary

def files (directory : String) (p : PortfolioSummary Float) : List (String × String × Fault Float) :=
  let file (name text : String) (f : Fault Float) := (FileTree.join directory name, text, f)
  let failed : Fault Float := .files "cannot create a file"
  [file "trades.csv" (TradeRow.table (p.instances.flatMap (·.trades))) .table,
   file "balance.csv" (curveTable p.curve) failed,
   file "results.json" p.combined.jsonText failed] ++
  p.instances.flatMap fun i =>
    let id := toString i.instanceId
    [file ("balance_" ++ id ++ ".csv") (curveTable i.curve) failed,
     file ("results_" ++ id ++ ".json") i.result.jsonText failed]

def line (entry : String × String) : String :=
  entry.1 ++ String.ofList (List.replicate (24 - entry.1.length) ' ') ++ entry.2 ++ "\n"

def lines (p : PortfolioSummary Float) : String := String.join (p.combined.display.map line)

end PortfolioSummary

def StopPoint.after (p : StopPoint) (steps : Nat) : StopPoint := p.map (· - steps)

namespace Tester

variable {σ : Type}

def exitDirectory (x : Tester Float) (t : FileTree) : Except (RunFault Float) FileTree :=
  let path := x.scope.exitPath
  match t.createDirectories path with
  | some t => .ok t
  | none => .error (.fault (some ("Failed to create " ++ path)) (.files "cannot create a directory"))

/-- Runs all instances as a portfolio and writes its report. -/
def runTest (x : Tester Float) (plans : List (InstancePlan Float σ)) (stop : StopPoint)
    (t : FileTree) (world : σ) : RunOutcome σ :=
  let c := x.scope
  let start := Portfolio.empty c (EngineHost.empty world EngineHost.standardRetries)
  match plans.foldlM (Portfolio.add c) start with
  | .error f => ⟨t, "", world, some (.fault none f)⟩
  | .ok p =>
    match p.run c stop with
    | (p, some f) => ⟨t, "", p.host.world, some (.fault none f)⟩
    | (p, none) =>
      match x.exitDirectory t with
      | .error f => ⟨t, "", p.host.world, some f⟩
      | .ok t =>
        let report := p.report c
        match t.writeAll (report.files c.exitPath) with
        | (t, some f) => ⟨t, "", p.host.world, some (.fault none f)⟩
        | (t, none) => ⟨t, report.lines, p.host.world, none⟩

/-- Searches the parameters of each instance in turn, with one table for each. -/
def runSearches (x : Tester Float) (search : SearchSettings Float) (entropy : Nat) :
    List (InstancePlan Float σ) → StopPoint → FileTree → σ → RunOutcome σ
  | [], _, t, world => ⟨t, "", world, none⟩
  | s :: rest, stop, t, world =>
    let path := FileTree.join x.scope.exitPath ("optimization_" ++ toString s.instanceId ++ ".csv")
    match t.write path "".toUTF8 with
    | none => ⟨t, "", world, some (.fault none .table)⟩
    | some t =>
      let start : SearchState Float σ EvaluationTable :=
        ⟨world, Sink.start search.goal EvaluationTable.empty⟩
      let (state, found) := runSearch entropy search (s.runCandidate x.scope 0) stop start
      let t := (t.write path state.sink.rows.text.toUTF8).getD t
      match found with
      | .error f => ⟨t, "", state.shared, some (.fault none f)⟩
      | .ok _ =>
        x.runSearches search entropy rest (stop.after state.sink.iterations) t state.shared

/-- Runs a configuration that is ready. `entropy` stands for a seed where none is configured. -/
def run (x : Tester Float) (engines : EngineLoader Float σ) (entropy : Nat) (stop : StopPoint)
    (t : FileTree) (world : σ) : RunOutcome σ :=
  if x.config.isSearch then
    match x.config.search with
    | none => ⟨t, "", world, some .noSearch⟩
    | some search =>
      match x.plans engines with
      | .error f => ⟨t, "", world, some f⟩
      | .ok plans =>
        match x.exitDirectory t with
        | .error f => ⟨t, "", world, some f⟩
        | .ok t => x.runSearches search entropy plans stop t world
  else
    match x.plans engines with
    | .error f => ⟨t, "", world, some f⟩
    | .ok plans => x.runTest plans stop t world

def runText (cores : Nat) (text : String) (engines : EngineLoader Float σ) (entropy : Nat)
    (stop : StopPoint) (t : FileTree) (world : σ) : RunOutcome σ :=
  match RunConfig.ofText text cores t with
  | .error f => ⟨t, "", world, some f⟩
  | .ok (config, t) =>
    match prepare cores t config with
    | .error f => ⟨t, "", world, some f⟩
    | .ok x => x.run engines entropy stop t world

end Tester
end Backtest
