import Backtest.Search.Genetic.Breeding
import Backtest.Search.Sink
import Std.Data.HashMap

namespace Backtest

structure Generation (α : Type) where
  number : Nat
  best : α
  worst : α
  mean : α
  bestCandidate : Option (Assignment α)
deriving Repr

structure GeneticOutcome (α : Type) where
  generations : List (Generation α)
  evaluations : List (Evaluation α)
  converged : Bool
deriving Repr

namespace Genetic

abbrev Bank (α : Type) := Std.HashMap Genes (Score α × α)

structure Problem (α : Type) where
  parameters : List (Parameter α)
  settings : GeneticSettings α
  goal : Goal

section Problem

variable {α : Type} [Arith α]

def Problem.ranges (p : Problem α) : Except Breach (List (List α)) := p.parameters.mapM Parameter.values

def Problem.sizes (p : Problem α) : Except Breach (List Nat) := do
  let ranges ← p.ranges
  return ranges.map List.length

/-- The evaluations that a search expects: no more than the grid has points, and no more than all
generations have candidates. -/
def Problem.total (p : Problem α) : Except Breach Nat := do
  let points ← gridSize p.parameters
  let budget ← Breach.inWord (p.settings.population * p.settings.generations)
  return min points budget

def Problem.candidate (p : Problem α) (genes : Genes) : Except Breach (Assignment α) := do
  let ranges ← p.ranges
  let values ← (ranges.zip genes).mapM fun (range, gene) => Breach.pick range gene
  return (p.parameters.map (·.index)).zip values

/-- Whether a result counts: it did not fail, and it trades often enough. -/
def Problem.counts (p : Problem α) (r : RunFigures α) : Bool :=
  r.failure.isNone &&
    !(p.settings.minTradesPerYear > 0 && r.yearlyTrades < p.settings.minTradesPerYear)

def Problem.score (p : Problem α) (r : RunFigures α) : Score α × α :=
  let value := r.goalFigure p.goal
  (if p.counts r then .ofValue p.goal value else .penalised, value)

def counting (islands : List (List (Individual α))) : List (Individual α) :=
  islands.flatten.filter fun i => match i.score with
    | .reached _ => true
    | .penalised => false

def Problem.figures (p : Problem α) (number : Nat) (values : List α) (best : Option (Assignment α)) :
    Generation α :=
  match values with
  | [] => ⟨number, 0, 0, 0, best⟩
  | x :: xs =>
    let most := xs.foldl Arith.larger x
    let least := xs.foldl Arith.smaller x
    let mean := Arith.total (x :: xs) / Arith.ofCount (x :: xs).length
    if p.goal.prefersLess then ⟨number, least, most, mean, best⟩
    else ⟨number, most, least, mean, best⟩

/-- Figures of a generation. Of several best candidates the last one is named. -/
def Problem.generation (p : Problem α) (number : Nat) (islands : List (List (Individual α))) :
    Except Breach (Generation α) := do
  let best ← (lastBest Individual.score (counting islands)).mapM fun i => p.candidate i.genes
  return p.figures number ((counting islands).map Individual.value) best

end Problem

section Converged

variable {α : Type} [Arith α]

/-- Whether all individuals are alike, or all scores match the first one. -/
def hasConverged (islands : List (List (Individual α))) : Bool :=
  match islands.flatten with
  | [] => true
  | first :: rest =>
    rest.all (·.genes == first.genes) ||
      (first :: rest).all fun i => first.score.matchesFirst i.score

end Converged

/-- The genes on the islands that are not in the bank, each once. -/
def pending {α : Type} (bank : Bank α) (islands : List (List Genes)) : List Genes :=
  (islands.flatten.filter (!bank.contains ·)).eraseDups

def scored {α : Type} [Arith α] (bank : Bank α) (islands : List (List Genes)) :
    List (List (Individual α)) :=
  islands.map fun island => island.map fun genes =>
    let (score, value) := bank.getD genes (.penalised, 0)
    ⟨genes, score, value⟩

structure State (α σ τ ρ : Type) where
  search : SearchState α σ τ
  source : ρ
  bank : Bank α
  islands : List (List Genes)
  report : GeneticOutcome α

variable {α σ τ ρ : Type} [Arith α] [RowWriter α τ] [RandomSource ρ]

def opening (p : Problem α) (source : ρ) (start : SearchState α σ τ) :
    Except Breach (State α σ τ ρ) := do
  let sizes ← p.sizes
  let total ← p.total
  let (islands, source) ← (randomIslands p.settings sizes).run source
  return {
    search := { start with sink := { start.sink with total := total } }
    source := source
    bank := ∅
    islands := islands
    report := ⟨[], [], false⟩ }

/-- Evaluates the genes that are new and scores every island. A generation is evaluated in full, also
when a stop is requested meanwhile. -/
def scoreGeneration (p : Problem α) (run : CandidateTrial α σ) (s : State α σ τ ρ) :
    State α σ τ ρ × Except (Fault α) (List (List (Individual α))) :=
  let fresh := pending s.bank s.islands
  match fresh.mapM p.candidate with
  | .error b => (s, .error (.breach b))
  | .ok batch =>
    match s.search.evaluateAll run none batch with
    | (search, .error f) => ({ s with search := search }, .error f)
    | (search, .ok es) =>
      let bank := (fresh.zip es).foldl (fun bank (genes, e) => bank.insert genes (p.score e.result)) s.bank
      let report := { s.report with evaluations := s.report.evaluations ++ es }
      ({ s with search := search, bank := bank, report := report }, .ok (scored bank s.islands))

def State.noting (figures : Generation α) (s : State α σ τ ρ) : State α σ τ ρ :=
  { s with report := { s.report with generations := s.report.generations ++ [figures] } }

def noteGeneration (p : Problem α) (run : CandidateTrial α σ) (number : Nat) (s : State α σ τ ρ) :
    State α σ τ ρ × Except (Fault α) (List (List (Individual α))) :=
  match scoreGeneration p run s with
  | (s, .error f) => (s, .error f)
  | (s, .ok islands) =>
    match p.generation number islands with
    | .error b => (s, .error (.breach b))
    | .ok figures => (s.noting figures, .ok islands)

def State.bred (p : Problem α) (islands : List (List (Individual α))) (s : State α σ τ ρ) :
    Except Breach (State α σ τ ρ) := do
  let sizes ← p.sizes
  let (next, source) ← (nextIslands p.settings sizes islands).run s.source
  return { s with source := source, islands := next }

/-- Runs generations until none is left, a stop is requested, or the population has converged. -/
def generations (p : Problem α) (run : CandidateTrial α σ) (stop : StopPoint) :
    Nat → Nat → State α σ τ ρ → State α σ τ ρ × Option (Fault α)
  | 0, _, s => (s, none)
  | left + 1, number, s =>
    if stop.isReached s.search.sink.iterations then (s, none)
    else
      match noteGeneration p run number s with
      | (s, .error f) => (s, some f)
      | (s, .ok islands) =>
        if stop.isReached s.search.sink.iterations then (s, none)
        else if p.settings.stopIfConverged && hasConverged islands then
          ({ s with report := { s.report with converged := true } }, none)
        else if left = 0 then (s, none)
        else
          match s.bred p islands with
          | .error b => (s, some (.breach b))
          | .ok s => generations p run stop left (number + 1) s

def search (p : Problem α) (run : CandidateTrial α σ) (stop : StopPoint) (source : ρ)
    (start : SearchState α σ τ) : SearchState α σ τ × Except (Fault α) (GeneticOutcome α) :=
  if p.parameters.isEmpty then (start, .error .noParameters)
  else
    match opening p source start with
    | .error b => (start, .error (.breach b))
    | .ok s =>
      match generations p run stop p.settings.generations 0 s with
      | (s, none) => (s.search, .ok s.report)
      | (s, some f) => (s.search, .error f)

end Genetic

/-- The candidate with the best value of the goal, failures included. -/
def GeneticOutcome.best {α : Type} [Arith α] (r : GeneticOutcome α) (goal : Goal) :
    Option (Evaluation α) :=
  lastBest (fun e => .ofValue goal e.fitness) r.evaluations

end Backtest
