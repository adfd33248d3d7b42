import Backtest.Search.Genetic.Basic

namespace Backtest

variable {α σ τ : Type} [Arith α] [RowWriter α τ]

/-- Evaluates every point of the grid, until a stop is requested. -/
def bruteForce (parameters : List (Parameter α)) (run : CandidateTrial α σ) (stop : StopPoint)
    (start : SearchState α σ τ) : SearchState α σ τ × Except (Fault α) (List (Evaluation α)) :=
  if parameters.isEmpty then (start, .error .noParameters)
  else
    match grid parameters with
    | .error b => (start, .error (.breach b))
    | .ok points =>
      SearchState.evaluateAll run stop
        { start with sink := { start.sink with total := points.length } } points

structure SearchSummary (α : Type) where
  evaluations : List (Evaluation α)
  generations : List (Generation α)
deriving Repr

/-- The candidate with the best value of the goal among those that did not fail. -/
def SearchSummary.best (s : SearchSummary α) (goal : Goal) : Option (Evaluation α) :=
  lastBest (fun e => .ofValue goal e.fitness)
    (s.evaluations.filter fun e => e.result.failure.isNone)

/-- The source of random words of a seed. Without a seed, `entropy` stands for one. -/
def sourceOf (entropy : Nat) (g : GeneticSettings α) : ChaCha.Stream :=
  .ofSeed (g.seed.getD entropy).toUInt64

/-- Runs the search that the settings ask for; without parameters no candidate runs. -/
def runSearch (entropy : Nat) (settings : SearchSettings α) (run : CandidateTrial α σ)
    (stop : StopPoint) (start : SearchState α σ τ) :
    SearchState α σ τ × Except (Fault α) (SearchSummary α) :=
  match settings.resolve with
  | .error f => (start, .error f)
  | .ok parameters =>
    match settings.method with
    | .bruteForce =>
      let (s, found) := bruteForce parameters run stop start
      (s, found.map fun es => ⟨es, []⟩)
    | .genetic g =>
      let (s, report) := Genetic.search ⟨parameters, g, settings.goal⟩ run stop
        (sourceOf entropy g) start
      (s, report.map fun r => ⟨r.evaluations, r.generations⟩)

end Backtest
