import Backtest.Json.Basic
import Backtest.Search.Settings

namespace Backtest

def GeneticSettings.toJson (g : GeneticSettings Float) : Json :=
  .object
    [("population_size", .integer g.population),
     ("max_generations", .integer g.generations),
     ("crossover_probability", .number g.crossoverChance),
     ("mutation_probability", .number g.mutationChance),
     ("migration_probability", .number g.migrationChance),
     ("islands", .integer g.islands),
     ("elitism", .bool g.elitism),
     ("crossover_mode", .text g.crossover.name),
     ("mutation_mode", .text g.mutation.name),
     ("stop_if_converged", .bool g.stopIfConverged),
     ("min_trades_a_year", .number g.minTradesPerYear),
     ("seed", g.seed.elim .null fun n => .integer n)]

def SearchMethod.toJson : SearchMethod Float → Json
  | .bruteForce => .text bruteForceName
  | .genetic g => .object [(geneticName, .object [("ga_params", g.toJson)])]

end Backtest
