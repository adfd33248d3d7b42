import Backtest.Random.Draw
import Backtest.Search.Score
import Backtest.Search.Settings

namespace Backtest

/-- One gene for each parameter: the index of a value in the parameter's list. -/
abbrev Genes := List Nat

structure Individual (α : Type) where
  genes : Genes
  score : Score α
  value : α
deriving Repr

namespace Genetic

variable {α ρ : Type} [Arith α] [RandomSource ρ]

/-- A population shared out among islands as evenly as possible, at least one individual on each. -/
def islandShares (g : GeneticSettings α) : List Nat :=
  let islands := max g.islands 1
  let size := max g.population islands
  (List.range islands).map fun i => size / islands + if i < size % islands then 1 else 0

def randomGenes (sizes : List Nat) : Rand ρ Genes := sizes.mapM Rand.below

def randomIslands (g : GeneticSettings α) (sizes : List Nat) : Rand ρ (List (List Genes)) :=
  (islandShares g).mapM fun n => (List.replicate n sizes).mapM randomGenes

def best (island : List (Individual α)) : Option (Individual α) := lastBest Individual.score island

/-- Puts a migrant in the place of the first of the worst. -/
def replaceWorst (island : List (Individual α)) (migrant : Option (Individual α)) :
    List (Individual α) :=
  match migrant, firstWorst (fun p => p.1.score) island.zipIdx with
  | some m, some (_, i) => island.set i m
  | _, _ => island

def rotate {β : Type} (xs : List β) : List β := xs.getLast?.toList ++ xs.dropLast

/-- With some chance the best of each island replaces the worst of the next one, in a ring. -/
def migrate (g : GeneticSettings α) (islands : List (List (Individual α))) :
    Rand ρ (List (List (Individual α))) :=
  if islands.length < 2 || g.migrationChance ≤ 0 then return islands
  else do
    if ← Rand.chance (Arith.smaller g.migrationChance 1) then
      return List.zipWith replaceWorst islands (rotate (islands.map best))
    else return islands

/-- The better of two individuals drawn at random, the first one at a draw. -/
def drawParent (island : List (Individual α)) : Rand ρ Genes := do
  let a ← Breach.pick island (← Rand.below island.length)
  let b ← Breach.pick island (← Rand.below island.length)
  return if a.score.below b.score then b.genes else a.genes

def probability (p : α) : α := if p < 0 then 0 else if p > 1 then 1 else p

/-- Genes of two parents mixed. Behind a cut, as many are taken over as are replaced. -/
def cross (mode : Crossover) (a b : Genes) : Rand ρ Genes :=
  match mode with
  | .uniform => (a.zip b).mapM fun (x, y) => do
    return if ← Rand.chance (0.5 : α) then y else x
  | .singlePoint => do
    let cut ← Rand.below (a.length + 1)
    if a.length = b.length then return a.take cut ++ b.drop cut else throw .outOfBounds

/-- A gene moved within a range of at least two values. -/
def mutateGene (mode : Mutation) (size gene : Nat) : Rand ρ Nat :=
  match mode with
  | .uniform => Rand.below size
  | .step =>
    if gene = 0 then return gene + 1
    else if gene + 1 < size then do
      return if ← Rand.chance (0.5 : α) then gene + 1 else gene - 1
    else return gene - 1

def mutate (g : GeneticSettings α) (sizes : List Nat) (genes : Genes) : Rand ρ Genes :=
  (genes.zip sizes).mapM fun (gene, size) =>
    if size < 2 then return gene
    else do
      if ← Rand.chance (probability g.mutationChance) then
        mutateGene (α := α) g.mutation size gene
      else return gene

def breed (g : GeneticSettings α) (sizes : List Nat) (a b : Genes) : Rand ρ Genes := do
  let child ← if ← Rand.chance (probability g.crossoverChance) then cross (α := α) g.crossover a b
    else pure a
  mutate g sizes child

def child (g : GeneticSettings α) (sizes : List Nat) (island : List (Individual α)) :
    Rand ρ Genes := do
  let a ← drawParent island
  let b ← drawParent island
  breed g sizes a b

def nextIsland (g : GeneticSettings α) (sizes : List Nat) (island : List (Individual α)) :
    Rand ρ (List Genes) := do
  let kept := if g.elitism then (best island).toList.map Individual.genes else []
  let children ← (List.replicate (island.length - kept.length) ()).mapM fun _ =>
    child g sizes island
  return kept ++ children

/-- The next generation: migration, and then each island by itself. -/
def nextIslands (g : GeneticSettings α) (sizes : List Nat)
    (islands : List (List (Individual α))) : Rand ρ (List (List Genes)) := do
  (← migrate g islands).mapM (nextIsland g sizes)

end Genetic
end Backtest
