import Backtest.Fault
import Backtest.Goal
import Backtest.Search.Parameter

namespace Backtest

inductive Crossover where
  /-- Each gene from either parent. -/
  | uniform
  /-- All genes behind a cut from the other parent. -/
  | singlePoint
deriving Repr, DecidableEq

namespace Crossover

def all : List Crossover := [.uniform, .singlePoint]

def name : Crossover → String
  | .uniform => "Uniform"
  | .singlePoint => "Single_Point"

end Crossover

inductive Mutation where
  /-- Any value of the range. -/
  | uniform
  /-- A neighbouring value. -/
  | step
deriving Repr, DecidableEq

namespace Mutation

def all : List Mutation := [.uniform, .step]

def name : Mutation → String
  | .uniform => "Uniform"
  | .step => "Step"

end Mutation

structure GeneticSettings (α : Type) where
  population : Nat
  generations : Nat
  crossoverChance : α
  mutationChance : α
  migrationChance : α
  /-- Populations that evolve apart between migrations. -/
  islands : Nat
  /-- Whether the best of an island survives. -/
  elitism : Bool
  crossover : Crossover
  mutation : Mutation
  stopIfConverged : Bool
  /-- Candidates that trade less often are penalised. -/
  minTradesPerYear : α
  seed : Option Nat
deriving Repr

inductive SearchMethod (α : Type) where
  | bruteForce
  | genetic (settings : GeneticSettings α)
deriving Repr

def bruteForceName : String := "Brute_Force"
def geneticName : String := "Genetic"

/-- The range of a setting that is named or numbered; the number counts if both are given. -/
structure ParameterChoice (α : Type) where
  name : Option String
  index : Option Nat
  start : α
  step : α
  stop : α
deriving Repr

structure SearchSettings (α : Type) where
  method : SearchMethod α
  goal : Goal
  parameters : List (ParameterChoice α)
deriving Repr

namespace ParameterChoice

variable {α : Type}

def slot (c : ParameterChoice α) : Except (Fault α) Nat :=
  match c.name, c.index with
  | _, some index =>
    if index < slotCount then .ok index else .error (.config (.slotOutOfRange index))
  | some name, none =>
    match Slot.ofName? name with
    | some slot => .ok slot.val
    | none => .error (.config (.unknownParameter name))
  | none, none => .error (.config .unnamedParameter)

def resolve (c : ParameterChoice α) : Except (Fault α) (Parameter α) := do
  return ⟨← c.slot, c.start, c.step, c.stop⟩

end ParameterChoice

/-- The parameters of a search, or the first fault among their choices. -/
def SearchSettings.resolve {α : Type} (s : SearchSettings α) : Except (Fault α) (List (Parameter α)) :=
  s.parameters.mapM ParameterChoice.resolve

end Backtest
