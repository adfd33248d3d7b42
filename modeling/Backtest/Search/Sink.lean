import Backtest.Fault
import Backtest.Report.Evaluations
import Backtest.Search.Parameter
import Backtest.StopPoint
import Backtest.RunFigures

namespace Backtest

/-- A completed evaluation as it is announced, with the number expected in all. -/
structure SearchEvent (α : Type) where
  iteration : Nat
  total : Nat
  parameters : Assignment α
  result : RunFigures α
deriving Repr

structure Evaluation (α : Type) where
  iteration : Nat
  parameters : Assignment α
  result : RunFigures α
  fitness : α
deriving Repr

class RowWriter (α τ : Type) where
  addRow : τ → Nat → Assignment α → RunFigures α → τ × Option (Fault α)

instance {α : Type} : RowWriter α Unit := ⟨fun _ _ _ _ => ((), none)⟩

instance : RowWriter Float EvaluationTable := ⟨EvaluationTable.addRow⟩

structure Sink (α τ : Type) where
  goal : Goal
  total : Nat
  iterations : Nat
  rows : τ
  events : Array (SearchEvent α)
deriving Repr

namespace Sink

variable {α τ : Type}

def start (goal : Goal) (rows : τ) : Sink α τ := ⟨goal, 0, 0, rows, #[]⟩

variable [Arith α] [RowWriter α τ]

/-- Numbers an evaluation, writes its row and announces it. It is not announced if its row fails. -/
def record (s : Sink α τ) (parameters : Assignment α) (result : RunFigures α) :
    Sink α τ × Except (Fault α) (Evaluation α) :=
  let iteration := s.iterations + 1
  let (rows, fault) := RowWriter.addRow s.rows iteration parameters result
  let s := { s with iterations := iteration, rows := rows }
  match fault with
  | some f => (s, .error f)
  | none =>
    ({ s with events := s.events.push ⟨iteration, s.total, parameters, result⟩ },
     .ok ⟨iteration, parameters, result, result.goalFigure s.goal⟩)

end Sink

/-- Runs one candidate; `σ` is what candidates leave behind. -/
abbrev CandidateTrial (α σ : Type) := σ → Assignment α → σ × Except (Fault α) (RunFigures α)

structure SearchState (α σ τ : Type) where
  shared : σ
  sink : Sink α τ

namespace SearchState

variable {α σ τ : Type} [Arith α] [RowWriter α τ]

def evaluate (run : CandidateTrial α σ) (s : SearchState α σ τ) (c : Assignment α) :
    SearchState α σ τ × Except (Fault α) (Evaluation α) :=
  match run s.shared c with
  | (shared, .error f) => ({ s with shared := shared }, .error f)
  | (shared, .ok result) =>
    let (sink, e) := s.sink.record c result
    (⟨shared, sink⟩, e)

/-- Evaluates candidates in order. None starts after a stop, and a fault ends the batch. -/
def evaluateAll (run : CandidateTrial α σ) (stop : StopPoint) :
    SearchState α σ τ → List (Assignment α) →
      SearchState α σ τ × Except (Fault α) (List (Evaluation α))
  | s, [] => (s, .ok [])
  | s, c :: rest =>
    if stop.isReached s.sink.iterations then (s, .ok [])
    else
      match s.evaluate run c with
      | (s, .error f) => (s, .error f)
      | (s, .ok e) =>
        match evaluateAll run stop s rest with
        | (s, .ok es) => (s, .ok (e :: es))
        | (s, .error f) => (s, .error f)

end SearchState
end Backtest
