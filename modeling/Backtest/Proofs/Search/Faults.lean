import Backtest.Proofs.History.Increasing
import Backtest.Proofs.Search.Batch

namespace Backtest

/-- The faults of candidates and of their rows are of one kind, and so is a computation that breaks off. -/
structure FailsWith {α σ : Type} (P : Fault α → Prop) (run : CandidateTrial α σ) (τ : Type)
    [RowWriter α τ] : Prop where
  ran : ∀ shared c f, (run shared c).2 = .error f → P f
  written : ∀ (rows : τ) n c r f, (RowWriter.addRow rows n c r).2 = some f → P f
  broken : ∀ b, P (.breach b)

variable {α σ τ ρ : Type} [Arith α] [RowWriter α τ] [RandomSource ρ] {P : Fault α → Prop}
  {run : CandidateTrial α σ} {f : Fault α}

namespace FailsWith

omit [Arith α] in
theorem failsAt (h : FailsWith P run τ) {s s' : SearchState α σ τ} {c : Assignment α}
    (fails : FailsAt run s c f s') : P f := by
  rcases fails with ⟨failed, -⟩ | ⟨r, -, row, -⟩
  · exact h.ran _ _ _ (congrArg Prod.snd failed)
  · exact h.written _ _ _ _ _ (congrArg Prod.snd row)

theorem evaluateAll (h : FailsWith P run τ) {stop : StopPoint} {s : SearchState α σ τ}
    {cs : List (Assignment α)} (failed : (s.evaluateAll run stop cs).2 = .error f) : P f := by
  obtain ⟨s', es, -, -, -, ⟨out, -⟩ | ⟨s'', c, g, out, -, -, fails⟩⟩ :=
    s.evaluateAll_delivers run stop cs
  · rw [out] at failed
    cases failed
  · rw [out] at failed
    cases failed
    exact h.failsAt fails

theorem bruteForce (h : FailsWith P run τ) {parameters : List (Parameter α)} (hp : parameters ≠ [])
    {stop : StopPoint} {start : SearchState α σ τ}
    (failed : (bruteForce parameters run stop start).2 = .error f) : P f := by
  cases hpoints : grid parameters with
  | error b =>
    rw [bruteForce_of_error hp hpoints] at failed
    cases failed
    exact h.broken b
  | ok points =>
    rw [bruteForce_of_points hp hpoints] at failed
    exact h.evaluateAll failed

omit [RandomSource ρ] in
theorem noteGeneration (h : FailsWith P run τ) {p : Genetic.Problem α} {number : Nat}
    {s : Genetic.State α σ τ ρ} (failed : (Genetic.noteGeneration p run number s).2 = .error f) : P f := by
  unfold Genetic.noteGeneration at failed
  split at failed
  next scored g hscored =>
    cases failed
    unfold Genetic.scoreGeneration at hscored
    dsimp only at hscored
    split at hscored
    next b _ =>
      cases hscored
      exact h.broken b
    next =>
      split at hscored
      next evaluated =>
        cases hscored
        exact h.evaluateAll (congrArg Prod.snd evaluated)
      next => cases hscored
  next =>
    split at failed
    next b _ =>
      cases failed
      exact h.broken b
    next => cases failed

theorem generations (h : FailsWith P run τ) {p : Genetic.Problem α} {stop : StopPoint}
    {left number : Nat} {s : Genetic.State α σ τ ρ}
    (failed : (Genetic.generations p run stop left number s).2 = some f) : P f := by
  induction left generalizing number s with
  | zero => cases failed
  | succ left ih =>
    unfold Genetic.generations at failed
    split at failed
    next => cases failed
    next =>
      split at failed
      next s' g hnoted =>
        cases failed
        exact h.noteGeneration (congrArg Prod.snd hnoted)
      next =>
        split at failed
        next => cases failed
        next =>
          split at failed
          next => cases failed
          next =>
            split at failed
            next => cases failed
            next =>
              split at failed
              next b _ =>
                cases failed
                exact h.broken b
              next => exact ih failed

theorem search (h : FailsWith P run τ) {p : Genetic.Problem α} (hp : p.parameters ≠ [])
    {stop : StopPoint} {source : ρ} {start : SearchState α σ τ}
    (failed : (Genetic.search p run stop source start).2 = .error f) : P f := by
  cases opened : Genetic.opening p source start with
  | error b =>
    rw [Genetic.search_of_breach hp opened] at failed
    cases failed
    exact h.broken b
  | ok s =>
    rw [Genetic.search_of_opening hp opened] at failed
    split at failed
    next => cases failed
    next s' g ended =>
      cases failed
      exact h.generations (congrArg Prod.snd ended)

theorem runSearch (h : FailsWith P run τ) {settings : SearchSettings α} {parameters : List (Parameter α)}
    (resolved : settings.resolve = .ok parameters) (hp : parameters ≠ []) {entropy : Nat}
    {stop : StopPoint} {start : SearchState α σ τ}
    (failed : (runSearch entropy settings run stop start).2 = .error f) : P f := by
  unfold Backtest.runSearch at failed
  rw [resolved] at failed
  dsimp only at failed
  split at failed
  next => exact h.bruteForce hp (map_eq_error.mp failed)
  next g _ => exact h.search (p := ⟨parameters, g, settings.goal⟩) hp (map_eq_error.mp failed)

end FailsWith
end Backtest
