import Backtest.Proofs.Search.Stopping

namespace Backtest

section Announcing

variable {α σ τ ρ : Type} [Arith α] [RowWriter α τ]

/-- The total of a sink, and of all events that it has announced. -/
structure Sink.Announces (n : Nat) (s : Sink α τ) : Prop where
  total : s.total = n
  events : ∀ e ∈ s.events.toList, e.total = n

omit [Arith α] [RowWriter α τ] in
theorem Sink.start_announces (goal : Goal) (rows : τ) (n : Nat) :
    Sink.Announces n { Sink.start (α := α) goal rows with total := n } :=
  ⟨rfl, List.forall_mem_nil _⟩

theorem Sink.Announces.record {n : Nat} {s : Sink α τ} (h : s.Announces n) (c : Assignment α)
    (r : RunFigures α) : (s.record c r).1.Announces n := by
  unfold Sink.record
  dsimp only
  split
  next => exact ⟨h.total, h.events⟩
  next =>
    refine ⟨h.total, fun e he => ?_⟩
    rw [Array.toList_push, List.mem_append, List.mem_singleton] at he
    rcases he with he | rfl
    · exact h.events e he
    · exact h.total

def Sink.Kept (P : Sink α τ → Prop) : Prop := ∀ s c r, P s → P (s.record c r).1

theorem Sink.announces_kept (n : Nat) : Sink.Kept (α := α) (τ := τ) (Sink.Announces n) :=
  fun _ c r h => h.record c r

namespace Sink.Kept

variable {P : Sink α τ → Prop} (run : CandidateTrial α σ)

theorem evaluate (kept : Sink.Kept P) {s : SearchState α σ τ} (h : P s.sink) (c : Assignment α) :
    P (s.evaluate run c).1.sink := by
  unfold SearchState.evaluate
  split
  next => exact h
  next => exact kept _ _ _ h

theorem evaluateAll (kept : Sink.Kept P) {s : SearchState α σ τ} (h : P s.sink) (stop : StopPoint)
    (cs : List (Assignment α)) : P (s.evaluateAll run stop cs).1.sink := by
  induction cs generalizing s with
  | nil => exact h
  | cons c cs ih =>
    have one : P (s.evaluate run c).1.sink := kept.evaluate run h c
    unfold SearchState.evaluateAll
    split
    next => exact h
    next =>
      split
      next evaluated =>
        rw [evaluated] at one
        exact one
      next evaluated =>
        rw [evaluated] at one
        have rest := ih one
        split
        next evaluated' =>
          rw [evaluated'] at rest
          exact rest
        next evaluated' =>
          rw [evaluated'] at rest
          exact rest

theorem noteGeneration (kept : Sink.Kept P) {p : Genetic.Problem α} {number : Nat}
    {s : Genetic.State α σ τ ρ} (h : P s.search.sink) :
    P (Genetic.noteGeneration p run number s).1.search.sink := by
  have scored : P (Genetic.scoreGeneration p run s).1.search.sink := by
    unfold Genetic.scoreGeneration
    dsimp only
    split
    next => exact h
    next batch _ =>
      have all := kept.evaluateAll run h none batch
      split
      next evaluated =>
        rw [evaluated] at all
        exact all
      next evaluated =>
        rw [evaluated] at all
        exact all
  unfold Genetic.noteGeneration
  split
  next hscored =>
    rw [hscored] at scored
    exact scored
  next hscored =>
    rw [hscored] at scored
    split
    next => exact scored
    next => exact scored

variable [RandomSource ρ]

theorem generations (kept : Sink.Kept P) {p : Genetic.Problem α} (stop : StopPoint)
    (left number : Nat) {s : Genetic.State α σ τ ρ} (h : P s.search.sink) :
    P (Genetic.generations p run stop left number s).1.search.sink := by
  induction left generalizing number s with
  | zero => exact h
  | succ left ih =>
    have one : P (Genetic.noteGeneration p run number s).1.search.sink := kept.noteGeneration run h
    unfold Genetic.generations
    split
    next => exact h
    next =>
      split
      next noted =>
        rw [noted] at one
        exact one
      next noted =>
        rw [noted] at one
        split
        next => exact one
        next =>
          split
          next => exact one
          next =>
            split
            next => exact one
            next =>
              split
              next => exact one
              next hbred =>
                obtain ⟨_, _, _, -, -, rfl⟩ := Genetic.bred_eq_ok.mp hbred
                exact ih _ one

/-- What recording keeps, a search keeps from its opening on, also if it ends on a fault. -/
theorem search (kept : Sink.Kept P) {p : Genetic.Problem α} (hp : p.parameters ≠ []) (stop : StopPoint)
    {source : ρ} {start : SearchState α σ τ} {s : Genetic.State α σ τ ρ}
    (opened : Genetic.opening p source start = .ok s) (h : P s.search.sink) :
    P (Genetic.search p run stop source start).1.sink := by
  have all := kept.generations (p := p) run stop p.settings.generations 0 h
  rw [Genetic.search_of_opening hp opened]
  split
  next ended =>
    rw [ended] at all
    exact all
  next ended =>
    rw [ended] at all
    exact all

end Sink.Kept

theorem bruteForce_announces {parameters : List (Parameter α)} (hp : parameters ≠ [])
    {points : List (Assignment α)} (hpoints : grid parameters = .ok points) (run : CandidateTrial α σ)
    (stop : StopPoint) (shared : σ) (goal : Goal) (rows : τ) :
    (bruteForce parameters run stop ⟨shared, .start goal rows⟩).1.sink.Announces points.length := by
  rw [bruteForce_of_points hp hpoints]
  exact (Sink.announces_kept _).evaluateAll run (Sink.start_announces goal rows _) stop _

end Announcing

namespace Genetic

section Search

variable {α σ τ ρ : Type} [Arith α] [RowWriter α τ] [RandomSource ρ] {p : Problem α}
  {run : CandidateTrial α σ}

theorem search_announces (hp : p.parameters ≠ []) {total : Nat} (counted : p.total = .ok total)
    (run : CandidateTrial α σ) (stop : StopPoint) (source : ρ) (shared : σ) (goal : Goal) (rows : τ) :
    (search p run stop source ⟨shared, .start goal rows⟩).1.sink.Announces total := by
  obtain ⟨s, opened⟩ := exists_opening counted source (⟨shared, .start goal rows⟩ : SearchState α σ τ)
  obtain ⟨_, total', _, _, -, counted', -, rfl⟩ := opening_eq_ok.mp opened
  cases counted.symm.trans counted'
  exact (Sink.announces_kept total).search run hp stop opened (Sink.start_announces goal rows total)

theorem Explored.evaluations_ne_nil {source : ρ} {start : SearchState α σ τ} {tried : List Genes}
    {number n : Nat} {s : State α σ τ ρ} {islands : List (List (Individual α))}
    (h : Explored p run source start tried number s) (evaluates : Evaluates p run source start n islands)
    (hn : n < number) : s.report.evaluations ≠ [] := by
  obtain ⟨i, hi⟩ := evaluates.exists_individual
  obtain ⟨e, he, -⟩ := (h.keeps _ _).mp (h.rated n hn islands evaluates i hi)
  exact List.ne_nil_of_mem (List.of_mem_zip he).2

/-- A search without faults that is left a generation, and is not stopped before it, evaluates someone, and
announces all that it evaluates. -/
theorem search_starts (hp : p.parameters ≠ []) {total : Nat} (counted : p.total = .ok total)
    (faultless : Faultless run τ) (hg : p.settings.generations ≠ 0) {stop : StopPoint}
    (unstopped : stop.isReached 0 = false) (source : ρ) (shared : σ) (goal : Goal) (rows : τ) :
    ∃ outcome, (search p run stop source ⟨shared, .start goal rows⟩).2 = .ok outcome ∧
      outcome.generations ≠ [] ∧ outcome.evaluations ≠ [] ∧
      (search p run stop source ⟨shared, .start goal rows⟩).1.sink.events.toList =
        outcome.evaluations.map (·.announced total) := by
  let start : SearchState α σ τ := ⟨shared, .start goal rows⟩
  obtain ⟨outcome, n, t, searched, ends, reach, -, evaluations, count⟩ :=
    searchPolled_ends counted faultless (pollsOf p run stop source start) source start
  rw [← search_eq_polled hp stop] at searched
  obtain ⟨s₀, opened, delivered⟩ := reach.delivered
  have going : (pollsOf p run stop source start).before 0 = false := by
    rw [(ComesTo.first opened).pollsOf_before stop]
    obtain ⟨_, _, _, _, -, -, -, rfl⟩ := opening_eq_ok.mp opened
    exact unstopped
  have begun : 0 < n := by
    rcases ends.reason with seen | last | ⟨m, -, rfl, -⟩
    · refine Nat.pos_of_ne_zero fun zero => ?_
      rw [zero, going] at seen
      cases seen
    · omega
    · exact Nat.succ_pos m
  obtain ⟨_, total', _, _, -, counted', -, rfl⟩ := opening_eq_ok.mp opened
  cases counted.symm.trans counted'
  rw [evaluations] at delivered
  have found : (search p run stop source start).2 = .ok outcome := congrArg Prod.snd searched
  obtain ⟨recorded, _, _, -, rfl, explored⟩ := search_explored found
  obtain ⟨islands, _, evaluates, -⟩ := recorded 0 (count ▸ begun)
  refine ⟨_, found, List.ne_nil_of_length_pos (count ▸ begun),
    explored.evaluations_ne_nil evaluates (count ▸ begun), ?_⟩
  rw [searched]
  exact delivered.announced

/-- What a search announces, over parameters whose values can be counted. The points of their grid are the
product of the lengths of the value lists, and a search over the grid announces them all. The size of the grid
is that product where it fits in a word, and cannot be counted where it does not. As long as both the product
and the budget of a genetic search fit, the search announces the smaller of the two, and starts: with a
generation to go, before a stop, and without faults, it has evaluations, and each of them was announced with
this total. If one of the two does not fit, the search breaks off before it has drawn anything. -/
theorem search_total (hp : p.parameters ≠ []) {ranges : List (List α)} (hranges : p.ranges = .ok ranges)
    (run : CandidateTrial α σ) (stop : StopPoint) (source : ρ) (shared : σ) (goal : Goal) (rows : τ) :
    let points := (ranges.map List.length).prod
    let budget := p.settings.population * p.settings.generations
    let start : SearchState α σ τ := ⟨shared, .start goal rows⟩
    (∃ all, grid p.parameters = .ok all ∧ all.length = points) ∧
    (bruteForce p.parameters run stop start).1.sink.Announces points ∧
    (points < wordRange → gridSize p.parameters = .ok points) ∧
    (wordRange ≤ points → gridSize p.parameters = .error .overflow) ∧
    (points < wordRange → budget < wordRange →
      (search p run stop source start).1.sink.Announces (min points budget) ∧
      (Faultless run τ → p.settings.generations ≠ 0 → stop.isReached 0 = false →
        ∃ outcome, (search p run stop source start).2 = .ok outcome ∧ outcome.generations ≠ [] ∧
          outcome.evaluations ≠ [] ∧
          (search p run stop source start).1.sink.events.toList =
            outcome.evaluations.map (·.announced (min points budget)))) ∧
    (wordRange ≤ points ∨ wordRange ≤ budget →
      search p run stop source start = (start, .error (.breach .overflow))) := by
  intro points budget start
  have hgrid := grid_of_ranges hranges
  have length := grid_length hranges hgrid
  have size : gridSize p.parameters = Breach.inWord points := gridSize_of_ranges hp hranges
  have counting := total_of_ranges hp hranges
  refine ⟨⟨_, hgrid, length⟩, ?_, fun fits => ?_, fun wraps => ?_, fun fits fits' => ?_, fun wraps => ?_⟩
  · have announced := bruteForce_announces hp hgrid run stop shared goal rows
    rw [length] at announced
    exact announced
  · exact size.trans (Breach.inWord_eq_ok.mpr ⟨fits, rfl⟩)
  · exact size.trans (Breach.inWord_eq_error.mpr ⟨wraps, rfl⟩)
  · have counted : p.total = .ok (min points budget) := by
      rw [counting, Breach.inWord_eq_ok.mpr ⟨fits, rfl⟩, Breach.inWord_eq_ok.mpr ⟨fits', rfl⟩]
      rfl
    exact ⟨search_announces hp counted run stop source shared goal rows, fun faultless hg unstopped =>
      search_starts hp counted faultless hg unstopped source shared goal rows⟩
  · refine search_of_uncounted hp ?_ run stop source start
    rw [counting, bind_eq_error]
    by_cases fits : points < wordRange
    · refine .inr ⟨points, Breach.inWord_eq_ok.mpr ⟨fits, rfl⟩, bind_eq_error.mpr (.inl ?_)⟩
      exact Breach.inWord_eq_error.mpr ⟨wraps.resolve_left (Nat.not_le_of_lt fits), rfl⟩
    · exact .inl (Breach.inWord_eq_error.mpr ⟨Nat.le_of_not_lt fits, rfl⟩)

end Search

section Sample

theorem bredProblem_ranges : ∃ ranges, bredProblem.ranges = .ok ranges ∧ ranges.map List.length = [11] := by
  refine map_eq_ok.mp ?_
  decide +kernel

/-- Eleven points are fewer than the twenty-four candidates of three generations. -/
theorem bredProblem_total :
    let sink := (search bredProblem (sampleTrial 7) none (ChaCha.Stream.ofSeed 42) sampleStart).1.sink
    sink.total = 11 ∧ ∃ outcome : GeneticOutcome Float,
      (search bredProblem (sampleTrial 7) none (ChaCha.Stream.ofSeed 42) sampleStart).2 = .ok outcome ∧
      outcome.evaluations ≠ [] ∧ sink.events.toList = outcome.evaluations.map (·.announced 11) := by
  obtain ⟨ranges, hranges, lengths⟩ := bredProblem_ranges
  have parameters : bredProblem.parameters ≠ [] := List.cons_ne_nil _ _
  unfold sampleStart
  obtain ⟨-, -, -, -, starts, -⟩ :=
    search_total parameters hranges (sampleTrial 7) none (ChaCha.Stream.ofSeed 42) () .profit ()
  rw [lengths] at starts
  obtain ⟨announced, starts⟩ := starts (by decide) (by decide)
  obtain ⟨outcome, found, -, evaluated, events⟩ :=
    starts (sampleTrial_dependable 7).faultless (by decide) rfl
  exact ⟨announced.total, outcome, found, evaluated, events⟩

/-- Eight settings of 256 values each: as many points as a word has values. -/
def wideProblem : Problem Float :=
  { sampleProblem with parameters := (List.range 8).map fun slot => ⟨slot, 0, 1, 255⟩ }

/-- The points of such a grid cannot be counted, and a search for eight candidates over it breaks off. -/
theorem wideProblem_total :
    (∃ ranges, wideProblem.ranges = .ok ranges ∧ (ranges.map List.length).prod = 2 ^ 64) ∧
    gridSize wideProblem.parameters = .error .overflow ∧
    min (2 ^ 64) (wideProblem.settings.population * wideProblem.settings.generations) = 8 ∧
    search wideProblem (sampleTrial 7) none (ChaCha.Stream.ofSeed 42) sampleStart =
      (sampleStart, .error (.breach .overflow)) := by
  obtain ⟨ranges, hranges, lengths⟩ : ∃ ranges, wideProblem.ranges = .ok ranges ∧
      ranges.map List.length = List.replicate 8 256 := by
    refine map_eq_ok.mp ?_
    decide +kernel
  have points : (ranges.map List.length).prod = 2 ^ 64 := by
    rw [lengths]
    rfl
  have parameters : wideProblem.parameters ≠ [] := List.cons_ne_nil _ _
  have uncounted : Breach.inWord (ranges.map List.length).prod = .error .overflow := by
    rw [points]
    rfl
  have size := (gridSize_of_ranges parameters hranges).trans uncounted
  refine ⟨⟨ranges, hranges, points⟩, size, rfl, search_of_uncounted parameters ?_ _ _ _ _⟩
  rw [total_of_ranges parameters hranges, uncounted]
  rfl

end Sample

end Genetic
end Backtest
