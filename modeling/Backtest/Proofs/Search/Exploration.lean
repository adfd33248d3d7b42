import Backtest.Proofs.Search.Course
import Backtest.Proofs.Search.Ranges

namespace Backtest

variable {α σ τ ρ : Type} [Arith α] [RowWriter α τ]

/-- A trial that never fails, with rows that can be written. -/
structure Faultless (run : CandidateTrial α σ) (τ : Type) [RowWriter α τ] : Prop where
  ran : ∀ (shared : σ) (c : Assignment α), ∃ r, (run shared c).2 = .ok r
  written : ∀ (rows : τ) (number : Nat) (c : Assignment α) (r : RunFigures α),
    (RowWriter.addRow rows number c r).2 = none

omit [Arith α] in
theorem Dependable.faultless {run : CandidateTrial α σ} {figures : Assignment α → RunFigures α}
    (h : Dependable run figures τ) : Faultless run τ :=
  ⟨fun shared c => ⟨figures c, h.ran shared c⟩, h.written⟩

theorem Faultless.evaluateAll {run : CandidateTrial α σ} (h : Faultless run τ)
    (cs : List (Assignment α)) (s : SearchState α σ τ) :
    ∃ s' es, s.evaluateAll run none cs = (s', .ok es) := by
  have each : ∀ (s : SearchState α σ τ) (c : Assignment α),
      ∃ s' e, s.evaluate run c = (s', .ok e) ∧ True := by
    intro s c
    obtain ⟨r, ran⟩ := h.ran s.shared c
    obtain ⟨s', e, he, -⟩ := SearchState.evaluate_of_ran ran fun rows number => h.written rows number c r
    exact ⟨s', e, he, trivial⟩
  obtain ⟨s', es, hes, -⟩ := SearchState.evaluateAll_of_each (fun _ _ => True) each cs s
  exact ⟨s', es, hes⟩

namespace Genetic

section Opening

variable [RandomSource ρ] {p : Problem α}

omit [RowWriter α τ] in
/-- A search opens as soon as it can count what it expects. -/
theorem exists_opening {total : Nat} (counted : p.total = .ok total) (source : ρ)
    (start : SearchState α σ τ) : ∃ s, opening p source start = .ok s := by
  obtain ⟨ranges, hranges⟩ := exists_ranges counted
  have hsizes := sizes_of_ranges hranges
  obtain ⟨⟨islands, left⟩, drawn⟩ : ∃ out, (randomIslands p.settings (ranges.map List.length)).run source =
      .ok out := by
    obtain ⟨islands, left, drawn, -⟩ := randomIslands_fits p.settings (sizes_pos hsizes) source
    exact ⟨_, drawn⟩
  exact ⟨_, opening_eq_ok.mpr ⟨_, total, islands, left, hsizes, counted, drawn, rfl⟩⟩

omit [RowWriter α τ] in
theorem opening_of_error (hp : p.parameters ≠ []) {b : Breach} (uncounted : p.total = .error b) (source : ρ)
    (start : SearchState α σ τ) : opening p source start = .error b := by
  unfold opening
  cases hranges : p.ranges with
  | error c =>
    obtain rfl := total_error hp uncounted
    obtain rfl := ranges_error hranges
    unfold Problem.sizes
    rw [hranges]
    rfl
  | ok ranges =>
    rw [sizes_of_ranges hranges, uncounted]
    rfl

theorem search_of_uncounted (hp : p.parameters ≠ []) {b : Breach} (uncounted : p.total = .error b)
    (run : CandidateTrial α σ) (stop : StopPoint) (source : ρ) (start : SearchState α σ τ) :
    search p run stop source start = (start, .error (.breach b)) :=
  search_of_breach hp (opening_of_error hp uncounted source start) run stop

end Opening

/-- Islands with the sizes that the population was shared out in, and genes that fit. -/
structure Populated (p : Problem α) (islands : List (List Genes)) : Prop where
  lengths : islands.map List.length = islandShares p.settings
  fits : ∃ sizes, p.sizes = .ok sizes ∧ ∀ genes ∈ islands.flatten, Fits sizes genes

section Populations

variable {p : Problem α} {islands : List (List Genes)}

omit [RowWriter α τ] in
theorem Populated.inhabited (h : Populated p islands) : ∀ island ∈ islands, 0 < island.length :=
  fun _ hisland => islandShares_pos p.settings _ (h.lengths ▸ List.mem_map_of_mem hisland)

omit [RowWriter α τ] in
theorem Populated.exists_mem (h : Populated p islands) : ∃ genes, genes ∈ islands.flatten := by
  have several : 0 < islands.length := by
    have count := congrArg List.length h.lengths
    rw [List.length_map, islandShares_length] at count
    omega
  obtain ⟨island, hisland⟩ := List.exists_mem_of_length_pos several
  obtain ⟨genes, hgenes⟩ := List.exists_mem_of_length_pos (h.inhabited island hisland)
  exact ⟨genes, List.mem_flatten.mpr ⟨island, hisland, hgenes⟩⟩

omit [RowWriter α τ] in
theorem Populated.exists_candidate (h : Populated p islands) {genes : Genes}
    (hgenes : genes ∈ islands.flatten) : ∃ c, p.candidate genes = .ok c := by
  obtain ⟨sizes, hsizes, fits⟩ := h.fits
  obtain ⟨c, _, hc, -⟩ := Genetic.exists_candidate hsizes (fits genes hgenes)
  exact ⟨c, hc⟩

variable [RandomSource ρ]

omit [RowWriter α τ] in
theorem Populated.nextIslands {islands : List (List (Individual α))} (h : Populated p (genesOf islands)) :
    ∃ sizes, p.sizes = .ok sizes ∧ Rand.Always
      (fun next => Populated p next ∧
        ∃ out, Migrates islands out ∧ ∀ island ∈ out, ∀ genes ∈ elite p.settings island, genes ∈ next.flatten)
      (nextIslands p.settings sizes islands : Rand ρ (List (List Genes))) := by
  obtain ⟨sizes, hsizes, fits⟩ := h.fits
  have inhabited : ∀ island ∈ islands, 0 < island.length := by
    intro island hisland
    have there := h.inhabited (island.map Individual.genes) (List.mem_map_of_mem hisland)
    rwa [List.length_map] at there
  refine ⟨sizes, hsizes, (nextIslands_keeps p.settings inhabited fun i hi => ?_).mono
    fun next ⟨lengths, kept, nextFit⟩ => ⟨⟨?_, sizes, hsizes, nextFit⟩, kept⟩⟩
  · exact fits i.genes (mem_genesOf.mpr ⟨i, hi, rfl⟩)
  · rw [lengths, ← genesOf_lengths]
    exact h.lengths

end Populations

variable [RandomSource ρ] {p : Problem α} {run : CandidateTrial α σ} {source : ρ}
  {start : SearchState α σ τ} {number : Nat} {s s' noted : State α σ τ ρ}
  {islands : List (List (Individual α))}

omit [RandomSource ρ] in
theorem genesOf_of_noteGeneration (h : noteGeneration p run number s = (noted, .ok islands)) :
    genesOf islands = s.islands := by
  obtain ⟨scored, figures, hscored, -, -⟩ := noteGeneration_eq_ok.mp h
  obtain ⟨_, _, _, -, -, -, rfl⟩ := scoreGeneration_eq_ok.mp hscored
  exact genesOf_scored _ s.islands

theorem ComesTo.populated (reach : ComesTo p run source start number s) : Populated p s.islands := by
  induction reach with
  | first opened =>
    obtain ⟨sizes, _, _, _, hsizes, -, drawn, rfl⟩ := opening_eq_ok.mp opened
    obtain ⟨lengths, fits⟩ := (randomIslands_fits p.settings (sizes_pos hsizes)).of_run drawn
    exact ⟨lengths, sizes, hsizes, fits⟩
  | next _ hnoted hbred ih =>
    rw [← genesOf_of_noteGeneration hnoted] at ih
    obtain ⟨sizes, next, _, hsizes, drawn, rfl⟩ := bred_eq_ok.mp hbred
    obtain ⟨sizes', hsizes', always⟩ := ih.nextIslands (ρ := ρ)
    cases hsizes.symm.trans hsizes'
    exact (always.of_run drawn).1

theorem Evaluates.populated (h : Evaluates p run source start number islands) :
    Populated p (genesOf islands) := by
  obtain ⟨s, noted, reach, hnoted⟩ := h
  rw [genesOf_of_noteGeneration hnoted]
  exact reach.populated

theorem Evaluates.lengths (h : Evaluates p run source start number islands) :
    islands.map List.length = islandShares p.settings :=
  (genesOf_lengths islands).symm.trans h.populated.lengths

theorem Evaluates.inhabited (h : Evaluates p run source start number islands) :
    ∀ island ∈ islands, 0 < island.length := fun _ hisland =>
  islandShares_pos p.settings _ (h.lengths ▸ List.mem_map_of_mem hisland)

theorem Evaluates.exists_individual (h : Evaluates p run source start number islands) :
    ∃ i, i ∈ islands.flatten := by
  obtain ⟨genes, hgenes⟩ := h.populated.exists_mem
  obtain ⟨i, hi, -⟩ := mem_genesOf.mp hgenes
  exact ⟨i, hi⟩

theorem Evaluates.fits {sizes : List Nat} (hsizes : p.sizes = .ok sizes)
    (h : Evaluates p run source start number islands) :
    ∀ i ∈ islands.flatten, Fits sizes i.genes := by
  obtain ⟨sizes', hsizes', fits⟩ := h.populated.fits
  cases hsizes.symm.trans hsizes'
  exact fun i hi => fits i.genes (mem_genesOf.mpr ⟨i, hi, rfl⟩)

/-- After every generation that was noted, a next one can be bred. -/
theorem ComesTo.exists_next (reach : ComesTo p run source start number s)
    (hnoted : noteGeneration p run number s = (noted, .ok islands)) :
    ∃ s', noted.bred p islands = .ok s' ∧ ComesTo p run source start (number + 1) s' := by
  have populated := reach.populated
  rw [← genesOf_of_noteGeneration hnoted] at populated
  obtain ⟨sizes, hsizes, always⟩ := populated.nextIslands (ρ := ρ)
  obtain ⟨next, left, drawn, -⟩ := always noted.source
  have hbred := bred_eq_ok.mpr ⟨sizes, next, left, hsizes, drawn, rfl⟩
  exact ⟨_, hbred, reach.next hnoted hbred⟩

theorem ComesTo.exists_noted (reach : ComesTo p run source start number s) (faultless : Faultless run τ) :
    ∃ (noted : State α σ τ ρ) (islands : List (List (Individual α))),
      noteGeneration p run number s = (noted, .ok islands) := by
  have populated := reach.populated
  have each : ∀ genes ∈ pending s.bank s.islands, ∃ c, p.candidate genes = .ok c ∧ True := by
    intro genes hgenes
    obtain ⟨c, hc⟩ := populated.exists_candidate (mem_of_pending hgenes)
    exact ⟨c, hc, trivial⟩
  obtain ⟨batch, hbatch, -⟩ := exists_mapM_eq_ok each
  obtain ⟨search, es, hes⟩ := faultless.evaluateAll batch s.search
  have hscored := scoreGeneration_eq_ok.mpr ⟨batch, search, es, hbatch, hes, rfl, rfl⟩
  obtain ⟨figures, hfigures⟩ := generation_exists number fun i hi =>
    populated.exists_candidate (mem_scored hi).1
  exact ⟨_, _, noteGeneration_eq_ok.mpr ⟨_, figures, hscored, hfigures, rfl⟩⟩

/-- Without errors the generations run to their end, and all of them if nothing stops them before. -/
theorem generations_of_faultless (faultless : Faultless run τ) (stop : StopPoint) (left : Nat)
    (reach : ComesTo p run source start number s) :
    ∃ s', generations p run stop left number s = (s', none) ∧
      (stop = none → p.settings.stopIfConverged = false →
        s'.report.generations.length = number + left) := by
  induction left generalizing number s with
  | zero => exact ⟨s, rfl, fun _ _ => reach.report.1⟩
  | succ left ih =>
    obtain ⟨noted, islands, hnoted⟩ := reach.exists_noted faultless
    obtain ⟨s', hbred, reach'⟩ := reach.exists_next hnoted
    obtain ⟨⟨figures, -, noting⟩, -⟩ := noteGeneration_report hnoted
    unfold generations
    rw [hnoted]
    dsimp only
    split
    next reached => exact ⟨s, rfl, fun unstopped _ => by rw [unstopped] at reached; cases reached⟩
    next =>
      split
      next reached => exact ⟨noted, rfl, fun unstopped _ => by rw [unstopped] at reached; cases reached⟩
      next =>
        split
        next settled => exact ⟨_, rfl, fun _ untold => by rw [untold] at settled; cases settled⟩
        next =>
          split
          next last =>
            refine ⟨noted, rfl, fun _ _ => ?_⟩
            rw [last, noting, List.length_append, reach.report.1]
            rfl
          next =>
            rw [hbred]
            obtain ⟨s'', done, length⟩ := ih reach'
            exact ⟨s'', done, fun unstopped untold => (length unstopped untold).trans (by omega)⟩

theorem search_of_faultless (hp : p.parameters ≠ []) {total : Nat} (counted : p.total = .ok total)
    (faultless : Faultless run τ) (stop : StopPoint) (source : ρ) (start : SearchState α σ τ) :
    ∃ outcome, (search p run stop source start).2 = .ok outcome ∧
      (stop = none → p.settings.stopIfConverged = false →
        outcome.generations.length = p.settings.generations) := by
  obtain ⟨s, opened⟩ := exists_opening counted source start
  have reach : ComesTo p run source start 0 s := .first opened
  obtain ⟨s', done, length⟩ := generations_of_faultless faultless stop p.settings.generations reach
  rw [search_of_opening hp opened, done]
  exact ⟨s'.report, rfl, fun unstopped untold => (length unstopped untold).trans (Nat.zero_add _)⟩

/-- A genetic search that cannot count in a word what it expects breaks off at once. Any other one ends with an
outcome, if candidates run without errors, and after all its generations if nothing stops it before. It tries
genes that fit, each once: they are all that its candidates ran for, in the order of its evaluations, and
their candidates are points of the grid. On islands as they were shared out, every individual of every
generation has genes that fit, and its score is that of their one evaluation. -/
theorem search_explores (hp : p.parameters ≠ []) (faultless : Faultless run τ) (stop : StopPoint)
    (source : ρ) (start : SearchState α σ τ) :
    (∀ b, p.total = .error b → search p run stop source start = (start, .error (.breach b))) ∧
    ∀ total, p.total = .ok total →
    ∃ (sizes : List Nat) (points : List (Assignment α)) (outcome : GeneticOutcome α) (tried : List Genes),
      p.sizes = .ok sizes ∧ grid p.parameters = .ok points ∧
      (search p run stop source start).2 = .ok outcome ∧
      (stop = none → p.settings.stopIfConverged = false →
        outcome.generations.length = p.settings.generations) ∧
      tried.Nodup ∧
      tried.mapM p.candidate = .ok (outcome.evaluations.map (·.parameters)) ∧
      (search p run stop source start).1.shared =
        (outcome.evaluations.map (·.parameters)).foldl (fun shared c => (run shared c).1) start.shared ∧
      (∀ genes ∈ tried, Fits sizes genes ∧ ∃ c ∈ points, p.candidate genes = .ok c) ∧
      (∀ number < outcome.generations.length, ∃ islands figures,
        Evaluates p run source start number islands ∧ p.generation number islands = .ok figures ∧
        outcome.generations[number]? = some figures ∧
        islands.map List.length = islandShares p.settings ∧
        ∀ i ∈ islands.flatten, Fits sizes i.genes ∧
          ∃ e, (i.genes, e) ∈ tried.zip outcome.evaluations ∧
            (i.score, i.value) = p.score e.result) ∧
      (islandShares p.settings).length = max p.settings.islands 1 ∧
      (∀ n ∈ islandShares p.settings, 0 < n) ∧
      (islandShares p.settings).sum = max p.settings.population (max p.settings.islands 1) := by
  refine ⟨fun b uncounted => search_of_uncounted hp uncounted run stop source start, fun total counted => ?_⟩
  obtain ⟨ranges, hranges⟩ := exists_ranges counted
  have hsizes := sizes_of_ranges hranges
  have hpoints := grid_of_ranges hranges
  obtain ⟨outcome, found, whole⟩ := search_of_faultless hp counted faultless stop source start
  obtain ⟨recorded, s, tried, hs, rfl, explored⟩ := search_explored found
  refine ⟨_, _, s.report, tried, hsizes, hpoints, found, whole, explored.distinct, explored.evaluated,
    hs ▸ explored.ran, fun genes hgenes => ?_, fun number hnumber => ?_, islandShares_length p.settings,
    islandShares_pos p.settings, islandShares_sum p.settings⟩
  · obtain ⟨n, -, islands, evaluates, i, hi, rfl⟩ := explored.bred genes hgenes
    have fits := evaluates.fits hsizes i hi
    obtain ⟨c, points, hc, hpoints', mem⟩ := exists_candidate hsizes fits
    cases hpoints.symm.trans hpoints'
    exact ⟨fits, c, mem, hc⟩
  · obtain ⟨islands, figures, evaluates, hfigures, there⟩ := recorded number hnumber
    refine ⟨islands, figures, evaluates, hfigures, there, evaluates.lengths,
      fun i hi => ⟨evaluates.fits hsizes i hi, ?_⟩⟩
    exact (explored.keeps _ _).mp (explored.rated number hnumber islands evaluates i hi)

section Sample

/-- Eight candidates on two islands that exchange their best, for three generations. -/
def bredProblem : Problem Float :=
  { sampleProblem with
    settings := { sampleProblem.settings with
      generations := 3
      migrationChance := 1
      stopIfConverged := false } }

theorem bredProblem_counted : bredProblem.total = .ok 11 := by decide +kernel

theorem bredProblem_explored :
    ∃ (outcome : GeneticOutcome Float) (tried : List Genes),
      (search bredProblem (sampleTrial 7) none (ChaCha.Stream.ofSeed 42) sampleStart).2 = .ok outcome ∧
      outcome.generations.length = 3 ∧ tried.Nodup ∧
      tried.mapM bredProblem.candidate = .ok (outcome.evaluations.map (·.parameters)) ∧
      (∀ genes ∈ tried, ∃ gene < 11, genes = [gene]) ∧ islandShares bredProblem.settings = [4, 4] := by
  have parameters : bredProblem.parameters ≠ [] := List.cons_ne_nil _ _
  have eleven : bredProblem.sizes = .ok [11] := by decide +kernel
  obtain ⟨-, explores⟩ := search_explores parameters (sampleTrial_dependable 7).faultless none
    (ChaCha.Stream.ofSeed 42) sampleStart
  obtain ⟨sizes, _, outcome, tried, hsizes, -, found, whole, distinct, evaluated, -, fits, -⟩ :=
    explores 11 bredProblem_counted
  cases hsizes.symm.trans eleven
  refine ⟨outcome, tried, found, whole rfl rfl, distinct, evaluated, fun genes hgenes => ?_, rfl⟩
  obtain ⟨gene, _, hgene, rest, rfl⟩ := List.forall₂_cons_right_iff.mp (fits genes hgenes).1
  cases rest
  exact ⟨gene, hgene, rfl⟩

def unpeopledProblem : Problem Float :=
  { sampleProblem with settings := { sampleProblem.settings with population := 0, islands := 0 } }

/-- A search always has an island with someone on it. -/
theorem unpeopledProblem_evaluates :
    ∃ islands, Evaluates unpeopledProblem (sampleTrial 7) (ChaCha.Stream.ofSeed 42) sampleStart 0 islands ∧
      (islands.map List.length).sum = 1 ∧
      max unpeopledProblem.settings.population unpeopledProblem.settings.islands = 0 := by
  have counted : unpeopledProblem.total = .ok 0 := by decide +kernel
  obtain ⟨s, opened⟩ := exists_opening counted (ChaCha.Stream.ofSeed 42) sampleStart
  have reach : ComesTo unpeopledProblem (sampleTrial 7) (ChaCha.Stream.ofSeed 42) sampleStart 0 s :=
    .first opened
  obtain ⟨noted, islands, hnoted⟩ := reach.exists_noted (sampleTrial_dependable 7).faultless
  have evaluates : Evaluates unpeopledProblem (sampleTrial 7) (ChaCha.Stream.ofSeed 42) sampleStart 0 islands :=
    ⟨s, noted, reach, hnoted⟩
  refine ⟨islands, evaluates, ?_, rfl⟩
  rw [evaluates.lengths]
  rfl

end Sample

end Genetic
end Backtest
