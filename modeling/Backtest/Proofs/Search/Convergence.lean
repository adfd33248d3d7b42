import Mathlib.Data.List.Perm.Basic
import Backtest.Arith.Double
import Backtest.Proofs.Search.Bank
import Backtest.Proofs.Search.Breeding

namespace Backtest
namespace Genetic

section Population

variable {α : Type} [Arith α]

def first? (islands : List (List (Individual α))) : Option (Individual α) := islands.flatten.head?

def Uniform (islands : List (List (Individual α))) : Prop :=
  ∀ i ∈ islands.flatten, ∀ j ∈ islands.flatten, i.genes = j.genes

/-- A score is within a billionth of another one. -/
def Near (a b : α) : Prop :=
  (b == a) = true ∨ Arith.magnitude (b - a) ≤ 1e-9 * Arith.larger (Arith.magnitude a) 1

/-- The scores are all equal: none counts, or all do and are near the first one. -/
def Level (islands : List (List (Individual α))) : Prop :=
  (∀ i ∈ islands.flatten, i.score = .penalised) ∨
    ∃ a, (first? islands).map Individual.score = some (.reached a) ∧
      ∀ i ∈ islands.flatten, ∃ b, i.score = .reached b ∧ Near a b

/-- Either the first individual counts, or none does. -/
def Anchored (islands : List (List (Individual α))) : Prop :=
  ∀ i, first? islands = some i → i.score = .penalised →
    ∀ j ∈ islands.flatten, j.score = .penalised

theorem matchesFirst_penalised (s : Score α) : Score.matchesFirst .penalised s = true := rfl

theorem matchesFirst_reached {a : α} {s : Score α} :
    Score.matchesFirst (.reached a) s = true ↔ ∃ b, s = .reached b ∧ Near a b := by
  unfold Near
  cases s with
  | penalised => simp [Score.matchesFirst]
  | reached b => simp [Score.matchesFirst]

theorem hasConverged_iff (islands : List (List (Individual α))) :
    hasConverged islands = true ↔ Uniform islands ∨
      ∀ f, first? islands = some f → ∀ i ∈ islands.flatten,
        f.score.matchesFirst i.score = true := by
  unfold hasConverged first? Uniform
  cases islands.flatten with
  | nil => simp
  | cons f rest =>
    rw [Bool.or_eq_true, List.all_eq_true, List.all_eq_true]
    refine or_congr ⟨fun h => ?_, fun h i hi => ?_⟩ ⟨fun h f' hf => ?_, fun h => h f rfl⟩
    · have same : ∀ i ∈ f :: rest, i.genes = f.genes := by
        intro i hi
        rcases List.mem_cons.mp hi with rfl | hi
        · rfl
        · simpa using h i hi
      exact fun i hi j hj => (same i hi).trans (same j hj).symm
    · simpa using h i (List.mem_cons_of_mem f hi) f List.mem_cons_self
    · cases hf
      exact h

/-- The test is right about an anchored population, and passes every other one. -/
theorem hasConverged_iff_settled (islands : List (List (Individual α))) :
    hasConverged islands = true ↔ Uniform islands ∨ Level islands ∨ ¬Anchored islands := by
  rw [hasConverged_iff]
  refine or_congr Iff.rfl ?_
  cases hf : first? islands with
  | none =>
    have hnil : islands.flatten = [] := List.head?_eq_none_iff.mp hf
    simp [Level, hnil]
  | some f =>
    cases hs : f.score with
    | penalised =>
      simp only [Option.some.injEq, forall_eq', hs, matchesFirst_penalised, implies_true, true_iff]
      by_cases hall : ∀ i ∈ islands.flatten, i.score = .penalised
      · exact .inl (.inl hall)
      · exact .inr fun anchored => hall (anchored f hf hs)
    | reached a =>
      have hfirst : (first? islands).map Individual.score = some (.reached a) := by rw [hf, ← hs]; rfl
      have anchored : Anchored islands := by
        intro i hi hp
        cases hf.symm.trans hi
        rw [hs] at hp
        cases hp
      have hmem : f ∈ islands.flatten := List.mem_of_head? hf
      simp only [Option.some.injEq, forall_eq', hs, matchesFirst_reached]
      refine ⟨fun h => .inl (.inr ⟨a, hfirst, h⟩), ?_⟩
      rintro ((none | ⟨b, hb, h⟩) | loose)
      · rw [none f hmem] at hs
        cases hs
      · cases hfirst.symm.trans hb
        exact h
      · exact absurd anchored loose

omit [Arith α] in
theorem Uniform.perm {islands others : List (List (Individual α))}
    (h : others.flatten.Perm islands.flatten) (same : Uniform islands) : Uniform others :=
  fun i hi j hj => same i (h.mem_iff.mp hi) j (h.mem_iff.mp hj)

/-- In another order the verdict is the same as long as the first score is. -/
theorem hasConverged_perm {islands others : List (List (Individual α))}
    (h : others.flatten.Perm islands.flatten)
    (first : (first? others).map Individual.score = (first? islands).map Individual.score) :
    hasConverged others = hasConverged islands := by
  have scores : (∀ f, first? others = some f → ∀ i ∈ others.flatten,
        f.score.matchesFirst i.score = true) ↔
      ∀ f, first? islands = some f → ∀ i ∈ islands.flatten,
        f.score.matchesFirst i.score = true := by
    cases hf : first? islands with
    | none =>
      rw [hf, Option.map_none, Option.map_eq_none_iff] at first
      simp [first]
    | some f =>
      rw [hf, Option.map_some, Option.map_eq_some_iff] at first
      obtain ⟨f', hf', hscore⟩ := first
      simp only [hf', Option.some.injEq, forall_eq', hscore, h.mem_iff]
  rw [Bool.eq_iff_iff, hasConverged_iff, hasConverged_iff, scores]
  exact or_congr ⟨.perm h.symm, .perm h⟩ Iff.rfl

end Population

section Steps

variable {α σ τ ρ : Type} [Arith α] {p : Problem α} {number : Nat} {s s' noted : State α σ τ ρ}
  {islands : List (List (Individual α))}

theorem generation_eq_ok {figures : Generation α} : p.generation number islands = .ok figures ↔
    ∃ best, (lastBest Individual.score (counting islands)).mapM (fun i => p.candidate i.genes) =
        .ok best ∧
      figures = p.figures number ((counting islands).map Individual.value) best := by
  unfold Problem.generation
  rw [bind_eq_ok]
  exact exists_congr fun _ => and_congr_right fun _ => ⟨fun h => (Except.ok.inj h).symm, congrArg _ ∘ Eq.symm⟩

theorem generation_exists (number : Nat) (decoded : ∀ i ∈ islands.flatten, ∃ c, p.candidate i.genes = .ok c) :
    ∃ figures, p.generation number islands = .ok figures := by
  cases hbest : lastBest Individual.score (counting islands) with
  | none => exact ⟨_, generation_eq_ok.mpr ⟨none, by rw [hbest]; rfl, rfl⟩⟩
  | some i =>
    obtain ⟨c, hc⟩ := decoded i (List.mem_filter.mp (lastBest_mem hbest)).1
    refine ⟨_, generation_eq_ok.mpr ⟨some c, ?_, rfl⟩⟩
    rw [hbest, Option.mapM_some, hc]
    rfl

theorem opening_eq_ok [RandomSource ρ] {source : ρ} {start : SearchState α σ τ} :
    opening p source start = .ok s ↔ ∃ sizes total islands left,
      p.sizes = .ok sizes ∧ p.total = .ok total ∧
      (randomIslands p.settings sizes).run source = .ok (islands, left) ∧
      s = ⟨{ start with sink := { start.sink with total := total } }, left, ∅, islands, ⟨[], [], false⟩⟩ := by
  unfold opening
  simp only [bind_eq_ok, Prod.exists]
  constructor
  · rintro ⟨sizes, hsizes, total, htotal, islands, left, drawn, h⟩
    exact ⟨sizes, total, islands, left, hsizes, htotal, drawn, (Except.ok.inj h).symm⟩
  · rintro ⟨sizes, total, islands, left, hsizes, htotal, drawn, rfl⟩
    exact ⟨sizes, hsizes, total, htotal, islands, left, drawn, rfl⟩

theorem bred_eq_ok [RandomSource ρ] : s.bred p islands = .ok s' ↔ ∃ sizes next left,
    p.sizes = .ok sizes ∧ (nextIslands p.settings sizes islands).run s.source = .ok (next, left) ∧
      s' = { s with source := left, islands := next } := by
  unfold State.bred
  simp only [bind_eq_ok, Prod.exists]
  constructor
  · rintro ⟨sizes, hsizes, next, left, drawn, h⟩
    exact ⟨sizes, next, left, hsizes, drawn, (Except.ok.inj h).symm⟩
  · rintro ⟨sizes, next, left, hsizes, drawn, rfl⟩
    exact ⟨sizes, hsizes, next, left, drawn, rfl⟩

variable [RowWriter α τ] {run : CandidateTrial α σ}

theorem noteGeneration_eq_ok : noteGeneration p run number s = (noted, .ok islands) ↔
    ∃ scored figures, scoreGeneration p run s = (scored, .ok islands) ∧
      p.generation number islands = .ok figures ∧ noted = scored.noting figures := by
  unfold noteGeneration
  constructor
  · intro h
    split at h
    next => cases h
    next scored islands' hscored =>
      split at h
      next => cases h
      next figures hfigures =>
        cases h
        exact ⟨scored, figures, hscored, hfigures, rfl⟩
  · rintro ⟨scored, figures, hscored, hfigures, rfl⟩
    simp only [hscored, hfigures]

theorem scoreGeneration_report {scored : State α σ τ ρ}
    (h : scoreGeneration p run s = (scored, .ok islands)) :
    scored.report.generations = s.report.generations ∧
      scored.report.converged = s.report.converged := by
  unfold scoreGeneration at h
  dsimp only at h
  split at h
  next => cases h
  next =>
    split at h
    next => cases h
    next => cases h; exact ⟨rfl, rfl⟩

theorem noteGeneration_report (h : noteGeneration p run number s = (noted, .ok islands)) :
    (∃ figures, p.generation number islands = .ok figures ∧
      noted.report.generations = s.report.generations ++ [figures]) ∧
    noted.report.converged = s.report.converged := by
  obtain ⟨scored, figures, hscored, hfigures, rfl⟩ := noteGeneration_eq_ok.mp h
  obtain ⟨generations, converged⟩ := scoreGeneration_report hscored
  exact ⟨⟨figures, hfigures, congrArg (· ++ [figures]) generations⟩, converged⟩

theorem noteGeneration_of_dependable {figures : Assignment α → RunFigures α} (h : Dependable run figures τ)
    {rating : Genes → RunFigures α} (rates : ∀ genes ∈ s.islands.flatten, p.Rates figures rating genes)
    (banked : Banked p rating s.bank) (number : Nat) :
    ∃ noted : State α σ τ ρ, noteGeneration p run number s =
      (noted, .ok (s.islands.map fun island => island.map (p.individual rating))) := by
  obtain ⟨scored, hscored, -⟩ := scoreGeneration_of_dependable h rates banked
  have decoded : ∀ i ∈ (s.islands.map fun island => island.map (p.individual rating)).flatten,
      ∃ c, p.candidate i.genes = .ok c := by
    intro i hi
    rw [← List.map_flatten] at hi
    obtain ⟨genes, hgenes, rfl⟩ := List.mem_map.mp hi
    obtain ⟨c, hc, -⟩ := rates genes hgenes
    exact ⟨c, hc⟩
  obtain ⟨figures, hfigures⟩ := generation_exists number decoded
  exact ⟨_, noteGeneration_eq_ok.mpr ⟨scored, figures, hscored, hfigures, rfl⟩⟩

end Steps

variable {α σ τ ρ : Type} [Arith α] [RowWriter α τ] [RandomSource ρ] {p : Problem α}
  {run : CandidateTrial α σ} {source : ρ} {start : SearchState α σ τ} {number : Nat}
  {s s' noted : State α σ τ ρ} {islands : List (List (Individual α))}

/-- The states in which a search comes to the generation of a number. -/
inductive ComesTo (p : Problem α) (run : CandidateTrial α σ) (source : ρ)
    (start : SearchState α σ τ) : Nat → State α σ τ ρ → Prop
  | first {s : State α σ τ ρ} : opening p source start = .ok s → ComesTo p run source start 0 s
  | next {number : Nat} {s noted s' : State α σ τ ρ} {islands : List (List (Individual α))} :
      ComesTo p run source start number s → noteGeneration p run number s = (noted, .ok islands) →
      noted.bred p islands = .ok s' → ComesTo p run source start (number + 1) s'

/-- The scored population of a generation that a search evaluates. -/
def Evaluates (p : Problem α) (run : CandidateTrial α σ) (source : ρ) (start : SearchState α σ τ)
    (number : Nat) (islands : List (List (Individual α))) : Prop :=
  ∃ s noted : State α σ τ ρ, ComesTo p run source start number s ∧
    noteGeneration p run number s = (noted, .ok islands)

/-- A search has one course. -/
theorem ComesTo.unique (h : ComesTo p run source start number s)
    (h' : ComesTo p run source start number s') : s = s' := by
  induction h generalizing s' with
  | first opened =>
    cases h' with
    | first opened' => exact Except.ok.inj (opened.symm.trans opened')
  | next _ hnoted hbred ih =>
    cases h' with
    | next reach hnoted' hbred' =>
      cases ih reach
      cases hnoted.symm.trans hnoted'
      exact Except.ok.inj (hbred.symm.trans hbred')

theorem Evaluates.unique {islands' : List (List (Individual α))}
    (h : Evaluates p run source start number islands)
    (h' : Evaluates p run source start number islands') : islands = islands' := by
  obtain ⟨s, noted, reach, hnoted⟩ := h
  obtain ⟨s', noted', reach', hnoted'⟩ := h'
  cases reach.unique reach'
  cases hnoted.symm.trans hnoted'
  rfl

theorem Evaluates.figures (h : Evaluates p run source start number islands) :
    ∃ figures, p.generation number islands = .ok figures := by
  obtain ⟨s, noted, -, hnoted⟩ := h
  obtain ⟨⟨figures, hfigures, -⟩, -⟩ := noteGeneration_report hnoted
  exact ⟨figures, hfigures⟩

/-- Up to a generation the report has one entry for each one before, and no verdict. -/
theorem ComesTo.report (h : ComesTo p run source start number s) :
    s.report.generations.length = number ∧ s.report.converged = false := by
  induction h with
  | first opened =>
    obtain ⟨_, _, _, _, -, -, -, rfl⟩ := opening_eq_ok.mp opened
    exact ⟨rfl, rfl⟩
  | next _ hnoted hbred ih =>
    obtain ⟨_, _, _, -, -, rfl⟩ := bred_eq_ok.mp hbred
    obtain ⟨⟨figures, -, generations⟩, converged⟩ := noteGeneration_report hnoted
    refine ⟨?_, converged.trans ih.2⟩
    dsimp only
    rw [generations, List.length_append, ih.1]
    rfl

/-- The verdict of a search is that of the test on the last population it scored. -/
theorem generations_converged {stop : StopPoint} {left : Nat} (reach : ComesTo p run source start number s)
    (done : generations p run stop left number s = (s', none)) (h : s'.report.converged = true) :
    p.settings.stopIfConverged = true ∧ ∃ last islands figures,
      Evaluates p run source start last islands ∧ s'.report.generations.length = last + 1 ∧
      p.generation last islands = .ok figures ∧
      s'.report.generations.getLast? = some figures ∧ hasConverged islands = true := by
  induction left generalizing number s with
  | zero =>
    cases done
    rw [reach.report.2] at h
    cases h
  | succ left ih =>
    unfold generations at done
    split at done
    next =>
      cases done
      rw [reach.report.2] at h
      cases h
    next =>
      split at done
      next => cases done
      next noted islands hnoted =>
        obtain ⟨⟨figures, hfigures, generations⟩, converged⟩ := noteGeneration_report hnoted
        rw [reach.report.2] at converged
        split at done
        next =>
          cases done
          rw [converged] at h
          cases h
        next =>
          split at done
          next hyes =>
            rw [Bool.and_eq_true] at hyes
            cases done
            refine ⟨hyes.1, number, islands, figures, ⟨s, noted, reach, hnoted⟩, ?_, hfigures, ?_, hyes.2⟩
            · simp [generations, reach.report.1]
            · simp [generations]
          next =>
            split at done
            next =>
              cases done
              rw [converged] at h
              cases h
            next =>
              split at done
              next => cases done
              next hbred => exact ih (reach.next hnoted hbred) done

theorem search_of_opening (hp : p.parameters ≠ []) (opened : opening p source start = .ok s)
    (run : CandidateTrial α σ) (stop : StopPoint) :
    search p run stop source start =
      match generations p run stop p.settings.generations 0 s with
      | (s, none) => (s.search, .ok s.report)
      | (s, some f) => (s.search, .error f) := by
  unfold search
  rewrite [if_neg (by simpa using hp), opened]
  rfl

theorem search_of_breach (hp : p.parameters ≠ []) {b : Breach} (broken : opening p source start = .error b)
    (run : CandidateTrial α σ) (stop : StopPoint) :
    search p run stop source start = (start, .error (.breach b)) := by
  unfold search
  rw [if_neg (by simpa using hp), broken]

theorem search_eq_ok {stop : StopPoint} {outcome : GeneticOutcome α}
    (found : (search p run stop source start).2 = .ok outcome) : ∃ s s' : State α σ τ ρ,
      opening p source start = .ok s ∧
      generations p run stop p.settings.generations 0 s = (s', none) ∧
      search p run stop source start = (s'.search, .ok s'.report) ∧ s'.report = outcome := by
  unfold search at found ⊢
  split at found
  next => cases found
  next hp =>
    rw [if_neg hp]
    split at found
    next => cases found
    next s opened =>
      split at found
      next s' done =>
        cases found
        exact ⟨s, s', opened, done, rfl, rfl⟩
      next => cases found

/-- A search that reports convergence was told to stop for it, and has stopped on the last population it
scored. If that one is anchored, then it has settled, and so it has in any other order with as good a
first individual. -/
theorem search_converged {stop : StopPoint} {outcome : GeneticOutcome α}
    (found : (search p run stop source start).2 = .ok outcome) (h : outcome.converged = true) :
    p.settings.stopIfConverged = true ∧
    ∃ last islands figures, Evaluates p run source start last islands ∧
      outcome.generations.length = last + 1 ∧ p.generation last islands = .ok figures ∧
      outcome.generations.getLast? = some figures ∧
      (Anchored islands → Uniform islands ∨ Level islands) ∧
      ∀ others : List (List (Individual α)), others.flatten.Perm islands.flatten →
        (first? others).map Individual.score = (first? islands).map Individual.score →
        hasConverged others = true := by
  obtain ⟨s, s', opened, done, -, rfl⟩ := search_eq_ok found
  obtain ⟨told, last, islands, figures, evaluates, length, hfigures, latest, verdict⟩ :=
    generations_converged (.first opened) done h
  refine ⟨told, last, islands, figures, evaluates, length, hfigures, latest, fun anchored => ?_, ?_⟩
  · rcases (hasConverged_iff_settled islands).mp verdict with same | level | loose
    · exact .inl same
    · exact .inr level
    · exact absurd anchored loose
  · exact fun others perm first => (hasConverged_perm perm first).trans verdict

/-- A search that is told to stop for convergence and finds it in its first generation ends there. -/
theorem search_of_first (hp : p.parameters ≠ []) (hg : p.settings.generations ≠ 0)
    (told : p.settings.stopIfConverged = true) (opened : opening p source start = .ok s)
    (hnoted : noteGeneration p run 0 s = (noted, .ok islands)) (verdict : hasConverged islands = true) :
    ∃ outcome, (search p run none source start).2 = .ok outcome ∧ outcome.converged = true ∧
      outcome.generations.length = 1 := by
  obtain ⟨left, hleft⟩ := Nat.exists_eq_succ_of_ne_zero hg
  obtain ⟨⟨figures, -, generations⟩, -⟩ := noteGeneration_report hnoted
  have reach : ComesTo p run source start 0 s := .first opened
  have done : Genetic.generations p run none (left + 1) 0 s =
      ({ noted with report := { noted.report with converged := true } }, none) := by
    unfold Genetic.generations
    simp only [StopPoint.isReached, Option.any_none, Bool.false_eq_true, ↓reduceIte, hnoted, told,
      verdict, Bool.and_true]
  refine ⟨{ noted.report with converged := true }, ?_, rfl, ?_⟩
  · rw [search_of_opening hp opened, hleft]
    simp only [Nat.succ_eq_add_one, done]
  · dsimp only
    rw [generations, List.length_append, reach.report.1]
    rfl

section Sample

def sampleProblem : Problem Float where
  parameters := [⟨48, 0, 1, 10⟩]
  settings :=
    { population := 8
      generations := 1
      crossoverChance := 0.9
      mutationChance := 0.1
      migrationChance := 0
      islands := 2
      elitism := true
      crossover := .uniform
      mutation := .uniform
      stopIfConverged := true
      minTradesPerYear := 0
      seed := some 42 }
  goal := .profit

def sampleFigures (failing : Float) (c : Assignment Float) : RunFigures Float :=
  { RunFigures.blank with
    finalBalance := 100
    failure := if c.any (·.2 == failing) then some "failed" else none }

def sampleTrial (failing : Float) : CandidateTrial Float Unit :=
  fun _ c => ((), .ok (sampleFigures failing c))

def sampleStart : SearchState Float Unit Unit := ⟨(), .start .profit ()⟩

def sampleRating (failing : Float) (genes : Genes) : RunFigures Float :=
  sampleFigures failing (genes.map fun gene => (48, Arith.ofCount gene))

def samplePopulation (failing : Float) : List (List (Individual Float)) :=
  [[[7], [4], [0], [4]], [[8], [9], [1], [0]]].map fun island =>
    island.map (sampleProblem.individual (sampleRating failing))

theorem sampleTrial_dependable (failing : Float) :
    Dependable (sampleTrial failing) (sampleFigures failing) Unit where
  ran _ _ := rfl
  written _ _ _ _ := rfl

/-- The genes that a seed gives to a problem with the parameters and the islands of the sample. -/
theorem sampleStart_opened : ∃ s : State Float Unit Unit ChaCha.Stream,
    opening sampleProblem (ChaCha.Stream.ofSeed 42) sampleStart = .ok s ∧
      s.islands = [[[7], [4], [0], [4]], [[8], [9], [1], [0]]] := by
  refine map_eq_ok.mp ?_
  decide +kernel

theorem sampleProblem_candidate : ∀ genes ∈ [[[7], [4], [0], [4]], [[8], [9], [1], [0]]].flatten,
    sampleProblem.candidate genes = .ok (genes.map fun gene => (48, Arith.ofCount gene)) := by
  decide +kernel

theorem sampleStart_evaluates (failing : Float) :
    ∃ s noted : State Float Unit Unit ChaCha.Stream,
      opening sampleProblem (ChaCha.Stream.ofSeed 42) sampleStart = .ok s ∧
      noteGeneration sampleProblem (sampleTrial failing) 0 s = (noted, .ok (samplePopulation failing)) := by
  obtain ⟨s, opened, drawn⟩ := sampleStart_opened
  have banked : Banked sampleProblem (sampleRating failing) s.bank := by
    obtain ⟨_, _, _, _, -, -, -, rfl⟩ := opening_eq_ok.mp opened
    exact empty_banked sampleProblem _
  obtain ⟨noted, hnoted⟩ := noteGeneration_of_dependable (sampleTrial_dependable failing)
    (fun genes hgenes => ⟨_, sampleProblem_candidate genes (drawn ▸ hgenes), rfl⟩) banked 0
  rw [drawn] at hnoted
  exact ⟨s, noted, opened, hnoted⟩

theorem sampleProblem_penalised {failing : Float} {genes : Genes}
    (h : sampleProblem.counts (sampleRating failing genes) = false) :
    (sampleProblem.individual (sampleRating failing) genes).score = .penalised := by
  unfold Problem.individual Problem.score
  rw [h]
  rfl

theorem sampleProblem_reached {failing : Float} {genes : Genes}
    (h : sampleProblem.counts (sampleRating failing genes) = true) :
    (sampleProblem.individual (sampleRating failing) genes).score = .reached (100 - 0) := by
  have finite : Arith.isFinite (100 - 0 : Float) = true := by decide +kernel
  unfold Problem.individual Problem.score
  rw [h]
  exact if_pos finite

/-- The first individual fails, the others gain, and their genes differ: the search has converged. -/
theorem mixed_population_converges :
    ∃ outcome, (search sampleProblem (sampleTrial 7) none (ChaCha.Stream.ofSeed 42)
        sampleStart).2 = .ok outcome ∧ outcome.converged = true ∧
      outcome.generations.length = 1 ∧
      Evaluates sampleProblem (sampleTrial 7) (ChaCha.Stream.ofSeed 42) sampleStart 0
        (samplePopulation 7) ∧
      ∃ i ∈ (samplePopulation 7).flatten, ∃ j ∈ (samplePopulation 7).flatten,
        i.genes ≠ j.genes ∧ i.score = .penalised ∧ ∃ x, j.score = .reached x := by
  obtain ⟨s, noted, opened, hnoted⟩ := sampleStart_evaluates 7
  obtain ⟨outcome, found, converged, length⟩ := search_of_first (List.cons_ne_nil _ _) (by decide) rfl
    opened hnoted (by decide +kernel)
  refine ⟨outcome, found, converged, length, ⟨s, noted, .first opened, hnoted⟩, ?_⟩
  refine ⟨sampleProblem.individual (sampleRating 7) [7], .head _,
    sampleProblem.individual (sampleRating 7) [4], .tail _ (.head _), by decide, ?_, ?_⟩
  · exact sampleProblem_penalised (by decide +kernel)
  · exact ⟨_, sampleProblem_reached (by decide +kernel)⟩

/-- Where none fails, the same search has converged because all gain the same. -/
theorem level_population_converges :
    ∃ outcome, (search sampleProblem (sampleTrial 20) none (ChaCha.Stream.ofSeed 42)
        sampleStart).2 = .ok outcome ∧ outcome.converged = true ∧
      Anchored (samplePopulation 20) ∧
      (Uniform (samplePopulation 20) ∨ Level (samplePopulation 20)) := by
  obtain ⟨s, noted, opened, hnoted⟩ := sampleStart_evaluates 20
  obtain ⟨outcome, found, converged, one⟩ := search_of_first (List.cons_ne_nil _ _) (by decide) rfl
    opened hnoted (by decide +kernel)
  obtain ⟨-, last, islands, figures, evaluates, length, -, -, settled, -⟩ := search_converged found converged
  obtain rfl : last = 0 := Nat.succ.inj (length.symm.trans one)
  cases evaluates.unique ⟨s, noted, .first opened, hnoted⟩
  have anchored : Anchored (samplePopulation 20) := by
    intro i hi penalised
    cases hi
    rw [sampleProblem_reached (by decide +kernel)] at penalised
    cases penalised
  exact ⟨outcome, found, converged, anchored, settled anchored⟩

end Sample

end Genetic
end Backtest
