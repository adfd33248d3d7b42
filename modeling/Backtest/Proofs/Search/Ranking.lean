import Backtest.Proofs.Arith.Order
import Backtest.Proofs.Search.Exploration
import Backtest.Search.Basic

namespace Backtest

namespace Score

variable {α : Type} [Arith α]

def Finite : Score α → Prop
  | penalised => True
  | reached x => Arith.isFinite x = true

theorem eq_penalised_of_not_above {s : Score α} (h : penalised.below s = false) : s = penalised := by
  cases s with
  | penalised => rfl
  | reached _ => cases h

variable [Arith.Ordered α]

theorem ofValue_finite (goal : Goal) (value : α) : (ofValue goal value).Finite := by
  unfold ofValue
  split
  next h =>
    change Arith.isFinite (if goal.prefersLess = true then -value else value) = true
    split
    · exact Arith.Ordered.isFinite_neg value h
    · exact h
  next => trivial

theorem below_asymm {s t : Score α} (hs : s.Finite) (ht : t.Finite) (h : s.below t = true) :
    t.below s = false := by
  match s, t with
  | _, penalised => simp [below] at h
  | penalised, reached _ => rfl
  | reached a, reached b =>
    exact decide_eq_false (Arith.lt_asymm_of_isFinite hs ht (of_decide_eq_true h))

theorem not_below_self {s : Score α} (hs : s.Finite) : s.below s = false := by
  cases h : s.below s with
  | false => rfl
  | true => exact h.symm.trans (below_asymm hs hs h)

theorem not_below_trans {s t u : Score α} (hs : s.Finite) (ht : t.Finite) (hu : u.Finite)
    (h : s.below t = false) (h' : t.below u = false) : s.below u = false := by
  match s, t, u with
  | penalised, _, penalised | reached _, _, penalised => rfl
  | penalised, reached _, reached _ => cases h
  | _, penalised, reached _ => cases h'
  | reached a, reached b, reached c =>
    refine decide_eq_false fun hac => ?_
    rcases Arith.lt_or_lt_of_isFinite hs ht hu hac with hab | hbc
    · exact of_decide_eq_false h hab
    · exact of_decide_eq_false h' hbc

end Score

section Best

variable {α β : Type} [Arith α]

/-- An element that none of a list exceeds. -/
structure Tops (score : β → Score α) (xs : List β) (b : β) : Prop where
  mem : b ∈ xs
  not_below : ∀ x ∈ xs, (score b).below (score x) = false

variable [Arith.Ordered α] {score : β → Score α}

theorem lastBest_cons {b : β} {xs : List β} (finite : ∀ x ∈ b :: xs, (score x).Finite) :
    ∃ c, lastBest score (b :: xs) = some c ∧ Tops score (b :: xs) c := by
  unfold lastBest
  rw [List.foldl_cons]
  dsimp only
  -- the fold goes on from the better one of its first two, which tops the other as well
  induction xs generalizing b with
  | nil =>
    refine ⟨b, rfl, List.mem_cons_self, fun x hx => ?_⟩
    rw [List.mem_singleton.mp hx]
    exact Score.not_below_self (finite b List.mem_cons_self)
  | cons x xs ih =>
    obtain ⟨hb, hrest⟩ := List.forall_mem_cons.mp finite
    obtain ⟨hx, hxs⟩ := List.forall_mem_cons.mp hrest
    rw [List.foldl_cons]
    dsimp only
    cases h : (score x).below (score b) with
    | true =>
      have hbx := Score.below_asymm hx hb h
      obtain ⟨c, hc, mem, top⟩ := ih (List.forall_mem_cons.mpr ⟨hb, hxs⟩)
      have mem' : c ∈ b :: x :: xs := by
        rcases List.mem_cons.mp mem with rfl | mem
        · exact List.mem_cons_self
        · exact List.mem_cons_of_mem b (List.mem_cons_of_mem x mem)
      have hcx := Score.not_below_trans (finite c mem') hb hx (top b List.mem_cons_self) hbx
      refine ⟨c, hc, mem', ?_⟩
      simp only [List.forall_mem_cons] at top ⊢
      exact ⟨top.1, hcx, top.2⟩
    | false =>
      obtain ⟨c, hc, mem, top⟩ := ih (List.forall_mem_cons.mpr ⟨hx, hxs⟩)
      have mem' : c ∈ b :: x :: xs := List.mem_cons_of_mem b mem
      have hcb := Score.not_below_trans (finite c mem') hx hb (top x List.mem_cons_self) h
      refine ⟨c, hc, mem', ?_⟩
      simp only [List.forall_mem_cons] at top ⊢
      exact ⟨hcb, top⟩

end Best

section Plain

variable {α σ τ : Type} [Arith α] [RowWriter α τ]

def Evaluation.Plain (goal : Goal) (e : Evaluation α) : Prop := e.fitness = e.result.goalFigure goal

theorem Sink.record_plain (s : Sink α τ) (c : Assignment α) (r : RunFigures α) :
    (s.record c r).1.goal = s.goal ∧ ∀ e, (s.record c r).2 = .ok e → e.Plain s.goal := by
  unfold Sink.record
  dsimp only
  split
  next => exact ⟨rfl, fun e he => by cases he⟩
  next => exact ⟨rfl, fun e he => by cases he; rfl⟩

theorem SearchState.evaluate_plain (run : CandidateTrial α σ) (s : SearchState α σ τ)
    (c : Assignment α) :
    (s.evaluate run c).1.sink.goal = s.sink.goal ∧
      ∀ e, (s.evaluate run c).2 = .ok e → e.Plain s.sink.goal := by
  unfold SearchState.evaluate
  split
  next => exact ⟨rfl, fun e he => by cases he⟩
  next => exact s.sink.record_plain c _

theorem SearchState.evaluateAll_plain (run : CandidateTrial α σ) (stop : StopPoint)
    (cs : List (Assignment α)) (s : SearchState α σ τ) :
    (s.evaluateAll run stop cs).1.sink.goal = s.sink.goal ∧
      ∀ es, (s.evaluateAll run stop cs).2 = .ok es → ∀ e ∈ es, e.Plain s.sink.goal := by
  induction cs generalizing s with
  | nil =>
    refine ⟨rfl, fun es hes => ?_⟩
    cases hes
    exact List.forall_mem_nil _
  | cons c cs ih =>
    obtain ⟨goal, plain⟩ := s.evaluate_plain run c
    unfold SearchState.evaluateAll
    split
    next =>
      refine ⟨rfl, fun es hes => ?_⟩
      cases hes
      exact List.forall_mem_nil _
    next =>
      split
      next s' f heq =>
        rw [heq] at goal
        exact ⟨goal, fun es hes => by cases hes⟩
      next s' e heq =>
        rw [heq] at goal plain
        obtain ⟨goal', plain'⟩ := ih s'
        rw [show s'.sink.goal = s.sink.goal from goal] at goal' plain'
        split
        next heq' =>
          rw [heq'] at goal' plain'
          refine ⟨goal', fun es hes => ?_⟩
          cases hes
          exact List.forall_mem_cons.mpr ⟨plain e rfl, plain' _ rfl⟩
        next heq' =>
          rw [heq'] at goal'
          exact ⟨goal', fun es hes => by cases hes⟩

end Plain

namespace Genetic

section Penalised

variable {α : Type} [Arith α]

/-- A candidate trades less often than the settings ask for. -/
def Problem.TradesRarely (p : Problem α) (e : Evaluation α) : Prop :=
  p.settings.minTradesPerYear > 0 ∧ e.result.yearlyTrades < p.settings.minTradesPerYear

def Problem.Penalised (p : Problem α) (e : Evaluation α) : Prop :=
  (p.score e.result).1 = .penalised

theorem ofValue_eq_penalised {goal : Goal} {value : α} :
    Score.ofValue goal value = .penalised ↔ Arith.isFinite value = false := by
  unfold Score.ofValue
  cases Arith.isFinite value <;> simp

theorem Problem.counts_iff (p : Problem α) (e : Evaluation α) :
    p.counts e.result = true ↔ e.result.failure = none ∧ ¬p.TradesRarely e := by
  unfold Problem.counts Problem.TradesRarely
  rw [Bool.and_eq_true, Option.isNone_iff_eq_none, Bool.not_eq_true', Bool.and_eq_false_iff,
    decide_eq_false_iff_not, decide_eq_false_iff_not, not_and_or]

theorem Problem.not_penalised (p : Problem α) {e : Evaluation α}
    (counts : p.counts e.result = true)
    (finite : Arith.isFinite (e.result.goalFigure p.goal) = true) : ¬p.Penalised e := by
  unfold Problem.Penalised Problem.score
  dsimp only
  rw [if_pos counts, ofValue_eq_penalised, finite]
  exact Bool.noConfusion

/-- The three reasons for a penalty. -/
theorem Problem.penalised_iff (p : Problem α) {e : Evaluation α} (plain : e.Plain p.goal) :
    p.Penalised e ↔ e.result.failure ≠ none ∨ Arith.isFinite e.fitness = false ∨
      p.TradesRarely e := by
  have counted := p.counts_iff e
  unfold Problem.Penalised Problem.score
  dsimp only
  rw [← plain]
  split
  next h =>
    obtain ⟨sound, often⟩ := counted.mp h
    simp [ofValue_eq_penalised, sound, often]
  next h =>
    have reason := mt counted.mpr h
    rw [not_and_or, not_not] at reason
    refine iff_of_true rfl ?_
    rcases reason with failed | rarely
    · exact .inl failed
    · exact .inr (.inr rarely)

end Penalised

variable {α σ τ ρ : Type} [Arith α]

structure State.Plain (goal : Goal) (s : State α σ τ ρ) : Prop where
  goal_eq : s.search.sink.goal = goal
  plain : ∀ e ∈ s.report.evaluations, e.Plain goal

variable [RowWriter α τ] [RandomSource ρ]

omit [RandomSource ρ] in
theorem State.Plain.noteGeneration {p : Problem α} {run : CandidateTrial α σ} {goal : Goal} {number : Nat}
    {s noted : State α σ τ ρ} {islands : List (List (Individual α))} (h : s.Plain goal)
    (hnoted : noteGeneration p run number s = (noted, .ok islands)) : noted.Plain goal := by
  obtain ⟨scored, figures, hscored, -, rfl⟩ := noteGeneration_eq_ok.mp hnoted
  obtain ⟨batch, search, es, -, hes, rfl, -⟩ := scoreGeneration_eq_ok.mp hscored
  obtain ⟨hgoal, hplain⟩ := s.search.evaluateAll_plain run none batch
  rw [hes, h.goal_eq] at hgoal hplain
  exact ⟨hgoal, List.forall_mem_append.mpr ⟨h.plain, hplain es rfl⟩⟩

theorem State.Plain.generations {p : Problem α} {run : CandidateTrial α σ} {stop : StopPoint}
    {goal : Goal} {left number : Nat} {s s' : State α σ τ ρ} (h : s.Plain goal)
    (done : generations p run stop left number s = (s', none)) : s'.Plain goal := by
  induction left generalizing number s with
  | zero =>
    cases done
    exact h
  | succ left ih =>
    unfold Genetic.generations at done
    split at done
    next =>
      cases done
      exact h
    next =>
      split at done
      next => cases done
      next noted islands hnoted =>
        have plain := h.noteGeneration hnoted
        split at done
        next =>
          cases done
          exact plain
        next =>
          split at done
          next =>
            cases done
            exact ⟨plain.goal_eq, plain.plain⟩
          next =>
            split at done
            next =>
              cases done
              exact plain
            next =>
              split at done
              next => cases done
              next hbred =>
                obtain ⟨_, _, _, -, -, rfl⟩ := bred_eq_ok.mp hbred
                refine ih ?_ done
                exact ⟨plain.goal_eq, plain.plain⟩

theorem search_plain {p : Problem α} {run : CandidateTrial α σ} {stop : StopPoint} {source : ρ}
    {start : SearchState α σ τ} {outcome : GeneticOutcome α}
    (found : (search p run stop source start).2 = .ok outcome) :
    ∀ e ∈ outcome.evaluations, e.Plain start.sink.goal := by
  obtain ⟨s, s', opened, done, -, rfl⟩ := search_eq_ok found
  obtain ⟨_, _, _, _, -, -, -, rfl⟩ := opening_eq_ok.mp opened
  exact (State.Plain.generations ⟨rfl, List.forall_mem_nil _⟩ done).plain

theorem search_of_one_generation {p : Problem α} {run : CandidateTrial α σ} {source : ρ}
    {start : SearchState α σ τ} {s noted : State α σ τ ρ} {islands : List (List (Individual α))}
    (hp : p.parameters ≠ []) (one : p.settings.generations = 1) (untold : p.settings.stopIfConverged = false)
    (opened : opening p source start = .ok s)
    (hnoted : Genetic.noteGeneration p run 0 s = (noted, .ok islands)) :
    (search p run none source start).2 = .ok noted.report := by
  have done : Genetic.generations p run none 1 0 s = (noted, none) := by
    unfold Genetic.generations
    simp only [StopPoint.isReached, Option.any_none, Bool.false_eq_true, ↓reduceIte, hnoted, untold,
      Bool.false_and]
  rw [search_of_opening hp opened, one]
  simp only [done]

end Genetic

theorem runSearch_genetic {α σ τ : Type} [Arith α] [RowWriter α τ] {settings : SearchSettings α}
    {g : GeneticSettings α} {parameters : List (Parameter α)} (method : settings.method = .genetic g)
    (resolved : settings.resolve = .ok parameters) {entropy : Nat} {run : CandidateTrial α σ}
    {stop : StopPoint} {start : SearchState α σ τ} :
    (runSearch entropy settings run stop start).2 =
      (Genetic.search ⟨parameters, g, settings.goal⟩ run stop (sourceOf entropy g) start).2.map
        fun r => ⟨r.evaluations, r.generations⟩ := by
  unfold runSearch
  simp only [resolved, method]

section Summary

variable {α σ τ : Type} [Arith α] [Arith.Ordered α] [RowWriter α τ]

theorem SearchSummary.best_of_mem (s : SearchSummary α) (goal : Goal) {e : Evaluation α}
    (he : e ∈ s.evaluations) (sound : e.result.failure = none) :
    ∃ b, s.best goal = some b ∧
      Tops (fun e => .ofValue goal e.fitness)
        (s.evaluations.filter fun e => e.result.failure.isNone) b := by
  unfold SearchSummary.best
  have mem : e ∈ s.evaluations.filter fun e => e.result.failure.isNone :=
    List.mem_filter.mpr ⟨he, Option.isNone_iff_eq_none.mpr sound⟩
  cases hs : s.evaluations.filter fun e => e.result.failure.isNone with
  | nil =>
    rw [hs] at mem
    cases mem
  | cons x xs => exact lastBest_cons fun e _ => Score.ofValue_finite goal e.fitness

open Genetic in
/-- The best of a genetic search whose sink and settings name one goal, where at least one candidate
counts: it did not fail, its value is finite, and no candidate that did not fail has a better one. It is
penalised exactly when it trades too rarely, as a look at the plain values does not see that. -/
theorem SearchSummary.genetic_best {settings : SearchSettings α} {g : GeneticSettings α}
    {parameters : List (Parameter α)} (method : settings.method = .genetic g)
    (resolved : settings.resolve = .ok parameters) {entropy : Nat} {run : CandidateTrial α σ}
    {stop : StopPoint} {start : SearchState α σ τ} (goal : start.sink.goal = settings.goal)
    {summary : SearchSummary α} (found : (runSearch entropy settings run stop start).2 = .ok summary) :
    let p : Problem α := ⟨parameters, g, settings.goal⟩
    (∀ e ∈ summary.evaluations, p.Penalised e ↔ e.result.failure ≠ none ∨
      Arith.isFinite (e.result.goalFigure settings.goal) = false ∨ p.TradesRarely e) ∧
    ((∃ e ∈ summary.evaluations, ¬p.Penalised e) →
      ∃ b ∈ summary.evaluations, summary.best settings.goal = some b ∧
        b.result.failure = none ∧ Arith.isFinite b.fitness = true ∧
        (∀ e ∈ summary.evaluations, e.result.failure = none →
          (Score.ofValue settings.goal b.fitness).below (.ofValue settings.goal e.fitness) = false) ∧
        (p.Penalised b ↔ p.TradesRarely b)) := by
  intro p
  have plain : ∀ e ∈ summary.evaluations, e.Plain p.goal := by
    rw [runSearch_genetic method resolved] at found
    cases outcome : (search p run stop (sourceOf entropy g) start).2 with
    | error f =>
      rw [outcome] at found
      cases found
    | ok r =>
      rw [outcome] at found
      cases found
      intro e he
      rw [show p.goal = start.sink.goal from goal.symm]
      exact search_plain outcome e he
  refine ⟨fun e he => ?_, ?_⟩
  · rw [← plain e he]
    exact p.penalised_iff (plain e he)
  rintro ⟨e, he, counts⟩
  rw [p.penalised_iff (plain e he)] at counts
  push Not at counts
  obtain ⟨sound, finite, often⟩ := counts
  obtain ⟨b, hb, mem, top⟩ := summary.best_of_mem settings.goal he sound
  obtain ⟨hmem, hsound⟩ := List.mem_filter.mp mem
  rw [Option.isNone_iff_eq_none] at hsound
  have above : ∀ e ∈ summary.evaluations, e.result.failure = none →
      (Score.ofValue settings.goal b.fitness).below (.ofValue settings.goal e.fitness) = false :=
    fun e he sound => top e (List.mem_filter.mpr ⟨he, Option.isNone_iff_eq_none.mpr sound⟩)
  -- what is not finite is worth no more than a failure, and `e` is worth more
  have hfinite : Arith.isFinite b.fitness = true := by
    by_contra h
    have lost := above e he sound
    rw [ofValue_eq_penalised.mpr (Bool.eq_false_iff.mpr h)] at lost
    exact finite (ofValue_eq_penalised.mp (Score.eq_penalised_of_not_above lost))
  refine ⟨b, hmem, hb, hsound, hfinite, above, ?_⟩
  rw [p.penalised_iff (plain b hmem)]
  simp [hsound, hfinite]

end Summary

section Sample

open Genetic

/-- Eight candidates with the values 7, 4, 0, 4, 8, 9, 1 and 0, for one generation; ten trades a year are
asked for. -/
def rareSettings : SearchSettings Float where
  method := .genetic { sampleProblem.settings with stopIfConverged := false, minTradesPerYear := 10 }
  goal := .profit
  parameters := [⟨none, some 48, 0, 1, 10⟩]

def rareFigures (c : Assignment Float) : RunFigures Float :=
  let x := (c.map (·.2)).headD 0
  { RunFigures.blank with
    finalBalance := -(x * x)
    counters := ⟨Arith.toCount (x * x) + 3, 0, 0⟩
    years := 2 }

def rareTrial : CandidateTrial Float Unit := fun _ c => ((), .ok (rareFigures c))

def rareProblem : Problem Float :=
  { sampleProblem with
    settings := { sampleProblem.settings with stopIfConverged := false, minTradesPerYear := 10 } }

def rareEvaluations : List (Evaluation Float) :=
  ([7, 4, 0, 8, 9, 1] : List Float).zipIdx.map fun (x, i) =>
    ⟨i + 1, [(48, x)], rareFigures [(48, x)], (rareFigures [(48, x)]).goalFigure .profit⟩

theorem rareTrial_dependable : Dependable rareTrial rareFigures Unit where
  ran _ _ := rfl
  written _ _ _ _ := rfl

theorem rareSettings_found :
    ∃ summary, (runSearch 0 rareSettings rareTrial none sampleStart).2 = .ok summary ∧
      summary.evaluations = rareEvaluations := by
  obtain ⟨s, opened, drawn⟩ : ∃ s : State Float Unit Unit ChaCha.Stream,
      opening rareProblem (ChaCha.Stream.ofSeed 42) sampleStart = .ok s ∧
        s.islands = [[[7], [4], [0], [4]], [[8], [9], [1], [0]]] := by
    refine map_eq_ok.mp ?_
    decide +kernel
  have reach : ComesTo rareProblem rareTrial (ChaCha.Stream.ofSeed 42) sampleStart 0 s := .first opened
  obtain ⟨noted, islands, hnoted⟩ := reach.exists_noted rareTrial_dependable.faultless
  have found := search_of_one_generation (List.cons_ne_nil _ _) rfl rfl opened hnoted
  have evaluated : noted.report.evaluations = rareEvaluations := by
    obtain ⟨scored, figures, hscored, -, rfl⟩ := noteGeneration_eq_ok.mp hnoted
    obtain ⟨batch, search, es, hbatch, hes, rfl, -⟩ := scoreGeneration_eq_ok.mp hscored
    obtain ⟨_, total, _, _, -, -, -, rfl⟩ := opening_eq_ok.mp opened
    dsimp only at drawn hbatch hes
    subst drawn
    have fresh : pending (∅ : Bank Float) [[[7], [4], [0], [4]], [[8], [9], [1], [0]]] =
        [[7], [4], [0], [8], [9], [1]] := by
      unfold pending
      simp only [Std.HashMap.contains_empty]
      rfl
    have candidates : [[7], [4], [0], [8], [9], [1]].mapM rareProblem.candidate =
        .ok [[(48, 7)], [(48, 4)], [(48, 0)], [(48, 8)], [(48, 9)], [(48, 1)]] := by decide +kernel
    rw [fresh, candidates] at hbatch
    cases hbatch
    cases hes
    rfl
  have seed : sourceOf 0 rareProblem.settings = ChaCha.Stream.ofSeed 42 :=
    congrArg ChaCha.Stream.ofSeed (by decide +kernel)
  have same : (⟨rareProblem.parameters, rareProblem.settings, rareSettings.goal⟩ : Problem Float) =
      rareProblem := rfl
  have resolved : rareSettings.resolve = .ok rareProblem.parameters := rfl
  refine ⟨⟨noted.report.evaluations, noted.report.generations⟩, ?_, evaluated⟩
  rw [runSearch_genetic (g := rareProblem.settings) rfl resolved, seed, same, found]
  rfl

theorem rareEvaluations_counts : ¬rareProblem.Penalised rareEvaluations[0] :=
  rareProblem.not_penalised (by decide +kernel) (by decide +kernel)

/-- The least loss is that of a candidate that trades too rarely, and the search ranks another one
first. -/
theorem rare_candidate_best :
    ∃ summary, (runSearch 0 rareSettings rareTrial none sampleStart).2 = .ok summary ∧
      ∃ b ∈ summary.evaluations, ∃ e ∈ summary.evaluations,
        summary.best rareSettings.goal = some b ∧ rareProblem.Penalised b ∧
        ¬rareProblem.Penalised e := by
  obtain ⟨summary, found, hes⟩ := rareSettings_found
  have rarely : ¬rareProblem.counts rareEvaluations[2].result = true := by decide +kernel
  refine ⟨summary, found, ?_⟩
  unfold SearchSummary.best
  rw [hes]
  exact ⟨rareEvaluations[2], List.getElem_mem _, rareEvaluations[0], List.getElem_mem _, rfl,
    if_neg rarely, rareEvaluations_counts⟩

theorem rare_candidate_trades_rarely :
    ∃ summary b, (runSearch 0 rareSettings rareTrial none sampleStart).2 = .ok summary ∧
      summary.best rareSettings.goal = some b ∧ b.result.failure = none ∧
      (rareProblem.Penalised b ↔ rareProblem.TradesRarely b) := by
  obtain ⟨summary, found, hes⟩ := rareSettings_found
  have resolved : rareSettings.resolve = .ok rareProblem.parameters := rfl
  have counts : ∃ e ∈ summary.evaluations, ¬rareProblem.Penalised e := by
    rw [hes]
    exact ⟨rareEvaluations[0], List.getElem_mem _, rareEvaluations_counts⟩
  obtain ⟨-, best⟩ := SearchSummary.genetic_best (g := rareProblem.settings) rfl resolved rfl found
  obtain ⟨b, -, hb, sound, -, -, penalised⟩ := best counts
  exact ⟨summary, b, found, hb, sound, penalised⟩

end Sample

end Backtest
