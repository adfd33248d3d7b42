import Backtest.Proofs.Search.Batch

namespace Backtest
namespace Genetic

/-- What a search sees when it looks for a stop, before the generation of a number and after it. -/
structure Polls where
  before : Nat → Bool
  after : Nat → Bool

variable {α σ τ ρ : Type} [Arith α] [RowWriter α τ] [RandomSource ρ]

/-- The generations of a search that sees a stop as the polls have it. A stop that is requested while a
generation is evaluated is seen after it, and one between two generations before the second. -/
def generationsPolled (p : Problem α) (run : CandidateTrial α σ) (polls : Polls) :
    Nat → Nat → State α σ τ ρ → State α σ τ ρ × Option (Fault α)
  | 0, _, s => (s, none)
  | left + 1, number, s =>
    if polls.before number then (s, none)
    else
      match noteGeneration p run number s with
      | (s, .error f) => (s, some f)
      | (s, .ok islands) =>
        if polls.after number then (s, none)
        else if p.settings.stopIfConverged && hasConverged islands then
          ({ s with report := { s.report with converged := true } }, none)
        else if left = 0 then (s, none)
        else
          match s.bred p islands with
          | .error b => (s, some (.breach b))
          | .ok s => generationsPolled p run polls left (number + 1) s

/-- A search that sees a stop as the polls have it. -/
def searchPolled (p : Problem α) (run : CandidateTrial α σ) (polls : Polls) (source : ρ)
    (start : SearchState α σ τ) : SearchState α σ τ × Except (Fault α) (GeneticOutcome α) :=
  match opening p source start with
  | .error b => (start, .error (.breach b))
  | .ok s =>
    match generationsPolled p run polls p.settings.generations 0 s with
    | (s, none) => (s.search, .ok s.report)
    | (s, some f) => (s.search, .error f)

open Classical in
/-- What a search sees of a stop that is requested after some number of evaluations. -/
noncomputable def pollsOf (p : Problem α) (run : CandidateTrial α σ) (stop : StopPoint) (source : ρ)
    (start : SearchState α σ τ) : Polls :=
  { before := fun number => decide <| ∃ s : State α σ τ ρ,
      ComesTo p run source start number s ∧ stop.isReached s.search.sink.iterations = true
    after := fun number => decide <| ∃ (s noted : State α σ τ ρ) (islands : List (List (Individual α))),
      ComesTo p run source start number s ∧ noteGeneration p run number s = (noted, .ok islands) ∧
      stop.isReached noted.search.sink.iterations = true }

/-- The search was told to stop for convergence, and finds it in the generation of a number. -/
def Settles (p : Problem α) (run : CandidateTrial α σ) (source : ρ) (start : SearchState α σ τ)
    (number : Nat) : Prop :=
  p.settings.stopIfConverged = true ∧ ∃ islands, Evaluates p run source start number islands ∧
    hasConverged islands = true

section Course

variable {p : Problem α} {run : CandidateTrial α σ} {source : ρ} {start : SearchState α σ τ}
  {m n number : Nat} {s s' noted : State α σ τ ρ} {islands : List (List (Individual α))}

theorem ComesTo.pollsOf_before (reach : ComesTo p run source start number s) (stop : StopPoint) :
    (pollsOf p run stop source start).before number = stop.isReached s.search.sink.iterations := by
  rw [Bool.eq_iff_iff]
  simp only [pollsOf, decide_eq_true_eq]
  constructor
  · rintro ⟨t, ht, seen⟩
    cases ht.unique reach
    exact seen
  · exact fun seen => ⟨s, reach, seen⟩

theorem ComesTo.pollsOf_after (reach : ComesTo p run source start number s) (stop : StopPoint)
    (hnoted : noteGeneration p run number s = (noted, .ok islands)) :
    (pollsOf p run stop source start).after number = stop.isReached noted.search.sink.iterations := by
  rw [Bool.eq_iff_iff]
  simp only [pollsOf, decide_eq_true_eq]
  constructor
  · rintro ⟨t, noted', islands', ht, hnoted', seen⟩
    cases ht.unique reach
    cases hnoted'.symm.trans hnoted
    exact seen
  · exact fun seen => ⟨s, noted, islands, reach, hnoted, seen⟩

theorem pollsOf_none (k : Nat) : (pollsOf p run none source start).before k = false ∧
    (pollsOf p run none source start).after k = false := by
  simp only [pollsOf, StopPoint.isReached, Option.any_none, Bool.false_eq_true, and_false, exists_false,
    decide_false, and_self]

theorem generations_eq_polled (stop : StopPoint) (left : Nat)
    (reach : ComesTo p run source start number s) :
    generations p run stop left number s =
      generationsPolled p run (pollsOf p run stop source start) left number s := by
  induction left generalizing number s with
  | zero => rfl
  | succ left ih =>
    unfold generations generationsPolled
    rw [reach.pollsOf_before stop]
    split
    next => rfl
    next =>
      cases hnote : noteGeneration p run number s with
      | mk noted out =>
        cases out with
        | error f => rfl
        | ok islands =>
          dsimp only
          obtain ⟨s', hbred, reach'⟩ := reach.exists_next hnote
          rw [reach.pollsOf_after stop hnote, hbred]
          dsimp only
          rw [← ih reach']

/-- A stop after some number of evaluations is one of the ways to see a stop. -/
theorem search_eq_polled (hp : p.parameters ≠ []) (stop : StopPoint) :
    search p run stop source start = searchPolled p run (pollsOf p run stop source start) source start := by
  unfold searchPolled
  cases opened : opening p source start with
  | error b => exact search_of_breach hp opened run stop
  | ok s =>
    rewrite [search_of_opening hp opened, generations_eq_polled stop _ (.first opened)]
    rfl

omit [RandomSource ρ] in
theorem noteGeneration_delivers (hnoted : noteGeneration p run number s = (noted, .ok islands)) :
    ∃ es, noted.report.evaluations = s.report.evaluations ++ es ∧
      Delivered run s.search es noted.search := by
  obtain ⟨scored, figures, hscored, -, rfl⟩ := noteGeneration_eq_ok.mp hnoted
  obtain ⟨batch, search, es, -, hes, rfl, -⟩ := scoreGeneration_eq_ok.mp hscored
  obtain ⟨s', es', -, delivered, -, ⟨out, -⟩ | ⟨_, _, _, out, -⟩⟩ :=
    s.search.evaluateAll_delivers run none batch
  · cases hes.symm.trans out
    exact ⟨es, rfl, delivered⟩
  · cases hes.symm.trans out

/-- All evaluations up to a generation were delivered. -/
theorem ComesTo.delivered (reach : ComesTo p run source start number s) :
    ∃ s₀ : State α σ τ ρ, opening p source start = .ok s₀ ∧
      Delivered run s₀.search s.report.evaluations s.search := by
  induction reach with
  | first opened =>
    refine ⟨_, opened, ?_⟩
    obtain ⟨_, _, _, _, -, -, -, rfl⟩ := opening_eq_ok.mp opened
    exact .nothing run _
  | next _ hnoted hbred ih =>
    obtain ⟨s₀, opened, before⟩ := ih
    obtain ⟨es, evaluations, more⟩ := noteGeneration_delivers hnoted
    obtain ⟨_, _, _, -, -, rfl⟩ := bred_eq_ok.mp hbred
    refine ⟨s₀, opened, ?_⟩
    dsimp only
    rw [evaluations]
    exact before.append more

theorem ComesTo.found_prefix (reach : ComesTo p run source start m s)
    (reach' : ComesTo p run source start n s') (hmn : m ≤ n) :
    s.report.generations <+: s'.report.generations ∧
      s.report.evaluations <+: s'.report.evaluations := by
  induction reach' with
  | first opened =>
    cases Nat.le_zero.mp hmn
    cases reach.unique (.first opened)
    exact ⟨List.prefix_rfl, List.prefix_rfl⟩
  | next reach' hnoted hbred ih =>
    rcases Nat.lt_or_eq_of_le hmn with hlt | rfl
    · obtain ⟨generations, evaluations⟩ := ih (Nat.le_of_lt_succ hlt)
      obtain ⟨es, more, -⟩ := noteGeneration_delivers hnoted
      obtain ⟨⟨figures, -, noting⟩, -⟩ := noteGeneration_report hnoted
      obtain ⟨_, _, _, -, -, rfl⟩ := bred_eq_ok.mp hbred
      dsimp only
      rw [noting, more]
      exact ⟨generations.trans (List.prefix_append _ _), evaluations.trans (List.prefix_append _ _)⟩
    · cases reach.unique (reach'.next hnoted hbred)
      exact ⟨List.prefix_rfl, List.prefix_rfl⟩

/-- A search goes on from a generation to one where it ends: it has seen no stop and found no convergence
on the way, and ends for one of the two or because no generation is left. -/
structure EndsAt (p : Problem α) (run : CandidateTrial α σ) (source : ρ) (start : SearchState α σ τ)
    (polls : Polls) (left number n : Nat) : Prop where
  forward : number ≤ n
  bound : n ≤ number + left
  unseen : ∀ m, number ≤ m → m < n → polls.before m = false
  unseen' : ∀ m, number ≤ m → m + 1 < n → polls.after m = false
  unsettled : ∀ m, number ≤ m → m + 1 < n → ¬Settles p run source start m
  reason : polls.before n = true ∨ n = number + left ∨
    ∃ m, number ≤ m ∧ n = m + 1 ∧ (polls.after m = true ∨ Settles p run source start m)

theorem EndsAt.here {polls : Polls} {left : Nat} (reason : polls.before number = true ∨ left = 0) :
    EndsAt p run source start polls left number number where
  forward := le_rfl
  bound := Nat.le_add_right number left
  unseen m hm hlt := absurd hm (Nat.not_le_of_lt hlt)
  unseen' m hm hlt := absurd hm (by omega)
  unsettled m hm hlt := absurd hm (by omega)
  reason := reason.imp_right fun last => .inl (by omega)

theorem EndsAt.next {polls : Polls} {left : Nat} (unseen : polls.before number = false)
    (reason : polls.after number = true ∨ Settles p run source start number ∨ left = 0) :
    EndsAt p run source start polls (left + 1) number (number + 1) where
  forward := Nat.le_succ number
  bound := by omega
  unseen m hm hlt := Nat.le_antisymm hm (Nat.le_of_lt_succ hlt) ▸ unseen
  unseen' m hm hlt := absurd hm (by omega)
  unsettled m hm hlt := absurd hm (by omega)
  reason := by
    rcases reason with seen | settles | rfl
    · exact .inr (.inr ⟨number, le_rfl, rfl, .inl seen⟩)
    · exact .inr (.inr ⟨number, le_rfl, rfl, .inr settles⟩)
    · exact .inr (.inl rfl)

theorem EndsAt.later {polls : Polls} {left : Nat} (unseen : polls.before number = false)
    (unseen' : polls.after number = false) (unsettled : ¬Settles p run source start number)
    (h : EndsAt p run source start polls left (number + 1) n) :
    EndsAt p run source start polls (left + 1) number n where
  forward := Nat.le_of_succ_le h.forward
  bound := by
    have := h.bound
    omega
  unseen m hm hlt := by
    rcases Nat.eq_or_lt_of_le hm with rfl | hm
    · exact unseen
    · exact h.unseen m hm hlt
  unseen' m hm hlt := by
    rcases Nat.eq_or_lt_of_le hm with rfl | hm
    · exact unseen'
    · exact h.unseen' m hm hlt
  unsettled m hm hlt := by
    rcases Nat.eq_or_lt_of_le hm with rfl | hm
    · exact unsettled
    · exact h.unsettled m hm hlt
  reason := by
    rcases h.reason with seen | last | ⟨m, hm, next, why⟩
    · exact .inl seen
    · exact .inr (.inl (by omega))
    · exact .inr (.inr ⟨m, Nat.le_of_succ_le hm, next, why⟩)

theorem generationsPolled_ends (faultless : Faultless run τ) (polls : Polls) (left : Nat)
    (reach : ComesTo p run source start number s) :
    ∃ (s' : State α σ τ ρ) (n : Nat) (t : State α σ τ ρ),
      generationsPolled p run polls left number s = (s', none) ∧
      EndsAt p run source start polls left number n ∧ ComesTo p run source start n t ∧
      s'.search = t.search ∧ s'.report.generations = t.report.generations ∧
      s'.report.evaluations = t.report.evaluations := by
  induction left generalizing number s with
  | zero => exact ⟨s, number, s, rfl, .here (.inr rfl), reach, rfl, rfl, rfl⟩
  | succ left ih =>
    obtain ⟨noted, islands, hnoted⟩ := reach.exists_noted faultless
    obtain ⟨next, hbred, onward⟩ := reach.exists_next hnoted
    have kept : next.search = noted.search ∧ next.report = noted.report := by
      obtain ⟨_, _, _, -, -, rfl⟩ := bred_eq_ok.mp hbred
      exact ⟨rfl, rfl⟩
    obtain ⟨sameSearch, sameReport⟩ := kept
    have found : noted.search = next.search ∧ noted.report.generations = next.report.generations ∧
        noted.report.evaluations = next.report.evaluations :=
      ⟨sameSearch.symm, by rw [sameReport], by rw [sameReport]⟩
    unfold generationsPolled
    rw [hnoted]
    dsimp only
    split
    next seen => exact ⟨s, number, s, rfl, .here (.inl seen), reach, rfl, rfl, rfl⟩
    next unseen =>
      rw [Bool.not_eq_true] at unseen
      split
      next seen => exact ⟨noted, _, next, rfl, .next unseen (.inl seen), onward, found⟩
      next unseen' =>
        rw [Bool.not_eq_true] at unseen'
        split
        next settled =>
          rw [Bool.and_eq_true] at settled
          have settles : Settles p run source start number :=
            ⟨settled.1, islands, ⟨s, noted, reach, hnoted⟩, settled.2⟩
          exact ⟨_, _, next, rfl, .next unseen (.inr (.inl settles)), onward, found⟩
        next unsettled =>
          split
          next last => exact ⟨noted, _, next, rfl, .next unseen (.inr (.inr last)), onward, found⟩
          next =>
            have goesOn : ¬Settles p run source start number := by
              rintro ⟨told, islands', evaluates, verdict⟩
              cases evaluates.unique ⟨s, noted, reach, hnoted⟩
              exact unsettled (Bool.and_eq_true_iff.mpr ⟨told, verdict⟩)
            rw [hbred]
            obtain ⟨s', n, t, out, rest, found'⟩ := ih onward
            exact ⟨s', n, t, out, rest.later unseen unseen' goesOn, found'⟩

/-- A polled search that can count what it expects comes to the end of its generations, and has found what the
course of the search had found when it came there. -/
theorem searchPolled_ends {total : Nat} (counted : p.total = .ok total) (faultless : Faultless run τ)
    (polls : Polls) (source : ρ) (start : SearchState α σ τ) :
    ∃ (outcome : GeneticOutcome α) (n : Nat) (t : State α σ τ ρ),
      searchPolled p run polls source start = (t.search, .ok outcome) ∧
      EndsAt p run source start polls p.settings.generations 0 n ∧ ComesTo p run source start n t ∧
      t.report.generations = outcome.generations ∧ t.report.evaluations = outcome.evaluations ∧
      outcome.generations.length = n := by
  obtain ⟨s₀, opened⟩ := exists_opening counted source start
  obtain ⟨s, n, t, out, ends, reach, found, generations, evaluations⟩ :=
    generationsPolled_ends faultless polls p.settings.generations (.first opened)
  refine ⟨s.report, n, t, ?_, ends, reach, generations.symm, evaluations.symm, ?_⟩
  · rw [searchPolled, opened]
    dsimp only
    rw [out, ← found]
  · rw [generations]
    exact reach.report.1

theorem EndsAt.le {polls : Polls} {left : Nat} (h : EndsAt p run source start polls left 0 n)
    (whole : EndsAt p run source start (pollsOf p run none source start) left 0 m) : n ≤ m := by
  by_contra further
  rcases whole.reason with seen | last | ⟨k, hk, rfl, seen | settles⟩
  · rw [(pollsOf_none _).1] at seen
    cases seen
  · have := h.bound
    omega
  · rw [(pollsOf_none _).2] at seen
    cases seen
  · exact h.unsettled k hk (by omega) settles

theorem EndsAt.seen_of_lt {polls unaware : Polls} {left : Nat}
    (h : EndsAt p run source start polls left 0 n)
    (whole : EndsAt p run source start unaware left 0 m) (hlt : n < m) :
    polls.before n = true ∨ ∃ k, n = k + 1 ∧ polls.after k = true := by
  rcases h.reason with seen | last | ⟨k, hk, rfl, seen | settles⟩
  · exact .inl seen
  · have := whole.bound
    omega
  · exact .inr ⟨k, rfl, seen⟩
  · exact absurd settles (whole.unsettled k hk hlt)

end Course

/-- What a search has found is what the search that nothing stops had found when it came to the generation
of a number: nothing of a generation before is missing, and nothing of a later one is there. -/
def FoundBefore (p : Problem α) (run : CandidateTrial α σ) (source : ρ) (start : SearchState α σ τ)
    (number : Nat) (outcome : GeneticOutcome α) : Prop :=
  ∃ s : State α σ τ ρ, ComesTo p run source start number s ∧
    s.report.generations = outcome.generations ∧ s.report.evaluations = outcome.evaluations

/-- A search that cannot count in a word what it expects breaks off at once, whenever a stop is requested. Any
other one, whose candidates run without errors, finds the beginning of what it finds if nothing stops it. It is
cut where some generation would have begun: at the first of its polls that sees the stop. Its evaluations are
numbered from one without a gap, and they are what was written and announced, in that order. A stop after some
number of evaluations is a case of this. -/
theorem search_stops_at_generation {p : Problem α} {run : CandidateTrial α σ}
    (hp : p.parameters ≠ []) (faultless : Faultless run τ) (source : ρ) (shared : σ) (goal : Goal)
    (rows : τ) :
    let start : SearchState α σ τ := ⟨shared, .start goal rows⟩
    (∀ stop, search p run stop source start =
      searchPolled p run (pollsOf p run stop source start) source start) ∧
    (∀ b, p.total = .error b →
      ∀ polls, searchPolled p run polls source start = (start, .error (.breach b))) ∧
    ∀ total, p.total = .ok total →
    ∃ whole, (search p run none source start).2 = .ok whole ∧
      ∀ polls, ∃ outcome, (searchPolled p run polls source start).2 = .ok outcome ∧
        outcome.generations <+: whole.generations ∧
        outcome.evaluations <+: whole.evaluations ∧
        FoundBefore p run source start outcome.generations.length outcome ∧
        (∀ m < outcome.generations.length, polls.before m = false) ∧
        (∀ m, m + 1 < outcome.generations.length → polls.after m = false) ∧
        (outcome.generations.length < whole.generations.length →
          polls.before outcome.generations.length = true ∨
          ∃ m, outcome.generations.length = m + 1 ∧ polls.after m = true) ∧
        outcome.evaluations.map (·.iteration) = List.range' 1 outcome.evaluations.length ∧
        let sink := (searchPolled p run polls source start).1.sink
        sink.iterations = outcome.evaluations.length ∧
        sink.rows = rowsWith rows outcome.evaluations ∧
        sink.events.toList = outcome.evaluations.map (·.announced sink.total) := by
  intro start
  refine ⟨search_eq_polled hp, fun b uncounted polls => ?_, fun total counted => ?_⟩
  · unfold searchPolled
    rw [opening_of_error hp uncounted]
  obtain ⟨whole, m, t', wholeOut, wholeEnds, wholeReach, wholeGenerations, wholeEvaluations, wholeCount⟩ :=
    searchPolled_ends counted faultless (pollsOf p run none source start) source start
  refine ⟨whole, by rw [search_eq_polled hp, wholeOut], fun polls => ?_⟩
  obtain ⟨outcome, n, t, out, ends, reach, generations, evaluations, count⟩ :=
    searchPolled_ends counted faultless polls source start
  obtain ⟨prefixed, prefixed'⟩ := reach.found_prefix wholeReach (ends.le wholeEnds)
  rw [generations, wholeGenerations] at prefixed
  rw [evaluations, wholeEvaluations] at prefixed'
  obtain ⟨s₀, opened, delivered⟩ := reach.delivered
  obtain ⟨_, _, _, _, -, -, -, rfl⟩ := opening_eq_ok.mp opened
  rw [evaluations] at delivered
  rw [out]
  dsimp only
  refine ⟨outcome, rfl, prefixed, prefixed', ?_, ?_, ?_, ?_, delivered.numbered, ?_, delivered.written, ?_⟩
  · rw [count]
    exact ⟨t, reach, generations, evaluations⟩
  · rw [count]
    exact fun k hk => ends.unseen k (Nat.zero_le k) hk
  · rw [count]
    exact fun k hk => ends.unseen' k (Nat.zero_le k) hk
  · rw [count, wholeCount]
    exact ends.seen_of_lt wholeEnds
  · exact delivered.counted.trans (Nat.zero_add _)
  · rw [delivered.total]
    exact delivered.announced

def duringFirst : Polls := ⟨fun number => decide (0 < number), fun _ => true⟩

/-- Of three generations, the first one is left. -/
theorem bredProblem_stopped :
    ∃ whole outcome,
      (search bredProblem (sampleTrial 7) none (ChaCha.Stream.ofSeed 42) sampleStart).2 = .ok whole ∧
      whole.generations.length = 3 ∧
      (searchPolled bredProblem (sampleTrial 7) duringFirst (ChaCha.Stream.ofSeed 42) sampleStart).2 =
        .ok outcome ∧
      outcome.generations.length = 1 ∧ outcome.generations <+: whole.generations ∧
      outcome.evaluations <+: whole.evaluations := by
  have parameters : bredProblem.parameters ≠ [] := List.cons_ne_nil _ _
  have faultless := (sampleTrial_dependable 7).faultless
  obtain ⟨-, -, stops⟩ :=
    search_stops_at_generation parameters faultless (ChaCha.Stream.ofSeed 42) () .profit ()
  obtain ⟨whole, found, part⟩ := stops 11 bredProblem_counted
  obtain ⟨outcome, found', generations, evaluations, -, -, unseen', seen, -⟩ := part duringFirst
  obtain ⟨_, again, length⟩ := search_of_faultless parameters bredProblem_counted faultless none
    (ChaCha.Stream.ofSeed 42) sampleStart
  cases Except.ok.inj (found.symm.trans again)
  have three : whole.generations.length = 3 := length rfl rfl
  have most : ¬0 + 1 < outcome.generations.length := fun later => Bool.noConfusion (unseen' 0 later)
  have one : outcome.generations.length = 1 := by
    rcases seen (by omega) with before | ⟨m, next, -⟩
    · have := of_decide_eq_true before
      omega
    · omega
  exact ⟨whole, outcome, found, three, found', one, generations, evaluations⟩

end Genetic
end Backtest
