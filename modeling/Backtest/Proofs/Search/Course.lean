import Backtest.Proofs.Search.Convergence

namespace Backtest

variable {α σ τ ρ : Type} [Arith α] [RowWriter α τ]

section Batch

variable {run : CandidateTrial α σ} {s s' : SearchState α σ τ}

theorem SearchState.evaluate_ok {c : Assignment α} {e : Evaluation α}
    (h : s.evaluate run c = (s', .ok e)) :
    e.parameters = c ∧ s'.shared = (run s.shared c).1 := by
  unfold SearchState.evaluate at h
  split at h
  next => cases h
  next shared result hrun =>
    unfold Sink.record at h
    dsimp only at h
    split at h
    next => cases h
    next =>
      cases h
      rw [hrun]
      exact ⟨rfl, rfl⟩

theorem SearchState.evaluateAll_ok {cs : List (Assignment α)} {es : List (Evaluation α)}
    (h : s.evaluateAll run none cs = (s', .ok es)) :
    es.map (·.parameters) = cs ∧
      s'.shared = cs.foldl (fun shared c => (run shared c).1) s.shared := by
  induction cs generalizing s es with
  | nil =>
    cases h
    exact ⟨rfl, rfl⟩
  | cons c cs ih =>
    unfold SearchState.evaluateAll at h
    simp only [StopPoint.isReached, Option.any_none, Bool.false_eq_true, ↓reduceIte] at h
    split at h
    next => cases h
    next s₁ e he =>
      obtain ⟨parameters, shared⟩ := evaluate_ok he
      split at h
      next s₂ es hes =>
        cases h
        obtain ⟨parameters', shared'⟩ := ih hes
        exact ⟨by rw [List.map_cons, parameters, parameters'], by rw [shared', shared, List.foldl_cons]⟩
      next => cases h

end Batch

namespace Genetic

section Bank

theorem nodup_eraseDups (xs : List Genes) : xs.eraseDups.Nodup := by
  cases xs with
  | nil => exact List.nodup_nil
  | cons x xs =>
    -- the head is erased from the rest before the rest is looked at
    rw [List.eraseDups_cons, List.nodup_cons, List.mem_eraseDups]
    refine ⟨fun hx => ?_, nodup_eraseDups (xs.filter fun y => !y == x)⟩
    simpa using (List.mem_filter.mp hx).2
termination_by xs.length
decreasing_by exact Nat.lt_succ_of_le (List.length_filter_le _ _)

omit [Arith α] in
theorem exists_mem_zip {fresh : List Genes} {es : List (Evaluation α)}
    (length : fresh.length = es.length) {genes : Genes} (h : genes ∈ fresh) :
    ∃ e, (genes, e) ∈ fresh.zip es := by
  rw [← List.map_fst_zip (Nat.le_of_eq length)] at h
  obtain ⟨⟨_, e⟩, he, rfl⟩ := List.mem_map.mp h
  exact ⟨e, he⟩

variable {p : Problem α} {bank : Bank α} {fresh : List Genes} {es : List (Evaluation α)}

def Problem.banking (p : Problem α) (fresh : List Genes) (es : List (Evaluation α)) (bank : Bank α) :
    Bank α :=
  (fresh.zip es).foldl (fun bank (genes, e) => bank.insert genes (p.score e.result)) bank

theorem banking_getElem? (distinct : fresh.Nodup) (length : fresh.length = es.length) (genes : Genes)
    (x : Score α × α) : (p.banking fresh es bank)[genes]? = some x ↔
      (∃ e, (genes, e) ∈ fresh.zip es ∧ x = p.score e.result) ∨
        genes ∉ fresh ∧ bank[genes]? = some x := by
  unfold Problem.banking
  induction fresh generalizing bank es with
  | nil => simp
  | cons other fresh ih =>
    cases es with
    | nil => cases length
    | cons e es =>
      obtain ⟨new, distinct⟩ := List.nodup_cons.mp distinct
      rw [List.zip_cons_cons, List.foldl_cons, ih distinct (Nat.succ.inj length),
        Std.HashMap.getElem?_insert]
      by_cases heq : other = genes
      · subst heq
        have absent : ∀ e, (other, e) ∉ fresh.zip es := fun e he => new (List.of_mem_zip he).1
        simp [new, absent, eq_comm]
      · have ne : ¬genes = other := Ne.symm heq
        simp [heq, ne]

/-- A bank holds the scores of evaluations, each under the genes that were tried in it. -/
def Keeps (p : Problem α) (bank : Bank α) (tried : List Genes) (evaluations : List (Evaluation α)) :
    Prop :=
  ∀ genes x, bank[genes]? = some x ↔ ∃ e, (genes, e) ∈ tried.zip evaluations ∧ x = p.score e.result

theorem Keeps.contains_iff {tried : List Genes} {evaluations : List (Evaluation α)}
    (h : Keeps p bank tried evaluations) (length : tried.length = evaluations.length) (genes : Genes) :
    bank.contains genes = true ↔ genes ∈ tried := by
  rw [Std.HashMap.contains_eq_isSome_getElem?, Option.isSome_iff_exists]
  constructor
  · rintro ⟨x, hx⟩
    obtain ⟨e, he, -⟩ := (h genes x).mp hx
    exact (List.of_mem_zip he).1
  · intro mem
    obtain ⟨e, he⟩ := exists_mem_zip length mem
    exact ⟨_, (h genes _).mpr ⟨e, he, rfl⟩⟩

theorem Keeps.banking {tried : List Genes} {evaluations : List (Evaluation α)}
    (h : Keeps p bank tried evaluations) (length : tried.length = evaluations.length)
    (distinct : fresh.Nodup) (length' : fresh.length = es.length)
    (new : ∀ genes ∈ tried, genes ∉ fresh) :
    Keeps p (p.banking fresh es bank) (tried ++ fresh) (evaluations ++ es) := by
  intro genes x
  rw [banking_getElem? distinct length', h genes x, List.zip_append length]
  constructor
  · rintro (⟨e, he, score⟩ | ⟨-, e, he, score⟩)
    · exact ⟨e, List.mem_append_right _ he, score⟩
    · exact ⟨e, List.mem_append_left _ he, score⟩
  · rintro ⟨e, he, score⟩
    rcases List.mem_append.mp he with he | he
    · exact .inr ⟨new genes (List.of_mem_zip he).1, e, he, score⟩
    · exact .inl ⟨e, he, score⟩

omit [Arith α] in
theorem mem_pending_iff {islands : List (List Genes)} {genes : Genes} :
    genes ∈ pending bank islands ↔ genes ∈ islands.flatten ∧ bank.contains genes = false := by
  unfold pending
  rw [List.mem_eraseDups, List.mem_filter, Bool.not_eq_true']

theorem genesOf_scored (bank : Bank α) (islands : List (List Genes)) :
    genesOf (Genetic.scored bank islands) = islands := by
  unfold genesOf Genetic.scored
  rw [List.map_map]
  refine (List.map_congr_left fun island _ => ?_).trans (List.map_id islands)
  rw [Function.comp_apply, List.map_map]
  exact (List.map_congr_left fun _ _ => rfl).trans (List.map_id island)

theorem mem_scored {islands : List (List Genes)} {i : Individual α}
    (hi : i ∈ (Genetic.scored bank islands).flatten) :
    i.genes ∈ islands.flatten ∧ ∀ x, bank[i.genes]? = some x → (i.score, i.value) = x := by
  obtain ⟨scored, hscored, hi⟩ := List.mem_flatten.mp hi
  obtain ⟨island, hisland, rfl⟩ := List.mem_map.mp hscored
  obtain ⟨genes, hgenes, rfl⟩ := List.mem_map.mp hi
  refine ⟨List.mem_flatten.mpr ⟨island, hisland, hgenes⟩, fun x hx => ?_⟩
  dsimp only at hx ⊢
  rw [Std.HashMap.getD_eq_getD_getElem?, hx]
  rfl

def State.trying (p : Problem α) (fresh : List Genes) (search : SearchState α σ τ)
    (es : List (Evaluation α)) (s : State α σ τ ρ) : State α σ τ ρ :=
  { s with
    search := search
    bank := p.banking fresh es s.bank
    report := { s.report with evaluations := s.report.evaluations ++ es } }

theorem scoreGeneration_eq_ok {run : CandidateTrial α σ} {s scored : State α σ τ ρ}
    {islands : List (List (Individual α))} : scoreGeneration p run s = (scored, .ok islands) ↔
      ∃ batch search es, (pending s.bank s.islands).mapM p.candidate = .ok batch ∧
        s.search.evaluateAll run none batch = (search, .ok es) ∧
        scored = s.trying p (pending s.bank s.islands) search es ∧
        islands = Genetic.scored scored.bank s.islands := by
  unfold scoreGeneration
  dsimp only
  constructor
  · intro h
    split at h
    next => cases h
    next batch hbatch =>
      split at h
      next => cases h
      next search es hes =>
        cases h
        exact ⟨batch, search, es, hbatch, hes, rfl, rfl⟩
  · rintro ⟨batch, search, es, hbatch, hes, rfl, rfl⟩
    simp only [hbatch, hes]
    rfl

end Bank

/-- What a search has explored before the generation of a number: genes of the generations before, in the
order of their evaluations and each once. Its trial ran for no others, and the bank keeps their scores,
which are those of the individuals. -/
structure Explored [RandomSource ρ] (p : Problem α) (run : CandidateTrial α σ) (source : ρ)
    (start : SearchState α σ τ) (tried : List Genes) (number : Nat) (s : State α σ τ ρ) : Prop where
  distinct : tried.Nodup
  ran : s.search.shared =
    (s.report.evaluations.map (·.parameters)).foldl (fun shared c => (run shared c).1) start.shared
  evaluated : tried.mapM p.candidate = .ok (s.report.evaluations.map (·.parameters))
  keeps : Keeps p s.bank tried s.report.evaluations
  bred : ∀ genes ∈ tried, ∃ n < number, ∃ islands, Evaluates p run source start n islands ∧
    ∃ i ∈ islands.flatten, i.genes = genes
  rated : ∀ n < number, ∀ islands, Evaluates p run source start n islands →
    ∀ i ∈ islands.flatten, s.bank[i.genes]? = some (i.score, i.value)

section Course

variable [RandomSource ρ] {p : Problem α} {run : CandidateTrial α σ} {source : ρ}
  {start : SearchState α σ τ} {tried : List Genes} {number : Nat} {s s' noted : State α σ τ ρ}
  {islands : List (List (Individual α))}

theorem Explored.length (h : Explored p run source start tried number s) :
    tried.length = s.report.evaluations.length :=
  (mapM_eq_ok_iff.mp h.evaluated).length_eq.trans (List.length_map _)

/-- What a search has explored is said of its bank, its evaluations, and what its trial left behind. -/
theorem Explored.congr (h : Explored p run source start tried number s)
    (shared : s'.search.shared = s.search.shared) (bank : s'.bank = s.bank)
    (evaluations : s'.report.evaluations = s.report.evaluations) :
    Explored p run source start tried number s' where
  distinct := h.distinct
  ran := by
    rw [evaluations]
    exact shared.trans h.ran
  evaluated := by
    rw [evaluations]
    exact h.evaluated
  keeps := by
    rw [bank, evaluations]
    exact h.keeps
  bred := h.bred
  rated := by
    rw [bank]
    exact h.rated

theorem Explored.noteGeneration (h : Explored p run source start tried number s)
    (reach : ComesTo p run source start number s)
    (hnoted : noteGeneration p run number s = (noted, .ok islands)) :
    ∃ more, Explored p run source start (tried ++ more) (number + 1) noted := by
  have evaluates : Evaluates p run source start number islands := ⟨s, noted, reach, hnoted⟩
  obtain ⟨scored, figures, hscored, -, rfl⟩ := noteGeneration_eq_ok.mp hnoted
  obtain ⟨batch, search, es, hbatch, hes, rfl, rfl⟩ := scoreGeneration_eq_ok.mp hscored
  obtain ⟨parameters, shared⟩ := SearchState.evaluateAll_ok hes
  have length : (pending s.bank s.islands).length = es.length := by
    have count := congrArg List.length parameters
    rw [List.length_map] at count
    exact (mapM_eq_ok_iff.mp hbatch).length_eq.trans count.symm
  have known := h.keeps.contains_iff h.length
  have new : ∀ genes ∈ tried, genes ∉ pending s.bank s.islands := by
    intro genes hold hnew
    have absent := (mem_pending_iff.mp hnew).2
    rw [(known genes).mpr hold] at absent
    cases absent
  have keeps := h.keeps.banking h.length (nodup_eraseDups _) length new
  refine ⟨pending s.bank s.islands, ?_, ?_, ?_, keeps, fun genes hgenes => ?_, ?_⟩
  · refine List.nodup_append.mpr ⟨h.distinct, nodup_eraseDups _, fun genes hold other hnew => ?_⟩
    exact fun heq => new genes hold (heq ▸ hnew)
  · change search.shared = ((s.report.evaluations ++ es).map (·.parameters)).foldl _ _
    rw [shared, h.ran, List.map_append, parameters, List.foldl_append]
  · change _ = Except.ok ((s.report.evaluations ++ es).map (·.parameters))
    rw [List.mapM_append, h.evaluated, hbatch, List.map_append, parameters]
    rfl
  · rcases List.mem_append.mp hgenes with hold | hnew
    · obtain ⟨n, hn, bred⟩ := h.bred genes hold
      exact ⟨n, Nat.lt_succ_of_lt hn, bred⟩
    · refine ⟨number, Nat.lt_succ_self number, _, evaluates, mem_genesOf.mp ?_⟩
      rw [genesOf_scored]
      exact (mem_pending_iff.mp hnew).1
  · intro n hn islands' evaluates' i hi
    rcases Nat.lt_succ_iff_lt_or_eq.mp hn with hn | rfl
    · -- what was in the bank stays there
      obtain ⟨e, he, score⟩ := (h.keeps _ _).mp (h.rated n hn islands' evaluates' i hi)
      refine (keeps _ _).mpr ⟨e, ?_, score⟩
      rw [List.zip_append h.length]
      exact List.mem_append_left _ he
    · cases evaluates'.unique evaluates
      obtain ⟨present, score⟩ := mem_scored hi
      -- whoever was not in the bank was pending
      have held : i.genes ∈ tried ++ pending s.bank s.islands := by
        rw [List.mem_append, mem_pending_iff]
        cases hbank : s.bank.contains i.genes with
        | true => exact .inl ((known i.genes).mp hbank)
        | false => exact .inr ⟨present, rfl⟩
      have length' : (tried ++ pending s.bank s.islands).length =
          (s.report.evaluations ++ es).length := by
        rw [List.length_append, List.length_append, h.length, length]
      obtain ⟨e, he⟩ := exists_mem_zip length' held
      have hbank := (keeps i.genes _).mpr ⟨e, he, rfl⟩
      rw [score _ hbank]
      exact hbank

theorem ComesTo.explored (reach : ComesTo p run source start number s) :
    ∃ tried, Explored p run source start tried number s := by
  induction reach with
  | first opened =>
    obtain ⟨_, _, _, _, -, -, -, rfl⟩ := opening_eq_ok.mp opened
    refine ⟨[], List.nodup_nil, rfl, rfl, fun genes x => ?_, List.forall_mem_nil _, ?_⟩
    · change (∅ : Bank α)[genes]? = some x ↔ _
      simp
    · exact fun n hn => absurd hn (Nat.not_lt_zero n)
  | next reach hnoted hbred ih =>
    obtain ⟨tried, explored⟩ := ih
    obtain ⟨more, explored⟩ := explored.noteGeneration reach hnoted
    obtain ⟨_, _, _, -, -, rfl⟩ := bred_eq_ok.mp hbred
    exact ⟨tried ++ more, explored.congr rfl rfl rfl⟩

theorem Evaluates.explored (h : Evaluates p run source start number islands) :
    ∃ (s : State α σ τ ρ) (tried : List Genes), Explored p run source start tried (number + 1) s := by
  obtain ⟨s, noted, reach, hnoted⟩ := h
  obtain ⟨tried, explored⟩ := reach.explored
  obtain ⟨more, explored⟩ := explored.noteGeneration reach hnoted
  exact ⟨noted, tried ++ more, explored⟩

/-- Each generation of a report is that of a population which the search evaluates. -/
def Recorded (p : Problem α) (run : CandidateTrial α σ) (source : ρ) (start : SearchState α σ τ)
    (report : GeneticOutcome α) : Prop :=
  ∀ number < report.generations.length, ∃ islands figures,
    Evaluates p run source start number islands ∧ p.generation number islands = .ok figures ∧
      report.generations[number]? = some figures

theorem Recorded.noting (h : Recorded p run source start s.report)
    (reach : ComesTo p run source start number s)
    (hnoted : Genetic.noteGeneration p run number s = (noted, .ok islands)) :
    Recorded p run source start noted.report := by
  obtain ⟨⟨figures, hfigures, generations⟩, -⟩ := noteGeneration_report hnoted
  have count := reach.report.1
  intro n hn
  rw [generations] at hn ⊢
  rw [List.length_append, List.length_singleton, count] at hn
  rcases Nat.lt_succ_iff_lt_or_eq.mp hn with hold | rfl
  · obtain ⟨islands', figures', evaluates, hfigures', noted'⟩ := h n (count ▸ hold)
    exact ⟨islands', figures', evaluates, hfigures', by
      rw [List.getElem?_append_left (count ▸ hold), noted']⟩
  · refine ⟨islands, figures, ⟨s, noted, reach, hnoted⟩, hfigures, ?_⟩
    rw [List.getElem?_append_right (Nat.le_of_eq count), count, Nat.sub_self]
    rfl

theorem ComesTo.recorded (reach : ComesTo p run source start number s) :
    Recorded p run source start s.report := by
  induction reach with
  | first opened =>
    obtain ⟨_, _, _, _, -, -, -, rfl⟩ := opening_eq_ok.mp opened
    exact fun n hn => absurd hn (Nat.not_lt_zero n)
  | next reach hnoted hbred ih =>
    obtain ⟨_, _, _, -, -, rfl⟩ := bred_eq_ok.mp hbred
    exact (ih.noting reach hnoted :)

/-- Where a search without a fault ends: before a generation, or after one that was scored. -/
theorem generations_ends {stop : StopPoint} {left : Nat} (reach : ComesTo p run source start number s)
    (done : generations p run stop left number s = (s', none)) :
    (∃ n, ComesTo p run source start n s') ∨
    ∃ (n : Nat) (last noted : State α σ τ ρ) (islands : List (List (Individual α))) (converged : Bool),
      ComesTo p run source start n last ∧
      Genetic.noteGeneration p run n last = (noted, .ok islands) ∧
      s' = { noted with report := { noted.report with converged := converged } } := by
  induction left generalizing number s with
  | zero =>
    cases done
    exact .inl ⟨number, reach⟩
  | succ left ih =>
    unfold generations at done
    split at done
    next =>
      cases done
      exact .inl ⟨number, reach⟩
    next =>
      split at done
      next => cases done
      next noted islands hnoted =>
        split at done
        next =>
          cases done
          exact .inr ⟨number, s, _, islands, _, reach, hnoted, rfl⟩
        next =>
          split at done
          next =>
            cases done
            exact .inr ⟨number, s, _, islands, _, reach, hnoted, rfl⟩
          next =>
            split at done
            next =>
              cases done
              exact .inr ⟨number, s, _, islands, _, reach, hnoted, rfl⟩
            next =>
              split at done
              next => cases done
              next hbred => exact ih (reach.next hnoted hbred) done

theorem search_explored {stop : StopPoint} {outcome : GeneticOutcome α}
    (found : (search p run stop source start).2 = .ok outcome) :
    Recorded p run source start outcome ∧
    ∃ (s : State α σ τ ρ) (tried : List Genes), (search p run stop source start).1 = s.search ∧
      s.report = outcome ∧ Explored p run source start tried outcome.generations.length s := by
  obtain ⟨s, s', opened, done, out, rfl⟩ := search_eq_ok found
  have ended : Recorded p run source start s'.report ∧
      ∃ tried, Explored p run source start tried s'.report.generations.length s' := by
    rcases generations_ends (.first opened) done with ⟨n, reach⟩ |
      ⟨n, last, noted, islands, converged, reach, hnoted, rfl⟩
    · obtain ⟨tried, explored⟩ := reach.explored
      exact ⟨reach.recorded, tried, reach.report.1 ▸ explored⟩
    · obtain ⟨tried, explored⟩ := reach.explored
      obtain ⟨more, explored⟩ := explored.noteGeneration reach hnoted
      obtain ⟨⟨figures, -, generations⟩, -⟩ := noteGeneration_report hnoted
      have count : noted.report.generations.length = n + 1 := by
        rw [generations, List.length_append, reach.report.1]
        rfl
      refine ⟨(reach.recorded.noting reach hnoted :), tried ++ more, ?_⟩
      dsimp only
      rw [count]
      exact explored.congr rfl rfl rfl
  obtain ⟨recorded, tried, explored⟩ := ended
  exact ⟨recorded, s', tried, congrArg Prod.fst out, rfl, explored⟩

end Course

end Genetic
end Backtest
