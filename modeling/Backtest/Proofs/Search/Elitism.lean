import Backtest.Proofs.Search.Ranking

namespace Backtest

namespace Goal

variable {α : Type} [Arith α]

/-- An amount falls short of another one, as the goal has it. -/
def Worse (goal : Goal) (a b : α) : Prop := if goal.prefersLess then b < a else a < b

/-- The better of two amounts, as the goal has it. -/
def better (goal : Goal) : α → α → α := if goal.prefersLess then Arith.smaller else Arith.larger

variable {goal : Goal} {a b c : α}

section Ordered

variable [Arith.Ordered α]

theorem exists_standing (goal : Goal) : ∃ standing : α → ℝ, ∀ a b : α,
    Arith.isFinite a = true → Arith.isFinite b = true → (goal.Worse a b ↔ standing a < standing b) := by
  obtain ⟨place, lt⟩ := Arith.Ordered.exists_place (α := α)
  unfold Worse
  cases goal.prefersLess with
  | true => exact ⟨fun a => -place a, fun a b ha hb => (lt b a hb ha).trans neg_lt_neg_iff.symm⟩
  | false => exact ⟨place, lt⟩

theorem not_worse_self (ha : Arith.isFinite a = true) : ¬goal.Worse a a := by
  obtain ⟨standing, lt⟩ := exists_standing (α := α) goal
  rw [lt a a ha ha]
  exact lt_irrefl _

theorem not_worse_trans (ha : Arith.isFinite a = true) (hb : Arith.isFinite b = true)
    (hc : Arith.isFinite c = true) (h : ¬goal.Worse a b) (h' : ¬goal.Worse b c) : ¬goal.Worse a c := by
  obtain ⟨standing, lt⟩ := exists_standing (α := α) goal
  rw [lt a b ha hb, not_lt] at h
  rw [lt b c hb hc, not_lt] at h'
  rw [lt a c ha hc, not_lt]
  exact h'.trans h

theorem not_worse_of_worse (ha : Arith.isFinite a = true) (hb : Arith.isFinite b = true)
    (h : goal.Worse a b) : ¬goal.Worse b a := by
  obtain ⟨standing, lt⟩ := exists_standing (α := α) goal
  rw [lt a b ha hb] at h
  rw [lt b a hb ha]
  exact lt_asymm h

end Ordered

variable [Arith.Signed α]

theorem better_eq (goal : Goal) (b : α) (ha : Arith.isFinite a = true) :
    goal.better a b = b ∧ goal.Worse a b ∨ goal.better a b = a ∧ ¬goal.Worse a b := by
  unfold better Worse
  split
  next =>
    unfold Arith.smaller
    split
    next h => exact .inl ⟨rfl, h⟩
    next h => exact .inr ⟨if_pos (Arith.Signed.beq_self a ha), h⟩
  next =>
    unfold Arith.larger
    split
    next h => exact .inl ⟨rfl, h⟩
    next h => exact .inr ⟨if_pos (Arith.Signed.beq_self a ha), h⟩

theorem foldl_better (goal : Goal) {x : α} {xs : List α} (finite : ∀ y ∈ x :: xs, Arith.isFinite y = true) :
    xs.foldl goal.better x ∈ x :: xs ∧ ∀ y ∈ x :: xs, ¬goal.Worse (xs.foldl goal.better x) y := by
  induction xs generalizing x with
  | nil =>
    refine ⟨List.mem_cons_self, fun y hy => ?_⟩
    rw [List.mem_singleton.mp hy]
    exact not_worse_self (finite x List.mem_cons_self)
  | cons y ys ih =>
    obtain ⟨hx, hrest⟩ := List.forall_mem_cons.mp finite
    obtain ⟨hy, hys⟩ := List.forall_mem_cons.mp hrest
    rw [List.foldl_cons]
    rcases better_eq goal y hx with ⟨heq, worse⟩ | ⟨heq, notWorse⟩
    · rw [heq]
      obtain ⟨mem, top⟩ := ih hrest
      have hbest := hrest _ mem
      refine ⟨List.mem_cons_of_mem x mem, List.forall_mem_cons.mpr ⟨?_, top⟩⟩
      exact not_worse_trans hbest hy hx (top y List.mem_cons_self) (not_worse_of_worse hx hy worse)
    · rw [heq]
      obtain ⟨mem, top⟩ := ih (List.forall_mem_cons.mpr ⟨hx, hys⟩)
      obtain ⟨topx, topys⟩ := List.forall_mem_cons.mp top
      have mem' : ys.foldl goal.better x ∈ x :: y :: ys := by
        rcases List.mem_cons.mp mem with heq | mem
        · rw [heq]
          exact List.mem_cons_self
        · exact List.mem_cons_of_mem x (List.mem_cons_of_mem y mem)
      refine ⟨mem', List.forall_mem_cons.mpr ⟨topx, List.forall_mem_cons.mpr ⟨?_, topys⟩⟩⟩
      exact not_worse_trans (finite _ mem') hx hy topx notWorse

theorem ofValue_below (ha : Arith.isFinite a = true) (hb : Arith.isFinite b = true) :
    (Score.ofValue goal a).below (.ofValue goal b) = true ↔ goal.Worse a b := by
  unfold Score.ofValue Worse
  rw [if_pos ha, if_pos hb]
  unfold Score.below
  rw [decide_eq_true_eq]
  split
  next => exact Arith.Signed.neg_lt_neg_iff a b ha hb
  next => exact Iff.rfl

end Goal

namespace Genetic

section Population

variable {α : Type} [Arith α]

/-- An individual that counts is scored by its value, which is finite. -/
def Rated (goal : Goal) (i : Individual α) : Prop :=
  i.score ≠ .penalised → Arith.isFinite i.value = true ∧ i.score = .ofValue goal i.value

theorem rated_of_score {p : Problem α} {r : RunFigures α} {i : Individual α}
    (h : (i.score, i.value) = p.score r) : Rated p.goal i := by
  obtain ⟨hscore, hvalue⟩ := Prod.mk.inj h
  intro counts
  rw [hvalue]
  split at hscore
  next =>
    refine ⟨?_, hscore⟩
    rw [hscore, ne_eq, ofValue_eq_penalised, Bool.not_eq_false] at counts
    exact counts
  next => exact absurd hscore counts

theorem Rated.finite [Arith.Ordered α] {goal : Goal} {i : Individual α} (h : Rated goal i) :
    i.score.Finite := by
  by_cases counts : i.score = .penalised
  · rw [counts]
    trivial
  · rw [(h counts).2]
    exact Score.ofValue_finite goal i.value

theorem Problem.individual_counts (p : Problem α) {rating : Genes → RunFigures α} {genes : Genes}
    (counts : p.counts (rating genes) = true)
    (finite : Arith.isFinite ((rating genes).goalFigure p.goal) = true) :
    (p.individual rating genes).score ≠ .penalised :=
  p.not_penalised (e := ⟨0, [], rating genes, 0⟩) counts finite

omit [Arith α] in
theorem mem_counting {islands : List (List (Individual α))} {i : Individual α} :
    i ∈ counting islands ↔ i ∈ islands.flatten ∧ i.score ≠ .penalised := by
  unfold counting
  rw [List.mem_filter]
  refine and_congr_right fun _ => ?_
  cases i.score with
  | penalised => simp
  | reached x => simp

theorem figures_best (p : Problem α) (number : Nat) (values : List α) (best : Option (Assignment α)) :
    (p.figures number values best).best =
      match values with
      | [] => 0
      | x :: xs => xs.foldl p.goal.better x := by
  unfold Problem.figures Goal.better
  cases values with
  | nil => rfl
  | cons x xs =>
    dsimp only
    split <;> rfl

/-- The best value that a generation reports is that of an individual that counts, and none that counts
has a better one. -/
theorem generation_tops [Arith.Signed α] {p : Problem α} {islands : List (List (Individual α))}
    (rated : ∀ i ∈ islands.flatten, Rated p.goal i) {number : Nat} {figures : Generation α}
    (hfigures : p.generation number islands = .ok figures) {i : Individual α}
    (hi : i ∈ islands.flatten) (counts : i.score ≠ .penalised) :
    ∃ j ∈ islands.flatten, j.score ≠ .penalised ∧ figures.best = j.value ∧
      ∀ k ∈ islands.flatten, k.score ≠ .penalised → ¬p.goal.Worse j.value k.value := by
  obtain ⟨candidate, -, rfl⟩ := generation_eq_ok.mp hfigures
  have present := mem_counting.mpr ⟨hi, counts⟩
  have finite : ∀ x ∈ (counting islands).map Individual.value, Arith.isFinite x = true := by
    intro x hx
    obtain ⟨k, hk, rfl⟩ := List.mem_map.mp hx
    obtain ⟨hk, counts⟩ := mem_counting.mp hk
    exact (rated k hk counts).1
  have found := figures_best p number ((counting islands).map Individual.value) candidate
  have values (k : Individual α) (hk : k ∈ counting islands) :
      k.value ∈ (counting islands).map Individual.value := List.mem_map_of_mem hk
  generalize hlist : (counting islands).map Individual.value = list at finite found values ⊢
  cases list with
  | nil => exact absurd (values i present) List.not_mem_nil
  | cons x xs =>
    obtain ⟨mem, top⟩ := Goal.foldl_better p.goal finite
    rw [← hlist] at mem
    obtain ⟨j, hj, hvalue⟩ := List.mem_map.mp mem
    obtain ⟨hj, counts⟩ := mem_counting.mp hj
    refine ⟨j, hj, counts, found.trans hvalue.symm, fun k hk counts => ?_⟩
    rw [hvalue]
    exact top _ (values k (mem_counting.mpr ⟨hk, counts⟩))

end Population

section Migration

variable {α : Type} [Arith α] [Arith.Ordered α] {island : List (Individual α)}
  {islands out : List (List (Individual α))} {i : Individual α}

theorem best_tops (finite : ∀ i ∈ island, i.score.Finite) (hi : i ∈ island) :
    ∃ b, best island = some b ∧ Tops Individual.score island b := by
  cases island with
  | nil => cases hi
  | cons x xs => exact lastBest_cons finite

/-- Whoever is on an island before a migration is topped by the best of some island after it. -/
theorem Migrates.tops (h : Migrates islands out) (inhabited : ∀ island ∈ islands, 0 < island.length)
    (finite : ∀ i ∈ islands.flatten, i.score.Finite) (hi : i ∈ islands.flatten) :
    ∃ island ∈ out, ∃ b, best island = some b ∧ b.score.below i.score = false := by
  obtain ⟨home, hhome, hi'⟩ := List.mem_flatten.mp hi
  have finiteAt : ∀ island ∈ islands, ∀ i ∈ island, i.score.Finite := fun island hisland i hi =>
    finite i (List.mem_flatten.mpr ⟨island, hisland, hi⟩)
  obtain ⟨c, hc, top⟩ := best_tops (finiteAt home hhome) hi'
  have nobodyNew : ∀ i ∈ out.flatten, i ∈ islands.flatten := fun i hi => h.mem hi
  rcases h with rfl | ⟨-, hout⟩
  · exact ⟨home, hhome, c, hc, top.not_below i hi'⟩
  · -- the best of the island goes to the next one, whomever it replaces there
    have leaves : some c ∈ rotate (islands.map best) :=
      mem_rotate.mpr (hc ▸ List.mem_map_of_mem hhome)
    obtain ⟨k, hk, hgoes⟩ := List.mem_iff_getElem.mp leaves
    have hk' : k < islands.length := by
      rw [rotate_length, List.length_map] at hk
      exact hk
    have there : islands[k] ∈ islands := List.getElem_mem hk'
    have arrives := self_mem_replaceWorst (inhabited _ there) c
    have hmoved : replaceWorst islands[k] (some c) ∈ out := by
      rw [hout, ← hgoes]
      exact List.mem_iff_getElem.mpr ⟨k, by simpa [rotate_length] using hk', List.getElem_zipWith⟩
    have finiteThere : ∀ i ∈ replaceWorst islands[k] (some c), i.score.Finite := fun i hi =>
      finite i (nobodyNew i (List.mem_flatten.mpr ⟨_, hmoved, hi⟩))
    obtain ⟨b, hb, top'⟩ := best_tops finiteThere arrives
    refine ⟨_, hmoved, b, hb, ?_⟩
    exact Score.not_below_trans (finiteThere b top'.mem) (finiteThere c arrives) (finite i hi)
      (top'.not_below c arrives) (top.not_below i hi')

end Migration

section Run

variable {α σ τ ρ : Type} [Arith α] [RowWriter α τ] [RandomSource ρ] {p : Problem α}
  {run : CandidateTrial α σ} {source : ρ} {start : SearchState α σ τ} {m n number : Nat}
  {islands earlier later : List (List (Individual α))}

theorem Evaluates.rated (h : Evaluates p run source start number islands) :
    ∀ i ∈ islands.flatten, Rated p.goal i := by
  obtain ⟨s, tried, explored⟩ := h.explored
  intro i hi
  obtain ⟨e, -, score⟩ :=
    (explored.keeps _ _).mp (explored.rated number (Nat.lt_succ_self number) islands h i hi)
  exact rated_of_score score

/-- In the course of a search, the same genes always have the same score. -/
theorem Evaluates.score_eq (h : Evaluates p run source start m earlier)
    (h' : Evaluates p run source start n later) (hmn : m ≤ n) {i j : Individual α}
    (hi : i ∈ earlier.flatten) (hj : j ∈ later.flatten) (genes : j.genes = i.genes) :
    j.score = i.score := by
  obtain ⟨s, tried, explored⟩ := h'.explored
  have old := explored.rated m (Nat.lt_succ_of_le hmn) earlier h i hi
  have new := explored.rated n (Nat.lt_succ_self n) later h' j hj
  rw [genes] at new
  exact congrArg Prod.fst (Option.some.inj (new.symm.trans old))

theorem Evaluates.bred (h : Evaluates p run source start (n + 1) later) :
    ∃ earlier, Evaluates p run source start n earlier ∧ ∃ out, Migrates earlier out ∧
      ∀ island ∈ out, ∀ genes ∈ elite p.settings island, genes ∈ (genesOf later).flatten := by
  obtain ⟨s, noted, reach, hnoted⟩ := h
  rw [genesOf_of_noteGeneration hnoted]
  cases reach with
  | @next _ before notedBefore _ earlier reach hbefore hbred =>
    have evaluates : Evaluates p run source start n earlier := ⟨before, notedBefore, reach, hbefore⟩
    obtain ⟨sizes, next, _, hsizes, drawn, rfl⟩ := bred_eq_ok.mp hbred
    obtain ⟨sizes', hsizes', always⟩ := evaluates.populated.nextIslands (ρ := ρ)
    cases hsizes.symm.trans hsizes'
    exact ⟨earlier, evaluates, (always.of_run drawn).2⟩

variable [Arith.Ordered α]

/-- With elitism, whoever is in a generation is topped in the next one. -/
theorem Evaluates.tops_next (elitism : p.settings.elitism = true)
    (h : Evaluates p run source start (n + 1) later) :
    ∃ earlier, Evaluates p run source start n earlier ∧
      ∀ i ∈ earlier.flatten, ∃ j ∈ later.flatten, j.score.below i.score = false := by
  obtain ⟨earlier, before, out, migrated, kept⟩ := h.bred
  refine ⟨earlier, before, fun i hi => ?_⟩
  obtain ⟨island, hisland, b, hb, top⟩ :=
    migrated.tops before.inhabited (fun i hi => (before.rated i hi).finite) hi
  have old : b ∈ earlier.flatten :=
    migrated.mem (List.mem_flatten.mpr ⟨island, hisland, lastBest_mem hb⟩)
  obtain ⟨j, hj, same⟩ :=
    mem_genesOf.mp (kept island hisland b.genes (mem_elite.mpr ⟨elitism, b, hb, rfl⟩))
  refine ⟨j, hj, ?_⟩
  rw [before.score_eq h (Nat.le_succ n) old hj same]
  exact top

theorem Evaluates.tops_later (elitism : p.settings.elitism = true)
    (h : Evaluates p run source start m earlier) (h' : Evaluates p run source start n later)
    (hmn : m ≤ n) {i : Individual α} (hi : i ∈ earlier.flatten) :
    ∃ j ∈ later.flatten, j.score.below i.score = false := by
  have finite := (h.rated i hi).finite
  induction n, hmn using Nat.le_induction generalizing later with
  | base =>
    cases h.unique h'
    exact ⟨i, hi, Score.not_below_self finite⟩
  | succ n hmn ih =>
    obtain ⟨middle, between, tops⟩ := h'.tops_next elitism
    obtain ⟨k, hk, topk⟩ := ih between
    obtain ⟨j, hj, topj⟩ := tops k hk
    refine ⟨j, hj, ?_⟩
    exact Score.not_below_trans (h'.rated j hj).finite (between.rated k hk).finite finite topj topk

theorem Evaluates.exists_tops (h : Evaluates p run source start number islands) :
    ∃ b, Tops Individual.score islands.flatten b := by
  obtain ⟨i, hi⟩ := h.exists_individual
  obtain ⟨b, -, top⟩ := best_tops (fun i hi => (h.rated i hi).finite) hi
  exact ⟨b, top⟩

end Run

/-- With elitism, the best score of a search never falls, whatever is drawn and whatever the candidates
come to. Once a generation has someone who counts, so have all later ones, and the best value that they
report is no worse. -/
theorem search_keeps_best {α σ τ ρ : Type} [Arith α] [Arith.Signed α] [RowWriter α τ] [RandomSource ρ]
    {p : Problem α} (elitism : p.settings.elitism = true) (run : CandidateTrial α σ) (source : ρ)
    (start : SearchState α σ τ) :
    (∀ m n earlier later, m ≤ n → Evaluates p run source start m earlier →
      Evaluates p run source start n later →
      (∃ b c, Tops Individual.score earlier.flatten b ∧ Tops Individual.score later.flatten c ∧
        c.score.below b.score = false) ∧
      ((∃ i ∈ earlier.flatten, i.score ≠ .penalised) →
        (∃ j ∈ later.flatten, j.score ≠ .penalised) ∧
        ∃ figures figures', p.generation m earlier = .ok figures ∧ p.generation n later = .ok figures' ∧
          Arith.isFinite figures.best = true ∧ Arith.isFinite figures'.best = true ∧
          ¬p.goal.Worse figures'.best figures.best)) ∧
    ∀ stop outcome, (search p run stop source start).2 = .ok outcome →
      Recorded p run source start outcome := by
  refine ⟨fun m n earlier later hmn h h' => ⟨?_, ?_⟩, fun stop outcome found => (search_explored found).1⟩
  · obtain ⟨b, topb⟩ := h.exists_tops
    obtain ⟨c, topc⟩ := h'.exists_tops
    obtain ⟨j, hj, above⟩ := h.tops_later elitism h' hmn topb.mem
    refine ⟨b, c, topb, topc, ?_⟩
    exact Score.not_below_trans (h'.rated c topc.mem).finite (h'.rated j hj).finite
      (h.rated b topb.mem).finite (topc.not_below j hj) above
  · rintro ⟨i, hi, counts⟩
    obtain ⟨figures, hfigures⟩ := h.figures
    obtain ⟨figures', hfigures'⟩ := h'.figures
    obtain ⟨b, hb, countsb, best, -⟩ := generation_tops h.rated hfigures hi counts
    obtain ⟨j, hj, above⟩ := h.tops_later elitism h' hmn hb
    obtain ⟨finiteb, scoreb⟩ := h.rated b hb countsb
    have countsj : j.score ≠ .penalised := by
      intro lost
      rw [lost] at above
      exact countsb (Score.eq_penalised_of_not_above above)
    obtain ⟨finitej, scorej⟩ := h'.rated j hj countsj
    obtain ⟨c, hc, countsc, best', top⟩ := generation_tops h'.rated hfigures' hj countsj
    obtain ⟨finitec, -⟩ := h'.rated c hc countsc
    refine ⟨⟨j, hj, countsj⟩, figures, figures', hfigures, hfigures', ?_⟩
    rw [best, best']
    refine ⟨finiteb, finitec, ?_⟩
    refine Goal.not_worse_trans finitec finitej finiteb (top j hj countsj) ?_
    rw [← Goal.ofValue_below finitej finiteb, ← scorej, ← scoreb, above]
    exact Bool.false_ne_true

section Sample

def rareRating (genes : Genes) : RunFigures Float := rareFigures (genes.map fun gene => (48, Arith.ofCount gene))

/-- The least loss of the first population is not exceeded by that of the last one. -/
theorem bredProblem_keeps_best :
    ∃ outcome earlier later,
      (search bredProblem rareTrial none (ChaCha.Stream.ofSeed 42) sampleStart).2 = .ok outcome ∧
      outcome.generations.length = 3 ∧
      Evaluates bredProblem rareTrial (ChaCha.Stream.ofSeed 42) sampleStart 0 earlier ∧
      Evaluates bredProblem rareTrial (ChaCha.Stream.ofSeed 42) sampleStart 2 later ∧
      (∃ j ∈ later.flatten, j.score ≠ .penalised) ∧
      ∃ figures figures', bredProblem.generation 0 earlier = .ok figures ∧
        bredProblem.generation 2 later = .ok figures' ∧ ¬Goal.Worse .profit figures'.best figures.best := by
  obtain ⟨outcome, found, whole⟩ := search_of_faultless (p := bredProblem) (List.cons_ne_nil _ _)
    bredProblem_counted rareTrial_dependable.faultless none (ChaCha.Stream.ofSeed 42) sampleStart
  have length : outcome.generations.length = 3 := whole rfl rfl
  obtain ⟨keeps, recorded⟩ :=
    search_keeps_best (p := bredProblem) rfl rareTrial (ChaCha.Stream.ofSeed 42) sampleStart
  obtain ⟨later, _, last, -⟩ := recorded none outcome found 2 (by omega)
  obtain ⟨s, opened, drawn⟩ : ∃ s : State Float Unit Unit ChaCha.Stream,
      opening bredProblem (ChaCha.Stream.ofSeed 42) sampleStart = .ok s ∧
        s.islands = [[[7], [4], [0], [4]], [[8], [9], [1], [0]]] := by
    refine map_eq_ok.mp ?_
    decide +kernel
  have banked : Banked bredProblem rareRating s.bank := by
    obtain ⟨_, _, _, _, -, -, -, rfl⟩ := opening_eq_ok.mp opened
    exact empty_banked bredProblem _
  obtain ⟨noted, hnoted⟩ := noteGeneration_of_dependable rareTrial_dependable (p := bredProblem)
    (fun genes hgenes => ⟨_, sampleProblem_candidate genes (drawn ▸ hgenes), rfl⟩) banked 0
  rw [drawn] at hnoted
  have first : Evaluates bredProblem rareTrial (ChaCha.Stream.ofSeed 42) sampleStart 0 _ :=
    ⟨s, noted, .first opened, hnoted⟩
  have counts : (bredProblem.individual rareRating [7]).score ≠ .penalised :=
    bredProblem.individual_counts (by decide +kernel) (by decide +kernel)
  obtain ⟨-, gained⟩ := keeps 0 2 _ later (Nat.zero_le 2) first last
  obtain ⟨counted, figures, figures', hfigures, hfigures', -, -, notWorse⟩ :=
    gained ⟨bredProblem.individual rareRating [7], .head _, counts⟩
  exact ⟨outcome, _, later, found, length, first, last, counted, figures, figures', hfigures, hfigures',
    notWorse⟩

end Sample

end Genetic
end Backtest
