import Mathlib.Data.List.Zip
import Backtest.Proofs.History.Increasing
import Backtest.Search.Genetic.Basic

namespace Backtest

variable {α σ τ ρ : Type} [Arith α] [RowWriter α τ]

/-- A trial that never fails and whose figures are those of the candidate, with rows that can be
written. -/
structure Dependable (run : CandidateTrial α σ) (figures : Assignment α → RunFigures α) (τ : Type)
    [RowWriter α τ] : Prop where
  ran : ∀ (shared : σ) (c : Assignment α), (run shared c).2 = .ok (figures c)
  written : ∀ (rows : τ) (number : Nat) (c : Assignment α) (r : RunFigures α),
    (RowWriter.addRow rows number c r).2 = none

section Batch

variable {run : CandidateTrial α σ}

theorem SearchState.evaluate_of_ran {s : SearchState α σ τ} {c : Assignment α} {r : RunFigures α}
    (ran : (run s.shared c).2 = .ok r)
    (written : ∀ (rows : τ) (number : Nat), (RowWriter.addRow rows number c r).2 = none) :
    ∃ s' e, s.evaluate run c = (s', .ok e) ∧ e.result = r := by
  unfold SearchState.evaluate
  generalize run s.shared c = out at ran
  obtain ⟨shared, _⟩ := out
  dsimp only at ran
  subst ran
  have written := written s.sink.rows (s.sink.iterations + 1)
  unfold Sink.record
  dsimp only
  generalize RowWriter.addRow s.sink.rows (s.sink.iterations + 1) c r = row at written
  obtain ⟨rows, _⟩ := row
  dsimp only at written
  subst written
  exact ⟨_, _, rfl, rfl⟩

/-- A batch of which nothing fails comes to its end. -/
theorem SearchState.evaluateAll_of_each (relates : Assignment α → Evaluation α → Prop)
    (each : ∀ (s : SearchState α σ τ) (c : Assignment α),
      ∃ s' e, s.evaluate run c = (s', .ok e) ∧ relates c e)
    (cs : List (Assignment α)) (s : SearchState α σ τ) :
    ∃ s' es, s.evaluateAll run none cs = (s', .ok es) ∧ List.Forall₂ relates cs es := by
  induction cs generalizing s with
  | nil => exact ⟨s, [], rfl, .nil⟩
  | cons c cs ih =>
    obtain ⟨s', e, he, hce⟩ := each s c
    obtain ⟨s'', es, hes, hcs⟩ := ih s'
    refine ⟨s'', e :: es, ?_, .cons hce hcs⟩
    unfold SearchState.evaluateAll
    simp only [StopPoint.isReached, Option.any_none, Bool.false_eq_true, ↓reduceIte, he, hes]

theorem Dependable.evaluateAll {figures : Assignment α → RunFigures α} (h : Dependable run figures τ)
    (cs : List (Assignment α)) (s : SearchState α σ τ) :
    ∃ s' es, s.evaluateAll run none cs = (s', .ok es) ∧ es.map (·.result) = cs.map figures := by
  obtain ⟨s', es, hes, results⟩ := SearchState.evaluateAll_of_each (fun c e => e.result = figures c)
    (fun s c => SearchState.evaluate_of_ran (h.ran s.shared c) fun rows number => h.written rows number c _)
    cs s
  refine ⟨s', es, hes, ?_⟩
  clear hes
  induction results with
  | nil => rfl
  | cons result _ ih => rw [List.map_cons, List.map_cons, result, ih]

end Batch

namespace Genetic

def Problem.individual (p : Problem α) (rating : Genes → RunFigures α) (genes : Genes) : Individual α :=
  let x := p.score (rating genes)
  ⟨genes, x.1, x.2⟩

/-- The candidate of some genes comes to what they are rated at. -/
def Problem.Rates (p : Problem α) (figures : Assignment α → RunFigures α)
    (rating : Genes → RunFigures α) (genes : Genes) : Prop :=
  ∃ c, p.candidate genes = .ok c ∧ figures c = rating genes

/-- A bank that holds nothing but what rated genes score. -/
def Banked (p : Problem α) (rating : Genes → RunFigures α) (bank : Bank α) : Prop :=
  ∀ genes x, bank[genes]? = some x → x = p.score (rating genes)

theorem empty_banked (p : Problem α) (rating : Genes → RunFigures α) : Banked p rating ∅ := by
  intro genes x hx
  rw [Std.HashMap.getElem?_empty] at hx
  cases hx

theorem Banked.insertAll {p : Problem α} {rating : Genes → RunFigures α} {bank : Bank α}
    (h : Banked p rating bank) {fresh : List Genes} {es : List (Evaluation α)}
    (results : es.map (·.result) = fresh.map rating) :
    let bank' := (fresh.zip es).foldl (fun bank (genes, e) => bank.insert genes (p.score e.result))
      bank
    Banked p rating bank' ∧
      ∀ genes, (genes ∈ fresh ∨ bank.contains genes = true) → bank'.contains genes = true := by
  induction fresh generalizing bank es with
  | nil => exact ⟨h, fun genes hg => hg.resolve_left List.not_mem_nil⟩
  | cons genes fresh ih =>
    cases es with
    | nil => cases results
    | cons e es =>
      obtain ⟨result, results⟩ := List.cons_eq_cons.mp results
      have inserted : Banked p rating (bank.insert genes (p.score e.result)) := by
        intro other x hx
        rw [Std.HashMap.getElem?_insert] at hx
        split at hx
        next heq =>
          cases hx
          rw [← eq_of_beq heq]
          exact congrArg p.score result
        next => exact h other x hx
      obtain ⟨banked, held⟩ := ih inserted results
      refine ⟨banked, fun other ho => held other ?_⟩
      rw [Std.HashMap.contains_insert, Bool.or_eq_true, beq_iff_eq]
      rcases ho with hmem | hold
      · rcases List.mem_cons.mp hmem with rfl | hmem
        · exact .inr (.inl rfl)
        · exact .inl hmem
      · exact .inr (.inr hold)

omit [Arith α] in
theorem mem_pending {bank : Bank α} {islands : List (List Genes)} {island : List Genes}
    (hi : island ∈ islands) {genes : Genes} (hg : genes ∈ island) :
    genes ∈ pending bank islands ∨ bank.contains genes = true := by
  cases hb : bank.contains genes with
  | true => exact .inr rfl
  | false =>
    refine .inl (List.mem_eraseDups.mpr (List.mem_filter.mpr ⟨?_, by simp [hb]⟩))
    exact List.mem_flatten.mpr ⟨island, hi, hg⟩

theorem Banked.scored {p : Problem α} {rating : Genes → RunFigures α} {bank : Bank α}
    (h : Banked p rating bank) {islands : List (List Genes)}
    (held : ∀ island ∈ islands, ∀ genes ∈ island, bank.contains genes = true) :
    scored bank islands = islands.map fun island => island.map (p.individual rating) := by
  unfold Genetic.scored
  refine List.map_congr_left fun island hi => List.map_congr_left fun genes hg => ?_
  have hsome := held island hi genes hg
  rw [Std.HashMap.contains_eq_isSome_getElem?, Option.isSome_iff_exists] at hsome
  obtain ⟨x, hx⟩ := hsome
  rw [Std.HashMap.getD_eq_getD_getElem?, hx, Option.getD_some, h genes x hx]
  rfl

omit [Arith α] in
theorem mem_of_pending {bank : Bank α} {islands : List (List Genes)} {genes : Genes}
    (h : genes ∈ pending bank islands) : genes ∈ islands.flatten :=
  (List.mem_filter.mp (List.mem_eraseDups.mp h)).1

/-- A generation is scored by what its candidates come to, whether they ran now or before. -/
theorem scoreGeneration_of_dependable {run : CandidateTrial α σ} {figures : Assignment α → RunFigures α}
    (h : Dependable run figures τ) {p : Problem α} {rating : Genes → RunFigures α} {s : State α σ τ ρ}
    (rates : ∀ genes ∈ s.islands.flatten, p.Rates figures rating genes) (banked : Banked p rating s.bank) :
    ∃ scored : State α σ τ ρ, scoreGeneration p run s =
        (scored, .ok (s.islands.map fun island => island.map (p.individual rating))) ∧
      Banked p rating scored.bank := by
  have each : ∀ genes ∈ pending s.bank s.islands, p.Rates figures rating genes :=
    fun genes hg => rates genes (mem_of_pending hg)
  obtain ⟨batch, hbatch, rated⟩ := exists_mapM_eq_ok each
  obtain ⟨search, es, hes, results⟩ := h.evaluateAll batch s.search
  have same : batch.map figures = (pending s.bank s.islands).map rating :=
    (List.forall₂_eq_eq_eq ▸ List.forall₂_map_left_iff.mpr (List.forall₂_map_right_iff.mpr rated.flip) :)
  obtain ⟨banked', held⟩ := banked.insertAll (results.trans same)
  unfold Genetic.scoreGeneration
  simp only [hbatch, hes]
  refine ⟨_, Prod.ext rfl (congrArg Except.ok (banked'.scored fun island hi genes hg => ?_)), banked'⟩
  exact held genes (mem_pending hi hg)

end Genetic
end Backtest
