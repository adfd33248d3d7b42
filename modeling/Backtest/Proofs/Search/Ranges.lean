import Mathlib.Algebra.Order.BigOperators.GroupWithZero.List
import Mathlib.Algebra.Order.Ring.Nat
import Backtest.Proofs.History.Increasing
import Backtest.Proofs.Search.Breeding
import Backtest.Search.Genetic.Basic

namespace Backtest

namespace Breach

variable {n m : Nat} {b : Breach}

theorem inWord_eq_ok : inWord n = .ok m ↔ n < wordRange ∧ m = n := by
  unfold inWord
  split
  next fits => simp [fits, eq_comm]
  next wraps => simp [wraps]

theorem inWord_eq_error : inWord n = .error b ↔ wordRange ≤ n ∧ b = .overflow := by
  unfold inWord
  split
  next fits => simp [Nat.not_le_of_lt fits]
  next wraps => simp [Nat.le_of_not_lt wraps, eq_comm]

end Breach

theorem length_choices {β : Type} (xss : List (List β)) :
    (choices xss).length = (xss.map List.length).prod := by
  induction xss with
  | nil => rfl
  | cons xs xss ih =>
    rw [choices, List.length_flatMap, List.map_cons, List.prod_cons, ← ih]
    simp only [List.length_map, List.map_const', List.sum_replicate_nat]

theorem mem_choices_iff {β : Type} {xss : List (List β)} {vs : List β} :
    vs ∈ choices xss ↔ List.Forall₂ (· ∈ ·) vs xss := by
  constructor
  · intro chosen
    induction xss generalizing vs with
    | nil => exact List.mem_singleton.mp chosen ▸ .nil
    | cons xs xss ih =>
      obtain ⟨x, hx, rest⟩ := List.mem_flatMap.mp chosen
      obtain ⟨ws, hws, rfl⟩ := List.mem_map.mp rest
      exact .cons hx (ih hws)
  · intro chosen
    induction chosen with
    | nil => exact List.mem_singleton.mpr rfl
    | cons hx _ ih => exact List.mem_flatMap.mpr ⟨_, hx, List.mem_map_of_mem ih⟩

variable {α : Type} [Arith α]

section Values

variable {q : Parameter α} {parameters : List (Parameter α)} {ranges : List (List α)} {b : Breach}

theorem Parameter.count_pos {n : Nat} (h : q.count = .ok n) : 0 < n := by
  unfold Parameter.count at h
  split at h
  next =>
    cases h
    exact Nat.one_pos
  next => exact (Breach.inWord_eq_ok.mp h).2 ▸ Nat.succ_pos _

theorem Parameter.values_pos {values : List α} (h : q.values = .ok values) : 0 < values.length := by
  unfold Parameter.values at h
  split at h
  next =>
    cases h
    exact Nat.one_pos
  next =>
    obtain ⟨n, hn, rest⟩ := bind_eq_ok.mp h
    cases rest
    rw [List.length_map, List.length_range]
    exact Parameter.count_pos hn

theorem Parameter.values_error (h : q.values = .error b) : b = .overflow := by
  unfold Parameter.values at h
  split at h
  next => cases h
  next going =>
    rcases bind_eq_error.mp h with counting | ⟨n, -, rest⟩
    · unfold Parameter.count at counting
      rw [if_neg going] at counting
      exact (Breach.inWord_eq_error.mp counting).2
    · cases rest

theorem ranges_error (h : parameters.mapM Parameter.values = .error b) : b = .overflow := by
  obtain ⟨q, -, hq⟩ := exists_of_mapM_error h
  exact Parameter.values_error hq

theorem ranges_pos (h : parameters.mapM Parameter.values = .ok ranges) :
    ∀ range ∈ ranges, 0 < range.length := by
  intro range hrange
  obtain ⟨q, -, hq⟩ := exists_mem_of_mapM_ok h range hrange
  exact Parameter.values_pos hq

theorem grid_of_ranges (h : parameters.mapM Parameter.values = .ok ranges) :
    grid parameters = .ok ((choices ranges).map fun vs => (parameters.map (·.index)).zip vs) := by
  unfold grid
  rw [h]
  rfl

theorem grid_of_error (h : parameters.mapM Parameter.values = .error b) : grid parameters = .error b := by
  unfold grid
  rw [h]
  rfl

theorem grid_length {points : List (Assignment α)} (h : parameters.mapM Parameter.values = .ok ranges)
    (hpoints : grid parameters = .ok points) : points.length = (ranges.map List.length).prod := by
  cases (grid_of_ranges h).symm.trans hpoints
  rw [List.length_map, length_choices]

/-- The product that is taken in words, from a number that fits on: as no factor is zero, it breaks off if and
only if the whole product does not fit. -/
theorem foldlM_inWord (h : parameters.mapM Parameter.values = .ok ranges) {n : Nat} (fits : n < wordRange) :
    parameters.foldlM (fun n p => do
        let values ← p.values
        Breach.inWord (n * values.length)) n =
      Breach.inWord (n * (ranges.map List.length).prod) := by
  induction parameters generalizing ranges n with
  | nil =>
    cases h
    exact (Breach.inWord_eq_ok.mpr ⟨(Nat.mul_one n).symm ▸ fits, (Nat.mul_one n).symm⟩).symm
  | cons q parameters ih =>
    rw [List.mapM_cons] at h
    obtain ⟨values, hvalues, h⟩ := bind_eq_ok.mp h
    obtain ⟨rest, hrest, h⟩ := bind_eq_ok.mp h
    cases h
    rw [List.foldlM_cons, hvalues, List.map_cons, List.prod_cons, ← Nat.mul_assoc]
    change (Breach.inWord (n * values.length) >>= _) = _
    cases hone : Breach.inWord (n * values.length) with
    | ok m =>
      obtain ⟨fits', rfl⟩ := Breach.inWord_eq_ok.mp hone
      exact ih hrest fits'
    | error b =>
      obtain ⟨wraps, rfl⟩ := Breach.inWord_eq_error.mp hone
      have positive : 0 < (rest.map List.length).prod := by
        refine List.prod_pos fun size hsize => ?_
        obtain ⟨range, hrange, rfl⟩ := List.mem_map.mp hsize
        exact ranges_pos hrest range hrange
      refine (Breach.inWord_eq_error.mpr ⟨?_, rfl⟩).symm
      exact wraps.trans (Nat.le_mul_of_pos_right _ positive)

theorem gridSize_of_ranges (hp : parameters ≠ []) (h : parameters.mapM Parameter.values = .ok ranges) :
    gridSize parameters = Breach.inWord (ranges.map List.length).prod := by
  unfold gridSize
  rw [if_neg (by simpa using hp), foldlM_inWord h (by decide), Nat.one_mul]

/-- Whichever comes first, a value list that cannot be counted or a product that does not fit, there is no
size. -/
theorem foldlM_inWord_of_error (h : parameters.mapM Parameter.values = .error b) (n : Nat) :
    parameters.foldlM (fun n p => do
        let values ← p.values
        Breach.inWord (n * values.length)) n = .error .overflow := by
  induction parameters generalizing n with
  | nil => cases h
  | cons q parameters ih =>
    rw [List.mapM_cons] at h
    rw [List.foldlM_cons]
    rcases bind_eq_error.mp h with hq | ⟨values, hvalues, h⟩
    · rw [hq, Parameter.values_error hq]
      rfl
    · rcases bind_eq_error.mp h with h | ⟨_, -, h⟩
      · rw [hvalues]
        change (Breach.inWord (n * values.length) >>= _) = _
        cases hone : Breach.inWord (n * values.length) with
        | ok m => exact ih h m
        | error b => rw [(Breach.inWord_eq_error.mp hone).2]; rfl
      · cases h

theorem gridSize_of_error (h : parameters.mapM Parameter.values = .error b) :
    gridSize parameters = .error .overflow := by
  unfold gridSize
  rw [if_neg, foldlM_inWord_of_error h]
  intro empty
  rw [List.isEmpty_iff.mp empty] at h
  cases h

end Values

namespace Genetic

variable {p : Problem α} {ranges : List (List α)} {b : Breach}

theorem sizes_of_ranges (h : p.ranges = .ok ranges) : p.sizes = .ok (ranges.map List.length) := by
  unfold Problem.sizes
  rw [h]
  rfl

theorem sizes_pos {sizes : List Nat} (h : p.sizes = .ok sizes) : ∀ n ∈ sizes, 0 < n := by
  obtain ⟨ranges, hranges, rest⟩ := bind_eq_ok.mp h
  cases rest
  intro n hn
  obtain ⟨range, hrange, rfl⟩ := List.mem_map.mp hn
  exact ranges_pos hranges range hrange

/-- The evaluations that a search expects can be counted if and only if the points of its grid can, and the
candidates of all its generations. -/
theorem total_of_ranges (hp : p.parameters ≠ []) (h : p.ranges = .ok ranges) :
    p.total = do
      let points ← Breach.inWord (ranges.map List.length).prod
      let budget ← Breach.inWord (p.settings.population * p.settings.generations)
      return min points budget := by
  unfold Problem.total
  rw [gridSize_of_ranges hp h]

theorem total_of_error (h : p.ranges = .error b) : p.total = .error .overflow := by
  unfold Problem.total
  rw [gridSize_of_error h]
  rfl

theorem total_error (hp : p.parameters ≠ []) (h : p.total = .error b) : b = .overflow := by
  cases hranges : p.ranges with
  | error c => exact (Except.error.inj ((total_of_error hranges).symm.trans h)).symm
  | ok ranges =>
    rw [total_of_ranges hp hranges] at h
    rcases bind_eq_error.mp h with h | ⟨_, -, h⟩
    · exact (Breach.inWord_eq_error.mp h).2
    · rcases bind_eq_error.mp h with h | ⟨_, -, h⟩
      · exact (Breach.inWord_eq_error.mp h).2
      · cases h

theorem exists_ranges {total : Nat} (h : p.total = .ok total) : ∃ ranges, p.ranges = .ok ranges := by
  cases hranges : p.ranges with
  | error c => cases (total_of_error hranges).symm.trans h
  | ok ranges => exact ⟨ranges, rfl⟩

omit [Arith α] in
theorem exists_picked {genes : Genes}
    (fits : List.Forall₂ (fun gene range => gene < List.length range) genes ranges) :
    ∃ values : List α, ((ranges.zip genes).mapM fun x => Breach.pick x.1 x.2) = .ok values ∧
      List.Forall₂ (· ∈ ·) values ranges := by
  induction fits with
  | nil => exact ⟨[], rfl, .nil⟩
  | @cons gene range genes ranges hgene _ ih =>
    obtain ⟨values, hvalues, chosen⟩ := ih
    refine ⟨range[gene] :: values, ?_, .cons (List.getElem_mem hgene) chosen⟩
    rw [List.zip_cons_cons, List.mapM_cons, hvalues]
    dsimp only
    rw [Breach.pick, List.getElem?_eq_getElem hgene]
    rfl

/-- Genes that fit stand for a point of the grid. -/
theorem exists_candidate {sizes : List Nat} {genes : Genes} (hsizes : p.sizes = .ok sizes)
    (fits : Fits sizes genes) :
    ∃ c points, p.candidate genes = .ok c ∧ grid p.parameters = .ok points ∧ c ∈ points := by
  obtain ⟨ranges, hranges, rest⟩ := bind_eq_ok.mp hsizes
  cases rest
  unfold Fits at fits
  rw [List.forall₂_map_right_iff] at fits
  obtain ⟨values, hvalues, chosen⟩ := exists_picked fits
  refine ⟨(p.parameters.map (·.index)).zip values, _, ?_, grid_of_ranges hranges, ?_⟩
  · exact bind_eq_ok.mpr ⟨ranges, hranges, bind_eq_ok.mpr ⟨values, hvalues, rfl⟩⟩
  · exact List.mem_map_of_mem (mem_choices_iff.mpr chosen)

end Genetic
end Backtest
