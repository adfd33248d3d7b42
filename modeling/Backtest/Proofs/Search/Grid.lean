import Mathlib.Data.List.Lex
import Backtest.Proofs.Arith.Exact
import Backtest.Proofs.Search.Size

namespace Backtest

/-- The digits of a number, the last of which goes through its values first. A digit has as many values as
its size says. -/
def mixedDigits : List Nat → Nat → List Nat
  | [], _ => []
  | _ :: sizes, i => i / sizes.prod :: mixedDigits sizes (i % sizes.prod)

section Choices

variable {β γ ι : Type}

theorem choices_zipWith (f : ι → β → γ) {is : List ι} {xss : List (List β)} (length : is.length = xss.length) :
    choices (List.zipWith (fun i xs => xs.map (f i)) is xss) = (choices xss).map (List.zipWith f is) := by
  induction is generalizing xss with
  | nil =>
    cases List.length_eq_zero_iff.mp length.symm
    rfl
  | cons i is ih =>
    cases xss with
    | nil => cases length
    | cons xs xss =>
      simp only [List.zipWith_cons_cons, choices, ih (Nat.succ.inj length), List.flatMap_map,
        List.map_flatMap, List.map_map]
      rfl

/-- Choices from lists in order are in lexicographic order. -/
theorem choices_pairwise {r : β → β → Prop} {xss : List (List β)} (h : ∀ xs ∈ xss, xs.Pairwise r) :
    (choices xss).Pairwise (List.Lex r) := by
  induction xss with
  | nil => exact List.pairwise_singleton _ _
  | cons xs xss ih =>
    have rest : (choices xss).Pairwise (List.Lex r) := ih fun ys hys => h ys (List.mem_cons_of_mem xs hys)
    unfold choices
    rw [List.pairwise_flatMap]
    refine ⟨fun x _ => ?_, ?_⟩
    · rw [List.pairwise_map]
      exact rest.imp List.Lex.cons
    · refine (h xs List.mem_cons_self).imp fun {x y} less => ?_
      intro a ha b hb
      obtain ⟨a, -, rfl⟩ := List.mem_map.mp ha
      obtain ⟨b, -, rfl⟩ := List.mem_map.mp hb
      exact List.Lex.rel less

/-- The numbers below a product, in rows. -/
theorem map_range_mul (f : Nat → β) (rows length : Nat) :
    (List.range (rows * length)).map f =
      (List.range rows).flatMap fun row => (List.range length).map fun i => f (row * length + i) := by
  induction rows with
  | zero => simp
  | succ rows ih =>
    rw [Nat.succ_mul, List.range_add, List.map_append, ih, List.range_succ, List.flatMap_append,
      List.flatMap_singleton, List.map_map]
    rfl

theorem choices_range (sizes : List Nat) :
    choices (sizes.map List.range) = (List.range sizes.prod).map (mixedDigits sizes) := by
  induction sizes with
  | nil => rfl
  | cons size sizes ih =>
    rw [List.map_cons, choices, ih, List.prod_cons, map_range_mul]
    refine List.flatMap_congr fun row _ => ?_
    rw [List.map_map]
    refine List.map_congr_left fun i hi => ?_
    have below : i < sizes.prod := List.mem_range.mp hi
    have positive : 0 < sizes.prod := Nat.zero_lt_of_lt below
    have digit : (row * sizes.prod + i) / sizes.prod = row := by
      rw [Nat.mul_comm, Nat.mul_add_div positive, Nat.div_eq_of_lt below, Nat.add_zero]
    have left : (row * sizes.prod + i) % sizes.prod = i := by
      rw [Nat.mul_comm, Nat.mul_add_mod, Nat.mod_eq_of_lt below]
    rw [mixedDigits, digit, left]
    rfl

example : mixedDigits [3, 1, 2] 3 = [1, 0, 1] := rfl

end Choices

namespace Parameter

open Arith.Exact (value)

variable {α : Type} [Arith α]

/-- A range that goes up. Any other parameter keeps its start. -/
def Rises (p : Parameter α) : Prop := 0 < p.step ∧ p.start ≤ p.stop

/-- A value that is not above the stop, or by no more than a billionth of a step. -/
def Reaches (p : Parameter α) (k : Nat) : Prop := p.point k ≤ p.stop + 1e-9 * p.step

/-- There can be as many values as this, because the last of them is reached. -/
def Counts (p : Parameter α) : Set Nat := {n | 0 < n ∧ p.Reaches (n - 1)}

variable [Arith.Exact α] {p : Parameter α}

/-- The way from the start to the stop in steps, with the billionth that rounding is allowed. -/
noncomputable def way (p : Parameter α) : ℝ := (value p.stop - value p.start) / value p.step + 1e-9

theorem rises_iff : p.Rises ↔ 0 < value p.step ∧ value p.start ≤ value p.stop := by
  unfold Rises
  rw [Arith.Exact.lt_iff, Arith.Exact.le_iff, Arith.Exact.value_zero]

theorem keeps_iff : (p.step ≤ 0 || p.stop < p.start) = true ↔ ¬p.Rises := by
  rw [Bool.or_eq_true, decide_eq_true_iff, decide_eq_true_iff, Arith.Exact.le_iff, Arith.Exact.lt_iff,
    Arith.Exact.value_zero, rises_iff, not_and_or, not_lt, not_le]

theorem value_point (k : Nat) : value (p.point k) = value p.start + k * value p.step := by
  unfold point
  rw [Arith.Exact.value_add, Arith.Exact.value_mul, Arith.value_ofCount]

theorem way_nonneg (h : p.Rises) : 0 ≤ p.way := by
  obtain ⟨up, order⟩ := rises_iff.mp h
  have distance : 0 ≤ (value p.stop - value p.start) / value p.step :=
    div_nonneg (sub_nonneg.mpr order) up.le
  unfold way
  linarith

theorem reaches_iff (h : p.Rises) (k : Nat) : p.Reaches k ↔ k ≤ ⌊p.way⌋₊ := by
  obtain ⟨up, -⟩ := rises_iff.mp h
  have within : (k : ℝ) ≤ p.way ↔ p.Reaches k := by
    unfold way Reaches
    rw [← sub_le_iff_le_add, le_div_iff₀ up, Arith.Exact.le_iff, value_point, Arith.Exact.value_add,
      Arith.Exact.value_mul, Arith.Exact.value_ofScientific, sub_mul]
    constructor <;> intro le <;> linarith only [le]
  rw [← within, Nat.le_floor_iff (way_nonneg h)]

theorem isGreatest_counts (h : p.Rises) : IsGreatest p.Counts (⌊p.way⌋₊ + 1) := by
  refine ⟨⟨Nat.succ_pos _, (reaches_iff h _).mpr le_rfl⟩, fun n hn => ?_⟩
  have last : n - 1 ≤ ⌊p.way⌋₊ := (reaches_iff h _).mp hn.2
  omega

/-- The way is held in a word, at its last number if it is too long, and then there is no room for the count. -/
theorem count_eq (h : p.Rises) : p.count = Breach.inWord (min ⌊p.way⌋₊ Arith.maxWord64 + 1) := by
  have quotient : value ((p.stop - p.start) / p.step + 1e-9) = p.way := by
    rw [Arith.Exact.value_add, Arith.Exact.value_div, Arith.Exact.value_sub,
      Arith.Exact.value_ofScientific]
    rfl
  have floor : ⌊p.way⌋ = (⌊p.way⌋₊ : Int) := (Int.natCast_floor_eq_floor (way_nonneg h)).symm
  have whole : Arith.truncate (⌊p.way⌋ : ℝ) = ⌊p.way⌋ := by
    unfold Arith.truncate
    rw [if_pos (by rw [floor]; positivity), Int.floor_intCast]
  have counted : Arith.toCount (Arith.floor ((p.stop - p.start) / p.step + 1e-9)) =
      min ⌊p.way⌋₊ Arith.maxWord64 := by
    unfold Arith.toCount
    rw [Arith.Exact.whole_eq, Arith.Exact.value_floor, quotient, whole, floor]
    omega
  unfold count
  rw [if_neg (mt keeps_iff.mp (not_not.mpr h)), counted]

theorem values_eq (h : p.Rises) : p.values = p.count.map fun n => (List.range n).map p.point := by
  unfold values
  rw [if_neg (mt keeps_iff.mp (not_not.mpr h))]
  cases p.count <;> rfl

theorem values_of_keeps (h : ¬p.Rises) : p.values = .ok [p.start] := if_pos (keeps_iff.mpr h)

/-- As many values as a word counts are all there, one after the other. -/
theorem values_of_fits (h : p.Rises) {n : Nat} (greatest : IsGreatest p.Counts n) (fits : n < wordRange) :
    p.values = .ok ((List.range n).map p.point) := by
  obtain rfl := greatest.unique (isGreatest_counts h)
  have covered : min ⌊p.way⌋₊ Arith.maxWord64 = ⌊p.way⌋₊ :=
    Nat.min_eq_left (Nat.le_of_lt (Nat.lt_of_succ_lt_succ fits))
  rw [values_eq h, count_eq h, covered, Breach.inWord_eq_ok.mpr ⟨fits, rfl⟩]
  rfl

/-- More values than a word counts are none. -/
theorem values_of_wraps (h : p.Rises) {n : Nat} (greatest : IsGreatest p.Counts n) (wraps : wordRange ≤ n) :
    p.values = .error .overflow := by
  obtain rfl := greatest.unique (isGreatest_counts h)
  have held : min ⌊p.way⌋₊ Arith.maxWord64 = Arith.maxWord64 :=
    Nat.min_eq_right (Nat.le_of_succ_le_succ wraps)
  rw [values_eq h, count_eq h, held]
  rfl

theorem point_zero : p.point 0 = p.start := by
  refine Arith.Exact.value_injective ?_
  rw [value_point, Nat.cast_zero, zero_mul, add_zero]

theorem values_eq_points {values : List α} (hvalues : p.values = .ok values) :
    values = (List.range values.length).map p.point := by
  by_cases h : p.Rises
  · rw [values_eq h] at hvalues
    obtain ⟨n, -, rfl⟩ := map_eq_ok.mp hvalues
    rw [List.length_map, List.length_range]
  · cases (values_of_keeps h).symm.trans hvalues
    exact congrArg (· :: []) point_zero.symm

theorem point_lt_point (h : p.Rises) {k l : Nat} (less : k < l) : p.point k < p.point l := by
  obtain ⟨up, -⟩ := rises_iff.mp h
  have steps : (k : ℝ) * value p.step < l * value p.step :=
    mul_lt_mul_of_pos_right (Nat.cast_lt.mpr less) up
  rw [Arith.Exact.lt_iff, value_point, value_point]
  linarith only [steps]

theorem values_increasing {values : List α} (hvalues : p.values = .ok values) :
    values.Pairwise (· < ·) := by
  by_cases h : p.Rises
  · rw [values_eq_points hvalues, List.pairwise_map]
    exact List.pairwise_lt_range.imp (point_lt_point h)
  · cases (values_of_keeps h).symm.trans hvalues
    exact List.pairwise_singleton _ _

end Parameter

section Grid

variable {α : Type} [Arith α] {parameters : List (Parameter α)} {ranges : List (List α)}

/-- The values of parameters, each with the slot it goes into. -/
def entries (parameters : List (Parameter α)) (ranges : List (List α)) : List (List (Nat × α)) :=
  List.zipWith (fun p values => values.map (p.index, ·)) parameters ranges

omit [Arith α] in
theorem choices_entries (length : parameters.length = ranges.length) :
    choices (entries parameters ranges) = (choices ranges).map fun vs => (parameters.map (·.index)).zip vs := by
  unfold entries
  rw [choices_zipWith (fun (p : Parameter α) v => (p.index, v)) length]
  exact List.map_congr_left fun vs _ => List.zipWith_map_left.symm

theorem mem_entries_iff (h : List.Forall₂ (fun (p : Parameter α) values => p.values = .ok values) parameters ranges)
    {c : Assignment α} : List.Forall₂ (· ∈ ·) c (entries parameters ranges) ↔
      List.Forall₂ (fun x (p : Parameter α) => x.1 = p.index ∧ ∃ values, p.values = .ok values ∧ x.2 ∈ values)
        c parameters := by
  unfold entries
  induction h generalizing c with
  | nil => rw [List.zipWith_nil_left, List.forall₂_nil_right_iff, List.forall₂_nil_right_iff]
  | @cons p values parameters ranges hvalues _ ih =>
    have one (x : Nat × α) : x ∈ values.map (p.index, ·) ↔
        x.1 = p.index ∧ ∃ values, p.values = .ok values ∧ x.2 ∈ values := by
      rw [List.mem_map]
      constructor
      · rintro ⟨v, hv, rfl⟩
        exact ⟨rfl, values, hvalues, hv⟩
      · rintro ⟨slot, _, hvalues', hv⟩
        cases hvalues.symm.trans hvalues'
        exact ⟨x.2, hv, Prod.ext slot.symm rfl⟩
    rw [List.zipWith_cons_cons, List.forall₂_cons_right_iff, List.forall₂_cons_right_iff]
    simp only [one, ih]

variable [Arith.Exact α]

theorem entries_increasing
    (h : List.Forall₂ (fun (p : Parameter α) values => p.values = .ok values) parameters ranges) :
    ∀ xs ∈ entries parameters ranges, xs.Pairwise fun x y => x.2 < y.2 := by
  unfold entries
  induction h with
  | nil => exact List.forall_mem_nil _
  | cons hvalues _ ih =>
    refine List.forall_mem_cons.mpr ⟨?_, ih⟩
    exact List.pairwise_map.mpr (Parameter.values_increasing hvalues)

/-- As each list starts at its first point, a choice of values is one of numbers of steps. -/
theorem ranges_eq_points
    (h : List.Forall₂ (fun (p : Parameter α) values => p.values = .ok values) parameters ranges) :
    ranges = List.zipWith (fun p steps => steps.map p.point) parameters
      ((ranges.map List.length).map List.range) := by
  induction h with
  | nil => rfl
  | cons hvalues _ ih =>
    rw [List.map_cons, List.map_cons, List.zipWith_cons_cons, ← ih, ← Parameter.values_eq_points hvalues]

/-- The point that a number writes in digits. -/
theorem choices_eq_digits
    (h : List.Forall₂ (fun (p : Parameter α) values => p.values = .ok values) parameters ranges) :
    let sizes := ranges.map List.length
    (choices ranges).map (fun vs => (parameters.map (·.index)).zip vs) = (List.range sizes.prod).map fun i =>
      List.zipWith (fun p k => (p.index, p.point k)) parameters (mixedDigits sizes i) := by
  intro sizes
  have length : parameters.length = (sizes.map List.range).length := by
    rw [List.length_map, List.length_map]
    exact h.length_eq
  have steps : choices ranges = ((List.range sizes.prod).map (mixedDigits sizes)).map
      (List.zipWith Parameter.point parameters) := by
    rw [← choices_range, ← choices_zipWith Parameter.point length]
    exact congrArg choices (ranges_eq_points h)
  rw [steps, List.map_map, List.map_map]
  refine List.map_congr_left fun i _ => ?_
  simp only [Function.comp_apply, List.zip_eq_zipWith]
  rw [List.zipWith_map_left]
  generalize mixedDigits sizes i = digits
  clear h steps length
  induction parameters generalizing digits with
  | nil => rfl
  | cons p parameters ih =>
    cases digits with
    | nil => rfl
    | cons k digits => exact congrArg _ (ih digits)

/-- The grid in exact arithmetic. A range that goes up has as many values as can be reached, and they are
the start and what is one, two or more steps above it, as long as a word counts them. Any other parameter has
its start alone. If there are too many values to count, there is no grid. If not, the points of the grid are all
the choices of one value for the slot of each parameter. Each is there once. They are in order, with the value
of the last parameter changing first, so that each is what its number writes in digits. They are as many as the
size of the grid says, if that fits in a word. -/
theorem grid_enumerates (hp : parameters ≠ []) :
    (∀ p ∈ parameters,
      (p.Rises → ∃ n, IsGreatest p.Counts n ∧
        (n < wordRange → p.values = .ok ((List.range n).map p.point)) ∧
        (wordRange ≤ n → p.values = .error .overflow)) ∧
      (¬p.Rises → p.values = .ok [p.start])) ∧
    ((∃ p ∈ parameters, p.values = .error .overflow) → grid parameters = .error .overflow) ∧
    ((∀ p ∈ parameters, ∃ values, p.values = .ok values) →
      ∃ ranges points, parameters.mapM Parameter.values = .ok ranges ∧ grid parameters = .ok points ∧
        let sizes := ranges.map List.length
        (∀ c : Assignment α, c ∈ points ↔ List.Forall₂ (fun x (p : Parameter α) =>
          x.1 = p.index ∧ ∃ values, p.values = .ok values ∧ x.2 ∈ values) c parameters) ∧
        points.Nodup ∧
        points.Pairwise (List.Lex fun x y => x.2 < y.2) ∧
        (points = (List.range sizes.prod).map fun i =>
          List.zipWith (fun p k => (p.index, p.point k)) parameters (mixedDigits sizes i)) ∧
        points.length = sizes.prod ∧
        (sizes.prod < wordRange → gridSize parameters = .ok points.length)) := by
  refine ⟨fun p _ => ⟨fun rises => ?_, Parameter.values_of_keeps⟩, fun ⟨p, hmem, wraps⟩ => ?_, fun counted => ?_⟩
  · have greatest := Parameter.isGreatest_counts rises
    exact ⟨_, greatest, Parameter.values_of_fits rises greatest, Parameter.values_of_wraps rises greatest⟩
  · cases hranges : parameters.mapM Parameter.values with
    | error b => rw [grid_of_error hranges, ranges_error hranges]
    | ok ranges =>
      obtain ⟨values, -, hvalues⟩ := exists_of_mapM_ok hranges p hmem
      cases wraps.symm.trans hvalues
  have each : ∀ p ∈ parameters, ∃ values, p.values = .ok values ∧ p.values = .ok values :=
    fun p hmem => (counted p hmem).imp fun _ hvalues => ⟨hvalues, hvalues⟩
  obtain ⟨ranges, hranges, related⟩ := exists_mapM_eq_ok each
  have entered := choices_entries related.length_eq
  have increasing := choices_pairwise (entries_increasing related)
  rw [entered] at increasing
  have length := grid_length hranges (grid_of_ranges hranges)
  refine ⟨ranges, _, hranges, grid_of_ranges hranges, fun c => ?_, increasing.imp fun less => ?_, increasing,
    choices_eq_digits related, length, fun fits => ?_⟩
  · rw [← entered, mem_choices_iff, mem_entries_iff related]
  · have apart : ∀ x y : Nat × α, x.2 < y.2 → x ≠ y := by
      rintro x _ less rfl
      exact lt_irrefl _ ((Arith.Exact.lt_iff _ _).mp less)
    exact (List.Lex.imp apart _ _ less).to_ne
  · rw [length, gridSize_of_ranges hp hranges]
    exact Breach.inWord_eq_ok.mpr ⟨fits, rfl⟩

end Grid

section Sample

def sampleRanges : List (Parameter ℚ) := [⟨3, -1, 1 / 2, 0⟩, ⟨1, 7, 0, 9⟩, ⟨5, 0, 2, 3⟩]

theorem sampleRanges_grid :
    ∃ points, grid sampleRanges = .ok points ∧ points =
      [[(3, -1), (1, 7), (5, 0)], [(3, -1), (1, 7), (5, 2)],
       [(3, -1 / 2), (1, 7), (5, 0)], [(3, -1 / 2), (1, 7), (5, 2)],
       [(3, 0), (1, 7), (5, 0)], [(3, 0), (1, 7), (5, 2)]] ∧
    points.Nodup ∧ gridSize sampleRanges = .ok 6 := by
  obtain ⟨values, hvalues, lengths⟩ : ∃ ranges, sampleRanges.mapM Parameter.values = .ok ranges ∧
      ranges.map List.length = [3, 1, 2] := by
    refine map_eq_ok.mp ?_
    decide +kernel
  have parameters : sampleRanges ≠ [] := List.cons_ne_nil _ _
  obtain ⟨-, -, enumerates⟩ := grid_enumerates parameters
  obtain ⟨ranges, points, hranges, hpoints, -, distinct, -, enumerated, length, size⟩ :=
    enumerates fun p hp => (exists_of_mapM_ok hvalues p hp).imp fun _ found => found.2
  cases hvalues.symm.trans hranges
  rw [lengths] at enumerated length size
  refine ⟨points, hpoints, ?_, distinct, ?_⟩
  · rw [enumerated]
    decide +kernel
  · rw [size (by decide), length]
    rfl

/-- The whole numbers from zero to as many as a word has values. -/
def wordWide (α : Type) [Arith α] : Parameter α := ⟨0, 0, 1, 18446744073709551616.0⟩

/-- The values of a range with one more than a word has cannot be counted, also in floating point, and a search
over it breaks off. -/
theorem wordWide_uncounted :
    (wordWide ℚ).Rises ∧ IsGreatest (wordWide ℚ).Counts (2 ^ 64 + 1) ∧
    (wordWide ℚ).values = .error .overflow ∧ grid [wordWide ℚ] = .error .overflow ∧
    (wordWide Float).values = .error .overflow ∧
    ∀ (run : CandidateTrial Float Unit) (stop : StopPoint) (start : SearchState Float Unit Unit),
      bruteForce [wordWide Float] run stop start = (start, .error (.breach .overflow)) := by
  have rises : (wordWide ℚ).Rises := by
    unfold Parameter.Rises
    decide +kernel
  have way : (wordWide ℚ).way = 18446744073709551616.0 + 1e-9 := by
    unfold Parameter.way wordWide
    rw [Arith.Exact.value_ofScientific, Arith.Exact.value_zero, Arith.Exact.value_one, sub_zero, div_one]
  have floor : ⌊(wordWide ℚ).way⌋₊ = 2 ^ 64 := by
    rw [Nat.floor_eq_iff (Parameter.way_nonneg rises), way]
    norm_num
  have greatest : IsGreatest (wordWide ℚ).Counts (2 ^ 64 + 1) := floor ▸ Parameter.isGreatest_counts rises
  have exactly := Parameter.values_of_wraps rises greatest (by decide)
  have without : (wordWide Float).values = .error .overflow := by decide +kernel
  have alone {α : Type} [Arith α] {p : Parameter α} (h : p.values = .error .overflow) :
      grid [p] = .error .overflow := by
    refine grid_of_error ?_
    rw [List.mapM_cons, h]
    rfl
  exact ⟨rises, greatest, exactly, alone exactly, without,
    bruteForce_of_error (List.cons_ne_nil _ _) (alone without)⟩

end Sample
end Backtest
