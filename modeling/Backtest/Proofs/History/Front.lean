import Mathlib.Data.List.Chain
import Mathlib.Data.List.TakeWhile
import Backtest.Market.View

namespace Backtest

/-- Each time is at least `gap` seconds before the next one. -/
def Spaced (gap : Int) (times : List Int) : Prop := times.IsChain fun a b => a + gap ≤ b

theorem Spaced.pairwise {gap : Int} (hg : 0 ≤ gap) {times : List Int} (h : Spaced gap times) :
    times.Pairwise fun a b => a + gap ≤ b := by
  have trans : IsTrans Int fun a b => a + gap ≤ b := ⟨fun a b c hab hbc => by omega⟩
  exact List.isChain_iff_pairwise.mp h

theorem Spaced.gap_le {gap : Int} (hg : 0 < gap) {times : List Int} (h : Spaced gap times)
    {a t : Int} (ha : a ∈ times) (ht : t ∈ times) (hlt : a < t) : a + gap ≤ t := by
  have hp := h.pairwise (Int.le_of_lt hg)
  obtain ⟨i, hi, rfl⟩ := List.mem_iff_getElem.mp ha
  obtain ⟨j, hj, rfl⟩ := List.mem_iff_getElem.mp ht
  rcases Nat.lt_trichotomy i j with hij | hij | hij
  · exact List.pairwise_iff_getElem.mp hp i j hi hj hij
  · subst hij
    omega
  · have hh := List.pairwise_iff_getElem.mp hp j i hj hi hij
    omega

namespace Series

variable {α : Type}

/-- Times strictly increase. -/
def Increasing (s : Series α) : Prop := s.toList.Pairwise fun a b => a.time < b.time

/-- The bars before the first one whose time fails `early`. -/
def front (early : Int → Bool) (s : Series α) : List (Bar α) :=
  s.toList.takeWhile fun b => early b.time

/-- A test that every time before a passing one passes as well. -/
def Downward (early : Int → Bool) : Prop := ∀ a b, a ≤ b → early b = true → early a = true

def upTo (t time : Int) : Bool := time ≤ t

theorem upTo_iff {t time : Int} : upTo t time = true ↔ time ≤ t := by simp [upTo]

/-- A bar closes a given time after it opens. -/
def closedBy (period t time : Int) : Bool := time + period ≤ t

theorem closedBy_iff {period t time : Int} : closedBy period t time = true ↔ time + period ≤ t := by
  simp [closedBy]

theorem closedBy_down (period t : Int) : Downward (closedBy period t) := by
  intro a b hab hb
  rw [closedBy_iff] at hb ⊢
  omega

theorem upTo_down (t : Int) : Downward (upTo t) := by
  intro a b hab hb
  rw [upTo_iff] at hb ⊢
  omega

theorem timeAt?_eq (s : Series α) (i : Nat) : s.timeAt? i = (s.bar? i).map Bar.time := rfl

theorem early_of_mem_front {s : Series α} {early : Int → Bool} {b : Bar α}
    (h : b ∈ s.front early) : early b.time = true :=
  List.mem_takeWhile_imp (p := fun b : Bar α => early b.time) h

theorem bar?_of_lt_front {s : Series α} {early : Int → Bool} {i : Nat}
    (hi : i < (s.front early).length) : s.bar? i = (s.front early)[i]? := by
  have hp : s.front early <+: s.toList := List.takeWhile_prefix _
  unfold bar?
  rw [← Array.getElem?_toList, List.prefix_iff_getElem?.mp hp i hi, List.getElem?_eq_getElem hi]

theorem timeAt?_of_lt_front {s : Series α} {early : Int → Bool} {i : Nat}
    (hi : i < (s.front early).length) : s.timeAt? i = ((s.front early).map Bar.time)[i]? := by
  rw [timeAt?_eq, bar?_of_lt_front hi, List.getElem?_map]

theorem front_length_le (s : Series α) (early : Int → Bool) : (s.front early).length ≤ s.size := by
  have hp : s.front early <+: s.toList := List.takeWhile_prefix _
  simpa using hp.length_le

theorem takeWhile_length_fails {β : Type} {p : β → Bool} {l : List β} {b : β}
    (h : l[(l.takeWhile p).length]? = some b) : p b = false := by
  induction l with
  | nil => simp at h
  | cons a l ih =>
    by_cases ha : p a
    · simp only [ha, List.takeWhile_cons_of_pos, List.length_cons, List.getElem?_cons_succ] at h
      exact ih h
    · simp only [ha, Bool.false_eq_true, not_false_eq_true, List.takeWhile_cons_of_neg,
        List.length_nil, List.getElem?_cons_zero, Option.some.injEq] at h
      subst h
      simpa using ha

theorem late_after_front {s : Series α} {early : Int → Bool} {b : Bar α}
    (h : s.bar? (s.front early).length = some b) : early b.time = false := by
  unfold bar? at h
  rw [← Array.getElem?_toList] at h
  exact takeWhile_length_fails (p := fun b : Bar α => early b.time) h

theorem Increasing.time_lt {s : Series α} (h : s.Increasing) {i j : Nat} {a b : Bar α}
    (ha : s.bar? i = some a) (hb : s.bar? j = some b) (hij : i < j) : a.time < b.time := by
  unfold bar? at ha hb
  rw [← Array.getElem?_toList, List.getElem?_eq_some_iff] at ha hb
  obtain ⟨hi, rfl⟩ := ha
  obtain ⟨hj, rfl⟩ := hb
  exact List.pairwise_iff_getElem.mp h i j hi hj hij

theorem lt_front_length {s : Series α} (h : s.Increasing) {early : Int → Bool}
    (down : Downward early) {i : Nat} {b : Bar α} (hb : s.bar? i = some b)
    (hearly : early b.time = true) : i < (s.front early).length := by
  by_contra hle
  have hi : i < s.size := (Array.getElem?_eq_some_iff.mp hb).1
  obtain ⟨a, ha⟩ : ∃ a, s.bar? (s.front early).length = some a :=
    ⟨_, Array.getElem?_eq_getElem (by omega)⟩
  have hlate := late_after_front ha
  have hab : a.time ≤ b.time := by
    rcases Nat.lt_or_eq_of_le (Nat.le_of_not_lt hle) with hlt | heq
    · exact Int.le_of_lt (h.time_lt ha hb hlt)
    · rw [heq, hb, Option.some.injEq] at ha
      exact Int.le_of_eq (congrArg Bar.time ha.symm)
  rw [down a.time b.time hab hearly] at hlate
  cases hlate

/-- In a history of increasing times nothing behind the front passes. -/
theorem front_append {s : Series α} (h : s.Increasing) {early : Int → Bool} (down : Downward early) :
    ∃ rest, s.toList = s.front early ++ rest ∧ ∀ b ∈ rest, early b.time = false := by
  unfold front
  unfold Increasing at h
  generalize s.toList = l at h
  induction l with
  | nil => exact ⟨[], rfl, by simp⟩
  | cons a l ih =>
    obtain ⟨ha, hl⟩ := List.pairwise_cons.mp h
    by_cases he : early a.time
    · obtain ⟨rest, hrest, late⟩ := ih hl
      refine ⟨rest, ?_, late⟩
      simp only [he, List.takeWhile_cons_of_pos, List.cons_append]
      rw [← hrest]
    · refine ⟨a :: l, by simp [he], fun b hb => ?_⟩
      rcases List.mem_cons.mp hb with rfl | hb
      · simpa using he
      · exact Bool.eq_false_iff.mpr fun hb' =>
          he (down a.time b.time (Int.le_of_lt (ha b hb)) hb')

theorem front_eq {s : Series α} {early : Int → Bool} {done rest : List (Bar α)}
    (h : s.toList = done ++ rest) (hdone : ∀ b ∈ done, early b.time = true)
    (hrest : ∀ b ∈ rest, early b.time = false) : s.front early = done := by
  unfold front
  rw [h, List.takeWhile_append_of_pos hdone]
  cases rest with
  | nil => simp
  | cons a rest => simp [hrest a List.mem_cons_self]

theorem front_eq_filter {s : Series α} (h : s.Increasing) {early : Int → Bool}
    (down : Downward early) : s.front early = s.toList.filter fun b => early b.time := by
  obtain ⟨rest, hs, late⟩ := front_append h down
  have hnone : rest.filter (fun b => early b.time) = [] :=
    List.filter_eq_nil_iff.mpr fun b hb => by simp [late b hb]
  have hall : (s.front early).filter (fun b => early b.time) = s.front early :=
    List.filter_eq_self.mpr fun b hb => early_of_mem_front hb
  rw [hs, List.filter_append, hnone, hall, List.append_nil]

theorem front_of_imp {s : Series α} (early late : Int → Bool)
    (imp : ∀ b ∈ s.toList, early b.time = true → late b.time = true) :
    (s.front late).takeWhile (fun b => early b.time) = s.front early := by
  unfold front
  generalize s.toList = l at imp
  induction l with
  | nil => rfl
  | cons a l ih =>
    have hl := ih fun b hb => imp b (List.mem_cons_of_mem a hb)
    by_cases he : early a.time
    · have hlate := imp a List.mem_cons_self he
      simp only [he, hlate, List.takeWhile_cons_of_pos, hl]
    · by_cases hlate : late a.time
      · simp only [he, hlate, List.takeWhile_cons_of_pos, Bool.false_eq_true, not_false_eq_true,
          List.takeWhile_cons_of_neg]
      · simp only [he, hlate, Bool.false_eq_true, not_false_eq_true, List.takeWhile_cons_of_neg,
          List.takeWhile_nil]

theorem skipWhile_le {s : Series α} {before : Int → Bool} {i k : Nat} (hi : i ≤ k) {time : Int}
    (hk : s.timeAt? k = some time) (late : before time = false) : s.skipWhile before i ≤ k := by
  induction hn : k - i generalizing i with
  | zero =>
    obtain rfl : i = k := by omega
    unfold skipWhile
    split
    next hlt =>
      have ht : s[i].time = time := by
        simpa [timeAt?, Array.getElem?_eq_getElem hlt] using hk
      simp [ht, late]
    next => exact Nat.le_refl i
  | succ n ih =>
    unfold skipWhile
    split
    next =>
      split
      next => exact ih (by omega) (by omega)
      next => exact hi
    next => exact hi

theorem skipWhile_front_length {s : Series α} {before late : Int → Bool}
    (imp : ∀ time, before time = true → late time = true) :
    s.skipWhile before (s.front late).length = (s.front late).length := by
  unfold skipWhile
  split
  next hlt =>
    have hlate : late s[(s.front late).length].time = false :=
      late_after_front (Array.getElem?_eq_getElem hlt)
    split
    next hbefore => rw [imp _ hbefore] at hlate; cases hlate
    next => rfl
  next => rfl

theorem skipWhile_of_lt {s : Series α} {before : Int → Bool} {i : Nat} {time : Int}
    (hi : s.timeAt? i = some time) :
    s.skipWhile before i = if before time then s.skipWhile before (i + 1) else i := by
  unfold timeAt? at hi
  obtain ⟨b, hb, rfl⟩ := Option.map_eq_some_iff.mp hi
  obtain ⟨hlt, rfl⟩ := Array.getElem?_eq_some_iff.mp hb
  conv_lhs => unfold skipWhile
  rw [dif_pos hlt]

/-- Cursors move alike over histories with the same early times, and stay among them. -/
theorem skipWhile_congr {s₁ s₂ : Series α} {before late : Int → Bool}
    (imp : ∀ time, before time = true → late time = true)
    (same : (s₁.front late).map Bar.time = (s₂.front late).map Bar.time) {i : Nat}
    (hi : i ≤ (s₁.front late).length) :
    s₁.skipWhile before i = s₂.skipWhile before i ∧
      s₁.skipWhile before i ≤ (s₁.front late).length := by
  have hlen : (s₁.front late).length = (s₂.front late).length := by
    simpa using congrArg List.length same
  induction hn : (s₁.front late).length - i generalizing i with
  | zero =>
    obtain rfl : i = (s₁.front late).length := by omega
    rw [skipWhile_front_length imp]
    refine ⟨?_, Nat.le_refl _⟩
    rw [hlen, skipWhile_front_length imp]
  | succ n ih =>
    have hlt : i < ((s₁.front late).map Bar.time).length := by rw [List.length_map]; omega
    have h₁ : s₁.timeAt? i = some (((s₁.front late).map Bar.time)[i]) := by
      rw [timeAt?_of_lt_front (by omega : i < (s₁.front late).length),
        List.getElem?_eq_getElem hlt]
    have h₂ : s₂.timeAt? i = some (((s₁.front late).map Bar.time)[i]) := by
      rw [timeAt?_of_lt_front (by omega : i < (s₂.front late).length), ← same,
        List.getElem?_eq_getElem hlt]
    rw [skipWhile_of_lt h₁, skipWhile_of_lt h₂]
    split
    next => exact ih (by omega) (by omega)
    next => exact ⟨rfl, hi⟩

theorem boundary_congr {s₁ s₂ : Series α} {early : Int → Bool} {lo hi : Nat}
    (same : ∀ i < hi, s₁.timeAt? i = s₂.timeAt? i) :
    s₁.boundary early lo hi = s₂.boundary early lo hi := by
  induction lo, hi using boundary.induct s₁ early with
  | case1 lo hi hlt mid hearly ih =>
    unfold boundary
    rw [if_pos hlt, if_pos hlt]
    dsimp only
    rw [← same _ (by omega : (lo + hi) / 2 < hi)]
    simp only [mid] at hearly
    rw [if_pos hearly, if_pos hearly]
    exact ih same
  | case2 lo hi hlt mid hlate ih =>
    unfold boundary
    rw [if_pos hlt, if_pos hlt]
    dsimp only
    rw [← same _ (by omega : (lo + hi) / 2 < hi)]
    simp only [mid] at hlate
    rw [if_neg hlate, if_neg hlate]
    exact ih fun i hi' => same i (by omega)
  | case3 lo hi hge =>
    unfold boundary
    rw [if_neg hge, if_neg hge]

/-- The search by halving finds where the front ends, or stops at its upper end. -/
theorem boundary_eq_min {s : Series α} (h : s.Increasing) {early : Int → Bool}
    (down : Downward early) {lo hi : Nat} (hlo : lo ≤ (s.front early).length) (hle : lo ≤ hi)
    (hs : hi ≤ s.size) : s.boundary early lo hi = min (s.front early).length hi := by
  induction lo, hi using boundary.induct s early with
  | case1 lo hi hlt mid hearly ih =>
    unfold boundary
    rw [if_pos hlt]
    dsimp only
    rw [if_pos hearly]
    obtain ⟨time, htime, hpass⟩ := (Option.any_eq_true _ _).mp hearly
    obtain ⟨b, hb, rfl⟩ := Option.map_eq_some_iff.mp htime
    have hmid := lt_front_length h down hb hpass
    exact ih (by omega) (by omega) hs
  | case2 lo hi hlt mid hlate ih =>
    unfold boundary
    rw [if_pos hlt]
    dsimp only
    rw [if_neg hlate]
    have hmid : (s.front early).length ≤ mid := by
      refine Nat.le_of_not_lt fun hmid => hlate ?_
      have hb := bar?_of_lt_front hmid
      rw [List.getElem?_eq_getElem hmid] at hb
      have hearly := early_of_mem_front (List.getElem_mem hmid)
      rw [timeAt?_eq, hb]
      exact hearly
    have hh := ih hlo (by omega) (by omega)
    rw [hh]
    omega
  | case3 lo hi hge =>
    unfold boundary
    rw [if_neg hge]
    omega

theorem boundary_eq_front {s : Series α} (h : s.Increasing) {early : Int → Bool}
    (down : Downward early) {lo hi : Nat} (hlo : lo ≤ (s.front early).length)
    (hhi : (s.front early).length ≤ hi) (hs : hi ≤ s.size) :
    s.boundary early lo hi = (s.front early).length := by
  rw [boundary_eq_min h down hlo (hlo.trans hhi) hs, Nat.min_eq_left hhi]

/-- A cursor within the front moves to its end. -/
theorem skipWhile_eq_front {s : Series α} {early : Int → Bool} {i : Nat}
    (hi : i ≤ (s.front early).length) : s.skipWhile early i = (s.front early).length := by
  induction hn : (s.front early).length - i generalizing i with
  | zero =>
    obtain rfl : i = (s.front early).length := by omega
    exact skipWhile_front_length fun _ h => h
  | succ n ih =>
    have hlt : i < (s.front early).length := by omega
    have hearly := early_of_mem_front (List.getElem_mem hlt)
    have htime : s.timeAt? i = some ((s.front early)[i].time) := by
      rw [timeAt?_eq, bar?_of_lt_front hlt, List.getElem?_eq_getElem hlt]
      rfl
    rw [skipWhile_of_lt htime, if_pos hearly]
    exact ih (by omega) (by omega)

theorem front_length_mono {s : Series α} {early late : Int → Bool}
    (imp : ∀ time, early time = true → late time = true) :
    (s.front early).length ≤ (s.front late).length := by
  rw [← front_of_imp early late fun b _ => imp b.time]
  exact (List.takeWhile_prefix _).length_le

end Series
end Backtest
