import Backtest.Proofs.History.Increasing
import Backtest.Proofs.History.Spans

namespace Backtest

theorem Spaced.add_mul_le {gap : Int} {times : List Int} (h : Spaced gap times) {i n : Nat} {a b : Int}
    (ha : times[i]? = some a) (hb : times[i + n]? = some b) : a + n * gap ≤ b := by
  induction n generalizing b with
  | zero =>
    obtain rfl : a = b := Option.some.inj (ha.symm.trans hb)
    simp
  | succ n ih =>
    obtain ⟨hlt, rfl⟩ := List.getElem?_eq_some_iff.mp hb
    have hstep := List.isChain_iff_getElem.mp h (i + n) (by omega)
    have hh := ih (List.getElem?_eq_getElem (by omega))
    have hmul : ((n + 1 : Nat) : Int) * gap = n * gap + gap := by
      rw [Int.natCast_add, Int.add_mul, Int.natCast_one, Int.one_mul]
    simp only [← Nat.add_assoc] at hstep ⊢
    omega

namespace Series

variable {α : Type}

theorem increasing_iff (s : Series α) :
    s.Increasing ↔ (s.toList.map Bar.time).Pairwise (· < ·) := List.pairwise_map.symm

theorem getElem?_times (s : Series α) (i : Nat) : (s.toList.map Bar.time)[i]? = s.timeAt? i := by
  rw [List.getElem?_map, Array.getElem?_toList]
  rfl

theorem spanStart_le (period time : Int) (hp : 0 < period) : spanStart period time ≤ time :=
  Int.ediv_mul_le time (Int.ne_of_gt hp)

theorem spanStart_add_period (period time : Int) (hp : 0 < period) :
    spanStart period (time + period) = spanStart period time + period := by
  unfold spanStart
  rw [Int.add_ediv_of_dvd_right (Int.dvd_refl period), Int.ediv_self (Int.ne_of_gt hp), Int.add_mul,
    Int.one_mul]

theorem next_span_le {period a b : Int} (hp : 0 < period) (h : a + period ≤ b) :
    spanStart period a + period ≤ spanStart period b := by
  rw [← spanStart_add_period period a hp]
  exact spanStart_mono hp h

/-- A bar that one test lets pass and another one does not makes the one front longer. -/
theorem front_lt_front {s : Series α} (h : s.Increasing) {early late : Int → Bool}
    (down : Downward late) {t : Int} (ht : t ∈ s.toList.map Bar.time) (notEarly : early t = false)
    (isLate : late t = true) : (s.front early).length < (s.front late).length := by
  obtain ⟨b, hb, rfl⟩ := List.mem_map.mp ht
  obtain ⟨i, hi⟩ := List.mem_iff_getElem?.mp hb
  rw [Array.getElem?_toList] at hi
  have hlt := lt_front_length h down hi isLate
  have hge : (s.front early).length ≤ i := by
    by_contra hshort
    have hfront := early_of_mem_front (List.getElem_mem (by omega : i < (s.front early).length))
    have hb' := bar?_of_lt_front (by omega : i < (s.front early).length)
    rw [List.getElem?_eq_getElem (by omega)] at hb'
    rw [← Option.some.inj (hi.symm.trans hb'), notEarly] at hfront
    cases hfront
  omega

variable [Arith α]

theorem mem_addToSpans_times {period : Int} {out : Series α} {b : Bar α} {start : Int} :
    start ∈ (addToSpans period out b).toList.map Bar.time ↔
      start ∈ out.toList.map Bar.time ∨ start = spanStart period b.time := by
  rcases addToSpans_cases period out b with ⟨init, last, hout, htime, hnew⟩ | hnew
  · rw [hnew, hout, List.map_append, List.map_append, List.mem_append, List.mem_append]
    simp only [Bar.absorb, List.map_cons, List.map_nil, List.mem_singleton, htime]
    rw [or_assoc, or_self]
  · rw [hnew, List.map_append, List.mem_append]
    simp

theorem addToSpans_increasing {period : Int} {out : Series α} {b : Bar α} (h : out.Increasing)
    (before : ∀ x ∈ out.toList.map Bar.time, x ≤ spanStart period b.time) :
    (addToSpans period out b).Increasing := by
  unfold addToSpans
  dsimp only
  split
  next last hlast =>
    have hmem : last.time ∈ out.toList.map Bar.time :=
      List.mem_map_of_mem (Array.mem_def.mp (Array.mem_of_back? hlast))
    split
    next htime =>
      have hout : out.toList = out.toList.dropLast ++ [last] :=
        (List.dropLast_append_getLast? last (by rwa [Array.getLast?_toList])).symm
      rw [increasing_iff, hout] at h
      rw [increasing_iff]
      simpa [Bar.absorb] using h
    next hne =>
      have hle := before _ hmem
      exact h.push hlast (by dsimp only; omega)
  next hnone =>
    rw [Array.back?_eq_none_iff.mp hnone]
    exact List.pairwise_singleton _ _

theorem foldl_addToSpans_increasing {period : Int} (hp : 0 < period) {bars : List (Bar α)}
    (sorted : bars.Pairwise fun a b => a.time < b.time) {out : Series α} (h : out.Increasing)
    (before : ∀ x ∈ out.toList.map Bar.time, ∀ b ∈ bars, x ≤ spanStart period b.time) :
    (bars.foldl (addToSpans period) out).Increasing := by
  induction bars generalizing out with
  | nil => exact h
  | cons b bars ih =>
    obtain ⟨hb, hbars⟩ := List.pairwise_cons.mp sorted
    have grown := addToSpans_increasing h fun x hx => before x hx b List.mem_cons_self
    refine ih hbars grown fun x hx b' hb' => ?_
    rcases mem_addToSpans_times.mp hx with hold | rfl
    · exact before x hold b' (List.mem_cons_of_mem b hb')
    · exact spanStart_mono hp (Int.le_of_lt (hb b' hb'))

theorem mem_foldl_addToSpans {period : Int} {bars : List (Bar α)} {out : Series α} {start : Int} :
    start ∈ (bars.foldl (addToSpans period) out).toList.map Bar.time ↔
      start ∈ out.toList.map Bar.time ∨ start ∈ bars.map fun b => spanStart period b.time := by
  induction bars generalizing out with
  | nil => simp
  | cons b bars ih =>
    rw [List.foldl_cons, ih, mem_addToSpans_times, List.map_cons, List.mem_cons, or_assoc]

theorem resample_of_lt {base target : Nat} (positive : 0 < base) (coarser : base < target)
    (s : Series α) : s.resample base target = .ok (s.foldl (addToSpans (target * 60 : Nat)) #[]) := by
  have valid : ¬((decide (target < base) || decide (base = 0)) = true) := by
    simp only [Bool.or_eq_true, decide_eq_true_eq]
    omega
  unfold resample
  rw [if_neg valid, if_neg (by omega)]

theorem resample_self {base : Nat} (positive : 0 < base) (s : Series α) :
    s.resample base base = .ok s := by
  have valid : ¬((decide (base < base) || decide (base = 0)) = true) := by
    simp only [Bool.or_eq_true, decide_eq_true_eq]
    omega
  unfold resample
  rw [if_neg valid, if_pos rfl]

theorem resample_zero (target : Nat) (s : Series α) :
    s.resample 0 target = .error (.invalidTimeframe 0 target) := by
  unfold resample
  rw [if_pos (by simp)]

theorem exists_resample {base target : Nat} (positive : 0 < base) (coarser : base ≤ target)
    (s : Series α) : ∃ coarse, s.resample base target = .ok coarse := by
  rcases Nat.eq_or_lt_of_le coarser with rfl | coarser
  · exact ⟨s, resample_self positive s⟩
  · exact ⟨_, resample_of_lt positive coarser s⟩

/-- A coarse history is in order, and its bars open where the spans of the base bars begin. -/
theorem resample_times {s coarse : Series α} {base target : Nat} (hne : target ≠ base)
    (h : s.resample base target = .ok coarse) (increasing : s.Increasing) :
    base < target ∧ coarse.Increasing ∧ ∀ start, start ∈ coarse.toList.map Bar.time ↔
      start ∈ s.toList.map fun b => spanStart (target * 60 : Nat) b.time := by
  unfold resample at h
  rw [if_neg hne] at h
  split at h
  next => cases h
  next hvalid =>
    cases h
    simp only [Bool.or_eq_true, decide_eq_true_eq, not_or, Nat.not_lt] at hvalid
    have hp : (0 : Int) < (target * 60 : Nat) := by omega
    rw [← Array.foldl_toList]
    refine ⟨by omega, foldl_addToSpans_increasing hp increasing empty_increasing (by simp), ?_⟩
    intro start
    rw [mem_foldl_addToSpans]
    simp

theorem resample_front_empty {s coarse : Series α} {base target : Nat} {t : Int} (hb : 0 < base)
    (hne : target ≠ base) (h : s.resample base target = .ok coarse) (increasing : s.Increasing)
    (spaced : Spaced (base * 60 : Nat) (s.toList.map Bar.time)) (ht : t ∈ s.toList.map Bar.time)
    (none : s.front (closedBy (base * 60 : Nat) t) = []) :
    coarse.front (closedBy (target * 60 : Nat) t) = [] := by
  obtain ⟨hlt, -, -⟩ := resample_times hne h increasing
  have within : ∀ b ∈ s.toList,
      closedBy (target * 60 : Nat) t (spanStart (target * 60 : Nat) b.time) = true →
        closedBy (base * 60 : Nat) t b.time = true := fun b hm =>
    closedBy_of_span (by omega) (by omega) spaced ht (List.mem_map_of_mem hm)
  rw [resample_front hne h increasing (closedBy_down _ t),
    ← front_of_imp (fun time => closedBy (target * 60 : Nat) t (spanStart _ time)) _ within, none]
  rfl

end Series
end Backtest
