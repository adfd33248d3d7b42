import Backtest.Proofs.Arith.Extremes
import Backtest.Proofs.History.Coarse

namespace Backtest

variable {α : Type} [Arith α]

/-- A bar has the opening of the first of some bars, the close and the swaps of the last, the maximum of
their highs, the minimum of their lows, and their volumes added up in order. -/
structure Bar.SumsUp (bar : Bar α) (bars : List (Bar α)) : Prop where
  first : ∃ first ∈ bars.head?, bar.openPrice = first.openPrice
  last : ∃ last ∈ bars.getLast?, bar.close = last.close ∧
    bar.shortSwap = last.shortSwap ∧ bar.longSwap = last.longSwap
  high : Arith.IsMaximum bar.high (bars.map Bar.high)
  low : Arith.IsMinimum bar.low (bars.map Bar.low)
  volume : ∃ v vs, bars.map Bar.volume = v :: vs ∧ bar.volume = vs.foldl (· + ·) v

namespace Bar.SumsUp

theorem single (b : Bar α) (start : Int) : SumsUp { b with time := start } [b] where
  first := ⟨b, rfl, rfl⟩
  last := ⟨b, rfl, rfl, rfl, rfl⟩
  high := Arith.isMaximum_singleton b.high
  low := Arith.isMinimum_singleton b.low
  volume := ⟨b.volume, [], rfl, rfl⟩

theorem absorb [Arith.Linear α] {bar : Bar α} {bars : List (Bar α)} (h : bar.SumsUp bars)
    (b : Bar α) : (bar.absorb b).SumsUp (bars ++ [b]) where
  first := by
    obtain ⟨first, hfirst, opened⟩ := h.first
    exact ⟨first, by rw [List.head?_append, hfirst]; rfl, opened⟩
  last := ⟨b, List.getLast?_concat, rfl, rfl, rfl⟩
  high := by
    rw [List.map_append]
    exact h.high.larger b.high
  low := by
    rw [List.map_append]
    exact h.low.smaller b.low
  volume := by
    obtain ⟨v, vs, volumes, sum⟩ := h.volume
    refine ⟨v, vs ++ [b.volume], by rw [List.map_append, volumes]; rfl, ?_⟩
    rw [List.foldl_append, ← sum]
    rfl

end Bar.SumsUp

namespace Series

/-- The bars that open within `period` seconds from `start`. -/
def spanBars {α : Type} (period start : Int) (bars : List (Bar α)) : List (Bar α) :=
  bars.filter fun b => decide (start ≤ b.time ∧ b.time < start + period)

/-- The spans begin at the multiples of their length, and each time lies in one of them. -/
theorem spanStart_eq_iff {period time start : Int} (hp : 0 < period) :
    spanStart period time = start ↔ period ∣ start ∧ start ≤ time ∧ time < start + period := by
  constructor
  · rintro rfl
    exact ⟨Int.dvd_mul_left _ _, spanStart_le period time hp, lt_spanStart_add period time hp⟩
  · rintro ⟨⟨k, rfl⟩, le, lt⟩
    have quotient : time / period = k := by
      apply Int.le_antisymm
      · refine Int.lt_add_one_iff.mp (Int.ediv_lt_of_lt_mul hp ?_)
        rw [Int.add_mul, Int.one_mul, Int.mul_comm k]
        exact lt
      · refine (Int.le_ediv_iff_mul_le hp).mpr ?_
        rwa [Int.mul_comm]
    unfold spanStart
    rw [quotient, Int.mul_comm]

section Spans

variable {period start : Int} {bars : List (Bar α)} {b : Bar α}

omit [Arith α] in
theorem mem_spanBars (hp : 0 < period) (aligned : period ∣ start) :
    b ∈ spanBars period start bars ↔ b ∈ bars ∧ spanStart period b.time = start := by
  unfold spanBars
  rw [List.mem_filter, decide_eq_true_eq, spanStart_eq_iff hp]
  exact and_congr_right fun _ => (and_iff_right aligned).symm

omit [Arith α] in
theorem spanBars_concat_of_eq (hp : 0 < period) (hb : spanStart period b.time = start) :
    spanBars period start (bars ++ [b]) = spanBars period start bars ++ [b] := by
  have within := ((spanStart_eq_iff hp).mp hb).2
  unfold spanBars
  rw [List.filter_append, List.filter_cons_of_pos (by simpa using within), List.filter_nil]

omit [Arith α] in
theorem spanBars_concat_of_ne (hp : 0 < period) (aligned : period ∣ start)
    (hb : spanStart period b.time ≠ start) :
    spanBars period start (bars ++ [b]) = spanBars period start bars := by
  have outside : ¬(start ≤ b.time ∧ b.time < start + period) := fun within =>
    hb ((spanStart_eq_iff hp).mpr ⟨aligned, within⟩)
  unfold spanBars
  rw [List.filter_append, List.filter_cons_of_neg (by simpa using outside), List.filter_nil,
    List.append_nil]

omit [Arith α] in
theorem spanBars_ne_nil_iff (hp : 0 < period) :
    (period ∣ start ∧ spanBars period start bars ≠ []) ↔
      start ∈ bars.map fun b => spanStart period b.time := by
  rw [List.mem_map]
  constructor
  · rintro ⟨aligned, inhabited⟩
    obtain ⟨b, hb⟩ := List.exists_mem_of_ne_nil _ inhabited
    exact ⟨b, (mem_spanBars hp aligned).mp hb⟩
  · rintro ⟨b, hb, rfl⟩
    have aligned : period ∣ spanStart period b.time := Int.dvd_mul_left _ _
    exact ⟨aligned, List.ne_nil_of_mem ((mem_spanBars hp aligned).mpr ⟨hb, rfl⟩)⟩

end Spans

/-- The coarse bars of the base bars that were read so far. -/
structure SumsUp (period : Int) (bars : List (Bar α)) (out : Series α) : Prop where
  increasing : out.Increasing
  starts : ∀ start, start ∈ out.toList.map Bar.time ↔ start ∈ bars.map fun b => spanStart period b.time
  summed : ∀ bar ∈ out.toList, bar.SumsUp (spanBars period bar.time bars)
  size_le : out.size ≤ bars.length
  volume : ∀ [Arith.Exact α], Arith.Exact.value (Arith.total (out.toList.map Bar.volume)) =
    Arith.Exact.value (Arith.total (bars.map Bar.volume))

namespace SumsUp

variable {period : Int} {bars : List (Bar α)} {out : Series α}

theorem nothing (period : Int) : SumsUp period [] (#[] : Series α) where
  increasing := empty_increasing
  starts := by simp
  summed := by simp
  size_le := Nat.le_refl 0
  volume := rfl

theorem step_summed [Arith.Linear α] (hp : 0 < period) (h : SumsUp period bars out) {b : Bar α}
    (grown : (addToSpans period out b).Increasing) :
    ∀ bar ∈ (addToSpans period out b).toList, bar.SumsUp (spanBars period bar.time (bars ++ [b])) := by
  have older : ∀ bar ∈ out.toList, bar.time < spanStart period b.time →
      bar.SumsUp (spanBars period bar.time (bars ++ [b])) := by
    intro bar hbar before
    have start := (h.starts bar.time).mp (List.mem_map_of_mem hbar)
    have aligned := ((spanBars_ne_nil_iff hp).mpr start).1
    rw [spanBars_concat_of_ne hp aligned (Int.ne_of_gt before)]
    exact h.summed bar hbar
  unfold Increasing at grown
  rcases addToSpans_cases period out b with ⟨init, last, hout, htime, hnew⟩ | hnew
  · rw [hnew, List.pairwise_append] at grown
    rw [hnew]
    intro bar hbar
    rcases List.mem_append.mp hbar with hbar | hbar
    · have before := grown.2.2 bar hbar _ List.mem_cons_self
      exact older bar (hout ▸ List.mem_append_left _ hbar) (htime ▸ before)
    · obtain rfl := List.mem_singleton.mp hbar
      have hlast : last ∈ out.toList := hout ▸ List.mem_append_right _ List.mem_cons_self
      change (last.absorb b).SumsUp (spanBars period last.time (bars ++ [b]))
      rw [spanBars_concat_of_eq hp htime.symm]
      exact (h.summed last hlast).absorb b
  · rw [hnew, List.pairwise_append] at grown
    rw [hnew]
    intro bar hbar
    rcases List.mem_append.mp hbar with hbar | hbar
    · exact older bar hbar (grown.2.2 bar hbar _ List.mem_cons_self)
    · obtain rfl := List.mem_singleton.mp hbar
      -- a span that is opened held no bar before
      have empty : spanBars period (spanStart period b.time) bars = [] := by
        by_contra inhabited
        have start := (spanBars_ne_nil_iff hp).mp ⟨Int.dvd_mul_left _ _, inhabited⟩
        obtain ⟨bar, hbar, same⟩ := List.mem_map.mp ((h.starts _).mpr start)
        have before := grown.2.2 bar hbar _ List.mem_cons_self
        exact absurd same (Int.ne_of_lt before)
      dsimp only
      rw [spanBars_concat_of_eq hp rfl, empty]
      exact .single b _

theorem step_volume [Arith.Exact α] (h : SumsUp period bars out) (b : Bar α) :
    Arith.Exact.value (Arith.total ((addToSpans period out b).toList.map Bar.volume)) =
      Arith.Exact.value (Arith.total ((bars ++ [b]).map Bar.volume)) := by
  have before := h.volume
  rw [Arith.value_total, Arith.value_total] at before ⊢
  rw [List.map_append, List.map_append, List.sum_append, ← before]
  rcases addToSpans_cases period out b with ⟨init, last, hout, -, hnew⟩ | hnew
  · rw [hnew, hout]
    simp only [List.map_append, List.map_cons, List.map_nil, List.sum_append, List.sum_singleton,
      Bar.absorb, Arith.Exact.value_add, add_assoc]
  · rw [hnew]
    simp only [List.map_append, List.map_cons, List.map_nil, List.sum_append, List.sum_singleton]

theorem step [Arith.Linear α] (hp : 0 < period) (h : SumsUp period bars out) {b : Bar α}
    (before : ∀ x ∈ bars, x.time < b.time) :
    SumsUp period (bars ++ [b]) (addToSpans period out b) := by
  have grown : (addToSpans period out b).Increasing := by
    refine addToSpans_increasing h.increasing fun x hx => ?_
    obtain ⟨base, hbase, rfl⟩ := List.mem_map.mp ((h.starts x).mp hx)
    exact spanStart_mono hp (Int.le_of_lt (before base hbase))
  exact {
    increasing := grown
    starts := fun start => by
      rw [mem_addToSpans_times, h.starts, List.map_append, List.mem_append, List.map_singleton,
        List.mem_singleton]
    summed := h.step_summed hp grown
    size_le := by
      have size := h.size_le
      rw [List.length_append, List.length_singleton, ← Array.length_toList]
      rw [← Array.length_toList] at size
      rcases addToSpans_cases period out b with ⟨init, last, hout, -, hnew⟩ | hnew
      · rw [hnew, List.length_append, List.length_singleton]
        rw [hout, List.length_append, List.length_singleton] at size
        omega
      · rw [hnew, List.length_append, List.length_singleton]
        omega
    volume := h.step_volume b }

theorem foldl_addToSpans [Arith.Linear α] (hp : 0 < period)
    (sorted : bars.Pairwise fun a b => a.time < b.time) :
    SumsUp period bars (bars.foldl (addToSpans period) #[]) := by
  induction bars using List.reverseRecOn with
  | nil => exact nothing period
  | append_singleton bars b ih =>
    obtain ⟨before, -, last⟩ := List.pairwise_append.mp sorted
    rw [List.foldl_append]
    exact (ih before).step hp fun x hx => last x hx b List.mem_cons_self

end SumsUp

/-- A coarser history has one bar for each span that holds a base bar, and none else. Its bars follow each
other in time, each one dated to the start of its span, a multiple of the period, and each one sums up the
base bars of the span. There are not more of them than of base bars, and in exact arithmetic they have the
same volume in all. -/
theorem resample_sums_up [Arith.Linear α] {s : Series α} {base target : Nat} (positive : 0 < base)
    (coarser : base < target) (increasing : s.Increasing) :
    ∃ coarse, s.resample base target = .ok coarse ∧ coarse.Increasing ∧
      (∀ start, start ∈ coarse.toList.map Bar.time ↔
        ((target * 60 : Nat) : Int) ∣ start ∧ spanBars (target * 60 : Nat) start s.toList ≠ []) ∧
      (∀ bar ∈ coarse.toList, bar.SumsUp (spanBars (target * 60 : Nat) bar.time s.toList)) ∧
      coarse.size ≤ s.size ∧
      ∀ [Arith.Exact α], Arith.Exact.value (Arith.total (coarse.toList.map Bar.volume)) =
        Arith.Exact.value (Arith.total (s.toList.map Bar.volume)) := by
  have hp : (0 : Int) < (target * 60 : Nat) := by omega
  have sums := SumsUp.foldl_addToSpans hp increasing
  refine ⟨_, ?_, sums.increasing, fun start => ?_, sums.summed, sums.size_le, sums.volume⟩
  · rw [resample_of_lt positive coarser, Array.foldl_toList]
  · rw [sums.starts, spanBars_ne_nil_iff hp]

section Sample

/-- Bars two minutes apart or more, around 1970, and none of them at the start of a span of five minutes; in
floating point the high of one of them is undefined. -/
def unevenBars (α : Type) [Arith α] : Series α :=
  #[⟨-400, 1.0, 2.0, 1.0, 1.0, 0.1, 0.0, 0.0⟩,
    ⟨-280, 1.0, 0.0 / 0.0, 1.0, 2.0, 0.2, 0.0, 0.0⟩,
    ⟨-160, 2.0, 4.0, 0.5, 3.0, 0.3, 0.25, 0.5⟩,
    ⟨20, 3.0, 3.0, 2.0, 2.0, 0.4, 0.0, 0.0⟩,
    ⟨500, 2.0, 2.0, 1.0, 1.0, 0.5, 0.0, 0.0⟩]

theorem unevenBars_increasing (α : Type) [Arith α] : (unevenBars α).Increasing := by
  simp [Increasing, unevenBars]

/-- Of the five bars two lie in the span before 1970, where the high that is defined counts. -/
theorem unevenBars_sums_up :
    (∃ coarse, (unevenBars Float).resample 2 5 = .ok coarse ∧
      coarse.toList.map Bar.time = [-600, -300, 0, 300] ∧
      ∃ bar ∈ coarse.toList, bar.time = -300 ∧ bar.SumsUp ((unevenBars Float).toList.extract 1 3)) ∧
    ∃ coarse, (unevenBars ℚ).resample 2 5 = .ok coarse ∧
      (Arith.total (coarse.toList.map Bar.volume) : ℚ) = 1.5 := by
  constructor
  · obtain ⟨coarse, made, -, starts, summed, -⟩ :=
      resample_sums_up (by decide : 0 < 2) (by decide : 2 < 5) (unevenBars_increasing Float)
    have inhabited : spanBars (5 * 60 : Nat) (-300) (unevenBars Float).toList =
        (unevenBars Float).toList.extract 1 3 := rfl
    have opened := (starts (-300)).mpr ⟨by decide, inhabited ▸ List.cons_ne_nil _ _⟩
    obtain ⟨bar, hbar, time⟩ := List.mem_map.mp opened
    refine ⟨coarse, made, ?_, bar, hbar, time, ?_⟩
    · cases (resample_of_lt (by decide) (by decide) _).symm.trans made
      decide +kernel
    · rw [← inhabited, ← time]
      exact summed bar hbar
  · obtain ⟨coarse, made, -, -, -, -, volume⟩ :=
      resample_sums_up (by decide : 0 < 2) (by decide : 2 < 5) (unevenBars_increasing ℚ)
    refine ⟨coarse, made, (Arith.Exact.value_injective volume).trans ?_⟩
    decide +kernel

end Sample

end Series
end Backtest
