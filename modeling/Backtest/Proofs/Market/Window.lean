import Backtest.Arith.Double
import Backtest.Proofs.History.Openings
import Backtest.Proofs.Market.WarmUp

namespace Backtest

namespace Series

variable {α : Type}

/-- To leave out as many bars as come before a time is to leave out the bars before it, also among the
first bars of a history alone. -/
theorem drop_front {s : Series α} (h : s.Increasing) {early : Int → Bool} (down : Downward early)
    (n : Nat) :
    (s.toList.take n).drop (s.front early).length =
      (s.toList.take n).filter fun b => !early b.time := by
  obtain ⟨rest, hs, late⟩ := front_append h down
  have hfront : ((s.front early).take n).filter (fun b => !early b.time) = [] := by
    refine List.filter_eq_nil_iff.mpr fun b hb => ?_
    simp [early_of_mem_front (List.mem_of_mem_take hb)]
  have hrest : (rest.take (n - (s.front early).length)).filter (fun b => !early b.time) =
      rest.take (n - (s.front early).length) :=
    List.filter_eq_self.mpr fun b hb => by simp [late b (List.mem_of_mem_take hb)]
  have hdrop : s.toList.drop (s.front early).length = rest := by
    rw [hs]
    exact List.drop_left
  rw [List.drop_take, hdrop]
  conv_rhs => rw [hs, List.take_append, List.filter_append, hfront, hrest, List.nil_append]

theorem front_eq_take (s : Series α) (early : Int → Bool) :
    s.front early = s.toList.take (s.front early).length :=
  List.prefix_iff_eq_take.mp (List.takeWhile_prefix _)

end Series

namespace BarBuffer

open Series

variable {α : Type}

def advanceAll (b : BarBuffer α) (times : List Int) : BarBuffer α := times.foldl advance b

/-- The opening of a window: that of the earliest of the `capacity` latest base bars that have closed by a
time, or of all that have if they are fewer. -/
def windowFloor? (info : BufferInfo α) (base : Series α) (t : Int) : Option Int :=
  let closed := base.closedBars (info.actual * 60 : Nat) t
  (closed.reverse[min closed.length info.capacity - 1]?).map Bar.time

/-- A time that is not later than where a buffer stands leaves it there. -/
theorem StandsAt.advance_max {b : BarBuffer α} {s t : Int} (h : b.StandsAt s) :
    (b.advance t).StandsAt (max s t) := by
  rcases Int.le_total s t with hst | hts
  · rw [Int.max_eq_right hst]
    exact h.advance hst
  · rw [Int.max_eq_left hts]
    have hbase : (b.advance t).baseClosed = b.baseClosed := by
      rw [advance_baseClosed, h.baseClosed, skipWhile_front_length fun _ => closedBy_mono hts]
    have hown : (b.advance t).closed = b.closed := by
      rw [advance_closed, h.closed, skipWhile_front_length fun _ => closedBy_mono hts]
    refine ⟨?_, ?_, ?_⟩
    · rw [hbase, advance_base, advance_basePeriod]
      exact h.baseClosed
    · rw [hown, advance_series, advance_period]
      exact h.closed
    · rw [advance_windowStart, advance_series]
      rfl

theorem StandsAt.advanceAll {b : BarBuffer α} {s : Int} (h : b.StandsAt s) (times : List Int) :
    (b.advanceAll times).StandsAt (times.foldl max s) := by
  unfold BarBuffer.advanceAll
  induction times generalizing b s with
  | nil => exact h
  | cons t times ih => exact ih h.advance_max

theorem advanceAll_fixed (b : BarBuffer α) (times : List Int) :
    (b.advanceAll times).info = b.info ∧ (b.advanceAll times).base = b.base ∧
      (b.advanceAll times).series = b.series := by
  unfold BarBuffer.advanceAll
  induction times generalizing b with
  | nil => exact ⟨rfl, rfl, rfl⟩
  | cons t times ih =>
    obtain ⟨info, base, series⟩ := ih (b.advance t)
    exact ⟨info.trans (b.advance_info t), base.trans (b.advance_base t),
      series.trans (b.advance_series t)⟩

theorem StandsAt.eq {b₁ b₂ : BarBuffer α} {t : Int} (h₁ : b₁.StandsAt t) (h₂ : b₂.StandsAt t)
    (info : b₁.info = b₂.info) (base : b₁.base = b₂.base) (series : b₁.series = b₂.series) :
    b₁ = b₂ := by
  obtain ⟨info₁, base₁, series₁, n₁, k₁, w₁⟩ := b₁
  obtain ⟨info₂, base₂, series₂, n₂, k₂, w₂⟩ := b₂
  dsimp only at info base series
  subst info base series
  obtain rfl : n₁ = n₂ := h₁.baseClosed.trans h₂.baseClosed.symm
  obtain rfl : k₁ = k₂ := h₁.closed.trans h₂.closed.symm
  obtain rfl : w₁ = w₂ := h₁.windowStart.trans h₂.windowStart.symm
  rfl

theorem ofSeries_advance_standsAt (info : BufferInfo α) (base series : Series α) (t : Int) :
    ((ofSeries info base series).advance t).StandsAt t :=
  advance_standsAt (Nat.zero_le _) (Nat.zero_le _)

theorem closedBars_eq_front {s : Series α} (h : s.Increasing) (period t : Int) :
    s.closedBars period t = s.front (closedBy period t) :=
  (front_eq_filter h (closedBy_down period t)).symm

theorem StandsAt.windowOpening? {b : BarBuffer α} {t : Int} (h : b.StandsAt t)
    (increasing : b.base.Increasing) (capacity : 1 ≤ b.info.capacity) :
    b.windowOpening? = windowFloor? b.info b.base t := by
  have hclosed : b.base.closedBars (b.info.actual * 60 : Nat) t =
      b.base.front (closedBy b.basePeriod t) := closedBars_eq_front increasing _ t
  unfold BarBuffer.windowOpening? windowFloor?
  dsimp only
  rw [hclosed, ← h.baseClosed]
  split
  next none_closed =>
    have empty : b.base.front (closedBy b.basePeriod t) = [] :=
      List.eq_nil_of_length_eq_zero (h.baseClosed.symm.trans none_closed)
    rw [empty]
    rfl
  next some_closed =>
    have hlt : b.baseClosed - b.info.capacity < (b.base.front (closedBy b.basePeriod t)).length := by
      rw [← h.baseClosed]
      omega
    have hindex : (b.base.front (closedBy b.basePeriod t)).length - 1 -
        (min b.baseClosed b.info.capacity - 1) = b.baseClosed - b.info.capacity := by
      rw [← h.baseClosed]
      omega
    rw [List.getElem?_reverse (by rw [← h.baseClosed]; omega), hindex, timeAt?_of_lt_front hlt,
      List.getElem?_map]

/-- The view of a buffer over histories in order holds the closed bars that do not open before its
window. -/
theorem StandsAt.view_eq_filter {b : BarBuffer α} {t : Int} (h : b.StandsAt t)
    (increasing : b.series.Increasing) :
    b.view.toList = b.series.toList.filter fun r =>
      closedBy b.period t r.time && b.windowOpening?.all (· ≤ r.time) := by
  have hclosed : b.series.toList.take b.closed =
      b.series.toList.filter fun r => closedBy b.period t r.time := by
    rw [← front_eq_filter increasing (closedBy_down b.period t), h.closed]
    exact (front_eq_take _ _).symm
  have hview : b.view.toList = (b.series.toList.take b.closed).drop b.windowStart := by
    unfold BarBuffer.view
    rw [Array.toList_extract, List.extract_eq_take_drop, ← List.drop_take]
  rw [hview, h.windowStart]
  cases ho : b.windowOpening? with
  | none =>
    simp only [Option.elim_none, List.drop_zero, Option.all_none, Bool.and_true]
    exact hclosed
  | some opening =>
    have hsize : b.closed ≤ b.series.size := by
      rw [h.closed]
      exact front_length_le _ _
    have hlength : (b.series.toList.take b.closed).length = b.closed := by
      rw [List.length_take, Array.length_toList, Nat.min_eq_left hsize]
    -- no more is left out than there is
    have hmin : (b.series.toList.take b.closed).drop
        (min (b.series.front (before opening)).length b.closed) =
          (b.series.toList.take b.closed).drop (b.series.front (before opening)).length := by
      rcases Nat.le_total (b.series.front (before opening)).length b.closed with hle | hle
      · rw [Nat.min_eq_left hle]
      · rw [Nat.min_eq_right hle, List.drop_eq_nil_of_le hlength.le,
          List.drop_eq_nil_of_le (hlength.le.trans hle)]
    simp only [Option.elim_some, Option.all_some]
    rw [boundary_eq_min increasing (before_down opening) (Nat.zero_le _) (Nat.zero_le _) hsize, hmin,
      drop_front increasing (before_down opening), hclosed, List.filter_filter]
    refine List.filter_congr fun r _ => ?_
    rw [Bool.and_comm]
    congr 1
    unfold before
    rw [← decide_not]
    exact decide_eq_decide.mpr Int.not_lt

variable [Arith α]

/-- A buffer over a history in increasing times, which it shows on a timeframe that is not finer, has
moved on to some times in any order. Then it shows the bars of the coarse history that have closed by
the latest of these times and do not open before the window, in their order, and it stands as if it
had moved there at once. -/
theorem advanceAll_view {info : BufferInfo α} {base series : Series α} (increasing : base.Increasing)
    (resampled : base.resample info.actual info.required = .ok series)
    (capacity : 1 ≤ info.capacity) {times : List Int} {t : Int} (latest : times.max? = some t) :
    let b := (ofSeries info base series).advanceAll times
    (b.view.toList = series.toList.filter fun r =>
      r.time + (info.required * 60 : Nat) ≤ t && (windowFloor? info base t).all (· ≤ r.time)) ∧
    b = (ofSeries info base series).advance t := by
  intro b
  obtain ⟨hinfo, hbase, hseries⟩ := (ofSeries info base series).advanceAll_fixed times
  have stands : b.StandsAt t := by
    cases times with
    | nil => cases latest
    | cons first times =>
      rw [List.max?_cons', Option.some.injEq] at latest
      rw [← latest]
      exact (ofSeries_advance_standsAt info base series first).advanceAll times
  have increasing' : series.Increasing := by
    by_cases heq : info.required = info.actual
    · unfold Series.resample at resampled
      rw [if_pos heq] at resampled
      split at resampled
      next => cases resampled
      next =>
        cases resampled
        exact increasing
    · exact (resample_times heq resampled increasing).2.1
  have hfloor : b.windowOpening? = windowFloor? info base t := by
    rw [stands.windowOpening? (hbase.symm ▸ increasing) (hinfo.symm ▸ capacity), hinfo, hbase]
    rfl
  have hview := stands.view_eq_filter (hseries.symm ▸ increasing')
  rw [hfloor, hseries] at hview
  unfold BarBuffer.period at hview
  rw [hinfo] at hview
  refine ⟨hview, stands.eq (ofSeries_advance_standsAt info base series t) ?_ ?_ ?_⟩
  · rw [hinfo, advance_info]
  · rw [hbase, advance_base]
  · rw [hseries, advance_series]

section Sample

def gappedBase : Series Float :=
  #[60, 120, 180, 420, 480, 540, 600, 660].map fun time => ⟨time, 1.1, 1.1, 1.1, 1.1, 0, 0, 0⟩

def fiveMinutes : BufferInfo Float where
  slot := 0
  required := 5
  actual := 1
  bars := 1
  capacity := 4
  symbol := "D"
  digits := 5
  point := 0.00001

/-- By the latest time three coarse bars have closed. The window opens within the second one, so that the
last one is shown alone, whatever was asked for before and after. -/
theorem fiveMinutes_view :
    ∃ series, gappedBase.resample fiveMinutes.actual fiveMinutes.required = .ok series ∧
      series.toList.map Bar.time = [0, 300, 600] ∧
      windowFloor? fiveMinutes gappedBase 905 = some 480 ∧
      ((ofSeries fiveMinutes gappedBase series).advanceAll [500, 905, 200]).view.toList.map Bar.time =
        [600] := by
  obtain ⟨series, resampled⟩ : ∃ series,
      gappedBase.resample fiveMinutes.actual fiveMinutes.required = .ok series := ⟨_, rfl⟩
  have times : series.toList.map Bar.time = [0, 300, 600] := by
    cases resampled
    decide +kernel
  have floor : windowFloor? fiveMinutes gappedBase 905 = some 480 := by decide +kernel
  have latest : [500, 905, 200].max? = some (905 : Int) := rfl
  have view := (advanceAll_view (by unfold Series.Increasing; decide +kernel) resampled (by decide)
    latest).1
  refine ⟨series, resampled, times, floor, ?_⟩
  rw [view, floor]
  have shown : (series.toList.map Bar.time).filter (fun time => time + 300 ≤ 905 && 480 ≤ time) =
      [600] := by
    rw [times]
    rfl
  rw [List.filter_map] at shown
  exact shown

end Sample

end BarBuffer
end Backtest
