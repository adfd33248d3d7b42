import Backtest.Proofs.Statistics.Decline
import Backtest.Proofs.Statistics.Span

namespace Backtest

open Arith (Exact)
open Arith.Exact (value)

variable {α : Type} [Arith α] [Exact α]

/-- The depth of a decline in percent, one hundred at most: of a fixed base, or else of the peak. -/
noncomputable def percentBelow (fixedBase : Option ℝ) (peak balance : ℝ) : ℝ :=
  min 100 (100 * (peak - balance) / fixedBase.getD peak)

theorem percentBelow_self (fixedBase : Option ℝ) (peak : ℝ) :
    percentBelow fixedBase peak peak = 0 := by
  unfold percentBelow
  rw [sub_self, mul_zero, zero_div]
  exact min_eq_right (by norm_num)

namespace Drawdown

/-- A running drawdown knows the last top of a curve, and the worst declines up to its last point, which
is not after `now`. -/
structure Follows (d : Drawdown α) (fixedBase : Option α) (points : List (CurvePoint α))
    (now : Int) : Prop where
  top : ∃ top below, LastTop points top below ∧ d.peak = top.balance ∧ d.since = top.time ∧
    d.isOpen = !below.isEmpty
  peak_pos : 0 < value d.peak
  base_pos : ∀ base ∈ fixedBase, 0 < value base
  depth : IsGreatest (measured (· - ·) points) (value d.depth)
  percent : IsGreatest (measured (percentBelow (fixedBase.map value)) points) (value d.percent)
  length : ∃ last ≤ now, IsGreatest (insert 0 (stretches points last)) d.length

variable {d : Drawdown α} {fixedBase : Option α} {points : List (CurvePoint α)} {now : Int}

theorem Follows.mono (h : d.Follows fixedBase points now) {now' : Int} (later : now ≤ now') :
    d.Follows fixedBase points now' := by
  obtain ⟨last, before, greatest⟩ := h.length
  exact ⟨h.top, h.peak_pos, h.base_pos, h.depth, h.percent, last, before.trans later, greatest⟩

theorem follows_first {balance : α} (positive : 0 < value balance) (time : Int)
    (base_pos : ∀ base ∈ fixedBase, 0 < value base) :
    Follows ⟨balance, time, false, 0, 0, 0⟩ fixedBase [⟨time, balance⟩] time := by
  have top : LastTop [⟨time, balance⟩] (⟨time, balance⟩ : CurvePoint α) [] := lastTop_singleton _
  have nothing {measure : ℝ → ℝ → ℝ} (level : ∀ x, measure x x = 0) :
      IsGreatest (measured measure [⟨time, balance⟩]) (value (0 : α)) := by
    rw [measured_singleton, level, Exact.value_zero]
    exact isGreatest_singleton
  refine ⟨⟨_, [], top, rfl, rfl, rfl⟩, positive, base_pos, nothing sub_self,
    nothing (percentBelow_self _), time, le_rfl, ?_⟩
  rw [top.stretches_eq, recoveries_singleton]
  simp

theorem value_percent (positive : 0 < value (fixedBase.getD d.peak)) (balance : α) :
    value (if fixedBase.getD d.peak > 0 then
      Arith.smaller ((d.peak - balance) / fixedBase.getD d.peak * 100.0) 100.0 else 100.0) =
    percentBelow (fixedBase.map value) (value d.peak) (value balance) := by
  have hundred : value (100.0 : α) = 100 := by
    rw [Exact.value_ofScientific]
    norm_num
  have above : fixedBase.getD d.peak > 0 := by
    rw [gt_iff_lt, Exact.lt_iff, Exact.value_zero]
    exact positive
  have base : value (fixedBase.getD d.peak) = (fixedBase.map value).getD (value d.peak) := by
    cases fixedBase <;> rfl
  unfold percentBelow
  rw [if_pos above, Arith.value_smaller, Exact.value_mul, Exact.value_div, Exact.value_sub, hundred,
    base, min_comm]
  congr 1
  ring

theorem worst_snoc {measure : ℝ → ℝ → ℝ} {p : CurvePoint α} {peak : ℝ} {worst current : α}
    (h : IsGreatest (measured measure points) (value worst)) (stays : IsPeak (points ++ [p]) peak)
    (now : value current = measure peak (value p.balance)) :
    IsGreatest (measured measure (points ++ [p])) (value (Arith.larger worst current)) := by
  rw [measured_snoc measure stays, Arith.value_larger, max_comm, now]
  exact h.insert _

namespace Follows

theorem dip (h : d.Follows fixedBase points now) {time : Int} (later : now ≤ time) {balance : α}
    (lower : balance < d.peak) :
    (d.note fixedBase time balance).Follows fixedBase (points ++ [⟨time, balance⟩]) time := by
  obtain ⟨top, below, lastTop, peak, since, -⟩ := h.top
  obtain ⟨last, before, greatest⟩ := h.length
  have below_top : value balance < value top.balance := peak ▸ (Exact.lt_iff _ _).mp lower
  have stays := lastTop.snoc_lt (p := ⟨time, balance⟩) below_top
  have highest : IsPeak (points ++ [⟨time, balance⟩]) (value d.peak) := peak ▸ stays.isPeak
  have base_pos : 0 < value (fixedBase.getD d.peak) := by
    cases fixedBase with
    | none => exact h.peak_pos
    | some base => exact h.base_pos base rfl
  unfold note
  rw [if_pos lower]
  refine ⟨⟨top, _, stays, peak, since, by simp⟩, h.peak_pos, h.base_pos,
    worst_snoc h.depth highest (Exact.value_sub _ _),
    worst_snoc h.percent highest (value_percent base_pos balance), time, le_rfl, ?_⟩
  rw [lastTop.stretches_snoc (p := ⟨time, balance⟩) (.inl below_top)]
  exact since ▸ lastTop.isGreatest_extend (before.trans later) greatest

theorem reach (h : d.Follows fixedBase points now) {time : Int} (later : now ≤ time) {balance : α}
    (reached : ¬balance < d.peak) :
    (d.note fixedBase time balance).Follows fixedBase (points ++ [⟨time, balance⟩]) time := by
  obtain ⟨top, below, lastTop, peak, since, isOpen⟩ := h.top
  obtain ⟨last, before, greatest⟩ := h.length
  have at_top : value top.balance ≤ value balance :=
    peak ▸ not_lt.mp (mt (Exact.lt_iff _ _).mpr reached)
  have next := lastTop.snoc_ge (p := ⟨time, balance⟩) at_top
  have positive : 0 < value balance := h.peak_pos.trans_le (peak ▸ at_top)
  unfold note
  rw [if_neg reached]
  refine ⟨⟨_, [], next, rfl, rfl, rfl⟩, positive, h.base_pos, ?_, ?_, time, le_rfl, ?_⟩
  · rw [lastTop.measured_snoc_ge (p := ⟨time, balance⟩) at_top sub_self]
    exact h.depth
  · rw [lastTop.measured_snoc_ge (p := ⟨time, balance⟩) at_top (percentBelow_self _)]
    exact h.percent
  · cases below with
    | nil =>
      rw [lastTop.stretches_snoc_nil (p := ⟨time, balance⟩) at_top last, isOpen]
      exact greatest
    | cons first rest =>
      rw [lastTop.stretches_snoc (p := ⟨time, balance⟩) (.inr (List.cons_ne_nil first rest)), isOpen]
      exact since ▸ lastTop.isGreatest_extend (before.trans later) greatest

theorem note (h : d.Follows fixedBase points now) {time : Int} (later : now ≤ time) (balance : α) :
    (d.note fixedBase time balance).Follows fixedBase (points ++ [⟨time, balance⟩]) time := by
  by_cases lower : balance < d.peak
  · exact h.dip later lower
  · exact h.reach later lower

theorem longest (h : d.Follows fixedBase points now) {p : CurvePoint α}
    (last : points.getLast? = some p) :
    IsGreatest (insert 0 (stretches points now)) (d.longest p.balance now) := by
  obtain ⟨top, below, lastTop, peak, since, -⟩ := h.top
  obtain ⟨stop, before, greatest⟩ := h.length
  have open_iff : p.balance < d.peak ↔ below ≠ [] := by
    rw [Exact.lt_iff, peak]
    exact lastTop.last_lt_iff last
  unfold Drawdown.longest
  by_cases level : below = []
  · rw [if_neg (mt open_iff.mp (not_not.mpr level))]
    rw [lastTop.stretches_eq] at greatest ⊢
    simpa [level] using greatest
  · rw [if_pos (open_iff.mpr level), since, lastTop.stretches_eq]
    simpa [level] using lastTop.isGreatest_extend before greatest

end Follows
end Drawdown

namespace Statistics

/-- Statistics follow a curve, up to an entry made at `now`. -/
structure Tracks (s : Statistics α) (fixedBase : Option α) (points : List (CurvePoint α))
    (now : Int) : Prop where
  begun : s.startTime ≠ none
  base : (if s.options.disableCompounding then some s.initialBalance else none) = fixedBase
  drawdown : s.drawdown.Follows fixedBase points now
  balance : points.getLast?.map (·.balance) = some s.balance
  reached : now ≤ s.endTime

namespace Tracks

variable {s : Statistics α} {fixedBase : Option α} {points : List (CurvePoint α)} {now : Int}

theorem noteTime (h : s.Tracks fixedBase points now) {time : Int} (later : now ≤ time) :
    (s.noteTime time).Tracks fixedBase points time := by
  rw [noteTime_startTime_of_some h.begun]
  exact ⟨h.begun, h.base, h.drawdown.mono later, h.balance, le_max_right _ _⟩

theorem addClose (h : s.Tracks fixedBase points now) {time : Int} (later : now ≤ time)
    (profit gross : α) :
    (s.addClose time profit gross).Tracks fixedBase (points ++ [⟨time, s.balance + profit⟩]) time := by
  have noted := noteTime_startTime_of_some h.begun time
  unfold Statistics.addClose
  rw [noted]
  dsimp only
  rw [h.base]
  exact ⟨h.begun, h.base, h.drawdown.note later _, by simp, le_max_right _ _⟩

theorem enter (h : s.Tracks fixedBase points now) {e : Entry α} (later : now ≤ e.moment) :
    (s.enter e).Tracks fixedBase (points ++ runningPoints s.balance (closesAmong [e])) e.moment := by
  cases e with
  | time t =>
    have same : points ++ runningPoints s.balance (closesAmong [.time t]) = points :=
      List.append_nil points
    rw [same]
    exact h.noteTime later
  | close t profit gross => exact h.addClose later profit gross

theorem enterAll (h : s.Tracks fixedBase points now) {entries : List (Entry α)}
    (ordered : (now :: moments entries).Pairwise (· ≤ ·)) :
    (s.enterAll entries).Tracks fixedBase
      (points ++ runningPoints s.balance (closesAmong entries)) (s.enterAll entries).endTime := by
  induction entries generalizing s points now with
  | nil =>
    have same : points ++ runningPoints s.balance (closesAmong []) = points :=
      List.append_nil points
    rw [same]
    exact ⟨h.begun, h.base, h.drawdown.mono h.reached, h.balance, le_rfl⟩
  | cons e rest ih =>
    obtain ⟨later, ordered⟩ := List.pairwise_cons.mp ordered
    have carried := ih (h.enter (later e.moment List.mem_cons_self)) ordered
    rw [List.append_assoc, enter_balance] at carried
    cases e <;> exact carried

end Tracks

theorem start_tracks {balance : α} (positive : 0 < balance) (options : StatisticsOptions)
    (time : Int) :
    ((start balance options).noteTime time).Tracks
      (if options.disableCompounding then some balance else none) [⟨time, balance⟩] time := by
  have above : 0 < value balance := by
    rw [← Exact.value_zero (α := α)]
    exact (Exact.lt_iff 0 balance).mp positive
  refine ⟨noteTime_startTime _ time, rfl, Drawdown.follows_first above time ?_, rfl, le_max_right _ _⟩
  intro base mem
  split at mem
  · cases mem
    exact above
  · cases mem

/-- After any entries the drawdown is the one of the curve of their closes. -/
theorem enterAll_follows {balance : α} (positive : 0 < balance) (options : StatisticsOptions)
    {entries : List (Entry α)} (ordered : (moments entries).Pairwise (· ≤ ·)) :
    let s := (start balance options).enterAll entries
    let points := ⟨firstMoment entries, balance⟩ :: runningPoints balance (closesAmong entries)
    s.drawdown.Follows (if options.disableCompounding then some balance else none) points s.endTime ∧
      points.getLast?.map (·.balance) = some s.balance := by
  intro s points
  cases entries with
  | nil =>
    have fresh := start_tracks positive options 0
    exact ⟨fresh.drawdown, fresh.balance⟩
  | cons first rest =>
    have later : (first.moment :: moments (first :: rest)).Pairwise (· ≤ ·) :=
      List.pairwise_cons.mpr ⟨fun t ht => first_le ordered ht, ordered⟩
    have tracked := (start_tracks positive options first.moment).enterAll later
    have same : ((start balance options).noteTime first.moment).enterAll (first :: rest) = s :=
      congrArg (·.enterAll rest) (noteTime_enter _ first)
    rw [same] at tracked
    exact ⟨tracked.drawdown, tracked.balance⟩

/-- The drawdown figures are what they stand for. With `points` the balance at the start and after each
close: the deepest decline from a peak, in money and in percent, and the longest stretch from the last
point at a peak to the close that reaches it again, or to the end, and zero without one. The end is the
latest time entered as soon as one is not before 1970, and 1970 if all are. The longest stretch is within
the time from the first entry to the end, and so within 64 bits if that is. -/
theorem enterAll_drawdown {balance : α} (positive : 0 < balance) (options : StatisticsOptions)
    {entries : List (Entry α)} (ordered : (moments entries).Pairwise (· ≤ ·)) (symbol : String)
    (counters : TradeCounts) (meanHolding : α) (barsProcessed : Nat) :
    let s := (start balance options).enterAll entries
    let figures := s.result symbol counters meanHolding barsProcessed
    let points := ⟨firstMoment entries, balance⟩ :: runningPoints balance (closesAmong entries)
    let base := if options.disableCompounding then some (value balance) else none
    IsGreatest (measured (fun peak b => peak - b) points) (value figures.drawdownDepth) ∧
    IsGreatest (measured (percentBelow base) points) (value figures.drawdownPercent) ∧
    IsGreatest (insert 0 (stretches points s.endTime)) figures.drawdownLength ∧
    (IsGreatest {t | t = 0 ∨ t ∈ moments entries} s.endTime ∧
      ((∃ t ∈ moments entries, 0 ≤ t) → IsGreatest {t | t ∈ moments entries} s.endTime)) ∧
    (0 ≤ figures.drawdownLength ∧ figures.drawdownLength ≤ s.endTime - firstMoment entries) ∧
    (s.endTime - firstMoment entries ≤ Arith.maxInt64 ↔
      ∀ t, t = 0 ∨ t ∈ moments entries → t - firstMoment entries ≤ Arith.maxInt64) := by
  intro s figures points base
  obtain ⟨follows, last⟩ := enterAll_follows positive options ordered
  obtain ⟨p, last, balance_eq⟩ := Option.map_eq_some_iff.mp last
  have same_base : (if options.disableCompounding then some balance else none).map value = base := by
    unfold base
    cases options.disableCompounding <;> rfl
  have latest := start_endTime entries balance options
  have length : IsGreatest (insert 0 (stretches points s.endTime)) figures.drawdownLength := by
    change IsGreatest _ (s.drawdown.longest s.balance s.endTime)
    rw [← balance_eq]
    exact follows.longest last
  obtain ⟨forward, fits⟩ := start_elapsed entries balance options
  refine ⟨follows.depth, same_base ▸ follows.percent, length, ⟨latest, isGreatest_of_late latest⟩,
    ⟨length.2 (.inl rfl), ?_⟩, fits⟩
  rcases length.1 with none | stretch
  · exact none.trans_le forward
  · exact le_of_mem_stretches (points_within entries ordered balance options) stretch

def twoLosses : List (Entry ℚ) :=
  [.time 0, .close 100 (-50) (-50), .close 200 50 50, .close 300 (-100) (-100), .time 450]

theorem twoLosses_drawdown :
    (0 : ℚ) < 1000 ∧ (moments twoLosses).Pairwise (· ≤ ·) ∧ (∃ t ∈ moments twoLosses, 0 ≤ t) ∧
      let points : List (CurvePoint ℚ) := [⟨0, 1000⟩, ⟨100, 950⟩, ⟨200, 1000⟩, ⟨300, 900⟩]
      IsGreatest (measured (fun peak b => peak - b) points) (value (100 : ℚ)) ∧
        IsGreatest (measured (percentBelow none) points) (value (10 : ℚ)) ∧
        IsGreatest (insert 0 (stretches points 450)) 250 ∧
        IsGreatest {t | t ∈ moments twoLosses} 450 := by
  have positive : (0 : ℚ) < 1000 := by decide
  have ordered : (moments twoLosses).Pairwise (· ≤ ·) := by decide
  have late : ∃ t ∈ moments twoLosses, 0 ≤ t := ⟨450, by decide, by decide⟩
  have points : (⟨firstMoment twoLosses, 1000⟩ : CurvePoint ℚ) ::
      runningPoints 1000 (closesAmong twoLosses) =
        [⟨0, 1000⟩, ⟨100, 950⟩, ⟨200, 1000⟩, ⟨300, 900⟩] := by
    simp only [twoLosses, closesAmong, List.filterMap_cons, Entry.close?, List.filterMap_nil,
      runningPoints]
    norm_num [firstMoment, moments, Entry.moment]
  have drawn : let figures := ((start 1000 .standard).enterAll twoLosses).result "EURUSD" .zero 0 0
      figures.drawdownDepth = 100 ∧ figures.drawdownPercent = 10 ∧ figures.drawdownLength = 250 := by
    decide +kernel
  obtain ⟨depth, percent, length, ⟨-, latest⟩, -⟩ :=
    enterAll_drawdown positive .standard ordered "EURUSD" .zero 0 0
  rw [points] at depth percent length
  rw [drawn.1] at depth
  rw [drawn.2.1] at percent
  rw [drawn.2.2] at length
  exact ⟨positive, ordered, late, depth, percent, length, latest late⟩

/-- The whole run lasts a hundred seconds. The reported length is counted up to 1970. -/
theorem earlyLoss_drawdown :
    let entries := earlyLoss ℚ
    let points := ⟨firstMoment entries, 10000⟩ :: runningPoints 10000 (closesAmong entries)
    IsGreatest {t | t ∈ moments entries} (-900) ∧ IsGreatest (insert 0 (stretches points (-900))) 100 ∧
      (((start 10000 .standard).enterAll entries).result "EURUSD" .zero 0 0).drawdownLength = 1000 := by
  intro entries points
  have le : ∀ t ∈ moments entries, t ≤ -900 := by decide
  refine ⟨⟨by decide, fun t ht => le t ht⟩, ?_, by decide +kernel⟩
  have first : Drawdown.Follows ⟨10000, -1000, false, 0, 0, 0⟩ none [⟨-1000, (10000 : ℚ)⟩] (-1000) :=
    Drawdown.follows_first (by simp [value]) (-1000) (by simp)
  have lost := first.note (by decide : (-1000 : Int) ≤ -900) (10000 + -100.0)
  have longest : (Drawdown.note ⟨10000, -1000, false, 0, 0, 0⟩ none (-900)
      (10000 + -100.0 : ℚ)).longest (10000 + -100.0) (-900) = 100 := by decide +kernel
  rw [← longest]
  exact lost.longest (p := ⟨-900, 10000 + -100.0⟩) rfl

end Statistics
end Backtest
