import Backtest.Proofs.History.Coarse
import Backtest.Proofs.Market.SameUntil

namespace Backtest

namespace Series

variable {α : Type}

/-- Whether a time is before `t`. -/
def before (t time : Int) : Bool := time < t

theorem before_iff {t time : Int} : before t time = true ↔ time < t := by simp [before]

theorem before_down (t : Int) : Downward (before t) := by
  intro a b hab hb
  rw [before_iff] at hb ⊢
  omega

theorem front_before_length {s : Series α} (h : s.Increasing) {i : Nat} {t : Int}
    (hi : s.timeAt? i = some t) : (s.front (before t)).length = i := by
  obtain ⟨b, hb, rfl⟩ := Option.map_eq_some_iff.mp hi
  have hlt : i < s.size := (Array.getElem?_eq_some_iff.mp hb).1
  refine Nat.le_antisymm ?_ ?_
  · by_contra hlong
    have hfront := early_of_mem_front (List.getElem_mem (by omega : i < (s.front (before b.time)).length))
    have hb' := bar?_of_lt_front (by omega : i < (s.front (before b.time)).length)
    rw [List.getElem?_eq_getElem (by omega)] at hb'
    rw [← Option.some.inj (hb.symm.trans hb'), before_iff] at hfront
    omega
  · by_contra hshort
    have hlt' : (s.front (before b.time)).length < s.size := by omega
    have hlate := late_after_front (Array.getElem?_eq_getElem hlt')
    have hbefore := h.time_lt (Array.getElem?_eq_getElem hlt') hb (by omega)
    rw [before_iff.mpr hbefore] at hlate
    cases hlate

end Series

namespace BarBuffer

variable {α : Type}

/-- A window that holds one bar more than is needed, counted in base bars of which no more than `n` make
up a bar. On the base timeframe any window will do. -/
def Reaches (i : BufferInfo α) : Prop :=
  i.required = i.actual ∨ ∃ n, i.required ≤ n * i.actual ∧ (i.bars + 1) * n ≤ i.capacity

theorem isWarm_iff {b : BarBuffer α} :
    b.isWarm = true ↔ b.info.bars ≤ b.closed - b.windowStart := by
  unfold isWarm
  exact decide_eq_true_iff

@[simp] theorem advance_basePeriod (b : BarBuffer α) (time : Int) :
    (b.advance time).basePeriod = b.basePeriod := by
  unfold basePeriod
  rw [advance_info]

/-- A buffer that has moved on to a time. -/
structure StandsAt (t : Int) (b : BarBuffer α) : Prop where
  baseClosed : b.baseClosed = (b.base.front (Series.closedBy b.basePeriod t)).length
  closed : b.closed = (b.series.front (Series.closedBy b.period t)).length
  windowStart : b.windowStart =
    b.windowOpening?.elim 0 fun opening => b.series.boundary (Series.before opening) 0 b.closed

theorem closedBy_mono {period s t time : Int} (hst : s ≤ t)
    (h : Series.closedBy period s time = true) : Series.closedBy period t time = true := by
  rw [Series.closedBy_iff] at h ⊢
  omega

theorem advance_standsAt {b : BarBuffer α} {t : Int}
    (base : b.baseClosed ≤ (b.base.front (Series.closedBy b.basePeriod t)).length)
    (own : b.closed ≤ (b.series.front (Series.closedBy b.period t)).length) :
    (b.advance t).StandsAt t where
  baseClosed := by
    rw [advance_baseClosed, advance_base, advance_basePeriod, Series.skipWhile_eq_front base]
  closed := by rw [advance_closed, advance_series, advance_period, Series.skipWhile_eq_front own]
  windowStart := by
    rw [advance_windowStart, advance_series]
    rfl

theorem StandsAt.advance {b : BarBuffer α} {s t : Int} (h : b.StandsAt s) (hst : s ≤ t) :
    (b.advance t).StandsAt t := by
  refine advance_standsAt ?_ ?_
  · rw [h.baseClosed]
    exact Series.front_length_mono fun _ => closedBy_mono hst
  · rw [h.closed]
    exact Series.front_length_mono fun _ => closedBy_mono hst

variable [Arith α]

/-- A buffer over a history with the given times, which it shows on its own timeframe. -/
structure Furnished (times : List Int) (b : BarBuffer α) : Prop where
  positive : 0 < b.info.actual
  increasing : b.base.Increasing
  shared : b.base.toList.map Bar.time = times
  spaced : Spaced b.basePeriod times
  series : (b.info.required = b.info.actual ∧ b.series = b.base) ∨
    (b.info.required ≠ b.info.actual ∧
      b.base.resample b.info.actual b.info.required = .ok b.series)

namespace Furnished

open Series

variable {times : List Int} {b : BarBuffer α}

theorem advance (h : b.Furnished times) (t : Int) : (b.advance t).Furnished times where
  positive := by rw [advance_info]; exact h.positive
  increasing := by rw [advance_base]; exact h.increasing
  shared := by rw [advance_base]; exact h.shared
  spaced := by rw [advance_basePeriod]; exact h.spaced
  series := by rw [advance_info, advance_series, advance_base]; exact h.series

theorem basePeriod_pos (h : b.Furnished times) : 0 < b.basePeriod := by
  have := h.positive
  unfold basePeriod
  omega

theorem series_increasing (h : b.Furnished times) : b.series.Increasing := by
  rcases h.series with ⟨-, hs⟩ | ⟨hne, hs⟩
  · rw [hs]
    exact h.increasing
  · exact (Series.resample_times hne hs h.increasing).2.1

/-- The bars ahead of the window are those that open before it. -/
theorem windowStart_eq (h : b.Furnished times) {t : Int} (stands : b.StandsAt t) :
    (b.windowOpening? = none ∧ b.windowStart = 0) ∨
      ∃ opening, b.windowOpening? = some opening ∧
        b.windowStart = min (b.series.front (Series.before opening)).length b.closed := by
  rw [stands.windowStart]
  cases ho : b.windowOpening? with
  | none => exact .inl ⟨rfl, rfl⟩
  | some opening =>
    have hsize : b.closed ≤ b.series.size := by
      rw [stands.closed]
      exact Series.front_length_le _ _
    exact .inr ⟨opening, rfl, Series.boundary_eq_min h.series_increasing (Series.before_down opening)
      (Nat.zero_le _) (Nat.zero_le _) hsize⟩

theorem coarser (h : b.Furnished times) (hne : b.info.required ≠ b.info.actual) :
    b.info.actual < b.info.required ∧ b.base.resample b.info.actual b.info.required = .ok b.series := by
  have hseries := (h.series.resolve_left fun hs => hne hs.1).2
  exact ⟨(resample_times hne hseries h.increasing).1, hseries⟩

theorem period_pos (h : b.Furnished times) (hne : b.info.required ≠ b.info.actual) :
    0 < b.period := by
  have hlt := (h.coarser hne).1
  unfold BarBuffer.period
  omega

theorem closed_time (h : b.Furnished times) {t : Int} (stands : b.StandsAt t) {j : Nat}
    (hj : j < b.baseClosed) : ∃ time, times[j]? = some time ∧ time + b.basePeriod ≤ t := by
  rw [stands.baseClosed] at hj
  have hfront := early_of_mem_front (List.getElem_mem hj)
  have hb := bar?_of_lt_front hj
  rw [List.getElem?_eq_getElem hj] at hb
  refine ⟨_, ?_, closedBy_iff.mp hfront⟩
  rw [← h.shared, getElem?_times, timeAt?_eq, hb]
  rfl

omit [Arith α] in
theorem period_le {n : Nat} (fits : b.info.required ≤ n * b.info.actual) :
    b.period ≤ n * b.basePeriod := by
  unfold BarBuffer.period BarBuffer.basePeriod
  rw [← Int.natCast_mul, ← Nat.mul_assoc]
  exact Int.ofNat_le.mpr (Nat.mul_le_mul_right 60 fits)

/-- `n` base bars later another coarse bar has begun. -/
theorem next_coarse (h : b.Furnished times) (hne : b.info.required ≠ b.info.actual) {n : Nat}
    (fits : b.info.required ≤ n * b.info.actual) {j : Nat} {early late : Int}
    (hearly : times[j]? = some early) (hlate : times[j + n]? = some late) :
    early < spanStart b.period late ∧
      (b.series.front (upTo (spanStart b.period early))).length <
        (b.series.front (upTo (spanStart b.period late))).length ∧
      (b.series.front (before early)).length <
        (b.series.front (upTo (spanStart b.period late))).length := by
  obtain ⟨-, increasing, starts⟩ := resample_times hne (h.coarser hne).2 h.increasing
  have hp := h.period_pos hne
  have hgap := period_le fits
  have happart := h.spaced.add_mul_le hearly hlate
  have hnext : spanStart b.period early + b.period ≤ spanStart b.period late :=
    next_span_le hp (by omega)
  have hwithin := lt_spanStart_add b.period early hp
  have hmem : spanStart b.period late ∈ b.series.toList.map Bar.time := by
    have hm := List.mem_of_getElem? hlate
    rw [← h.shared] at hm
    obtain ⟨a, ha, htime⟩ := List.mem_map.mp hm
    exact (starts _).mpr (List.mem_map.mpr ⟨a, ha, congrArg (spanStart b.period) htime⟩)
  have hlast : upTo (spanStart b.period late) (spanStart b.period late) = true :=
    upTo_iff.mpr (Int.le_refl _)
  refine ⟨by omega, front_lt_front increasing (upTo_down _) hmem ?_ hlast,
    front_lt_front increasing (upTo_down _) hmem ?_ hlast⟩
  · exact Bool.eq_false_iff.mpr fun hup => by rw [upTo_iff] at hup; omega
  · exact Bool.eq_false_iff.mpr fun hbefore => by rw [before_iff] at hbefore; omega

/-- Every `n` base bars behind a given one there is one coarse bar more. -/
theorem coarse_rank (h : b.Furnished times) (hne : b.info.required ≠ b.info.actual) {n : Nat}
    (fits : b.info.required ≤ n * b.info.actual) {first : Nat} {opening : Int}
    (hfirst : times[first]? = some opening) {k : Nat} {time : Int}
    (ht : times[first + (k + 1) * n]? = some time) :
    (b.series.front (before opening)).length + (k + 1) ≤
      (b.series.front (upTo (spanStart b.period time))).length := by
  induction k generalizing time with
  | zero =>
    rw [Nat.zero_add, Nat.one_mul] at ht
    exact (h.next_coarse hne fits hfirst ht).2.2
  | succ k ih =>
    rw [Nat.succ_mul (k + 1), ← Nat.add_assoc] at ht
    have hlt : first + (k + 1) * n < times.length := by
      have := (List.getElem?_eq_some_iff.mp ht).1
      omega
    have hbefore := ih (List.getElem?_eq_getElem hlt)
    have hnext := (h.next_coarse hne fits (List.getElem?_eq_getElem hlt) ht).2.1
    omega

/-- A window that is full and has room for one coarse bar more than is needed holds those needed. -/
theorem isWarm_of_full (h : b.Furnished times) {t : Int} (stands : b.StandsAt t)
    (hne : b.info.required ≠ b.info.actual) {n : Nat} (fits : b.info.required ≤ n * b.info.actual)
    (room : (b.info.bars + 1) * n ≤ b.info.capacity) (full : b.info.capacity < b.baseClosed) :
    b.isWarm = true := by
  rw [isWarm_iff]
  cases hbars : b.info.bars with
  | zero => exact Nat.zero_le _
  | succ k =>
    rw [hbars, Nat.succ_mul] at room
    let first := b.baseClosed - b.info.capacity
    have hn : 0 < n := by
      have hlt := (h.coarser hne).1
      by_contra hzero
      obtain rfl : n = 0 := by omega
      omega
    obtain ⟨opening, hfirst, -⟩ := h.closed_time stands (by omega : first < b.baseClosed)
    obtain ⟨time, htime, -⟩ := h.closed_time stands
      (by omega : first + (k + 1) * n < b.baseClosed)
    obtain ⟨last, hlast, hclosed⟩ := h.closed_time stands
      (by omega : first + (k + 1) * n + (n - 1) < b.baseClosed)
    have hrank := h.coarse_rank hne fits hfirst htime
    -- the last coarse bar counted has ended with the base bars of its span
    have hend : spanStart b.period time + b.period ≤ t := by
      have hgap := period_le fits
      have happart := h.spaced.add_mul_le htime hlast
      have hstart := spanStart_le b.period time (h.period_pos hne)
      have hmul : (n : Int) * b.basePeriod = (n - 1 : Nat) * b.basePeriod + b.basePeriod := by
        conv_lhs => rw [← Nat.sub_add_cancel hn, Int.natCast_add, Int.add_mul, Int.natCast_one,
          Int.one_mul]
      omega
    have hshown : (b.series.front (upTo (spanStart b.period time))).length ≤ b.closed := by
      rw [stands.closed]
      refine front_length_mono fun x hx => ?_
      rw [upTo_iff] at hx
      rw [closedBy_iff]
      omega
    have hopening : b.windowOpening? = some opening := by
      unfold BarBuffer.windowOpening?
      rw [if_neg (by omega), ← getElem?_times, h.shared]
      exact hfirst
    rcases h.windowStart_eq stands with ⟨hnone, -⟩ | ⟨opening', hsome, hstart⟩
    · rw [hopening] at hnone
      cases hnone
    · rw [hopening] at hsome
      cases hsome
      omega

/-- On the base timeframe the window begins as many bars back as it is long. -/
theorem windowStart_of_base (h : b.Furnished times) {t : Int} (stands : b.StandsAt t)
    (heq : b.info.required = b.info.actual) :
    b.closed = b.baseClosed ∧ b.windowStart =
      if b.baseClosed - b.info.capacity < b.base.size then b.baseClosed - b.info.capacity else 0 := by
  have hseries : b.series = b.base := by
    rcases h.series with ⟨-, hs⟩ | ⟨hne, -⟩
    · exact hs
    · exact absurd heq hne
  have hclosed : b.closed = b.baseClosed := by
    rw [stands.closed, stands.baseClosed, hseries]
    unfold BarBuffer.period BarBuffer.basePeriod
    rw [heq]
  refine ⟨hclosed, ?_⟩
  rcases h.windowStart_eq stands with ⟨hnone, hstart⟩ | ⟨opening, hsome, hstart⟩
  · rw [hstart]
    unfold windowOpening? at hnone
    split at hnone
    next hzero => simp [hzero]
    next =>
      rw [timeAt?_eq, Option.map_eq_none_iff] at hnone
      have hsize := Array.getElem?_eq_none_iff.mp hnone
      rw [if_neg (by omega)]
  · unfold windowOpening? at hsome
    split at hsome
    next => cases hsome
    next =>
      have hfront := front_before_length h.increasing hsome
      have hsize : b.baseClosed - b.info.capacity < b.base.size := by
        obtain ⟨a, ha, -⟩ := Option.map_eq_some_iff.mp hsome
        exact (Array.getElem?_eq_some_iff.mp ha).1
      rw [if_pos hsize, hstart, hseries, hfront, hclosed]
      omega

omit [Arith α] in
/-- As long as the window of a buffer is not full, it begins with the first base bar. -/
theorem windowOpening?_of_short (short : b.baseClosed ≤ b.info.capacity) (begun : b.baseClosed ≠ 0) :
    b.windowOpening? = b.base.timeAt? 0 := by
  unfold windowOpening?
  rw [if_neg begun, Nat.sub_eq_zero_of_le short]

/-- A warm buffer whose window reaches far enough stays warm. -/
theorem isWarm_advance (h : b.Furnished times) (reaches : Reaches b.info) {s t : Int}
    (stands : b.StandsAt s) (hs : s ∈ times) (hst : s ≤ t) (warm : b.isWarm = true) :
    (b.advance t).isWarm = true := by
  have h' := h.advance t
  have stands' := stands.advance hst
  have hbase : b.baseClosed ≤ (b.advance t).baseClosed := by
    rw [stands.baseClosed, stands'.baseClosed, advance_base, advance_basePeriod]
    exact front_length_mono fun _ => closedBy_mono hst
  have hown : b.closed ≤ (b.advance t).closed := by
    rw [stands.closed, stands'.closed, advance_series, advance_period]
    exact front_length_mono fun _ => closedBy_mono hst
  have hsize : (b.advance t).baseClosed ≤ b.base.size := by
    rw [stands'.baseClosed, advance_base]
    exact front_length_le _ _
  rw [isWarm_iff] at warm ⊢
  rw [advance_info]
  by_cases heq : b.info.required = b.info.actual
  · obtain ⟨hclosed, hstart⟩ := h.windowStart_of_base stands heq
    obtain ⟨hclosed', hstart'⟩ := h'.windowStart_of_base stands' (by rwa [advance_info])
    rw [advance_info, advance_base] at hstart'
    rw [hclosed, hstart] at warm
    rw [hclosed', hstart']
    split at warm <;> split <;> omega
  · obtain ⟨n, fits, room⟩ := reaches.resolve_left heq
    by_cases full : b.info.capacity < (b.advance t).baseClosed
    · have hwarm := h'.isWarm_of_full stands' (by rwa [advance_info]) (n := n) (by rwa [advance_info])
        (by rwa [advance_info]) (by rwa [advance_info])
      rw [isWarm_iff, advance_info] at hwarm
      exact hwarm
    by_cases begun : b.baseClosed = 0
    · -- a coarse bar that has closed by the opening of a base bar has base bars that have closed
      have hnone : b.base.front (closedBy b.basePeriod s) = [] :=
        List.length_eq_zero_iff.mp (stands.baseClosed ▸ begun)
      have hempty : b.series.front (closedBy b.period s) = [] :=
        resample_front_empty h.positive heq (h.coarser heq).2 h.increasing (h.shared ▸ h.spaced)
          (h.shared ▸ hs) hnone
      rw [stands.closed, hempty, List.length_nil, Nat.zero_sub] at warm
      omega
    · have hopening : b.windowOpening? = b.base.timeAt? 0 :=
        windowOpening?_of_short (by omega) begun
      have hopening' : (b.advance t).windowOpening? = b.base.timeAt? 0 := by
        rw [windowOpening?_of_short (by rw [advance_info]; omega) (by omega), advance_base]
      rcases h.windowStart_eq stands with ⟨hnone, hstart⟩ | ⟨opening, hsome, hstart⟩
      · rcases h'.windowStart_eq stands' with ⟨-, hstart'⟩ | ⟨opening', hsome', -⟩
        · omega
        · rw [hopening', ← hopening, hnone] at hsome'
          cases hsome'
      · rcases h'.windowStart_eq stands' with ⟨hnone', -⟩ | ⟨opening', hsome', hstart'⟩
        · rw [hopening', ← hopening, hsome] at hnone'
          cases hnone'
        · rw [hopening', ← hopening, hsome] at hsome'
          cases hsome'
          rw [advance_series] at hstart'
          omega

end Furnished
end BarBuffer

theorem forall_mem_of_forall₂ {β γ : Type} {R : β → γ → Prop} {P : γ → Prop} {as : List β}
    {bs : List γ} (h : List.Forall₂ R as bs) (hp : ∀ a ∈ as, ∀ b, R a b → P b) : ∀ b ∈ bs, P b := by
  induction h with
  | nil => simp
  | cons hab _ ih =>
    intro b hb
    rcases List.mem_cons.mp hb with rfl | hb
    · exact hp _ List.mem_cons_self _ hab
    · exact ih (fun a ha => hp a (List.mem_cons_of_mem _ ha)) b hb

namespace MarketView

variable {α : Type}

/-- A view whose buffers have moved on to a time. -/
def StandsAt (t : Int) (v : MarketView α) : Prop := ∀ b ∈ v.buffers, b.StandsAt t

theorem StandsAt.advance {v : MarketView α} {s t : Int} (h : v.StandsAt s) (hst : s ≤ t) :
    (v.advance t).StandsAt t := by
  intro moved hmoved
  obtain ⟨b, hb, rfl⟩ := List.mem_map.mp hmoved
  exact (h b hb).advance hst

theorem isWarm_iff {v : MarketView α} : v.isWarm = true ↔ ∀ b ∈ v.buffers, b.isWarm = true :=
  List.all_eq_true

variable [Arith α]

/-- A view with buffers over histories of the given times, all with windows that reach far enough. -/
def Furnished (times : List Int) (v : MarketView α) : Prop :=
  ∀ b ∈ v.buffers, b.Furnished times ∧ BarBuffer.Reaches b.info

theorem Furnished.advance {times : List Int} {v : MarketView α} (h : v.Furnished times) (t : Int) :
    (v.advance t).Furnished times := by
  intro moved hmoved
  obtain ⟨b, hb, rfl⟩ := List.mem_map.mp hmoved
  rw [BarBuffer.advance_info]
  exact ⟨(h b hb).1.advance t, (h b hb).2⟩

theorem Furnished.isWarm_advance {times : List Int} {v : MarketView α} (h : v.Furnished times)
    {s t : Int} (stands : v.StandsAt s) (hs : s ∈ times) (hst : s ≤ t) (warm : v.isWarm = true) :
    (v.advance t).isWarm = true := by
  rw [isWarm_iff] at warm ⊢
  intro moved hmoved
  obtain ⟨b, hb, rfl⟩ := List.mem_map.mp hmoved
  exact (h b hb).1.isWarm_advance (h b hb).2 (stands b hb) hs hst (warm b hb)

end MarketView

namespace Market

variable {α : Type} [Arith α] {m : Market α} {symbol currency : String} {timeframe digits : Nat}
  {requirements : List Requirement} {times : List Int} {v : MarketView α}

theorem Views.furnished (h : m.Views symbol timeframe requirements digits currency v)
    (sound : m.Sound) (positive : 0 < m.baseTimeframe)
    (coherent : m.Coherent (symbolsRead symbol requirements) times)
    (reaches : ∀ b ∈ v.buffers, BarBuffer.Reaches b.info) : v.Furnished times := by
  refine fun b hb => ⟨?_, reaches b hb⟩
  revert b hb
  refine forall_mem_of_forall₂ h.buffers fun r hr b hb => ?_
  obtain ⟨base, series, hbase, hon, rfl⟩ := hb
  have hread : r.1.symbolFor symbol ∈ symbolsRead symbol requirements :=
    List.mem_cons_of_mem _ (List.mem_map.mpr ⟨r.1, List.fst_mem_of_mem_zipIdx hr, rfl⟩)
  have shared := coherent.shared _ hread
  rw [history_of_some hbase] at shared
  exact
    { positive := positive
      increasing := sound.history_increasing hbase
      shared := shared
      spaced := coherent.spaced
      series := hon }

theorem Views.standsAt (h : m.Views symbol timeframe requirements digits currency v) (t : Int) :
    (v.advance t).StandsAt t := by
  have fresh : ∀ b ∈ v.buffers, b.baseClosed = 0 ∧ b.closed = 0 := by
    refine forall_mem_of_forall₂ h.buffers fun r _ b hb => ?_
    obtain ⟨base, series, -, -, rfl⟩ := hb
    exact ⟨rfl, rfl⟩
  intro moved hmoved
  obtain ⟨b, hb, rfl⟩ := List.mem_map.mp hmoved
  obtain ⟨hbase, hown⟩ := fresh b hb
  exact BarBuffer.advance_standsAt (by omega) (by omega)

end Market
end Backtest
