import Backtest.Proofs.History.Openings
import Backtest.Proofs.Market.Reach
import Backtest.Proofs.Market.Twin

namespace Backtest

/-- The latest opening depends on the openings alone. -/
theorem ConversionHistory.openingAt?_eq {α : Type} {c : ConversionHistory α}
    (h : c.series.Increasing) {t time : Int} (hle : time ≤ t) :
    c.openingAt? time = Series.latest? (c.series.openings t) time := by
  have early : ∀ b ∈ c.series.toList, Series.upTo time b.time = true →
      Series.upTo t b.time = true := by
    intro b _ hb
    rw [Series.upTo_iff] at hb ⊢
    omega
  have hn : c.series.boundary (Series.upTo time) 0 c.series.size =
      (c.series.front (Series.upTo time)).length :=
    Series.boundary_eq_front h (Series.upTo_down time) (Nat.zero_le _) (Series.front_length_le _ _)
      (Nat.le_refl _)
  have hlatest : Series.latest? (c.series.openings t) time =
      (c.series.front (Series.upTo time)).getLast?.map Bar.openPrice := by
    unfold Series.latest? Series.openings
    rw [← Series.front_eq_filter h (Series.upTo_down t), List.takeWhile_map, List.getLast?_map,
      Option.map_map]
    exact congrArg (fun l => (List.getLast? l).map Bar.openPrice) (Series.front_of_imp _ _ early)
  rw [hlatest]
  unfold ConversionHistory.openingAt?
  change (if c.series.boundary (Series.upTo time) 0 c.series.size = 0 then none else
    (c.series.bar? (c.series.boundary (Series.upTo time) 0 c.series.size - 1)).map Bar.openPrice) = _
  rw [hn, List.getLast?_eq_getElem?]
  split
  next hzero =>
    rw [List.length_eq_zero_iff.mp hzero]
    rfl
  next hpos =>
    have hlt : (c.series.front (Series.upTo time)).length - 1 <
        (c.series.front (Series.upTo time)).length := by omega
    rw [Series.bar?_of_lt_front hlt]

theorem forall₂_of_common {β γ δ : Type} {P : β → γ → Prop} {Q : β → δ → Prop} {R : γ → δ → Prop}
    {l : List β} (h : ∀ x ∈ l, ∀ a b, P x a → Q x b → R a b) {as : List γ} {bs : List δ}
    (ha : List.Forall₂ P l as) (hb : List.Forall₂ Q l bs) : List.Forall₂ R as bs := by
  induction ha generalizing bs with
  | nil => cases hb; exact .nil
  | cons hxa _ ih =>
    cases hb with
    | cons hxb hbs =>
      exact .cons (h _ List.mem_cons_self _ _ hxa hxb)
        (ih (fun x hx => h x (List.mem_cons_of_mem _ hx)) hbs)

theorem Pair.conversions_nodup (p : Pair) (currency : String) :
    ((p.conversions currency).map (·.1)).Nodup := by
  unfold Pair.conversions
  split
  next => exact List.nodup_nil
  next =>
    simp only [List.map_cons, List.map_nil]
    decide

namespace Market

variable {α : Type}

def history (m : Market α) (symbol : String) : Series α := (m.history? symbol).getD #[]

def conversion (m : Market α) (symbol : String) : Series α := (m.converting? symbol).getD #[]

/-- Symbols whose bars an instance reads: the one it trades and those that it requires. -/
def symbolsRead (symbol : String) (requirements : List Requirement) : List String :=
  symbol :: requirements.map (·.symbolFor symbol)

/-- Symbols whose histories may convert the traded one into an account's currency. -/
def conversionSymbols (α : Type) (symbol currency : String) : List String :=
  match (conversionsOf symbol currency : Except (Fault α) _) with
  | .ok legs => legs.map (·.2)
  | .error _ => []

def basePeriod (m : Market α) : Int := (m.baseTimeframe * 60 : Nat)

/-- Symbols that share one list of times, a base period or more apart. -/
structure Coherent (m : Market α) (symbols : List String) (times : List Int) : Prop where
  shared : ∀ symbol ∈ symbols, (m.history symbol).toList.map Bar.time = times
  spaced : Spaced m.basePeriod times

/-- Agreement until the bar at `t` opens: on the bars that have closed by then, on the presence and the
opening of the traded bar at `t`, and on the openings of the conversion histories. -/
structure SameUntil (t : Int) (symbol currency : String) (requirements : List Requirement)
    (m₁ m₂ : Market α) : Prop where
  timeframe : m₁.baseTimeframe = m₂.baseTimeframe
  closed : ∀ read ∈ symbolsRead symbol requirements,
    (m₁.history read).closedBars m₁.basePeriod t = (m₂.history read).closedBars m₁.basePeriod t
  opening : (m₁.history symbol).openingsAt t = (m₂.history symbol).openingsAt t
  converting : ∀ leg ∈ conversionSymbols α symbol currency,
    (m₁.conversion leg).openings t = (m₂.conversion leg).openings t

theorem conversionSymbols_of_pair {symbol currency : String} {pair : Option Pair}
    (h : (Pair.ofSymbol symbol : Except (Fault α) _) = .ok pair) :
    conversionSymbols α symbol currency =
      (pair.elim [] (·.conversions currency)).map (·.2) := by
  unfold conversionSymbols conversionsOf
  rw [h]
  cases pair <;> rfl

theorem history_of_some {m : Market α} {symbol : String} {s : Series α}
    (h : m.history? symbol = some s) : m.history symbol = s := by
  unfold history
  rw [h]
  rfl

theorem find?_conversionHistories (m : Market α) {legs : List (ConversionRoute × String)}
    (nodup : (legs.map (·.1)).Nodup) (leg : ConversionRoute) :
    (m.conversionHistories legs).find? (·.leg = leg) =
      (legs.find? (·.1 = leg)).bind fun l => (m.converting? l.2).map fun s => ⟨l.2, l.1, s⟩ := by
  unfold conversionHistories converting?
  induction legs with
  | nil => rfl
  | cons l legs ih =>
    obtain ⟨hl, hlegs⟩ := List.nodup_cons.mp nodup
    have hrest := ih hlegs
    rw [List.filterMap_cons]
    by_cases hroute : l.1 = leg
    · have hnone : legs.find? (·.1 = leg) = none := by
        refine List.find?_eq_none.mpr fun l' hl' heq => hl ?_
        have hsame : l'.1 = l.1 := (of_decide_eq_true heq).trans hroute.symm
        exact List.mem_map.mpr ⟨l', hl', hsame⟩
      rw [hnone] at hrest
      rw [List.find?_cons_of_pos (by simpa using hroute), Option.bind_some]
      cases hs : (m.conversions.lookup l.2).or (m.history? l.2) with
      | none => simpa [hs] using hrest
      | some s => simp [hs, hroute]
    · rw [List.find?_cons_of_neg (by simpa using hroute), ← hrest]
      cases hs : (m.conversions.lookup l.2).or (m.history? l.2) with
      | none => simp [hs]
      | some s => simp [hs, hroute]

variable [Arith α]

theorem Sound.conversion_increasing {m : Market α} (h : m.Sound) {symbol : String} {s : Series α}
    (hs : m.converting? symbol = some s) : s.Increasing := by
  unfold converting? at hs
  rcases Option.or_eq_some_iff.mp hs with hl | ⟨-, hh⟩
  · exact h.conversions _ (mem_of_lookup hl)
  · exact h.history_increasing hh

/-- The rate of a leg depends on the openings of its history alone. -/
theorem Sound.rateOn?_eq {m : Market α} (h : m.Sound) {legs : List (ConversionRoute × String)}
    (nodup : (legs.map (·.1)).Nodup) {v : MarketView α}
    (hv : v.conversions = m.conversionHistories legs) (leg : ConversionRoute) {t time : Int}
    (hle : time ≤ t) :
    v.rateOn? leg time = (do
      let l ← legs.find? (·.1 = leg)
      let rate ← Series.latest? ((m.conversion l.2).openings t) time
      if rate > 0 then some rate else none) := by
  unfold MarketView.rateOn?
  rw [hv, find?_conversionHistories m nodup leg]
  cases legs.find? (·.1 = leg) with
  | none => rfl
  | some l =>
    simp only [conversion, Option.bind_some, bind]
    cases hs : m.converting? l.2 with
    | none => rfl
    | some s =>
      have hat := ConversionHistory.openingAt?_eq (c := ⟨l.2, l.1, s⟩)
        (h.conversion_increasing hs) hle
      simp only [Option.map_some, Option.bind_some, Option.getD_some, hat]

/-- Two sound markets whose histories share times that the two agree on until the bar at `t`. -/
structure Alike (t : Int) (symbol currency : String) (requirements : List Requirement)
    (times₁ times₂ : List Int) (m₁ m₂ : Market α) : Prop where
  positive : 0 < m₁.baseTimeframe
  sound₁ : m₁.Sound
  sound₂ : m₂.Sound
  coherent₁ : m₁.Coherent (symbolsRead symbol requirements) times₁
  coherent₂ : m₂.Coherent (symbolsRead symbol requirements) times₂
  bar₁ : t ∈ times₁
  same : SameUntil t symbol currency requirements m₁ m₂

namespace Alike

variable {t : Int} {symbol currency : String} {requirements : List Requirement}
  {times₁ times₂ : List Int} {m₁ m₂ : Market α}

theorem basePeriod_eq (h : Alike t symbol currency requirements times₁ times₂ m₁ m₂) :
    m₂.basePeriod = m₁.basePeriod := by
  unfold basePeriod
  rw [h.same.timeframe]

theorem basePeriod_pos (h : Alike t symbol currency requirements times₁ times₂ m₁ m₂) :
    0 < m₁.basePeriod := by
  have hb := h.positive
  unfold basePeriod
  omega

theorem bar₂ (h : Alike t symbol currency requirements times₁ times₂ m₁ m₂) : t ∈ times₂ := by
  have hopen := h.same.opening
  have hm := h.bar₁
  rw [← h.coherent₁.shared symbol List.mem_cons_self] at hm
  rw [← h.coherent₂.shared symbol List.mem_cons_self]
  exact Series.mem_times_iff.mpr (hopen ▸ Series.mem_times_iff.mp hm)

theorem histories (h : Alike t symbol currency requirements times₁ times₂ m₁ m₂) {read : String}
    (hr : read ∈ symbolsRead symbol requirements) {s₁ s₂ : Series α}
    (hs₁ : m₁.history? read = some s₁) (hs₂ : m₂.history? read = some s₂) :
    Series.Alike m₁.basePeriod t s₁ s₂ := by
  have shared₁ := h.coherent₁.shared read hr
  have shared₂ := h.coherent₂.shared read hr
  have closed := h.same.closed read hr
  rw [history_of_some hs₁] at shared₁ closed
  rw [history_of_some hs₂] at shared₂ closed
  have inc₁ := h.sound₁.history_increasing hs₁
  have inc₂ := h.sound₂.history_increasing hs₂
  exact
    { positive := h.basePeriod_pos
      increasing₁ := inc₁
      increasing₂ := inc₂
      spaced₁ := shared₁ ▸ h.coherent₁.spaced
      spaced₂ := shared₂ ▸ h.basePeriod_eq ▸ h.coherent₂.spaced
      bar₁ := shared₁ ▸ h.bar₁
      bar₂ := shared₂ ▸ h.bar₂
      closed := by
        rw [Series.front_eq_filter inc₁ (Series.closedBy_down _ t),
          Series.front_eq_filter inc₂ (Series.closedBy_down _ t)]
        exact closed }

theorem openings (h : Alike t symbol currency requirements times₁ times₂ m₁ m₂) {s₁ s₂ : Series α}
    (hs₁ : m₁.history? symbol = some s₁) (hs₂ : m₂.history? symbol = some s₂) :
    s₁.openings t = s₂.openings t := by
  have alike := h.histories List.mem_cons_self hs₁ hs₂
  have closed := h.same.closed symbol List.mem_cons_self
  have opening := h.same.opening
  rw [history_of_some hs₁, history_of_some hs₂] at closed opening
  rw [Series.openings_eq alike.increasing₁ alike.positive alike.spaced₁ alike.bar₁,
    Series.openings_eq alike.increasing₂ alike.positive alike.spaced₂ alike.bar₂, closed, opening]

theorem past (h : Alike t symbol currency requirements times₁ times₂ m₁ m₂) {s₁ s₂ : Series α}
    (hs₁ : m₁.history? symbol = some s₁) (hs₂ : m₂.history? symbol = some s₂) :
    times₁.filter (Series.upTo t) = times₂.filter (Series.upTo t) := by
  have shared₁ := h.coherent₁.shared symbol List.mem_cons_self
  have shared₂ := h.coherent₂.shared symbol List.mem_cons_self
  rw [history_of_some hs₁] at shared₁
  rw [history_of_some hs₂] at shared₂
  rw [← shared₁, ← shared₂, ← Series.openings_times, ← Series.openings_times, h.openings hs₁ hs₂]

theorem buffers (h : Alike t symbol currency requirements times₁ times₂ m₁ m₂)
    (past : times₁.filter (Series.upTo t) = times₂.filter (Series.upTo t)) {timeframe digits : Nat}
    {r : Requirement × Nat} (hr : r.1 ∈ requirements) {b₁ b₂ : BarBuffer α}
    (hb₁ : m₁.Buffers symbol timeframe digits r b₁)
    (hb₂ : m₂.Buffers symbol timeframe digits r b₂) :
    BarBuffer.Twin t (times₁.filter (Series.upTo t)) 0 b₁ b₂ := by
  obtain ⟨base₁, series₁, hbase₁, hon₁, rfl⟩ := hb₁
  obtain ⟨base₂, series₂, hbase₂, hon₂, rfl⟩ := hb₂
  have hread : r.1.symbolFor symbol ∈ symbolsRead symbol requirements :=
    List.mem_cons_of_mem _ (List.mem_map.mpr ⟨r.1, hr, rfl⟩)
  have alike := h.histories hread hbase₁ hbase₂
  have shared₁ := h.coherent₁.shared _ hread
  have shared₂ := h.coherent₂.shared _ hread
  rw [history_of_some hbase₁] at shared₁
  rw [history_of_some hbase₂] at shared₂
  refine
    { info := ?_
      positive := h.positive
      times₁ := ?_
      times₂ := ?_
      bars := ?_
      baseClosed := rfl
      closed := rfl
      windowStart := rfl
      behind := Nat.le_refl 0
      within := Nat.zero_le _ }
  · simp only [BarBuffer.ofSeries, h.same.timeframe]
  · rw [← shared₁]
    exact Series.front_upTo_times alike.increasing₁ t
  · rw [past, ← shared₂]
    exact Series.front_upTo_times alike.increasing₂ t
  · rcases hon₁ with ⟨heq, rfl⟩ | ⟨hne, hr₁⟩
    · rcases hon₂ with ⟨-, rfl⟩ | ⟨hne, -⟩
      · have hperiod : m₁.basePeriod = (r.1.timeframeFor timeframe * 60 : Nat) := by
          rw [heq]
          rfl
        have closed := alike.closed
        rw [hperiod] at closed
        exact closed
      · exact absurd (heq.trans h.same.timeframe) hne
    · rcases hon₂ with ⟨heq, -⟩ | ⟨-, hr₂⟩
      · exact absurd (heq.trans h.same.timeframe.symm) hne
      · rw [← h.same.timeframe] at hr₂
        exact alike.resample hne hr₁ hr₂

theorem views (h : Alike t symbol currency requirements times₁ times₂ m₁ m₂)
    {timeframe digits : Nat} {v₁ v₂ : MarketView α}
    (hv₁ : m₁.Views symbol timeframe requirements digits currency v₁)
    (hv₂ : m₂.Views symbol timeframe requirements digits currency v₂) :
    MarketView.Twin t (times₁.filter (Series.upTo t)) 0 v₁ v₂ := by
  have past := h.past hv₁.primary hv₂.primary
  have hpair : v₁.pair = v₂.pair := Except.ok.inj (hv₁.pair.symm.trans hv₂.pair)
  have nodup : ((v₁.pair.elim [] (·.conversions currency)).map (·.1)).Nodup := by
    cases v₁.pair with
    | none => exact List.nodup_nil
    | some p => exact p.conversions_nodup currency
  refine ⟨hv₁.traded.trans hv₂.traded.symm, hpair, hv₁.account.trans hv₂.account.symm, ?_, ?_⟩
  · refine forall₂_of_common (fun r hr b₁ b₂ hb₁ hb₂ => ?_) hv₁.buffers hv₂.buffers
    exact h.buffers past (List.fst_mem_of_mem_zipIdx hr) hb₁ hb₂
  · intro leg time hle
    rw [h.sound₁.rateOn?_eq nodup hv₁.conversions leg hle,
      h.sound₂.rateOn?_eq (hpair ▸ nodup) hv₂.conversions leg hle, ← hpair]
    cases hl : (v₁.pair.elim [] (·.conversions currency)).find? (·.1 = leg) with
    | none => rfl
    | some l =>
      have hleg : l.2 ∈ conversionSymbols α symbol currency := by
        rw [conversionSymbols_of_pair hv₁.pair]
        exact List.mem_map_of_mem (List.mem_of_find?_eq_some hl)
      simp only [bind, Option.bind_some, h.same.converting l.2 hleg]

/-- The traded bars are the same ones as far as a run reads them. -/
theorem sameBars (h : Alike t symbol currency requirements times₁ times₂ m₁ m₂) {s₁ s₂ : Series α}
    (hs₁ : m₁.history? symbol = some s₁) (hs₂ : m₂.history? symbol = some s₂) :
    Series.SameBars t (times₁.filter (Series.upTo t)) s₁ s₂ := by
  have shared := h.coherent₁.shared symbol List.mem_cons_self
  rw [history_of_some hs₁] at shared
  rw [← shared, ← Series.openings_times]
  exact (h.histories List.mem_cons_self hs₁ hs₂).sameBars (h.openings hs₁ hs₂)

end Alike
end Market
end Backtest
