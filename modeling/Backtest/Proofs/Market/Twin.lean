import Mathlib.Data.List.Forall2
import Backtest.Engine.Basic
import Backtest.Market.View
import Backtest.Proofs.History.Spans

namespace Backtest

namespace Series

variable {α : Type}

theorem extract_congr {s₁ s₂ : Series α} {early : Int → Bool} (same : s₁.front early = s₂.front early)
    {lo hi : Nat} (h : hi ≤ (s₁.front early).length) :
    Array.extract s₁ lo hi = Array.extract s₂ lo hi := by
  have cut {s : Series α} (hs : hi ≤ (s.front early).length) :
      (Array.extract s lo hi).toList = ((s.front early).take hi).drop lo := by
    have hp : s.front early <+: s.toList := List.takeWhile_prefix _
    rw [Array.toList_extract, List.extract_eq_take_drop, ← List.drop_take,
      List.prefix_iff_eq_take.mp hp, List.take_take, Nat.min_eq_left hs]
  have h₂ : hi ≤ (s₂.front early).length := same ▸ h
  refine Array.toList_inj.mp ?_
  rw [cut h, cut h₂, same]

end Series

namespace BarBuffer

variable {α : Type}

@[simp] theorem advance_info (b : BarBuffer α) (time : Int) : (b.advance time).info = b.info := by
  unfold advance
  dsimp only
  split <;> rfl

@[simp] theorem advance_base (b : BarBuffer α) (time : Int) : (b.advance time).base = b.base := by
  unfold advance
  dsimp only
  split <;> rfl

@[simp] theorem advance_series (b : BarBuffer α) (time : Int) :
    (b.advance time).series = b.series := by
  unfold advance
  dsimp only
  split <;> rfl

@[simp] theorem advance_period (b : BarBuffer α) (time : Int) :
    (b.advance time).period = b.period := by
  unfold period
  rw [advance_info]

theorem advance_baseClosed (b : BarBuffer α) (time : Int) :
    (b.advance time).baseClosed =
      b.base.skipWhile (Series.closedBy b.basePeriod time) b.baseClosed := by
  unfold advance
  dsimp only
  split <;> rfl

theorem advance_closed (b : BarBuffer α) (time : Int) :
    (b.advance time).closed = b.series.skipWhile (Series.closedBy b.period time) b.closed := by
  unfold advance
  dsimp only
  split <;> rfl

theorem advance_windowStart (b : BarBuffer α) (time : Int) :
    (b.advance time).windowStart =
      (b.advance time).windowOpening?.elim 0 fun opening =>
        b.series.boundary (· < opening) 0 (b.advance time).closed := by
  unfold advance
  dsimp only
  split
  all_goals
    next ho =>
      unfold windowOpening? at ho ⊢
      dsimp only [basePeriod, period] at ho ⊢
      rw [ho]
      rfl

/-- The opening of the window is the time of a bar that is not behind the last one closed. -/
theorem windowOpening?_congr {b₁ b₂ : BarBuffer α} {early : Int → Bool} (info : b₁.info = b₂.info)
    (baseClosed : b₁.baseClosed = b₂.baseClosed)
    (times : (b₁.base.front early).map Bar.time = (b₂.base.front early).map Bar.time)
    (h : b₁.baseClosed < (b₁.base.front early).length) : b₁.windowOpening? = b₂.windowOpening? := by
  have hlen : (b₁.base.front early).length = (b₂.base.front early).length := by
    simpa using congrArg List.length times
  unfold windowOpening?
  rw [← baseClosed, ← info]
  split
  next => rfl
  next =>
    have h₁ : b₁.baseClosed - b₁.info.capacity < (b₁.base.front early).length := by omega
    have h₂ : b₁.baseClosed - b₁.info.capacity < (b₂.base.front early).length := by omega
    rw [Series.timeAt?_of_lt_front h₁, Series.timeAt?_of_lt_front h₂, times]

/-- Two buffers before the bar of index `k`, in a run whose bars up to `t` open at the times `past`: what
the two have closed by `t` is alike, and they stand alike. -/
structure Twin (t : Int) (past : List Int) (k : Nat) (b₁ b₂ : BarBuffer α) : Prop where
  info : b₁.info = b₂.info
  positive : 0 < b₁.info.actual
  times₁ : (b₁.base.front (Series.upTo t)).map Bar.time = past
  times₂ : (b₂.base.front (Series.upTo t)).map Bar.time = past
  bars : b₁.series.front (Series.closedBy b₁.period t) = b₂.series.front (Series.closedBy b₁.period t)
  baseClosed : b₁.baseClosed = b₂.baseClosed
  closed : b₁.closed = b₂.closed
  windowStart : b₁.windowStart = b₂.windowStart
  behind : b₁.baseClosed ≤ k
  within : b₁.closed ≤ (b₁.series.front (Series.closedBy b₁.period t)).length

namespace Twin

variable {t : Int} {past : List Int} {k : Nat} {b₁ b₂ : BarBuffer α}

theorem mono (h : Twin t past k b₁ b₂) {k' : Nat} (hk : k ≤ k') : Twin t past k' b₁ b₂ :=
  { h with behind := Nat.le_trans h.behind hk }

theorem basePeriod (h : Twin t past k b₁ b₂) : b₁.basePeriod = b₂.basePeriod := by
  unfold BarBuffer.basePeriod
  rw [h.info]

theorem period (h : Twin t past k b₁ b₂) : b₁.period = b₂.period := by
  unfold BarBuffer.period
  rw [h.info]

theorem view (h : Twin t past k b₁ b₂) : b₁.view = b₂.view := by
  unfold BarBuffer.view
  rw [← h.windowStart, ← h.closed]
  exact Series.extract_congr h.bars h.within

theorem isWarm (h : Twin t past k b₁ b₂) : b₁.isWarm = b₂.isWarm := by
  unfold BarBuffer.isWarm
  rw [h.closed, h.windowStart, h.info]

theorem length_front (h : Twin t past k b₁ b₂) :
    (b₁.base.front (Series.upTo t)).length = past.length := by
  rw [← h.times₁, List.length_map]

/-- The base bar of index `k` is the first one that has not closed when it opens. -/
theorem advance_baseClosed (h : Twin t past k b₁ b₂) {time : Int} (hk : past[k]? = some time)
    (ht : time ≤ t) : (b₁.advance time).baseClosed = (b₂.advance time).baseClosed ∧
      (b₁.advance time).baseClosed ≤ k := by
  have hlt : k < (b₁.base.front (Series.upTo t)).length :=
    h.length_front ▸ (List.getElem?_eq_some_iff.mp hk).1
  have behind := h.behind
  have hperiod : 0 < b₁.basePeriod := by
    have := h.positive
    unfold BarBuffer.basePeriod
    omega
  have early : ∀ x, Series.closedBy b₁.basePeriod time x = true → Series.upTo t x = true := by
    intro x hx
    rw [Series.closedBy_iff] at hx
    rw [Series.upTo_iff]
    omega
  have hat : b₁.base.timeAt? k = some time := by
    rw [Series.timeAt?_of_lt_front hlt, h.times₁, hk]
  have hlate : Series.closedBy b₁.basePeriod time time = false :=
    Bool.eq_false_iff.mpr fun hc => by rw [Series.closedBy_iff] at hc; omega
  obtain ⟨same, -⟩ := Series.skipWhile_congr early (h.times₁.trans h.times₂.symm)
    (by omega : b₁.baseClosed ≤ (b₁.base.front (Series.upTo t)).length)
  rw [BarBuffer.advance_baseClosed, BarBuffer.advance_baseClosed, ← h.basePeriod, ← h.baseClosed]
  exact ⟨same, Series.skipWhile_le behind hat hlate⟩

/-- As many bars of the buffer have closed in both, and by `t` no fewer will have. -/
theorem advance_closed (h : Twin t past k b₁ b₂) {time : Int} (ht : time ≤ t) :
    (b₁.advance time).closed = (b₂.advance time).closed ∧
      (b₁.advance time).closed ≤ (b₁.series.front (Series.closedBy b₁.period t)).length := by
  have earlier : ∀ x, Series.closedBy b₁.period time x = true →
      Series.closedBy b₁.period t x = true := by
    intro x hx
    rw [Series.closedBy_iff] at hx ⊢
    omega
  rw [BarBuffer.advance_closed, BarBuffer.advance_closed, ← h.period, ← h.closed]
  exact Series.skipWhile_congr earlier (congrArg (List.map Bar.time) h.bars) h.within

theorem advance_windowStart (h : Twin t past k b₁ b₂) {time : Int} (hk : past[k]? = some time)
    (ht : time ≤ t) : (b₁.advance time).windowStart = (b₂.advance time).windowStart := by
  have hlt : k < (b₁.base.front (Series.upTo t)).length :=
    h.length_front ▸ (List.getElem?_eq_some_iff.mp hk).1
  obtain ⟨baseClosed, behind⟩ := h.advance_baseClosed hk ht
  obtain ⟨closed, within⟩ := h.advance_closed ht
  have opening : (b₁.advance time).windowOpening? = (b₂.advance time).windowOpening? := by
    have times : ((b₁.advance time).base.front (Series.upTo t)).map Bar.time =
        ((b₂.advance time).base.front (Series.upTo t)).map Bar.time := by
      rw [advance_base, advance_base, h.times₁, h.times₂]
    refine windowOpening?_congr ?_ baseClosed times ?_
    · rw [advance_info, advance_info, h.info]
    · rw [advance_base]
      omega
  have search (opening : Int) :
      b₁.series.boundary (· < opening) 0 (b₁.advance time).closed =
        b₂.series.boundary (· < opening) 0 (b₁.advance time).closed := by
    refine Series.boundary_congr fun i hi => ?_
    have h₁ : i < (b₁.series.front (Series.closedBy b₁.period t)).length := by omega
    have h₂ : i < (b₂.series.front (Series.closedBy b₁.period t)).length := h.bars ▸ h₁
    rw [Series.timeAt?_of_lt_front h₁, Series.timeAt?_of_lt_front h₂, h.bars]
  rw [BarBuffer.advance_windowStart, BarBuffer.advance_windowStart, ← opening, ← closed]
  exact congrArg _ (funext search)

theorem advance (h : Twin t past k b₁ b₂) {time : Int} (hk : past[k]? = some time)
    (ht : time ≤ t) : Twin t past k (b₁.advance time) (b₂.advance time) where
  info := by rw [advance_info, advance_info, h.info]
  positive := by rw [advance_info]; exact h.positive
  times₁ := by rw [advance_base]; exact h.times₁
  times₂ := by rw [advance_base]; exact h.times₂
  bars := by rw [advance_period, advance_series, advance_series]; exact h.bars
  baseClosed := (h.advance_baseClosed hk ht).1
  closed := (h.advance_closed ht).1
  windowStart := h.advance_windowStart hk ht
  behind := (h.advance_baseClosed hk ht).2
  within := by rw [advance_period, advance_series]; exact (h.advance_closed ht).2

end Twin
end BarBuffer

theorem map_eq_of_forall₂ {β γ δ : Type} {R : β → γ → Prop} {l₁ : List β} {l₂ : List γ}
    (hl : List.Forall₂ R l₁ l₂) {f : β → δ} {g : γ → δ} (h : ∀ a b, R a b → f a = g b) :
    l₁.map f = l₂.map g := by
  induction hl with
  | nil => rfl
  | cons hab _ ih => rw [List.map_cons, List.map_cons, h _ _ hab, ih]

namespace MarketView

variable {α : Type} [Arith α]

/-- Two views before the bar of index `k`, in a run whose bars up to `t` open at the times `past`. -/
structure Twin (t : Int) (past : List Int) (k : Nat) (v₁ v₂ : MarketView α) : Prop where
  symbol : v₁.symbol = v₂.symbol
  pair : v₁.pair = v₂.pair
  currency : v₁.accountCurrency = v₂.accountCurrency
  buffers : List.Forall₂ (BarBuffer.Twin t past k) v₁.buffers v₂.buffers
  rates : ∀ leg time, time ≤ t → v₁.rateOn? leg time = v₂.rateOn? leg time

namespace Twin

variable {t : Int} {past : List Int} {k : Nat} {v₁ v₂ : MarketView α}

theorem mono (h : Twin t past k v₁ v₂) {k' : Nat} (hk : k ≤ k') : Twin t past k' v₁ v₂ :=
  { h with buffers := h.buffers.imp fun _ _ hb => hb.mono hk }

theorem advance (h : Twin t past k v₁ v₂) {time : Int} (hk : past[k]? = some time) (ht : time ≤ t) :
    Twin t past k (v₁.advance time) (v₂.advance time) where
  symbol := h.symbol
  pair := h.pair
  currency := h.currency
  buffers := List.rel_map (fun _ _ hb => hb.advance hk ht) h.buffers
  rates := h.rates

theorem isWarm (h : Twin t past k v₁ v₂) : v₁.isWarm = v₂.isWarm := by
  have hall := map_eq_of_forall₂ h.buffers fun _ _ hb => hb.isWarm
  unfold MarketView.isWarm
  simpa only [List.all_map, Function.id_comp] using congrArg (List.all · id) hall

theorem slices (h : Twin t past k v₁ v₂) :
    v₁.buffers.map (fun b => (⟨b.info, b.view⟩ : BufferSlice α)) =
      v₂.buffers.map fun b => ⟨b.info, b.view⟩ :=
  map_eq_of_forall₂ h.buffers fun b₁ b₂ hb => by rw [hb.info, hb.view]

theorem termFactor (h : Twin t past k v₁ v₂) {time : Int} (ht : time ≤ t) (price : α) :
    v₁.termFactor time price = v₂.termFactor time price := by
  unfold MarketView.termFactor
  simp only [h.pair, h.currency, h.rates _ time ht]

theorem baseFactor (h : Twin t past k v₁ v₂) {time : Int} (ht : time ≤ t) (price : α) :
    v₁.baseFactor time price = v₂.baseFactor time price := by
  unfold MarketView.baseFactor
  simp only [h.pair, h.currency, h.rates _ time ht, h.termFactor ht]

end Twin
end MarketView
end Backtest
