import Backtest.Proofs.Arith.Exact
import Backtest.Proofs.OrderBook.Operation
import Mathlib.Data.List.Forall2
import Mathlib.Tactic.Ring

namespace Backtest

namespace Arith

variable {α : Type} [Arith α] [Exact α] {a b c : α}

open Exact (value)

theorem reflect_reflect (c a : α) : c - (c - a) = a := by
  apply Exact.value_injective
  rw [Exact.value_sub, Exact.value_sub, sub_sub_cancel]

theorem reflect_lt_reflect : c - a < c - b ↔ b < a := by
  rw [Exact.lt_iff, Exact.lt_iff, Exact.value_sub, Exact.value_sub, sub_lt_sub_iff_left]

theorem reflect_le_reflect : c - a ≤ c - b ↔ b ≤ a := by
  rw [Exact.le_iff, Exact.le_iff, Exact.value_sub, Exact.value_sub, sub_le_sub_iff_left]

theorem reflect_pos : 0 < c - a ↔ a < c := by
  rw [Exact.lt_iff, Exact.lt_iff, Exact.value_sub, Exact.value_zero, sub_pos]

theorem reflect_lt : c - a < c ↔ 0 < a := by
  rw [Exact.lt_iff, Exact.lt_iff, Exact.value_sub, Exact.value_zero, sub_lt_self_iff]

theorem not_pos_zero : ¬ (0 : α) < 0 := by
  rw [Exact.lt_iff]
  exact lt_irrefl _

/-- A level above the market and its reflection below it. A level that is not set is zero on both sides;
one that is out of reach has a reflection that is not positive, and so counts as not set. -/
inductive Reflected (c : α) : α → α → Prop
  | unset : Reflected c 0 0
  | set {level : α} : 0 < level → Reflected c level (c - level)

theorem Reflected.eq_of_pos {l l' : α} (h : Reflected c l l') (hl : 0 < l) : l' = c - l := by
  cases h with
  | unset => exact absurd hl not_pos_zero
  | set _ => rfl

/-- A level and its reflection are touched together. -/
theorem Reflected.touched_iff {l l' x y : α} (h : Reflected c l l') (hx : x < c) (hy : y < c) :
    (0 < l' ∧ (c - x ≤ l' ∨ c - y ≤ l')) ↔ (0 < l ∧ (l ≤ x ∨ l ≤ y)) := by
  cases h with
  | unset => simp only [not_pos_zero, false_and]
  | set hl =>
    rw [reflect_le_reflect, reflect_le_reflect, reflect_pos]
    have reached (z : α) (hz : z < c) (hlz : l ≤ z) : l < c := by
      rw [Exact.lt_iff] at hz ⊢
      rw [Exact.le_iff] at hlz
      exact lt_of_le_of_lt hlz hz
    constructor
    · rintro ⟨-, touched⟩
      exact ⟨hl, touched⟩
    · rintro ⟨-, touched | touched⟩
      · exact ⟨reached x hx touched, .inl touched⟩
      · exact ⟨reached y hy touched, .inr touched⟩

/-- A level and the one in its place on the other side, the first of them above the market or below. -/
def LevelsMirror (c : α) : (above : Bool) → α → α → Prop
  | true, l, l' => Reflected c l l'
  | false, l, l' => Reflected c l' l

omit [Exact α] in
theorem LevelsMirror.symm {above : Bool} {l l' : α} (h : LevelsMirror c above l l') :
    LevelsMirror c (!above) l' l := by
  cases above <;> exact h

end Arith

namespace OrderKind

def mirror : OrderKind → OrderKind
  | .buy => .sell
  | .sell => .buy
  | .buyLimit => .sellLimit
  | .sellLimit => .buyLimit
  | .buyStop => .sellStop
  | .sellStop => .buyStop

@[simp] theorem mirror_mirror (k : OrderKind) : k.mirror.mirror = k := by cases k <;> rfl

@[simp] theorem isBuy_mirror (k : OrderKind) : k.mirror.isBuy = !k.isBuy := by cases k <;> rfl

@[simp] theorem isPending_mirror (k : OrderKind) : k.mirror.isPending = k.isPending := by
  cases k <;> rfl

@[simp] theorem filled_mirror (k : OrderKind) : k.mirror.filled = k.filled.mirror := by
  cases k <;> rfl

theorem mirror_inj {k l : OrderKind} : k.mirror = l.mirror ↔ k = l := by
  cases k <;> cases l <;> decide

theorem direction_mirror {α : Type} [Arith α] [Arith.Exact α] (k : OrderKind) :
    (k.mirror.direction : α) = -k.direction := by
  cases k with
  | buy | buyLimit | buyStop => rfl
  | sell | sellLimit | sellStop =>
    apply Arith.Exact.value_injective
    simp only [direction, isBuy, mirror, ↓reduceIte, Bool.false_eq_true, Arith.Exact.value_neg,
      neg_neg]

end OrderKind

open Arith (LevelsMirror Reflected)

variable {α : Type} [Arith α]

/-- The terms with the swap rates of the two sides exchanged. -/
def Account.mirror (a : Account α) : Account α :=
  { a with swapLong := a.swapShort, swapShort := a.swapLong }

def TradeCounts.mirror (c : TradeCounts) : TradeCounts := ⟨c.total, c.shorts, c.longs⟩

theorem TradeCounts.mirror_add (c : TradeCounts) (buy : Bool) :
    (c.add buy).mirror = c.mirror.add (!buy) := by cases buy <;> rfl

theorem TradeCounts.mirror_remove (c : TradeCounts) (buy : Bool) :
    (c.remove buy).mirror = c.mirror.remove (!buy) := by cases buy <;> rfl

def Bar.mirror (c : α) (bar : Bar α) : Bar α := { bar with high := c - bar.low, low := c - bar.high }

def Quote.mirror (c : α) (q : Quote α) : Quote α :=
  { q with bid := c - q.ask, ask := c - q.bid, lastBar := q.lastBar.map (Bar.mirror c) }

@[simp] theorem Bar.mirror_high (c : α) (bar : Bar α) : (bar.mirror c).high = c - bar.low := rfl

@[simp] theorem Bar.mirror_low (c : α) (bar : Bar α) : (bar.mirror c).low = c - bar.high := rfl

@[simp] theorem Quote.mirror_bid (c : α) (q : Quote α) : (q.mirror c).bid = c - q.ask := rfl

@[simp] theorem Quote.mirror_ask (c : α) (q : Quote α) : (q.mirror c).ask = c - q.bid := rfl

@[simp] theorem Quote.mirror_time (c : α) (q : Quote α) : (q.mirror c).time = q.time := rfl

@[simp] theorem Quote.mirror_conversion (c : α) (q : Quote α) :
    (q.mirror c).conversion = q.conversion := rfl

@[simp] theorem Quote.mirror_lastBar (c : α) (q : Quote α) :
    (q.mirror c).lastBar = q.lastBar.map (Bar.mirror c) := rfl

/-- The record with its entry price reflected, if it names one. -/
def Instruction.mirror (c : α) (r : Instruction α) : Instruction α :=
  { r with entryPrice := if r.entryPrice > 0 then c - r.entryPrice else r.entryPrice }

/-- A quote without a spread, all of its prices between zero and a constant. -/
structure Quote.Within (c : α) (q : Quote α) : Prop where
  spread : q.ask = q.bid
  positive : 0 < q.bid
  below : q.bid < c
  bar : ∀ bar ∈ q.lastBar, 0 < bar.low ∧ bar.high < c

theorem Quote.within_iff {c : α} {q : Quote α} :
    (q.ask = q.bid ∧ 0 < q.bid ∧ q.bid < c ∧ ∀ bar ∈ q.lastBar, 0 < bar.low ∧ bar.high < c) ↔
      q.Within c :=
  ⟨fun ⟨spread, positive, below, bar⟩ => ⟨spread, positive, below, bar⟩,
    fun h => ⟨h.spread, h.positive, h.below, h.bar⟩⟩

instance [DecidableEq α] (c : α) (q : Quote α) : Decidable (q.Within c) :=
  decidable_of_iff _ Quote.within_iff

/-- Orders that mirror each other. -/
structure Order.Mirrors (c : α) [Arith.Exact α] (o o' : Order α) : Prop where
  ticket : o'.ticket = o.ticket
  instanceId : o'.instanceId = o.instanceId
  kind : o'.kind = o.kind.mirror
  openTime : o'.openTime = o.openTime
  closeTime : o'.closeTime = o.closeTime
  stopLoss : LevelsMirror c (!o.kind.isBuy) o.stopLoss o'.stopLoss
  takeProfit : LevelsMirror c o.kind.isBuy o.takeProfit o'.takeProfit
  expiration : o'.expiration = o.expiration
  openPrice : o'.openPrice = c - o.openPrice
  inside : 0 < o.openPrice ∧ o.openPrice < c
  closePrice : o'.closePrice = if o.isOpen then o.closePrice else c - o.closePrice
  lots : o'.lots = o.lots
  profit : o'.profit = o.profit
  commission : o'.commission = o.commission
  swap : o'.swap = o.swap
  isOpen : o'.isOpen = o.isOpen

/-- Events that mirror each other: of the same kind, at the same time, with the same profit. -/
structure TradeEvent.Mirrors (c : α) [Arith.Exact α] (e e' : TradeEvent α) : Prop where
  time : e'.time = e.time
  instanceId : e'.instanceId = e.instanceId
  ticket : e'.ticket = e.ticket
  event : e'.event = e.event
  order : e'.order = e.order.mirror
  price : e'.price = c - e.price
  lots : e'.lots = e.lots
  stopLoss : LevelsMirror c (!e.order.isBuy) e.stopLoss e'.stopLoss
  takeProfit : LevelsMirror c e.order.isBuy e.takeProfit e'.takeProfit
  profit : e'.profit = e.profit
  priceProfit : e'.priceProfit = e.priceProfit
  balance : e'.balance = e.balance

/-- Books that mirror each other. -/
structure OrderBook.Mirrors (c : α) [Arith.Exact α] (b b' : OrderBook α) : Prop where
  instanceId : b'.instanceId = b.instanceId
  account : b'.account = b.account.mirror
  minimumStop : 0 ≤ b.account.minimumStop
  orderLimit : b'.orderLimit = b.orderLimit
  initialBalance : b'.initialBalance = b.initialBalance
  balance : b'.balance = b.balance
  nextTicket : b'.nextTicket = b.nextTicket
  openOrders : List.Forall₂ (Order.Mirrors c) b.openOrders b'.openOrders
  closedOrders : List.Forall₂ (Order.Mirrors c) b.closedOrders.toList b'.closedOrders.toList
  events : List.Forall₂ (TradeEvent.Mirrors c) b.events.toList b'.events.toList
  counters : b'.counters = b.counters.mirror
  lastSwapTime : b'.lastSwapTime = b.lastSwapTime
  heldSeconds : b'.heldSeconds = b.heldSeconds
  closeCount : b'.closeCount = b.closeCount

variable [Arith.Exact α] {c : α}

namespace Order.Mirrors

variable {o o' : Order α}

theorem symm (h : o.Mirrors c o') : o'.Mirrors c o where
  ticket := h.ticket.symm
  instanceId := h.instanceId.symm
  kind := by rw [h.kind, OrderKind.mirror_mirror]
  openTime := h.openTime.symm
  closeTime := h.closeTime.symm
  stopLoss := by
    rw [h.kind, OrderKind.isBuy_mirror]
    exact h.stopLoss.symm
  takeProfit := by
    rw [h.kind, OrderKind.isBuy_mirror]
    exact h.takeProfit.symm
  expiration := h.expiration.symm
  openPrice := by rw [h.openPrice, Arith.reflect_reflect]
  inside := by
    rw [h.openPrice, Arith.reflect_pos, Arith.reflect_lt]
    exact h.inside.symm
  closePrice := by
    rw [h.closePrice, h.isOpen]
    split
    next => rfl
    next => exact (Arith.reflect_reflect c _).symm
  lots := h.lots.symm
  profit := h.profit.symm
  commission := h.commission.symm
  swap := h.swap.symm
  isOpen := h.isOpen.symm

theorem priceProfit (h : o.Mirrors c o') (contractSize price conversion : α) :
    o'.priceProfit contractSize (c - price) conversion =
      o.priceProfit contractSize price conversion := by
  unfold Order.priceProfit
  rw [h.openPrice, h.lots, h.kind, OrderKind.direction_mirror]
  apply Arith.Exact.value_injective
  simp only [Arith.Exact.value_mul, Arith.Exact.value_sub, Arith.Exact.value_neg]
  ring

theorem closingPrice (h : o.Mirrors c o') (q : Quote α) :
    o'.closingPrice (q.mirror c) = c - o.closingPrice q := by
  unfold Order.closingPrice
  rw [h.kind, OrderKind.isBuy_mirror]
  cases o.kind.isBuy <;> rfl

theorem isExpired (h : o.Mirrors c o') (time : Int) : o'.isExpired time = o.isExpired time := by
  unfold Order.isExpired
  rw [h.expiration]

theorem isReached (h : o.Mirrors c o') (bar : Bar α) :
    o'.isReached (bar.mirror c) = o.isReached bar := by
  unfold Order.isReached
  rw [h.kind, h.openPrice]
  cases o.kind with
  | buy | sell => rfl
  | buyLimit | sellStop =>
    simp only [OrderKind.mirror, Bar.mirror_high]
    exact decide_eq_decide.mpr Arith.reflect_lt_reflect
  | buyStop | sellLimit =>
    simp only [OrderKind.mirror, Bar.mirror_low]
    exact decide_eq_decide.mpr Arith.reflect_lt_reflect

end Order.Mirrors

namespace Instruction

variable {r : Instruction α}

omit [Arith.Exact α] in
theorem mirror_entryPrice (h : r.entryPrice > 0) : (r.mirror c).entryPrice = c - r.entryPrice :=
  if_pos h

theorem mirror_names (h : r.entryPrice < c) : (r.mirror c).entryPrice > 0 ↔ r.entryPrice > 0 := by
  unfold mirror
  dsimp only
  split
  next hp => exact iff_of_true (Arith.reflect_pos.mpr h) hp
  next => rfl

end Instruction

namespace Bar

theorem mirror_mirror (c : α) (bar : Bar α) : (bar.mirror c).mirror c = bar := by
  unfold mirror
  simp only [Arith.reflect_reflect]

end Bar

namespace Quote

theorem mirror_mirror (c : α) (q : Quote α) : (q.mirror c).mirror c = q := by
  have restored : Bar.mirror c ∘ Bar.mirror c = id := funext (Bar.mirror_mirror c)
  unfold mirror
  simp only [Arith.reflect_reflect, Option.map_map, restored, Option.map_id_fun, id]

theorem Within.mirror {q : Quote α} (h : q.Within c) : (q.mirror c).Within c where
  spread := congrArg (c - ·) h.spread.symm
  positive := Arith.reflect_pos.mpr (h.spread ▸ h.below)
  below := Arith.reflect_lt.mpr (h.spread ▸ h.positive)
  bar := by
    intro reflected hmem
    obtain ⟨bar, hbar, rfl⟩ := Option.mem_map.mp hmem
    obtain ⟨positive, below⟩ := h.bar bar hbar
    exact ⟨Arith.reflect_pos.mpr below, Arith.reflect_lt.mpr positive⟩

theorem Within.noSpread {q : Quote α} (h : q.Within c) (price : α) :
    price + Arith.larger (q.ask - q.bid) 0 = price := by
  have zero : Arith.larger (q.ask - q.bid) 0 = 0 := by
    have equal : q.ask - q.bid = 0 := by
      apply Arith.Exact.value_injective
      rw [Arith.Exact.value_sub, h.spread, sub_self, Arith.Exact.value_zero]
    unfold Arith.larger
    rw [equal, if_neg Arith.not_pos_zero, ite_self]
  apply Arith.Exact.value_injective
  rw [zero, Arith.Exact.value_add, Arith.Exact.value_zero, add_zero]

end Quote

namespace Order

variable {o o' : Order α} {bar : Bar α} {q : Quote α}

omit [Arith.Exact α] in
theorem exitPrice?_buy (hk : o.kind = .buy) :
    o.exitPrice? bar q =
      if 0 < o.stopLoss ∧ (bar.low ≤ o.stopLoss ∨ q.bid ≤ o.stopLoss) then
        some (if q.bid ≤ o.stopLoss ∧ o.stopLoss < bar.low then q.bid else o.stopLoss)
      else if 0 < o.takeProfit ∧ (o.takeProfit ≤ bar.high ∨ o.takeProfit ≤ q.bid) then
        some o.takeProfit
      else none := by
  simp only [exitPrice?, hk, Bool.and_eq_true, Bool.or_eq_true, decide_eq_true_eq, gt_iff_lt,
    ge_iff_le]

theorem exitPrice?_sell (hk : o.kind = .sell) (hq : q.Within c) :
    o.exitPrice? bar q =
      if 0 < o.stopLoss ∧ (o.stopLoss ≤ bar.high ∨ o.stopLoss ≤ q.ask) then
        some (if o.stopLoss ≤ q.ask ∧ bar.high < o.stopLoss then q.ask else o.stopLoss)
      else if 0 < o.takeProfit ∧ (bar.low ≤ o.takeProfit ∨ q.ask ≤ o.takeProfit) then
        some o.takeProfit
      else none := by
  simp only [exitPrice?, hk, hq.noSpread, Bool.and_eq_true, Bool.or_eq_true, decide_eq_true_eq,
    gt_iff_lt, ge_iff_le]

/-- The exit of a short position, seen from the long one that mirrors it. -/
theorem Mirrors.exitPrice?_of_sell (h : o.Mirrors c o') (hk : o.kind = .sell) (hq : q.Within c)
    (hbar : 0 < bar.low ∧ bar.high < c) :
    o'.exitPrice? (bar.mirror c) (q.mirror c) = (o.exitPrice? bar q).map (c - ·) := by
  have hk' : o'.kind = .buy := by rw [h.kind, hk]; rfl
  have stop : Reflected c o.stopLoss o'.stopLoss := by
    have levels := h.stopLoss
    rw [hk] at levels
    exact levels
  have target : Reflected c o'.takeProfit o.takeProfit := by
    have levels := h.takeProfit
    rw [hk] at levels
    exact levels
  have stopped : (0 < o'.stopLoss ∧
      ((bar.mirror c).low ≤ o'.stopLoss ∨ (q.mirror c).bid ≤ o'.stopLoss)) ↔
      (0 < o.stopLoss ∧ (o.stopLoss ≤ bar.high ∨ o.stopLoss ≤ q.ask)) :=
    stop.touched_iff hbar.2 (hq.spread ▸ hq.below : q.ask < c)
  have taken : (0 < o'.takeProfit ∧
      (o'.takeProfit ≤ (bar.mirror c).high ∨ o'.takeProfit ≤ (q.mirror c).bid)) ↔
      (0 < o.takeProfit ∧ (bar.low ≤ o.takeProfit ∨ q.ask ≤ o.takeProfit)) := by
    have touched := target.touched_iff (Arith.reflect_lt.mpr hbar.1)
      (Arith.reflect_lt.mpr (hq.spread ▸ hq.positive : 0 < q.ask))
    rw [Arith.reflect_reflect, Arith.reflect_reflect] at touched
    exact touched.symm
  rw [exitPrice?_buy hk', exitPrice?_sell hk hq]
  by_cases hs : 0 < o.stopLoss ∧ (o.stopLoss ≤ bar.high ∨ o.stopLoss ≤ q.ask)
  · rw [if_pos hs, if_pos (stopped.mpr hs), Option.map_some, stop.eq_of_pos hs.1,
      apply_ite (c - ·)]
    exact congrArg some
      (if_congr (and_congr Arith.reflect_le_reflect Arith.reflect_lt_reflect) rfl rfl)
  · rw [if_neg hs, if_neg (mt stopped.mp hs)]
    by_cases ht : 0 < o.takeProfit ∧ (bar.low ≤ o.takeProfit ∨ q.ask ≤ o.takeProfit)
    · have ht' := taken.mpr ht
      rw [if_pos ht, if_pos ht', Option.map_some, target.eq_of_pos ht'.1, Arith.reflect_reflect]
    · rw [if_neg ht, if_neg (mt taken.mp ht), Option.map_none]

theorem Mirrors.exitPrice? (h : o.Mirrors c o') (hq : q.Within c)
    (hbar : 0 < bar.low ∧ bar.high < c) :
    o'.exitPrice? (bar.mirror c) (q.mirror c) = (o.exitPrice? bar q).map (c - ·) := by
  cases hk : o.kind with
  | sell => exact h.exitPrice?_of_sell hk hq hbar
  | buy =>
    -- the long order mirrors the short one, and reflecting twice changes nothing
    have hk' : o'.kind = .sell := by rw [h.kind, hk]; rfl
    have hbar' : 0 < (bar.mirror c).low ∧ (bar.mirror c).high < c :=
      ⟨Arith.reflect_pos.mpr hbar.2, Arith.reflect_lt.mpr hbar.1⟩
    have back := h.symm.exitPrice?_of_sell hk' hq.mirror hbar'
    have restored : (fun price => c - (c - price)) = id := funext (Arith.reflect_reflect c)
    rw [Bar.mirror_mirror, Quote.mirror_mirror] at back
    rw [back, Option.map_map]
    simp only [Function.comp_def, restored, Option.map_id_fun, id]
  | buyLimit | sellLimit | buyStop | sellStop =>
    have hk' := h.kind
    rw [hk] at hk'
    simp only [Order.exitPrice?, hk, hk', OrderKind.mirror, Option.map_none]

end Order

end Backtest
