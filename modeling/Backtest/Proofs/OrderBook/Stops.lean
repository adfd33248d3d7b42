import Backtest.Proofs.Arith.Line
import Backtest.Proofs.OrderBook.Emission
import Backtest.Proofs.OrderBook.Fates

namespace Backtest

open Arith (Linear larger smaller)

namespace OrderKind

variable {α : Type} [Arith α]

/-- A price at which the market has dealt on a bar or deals now, or one that is worse for a side. -/
def IsMarket (kind : OrderKind) (bar : Bar α) (bid ask price : α) : Prop :=
  match kind with
  | .buy => price ≤ larger bar.high bid
  | .sell => smaller (bar.low + larger (ask - bid) 0) ask ≤ price
  | _ => False

/-- A price that is not beyond the one at which a side is entered. -/
def IsWithin (kind : OrderKind) (bid ask price : α) : Prop :=
  match kind with
  | .buy => price ≤ ask
  | .sell => bid ≤ price
  | _ => False

end OrderKind

namespace Order

variable {α : Type} [Arith α] {o : Order α} {bar : Bar α} {q : Quote α}

/-- The stop of a market order, if it has one, is not reached by current prices. -/
def IsClear (o : Order α) (bid ask : α) : Prop :=
  match o.kind with
  | .buy => 0 < o.stopLoss → ¬ bid ≤ o.stopLoss
  | .sell => 0 < o.stopLoss → ¬ o.stopLoss ≤ ask
  | _ => True

/-- The stop of a market order, if it has one, is not beyond the price at which its side is entered. -/
def IsWithin (o : Order α) (bid ask : α) : Prop :=
  o.kind.isPending = false → 0 < o.stopLoss → o.kind.IsWithin bid ask o.stopLoss

theorem isClear_of_not_isTouched (h : ¬ o.IsTouched bar q) : o.IsClear q.bid q.ask := by
  unfold IsTouched at h
  unfold IsClear
  cases hk : o.kind with
  | buy | sell =>
    rw [hk] at h
    exact fun set reached => h (.inl ⟨set, .inr reached⟩)
  | buyLimit | sellLimit | buyStop | sellStop => trivial

theorem afterEntry_cases {time : Int} {o' : Order α} (h : o.afterEntry bar time = some o') :
    o' = o ∨ o' = OrderBook.filledOrder o time ∧
      o.entryFate? bar time = some ⟨o.ticket, .filled, o.openPrice, 0⟩ := by
  unfold afterEntry at h
  unfold entryFate?
  split at h
  next => exact .inl (Option.some.inj h).symm
  next pending =>
    split at h
    next => cases h
    next lasting =>
      split at h
      next reached =>
        rw [if_neg pending, if_neg lasting, if_pos reached]
        exact .inr ⟨(Option.some.inj h).symm, rfl⟩
      next => exact .inl (Option.some.inj h).symm

variable [Linear α]

theorem IsClear.isWithin {bid spread : α} (h : o.IsClear bid (bid + spread)) (defined : bid ≤ bid)
    (nonneg : 0 ≤ spread) : o.IsWithin bid (bid + spread) := by
  intro market set
  have level := (Linear.defined_of_le (Linear.le_of_lt set)).2
  have either := Linear.le_add_or_le bid spread o.stopLoss nonneg defined level
  unfold IsClear at h
  unfold OrderKind.IsWithin
  cases hk : o.kind with
  | buy =>
    rw [hk] at h
    exact either.resolve_right (h set)
  | sell =>
    rw [hk] at h
    exact either.resolve_left (h set)
  | buyLimit | sellLimit | buyStop | sellStop =>
    rw [hk] at market
    cases market

/-- The market ends an order at a price of its own, or else at the order's stop. -/
theorem isMarket_of_exitPrice? {price : α} (h : o.exitPrice? bar q = some price) :
    o.kind.isPending = false ∧
      (o.kind.IsMarket bar q.bid q.ask price ∨ price = o.stopLoss ∧ 0 < o.stopLoss) := by
  unfold exitPrice? at h
  unfold OrderKind.IsMarket
  cases hk : o.kind with
  | buy =>
    refine ⟨rfl, ?_⟩
    dsimp only
    rw [hk] at h
    simp only [Bool.and_eq_true, Bool.or_eq_true, decide_eq_true_eq] at h
    split at h
    next stopped =>
      cases h
      split
      next gap => exact .inl (Linear.le_larger_right (Linear.defined_of_le gap.1).1)
      next => exact .inr ⟨rfl, stopped.1⟩
    next =>
      split at h
      next targeted =>
        cases h
        rcases targeted.2 with le | le
        · exact .inl (Linear.le_trans le (Linear.le_larger_left (Linear.defined_of_le le).2))
        · exact .inl (Linear.le_trans le (Linear.le_larger_right (Linear.defined_of_le le).2))
      next => cases h
  | sell =>
    refine ⟨rfl, ?_⟩
    dsimp only
    rw [hk] at h
    simp only [Bool.and_eq_true, Bool.or_eq_true, decide_eq_true_eq] at h
    split at h
    next stopped =>
      cases h
      split
      next gap => exact .inl (Linear.smaller_le_right (Linear.defined_of_le gap.1).2)
      next => exact .inr ⟨rfl, stopped.1⟩
    next =>
      split at h
      next targeted =>
        cases h
        rcases targeted.2 with le | le
        · exact .inl (Linear.le_trans (Linear.smaller_le_left (Linear.defined_of_le le).1) le)
        · exact .inl (Linear.le_trans (Linear.smaller_le_right (Linear.defined_of_le le).1) le)
      next => cases h
  | buyLimit | sellLimit | buyStop | sellStop =>
    rw [hk] at h
    cases h

end Order

def EventKind.isExit : EventKind → Bool
  | .stopLoss | .takeProfit => true
  | _ => false

theorem Order.entryFate?_isExit {α : Type} [Arith α] {o : Order α} {bar : Bar α} {time : Int}
    {fate : Fate α} (h : o.entryFate? bar time = some fate) : fate.event.isExit = false := by
  unfold entryFate? at h
  split at h
  next => cases h
  next =>
    split at h
    next =>
      cases h
      rfl
    next =>
      split at h
      next =>
        cases h
        rfl
      next => cases h

namespace OrderBook

variable {α : Type}

section Evidence

variable {events more : List (TradeEvent α)} {time ticket : Int} {level : α}

/-- A stop was put on an order at a time, as the order was placed or by an update. -/
def IsPut (events : List (TradeEvent α)) (time ticket : Int) (level : α) : Prop :=
  ∃ e ∈ events, e.time = time ∧ e.ticket = ticket ∧ e.stopLoss = level ∧
    (e.event = .opened ∨ e.event = .modified)

/-- An order that waited was filled at a time. -/
def IsFilled (events : List (TradeEvent α)) (time ticket : Int) : Prop :=
  ∃ e ∈ events, e.time = time ∧ e.ticket = ticket ∧ e.event = .filled

theorem IsPut.mono (h : IsPut events time ticket level) (hle : events <+: more) :
    IsPut more time ticket level := by
  obtain ⟨e, he, told⟩ := h
  exact ⟨e, hle.subset he, told⟩

theorem IsFilled.mono (h : IsFilled events time ticket) (hle : events <+: more) :
    IsFilled more time ticket := by
  obtain ⟨e, he, told⟩ := h
  exact ⟨e, hle.subset he, told⟩

end Evidence

variable [Arith α] {b b' : OrderBook α} {q : Quote α}

/-- A book after a settlement: what its stops are known to be at the prices of that time. -/
structure Watched (q : Quote α) (b : OrderBook α) : Prop where
  timely : ∀ o ∈ b.openOrders, o.openTime ≤ q.time
  stops : ∀ o ∈ b.openOrders,
    o.IsClear q.bid q.ask ∨ IsPut b.events.toList q.time o.ticket o.stopLoss
  within : 0 ≤ b.account.minimumStop → ∀ o ∈ b.openOrders, o.IsWithin q.bid q.ask

/-- A watched book while an answer is carried out, which ends no order for the market. -/
structure Answering (told : List (TradeEvent α)) (q : Quote α) (b : OrderBook α) : Prop
    extends Watched q b where
  exits : ∀ e ∈ b.events.toList, e.event.isExit = true → e ∈ told

variable {told : List (TradeEvent α)}

/-- An event that keeps or takes out orders, or else puts a stop on one. -/
theorem Answering.push (w : Answering told q b) {e : TradeEvent α}
    (events : b'.events = b.events.push e) (quiet : e.event.isExit = false)
    (account : b'.account = b.account)
    (orders : ∀ o ∈ b'.openOrders, o ∈ b.openOrders ∨ o.openTime ≤ q.time ∧
      (e.time = q.time ∧ e.ticket = o.ticket ∧ e.stopLoss = o.stopLoss ∧
        (e.event = .opened ∨ e.event = .modified)) ∧
      (0 ≤ b.account.minimumStop → o.IsWithin q.bid q.ask)) :
    Answering told q b' := by
  have grows : b.events.toList <+: b'.events.toList := by
    rw [events, Array.toList_push]
    exact List.prefix_append _ _
  have pushed : e ∈ b'.events.toList := by
    rw [events, Array.toList_push]
    exact List.mem_append_right _ List.mem_cons_self
  refine ⟨⟨fun o ho => ?_, fun o ho => ?_, fun least o ho => ?_⟩, fun e' he' exit => ?_⟩
  · rcases orders o ho with old | ⟨timely, -, -⟩
    · exact w.timely o old
    · exact timely
  · rcases orders o ho with old | ⟨-, put, -⟩
    · exact (w.stops o old).imp_right (·.mono grows)
    · exact .inr ⟨e, pushed, put⟩
  · rw [account] at least
    rcases orders o ho with old | ⟨-, -, within⟩
    · exact w.within least o old
    · exact within least
  · rw [events, Array.toList_push] at he'
    rcases List.mem_append.mp he' with old | new
    · exact w.exits e' old exit
    · rw [List.mem_singleton.mp new, quiet] at exit
      cases exit

theorem Answering.closeOrder (w : Answering told q b) (o : Order α) :
    Answering told q (b.closeOrder o q) := by
  have kept (p : Order α) (hp : p ∈ (b.drop o.ticket).openOrders) : p ∈ b.openOrders :=
    List.mem_of_mem_filter hp
  unfold OrderBook.closeOrder
  split
  next => exact w.push rfl rfl rfl fun p hp => .inl (kept p hp)
  next =>
    by_cases timely : o.openTime ≤ q.time
    · rw [settle_eq b timely]
      exact w.push rfl rfl rfl fun p hp => .inl (kept p hp)
    · rwa [settle_of_not_le b timely]

variable [Linear α]

/-- A stop counted back from the price at which a side is entered is not beyond that price. -/
theorem counted_isWithin {kind : OrderKind} {bid ask base distance : α}
    (market : kind.isPending = false) (entered : base = if kind.isBuy then ask else bid)
    (back : ¬ distance < 0) (set : 0 < base + -kind.direction * distance) :
    kind.IsWithin bid ask (base + -kind.direction * distance) := by
  have defined := (Linear.defined_of_le (Linear.le_of_lt set)).2
  subst entered
  cases kind with
  | buy => exact Linear.lower_le ask distance back defined
  | sell => exact Linear.le_raise bid distance back defined
  | buyLimit | sellLimit | buyStop | sellStop => cases market

theorem newOrder_isWithin {kind : OrderKind} {r : Instruction α} {lots price : α}
    (enters : entryPrice? kind r q = some price) :
    (b.newOrder kind r q lots price).IsWithin q.bid q.ask := by
  intro market set
  change kind.isPending = false at market
  have entered : price = if kind.isBuy then q.ask else q.bid := by
    cases kind <;> first | exact (Option.some.inj enters).symm | cases market
  change 0 < b.levelAt price (-kind.direction) r.stopDistance at set
  change kind.IsWithin q.bid q.ask (b.levelAt price (-kind.direction) r.stopDistance)
  unfold levelAt at set ⊢
  split at set
  next => exact absurd set Linear.lt_irrefl
  next pos =>
    rw [if_neg pos]
    split at set
    next => exact absurd set Linear.lt_irrefl
    next far =>
      rw [if_neg far]
      exact counted_isWithin market entered (fun lt => pos (Linear.le_of_lt lt)) set

theorem updated_isWithin {o : Order α} (r : Instruction α) (least : 0 ≤ b.account.minimumStop)
    (h : o.IsWithin q.bid q.ask) : (b.updated o r q).IsWithin q.bid q.ask := by
  intro market set
  rw [updated_kind] at market ⊢
  have same : movedEntry o r = o := by
    unfold movedEntry
    rw [market]
    rfl
  have entered : updateBase o q = if o.kind.isBuy then q.ask else q.bid := by
    unfold updateBase
    cases hk : o.kind <;> first | rfl | (rw [hk] at market; cases market)
  have level : (b.updated o r q).stopLoss =
      b.updatedLevel (updateBase o q) (-o.kind.direction) r.stopDistance o.stopLoss := by
    change b.updatedLevel (updateBase (movedEntry o r) q) (-(movedEntry o r).kind.direction)
      r.stopDistance (movedEntry o r).stopLoss = _
    rw [same]
  rw [level] at set ⊢
  unfold updatedLevel at set ⊢
  split at set
  next => exact absurd set Linear.lt_irrefl
  next moved =>
    rw [if_neg moved]
    split at set
    next near =>
      rw [if_pos near]
      exact h market set
    next far =>
      rw [if_neg far]
      exact counted_isWithin market entered (fun lt => far (Linear.lt_of_lt_of_le lt least)) set

theorem Answering.updateOrder (w : Answering told q b) {o : Order α} (r : Instruction α)
    (timely : o.openTime ≤ q.time)
    (within : 0 ≤ b.account.minimumStop → o.IsWithin q.bid q.ask) :
    Answering told q (b.updateOrder o r q) := by
  rw [updateOrder_eq]
  refine w.push rfl rfl rfl fun p hp => ?_
  obtain ⟨p', hp', rfl⟩ := List.mem_map.mp hp
  split
  next =>
    refine .inr ⟨?_, ⟨rfl, rfl, rfl, .inr rfl⟩, fun least => updated_isWithin r least (within least)⟩
    change (movedEntry o r).openTime ≤ q.time
    unfold movedEntry
    split <;> exact timely
  next => exact .inl hp'

theorem Answering.place (w : Answering told q b) {kind : OrderKind} {r : Instruction α}
    {ticket : Option Int} (h : b.place kind r q = .ok (b', ticket)) : Answering told q b' := by
  unfold OrderBook.place at h
  dsimp only at h
  split at h
  next =>
    cases h
    exact w
  next =>
    split at h
    next => cases h
    next =>
      split at h
      next =>
        cases h
        exact w
      next price enters =>
        cases h
        refine w.push rfl rfl rfl fun p hp => ?_
        rcases List.mem_append.mp hp with old | new
        · exact .inl old
        · rw [List.mem_singleton.mp new]
          exact .inr ⟨Int.le_refl _, ⟨rfl, rfl, rfl, .inl rfl⟩, fun _ => newOrder_isWithin enters⟩

theorem Answering.act (w : Answering told q b) {a : Action α} (h : b.act q a = .ok b') :
    Answering told q b' := by
  cases a with
  | place kind r =>
    obtain ⟨ticket, placed⟩ := place_of_act h
    exact w.place placed
  | close kind ticket =>
    obtain ⟨found, -, rfl⟩ := close_ok h
    exact List.foldlRecOn (motive := Answering told q) _ _ w fun b' w' o _ => w'.closeOrder o
  | update kind ticket r =>
    obtain ⟨found, hf, rfl⟩ := update_ok h
    refine (List.foldlRecOn (motive := fun b' => Answering told q b' ∧ b'.account = b.account) _ _
      ⟨w, rfl⟩ fun b' w' o ho => ?_).1
    obtain ⟨w', account⟩ := w'
    have mem := (addressedBy_sublist hf).subset ho
    exact ⟨w'.updateOrder r (w.timely o mem) (fun least => w.within (account ▸ least) o mem), account⟩

theorem Watched.applyRecords (w : Watched q b) (records : List (Instruction α)) :
    Answering b.events.toList q (b.applyRecords records q).1 := by
  have start : Answering b.events.toList q b := ⟨w, fun e he _ => he⟩
  unfold OrderBook.applyRecords
  generalize b.events.toList = told at start
  clear w
  induction records.flatMap Instruction.actions generalizing b with
  | nil => exact start
  | cons a rest ih =>
    unfold actAll
    split
    next b' h => exact ih (start.act h)
    next => exact start

section Settlement

variable {bar : Bar α}

omit [Linear α] in
theorem settleEntries_open (ascends : b.Ascends) (hbar : q.lastBar = some bar) {o : Order α}
    (ho : o ∈ (b.settleEntries q).openOrders) :
    o ∈ b.openOrders ∨
      o.openTime = q.time ∧ IsFilled (b.settleEntries q).events.toList q.time o.ticket := by
  rw [ascends.settleEntries_openOrders hbar] at ho
  obtain ⟨p, hp, kept⟩ := List.mem_filterMap.mp ho
  rcases Order.afterEntry_cases kept with rfl | ⟨rfl, due⟩
  · exact .inl hp
  · right
    refine ⟨rfl, ?_⟩
    have fates := fates_drop (settleEntries_changes ascends q) (settleEntries_fates b hbar)
    have mem : _ ∈ b.openOrders.filterMap (·.entryFate? bar q.time) :=
      List.mem_filterMap.mpr ⟨p, hp, due⟩
    rw [← fates] at mem
    obtain ⟨e, he, hfate⟩ := List.mem_map.mp mem
    simp only [TradeEvent.fate, Fate.mk.injEq] at hfate
    have time := ((settleEntries_adds b q).drop.2 e he).1
    exact ⟨e, List.mem_of_mem_drop he, time, hfate.1, hfate.2.1⟩

omit [Linear α] in
/-- Settling the entries ends no order at its levels. -/
theorem settleEntries_quiet (ascends : b.Ascends) (hbar : q.lastBar = some bar) {e : TradeEvent α}
    (he : e ∈ (b.settleEntries q).events.toList) (exit : e.event.isExit = true) :
    e ∈ b.events.toList := by
  have fates := fates_drop (settleEntries_changes ascends q) (settleEntries_fates b hbar)
  rw [(settleEntries_adds b q).drop.1] at he
  rcases List.mem_append.mp he with old | new
  · exact old
  · have due := List.mem_map_of_mem (f := TradeEvent.fate) new
    rw [fates] at due
    obtain ⟨o, -, hfate⟩ := List.mem_filterMap.mp due
    have quiet : e.event.isExit = false := Order.entryFate?_isExit hfate
    rw [quiet] at exit
    cases exit

/-- An event by which the market ends an order at the price that the order's levels give. -/
structure EndsBy (bar : Bar α) (q : Quote α) (o : Order α) (e : TradeEvent α) : Prop where
  time : e.time = q.time
  ticket : e.ticket = o.ticket
  order : e.order = o.kind
  stopLoss : e.stopLoss = o.stopLoss
  price : o.exitPrice? bar q = some e.price

omit [Linear α] in
theorem settleExits_endsBy (b : OrderBook α) (hbar : q.lastBar = some bar) :
    Adds (fun e => ∃ o ∈ b.openOrders, EndsBy bar q o e) b (b.settleExits q) := by
  rw [settleExits_eq hbar]
  refine List.foldlRecOn (motive := Adds _ b) _ _ (.of_eq rfl) fun b' added o ho => added.trans ?_
  unfold settleExit
  split
  next price hprice =>
    by_cases timely : o.openTime ≤ q.time
    · rw [settle_eq b' timely]
      exact .push rfl ⟨o, ho, rfl, rfl, rfl, rfl, hprice⟩
    · rw [settle_of_not_le b' timely]
      exact .of_eq rfl
  next => exact .of_eq rfl

/-- The market leaves no stop that it has reached. -/
theorem watched_settleExits {spread : α} (ascends : b.Ascends) (hbar : q.lastBar = some bar)
    (timely : ∀ o ∈ b.openOrders, o.openTime ≤ q.time) (ask : q.ask = q.bid + spread)
    (defined : q.bid ≤ q.bid) (nonneg : 0 ≤ spread) : Watched q (b.settleExits q) := by
  have left {o : Order α} (ho : o ∈ (b.settleExits q).openOrders) :
      o.openTime ≤ q.time ∧ o.IsClear q.bid q.ask := by
    rw [ascends.settleExits_openOrders hbar] at ho
    obtain ⟨mem, stays⟩ := List.mem_filter.mp ho
    rw [Bool.not_eq_true', decide_eq_false_iff_not, not_and'] at stays
    exact ⟨timely o mem, Order.isClear_of_not_isTouched (stays (timely o mem))⟩
  refine ⟨fun o ho => (left ho).1, fun o ho => .inl (left ho).2, fun _ o ho => ?_⟩
  have clear := (left ho).2
  rw [ask] at clear ⊢
  exact clear.isWithin defined nonneg

omit [Linear α] in
theorem Watched.bookSwap (w : Watched q b) (time : Int) : Watched q (b.bookSwap time) := by
  unfold OrderBook.bookSwap
  split
  next => exact w
  next =>
    split
    next =>
      refine ⟨fun o' ho' => ?_, fun o' ho' => ?_, fun least o' ho' => ?_⟩ <;>
        obtain ⟨o, ho, rfl⟩ := List.mem_map.mp ho'
      · rw [withSwap_openTime]
        exact w.timely o ho
      · unfold Order.IsClear
        rw [withSwap_kind, withSwap_ticket, withSwap_stopLoss]
        exact w.stops o ho
      · unfold Order.IsWithin
        rw [withSwap_kind, withSwap_stopLoss]
        exact w.within least o ho
    next => exact w

end Settlement

end OrderBook

end Backtest
