import Backtest.Proofs.Instance.Exhaustion
import Backtest.Proofs.OrderBook.Stops

namespace Backtest

open Arith (Exact Linear larger smaller)

namespace OrderBook

variable {α : Type} [Arith α]

/-- A quote at the opening of a bar. -/
structure QuotedAt (spread : α) (bar : Bar α) (q : Quote α) : Prop where
  time : q.time = bar.time
  bid : q.bid = bar.openPrice
  ask : q.ask = bar.openPrice + spread

/-- The spread comes out of the prices of a bar so much larger than it went into those of the bar before
that the low of that bar with the one is above its opening with the other. -/
def SpreadGrows (spread : α) (last bar : Bar α) : Prop :=
  ¬ last.low + larger (bar.openPrice + spread - bar.openPrice) 0 ≤ last.openPrice + spread

/-- The market ends an order on a bar at a price of the market, or else at the order's own stop. That is new
then, by a fill in the same settlement or by an event of the bar before, unless the spread has grown on a
sale; and if the order is not, the stop is not beyond the price of entry on the bar before. -/
structure PricedExit (account : Account α) (last bar : Bar α) (events : List (TradeEvent α))
    (e : TradeEvent α) : Prop where
  time : e.time = bar.time
  price :
    e.order.IsMarket last bar.openPrice (bar.openPrice + account.spread) e.price ∨
      e.price = e.stopLoss ∧ (IsFilled events bar.time e.ticket ∨
        (IsPut events last.time e.ticket e.stopLoss ∨
          e.order = .sell ∧ SpreadGrows account.spread last bar) ∧
        (0 ≤ account.minimumStop →
          e.order.IsWithin last.openPrice (last.openPrice + account.spread) e.price))

theorem PricedExit.mono {account : Account α} {last bar : Bar α} {events more : List (TradeEvent α)}
    {e : TradeEvent α} (h : PricedExit account last bar events e) (hle : events <+: more) :
    PricedExit account last bar more e := by
  refine ⟨h.time, h.price.imp_right fun ⟨stopped, new⟩ => ⟨stopped, ?_⟩⟩
  exact new.imp (·.mono hle) fun ⟨put, within⟩ => ⟨put.imp_left (·.mono hle), within⟩

section NextBar

variable [Linear α] {b : OrderBook α} {before q : Quote α} {last bar : Bar α}

/-- A stop that has not been reached at the opening of the last bar is at the market of the next one. -/
theorem isMarket_of_isClear {o : Order α} {bid ask : α}
    (high : last.openPrice ≤ last.high) {spread : α}
    (clear : o.IsClear last.openPrice (last.openPrice + spread)) (market : o.kind.isPending = false)
    (set : 0 < o.stopLoss)
    (steady : o.kind = .sell → last.low + larger (ask - bid) 0 ≤ last.openPrice + spread) :
    o.kind.IsMarket last bid ask o.stopLoss := by
  have level := (Linear.defined_of_le (Linear.le_of_lt set)).2
  have opening := (Linear.defined_of_le high).1
  unfold Order.IsClear at clear
  unfold OrderKind.IsMarket
  cases hk : o.kind with
  | buy =>
    rw [hk] at clear
    have above := Linear.le_of_not_le opening level (clear set)
    exact Linear.le_trans (Linear.le_trans above high)
      (Linear.le_larger_left (Linear.defined_of_le high).2)
  | sell =>
    rw [hk] at clear
    have room := steady hk
    have below := Linear.le_of_not_le level (Linear.defined_of_le room).2 (clear set)
    exact Linear.le_trans (Linear.smaller_le_left (Linear.defined_of_le room).1)
      (Linear.le_trans room below)
  | buyLimit | sellLimit | buyStop | sellStop =>
    rw [hk] at market
    cases market

/-- What the market ends on a bar, in a book that was watched on the bar before. -/
theorem Watched.settlement_exits (w : Watched before b) (ascends : b.Ascends)
    (opening : QuotedAt b.account.spread last before) (now : QuotedAt b.account.spread bar q)
    (hbar : q.lastBar = some last) (high : last.openPrice ≤ last.high) {e : TradeEvent α}
    (he : e ∈ ((b.settleEntries q).settleExits q).events.toList) (exit : e.event.isExit = true) :
    e ∈ b.events.toList ∨ PricedExit b.account last bar
      ((b.settleEntries q).settleExits q).events.toList e := by
  have entries := settleEntries_changes ascends q
  have exits := settleExits_changes (entries.ascends ascends) q
  have ends := (settleExits_endsBy (b.settleEntries q) hbar).drop
  rw [ends.1] at he
  rcases List.mem_append.mp he with old | new
  · exact .inl (settleEntries_quiet ascends hbar old exit)
  right
  obtain ⟨o, ho, ended⟩ := ends.2 e new
  refine ⟨ended.time.trans now.time, ?_⟩
  obtain ⟨market, priced⟩ := Order.isMarket_of_exitPrice? ended.price
  rw [now.bid, now.ask] at priced
  rw [ended.order]
  rcases priced with dealt | ⟨stopped, set⟩
  · exact .inl dealt
  rw [ended.stopLoss, ended.ticket, stopped]
  rcases settleEntries_open ascends hbar ho with kept | ⟨-, filled⟩
  · have within (least : 0 ≤ b.account.minimumStop) :
        o.kind.IsWithin last.openPrice (last.openPrice + b.account.spread) o.stopLoss := by
      have := w.within least o kept market set
      rwa [opening.bid, opening.ask] at this
    rcases w.stops o kept with clear | put
    · rw [opening.bid, opening.ask] at clear
      by_cases grown : o.kind = .sell ∧ SpreadGrows b.account.spread last bar
      · exact .inr ⟨rfl, .inr ⟨.inr grown, within⟩⟩
      · refine .inl (isMarket_of_isClear high clear market set fun sells => ?_)
        exact not_not.mp (not_and.mp grown sells)
    · rw [opening.time] at put
      exact .inr ⟨rfl, .inr ⟨.inl (put.mono (Changes.events_prefix (entries.trans exits))), within⟩⟩
  · rw [now.time] at filled
    exact .inr ⟨rfl, .inl (filled.mono exits.events_prefix)⟩

theorem Watched.settlement (w : Watched before b) (ascends : b.Ascends)
    (now : QuotedAt b.account.spread bar q) (hbar : q.lastBar = some last)
    (later : before.time ≤ bar.time) (opening : bar.openPrice ≤ bar.openPrice)
    (nonneg : 0 ≤ b.account.spread) :
    Watched q (((b.settleEntries q).settleExits q).bookSwap bar.time) := by
  have entered := (settleEntries_changes ascends q).ascends ascends
  refine (watched_settleExits entered hbar (fun o ho => ?_) ?_ ?_ nonneg).bookSwap bar.time
  · rcases settleEntries_open ascends hbar ho with kept | ⟨filled, -⟩
    · rw [now.time]
      exact (w.timely o kept).trans later
    · exact filled.le
  · rw [now.ask, now.bid]
  · rwa [now.bid]

end NextBar

end OrderBook

namespace InstanceRun

variable {α σ : Type} [Arith α]

theorem consult_book (c : RunScope α) (h : EngineHost α σ) (r : InstanceRun α σ) (q : Quote α)
    (bar : Bar α) :
    ∃ records, (r.consult c h q bar).2.1.book = (r.book.applyRecords records q).1 := by
  unfold consult
  split
  next =>
    split
    next => exact ⟨[], rfl⟩
    next h' answer _ =>
      dsimp only
      split
      next => exact ⟨answer.records, rfl⟩
      next => exact ⟨[], rfl⟩
  next => exact ⟨[], rfl⟩

theorem settleBar_quotedAt (r : InstanceRun α σ) (bar : Bar α) :
    OrderBook.QuotedAt r.plan.account.spread bar (r.settleBar bar).2 := ⟨rfl, rfl, rfl⟩

theorem settleBar_lastBar (r : InstanceRun α σ) (bar : Bar α) :
    (r.settleBar bar).2.lastBar = if r.cursor = 0 then none else r.primary.bar? (r.cursor - 1) := rfl

/-- Each exit is on a bar of the history, at a price that this bar and the one before account for. -/
def ExitsPriced (p : InstancePlan α σ) (events : List (TradeEvent α)) : Prop :=
  ∀ e ∈ events, e.event.isExit = true →
    ∃ i last bar, p.rates.primary.bar? i = some last ∧ p.rates.primary.bar? (i + 1) = some bar ∧
      OrderBook.PricedExit p.account last bar events e

theorem ExitsPriced.grow {p : InstancePlan α σ} {events more : List (TradeEvent α)}
    (priced : ExitsPriced p events) (hle : events <+: more)
    (fresh : ∀ e ∈ more, e.event.isExit = true → e ∈ events ∨
      ∃ i last bar, p.rates.primary.bar? i = some last ∧ p.rates.primary.bar? (i + 1) = some bar ∧
        OrderBook.PricedExit p.account last bar more e) : ExitsPriced p more := by
  intro e he exit
  rcases fresh e he exit with old | new
  · obtain ⟨i, last, bar, hlast, hbar, exited⟩ := priced e old exit
    exact ⟨i, last, bar, hlast, hbar, exited.mono hle⟩
  · exact new

/-- The book of a run that goes on with the bar at its cursor: there was no bar yet, or the book is watched
at the opening of the last one. -/
def Watches (p : InstancePlan α σ) (cursor : Nat) (b : OrderBook α) : Prop :=
  cursor = 0 ∧ b.openOrders = [] ∨
    ∃ i last q, cursor = i + 1 ∧ p.rates.primary.bar? i = some last ∧
      OrderBook.QuotedAt p.account.spread last q ∧ OrderBook.Watched q b

/-- A run whose exits are priced, and whose book is watched if it goes on. -/
structure Tended (c : RunScope α) (p : InstancePlan α σ) (r : InstanceRun α σ) : Prop where
  plan : r.plan = p
  changes : OrderBook.Changes (emptyBook c p) r.book
  watches : r.state = .running → Watches p r.cursor r.book
  exits : ExitsPriced p r.book.events.toList

namespace Tended

variable {c : RunScope α} {p : InstancePlan α σ} {r : InstanceRun α σ}

theorem start (c : RunScope α) (p : InstancePlan α σ) (h : EngineHost α σ) :
    Tended c p ((ofPlan c p).start c h).2.1 := by
  obtain ⟨state, failure, hrun⟩ := start_run c h (ofPlan c p)
  rw [hrun]
  exact ⟨rfl, .refl, fun _ => .inl ⟨rfl, rfl⟩, fun e he => absurd he List.not_mem_nil⟩

theorem account (m : Tended c p r) : r.book.account = p.account := m.changes.sameTerms.account

variable [Linear α] (increasing : p.rates.primary.Increasing)
  (bars : ∀ bar ∈ p.rates.primary.toList, bar.openPrice ≤ bar.high) (nonneg : 0 ≤ p.account.spread)

include increasing bars nonneg

theorem settleBar (m : Tended c p r) (running : r.state = .running) {bar : Bar α}
    (hbar : p.rates.primary.bar? r.cursor = some bar) :
    OrderBook.Watched (r.settleBar bar).2 (r.settleBar bar).1.book ∧
      ExitsPriced p (r.settleBar bar).1.book.events.toList := by
  have ascends := m.changes.ascends (OrderBook.empty_ascends ..)
  have grows := OrderBook.Changes.events_prefix (r.settleBar_changes ascends bar)
  have now := r.settleBar_quotedAt bar
  have lastBar := r.settleBar_lastBar bar
  rw [InstanceRun.primary, m.plan] at lastBar
  rw [m.plan] at now
  have book := r.settleBar_book bar
  generalize (r.settleBar bar).1.book = settled at book grows ⊢
  generalize (r.settleBar bar).2 = q at now lastBar book ⊢
  subst book
  rcases m.watches running with ⟨hcursor, idle⟩ | ⟨i, last, before, hcursor, hlast, opening, watched⟩
  · rw [if_pos hcursor] at lastBar
    have entries : r.book.settleEntries q = r.book := by
      unfold OrderBook.settleEntries
      rw [lastBar]
    have exits : r.book.settleExits q = r.book := by
      unfold OrderBook.settleExits
      rw [lastBar]
    rw [entries, exits, OrderBook.bookSwap_events]
    have none_open (o : Order α) : o ∉ r.book.openOrders := by
      rw [idle]
      exact List.not_mem_nil
    have watched : OrderBook.Watched q r.book :=
      ⟨fun o ho => absurd ho (none_open o), fun o ho => absurd ho (none_open o),
        fun _ o ho => absurd ho (none_open o)⟩
    exact ⟨watched.bookSwap bar.time, m.exits⟩
  · rw [if_neg (by omega), hcursor, Nat.add_sub_cancel, hlast] at lastBar
    rw [← m.account] at opening now nonneg
    have high (bar : Bar α) {i : Nat} (hi : p.rates.primary.bar? i = some bar) :
        bar.openPrice ≤ bar.high :=
      bars bar (Array.mem_toList_iff.mpr (Array.mem_of_getElem? hi))
    have later : before.time ≤ bar.time := by
      rw [opening.time]
      exact (increasing.time_lt hlast hbar (by omega)).le
    refine ⟨watched.settlement ascends now lastBar later (Linear.defined_of_le (high bar hbar)).1 nonneg,
      m.exits.grow grows fun e he exit => ?_⟩
    rw [OrderBook.bookSwap_events] at he ⊢
    rcases watched.settlement_exits ascends opening now lastBar (high last hlast) he exit with old | new
    · exact .inl old
    · rw [m.account] at new
      exact .inr ⟨i, last, bar, hlast, hcursor ▸ hbar, new⟩

/-- The engine's answer keeps watch, and ends no order for the market. -/
theorem ask (m : Tended c p r) (running : r.state = .running) {bar : Bar α}
    (hbar : p.rates.primary.bar? r.cursor = some bar) (h : EngineHost α σ) :
    OrderBook.Watched (r.settleBar bar).2 (r.ask c h bar).2.1.book ∧
      ExitsPriced p (r.ask c h bar).2.1.book.events.toList := by
  have ascends := m.changes.ascends (OrderBook.empty_ascends ..)
  have grows := OrderBook.Changes.events_prefix (ask_changes (c := c) (h := h) ascends bar).2
  obtain ⟨watched, exits⟩ := m.settleBar increasing bars nonneg running hbar
  obtain ⟨records, asked⟩ := consult_book c h (r.settleBar bar).1 (r.settleBar bar).2 bar
  have answering := watched.applyRecords records
  rw [← asked] at answering
  exact ⟨answering.toWatched, exits.grow grows fun e he exit => .inl (answering.exits e he exit)⟩

theorem takeBar (m : Tended c p r) (running : r.state = .running) {bar : Bar α}
    (hbar : p.rates.primary.bar? r.cursor = some bar) (h : EngineHost α σ) :
    Tended c p (r.takeBar c h bar).2.1 := by
  have ascends := m.changes.ascends (OrderBook.empty_ascends ..)
  obtain ⟨watched, exits⟩ := m.ask increasing bars nonneg running hbar h
  have quoted := r.settleBar_quotedAt bar
  rw [m.plan] at quoted
  refine ⟨(takeBar_plan c h r bar).trans m.plan, m.changes.trans (takeBar_changes ascends bar),
    fun goes_on => .inr ?_, ?_⟩
  · rw [takeBar_book]
    refine ⟨r.cursor, bar, _, ?_, hbar, quoted, watched⟩
    rcases takeBar_cases c h r bar with ⟨f, -, heq⟩ | ⟨-, -, heq⟩
    · rw [heq] at goes_on
      cases goes_on
    · rw [heq, finishBar_eq]
      exact congrArg (· + 1) (ask_cursor c h r bar)
  · rw [takeBar_book]
    exact exits

theorem step (m : Tended c p r) (stopped : Bool) (h : EngineHost α σ) :
    Tended c p (r.step c stopped h).2.1 := by
  have m' : Tended c p { r with stepEvents := [] } := ⟨m.plan, m.changes, m.watches, m.exits⟩
  rcases step_cases c stopped h r with
    ⟨-, heq⟩ | ⟨-, -, heq⟩ | ⟨-, -, -, heq⟩ | ⟨bar, running, -, hbar, heq⟩
  · rw [heq]
    exact m'
  · rw [heq]
    exact { m with watches := nofun }
  · rw [heq]
    exact { m with watches := nofun }
  · rw [heq]
    rw [InstanceRun.primary, m.plan] at hbar
    exact m'.takeBar increasing bars nonneg running hbar h

end Tended

/-- Whatever its engine answers, the market ends an order of a run at a price at which it has dealt on the
last bar or deals now, at one that is worse for the order, or at the order's own stop while that is new: the
order has just been filled, or the stop was put on the last bar, and not beyond the price of entry there.
Where the spread is rounded up, a sale's stop may count as new for longer. -/
theorem play_exits_priced [Linear α] {p : InstancePlan α σ} (increasing : p.rates.primary.Increasing)
    (bars : ∀ bar ∈ p.rates.primary.toList, bar.openPrice ≤ bar.high) (nonneg : 0 ≤ p.account.spread)
    (c : RunScope α) (stop : StopPoint) (h : EngineHost α σ) (n : Nat) :
    ExitsPriced p ((ofPlan c p).play c stop n h).2.1.book.events.toList := by
  have m : Tended c p ((ofPlan c p).play c stop n h).2.1 :=
    play_induction (P := fun _ r => Tended c p r) (Tended.start c p h)
      (fun h _ m _ => m.step increasing bars nonneg _ h) n
  exact m.exits

section Sample

def levelBar (time : Int) (price : Float) : Bar Float := ⟨time, price, price, price, price, 0, 0, 0⟩

def fallenPrices : Series Float := #[levelBar 0 1.1, levelBar 60 1.05, levelBar 120 1.05]

/-- A purchase that waits for a lower price, with a stop that the jump leaves above the market. -/
def jumpedPurchase : InstancePlan Float (ScriptLog Float) :=
  let plan := samplePlan [(0, .place .buyLimit 1 1.095 0.005 0)]
  { plan with rates := { plan.rates with primary := fallenPrices } }

def playJumpedPurchase : InstanceRun Float (ScriptLog Float) :=
  ((ofPlan sampleScope jumpedPurchase).play sampleScope none 3 (.empty (Script.log 0) 0)).2.1

theorem jumpedPurchase_exits_priced :
    jumpedPurchase.rates.primary.Increasing ∧
      (∀ bar ∈ jumpedPurchase.rates.primary.toList, bar.openPrice ≤ bar.high) ∧
      0 ≤ jumpedPurchase.account.spread ∧
      (∃ e ∈ playJumpedPurchase.book.events.toList, e.event.isExit = true) ∧
      ExitsPriced jumpedPurchase playJumpedPurchase.book.events.toList := by
  have increasing : jumpedPurchase.rates.primary.Increasing := by
    unfold Series.Increasing
    decide +kernel
  have bars : ∀ bar ∈ jumpedPurchase.rates.primary.toList, bar.openPrice ≤ bar.high := by
    decide +kernel
  have nonneg : 0 ≤ jumpedPurchase.account.spread := by decide +kernel
  refine ⟨increasing, bars, nonneg, by decide +kernel, ?_⟩
  unfold playJumpedPurchase
  exact play_exits_priced increasing bars nonneg sampleScope none (.empty (Script.log 0) 0) 3

/-- The order is filled after the jump and stopped at once, above all that the market has paid on the last
bar and pays now. -/
theorem filled_stop_above_market :
    (∀ bar ∈ jumpedPurchase.rates.primary.toList,
        bar.low ≤ bar.openPrice ∧ bar.close ≤ bar.high) ∧
      0 ≤ jumpedPurchase.account.spread ∧
      ∃ last bar, jumpedPurchase.rates.primary.bar? 1 = some last ∧
        jumpedPurchase.rates.primary.bar? 2 = some bar ∧
        ∃ e ∈ playJumpedPurchase.book.events.toList, e.time = bar.time ∧ e.event = .stopLoss ∧
          e.order = .buy ∧ ¬ e.price ≤ larger last.high bar.openPrice := by
  refine ⟨by decide +kernel, by decide +kernel, levelBar 60 1.05, levelBar 120 1.05, rfl, rfl, ?_⟩
  decide +kernel

end Sample

end InstanceRun
end Backtest
