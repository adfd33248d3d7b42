import Backtest.Proofs.OrderBook.Operation

namespace Backtest

namespace TradeCounts

def on (c : TradeCounts) (buy : Bool) : Nat := if buy then c.longs else c.shorts

theorem on_add (c : TradeCounts) (side buy : Bool) :
    (c.add side).on buy = c.on buy + if side = buy then 1 else 0 := by
  cases side <;> cases buy <;> rfl

theorem on_remove (c : TradeCounts) (side buy : Bool) :
    (c.remove side).on buy = c.on buy - if side = buy then 1 else 0 := by
  cases side <;> cases buy <;> rfl

theorem total_add {c : TradeCounts} (h : c.total = c.longs + c.shorts) (side : Bool) :
    (c.add side).total = (c.add side).longs + (c.add side).shorts := by
  cases side <;> simp [add] <;> omega

theorem add_remove {c : TradeCounts} (h : c.total = c.longs + c.shorts) {side : Bool}
    (hc : 0 < c.on side) : (c.remove side).add side = c := by
  obtain ⟨total, longs, shorts⟩ := c
  cases side <;> simp [on, remove, add] at h hc ⊢ <;> omega

theorem total_remove {c : TradeCounts} (h : c.total = c.longs + c.shorts) {side : Bool}
    (hc : 0 < c.on side) :
    (c.remove side).total = (c.remove side).longs + (c.remove side).shorts := by
  cases side <;> simp [on, remove] at hc ⊢ <;> omega

end TradeCounts

namespace OrderBook

variable {α : Type}

/-- The tickets handed out so far, from one on. -/
def issuedTickets (b : OrderBook α) : List Int :=
  (List.range (b.nextTicket - 1).toNat).map fun n : Nat => (n : Int) + 1

def openTickets (b : OrderBook α) : List Int := b.openOrders.map Order.ticket

def closedTickets (b : OrderBook α) : List Int := b.closedOrders.toList.map Order.ticket

/-- Tickets of pending orders that were cancelled. -/
def cancelledTickets (b : OrderBook α) : List Int :=
  (b.events.toList.filter fun e => e.event = .cancelled && e.order.isPending).map TradeEvent.ticket

def ordersOn (b : OrderBook α) (buy : Bool) : Nat :=
  b.openOrders.countP (·.kind.isBuy = buy) + b.closedOrders.toList.countP (·.kind.isBuy = buy)

def eventsOn (b : OrderBook α) (event : EventKind) (buy : Bool) : Nat :=
  b.events.toList.countP fun e => e.event = event && e.order.isBuy = buy

/-- What holds of a book after any operations. -/
structure Sound (b : OrderBook α) : Prop where
  ascends : b.Ascends
  limit : b.openOrders.length ≤ b.orderLimit
  isOpen : ∀ o ∈ b.openOrders, o.isOpen = true
  closed : ∀ o ∈ b.closedOrders.toList,
    o.kind.isPending = false ∧ o.isOpen = false ∧ o.openTime ≤ o.closeTime
  first : 1 ≤ b.nextTicket
  /-- Each ticket is found in one place. -/
  tickets : (b.openTickets ++ b.closedTickets ++ b.cancelledTickets).Perm b.issuedTickets
  total : b.counters.total = b.counters.longs + b.counters.shorts
  counts : ∀ buy, b.counters.on buy = b.ordersOn buy
  /-- No cancellation was lost on a counter that stood at zero. -/
  exact : ∀ buy, b.counters.on buy + b.eventsOn .cancelled buy = b.eventsOn .opened buy

theorem issuedTickets_nodup (b : OrderBook α) : b.issuedTickets.Nodup :=
  List.Pairwise.map _ (fun m n h => by omega) List.nodup_range

theorem mem_issuedTickets {b : OrderBook α} {t : Int} :
    t ∈ b.issuedTickets ↔ 1 ≤ t ∧ t < b.nextTicket := by
  constructor
  · intro h
    obtain ⟨n, hn, rfl⟩ := List.mem_map.mp h
    have := List.mem_range.mp hn
    omega
  · rintro ⟨hl, hu⟩
    refine List.mem_map.mpr ⟨(t - 1).toNat, List.mem_range.mpr ?_, ?_⟩ <;> omega

theorem issuedTickets_succ {b b' : OrderBook α} (h : 1 ≤ b.nextTicket)
    (hn : b'.nextTicket = b.nextTicket + 1) :
    b'.issuedTickets = b.issuedTickets ++ [b.nextTicket] := by
  have next : (b'.nextTicket - 1).toNat = (b.nextTicket - 1).toNat + 1 := by omega
  have last : (((b.nextTicket - 1).toNat : Nat) : Int) + 1 = b.nextTicket := by omega
  simp only [issuedTickets, next, List.range_succ, List.map_append, List.map_singleton, last]

/-- Dropping the ticket of an open order takes out this order only. -/
theorem Ascends.drop_perm {b : OrderBook α} (h : b.Ascends) {o : Order α} (ho : o ∈ b.openOrders) :
    b.openOrders.Perm (o :: (b.drop o.ticket).openOrders) := by
  change b.openOrders.Perm (o :: b.openOrders.filter (·.ticket != o.ticket))
  have distinct := h.ne
  revert ho distinct
  generalize b.openOrders = l
  intro ho distinct
  induction l with
  | nil => cases ho
  | cons p l ih =>
    obtain ⟨hne, hl⟩ := List.pairwise_cons.mp distinct
    rcases List.mem_cons.mp ho with rfl | ho
    · have keep : l.filter (·.ticket != o.ticket) = l := by
        apply List.filter_eq_self.mpr
        intro p hp
        simpa using (hne p hp).symm
      simp [keep]
    · have hpo : p.ticket ≠ o.ticket := hne o ho
      simpa [hpo] using ((ih ho hl).cons p).trans (List.Perm.swap o p _)

/-- Replacing an order by one that agrees with it in some respect keeps that respect of all. -/
theorem Ascends.replace_map {b : OrderBook α} (h : b.Ascends) {o new : Order α} {β : Type}
    {f : Order α → β} (ho : o ∈ b.openOrders) (ht : new.ticket = o.ticket) (hf : f new = f o) :
    (b.replace new).openOrders.map f = b.openOrders.map f := by
  change (b.openOrders.map _).map f = _
  rw [List.map_map]
  apply List.map_congr_left
  intro p hp
  by_cases he : p.ticket = new.ticket
  · have hpo : p = o := h.eq_of_ticket hp ho (he.trans ht)
    subst p
    simp [he, hf]
  · simp [he]

theorem countP_kind (l : List (Order α)) (buy : Bool) :
    l.countP (·.kind.isBuy = buy) = (l.map (·.kind.isBuy)).countP (· = buy) := by
  rw [List.countP_map]
  rfl

theorem countP_sides (l : List (Order α)) :
    l.countP (·.kind.isBuy = true) + l.countP (·.kind.isBuy = false) = l.length := by
  have hl := List.length_eq_countP_add_countP (l := l) fun o : Order α => decide (o.kind.isBuy = true)
  simpa using hl.symm

theorem Sound.total_eq {b : OrderBook α} (h : b.Sound) :
    b.counters.total = b.openOrders.length + b.closedOrders.size := by
  have longs : b.counters.longs = b.ordersOn true := h.counts true
  have shorts : b.counters.shorts = b.ordersOn false := h.counts false
  have opened := countP_sides b.openOrders
  have closed := countP_sides b.closedOrders.toList
  have := h.total
  simp only [ordersOn, Array.length_toList] at longs shorts closed
  omega

/-- An open order is counted, so that taking it out again does not stop at zero. -/
theorem Sound.counted {b : OrderBook α} (h : b.Sound) {o : Order α} (ho : o ∈ b.openOrders) :
    0 < b.counters.on o.kind.isBuy := by
  rw [h.counts]
  have : 0 < b.openOrders.countP (·.kind.isBuy = o.kind.isBuy) :=
    List.countP_pos_iff.mpr ⟨o, ho, by simp⟩
  unfold ordersOn
  omega

/-- What leaves the open orders with an order. -/
theorem Ascends.countP_drop {b : OrderBook α} (h : b.Ascends) {o : Order α} (ho : o ∈ b.openOrders)
    (buy : Bool) :
    b.openOrders.countP (·.kind.isBuy = buy) =
      (b.drop o.ticket).openOrders.countP (·.kind.isBuy = buy) +
        if o.kind.isBuy = buy then 1 else 0 := by
  rw [(h.drop_perm ho).countP_eq, List.countP_cons]
  simp

theorem Ascends.openTickets_drop {b : OrderBook α} (h : b.Ascends) {o : Order α}
    (ho : o ∈ b.openOrders) : b.openTickets.Perm (o.ticket :: (b.drop o.ticket).openTickets) :=
  (h.drop_perm ho).map Order.ticket

section Record

variable (b : OrderBook α) (o : Order α) (event : EventKind) (time : Int) (price profit gross : α)

theorem eventsOn_record (e : EventKind) (buy : Bool) :
    (b.record o event time price profit gross).eventsOn e buy =
      b.eventsOn e buy + if event = e ∧ o.kind.isBuy = buy then 1 else 0 := by
  simp [eventsOn, record, List.countP_append, List.countP_cons]

theorem cancelledTickets_record :
    (b.record o event time price profit gross).cancelledTickets =
      b.cancelledTickets ++ if event = .cancelled ∧ o.kind.isPending then [o.ticket] else [] := by
  simp only [cancelledTickets, record, Array.toList_push, List.filter_append, List.map_append]
  congr 1
  by_cases h : event = .cancelled ∧ o.kind.isPending <;> simp [h]

end Record

variable [Arith α]

theorem Sound.enter {b : OrderBook α} (h : b.Sound) (kind : OrderKind) (r : Instruction α)
    (q : Quote α) (lots price : α) (room : b.openOrders.length < b.orderLimit) :
    (b.enter (b.newOrder kind r q lots price) q.time).Sound where
  ascends := (Change.enter b kind r q lots price room).ascends h.ascends
  limit := by
    change (b.openOrders ++ [b.newOrder kind r q lots price]).length ≤ b.orderLimit
    rw [List.length_append, List.length_singleton]
    exact room
  isOpen o ho := by
    rcases List.mem_append.mp ho with ho | ho
    · exact h.isOpen o ho
    · cases List.mem_singleton.mp ho
      rfl
  closed := h.closed
  first := by
    have := h.first
    change 1 ≤ b.nextTicket + 1
    omega
  tickets := by
    rw [issuedTickets_succ h.first rfl]
    have opened : (b.enter (b.newOrder kind r q lots price) q.time).openTickets =
        b.openTickets ++ [b.nextTicket] := by
      simp [openTickets, OrderBook.enter, newOrder]
    have cancelled : (b.enter (b.newOrder kind r q lots price) q.time).cancelledTickets =
        b.cancelledTickets := by
      unfold OrderBook.enter
      rw [cancelledTickets_record]
      exact List.append_nil _
    rw [opened, cancelled]
    have moved : (b.openTickets ++ [b.nextTicket] ++ b.closedTickets ++ b.cancelledTickets).Perm
        (b.openTickets ++ b.closedTickets ++ b.cancelledTickets ++ [b.nextTicket]) := by
      simp only [List.append_assoc]
      exact (List.perm_append_comm.append_left _).trans (by simp)
    exact moved.trans (h.tickets.append_right _)
  total := TradeCounts.total_add h.total kind.isBuy
  counts buy := by
    change (b.counters.add kind.isBuy).on buy =
      (b.openOrders ++ [b.newOrder kind r q lots price]).countP _ + b.closedOrders.toList.countP _
    rw [TradeCounts.on_add, h.counts]
    simp [ordersOn, newOrder, List.countP_cons]
    omega
  exact buy := by
    have := h.exact buy
    unfold OrderBook.enter
    rw [eventsOn_record, eventsOn_record]
    change (b.counters.add kind.isBuy).on buy + (b.eventsOn _ _ + _) = b.eventsOn _ _ + _
    rw [TradeCounts.on_add]
    simp [newOrder]
    omega

theorem Sound.cancel {b : OrderBook α} (h : b.Sound) {o : Order α} (time : Int)
    (ho : o ∈ b.openOrders) (hk : o.kind.isPending = true) : (b.cancel o time).Sound where
  ascends := (Change.cancel time ho hk).ascends h.ascends
  limit := Nat.le_trans (List.length_filter_le _ _) h.limit
  isOpen p hp := h.isOpen p (List.mem_filter.mp hp).1
  closed := h.closed
  first := h.first
  tickets := by
    have cancelled : (b.cancel o time).cancelledTickets = b.cancelledTickets ++ [o.ticket] := by
      unfold OrderBook.cancel
      rw [cancelledTickets_record, if_pos ⟨rfl, hk⟩]
      rfl
    rw [cancelled]
    change ((b.drop o.ticket).openTickets ++ b.closedTickets ++ (b.cancelledTickets ++ [o.ticket])).Perm
      b.issuedTickets
    have moved : (b.openTickets ++ b.closedTickets ++ b.cancelledTickets).Perm
        ((b.drop o.ticket).openTickets ++ b.closedTickets ++ (b.cancelledTickets ++ [o.ticket])) := by
      have left := ((h.ascends.openTickets_drop ho).append_right b.closedTickets).append_right
        b.cancelledTickets
      have right : ([o.ticket] ++ ((b.drop o.ticket).openTickets ++ b.closedTickets ++
          b.cancelledTickets)).Perm _ := List.perm_append_comm
      simpa only [List.append_assoc] using left.trans right
    exact moved.symm.trans h.tickets
  total := TradeCounts.total_remove h.total (h.counted ho)
  counts buy := by
    change (b.counters.remove o.kind.isBuy).on buy =
      (b.drop o.ticket).openOrders.countP _ + b.closedOrders.toList.countP _
    have split := h.ascends.countP_drop ho buy
    rw [TradeCounts.on_remove, h.counts]
    simp only [ordersOn]
    omega
  exact buy := by
    have counted := h.counted ho
    have := h.exact buy
    unfold OrderBook.cancel
    rw [eventsOn_record, eventsOn_record]
    change (b.counters.remove o.kind.isBuy).on buy + (b.eventsOn _ _ + _) = b.eventsOn _ _ + _
    rw [TradeCounts.on_remove]
    by_cases side : o.kind.isBuy = buy
    · rw [side] at counted
      simp [side]
      omega
    · simp [side]
      omega

theorem Sound.settle {b : OrderBook α} (h : b.Sound) {o : Order α} (price : α) (q : Quote α)
    {event : EventKind} (ho : o ∈ b.openOrders) (hk : o.kind.isPending = false)
    (ht : o.openTime ≤ q.time) (he : event.isClose = true) : (b.settle o price q event).Sound := by
  have notCancelled : event ≠ .cancelled := by rintro rfl; cases he
  have notOpened : event ≠ .opened := by rintro rfl; cases he
  have ascends := (Change.settle price q event ho hk ht he).ascends h.ascends
  rw [settle_eq b ht] at ascends ⊢
  refine ⟨ascends, ?_, ?_, ?_, h.first, ?_, h.total, ?_, ?_⟩
  · exact Nat.le_trans (List.length_filter_le _ _) h.limit
  · exact fun p hp => h.isOpen p (List.mem_filter.mp hp).1
  · intro p hp
    change p ∈ (b.closedOrders.push (b.closedOrder o price q)).toList at hp
    rw [Array.toList_push] at hp
    rcases List.mem_append.mp hp with hp | hp
    · exact h.closed p hp
    · cases List.mem_singleton.mp hp
      exact ⟨hk, rfl, ht⟩
  · rw [cancelledTickets_record, if_neg fun both => notCancelled both.1]
    change ((b.drop o.ticket).openTickets ++
      (b.closedOrders.push (b.closedOrder o price q)).toList.map Order.ticket ++
      (b.cancelledTickets ++ [])).Perm b.issuedTickets
    have filed : (b.closedOrders.push (b.closedOrder o price q)).toList.map Order.ticket =
        b.closedTickets ++ [o.ticket] := by
      simp [closedTickets, closedOrder]
    rw [filed, List.append_nil]
    have moved : (b.openTickets ++ b.closedTickets ++ b.cancelledTickets).Perm
        ((b.drop o.ticket).openTickets ++ (b.closedTickets ++ [o.ticket]) ++ b.cancelledTickets) := by
      apply List.Perm.append_right
      have left := (h.ascends.openTickets_drop ho).append_right b.closedTickets
      have right : ([o.ticket] ++ ((b.drop o.ticket).openTickets ++ b.closedTickets)).Perm _ :=
        List.perm_append_comm
      simpa only [List.append_assoc] using left.trans right
    exact moved.symm.trans h.tickets
  · intro buy
    have split := h.ascends.countP_drop ho buy
    change b.counters.on buy = (b.drop o.ticket).openOrders.countP _ +
      (b.closedOrders.push (b.closedOrder o price q)).toList.countP _
    rw [h.counts]
    have side : (b.closedOrder o price q).kind = o.kind := rfl
    simp only [ordersOn, Array.toList_push, List.countP_append, List.countP_singleton, side,
      decide_eq_true_eq]
    omega
  · intro buy
    rw [eventsOn_record, eventsOn_record, if_neg fun both => notCancelled both.1,
      if_neg fun both => notOpened both.1]
    exact h.exact buy

/-- Replacing an open order by one of the same ticket and side, with an event that is no more than
noted. -/
theorem Sound.replace {b : OrderBook α} (h : b.Sound) {o new : Order α} {event : EventKind}
    {time : Int} {price : α} (ho : o ∈ b.openOrders) (ht : new.ticket = o.ticket)
    (hs : new.kind.isBuy = o.kind.isBuy) (hi : new.isOpen = o.isOpen) (hc : event ≠ .cancelled)
    (hn : event ≠ .opened) : ((b.replace new).record new event time price 0 0).Sound where
  ascends := h.ascends.map (replaced_ticket new) rfl rfl
  limit := by
    change (b.openOrders.map _).length ≤ b.orderLimit
    rw [List.length_map]
    exact h.limit
  isOpen p hp := by
    obtain ⟨old, hold, rfl⟩ := List.mem_map.mp hp
    split
    next => rw [hi, h.isOpen o ho]
    next => exact h.isOpen old hold
  closed := h.closed
  first := h.first
  tickets := by
    rw [cancelledTickets_record, if_neg fun both => hc both.1]
    change ((b.replace new).openOrders.map Order.ticket ++ b.closedTickets ++
      (b.cancelledTickets ++ [])).Perm b.issuedTickets
    rw [h.ascends.replace_map ho ht ht, List.append_nil]
    exact h.tickets
  total := h.total
  counts buy := by
    rw [record_counters]
    change b.counters.on buy =
      (b.replace new).openOrders.countP _ + b.closedOrders.toList.countP _
    rw [countP_kind, h.ascends.replace_map (f := (·.kind.isBuy)) ho ht hs, ← countP_kind]
    exact h.counts buy
  exact buy := by
    rw [eventsOn_record, eventsOn_record, if_neg fun both => hc both.1, if_neg fun both => hn both.1]
    exact h.exact buy

theorem Sound.swap {b : OrderBook α} (h : b.Sound) (time : Int) :
    Sound { b with openOrders := b.openOrders.map (b.withSwap time), lastSwapTime := time } where
  ascends := (Change.swap b time).ascends h.ascends
  limit := by
    rw [List.length_map]
    exact h.limit
  isOpen p hp := by
    obtain ⟨old, hold, rfl⟩ := List.mem_map.mp hp
    rw [withSwap_isOpen]
    exact h.isOpen old hold
  closed := h.closed
  first := h.first
  tickets := by
    have same : (b.openOrders.map (b.withSwap time)).map Order.ticket = b.openTickets := by
      simp [openTickets]
    change ((b.openOrders.map (b.withSwap time)).map Order.ticket ++ _ ++ _).Perm _
    rw [same]
    exact h.tickets
  total := h.total
  counts buy := by
    change b.counters.on buy =
      (b.openOrders.map (b.withSwap time)).countP _ + b.closedOrders.toList.countP _
    rw [h.counts, List.countP_map]
    simp only [Function.comp_def, withSwap_kind]
    rfl
  exact := h.exact

theorem Change.sound {b b' : OrderBook α} (c : Change b b') (h : b.Sound) : b'.Sound := by
  cases c with
  | enter kind r q lots price room => exact h.enter kind r q lots price room
  | cancel time ho hk => exact h.cancel time ho hk
  | settle price q event ho hk ht he => exact h.settle price q ho hk ht he
  | update r q ho =>
    rw [updateOrder_eq]
    exact h.replace ho (updated_ticket ..) (congrArg OrderKind.isBuy (updated_kind ..))
      (updated_isOpen ..) (by simp) (by simp)
  | fill time ho hk =>
    rw [fill_eq]
    exact h.replace ho rfl (OrderKind.isBuy_filled _) rfl (by simp) (by simp)
  | swap time => exact h.swap time

theorem Changes.sound {b b' : OrderBook α} (c : Changes b b') (h : b.Sound) : b'.Sound := by
  induction c with
  | refl => exact h
  | tail _ step ih => exact step.sound ih

theorem empty_sound (instanceId : Int) (account : Account α) (balance : α) (orderLimit : Nat) :
    (empty instanceId account balance orderLimit).Sound where
  ascends := empty_ascends instanceId account balance orderLimit
  limit := Nat.zero_le _
  isOpen o ho := by cases ho
  closed o ho := by cases ho
  first := Int.le_refl 1
  tickets := List.Perm.refl _
  total := rfl
  counts buy := by cases buy <;> rfl
  exact buy := by cases buy <;> rfl

/-- Whatever operations a book went through, and whether they succeeded or failed, its lists hold each
issued ticket once and its counters count the orders that were not cancelled. -/
theorem performAll_invariant (instanceId : Int) (account : Account α) (balance : α)
    (orderLimit : Nat) (operations : List (Operation α)) :
    let b := (empty instanceId account balance orderLimit).performAll operations
    (b.openTickets.Pairwise (· < ·) ∧ b.openOrders.length ≤ max orderLimit 1 ∧
      ∀ o ∈ b.openOrders, o.isOpen = true) ∧
    ((b.openTickets ++ b.closedTickets ++ b.cancelledTickets).Nodup ∧
      ∀ t, t ∈ b.openTickets ++ b.closedTickets ++ b.cancelledTickets ↔ 1 ≤ t ∧ t < b.nextTicket) ∧
    (∀ o ∈ b.closedOrders.toList,
      (o.kind = .buy ∨ o.kind = .sell) ∧ o.isOpen = false ∧ o.openTime ≤ o.closeTime) ∧
    (b.counters.total = b.counters.longs + b.counters.shorts ∧
      b.counters.total = b.openOrders.length + b.closedOrders.size ∧
      ∀ buy, b.counters.on buy = b.ordersOn buy) ∧
    ((∀ buy, b.counters.on buy + b.eventsOn .cancelled buy = b.eventsOn .opened buy) ∧
      ∀ o ∈ b.openOrders, (b.counters.remove o.kind.isBuy).add o.kind.isBuy = b.counters) := by
  intro b
  have start := empty_sound instanceId account balance orderLimit
  have changes : Changes _ b := performAll_changes start.ascends operations
  have sound := changes.sound start
  have limit : b.orderLimit = max orderLimit 1 := changes.sameTerms.orderLimit
  refine ⟨⟨List.pairwise_map.mpr sound.ascends.sorted, limit ▸ sound.limit, sound.isOpen⟩,
    ⟨sound.tickets.nodup_iff.mpr b.issuedTickets_nodup,
      fun t => sound.tickets.mem_iff.trans mem_issuedTickets⟩,
    ?_, ⟨sound.total, sound.total_eq, sound.counts⟩, sound.exact, ?_⟩
  · intro o ho
    obtain ⟨market, closed⟩ := sound.closed o ho
    refine ⟨?_, closed⟩
    cases hk : o.kind <;> simp [hk, OrderKind.isPending] at market ⊢
  · exact fun o ho => TradeCounts.add_remove sound.total (sound.counted ho)

end OrderBook
end Backtest
