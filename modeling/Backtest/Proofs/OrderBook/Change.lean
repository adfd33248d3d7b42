import Backtest.OrderBook.Actions
import Backtest.OrderBook.Settlement
import Mathlib.Logic.Relation

namespace Backtest

@[simp] theorem OrderKind.isBuy_filled (k : OrderKind) : k.filled.isBuy = k.isBuy := by cases k <;> rfl

namespace OrderBook

variable {α : Type}

section Fields

variable (b : OrderBook α) (o : Order α) (event : EventKind) (time : Int) (price profit gross : α)

@[simp] theorem record_openOrders :
    (b.record o event time price profit gross).openOrders = b.openOrders := rfl

@[simp] theorem record_closedOrders :
    (b.record o event time price profit gross).closedOrders = b.closedOrders := rfl

@[simp] theorem record_nextTicket :
    (b.record o event time price profit gross).nextTicket = b.nextTicket := rfl

@[simp] theorem record_orderLimit :
    (b.record o event time price profit gross).orderLimit = b.orderLimit := rfl

@[simp] theorem record_counters :
    (b.record o event time price profit gross).counters = b.counters := rfl

@[simp] theorem record_balance :
    (b.record o event time price profit gross).balance = b.balance := rfl

@[simp] theorem record_initialBalance :
    (b.record o event time price profit gross).initialBalance = b.initialBalance := rfl

end Fields

/-- Open orders stand in the order of their tickets, all of them issued. -/
structure Ascends (b : OrderBook α) : Prop where
  sorted : b.openOrders.Pairwise (·.ticket < ·.ticket)
  issued : ∀ o ∈ b.openOrders, o.ticket < b.nextTicket

theorem Ascends.ne {b : OrderBook α} (h : b.Ascends) :
    b.openOrders.Pairwise (·.ticket ≠ ·.ticket) :=
  h.sorted.imp fun hlt => Int.ne_of_lt hlt

theorem Ascends.eq_of_ticket {b : OrderBook α} (h : b.Ascends) {o p : Order α}
    (ho : o ∈ b.openOrders) (hp : p ∈ b.openOrders) (he : o.ticket = p.ticket) : o = p := by
  obtain ⟨i, hi, rfl⟩ := List.mem_iff_getElem.mp ho
  obtain ⟨j, hj, rfl⟩ := List.mem_iff_getElem.mp hp
  rcases Nat.lt_trichotomy i j with hlt | heq | hlt
  · exact absurd he (List.pairwise_iff_getElem.mp h.ne i j hi hj hlt)
  · simp only [heq]
  · exact absurd he.symm (List.pairwise_iff_getElem.mp h.ne j i hj hi hlt)

theorem Ascends.filter {b b' : OrderBook α} (h : b.Ascends) {keep : Order α → Bool}
    (ho : b'.openOrders = b.openOrders.filter keep) (hn : b'.nextTicket = b.nextTicket) :
    b'.Ascends := by
  refine ⟨?_, ?_⟩
  · rw [ho]
    exact h.sorted.sublist List.filter_sublist
  · intro o hmem
    rw [ho] at hmem
    rw [hn]
    exact h.issued o (List.mem_filter.mp hmem).1

theorem Ascends.map {b b' : OrderBook α} (h : b.Ascends) {f : Order α → Order α}
    (hf : ∀ o, (f o).ticket = o.ticket) (ho : b'.openOrders = b.openOrders.map f)
    (hn : b'.nextTicket = b.nextTicket) : b'.Ascends := by
  refine ⟨?_, ?_⟩
  · rw [ho, List.pairwise_map]
    exact h.sorted.imp fun hlt => by simpa only [hf] using hlt
  · intro o hmem
    rw [ho] at hmem
    obtain ⟨p, hp, rfl⟩ := List.mem_map.mp hmem
    rw [hf, hn]
    exact h.issued p hp

theorem replaced_ticket (new p : Order α) :
    (if p.ticket = new.ticket then new else p).ticket = p.ticket := by
  split
  next h => exact h.symm
  next => rfl

theorem mem_drop_of_ne {b : OrderBook α} {p : Order α} {ticket : Int} (hp : p ∈ b.openOrders)
    (hne : p.ticket ≠ ticket) : p ∈ (b.drop ticket).openOrders :=
  List.mem_filter.mpr ⟨hp, by simpa using hne⟩

theorem mem_replace_of_ne {b : OrderBook α} {o p : Order α} (hp : p ∈ b.openOrders)
    (hne : p.ticket ≠ o.ticket) : p ∈ (b.replace o).openOrders :=
  List.mem_map.mpr ⟨p, hp, if_neg hne⟩

variable [Arith α]

def enter (b : OrderBook α) (o : Order α) (time : Int) : OrderBook α :=
  { b with
    nextTicket := b.nextTicket + 1
    counters := b.counters.add o.kind.isBuy
    openOrders := b.openOrders ++ [o] }.record o .opened time o.openPrice 0 0

def movedEntry (o : Order α) (r : Instruction α) : Order α :=
  if o.kind.isPending && r.entryPrice > 0 then { o with openPrice := r.entryPrice } else o

/-- The price from which an update counts its distances. -/
def updateBase (o : Order α) (q : Quote α) : α :=
  match o.kind with
  | .buy => q.ask
  | .sell => q.bid
  | _ => o.openPrice

def updated (b : OrderBook α) (o : Order α) (r : Instruction α) (q : Quote α) : Order α :=
  let o := movedEntry o r
  { o with
    stopLoss := b.updatedLevel (updateBase o q) (-o.kind.direction) r.stopDistance o.stopLoss
    takeProfit := b.updatedLevel (updateBase o q) o.kind.direction r.profitDistance o.takeProfit
    expiration := if r.expiration > 0 then Arith.toInt64 r.expiration else o.expiration }

def filledOrder (o : Order α) (time : Int) : Order α :=
  { o with kind := o.kind.filled, openTime := time }

def closedOrder (b : OrderBook α) (o : Order α) (price : α) (q : Quote α) : Order α :=
  { o with
    isOpen := false
    closeTime := q.time
    closePrice := price
    profit := o.priceProfit b.account.contractSize price q.conversion + o.swap - o.commission }

def file (b : OrderBook α) (o : Order α) (price : α) (q : Quote α) : OrderBook α :=
  { b.drop o.ticket with
    balance := b.balance + (b.closedOrder o price q).profit
    heldSeconds := b.heldSeconds + Arith.ofInt (q.time - o.openTime)
    closeCount := b.closeCount + 1
    closedOrders := b.closedOrders.push (b.closedOrder o price q) }

theorem updateOrder_eq (b : OrderBook α) (o : Order α) (r : Instruction α) (q : Quote α) :
    b.updateOrder o r q = (b.replace (b.updated o r q)).record (b.updated o r q) .modified q.time
      (updateBase (movedEntry o r) q) 0 0 := rfl

theorem fill_eq (b : OrderBook α) (o : Order α) (time : Int) :
    b.fill o time = (b.replace (filledOrder o time)).record (filledOrder o time) .filled time
      o.openPrice 0 0 := rfl

theorem settle_eq (b : OrderBook α) {o : Order α} {q : Quote α} (h : o.openTime ≤ q.time) (price : α)
    (event : EventKind) :
    b.settle o price q event = (b.file o price q).record (b.closedOrder o price q) event q.time
      price (b.closedOrder o price q).profit
      (o.priceProfit b.account.contractSize price q.conversion) := by
  unfold settle
  rw [if_neg (Int.not_lt.mpr h)]
  rfl

theorem settle_of_not_le (b : OrderBook α) {o : Order α} {q : Quote α} (h : ¬ o.openTime ≤ q.time)
    (price : α) (event : EventKind) : b.settle o price q event = b := by
  unfold settle
  rw [if_pos (Int.not_le.mp h)]

@[simp] theorem movedEntry_ticket (o : Order α) (r : Instruction α) :
    (movedEntry o r).ticket = o.ticket := by
  unfold movedEntry
  split <;> rfl

@[simp] theorem movedEntry_kind (o : Order α) (r : Instruction α) :
    (movedEntry o r).kind = o.kind := by
  unfold movedEntry
  split <;> rfl

@[simp] theorem movedEntry_isOpen (o : Order α) (r : Instruction α) :
    (movedEntry o r).isOpen = o.isOpen := by
  unfold movedEntry
  split <;> rfl

@[simp] theorem updated_ticket (b : OrderBook α) (o : Order α) (r : Instruction α) (q : Quote α) :
    (b.updated o r q).ticket = o.ticket := movedEntry_ticket o r

@[simp] theorem updated_kind (b : OrderBook α) (o : Order α) (r : Instruction α) (q : Quote α) :
    (b.updated o r q).kind = o.kind := movedEntry_kind o r

@[simp] theorem updated_isOpen (b : OrderBook α) (o : Order α) (r : Instruction α) (q : Quote α) :
    (b.updated o r q).isOpen = o.isOpen := movedEntry_isOpen o r

@[simp] theorem withSwap_ticket (b : OrderBook α) (time : Int) (o : Order α) :
    (b.withSwap time o).ticket = o.ticket := by
  unfold withSwap
  split <;> rfl

@[simp] theorem withSwap_kind (b : OrderBook α) (time : Int) (o : Order α) :
    (b.withSwap time o).kind = o.kind := by
  unfold withSwap
  split <;> rfl

@[simp] theorem withSwap_isOpen (b : OrderBook α) (time : Int) (o : Order α) :
    (b.withSwap time o).isOpen = o.isOpen := by
  unfold withSwap
  split <;> rfl

@[simp] theorem withSwap_openTime (b : OrderBook α) (time : Int) (o : Order α) :
    (b.withSwap time o).openTime = o.openTime := by
  unfold withSwap
  split <;> rfl

@[simp] theorem withSwap_stopLoss (b : OrderBook α) (time : Int) (o : Order α) :
    (b.withSwap time o).stopLoss = o.stopLoss := by
  unfold withSwap
  split <;> rfl

/-- One change of a book. -/
inductive Change : OrderBook α → OrderBook α → Prop
  | enter (b kind r q lots price) : b.openOrders.length < b.orderLimit →
      Change b (b.enter (b.newOrder kind r q lots price) q.time)
  | cancel {b o} (time : Int) : o ∈ b.openOrders → o.kind.isPending = true →
      Change b (b.cancel o time)
  | settle {b o} (price q event) : o ∈ b.openOrders → o.kind.isPending = false →
      o.openTime ≤ q.time → event.isClose = true → Change b (b.settle o price q event)
  | update {b o} (r q) : o ∈ b.openOrders → Change b (b.updateOrder o r q)
  | fill {b o} (time : Int) : o ∈ b.openOrders → o.kind.isPending = true →
      Change b (b.fill o time)
  | swap (b) (time : Int) : Change b
      { b with openOrders := b.openOrders.map (b.withSwap time), lastSwapTime := time }

abbrev Changes : OrderBook α → OrderBook α → Prop := Relation.ReflTransGen Change

theorem Change.ascends {b b' : OrderBook α} (c : Change b b') (h : b.Ascends) : b'.Ascends := by
  cases c with
  | enter kind r q lots price room =>
    refine ⟨?_, ?_⟩
    · apply List.pairwise_append.mpr
      refine ⟨h.sorted, List.pairwise_singleton _ _, ?_⟩
      intro o ho p hp
      cases List.mem_singleton.mp hp
      exact h.issued o ho
    · intro o ho
      change o.ticket < b.nextTicket + 1
      rcases List.mem_append.mp ho with ho | ho
      · have := h.issued o ho
        omega
      · cases List.mem_singleton.mp ho
        exact Int.lt_succ b.nextTicket
  | cancel time ho hp => exact h.filter rfl rfl
  | settle price q event ho hp ht he =>
    rw [settle_eq b ht]
    exact h.filter rfl rfl
  | update r q ho => exact h.map (replaced_ticket _) rfl rfl
  | fill time ho hp => exact h.map (replaced_ticket _) rfl rfl
  | swap time => exact h.map (withSwap_ticket b time) rfl rfl

theorem Changes.ascends {b b' : OrderBook α} (c : Changes b b') (h : b.Ascends) : b'.Ascends := by
  induction c with
  | refl => exact h
  | tail _ step ih => exact step.ascends ih

/-- A close that succeeds treats the orders that it addresses, the newest first. -/
theorem close_ok {b b' : OrderBook α} {kind : OrderKind} {ticket : Int} {q : Quote α}
    (h : b.close kind ticket q = .ok b') :
    ∃ found, b.addressedBy kind ticket = .ok found ∧
      b' = found.reverse.foldl (fun b o => b.closeOrder o q) b := by
  unfold close at h
  cases hf : b.addressedBy kind ticket with
  | error f => simp [hf, bind, Except.bind] at h
  | ok found =>
    simp only [hf, bind, Except.bind, pure, Except.pure, Except.ok.injEq] at h
    exact ⟨found, rfl, h.symm⟩

/-- An update that succeeds treats the orders that it addresses, the oldest first. -/
theorem update_ok {b b' : OrderBook α} {kind : OrderKind} {ticket : Int} {r : Instruction α}
    {q : Quote α} (h : b.update kind ticket r q = .ok b') :
    ∃ found, b.addressedBy kind ticket = .ok found ∧
      b' = found.foldl (fun b o => b.updateOrder o r q) b := by
  unfold update at h
  cases hf : b.addressedBy kind ticket with
  | error f => simp [hf, bind, Except.bind] at h
  | ok found =>
    simp only [hf, bind, Except.bind, pure, Except.pure, Except.ok.injEq] at h
    exact ⟨found, rfl, h.symm⟩

theorem place_of_act {b b' : OrderBook α} {kind : OrderKind} {r : Instruction α} {q : Quote α}
    (h : b.act q (.place kind r) = .ok b') : ∃ ticket, b.place kind r q = .ok (b', ticket) := by
  cases hp : b.place kind r q with
  | error f => simp [act, hp, Except.map] at h
  | ok placed =>
    obtain ⟨p, ticket⟩ := placed
    simp only [act, hp, Except.map, Except.ok.injEq] at h
    exact ⟨ticket, by rw [h]⟩

/-- What a book keeps from its start on. -/
structure SameTerms (b b' : OrderBook α) : Prop where
  account : b'.account = b.account
  orderLimit : b'.orderLimit = b.orderLimit
  initialBalance : b'.initialBalance = b.initialBalance

theorem Change.sameTerms {b b' : OrderBook α} (c : Change b b') : SameTerms b b' := by
  cases c with
  | settle price q event ho hk ht he =>
    rw [settle_eq b ht]
    exact ⟨rfl, rfl, rfl⟩
  | _ => exact ⟨rfl, rfl, rfl⟩

theorem Changes.sameTerms {b b' : OrderBook α} (c : Changes b b') : SameTerms b b' := by
  induction c with
  | refl => exact ⟨rfl, rfl, rfl⟩
  | tail _ step ih =>
    have last := step.sameTerms
    exact ⟨last.account.trans ih.account, last.orderLimit.trans ih.orderLimit,
      last.initialBalance.trans ih.initialBalance⟩

theorem Change.events_prefix {b b' : OrderBook α} (c : Change b b') :
    b.events.toList <+: b'.events.toList := by
  have pushed (e : TradeEvent α) : b.events.toList <+: (b.events.push e).toList := by
    rw [Array.toList_push]
    exact List.prefix_append _ _
  cases c with
  | settle price q event ho hk ht he =>
    rw [settle_eq b ht]
    exact pushed _
  | swap time => exact List.prefix_refl _
  | _ => exact pushed _

theorem Changes.events_prefix {b b' : OrderBook α} (c : Changes b b') :
    b.events.toList <+: b'.events.toList := by
  induction c with
  | refl => exact List.prefix_refl _
  | tail _ step ih => exact ih.trans step.events_prefix

/-- The treatment of an order: a chain of changes, after which the other open orders are as before. -/
structure Treats (f : OrderBook α → Order α → OrderBook α) : Prop where
  changes : ∀ b o, o ∈ b.openOrders → Changes b (f b o)
  keeps : ∀ b o p, p ∈ b.openOrders → p.ticket ≠ o.ticket → p ∈ (f b o).openOrders

/-- Treating open orders one by one, each of them once, is a chain of changes. -/
theorem Treats.foldl {f : OrderBook α → Order α → OrderBook α} (treats : Treats f)
    {l : List (Order α)} (distinct : l.Pairwise (·.ticket ≠ ·.ticket)) {b : OrderBook α}
    (mem : ∀ o ∈ l, o ∈ b.openOrders) : Changes b (l.foldl f b) := by
  induction l generalizing b with
  | nil => exact .refl
  | cons o l ih =>
    obtain ⟨hne, hl⟩ := List.pairwise_cons.mp distinct
    refine (treats.changes b o (mem o (by simp))).trans (ih hl ?_)
    intro p hp
    exact treats.keeps b o p (mem p (by simp [hp])) (hne p hp).symm

end OrderBook
end Backtest
