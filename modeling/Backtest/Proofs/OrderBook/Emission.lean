import Backtest.Proofs.OrderBook.Change

namespace Backtest

/-- The kinds of events that come about without the engine. -/
def EventKind.isSettlement : EventKind → Bool
  | .filled | .cancelled | .stopLoss | .takeProfit => true
  | .opened | .modified | .closed => false

namespace OrderBook

variable {α : Type}

/-- A book goes over into another by events with a property. -/
def Adds (P : TradeEvent α → Prop) (b b' : OrderBook α) : Prop :=
  ∃ more, b'.events.toList = b.events.toList ++ more ∧ ∀ e ∈ more, P e

namespace Adds

variable {P : TradeEvent α → Prop} {b b' b'' : OrderBook α}

theorem of_eq (h : b'.events = b.events) : Adds P b b' :=
  ⟨[], by rw [h, List.append_nil], fun _ he => absurd he List.not_mem_nil⟩

theorem mono {Q : TradeEvent α → Prop} (h : Adds P b b') (imp : ∀ e, P e → Q e) : Adds Q b b' := by
  obtain ⟨more, hmore, hall⟩ := h
  exact ⟨more, hmore, fun e he => imp e (hall e he)⟩

theorem trans (h : Adds P b b') (h' : Adds P b' b'') : Adds P b b'' := by
  obtain ⟨more, hmore, hall⟩ := h
  obtain ⟨more', hmore', hall'⟩ := h'
  refine ⟨more ++ more', by rw [hmore', hmore, List.append_assoc], fun e he => ?_⟩
  rcases List.mem_append.mp he with he | he
  · exact hall e he
  · exact hall' e he

theorem push {e : TradeEvent α} (h : b'.events = b.events.push e) (he : P e) : Adds P b b' :=
  ⟨[e], by rw [h, Array.toList_push], fun e' he' => List.mem_singleton.mp he' ▸ he⟩

theorem drop (h : Adds P b b') :
    b'.events.toList = b.events.toList ++ b'.events.toList.drop b.events.size ∧
      ∀ e ∈ b'.events.toList.drop b.events.size, P e := by
  obtain ⟨more, hmore, hall⟩ := h
  have hdrop : b'.events.toList.drop b.events.size = more := by
    rw [hmore, ← Array.length_toList, List.drop_left]
  rw [hdrop]
  exact ⟨hmore, hall⟩

theorem foldl {f : OrderBook α → Order α → OrderBook α} (each : ∀ b o, Adds P b (f b o))
    (orders : List (Order α)) (b : OrderBook α) : Adds P b (orders.foldl f b) := by
  induction orders generalizing b with
  | nil => exact of_eq rfl
  | cons o rest ih => exact (each b o).trans (ih (f b o))

end Adds

def Emits (time : Int) (b b' : OrderBook α) : Prop :=
  ∃ more, b'.events.toList = b.events.toList ++ more ∧ ∀ e ∈ more, e.time = time

namespace Emits

variable {time : Int} {b b' b'' : OrderBook α}

theorem of_eq (h : b'.events = b.events) : Emits time b b' := Adds.of_eq h

theorem refl (time : Int) (b : OrderBook α) : Emits time b b := of_eq rfl

theorem trans (h : Emits time b b') (h' : Emits time b' b'') : Emits time b b'' := Adds.trans h h'

theorem drop (h : Emits time b b') :
    b'.events.toList = b.events.toList ++ b'.events.toList.drop b.events.size ∧
      ∀ e ∈ b'.events.toList.drop b.events.size, e.time = time := Adds.drop h

theorem record (h : b'.events = b.events) (o : Order α) (event : EventKind) (time : Int)
    (price profit gross : α) : Emits time b (b'.record o event time price profit gross) := by
  refine Adds.push (e := ⟨time, b'.instanceId, o.ticket, event, o.kind, price, o.lots, o.stopLoss,
    o.takeProfit, profit, gross, b'.balance⟩) ?_ rfl
  rw [← h]
  rfl

theorem foldl {f : OrderBook α → Order α → OrderBook α} (each : ∀ b o, Emits time b (f b o))
    (orders : List (Order α)) (b : OrderBook α) : Emits time b (orders.foldl f b) :=
  Adds.foldl each orders b

end Emits

def SettledAt (time : Int) (e : TradeEvent α) : Prop := e.time = time ∧ e.event.isSettlement = true

variable [Arith α]

theorem settle_emits (b : OrderBook α) (o : Order α) (price : α) (q : Quote α) (event : EventKind) :
    Emits q.time b (b.settle o price q event) := by
  unfold settle
  split
  next => exact .refl q.time b
  next => exact .record rfl _ event q.time _ _ _

theorem closeOrder_emits (b : OrderBook α) (o : Order α) (q : Quote α) :
    Emits q.time b (b.closeOrder o q) := by
  unfold closeOrder
  split
  next => exact .record rfl _ .cancelled q.time _ _ _
  next => exact settle_emits b o _ q .closed

theorem updateOrder_emits (b : OrderBook α) (o : Order α) (r : Instruction α) (q : Quote α) :
    Emits q.time b (b.updateOrder o r q) := by
  rw [updateOrder_eq]
  exact .record rfl _ .modified q.time _ _ _

theorem place_emits {b b' : OrderBook α} {kind : OrderKind} {r : Instruction α} {q : Quote α}
    {ticket : Option Int} (h : b.place kind r q = .ok (b', ticket)) : Emits q.time b b' := by
  unfold place at h
  dsimp only at h
  split at h
  next =>
    cases h
    exact .refl q.time b
  next =>
    split at h
    next => cases h
    next =>
      split at h
      next =>
        cases h
        exact .refl q.time b
      next =>
        cases h
        exact .record rfl _ .opened q.time _ _ _

theorem close_emits {b b' : OrderBook α} {kind : OrderKind} {ticket : Int} {q : Quote α}
    (h : b.close kind ticket q = .ok b') : Emits q.time b b' := by
  obtain ⟨found, -, rfl⟩ := close_ok h
  exact .foldl (fun b o => closeOrder_emits b o q) _ b

theorem update_emits {b b' : OrderBook α} {kind : OrderKind} {ticket : Int} {r : Instruction α}
    {q : Quote α} (h : b.update kind ticket r q = .ok b') : Emits q.time b b' := by
  obtain ⟨found, -, rfl⟩ := update_ok h
  exact .foldl (fun b o => updateOrder_emits b o r q) _ b

theorem act_emits {b b' : OrderBook α} {q : Quote α} {a : Action α} (h : b.act q a = .ok b') :
    Emits q.time b b' := by
  cases a with
  | place kind r =>
    obtain ⟨ticket, placed⟩ := place_of_act h
    exact place_emits placed
  | close kind ticket => exact close_emits h
  | update kind ticket r => exact update_emits h

theorem applyRecords_emits (b : OrderBook α) (records : List (Instruction α)) (q : Quote α) :
    Emits q.time b (b.applyRecords records q).1 := by
  unfold applyRecords
  induction records.flatMap Instruction.actions generalizing b with
  | nil => exact .refl q.time b
  | cons a rest ih =>
    unfold actAll
    split
    next b' h => exact (act_emits h).trans (ih b')
    next => exact .refl q.time b

theorem bookSwap_events (b : OrderBook α) (time : Int) : (b.bookSwap time).events = b.events := by
  unfold bookSwap
  split
  next => rfl
  next => split <;> rfl

theorem settleEntry_adds (b : OrderBook α) (o : Order α) (bar : Bar α) (time : Int) :
    Adds (SettledAt time) b (b.settleEntry o bar time) := by
  unfold settleEntry
  split
  next => exact .of_eq rfl
  next =>
    split
    next => exact .push rfl ⟨rfl, rfl⟩
    next =>
      split
      next => exact .push rfl ⟨rfl, rfl⟩
      next => exact .of_eq rfl

theorem exitEvent_isSettlement (b : OrderBook α) (o : Order α) (price : α) (q : Quote α) :
    (b.exitEvent o price q).isSettlement = true := by
  unfold exitEvent
  dsimp only
  split <;> rfl

theorem settleExit_adds (b : OrderBook α) (o : Order α) (bar : Bar α) (q : Quote α) :
    Adds (SettledAt q.time) b (b.settleExit o bar q) := by
  unfold settleExit
  split
  next price _ =>
    unfold settle
    split
    next => exact .of_eq rfl
    next => exact .push rfl ⟨rfl, exitEvent_isSettlement b o price q⟩
  next => exact .of_eq rfl

theorem settleEntries_adds (b : OrderBook α) (q : Quote α) :
    Adds (SettledAt q.time) b (b.settleEntries q) := by
  unfold settleEntries
  split
  next => exact .of_eq rfl
  next bar _ => exact .foldl (fun b o => settleEntry_adds b o bar q.time) _ b

theorem settleExits_adds (b : OrderBook α) (q : Quote α) :
    Adds (SettledAt q.time) b (b.settleExits q) := by
  unfold settleExits
  split
  next => exact .of_eq rfl
  next bar _ => exact .foldl (fun b o => settleExit_adds b o bar q) _ b

/-- The market settles by events of its own, all of them at the time of the bar. -/
theorem settlement_adds (b : OrderBook α) (q : Quote α) :
    Adds (SettledAt q.time) b (((b.settleEntries q).settleExits q).bookSwap q.time) :=
  ((settleEntries_adds b q).trans (settleExits_adds _ q)).trans (.of_eq (bookSwap_events _ q.time))

theorem settlement_emits (b : OrderBook α) (q : Quote α) :
    Emits q.time b (((b.settleEntries q).settleExits q).bookSwap q.time) :=
  (settlement_adds b q).mono fun _ settled => settled.1

end OrderBook
end Backtest
