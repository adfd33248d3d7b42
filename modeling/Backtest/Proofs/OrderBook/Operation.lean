import Backtest.Proofs.OrderBook.Change

namespace Backtest
namespace OrderBook

variable {α : Type}

theorem addressedBy_sublist {b : OrderBook α} {kind : OrderKind} {ticket : Int}
    {found : List (Order α)} (h : b.addressedBy kind ticket = .ok found) :
    found.Sublist b.openOrders := by
  unfold addressedBy at h
  dsimp only at h
  split at h
  next => cases h
  next =>
    cases h
    exact List.filter_sublist

variable [Arith α]

theorem cancel_keeps {b : OrderBook α} {o p : Order α} {time : Int} (hp : p ∈ b.openOrders)
    (hne : p.ticket ≠ o.ticket) : p ∈ (b.cancel o time).openOrders :=
  mem_drop_of_ne hp hne

theorem settle_keeps {b : OrderBook α} {o p : Order α} {price : α} {q : Quote α}
    {event : EventKind} (hp : p ∈ b.openOrders) (hne : p.ticket ≠ o.ticket) :
    p ∈ (b.settle o price q event).openOrders := by
  by_cases ht : o.openTime ≤ q.time
  · rw [settle_eq b ht]
    exact mem_drop_of_ne hp hne
  · rwa [settle_of_not_le b ht]

theorem settle_changes {b : OrderBook α} {o : Order α} (price : α) (q : Quote α)
    {event : EventKind} (ho : o ∈ b.openOrders) (hk : o.kind.isPending = false)
    (he : event.isClose = true) : Changes b (b.settle o price q event) := by
  by_cases ht : o.openTime ≤ q.time
  · exact .single (.settle price q event ho hk ht he)
  · rw [settle_of_not_le b ht]

theorem treats_closeOrder (q : Quote α) : Treats fun (b : OrderBook α) o => b.closeOrder o q where
  changes b o ho := by
    unfold closeOrder
    split
    next hk => exact .single (.cancel q.time ho hk)
    next hk => exact settle_changes _ q ho (by simpa using hk) rfl
  keeps b o p hp hne := by
    unfold closeOrder
    split
    next => exact cancel_keeps hp hne
    next => exact settle_keeps hp hne

theorem treats_updateOrder (r : Instruction α) (q : Quote α) :
    Treats fun (b : OrderBook α) o => b.updateOrder o r q where
  changes b o ho := .single (.update r q ho)
  keeps b o p hp hne := by
    rw [updateOrder_eq]
    exact mem_replace_of_ne hp (by simpa using hne)

theorem treats_settleEntry (bar : Bar α) (time : Int) :
    Treats fun (b : OrderBook α) o => b.settleEntry o bar time where
  changes b o ho := by
    unfold settleEntry
    split
    next => exact .refl
    next hk =>
      have hk : o.kind.isPending = true := by simpa using hk
      split
      next => exact .single (.cancel time ho hk)
      next =>
        split
        next => exact .single (.fill time ho hk)
        next => exact .refl
  keeps b o p hp hne := by
    unfold settleEntry
    split
    next => exact hp
    next =>
      split
      next => exact cancel_keeps hp hne
      next =>
        split
        next => exact mem_replace_of_ne hp hne
        next => exact hp

theorem exitEvent_isClose (b : OrderBook α) (o : Order α) (price : α) (q : Quote α) :
    (b.exitEvent o price q).isClose = true := by
  unfold exitEvent
  dsimp only
  split <;> rfl

/-- Only market orders have protective levels that end them. -/
theorem isPending_of_exitPrice? {o : Order α} {bar : Bar α} {q : Quote α} {price : α}
    (h : o.exitPrice? bar q = some price) : o.kind.isPending = false := by
  cases hk : o.kind with
  | buy => rfl
  | sell => rfl
  | buyLimit => simp [Order.exitPrice?, hk] at h
  | sellLimit => simp [Order.exitPrice?, hk] at h
  | buyStop => simp [Order.exitPrice?, hk] at h
  | sellStop => simp [Order.exitPrice?, hk] at h

theorem treats_settleExit (bar : Bar α) (q : Quote α) :
    Treats fun (b : OrderBook α) o => b.settleExit o bar q where
  changes b o ho := by
    unfold settleExit
    split
    next price hp =>
      exact settle_changes price q ho (isPending_of_exitPrice? hp) (exitEvent_isClose b o price q)
    next => exact .refl
  keeps b o p hp hne := by
    unfold settleExit
    split
    next => exact settle_keeps hp hne
    next => exact hp

theorem place_changes {b b' : OrderBook α} {kind : OrderKind} {r : Instruction α} {q : Quote α}
    {ticket : Option Int} (h : b.place kind r q = .ok (b', ticket)) : Changes b b' := by
  unfold place at h
  dsimp only at h
  split at h
  next => cases h; exact .refl
  next =>
    split at h
    next => cases h
    next room =>
      split at h
      next => cases h; exact .refl
      next price _ =>
        cases h
        exact .single (.enter b kind r q _ price (by omega))

theorem close_changes {b b' : OrderBook α} (hb : b.Ascends) {kind : OrderKind} {ticket : Int}
    {q : Quote α} (h : b.close kind ticket q = .ok b') : Changes b b' := by
  obtain ⟨found, hf, rfl⟩ := close_ok h
  have sub := addressedBy_sublist hf
  apply (treats_closeOrder q).foldl
  · exact List.pairwise_reverse.mpr ((hb.ne.sublist sub).imp Ne.symm)
  · exact fun o ho => sub.subset (List.mem_reverse.mp ho)

theorem update_changes {b b' : OrderBook α} (hb : b.Ascends) {kind : OrderKind} {ticket : Int}
    {r : Instruction α} {q : Quote α} (h : b.update kind ticket r q = .ok b') : Changes b b' := by
  obtain ⟨found, hf, rfl⟩ := update_ok h
  have sub := addressedBy_sublist hf
  exact (treats_updateOrder r q).foldl (hb.ne.sublist sub) fun o ho => sub.subset ho

theorem act_changes {b b' : OrderBook α} (hb : b.Ascends) {q : Quote α} {a : Action α}
    (h : b.act q a = .ok b') : Changes b b' := by
  cases a with
  | place kind r =>
    obtain ⟨ticket, placed⟩ := place_of_act h
    exact place_changes placed
  | close kind ticket => exact close_changes hb h
  | update kind ticket r => exact update_changes hb h

/-- A list of actions changes the book up to the first one that fails. -/
theorem actAll_changes {b : OrderBook α} (hb : b.Ascends) (q : Quote α) (actions : List (Action α)) :
    Changes b (b.actAll q actions).1 := by
  induction actions generalizing b with
  | nil => exact .refl
  | cons a rest ih =>
    unfold actAll
    split
    next b' h =>
      have first := act_changes hb h
      exact first.trans (ih (first.ascends hb))
    next => exact .refl

theorem applyRecords_changes {b : OrderBook α} (hb : b.Ascends) (records : List (Instruction α))
    (q : Quote α) : Changes b (b.applyRecords records q).1 :=
  actAll_changes hb q _

theorem settleEntries_changes {b : OrderBook α} (hb : b.Ascends) (q : Quote α) :
    Changes b (b.settleEntries q) := by
  unfold settleEntries
  split
  next => exact .refl
  next bar _ => exact (treats_settleEntry bar q.time).foldl hb.ne fun _ ho => ho

theorem settleExits_changes {b : OrderBook α} (hb : b.Ascends) (q : Quote α) :
    Changes b (b.settleExits q) := by
  unfold settleExits
  split
  next => exact .refl
  next bar _ => exact (treats_settleExit bar q).foldl hb.ne fun _ ho => ho

theorem bookSwap_changes (b : OrderBook α) (time : Int) : Changes b (b.bookSwap time) := by
  unfold bookSwap
  split
  next => exact .refl
  next =>
    split
    next => exact .single (.swap b time)
    next => exact .refl

/-- An operation of an order book, with what it is given. -/
inductive Operation (α : Type) where
  | applyRecords (records : List (Instruction α)) (q : Quote α)
  | place (kind : OrderKind) (r : Instruction α) (q : Quote α)
  | close (kind : OrderKind) (ticket : Int) (q : Quote α)
  | update (kind : OrderKind) (ticket : Int) (r : Instruction α) (q : Quote α)
  | settleEntries (q : Quote α)
  | settleExits (q : Quote α)
  | bookSwap (time : Int)

/-- The book after an operation, and the fault of one that fails. -/
def perform (b : OrderBook α) : Operation α → OrderBook α × Option (Fault α)
  | .applyRecords records q => b.applyRecords records q
  | .place kind r q => b.actAll q [.place kind r]
  | .close kind ticket q => b.actAll q [.close kind ticket]
  | .update kind ticket r q => b.actAll q [.update kind ticket r]
  | .settleEntries q => (b.settleEntries q, none)
  | .settleExits q => (b.settleExits q, none)
  | .bookSwap time => (b.bookSwap time, none)

/-- The book after operations in sequence; one that fails does not keep the next from being tried. -/
def performAll (b : OrderBook α) (operations : List (Operation α)) : OrderBook α :=
  operations.foldl (fun b operation => (b.perform operation).1) b

theorem perform_changes {b : OrderBook α} (hb : b.Ascends) (operation : Operation α) :
    Changes b (b.perform operation).1 := by
  cases operation with
  | applyRecords records q => exact applyRecords_changes hb records q
  | place kind r q => exact actAll_changes hb q _
  | close kind ticket q => exact actAll_changes hb q _
  | update kind ticket r q => exact actAll_changes hb q _
  | settleEntries q => exact settleEntries_changes hb q
  | settleExits q => exact settleExits_changes hb q
  | bookSwap time => exact bookSwap_changes b time

theorem performAll_changes {b : OrderBook α} (hb : b.Ascends) (operations : List (Operation α)) :
    Changes b (b.performAll operations) := by
  induction operations generalizing b with
  | nil => exact .refl
  | cons operation rest ih =>
    have first := perform_changes hb operation
    exact first.trans (ih (first.ascends hb))

theorem empty_ascends (instanceId : Int) (account : Account α) (balance : α) (orderLimit : Nat) :
    (empty instanceId account balance orderLimit).Ascends :=
  ⟨List.Pairwise.nil, fun _ ho => by cases ho⟩

end OrderBook
end Backtest
