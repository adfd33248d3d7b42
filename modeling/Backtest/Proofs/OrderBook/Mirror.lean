import Backtest.Proofs.OrderBook.Reflection

namespace Backtest

open Arith (LevelsMirror Reflected)

variable {α : Type} [Arith α]

def Arith.sideOf (above : Bool) : α := if above then 1 else -1

theorem OrderKind.direction_eq (k : OrderKind) : (k.direction : α) = Arith.sideOf k.isBuy := rfl

variable [Arith.Exact α] {c : α}

theorem OrderKind.neg_direction (k : OrderKind) :
    -(k.direction : α) = Arith.sideOf (!k.isBuy) := by
  rw [← OrderKind.isBuy_mirror, ← OrderKind.direction_eq, OrderKind.direction_mirror]

/-- Levels at one distance from mirrored prices. -/
theorem Arith.levelsMirror_step {price d : α} (inside : 0 < price ∧ price < c) (hd : 0 < d)
    (above : Bool) :
    LevelsMirror c above (price + Arith.sideOf above * d)
      (c - price + Arith.sideOf (!above) * d) := by
  have step (p : α) (hp : 0 < p) : Reflected c (p + 1 * d) (c - p + -1 * d) := by
    have below : c - p + -1 * d = c - (p + 1 * d) := by
      apply Exact.value_injective
      simp only [Exact.value_add, Exact.value_sub, Exact.value_mul, Exact.value_neg,
        Exact.value_one]
      ring
    rw [below]
    apply Reflected.set
    rw [Exact.lt_iff, Exact.value_zero] at hp hd ⊢
    rw [Exact.value_add, Exact.value_mul, Exact.value_one, one_mul]
    exact add_pos hp hd
  cases above with
  | true => exact step price inside.1
  | false =>
    have mirrored := step (c - price) (Arith.reflect_pos.mpr inside.2)
    rw [Arith.reflect_reflect] at mirrored
    exact mirrored

/-- Results alike on both sides: the same fault, or values in a relation. -/
inductive SameResult {ε β : Type} (R : β → β → Prop) : Except ε β → Except ε β → Prop
  | error (e : ε) : SameResult R (.error e) (.error e)
  | ok {x y : β} : R x y → SameResult R (.ok x) (.ok y)

theorem SameResult.bind {ε β γ : Type} {R : β → β → Prop} {S : γ → γ → Prop} {x y : Except ε β}
    {f g : β → Except ε γ} (h : SameResult R x y)
    (hfg : ∀ {a b : β}, R a b → SameResult S (f a) (g b)) : SameResult S (x >>= f) (y >>= g) := by
  cases h with
  | error e => exact .error e
  | ok h => exact hfg h

theorem SameResult.map {ε β γ : Type} {R : β → β → Prop} {S : γ → γ → Prop} {x y : Except ε β}
    {f g : β → γ} (h : SameResult R x y) (hfg : ∀ {a b : β}, R a b → S (f a) (g b)) :
    SameResult S (x.map f) (y.map g) := by
  cases h with
  | error e => exact .error e
  | ok h => exact .ok (hfg h)

theorem SameResult.eq {ε β : Type} {x y : Except ε β} (h : SameResult (· = ·) x y) : x = y := by
  cases h with
  | error e => rfl
  | ok h => rw [h]

namespace OrderBook

/-- The operation on the other side. -/
def Operation.mirror (c : α) : Operation α → Operation α
  | .applyRecords records q => .applyRecords (records.map (Instruction.mirror c)) (q.mirror c)
  | .place kind r q => .place kind.mirror (r.mirror c) (q.mirror c)
  | .close kind ticket q => .close kind.mirror ticket (q.mirror c)
  | .update kind ticket r q => .update kind.mirror ticket (r.mirror c) (q.mirror c)
  | .settleEntries q => .settleEntries (q.mirror c)
  | .settleExits q => .settleExits (q.mirror c)
  | .bookSwap time => .bookSwap time

/-- A single operation whose prices lie below a constant. A list of records is not one: its two sides
are treated in a fixed order. -/
def Operation.Within (c : α) : Operation α → Prop
  | .applyRecords _ _ => False
  | .place _ r q | .update _ _ r q => r.entryPrice < c ∧ q.Within c
  | .close _ _ q | .settleEntries q | .settleExits q => q.Within c
  | .bookSwap _ => True

instance [DecidableEq α] (c : α) (operation : Operation α) : Decidable (operation.Within c) :=
  match operation with
  | .applyRecords _ _ => inferInstanceAs (Decidable False)
  | .place _ r q | .update _ _ r q => inferInstanceAs (Decidable (r.entryPrice < c ∧ q.Within c))
  | .close _ _ q | .settleEntries q | .settleExits q => inferInstanceAs (Decidable (q.Within c))
  | .bookSwap _ => inferInstanceAs (Decidable True)

def outcome : Option (Fault α) → Except (Fault α) (Option Int)
  | none => .ok none
  | some fault => .error fault

/-- What an operation answers: the ticket of an order that was placed, or a fault. -/
def reply (b : OrderBook α) : Operation α → Except (Fault α) (Option Int)
  | .place kind r q => (b.place kind r q).map (·.2)
  | operation => outcome (b.perform operation).2

def replies (b : OrderBook α) : List (Operation α) → List (Except (Fault α) (Option Int))
  | [] => []
  | operation :: rest => b.reply operation :: (b.perform operation).1.replies rest

variable {b b' : OrderBook α} {o o' : Order α} {q : Quote α} {r : Instruction α}

theorem entryPrice?_mirror (kind : OrderKind) (hr : r.entryPrice < c) (q : Quote α) :
    entryPrice? kind.mirror (r.mirror c) (q.mirror c) = (entryPrice? kind r q).map (c - ·) := by
  cases kind with
  | buy | sell => rfl
  | buyLimit | sellLimit | buyStop | sellStop =>
    simp only [entryPrice?, OrderKind.mirror, Instruction.mirror_names hr]
    split
    next hp => rw [Instruction.mirror_entryPrice hp, Option.map_some]
    next => rfl

omit [Arith.Exact α] in
theorem entryPrice?_inside {kind : OrderKind} (hr : r.entryPrice < c) (hq : q.Within c) {price : α}
    (h : entryPrice? kind r q = some price) : 0 < price ∧ price < c := by
  have quoted : 0 < q.bid ∧ q.bid < c := ⟨hq.positive, hq.below⟩
  cases kind with
  | buy =>
    cases h
    exact hq.spread ▸ quoted
  | sell =>
    cases h
    exact quoted
  | buyLimit | sellLimit | buyStop | sellStop =>
    simp only [entryPrice?] at h
    split at h
    next hp =>
      cases h
      exact ⟨hp, hr⟩
    next => cases h

omit [Arith.Exact α] in
theorem place_eq (b : OrderBook α) (kind : OrderKind) (r : Instruction α) (q : Quote α) :
    b.place kind r q =
      if roundLots r.lots b.account.minLot ≤ 0 then .ok (b, none)
      else if b.openOrders.length ≥ b.orderLimit then
        .error (.tooManyOrders b.instanceId b.orderLimit)
      else
        match entryPrice? kind r q with
        | none => .ok (b, none)
        | some price =>
          .ok (b.enter (b.newOrder kind r q (roundLots r.lots b.account.minLot) price) q.time,
            some b.nextTicket) := rfl

end OrderBook

namespace Order.Mirrors

open OrderBook (movedEntry updateBase)

variable {o o' : Order α} {q : Quote α} {r : Instruction α}

theorem movedEntry (h : o.Mirrors c o') (hr : r.entryPrice < c) :
    (movedEntry o r).Mirrors c (movedEntry o' (r.mirror c)) := by
  have moves : (o'.kind.isPending && decide ((r.mirror c).entryPrice > 0)) =
      (o.kind.isPending && decide (r.entryPrice > 0)) := by
    simp only [h.kind, OrderKind.isPending_mirror, Instruction.mirror_names hr]
  unfold OrderBook.movedEntry
  rw [moves]
  split
  next hp =>
    have named : r.entryPrice > 0 := by simpa using (Bool.and_eq_true_iff.mp hp).2
    exact { h with
      openPrice := Instruction.mirror_entryPrice named
      inside := ⟨named, hr⟩ }
  next => exact h

theorem updateBase (h : o.Mirrors c o') (q : Quote α) :
    updateBase o' (q.mirror c) = c - updateBase o q := by
  unfold OrderBook.updateBase
  rw [h.kind, h.openPrice]
  cases o.kind <;> rfl

theorem updateBase_inside (h : o.Mirrors c o') (hq : q.Within c) :
    0 < OrderBook.updateBase o q ∧ OrderBook.updateBase o q < c := by
  have quoted : 0 < q.bid ∧ q.bid < c := ⟨hq.positive, hq.below⟩
  unfold OrderBook.updateBase
  split
  next => exact hq.spread ▸ quoted
  next => exact quoted
  next => exact h.inside

end Order.Mirrors

namespace OrderBook

variable {b b' : OrderBook α} {o o' : Order α} {q : Quote α} {r : Instruction α}

namespace Mirrors

theorem empty (instanceId : Int) {account : Account α} (h : 0 ≤ account.minimumStop) (balance : α)
    (orderLimit : Nat) :
    (OrderBook.empty instanceId account balance orderLimit).Mirrors c
      (OrderBook.empty instanceId account.mirror balance orderLimit) where
  instanceId := rfl
  account := rfl
  minimumStop := h
  orderLimit := rfl
  initialBalance := rfl
  balance := rfl
  nextTicket := rfl
  openOrders := .nil
  closedOrders := .nil
  events := .nil
  counters := rfl
  lastSwapTime := rfl
  heldSeconds := rfl
  closeCount := rfl

theorem record (h : b.Mirrors c b') (ho : o.Mirrors c o') (event : EventKind) (time : Int)
    {price price' : α} (hp : price' = c - price) (profit gross : α) :
    (b.record o event time price profit gross).Mirrors c
      (b'.record o' event time price' profit gross) :=
  { h with
    events := by
      simp only [OrderBook.record, Array.toList_push]
      refine List.rel_append h.events (.cons ?_ .nil)
      exact {
        time := rfl
        instanceId := h.instanceId
        ticket := ho.ticket
        event := rfl
        order := ho.kind
        price := hp
        lots := ho.lots
        stopLoss := ho.stopLoss
        takeProfit := ho.takeProfit
        profit := rfl
        priceProfit := rfl
        balance := h.balance } }

theorem drop (h : b.Mirrors c b') (ticket : Int) : (b.drop ticket).Mirrors c (b'.drop ticket) :=
  { h with
    openOrders := by
      refine List.rel_filter ?_ h.openOrders
      intro p p' hp
      simp only [hp.ticket] }

theorem replace (h : b.Mirrors c b') (ho : o.Mirrors c o') :
    (b.replace o).Mirrors c (b'.replace o') :=
  { h with
    openOrders := by
      refine List.rel_map ?_ h.openOrders
      intro p p' hp
      simp only [hp.ticket, ho.ticket]
      split
      next => exact ho
      next => exact hp }

theorem cancel (h : b.Mirrors c b') (ho : o.Mirrors c o') (time : Int) :
    (b.cancel o time).Mirrors c (b'.cancel o' time) := by
  have dropped := h.drop o.ticket
  have uncounted : ({ b.drop o.ticket with counters := b.counters.remove o.kind.isBuy } :
      OrderBook α).Mirrors c
      { b'.drop o'.ticket with counters := b'.counters.remove o'.kind.isBuy } := by
    rw [ho.ticket]
    exact { dropped with
      counters := by rw [h.counters, ho.kind, OrderKind.isBuy_mirror, TradeCounts.mirror_remove] }
  exact uncounted.record ho .cancelled time ho.openPrice 0 0

theorem settle (h : b.Mirrors c b') (ho : o.Mirrors c o') (price : α) (event : EventKind) :
    (b.settle o price q event).Mirrors c (b'.settle o' (c - price) (q.mirror c) event) := by
  by_cases ht : o.openTime ≤ q.time
  · have ht' : o'.openTime ≤ (q.mirror c).time := ho.openTime ▸ ht
    have gross : o'.priceProfit b'.account.contractSize (c - price) (q.mirror c).conversion =
        o.priceProfit b.account.contractSize price q.conversion := by
      rw [h.account]
      exact ho.priceProfit _ _ _
    have profit : (b'.closedOrder o' (c - price) (q.mirror c)).profit =
        (b.closedOrder o price q).profit := by
      simp only [closedOrder, gross, ho.swap, ho.commission]
    have closed : (b.closedOrder o price q).Mirrors c
        (b'.closedOrder o' (c - price) (q.mirror c)) :=
      { ho with
        closeTime := rfl
        closePrice := rfl
        profit := profit
        isOpen := rfl }
    have dropped := h.drop o.ticket
    have filed : (b.file o price q).Mirrors c (b'.file o' (c - price) (q.mirror c)) := by
      unfold file
      rw [ho.ticket]
      exact { dropped with
        balance := by rw [h.balance, profit]
        heldSeconds := by rw [h.heldSeconds, ho.openTime, Quote.mirror_time]
        closeCount := congrArg (· + 1) h.closeCount
        closedOrders := by
          simp only [Array.toList_push]
          exact List.rel_append h.closedOrders (.cons closed .nil) }
    rw [settle_eq b ht, settle_eq b' ht', gross, profit]
    exact filed.record closed event q.time rfl _ _
  · have ht' : (q.mirror c).time < o'.openTime := ho.openTime ▸ Int.not_le.mp ht
    simpa only [OrderBook.settle, Int.not_le.mp ht, ht', ↓reduceIte] using h

theorem closeOrder (h : b.Mirrors c b') (ho : o.Mirrors c o') (q : Quote α) :
    (b.closeOrder o q).Mirrors c (b'.closeOrder o' (q.mirror c)) := by
  unfold OrderBook.closeOrder
  rw [ho.kind, OrderKind.isPending_mirror, ho.closingPrice]
  split
  next => exact h.cancel ho q.time
  next => exact h.settle ho _ .closed

theorem minimumStop_eq (h : b.Mirrors c b') : b'.account.minimumStop = b.account.minimumStop := by
  rw [h.account]
  rfl

theorem levelAt (h : b.Mirrors c b') {price : α} (inside : 0 < price ∧ price < c) (above : Bool)
    (distance : α) :
    LevelsMirror c above (b.levelAt price (Arith.sideOf above) distance)
      (b'.levelAt (c - price) (Arith.sideOf (!above)) distance) := by
  have unset : LevelsMirror c above 0 0 := by cases above <;> exact .unset
  unfold OrderBook.levelAt
  rw [h.minimumStop_eq]
  split
  next => exact unset
  next hd =>
    split
    next => exact unset
    next =>
      have hd : 0 < distance := by
        rw [Arith.Exact.le_iff] at hd
        rw [Arith.Exact.lt_iff]
        exact lt_of_not_ge hd
      exact Arith.levelsMirror_step inside hd above

theorem updatedLevel (h : b.Mirrors c b') {price : α} (inside : 0 < price ∧ price < c)
    (above : Bool) (distance : α) {level level' : α} (current : LevelsMirror c above level level') :
    LevelsMirror c above (b.updatedLevel price (Arith.sideOf above) distance level)
      (b'.updatedLevel (c - price) (Arith.sideOf (!above)) distance level') := by
  unfold OrderBook.updatedLevel
  rw [h.minimumStop_eq]
  split
  next => cases above <;> exact .unset
  next hne =>
    split
    next => exact current
    next hd =>
      have hd : 0 < distance := by
        have minimum := h.minimumStop
        rw [Arith.Exact.beq_iff] at hne
        rw [Arith.Exact.le_iff, Arith.Exact.value_zero] at minimum
        rw [Arith.Exact.lt_iff] at hd ⊢
        rw [Arith.Exact.value_zero]
        apply lt_of_le_of_ne (minimum.trans (le_of_not_gt hd))
        intro zero
        exact hne (Arith.Exact.value_injective (zero.symm.trans Arith.Exact.value_zero.symm))
      exact Arith.levelsMirror_step inside hd above

theorem newOrder (h : b.Mirrors c b') (kind : OrderKind) (r : Instruction α) (q : Quote α)
    (lots : α) {price : α} (inside : 0 < price ∧ price < c) :
    (b.newOrder kind r q lots price).Mirrors c
      (b'.newOrder kind.mirror (r.mirror c) (q.mirror c) lots (c - price)) where
  ticket := h.nextTicket
  instanceId := h.instanceId
  kind := rfl
  openTime := rfl
  closeTime := rfl
  stopLoss := by
    simp only [OrderBook.newOrder, OrderKind.neg_direction, OrderKind.isBuy_mirror]
    exact h.levelAt inside _ _
  takeProfit := by
    simp only [OrderBook.newOrder, OrderKind.direction_eq, OrderKind.isBuy_mirror]
    exact h.levelAt inside _ _
  expiration := rfl
  openPrice := rfl
  inside := inside
  closePrice := rfl
  lots := rfl
  profit := rfl
  commission := by
    simp only [OrderBook.newOrder, h.account]
    rfl
  swap := rfl
  isOpen := rfl

theorem enter (h : b.Mirrors c b') (ho : o.Mirrors c o') (time : Int) :
    (b.enter o time).Mirrors c (b'.enter o' time) := by
  have entered : ({ b with
      nextTicket := b.nextTicket + 1
      counters := b.counters.add o.kind.isBuy
      openOrders := b.openOrders ++ [o] } : OrderBook α).Mirrors c
      { b' with
        nextTicket := b'.nextTicket + 1
        counters := b'.counters.add o'.kind.isBuy
        openOrders := b'.openOrders ++ [o'] } :=
    { h with
      nextTicket := congrArg (· + 1) h.nextTicket
      counters := by rw [h.counters, ho.kind, OrderKind.isBuy_mirror, TradeCounts.mirror_add]
      openOrders := List.rel_append h.openOrders (.cons ho .nil) }
  exact entered.record ho .opened time ho.openPrice 0 0

theorem place (h : b.Mirrors c b') (kind : OrderKind) (hr : r.entryPrice < c) (hq : q.Within c) :
    SameResult (fun x y => x.1.Mirrors c y.1 ∧ y.2 = x.2) (b.place kind r q)
      (b'.place kind.mirror (r.mirror c) (q.mirror c)) := by
  have lots : roundLots (r.mirror c).lots b'.account.minLot = roundLots r.lots b.account.minLot := by
    rw [h.account]
    rfl
  rw [place_eq, place_eq]
  simp only [lots, h.orderLimit, h.instanceId, ← h.openOrders.length_eq, entryPrice?_mirror kind hr]
  split
  next => exact .ok ⟨h, rfl⟩
  next =>
    split
    next => exact .error _
    next =>
      cases he : entryPrice? kind r q with
      | none => exact .ok ⟨h, rfl⟩
      | some price =>
        have order := h.newOrder kind r q (roundLots r.lots b.account.minLot)
          (entryPrice?_inside hr hq he)
        exact .ok ⟨h.enter order q.time, congrArg some h.nextTicket⟩

theorem addressedBy (h : b.Mirrors c b') (kind : OrderKind) (ticket : Int) :
    SameResult (List.Forall₂ (Order.Mirrors c)) (b.addressedBy kind ticket)
      (b'.addressedBy kind.mirror ticket) := by
  have found : List.Forall₂ (Order.Mirrors c)
      (b.openOrders.filter fun o => o.kind = kind && (ticket = everyTicket || o.ticket = ticket))
      (b'.openOrders.filter fun o =>
        o.kind = kind.mirror && (ticket = everyTicket || o.ticket = ticket)) := by
    refine List.rel_filter ?_ h.openOrders
    intro p p' hp
    simp only [hp.kind, hp.ticket, OrderKind.mirror_inj]
  unfold OrderBook.addressedBy
  rw [h.instanceId]
  generalize (b.openOrders.filter _) = l at found
  generalize (b'.openOrders.filter _) = l' at found
  dsimp only
  cases found with
  | nil =>
    split
    next => exact .error _
    next => exact .ok .nil
  | cons first rest => exact .ok (.cons first rest)

theorem foldl {f f' : OrderBook α → Order α → OrderBook α}
    (hf : ∀ {b b' : OrderBook α} {o o' : Order α}, b.Mirrors c b' → o.Mirrors c o' →
      (f b o).Mirrors c (f' b' o'))
    {l l' : List (Order α)} (hl : List.Forall₂ (Order.Mirrors c) l l') (h : b.Mirrors c b') :
    (l.foldl f b).Mirrors c (l'.foldl f' b') :=
  List.rel_foldl (P := OrderBook.Mirrors c) (R := Order.Mirrors c)
    (fun _ _ hb _ _ ho => hf hb ho) h hl

theorem close (h : b.Mirrors c b') (kind : OrderKind) (ticket : Int) (q : Quote α) :
    SameResult (OrderBook.Mirrors c) (b.close kind ticket q)
      (b'.close kind.mirror ticket (q.mirror c)) :=
  (h.addressedBy kind ticket).bind fun found =>
    .ok (h.foldl (fun hb ho => hb.closeOrder ho q) (List.rel_reverse found))

theorem updateOrder (h : b.Mirrors c b') (ho : o.Mirrors c o') (hr : r.entryPrice < c)
    (hq : q.Within c) : (b.updateOrder o r q).Mirrors c
      (b'.updateOrder o' (r.mirror c) (q.mirror c)) := by
  have moved := ho.movedEntry hr
  have base := moved.updateBase q
  have inside := moved.updateBase_inside hq
  have updated : (b.updated o r q).Mirrors c (b'.updated o' (r.mirror c) (q.mirror c)) :=
    { moved with
      stopLoss := by
        simp only [OrderBook.updated, base, OrderKind.neg_direction, moved.kind,
          OrderKind.isBuy_mirror]
        exact h.updatedLevel inside _ _ moved.stopLoss
      takeProfit := by
        simp only [OrderBook.updated, base, OrderKind.direction_eq, moved.kind,
          OrderKind.isBuy_mirror]
        exact h.updatedLevel inside _ _ moved.takeProfit
      expiration := by
        simp only [OrderBook.updated, moved.expiration]
        rfl }
  rw [updateOrder_eq, updateOrder_eq]
  exact (h.replace updated).record updated .modified q.time base 0 0

theorem update (h : b.Mirrors c b') (kind : OrderKind) (ticket : Int) (hr : r.entryPrice < c)
    (hq : q.Within c) :
    SameResult (OrderBook.Mirrors c) (b.update kind ticket r q)
      (b'.update kind.mirror ticket (r.mirror c) (q.mirror c)) :=
  (h.addressedBy kind ticket).bind fun found =>
    .ok (h.foldl (fun hb ho => hb.updateOrder ho hr hq) found)

theorem fill (h : b.Mirrors c b') (ho : o.Mirrors c o') (time : Int) :
    (b.fill o time).Mirrors c (b'.fill o' time) := by
  have filled : (filledOrder o time).Mirrors c (filledOrder o' time) :=
    { ho with
      kind := by
        simp only [filledOrder, ho.kind]
        exact OrderKind.filled_mirror _
      openTime := rfl
      stopLoss := by
        simp only [filledOrder, OrderKind.isBuy_filled]
        exact ho.stopLoss
      takeProfit := by
        simp only [filledOrder, OrderKind.isBuy_filled]
        exact ho.takeProfit }
  rw [fill_eq, fill_eq]
  exact (h.replace filled).record filled .filled time ho.openPrice 0 0

theorem settleEntry (h : b.Mirrors c b') (ho : o.Mirrors c o') (bar : Bar α) (time : Int) :
    (b.settleEntry o bar time).Mirrors c (b'.settleEntry o' (bar.mirror c) time) := by
  unfold OrderBook.settleEntry
  rw [ho.kind, OrderKind.isPending_mirror, ho.isExpired, ho.isReached]
  split
  next => exact h
  next =>
    split
    next => exact h.cancel ho time
    next =>
      split
      next => exact h.fill ho time
      next => exact h

theorem settleEntries (h : b.Mirrors c b') (q : Quote α) :
    (b.settleEntries q).Mirrors c (b'.settleEntries (q.mirror c)) := by
  unfold OrderBook.settleEntries
  rw [Quote.mirror_lastBar]
  cases q.lastBar with
  | none => exact h
  | some bar => exact h.foldl (fun hb ho => hb.settleEntry ho bar q.time) h.openOrders

theorem exitEvent (h : b.Mirrors c b') (ho : o.Mirrors c o') (price : α) (q : Quote α) :
    b'.exitEvent o' (c - price) (q.mirror c) = b.exitEvent o price q := by
  unfold OrderBook.exitEvent
  rw [h.account, ho.swap, ho.commission, Quote.mirror_conversion]
  rw [ho.priceProfit b.account.mirror.contractSize]
  rfl

theorem settleExit (h : b.Mirrors c b') (ho : o.Mirrors c o') {bar : Bar α} (hq : q.Within c)
    (hbar : 0 < bar.low ∧ bar.high < c) :
    (b.settleExit o bar q).Mirrors c (b'.settleExit o' (bar.mirror c) (q.mirror c)) := by
  unfold OrderBook.settleExit
  rw [ho.exitPrice? hq hbar]
  cases o.exitPrice? bar q with
  | none => exact h
  | some price =>
    simp only [Option.map_some, h.exitEvent ho]
    exact h.settle ho price _

theorem settleExits (h : b.Mirrors c b') (hq : q.Within c) :
    (b.settleExits q).Mirrors c (b'.settleExits (q.mirror c)) := by
  unfold OrderBook.settleExits
  rw [Quote.mirror_lastBar]
  cases hl : q.lastBar with
  | none => exact h
  | some bar => exact h.foldl (fun hb ho => hb.settleExit ho hq (hq.bar bar hl)) h.openOrders

theorem withSwap (h : b.Mirrors c b') (ho : o.Mirrors c o') (time : Int) :
    (b.withSwap time o).Mirrors c (b'.withSwap time o') := by
  have pending : o'.kind.isPending = o.kind.isPending := by rw [ho.kind, OrderKind.isPending_mirror]
  have rate : (if o'.kind.isBuy then b'.account.swapLong else b'.account.swapShort) =
      if o.kind.isBuy then b.account.swapLong else b.account.swapShort := by
    rw [ho.kind, OrderKind.isBuy_mirror, h.account]
    cases o.kind.isBuy <;> rfl
  unfold OrderBook.withSwap
  rw [pending, rate]
  split
  next => exact ho
  next => exact { ho with swap := by rw [ho.swap, ho.lots] }

theorem anyMarket {l l' : List (Order α)} (h : List.Forall₂ (Order.Mirrors c) l l') :
    l'.any (!·.kind.isPending) = l.any (!·.kind.isPending) := by
  induction h with
  | nil => rfl
  | cons ho _ ih => rw [List.any_cons, List.any_cons, ih, ho.kind, OrderKind.isPending_mirror]

theorem bookSwap (h : b.Mirrors c b') (time : Int) :
    (b.bookSwap time).Mirrors c (b'.bookSwap time) := by
  unfold OrderBook.bookSwap
  rw [h.lastSwapTime, anyMarket h.openOrders]
  split
  next => exact h
  next =>
    split
    next =>
      have swapped : List.Forall₂ (Order.Mirrors c) (b.openOrders.map (b.withSwap time))
          (b'.openOrders.map (b'.withSwap time)) := by
        refine List.rel_map ?_ h.openOrders
        exact fun _ _ ho => h.withSwap ho time
      exact { h with
        openOrders := swapped
        lastSwapTime := rfl }
    next => exact h

theorem actAll (h : b.Mirrors c b') {q q' : Quote α} {a a' : Action α}
    (same : SameResult (OrderBook.Mirrors c) (b.act q a) (b'.act q' a')) :
    (b.actAll q [a]).1.Mirrors c (b'.actAll q' [a']).1 ∧
      (b'.actAll q' [a']).2 = (b.actAll q [a]).2 := by
  unfold OrderBook.actAll
  generalize b.act q a = result at same
  generalize b'.act q' a' = result' at same
  cases same with
  | error f => exact ⟨h, rfl⟩
  | ok related => exact ⟨related, rfl⟩

theorem perform (h : b.Mirrors c b') {operation : Operation α} (hop : operation.Within c) :
    (b.perform operation).1.Mirrors c (b'.perform (operation.mirror c)).1 ∧
      b'.reply (operation.mirror c) = b.reply operation := by
  cases operation with
  | applyRecords records q => exact hop.elim
  | place kind r q =>
    have placed := h.place kind hop.1 hop.2
    have acted : SameResult (OrderBook.Mirrors c) (b.act q (.place kind r))
        (b'.act (q.mirror c) (.place kind.mirror (r.mirror c))) :=
      placed.map fun related => related.1
    have replied : SameResult (· = ·) ((b.place kind r q).map (·.2))
        ((b'.place kind.mirror (r.mirror c) (q.mirror c)).map (·.2)) :=
      placed.map fun related => related.2.symm
    exact ⟨(h.actAll acted).1, replied.eq.symm⟩
  | close kind ticket q =>
    have acted : SameResult (OrderBook.Mirrors c) (b.act q (.close kind ticket))
        (b'.act (q.mirror c) (.close kind.mirror ticket)) := h.close kind ticket q
    obtain ⟨related, fault⟩ := h.actAll acted
    exact ⟨related, congrArg outcome fault⟩
  | update kind ticket r q =>
    have acted : SameResult (OrderBook.Mirrors c) (b.act q (.update kind ticket r))
        (b'.act (q.mirror c) (.update kind.mirror ticket (r.mirror c))) :=
      h.update kind ticket hop.1 hop.2
    obtain ⟨related, fault⟩ := h.actAll acted
    exact ⟨related, congrArg outcome fault⟩
  | settleEntries q => exact ⟨h.settleEntries q, rfl⟩
  | settleExits q => exact ⟨h.settleExits hop, rfl⟩
  | bookSwap time => exact ⟨h.bookSwap time, rfl⟩

theorem performAll (h : b.Mirrors c b') {operations : List (Operation α)}
    (hops : ∀ operation ∈ operations, operation.Within c) :
    (b.performAll operations).Mirrors c (b'.performAll (operations.map (Operation.mirror c))) ∧
      b'.replies (operations.map (Operation.mirror c)) = b.replies operations := by
  induction operations generalizing b b' with
  | nil => exact ⟨h, rfl⟩
  | cons operation rest ih =>
    obtain ⟨related, reply⟩ := h.perform (hops operation List.mem_cons_self)
    obtain ⟨last, replies⟩ := ih related fun p hp => hops p (List.mem_cons_of_mem _ hp)
    refine ⟨last, ?_⟩
    rw [List.map_cons, OrderBook.replies, OrderBook.replies, reply, replies]

end Mirrors

/-- A book is treated alike on its two sides. Operations in sequence, and their mirrors on a book that
starts with mirrored terms, answer the same faults and the same tickets, and the two books mirror each
other: the same events with the same profits, the same swaps and balances, and the counts of the two
sides exchanged. -/
theorem performAll_mirrors (instanceId : Int) {account : Account α}
    (minimum : 0 ≤ account.minimumStop) (balance : α) (orderLimit : Nat)
    {operations : List (Operation α)} (within : ∀ operation ∈ operations, operation.Within c) :
    ((empty instanceId account balance orderLimit).performAll operations).Mirrors c
        ((empty instanceId account.mirror balance orderLimit).performAll
          (operations.map (Operation.mirror c))) ∧
      (empty instanceId account.mirror balance orderLimit).replies
          (operations.map (Operation.mirror c)) =
        (empty instanceId account balance orderLimit).replies operations :=
  (Mirrors.empty instanceId minimum balance orderLimit).performAll within

/-- A long position that is stopped out, and a short one that is entered at a limit, refused a close under
a wrong ticket, and closed. -/
def sampleOperations : List (Operation ℚ) :=
  let quote (time : Int) (price low high : ℚ) : Quote ℚ :=
    ⟨time, price, price, 1, some ⟨time - 60, price, high, low, price, 1, 0, 0⟩⟩
  [ .place .buy { Instruction.blank with lots := 1, stopDistance := 0.1, profitDistance := 0.4 }
      (quote 60 1 0.95 1.05),
    .place .sellLimit { Instruction.blank with lots := 2, entryPrice := 1.2, profitDistance := 0.5 }
      (quote 60 1 0.95 1.05),
    .settleEntries (quote 120 1.15 1 1.25),
    .bookSwap 7200,
    .settleExits (quote 7260 0.92 0.85 1.1),
    .close .sell 1 (quote 7320 0.9 0.85 0.95),
    .close .sell everyTicket (quote 7320 0.9 0.85 0.95) ]

def sampleTerms : Account ℚ := { Account.standard with swapLong := -3, swapShort := 2 }

theorem sampleOperations_mirrored :
    (0 ≤ sampleTerms.minimumStop ∧ ∀ operation ∈ sampleOperations, operation.Within 3) ∧
      ((empty 1 sampleTerms 10000 5).performAll sampleOperations).balance = 60001 ∧
      ((empty 1 sampleTerms 10000 5).performAll sampleOperations).Mirrors 3
        ((empty 1 sampleTerms.mirror 10000 5).performAll
          (sampleOperations.map (Operation.mirror 3))) ∧
      (empty 1 sampleTerms.mirror 10000 5).replies (sampleOperations.map (Operation.mirror 3)) =
        (empty 1 sampleTerms 10000 5).replies sampleOperations := by
  have minimum : 0 ≤ sampleTerms.minimumStop := by decide +kernel
  have within : ∀ operation ∈ sampleOperations, operation.Within 3 := by decide +kernel
  refine ⟨⟨minimum, within⟩, ?_, performAll_mirrors 1 minimum 10000 5 within⟩
  decide +kernel

end OrderBook
end Backtest
