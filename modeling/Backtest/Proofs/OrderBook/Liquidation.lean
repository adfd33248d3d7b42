import Backtest.OrderBook.Valuation
import Backtest.Proofs.Arith.Exact
import Backtest.Proofs.OrderBook.Places

namespace Backtest

/-- What closing a market order now brings. -/
def Order.proceeds {α : Type} [Arith α] (o : Order α) (contractSize : α) (q : Quote α) : α :=
  o.priceProfit contractSize (o.closingPrice q) q.conversion + o.swap - o.commission

namespace OrderBook

variable {α : Type} [Arith α] {b b' : OrderBook α} {q : Quote α}

/-- The open orders of a kind, the newest first. -/
def newestOf (b : OrderBook α) (kind : OrderKind) : List (Order α) :=
  (b.openOrders.filter (·.kind = kind)).reverse

/-- The market orders of a kind have been closed at the current prices, and nothing else was done. -/
structure ClosedOut (kind : OrderKind) (q : Quote α) (b b' : OrderBook α) : Prop where
  ascends : b'.Ascends
  account : b'.account = b.account
  openOrders : b'.openOrders = b.openOrders.filter (·.kind ≠ kind)
  closedOrders : b'.closedOrders.toList = b.closedOrders.toList ++
    (b.newestOf kind).map fun o => b.closedOrder o (o.closingPrice q) q
  balance : b'.balance =
    ((b.newestOf kind).map fun o => o.proceeds b.account.contractSize q).foldl (· + ·) b.balance

theorem closeOrder_booked {o : Order α} (market : o.kind.isPending = false)
    (timely : o.openTime ≤ q.time) :
    (b.closeOrder o q).account = b.account ∧
      (b.closeOrder o q).closedOrders =
        b.closedOrders.push (b.closedOrder o (o.closingPrice q) q) ∧
      (b.closeOrder o q).balance = b.balance + o.proceeds b.account.contractSize q := by
  unfold closeOrder
  rw [market, if_neg Bool.false_ne_true, settle_eq b timely]
  exact ⟨rfl, rfl, rfl⟩

/-- Closes of market orders file each of them, and book its proceeds. -/
theorem foldl_closeOrder (orders : List (Order α))
    (market : ∀ o ∈ orders, o.kind.isPending = false) (timely : ∀ o ∈ orders, o.openTime ≤ q.time) :
    let closed := orders.foldl (fun b o => b.closeOrder o q) b
    closed.account = b.account ∧
      closed.closedOrders.toList = b.closedOrders.toList ++
        (orders.map fun o => b.closedOrder o (o.closingPrice q) q) ∧
      closed.balance =
        (orders.map fun o => o.proceeds b.account.contractSize q).foldl (· + ·) b.balance := by
  induction orders generalizing b with
  | nil => exact ⟨rfl, (List.append_nil _).symm, rfl⟩
  | cons o rest ih =>
    obtain ⟨terms, filed, booked⟩ := closeOrder_booked (b := b) (market o List.mem_cons_self)
      (timely o List.mem_cons_self)
    obtain ⟨account, closedOrders, balance⟩ := ih (b := b.closeOrder o q)
      (fun p hp => market p (List.mem_cons_of_mem o hp))
      (fun p hp => timely p (List.mem_cons_of_mem o hp))
    have alike (p : Order α) : (b.closeOrder o q).closedOrder p (p.closingPrice q) q =
        b.closedOrder p (p.closingPrice q) q := by
      unfold closedOrder
      rw [terms]
    refine ⟨account.trans terms, ?_, ?_⟩
    · rw [List.foldl_cons, closedOrders, filed, Array.toList_push, List.append_assoc]
      simp only [alike, List.map_cons, List.singleton_append]
    · rw [List.foldl_cons, balance, booked, terms]
      rfl

theorem close_every {kind : OrderKind} (market : kind.isPending = false) (ascends : b.Ascends)
    (timely : ∀ o ∈ b.openOrders, o.openTime ≤ q.time) :
    ∃ b', b.close kind everyTicket q = .ok b' ∧ ClosedOut kind q b b' := by
  have every : isAddressed kind everyTicket = fun o : Order α => decide (o.kind = kind) := by
    funext o
    simp [isAddressed]
  have found : b.addressedBy kind everyTicket = .ok (b.openOrders.filter (·.kind = kind)) := by
    rw [addressedBy_eq, every]
    simp
  have ofKind {o : Order α} (ho : o ∈ b.newestOf kind) : o ∈ b.openOrders ∧ o.kind = kind := by
    simpa using List.mem_filter.mp (List.mem_reverse.mp ho)
  obtain ⟨-, kept, openOrders⟩ := (local_closeOrder q).backward (p := fun o => decide (o.kind = kind))
    ascends (List.append_nil _).symm
  obtain ⟨account, closedOrders, balance⟩ := foldl_closeOrder (b := b) (b.newestOf kind)
    (fun o ho => (ofKind ho).2 ▸ market) (fun o ho => timely o (ofKind ho).1)
  refine ⟨(b.newestOf kind).foldl (fun b o => b.closeOrder o q) b, ?_, kept, account, ?_,
    closedOrders, balance⟩
  · rw [close, found]
    rfl
  · refine openOrders.trans ?_
    rw [List.append_nil, ← List.filterMap_eq_filter]
    refine List.filterMap_congr fun o ho => ?_
    by_cases hk : o.kind = kind
    · simp [hk, afterClose, market, Int.not_lt.mpr (timely o ho), Option.guard]
    · simp [hk, Option.guard]

/-- The two market kinds, one before the other. -/
def IsEachSide (first second : OrderKind) : Prop :=
  first = .buy ∧ second = .sell ∨ first = .sell ∧ second = .buy

omit [Arith α] in
theorem newestOf_perm {first second : OrderKind} (sides : IsEachSide first second)
    (b : OrderBook α) : (b.newestOf first ++ b.newestOf second).Perm b.marketOrders := by
  have here (o : Order α) :
      (decide (o.kind = first) && !o.kind.isPending) = decide (o.kind = first) := by
    obtain ⟨rfl, rfl⟩ | ⟨rfl, rfl⟩ := sides <;> cases o.kind <;> rfl
  have there (o : Order α) :
      (!decide (o.kind = first) && !o.kind.isPending) = decide (o.kind = second) := by
    obtain ⟨rfl, rfl⟩ | ⟨rfl, rfl⟩ := sides <;> cases o.kind <;> rfl
  have split := List.filter_append_perm (fun o => decide (o.kind = first)) b.marketOrders
  unfold marketOrders at split
  simp only [List.filter_filter, here, there] at split
  exact ((List.reverse_perm _).append (List.reverse_perm _)).trans split

theorem ClosedOut.newestOf_eq {kind other : OrderKind} (c : ClosedOut kind q b b')
    (apart : other ≠ kind) : b'.newestOf other = b.newestOf other := by
  unfold newestOf
  rw [c.openOrders, List.filter_filter]
  refine congrArg List.reverse (List.filter_congr fun o _ => ?_)
  by_cases h : o.kind = other <;> simp [h, apart]

open Arith (Exact)
open Arith.Exact (value)

section Exact

variable [Exact α]

theorem ClosedOut.value_balance {kind : OrderKind} (c : ClosedOut kind q b b') :
    value b'.balance = value b.balance +
      ((b.newestOf kind).map fun o => value (o.proceeds b.account.contractSize q)).sum := by
  rw [c.balance, Arith.value_foldl_add, List.map_map]
  rfl

/-- Equity is what closing the market orders would leave, and their commissions. -/
theorem value_equity (b : OrderBook α) (q : Quote α) :
    value (b.equity q) = value b.balance +
      (b.marketOrders.map fun o => value (o.proceeds b.account.contractSize q)).sum +
      value (Arith.total (b.marketOrders.map (·.commission))) := by
  rw [equity, openProfit, Exact.value_add, Arith.value_total, Arith.value_total, List.map_map,
    List.map_map, add_assoc, ← List.sum_map_add]
  congr 2
  refine List.map_congr_left fun o _ => ?_
  simp only [Function.comp_apply, Order.proceeds, Exact.value_sub, Exact.value_add]
  ring

/-- A book whose market orders have been closed at the current prices, all of them and nothing else. -/
structure Liquidated (q : Quote α) (b b' : OrderBook α) : Prop where
  openOrders : b'.openOrders = b.openOrders.filter (·.kind.isPending)
  closedOrders : ∃ closed, b'.closedOrders.toList = b.closedOrders.toList ++ closed ∧
    closed.Perm (b.marketOrders.map fun o => b.closedOrder o (o.closingPrice q) q)
  balance : b'.balance = b.equity q - Arith.total (b.marketOrders.map (·.commission))

theorem Liquidated.of_sides {first second : OrderKind} (sides : IsEachSide first second)
    {b₁ b₂ : OrderBook α} (c₁ : ClosedOut first q b b₁) (c₂ : ClosedOut second q b₁ b₂) :
    Liquidated q b b₂ := by
  have apart : second ≠ first := by obtain ⟨rfl, rfl⟩ | ⟨rfl, rfl⟩ := sides <;> decide
  have second_eq := c₁.newestOf_eq apart
  have sorted := newestOf_perm sides b
  refine ⟨?_, ⟨_, ?_, sorted.map _⟩, ?_⟩
  · rw [c₂.openOrders, c₁.openOrders, List.filter_filter]
    refine List.filter_congr fun o _ => ?_
    obtain ⟨rfl, rfl⟩ | ⟨rfl, rfl⟩ := sides <;> cases o.kind <;> rfl
  · rw [c₂.closedOrders, second_eq, c₁.closedOrders, List.append_assoc, List.map_append]
    unfold closedOrder
    rw [c₁.account]
  · apply Exact.value_injective
    rw [c₂.value_balance, second_eq, c₁.value_balance, c₁.account, Exact.value_sub, value_equity,
      add_sub_cancel_right, add_assoc, ← List.sum_append, ← List.map_append]
    exact congrArg _ (sorted.map _).sum_eq

theorem close_sides {first second : OrderKind} (sides : IsEachSide first second)
    (ascends : b.Ascends) (timely : ∀ o ∈ b.openOrders, o.openTime ≤ q.time) :
    ∃ b', (b.close first everyTicket q >>= fun b => b.close second everyTicket q) = .ok b' ∧
      Liquidated q b b' := by
  have market : first.isPending = false ∧ second.isPending = false := by
    obtain ⟨rfl, rfl⟩ | ⟨rfl, rfl⟩ := sides <;> exact ⟨rfl, rfl⟩
  obtain ⟨b₁, closed₁, c₁⟩ := close_every market.1 ascends timely
  have still (o : Order α) (ho : o ∈ b₁.openOrders) : o.openTime ≤ q.time :=
    timely o (List.mem_of_mem_filter (c₁.openOrders ▸ ho))
  obtain ⟨b₂, closed₂, c₂⟩ := close_every market.2 c₁.ascends still
  refine ⟨b₂, ?_, .of_sides sides c₁ c₂⟩
  rw [closed₁]
  exact closed₂

/-- Equity is the balance that closing every market order would leave, but for the commissions, whichever
side is closed first. The pending orders stay. -/
theorem performAll_liquidated (instanceId : Int) (account : Account α) (balance : α)
    (orderLimit : Nat) (operations : List (Operation α)) (q : Quote α)
    (timely : ∀ o ∈ ((empty instanceId account balance orderLimit).performAll operations).openOrders,
      o.openTime ≤ q.time) :
    let b := (empty instanceId account balance orderLimit).performAll operations
    ∃ buysFirst sellsFirst,
      (b.close .buy everyTicket q >>= fun b => b.close .sell everyTicket q) = .ok buysFirst ∧
      (b.close .sell everyTicket q >>= fun b => b.close .buy everyTicket q) = .ok sellsFirst ∧
      Liquidated q b buysFirst ∧ Liquidated q b sellsFirst ∧
      buysFirst.balance = sellsFirst.balance := by
  intro b
  have start := empty_ascends instanceId account balance orderLimit
  have ascends : b.Ascends := (performAll_changes start operations).ascends start
  obtain ⟨buysFirst, closed, liquidated⟩ := close_sides (.inl ⟨rfl, rfl⟩) ascends timely
  obtain ⟨sellsFirst, closed', liquidated'⟩ := close_sides (.inr ⟨rfl, rfl⟩) ascends timely
  exact ⟨buysFirst, sellsFirst, closed, closed', liquidated, liquidated',
    liquidated.balance.trans liquidated'.balance.symm⟩

end Exact

def mixedOperations : List (Operation ℚ) :=
  let quote (time : Int) (price : ℚ) : Quote ℚ := ⟨time, price, price + 0.01, 1, none⟩
  let record (lots : ℚ) : Instruction ℚ := { Instruction.blank with lots := lots }
  [ .place .buy (record 1) (quote 60 1),
    .place .sell (record 2) (quote 120 1.1),
    .place .buyLimit { record 1 with entryPrice := 0.5 } (quote 120 1.1),
    .place .buy (record 3) (quote 180 1.2),
    .bookSwap 7200 ]

def mixedTerms : Account ℚ :=
  { Account.standard with swapLong := -3, swapShort := 2, commissionPerLot := 7 }

theorem mixedOperations_liquidated :
    let b := (empty 1 mixedTerms 10000 5).performAll mixedOperations
    let q : Quote ℚ := ⟨7260, 1.3, 1.31, 1, none⟩
    (∀ o ∈ b.openOrders, o.openTime ≤ q.time) ∧
      (b.marketOrders.map (·.kind), b.openOrders.length) = ([.buy, .sell, .buy], 4) ∧
      ∃ buysFirst sellsFirst,
        (b.close .buy everyTicket q >>= fun b => b.close .sell everyTicket q) = .ok buysFirst ∧
        (b.close .sell everyTicket q >>= fun b => b.close .buy everyTicket q) = .ok sellsFirst ∧
        Liquidated q b buysFirst ∧ Liquidated q b sellsFirst ∧
        buysFirst.balance = sellsFirst.balance := by
  intro b q
  have timely : ∀ o ∈ b.openOrders, o.openTime ≤ q.time := by decide +kernel
  refine ⟨timely, ?_, performAll_liquidated 1 mixedTerms 10000 5 mixedOperations q timely⟩
  decide +kernel

end OrderBook
end Backtest
