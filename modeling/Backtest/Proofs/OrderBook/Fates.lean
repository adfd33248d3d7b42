import Backtest.Proofs.OrderBook.Places

namespace Backtest

/-- What an event tells of its order, apart from the balance it leaves. -/
structure Fate (α : Type) where
  ticket : Int
  event : EventKind
  price : α
  profit : α

def TradeEvent.fate {α : Type} (e : TradeEvent α) : Fate α := ⟨e.ticket, e.event, e.price, e.profit⟩

namespace Order

variable {α : Type} [Arith α]

/-- What is left of an order when its entry is settled: a pending one runs out, or turns into its market
kind if the bar crossed its entry. -/
def afterEntry (o : Order α) (bar : Bar α) (time : Int) : Option (Order α) :=
  if !o.kind.isPending then some o
  else if o.isExpired time then none
  else if o.isReached bar then some (OrderBook.filledOrder o time)
  else some o

/-- What the settlement of its entry brings to an order, if anything. -/
def entryFate? (o : Order α) (bar : Bar α) (time : Int) : Option (Fate α) :=
  if !o.kind.isPending then none
  else if o.isExpired time then some ⟨o.ticket, .cancelled, o.openPrice, 0⟩
  else if o.isReached bar then some ⟨o.ticket, .filled, o.openPrice, 0⟩
  else none

/-- A level of a market order was touched, by the last bar or by the current price. -/
def IsTouched (o : Order α) (bar : Bar α) (q : Quote α) : Prop :=
  let spread := Arith.larger (q.ask - q.bid) 0
  match o.kind with
  | .buy =>
    0 < o.stopLoss ∧ (bar.low ≤ o.stopLoss ∨ q.bid ≤ o.stopLoss) ∨
      0 < o.takeProfit ∧ (o.takeProfit ≤ bar.high ∨ o.takeProfit ≤ q.bid)
  | .sell =>
    0 < o.stopLoss ∧ (o.stopLoss ≤ bar.high + spread ∨ o.stopLoss ≤ q.ask) ∨
      0 < o.takeProfit ∧ (bar.low + spread ≤ o.takeProfit ∨ q.ask ≤ o.takeProfit)
  | _ => False

/-- How the market ends an order, if it does. -/
def exitFate? (o : Order α) (contractSize : α) (bar : Bar α) (q : Quote α) : Option (Fate α) :=
  if q.time < o.openTime then none
  else
    (o.exitPrice? bar q).map fun price =>
      let profit := o.priceProfit contractSize price q.conversion + o.swap - o.commission
      ⟨o.ticket, if profit > 0 then .takeProfit else .stopLoss, price, profit⟩

/-- An order as its end files it. -/
def filed (o : Order α) (time : Int) (fate : Fate α) : Order α :=
  { o with isOpen := false, closeTime := time, closePrice := fate.price, profit := fate.profit }

variable {o : Order α} {bar : Bar α} {q : Quote α} {time : Int}

theorem exitPrice?_isSome_iff : (o.exitPrice? bar q).isSome = true ↔ o.IsTouched bar q := by
  unfold exitPrice? IsTouched
  cases o.kind with
  | buy | sell =>
    dsimp only
    simp only [Bool.and_eq_true, Bool.or_eq_true, decide_eq_true_eq]
    split
    next stopped => exact ⟨fun _ => .inl stopped, fun _ => rfl⟩
    next notStopped =>
      split
      next targeted => exact ⟨fun _ => .inr targeted, fun _ => rfl⟩
      next notTargeted => exact ⟨nofun, fun touched => absurd touched (not_or.mpr ⟨notStopped, notTargeted⟩)⟩
  | buyLimit | sellLimit | buyStop | sellStop => simp

instance (o : Order α) (bar : Bar α) (q : Quote α) : Decidable (o.IsTouched bar q) :=
  decidable_of_iff _ exitPrice?_isSome_iff

theorem exitFate?_isSome_iff {contractSize : α} :
    (o.exitFate? contractSize bar q).isSome = true ↔ o.IsTouched bar q ∧ o.openTime ≤ q.time := by
  unfold exitFate?
  rw [← exitPrice?_isSome_iff, ← Int.not_lt]
  split
  next early => simp [early]
  next timely => simp [timely]

/-- What is left of an order stays as it is on the same bar. -/
theorem afterEntry_idem {o' : Order α} (h : o.afterEntry bar time = some o') :
    o'.entryFate? bar time = none := by
  unfold afterEntry at h
  unfold entryFate?
  split at h
  next market =>
    cases h
    exact if_pos market
  next pending =>
    split at h
    next => cases h
    next lasting =>
      split at h
      next =>
        cases h
        refine if_pos ?_
        change (!o.kind.filled.isPending) = true
        cases o.kind <;> rfl
      next ahead =>
        cases h
        rw [if_neg pending, if_neg lasting, if_neg ahead]

end Order

namespace OrderBook

variable {α : Type} [Arith α] {b : OrderBook α} {o : Order α} {bar : Bar α} {q : Quote α}

omit [Arith α] in
/-- A fold that adds to a view of the book, at each order what is due to the order. -/
theorem foldl_view {β : Type} {P : OrderBook α → Prop} {f : OrderBook α → Order α → OrderBook α}
    (view : OrderBook α → List β) {due : Order α → Option β}
    (each : ∀ b o, P b → P (f b o) ∧ view (f b o) = view b ++ (due o).toList)
    (orders : List (Order α)) (hP : P b) :
    view (orders.foldl f b) = view b ++ orders.filterMap due := by
  induction orders generalizing b with
  | nil => simp
  | cons o rest ih =>
    obtain ⟨kept, step⟩ := each b o hP
    rw [List.foldl_cons, ih kept, step, List.append_assoc]
    cases h : due o <;> simp [h]

section Entries

variable {time : Int}

theorem local_settleEntry (bar : Bar α) (time : Int) :
    Local Ascends (fun b o => b.settleEntry o bar time) (·.afterEntry bar time) where
  keeps ascends mem := ((treats_settleEntry bar time).changes _ _ mem).ascends ascends
  openOrders {b before o after} ascends split := by
    unfold settleEntry Order.afterEntry
    split
    next => simpa using split
    next =>
      split
      next =>
        change (b.drop o.ticket).openOrders = _
        simpa using ascends.drop_openOrders split
      next =>
        split
        next =>
          change (b.replace (filledOrder o time)).openOrders = _
          have same : (filledOrder o time).ticket = o.ticket := rfl
          simpa using ascends.replace_openOrders split same
        next => simpa using split

theorem settleEntry_fates (b : OrderBook α) (o : Order α) (bar : Bar α) (time : Int) :
    (b.settleEntry o bar time).events.toList.map TradeEvent.fate =
      b.events.toList.map TradeEvent.fate ++ (o.entryFate? bar time).toList := by
  unfold settleEntry Order.entryFate?
  split
  next => simp
  next =>
    split
    next => simp [cancel, record, drop, TradeEvent.fate]
    next =>
      split
      next => simp [fill, record, replace, TradeEvent.fate]
      next => simp

theorem settleEntry_of_none (h : o.entryFate? bar time = none) (b : OrderBook α) :
    b.settleEntry o bar time = b := by
  unfold settleEntry
  unfold Order.entryFate? at h
  split at h
  next market => rw [if_pos market]
  next pending =>
    split at h
    next => cases h
    next lasting =>
      split at h
      next => cases h
      next ahead => rw [if_neg pending, if_neg lasting, if_neg ahead]

theorem settleEntries_eq (hbar : q.lastBar = some bar) :
    b.settleEntries q = b.openOrders.foldl (fun b o => b.settleEntry o bar q.time) b := by
  unfold settleEntries
  rw [hbar]

theorem Ascends.settleEntries_openOrders (h : b.Ascends) (hbar : q.lastBar = some bar) :
    (b.settleEntries q).openOrders = b.openOrders.filterMap (·.afterEntry bar q.time) := by
  rw [settleEntries_eq hbar]
  exact ((local_settleEntry bar q.time).foldl h (List.nil_append _).symm).2

theorem settleEntries_fates (b : OrderBook α) (hbar : q.lastBar = some bar) :
    (b.settleEntries q).events.toList.map TradeEvent.fate =
      b.events.toList.map TradeEvent.fate ++ b.openOrders.filterMap (·.entryFate? bar q.time) := by
  rw [settleEntries_eq hbar]
  exact foldl_view (P := fun _ => True) (fun b => b.events.toList.map TradeEvent.fate)
    (fun b o _ => ⟨trivial, settleEntry_fates b o bar q.time⟩) _ trivial

theorem settleEntries_closedOrders (b : OrderBook α) (q : Quote α) :
    (b.settleEntries q).closedOrders = b.closedOrders := by
  unfold settleEntries
  split
  next => rfl
  next bar _ =>
    refine List.foldlRecOn (motive := fun b' : OrderBook α => b'.closedOrders = b.closedOrders) _ _ rfl ?_
    intro b' same o _
    rw [← same]
    unfold settleEntry
    split
    next => rfl
    next =>
      split
      next => rfl
      next => split <;> rfl

/-- A second look at the same bar finds nothing to settle. -/
theorem Ascends.settleEntries_idem (h : b.Ascends) (hbar : q.lastBar = some bar) :
    (b.settleEntries q).settleEntries q = b.settleEntries q := by
  have left := h.settleEntries_openOrders hbar
  generalize b.settleEntries q = entered at left
  rw [settleEntries_eq hbar]
  refine List.foldlRecOn (motive := (· = entered)) _ _ rfl ?_
  rintro b' same o ho
  rw [left] at ho
  obtain ⟨p, -, hp⟩ := List.mem_filterMap.mp ho
  rw [same]
  exact settleEntry_of_none (Order.afterEntry_idem hp) entered

end Entries

section Exits

def afterExit (contractSize : α) (bar : Bar α) (q : Quote α) (o : Order α) : Option (Order α) :=
  if (o.exitFate? contractSize bar q).isSome then none else some o

theorem settleExit_eq (b : OrderBook α) (o : Order α) (bar : Bar α) (q : Quote α) :
    b.settleExit o bar q =
      match o.exitFate? b.account.contractSize bar q with
      | some fate => b.settle o fate.price q fate.event
      | none => b := by
  unfold settleExit
  cases h : o.exitPrice? bar q with
  | none => simp [Order.exitFate?, h]
  | some price =>
    unfold Order.exitFate?
    by_cases early : q.time < o.openTime
    · rw [if_pos early]
      exact if_pos early
    · rw [if_neg early, h]
      rfl

theorem openTime_le_of_exitFate? {contractSize : α} {fate : Fate α}
    (h : o.exitFate? contractSize bar q = some fate) : o.openTime ≤ q.time :=
  (Order.exitFate?_isSome_iff.mp (Option.isSome_of_eq_some h)).2

theorem fate_of_exitFate? {contractSize : α} {fate : Fate α}
    (h : o.exitFate? contractSize bar q = some fate) :
    o.exitPrice? bar q = some fate.price ∧ fate.ticket = o.ticket ∧
      fate.profit = o.priceProfit contractSize fate.price q.conversion + o.swap - o.commission := by
  unfold Order.exitFate? at h
  split at h
  next => cases h
  next =>
    obtain ⟨price, hprice, rfl⟩ := Option.map_eq_some_iff.mp h
    exact ⟨hprice, rfl, rfl⟩

theorem settle_fate {fate : Fate α} (h : o.exitFate? b.account.contractSize bar q = some fate) :
    (b.settle o fate.price q fate.event).closedOrders.toList =
        b.closedOrders.toList ++ [o.filed q.time fate] ∧
      (b.settle o fate.price q fate.event).events.toList.map TradeEvent.fate =
        b.events.toList.map TradeEvent.fate ++ [fate] := by
  obtain ⟨-, ticket, profit⟩ := fate_of_exitFate? h
  rw [settle_eq b (openTime_le_of_exitFate? h)]
  simp [record, file, drop, closedOrder, Order.filed, TradeEvent.fate, ← ticket, ← profit]

theorem settleExit_account (b : OrderBook α) (o : Order α) (bar : Bar α) (q : Quote α) :
    (b.settleExit o bar q).account = b.account := by
  rw [settleExit_eq]
  split
  next fate h =>
    rw [settle_eq b (openTime_le_of_exitFate? h)]
    rfl
  next => rfl

theorem local_settleExit (account : Account α) (bar : Bar α) (q : Quote α) :
    Local (fun b => b.Ascends ∧ b.account = account) (fun b o => b.settleExit o bar q)
      (afterExit account.contractSize bar q) where
  keeps {b o} kept mem :=
    ⟨((treats_settleExit bar q).changes _ _ mem).ascends kept.1,
      (settleExit_account b o bar q).trans kept.2⟩
  openOrders {b before o after} kept split := by
    obtain ⟨ascends, rfl⟩ := kept
    rw [settleExit_eq]
    unfold afterExit
    cases h : o.exitFate? b.account.contractSize bar q with
    | none => simpa using split
    | some fate =>
      dsimp only
      rw [settle_eq b (openTime_le_of_exitFate? h)]
      change (b.drop o.ticket).openOrders = _
      simpa using ascends.drop_openOrders split

theorem settleExits_eq (hbar : q.lastBar = some bar) :
    b.settleExits q = b.openOrders.foldl (fun b o => b.settleExit o bar q) b := by
  unfold settleExits
  rw [hbar]

theorem Ascends.settleExits_openOrders (h : b.Ascends) (hbar : q.lastBar = some bar) :
    (b.settleExits q).openOrders = b.openOrders.filter fun o =>
      !decide (o.IsTouched bar q ∧ o.openTime ≤ q.time) := by
  rw [settleExits_eq hbar]
  refine ((local_settleExit b.account bar q).foldl ⟨h, rfl⟩ (List.nil_append _).symm).2.trans ?_
  rw [List.nil_append, ← List.filterMap_eq_filter]
  congr 1
  funext o
  unfold afterExit Option.guard
  simp only [Order.exitFate?_isSome_iff, Bool.not_eq_true', decide_eq_false_iff_not]
  by_cases ended : o.IsTouched bar q ∧ o.openTime ≤ q.time
  · rw [if_pos ended, if_neg (not_not_intro ended)]
  · rw [if_neg ended, if_pos ended]

theorem settleExits_closedOrders (b : OrderBook α) (hbar : q.lastBar = some bar) :
    (b.settleExits q).closedOrders.toList = b.closedOrders.toList ++
      b.openOrders.filterMap fun o =>
        (o.exitFate? b.account.contractSize bar q).map (o.filed q.time) := by
  rw [settleExits_eq hbar]
  refine foldl_view (P := (·.account = b.account)) (·.closedOrders.toList) ?_ _ rfl
  intro b' o same
  refine ⟨(settleExit_account b' o bar q).trans same, ?_⟩
  rw [settleExit_eq, ← same]
  cases h : o.exitFate? b'.account.contractSize bar q with
  | none => simp
  | some fate => exact (settle_fate h).1

theorem settleExits_fates (b : OrderBook α) (hbar : q.lastBar = some bar) :
    (b.settleExits q).events.toList.map TradeEvent.fate = b.events.toList.map TradeEvent.fate ++
      b.openOrders.filterMap (·.exitFate? b.account.contractSize bar q) := by
  rw [settleExits_eq hbar]
  refine foldl_view (P := (·.account = b.account))
    (fun b => b.events.toList.map TradeEvent.fate) ?_ _ rfl
  intro b' o same
  refine ⟨(settleExit_account b' o bar q).trans same, ?_⟩
  rw [settleExit_eq, ← same]
  cases h : o.exitFate? b'.account.contractSize bar q with
  | none => simp
  | some fate => exact (settle_fate h).2

theorem Ascends.settleExits_idem (h : b.Ascends) (hbar : q.lastBar = some bar) :
    (b.settleExits q).settleExits q = b.settleExits q := by
  have left := h.settleExits_openOrders hbar
  generalize b.settleExits q = exited at left
  rw [settleExits_eq hbar]
  refine List.foldlRecOn (motive := (· = exited)) _ _ rfl ?_
  rintro b' same o ho
  rw [left] at ho
  have stays : ¬ (o.exitFate? exited.account.contractSize bar q).isSome = true := by
    rw [Order.exitFate?_isSome_iff]
    exact of_decide_eq_false (by simpa only [Bool.not_eq_true'] using (List.mem_filter.mp ho).2)
  rw [same, settleExit_eq, Option.not_isSome_iff_eq_none.mp stays]

end Exits

/-- What is new among the events of a book, by what it tells of the orders. -/
theorem fates_drop {b b' : OrderBook α} (changes : Changes b b') {fates : List (Fate α)}
    (told : b'.events.toList.map TradeEvent.fate = b.events.toList.map TradeEvent.fate ++ fates) :
    (b'.events.toList.drop b.events.size).map TradeEvent.fate = fates := by
  obtain ⟨news, hnews⟩ := changes.events_prefix
  rw [← hnews, List.map_append] at told
  rw [← hnews, ← Array.length_toList, List.drop_left]
  exact List.append_cancel_left told

/-- On a bar the market settles every open order once, and each of them by itself: what is left of the open
orders, what is filed and what is told are lists over them, in their order, that read no other order. Loops
over places come to the same, and a second settlement finds nothing to do. -/
theorem performAll_settled_singly (instanceId : Int) (account : Account α) (balance : α)
    (orderLimit : Nat) (operations : List (Operation α)) (quote : Quote α) (bar : Bar α) :
    let b := (empty instanceId account balance orderLimit).performAll operations
    let q := { quote with lastBar := some bar }
    let entered := b.settleEntries q
    let exited := b.settleExits q
    (entered.openOrders = b.openOrders.filterMap (·.afterEntry bar q.time) ∧
      entered.closedOrders = b.closedOrders ∧
      (entered.events.toList.drop b.events.size).map TradeEvent.fate =
        b.openOrders.filterMap (·.entryFate? bar q.time)) ∧
    (exited.openOrders = b.openOrders.filter (fun o =>
        !decide (o.IsTouched bar q ∧ o.openTime ≤ q.time)) ∧
      exited.closedOrders.toList = b.closedOrders.toList ++ b.openOrders.filterMap (fun o =>
        (o.exitFate? account.contractSize bar q).map (o.filed q.time)) ∧
      (exited.events.toList.drop b.events.size).map TradeEvent.fate =
        b.openOrders.filterMap (·.exitFate? account.contractSize bar q)) ∧
    (entered.settleEntries q = entered ∧ exited.settleExits q = exited) ∧
    (entered = walk (fun b o => b.settleEntry o bar q.time) b.openOrders.length 0 b ∧
      exited = walk (fun b o => b.settleExit o bar q) b.openOrders.length 0 b) := by
  intro b q entered exited
  have start := empty_ascends instanceId account balance orderLimit
  have changes : Changes _ b := performAll_changes start operations
  have ascends := changes.ascends start
  have terms : b.account = account := changes.sameTerms.account
  have hbar : q.lastBar = some bar := rfl
  refine ⟨⟨ascends.settleEntries_openOrders hbar, settleEntries_closedOrders b q, ?_⟩,
    ⟨ascends.settleExits_openOrders hbar, ?_, ?_⟩,
    ⟨ascends.settleEntries_idem hbar, ascends.settleExits_idem hbar⟩, ?_, ?_⟩
  · exact fates_drop (settleEntries_changes ascends q) (settleEntries_fates b hbar)
  · exact terms ▸ settleExits_closedOrders b hbar
  · exact fates_drop (settleExits_changes ascends q) (terms ▸ settleExits_fates b hbar)
  · exact ((local_settleEntry bar q.time).walk_eq ascends (List.nil_append _).symm).symm
  · exact ((local_settleExit b.account bar q).walk_eq ⟨ascends, rfl⟩ (List.nil_append _).symm).symm

end OrderBook
end Backtest
