import Backtest.Arith.Double
import Backtest.Proofs.OrderBook.Operation
import Mathlib.Data.List.Induction

namespace Backtest

/-- Wednesdays are six days after a Thursday such as 1970-01-01. Beyond the calendar's years there are
none. -/
def IsWednesday (time : Int) : Prop :=
  (DateTime.firstSecond ≤ time ∧ time ≤ DateTime.lastSecond) ∧ time / 86400 % 7 = 6

instance (time : Int) : Decidable (IsWednesday time) := inferInstanceAs (Decidable (_ ∧ _))

theorem dayOfWeek_eq_three_iff (time : Int) : dayOfWeek time = 3 ↔ IsWednesday time := by
  unfold dayOfWeek DateTime.withinCalendar IsWednesday
  simp only [Bool.and_eq_true, decide_eq_true_eq]
  split
  next within => omega
  next beyond =>
    refine ⟨fun thursday => ?_, fun h => absurd h.1 beyond⟩
    simp at thursday

example : IsWednesday 1265155200 := by decide

namespace OrderBook

variable {α : Type}

def Operation.swapCall? : Operation α → Option Int
  | .bookSwap time => some time
  | _ => none

variable [Arith α]

/-- An order with the swap of one booking on an account: if it is in the market, the rate of its side for
its lots, three times on Wednesdays. -/
def charged (account : Account α) (time : Int) (o : Order α) : Order α :=
  if o.kind.isPending then o
  else
    { o with
      swap := o.swap + (if o.kind.isBuy then account.swapLong else account.swapShort) * o.lots *
        (if IsWednesday time then 3.0 else 1) }

def booking? (b : OrderBook α) (operation : Operation α) : Option Int :=
  operation.swapCall?.filter fun time => (b.bookSwap time).lastSwapTime ≠ b.lastSwapTime

/-- The times at which operations in sequence book swap, the oldest first. -/
def bookings (b : OrderBook α) : List (Operation α) → List Int
  | [] => []
  | operation :: rest => (b.booking? operation).toList ++ (b.perform operation).1.bookings rest

section Frame

omit [Arith α] in
theorem foldl_lastSwapTime {f : OrderBook α → Order α → OrderBook α}
    (each : ∀ b o, (f b o).lastSwapTime = b.lastSwapTime) (orders : List (Order α))
    (b : OrderBook α) : (orders.foldl f b).lastSwapTime = b.lastSwapTime :=
  List.foldlRecOn (motive := fun c : OrderBook α => c.lastSwapTime = b.lastSwapTime) orders f rfl
    fun c same o _ => (each c o).trans same

theorem settle_lastSwapTime (b : OrderBook α) (o : Order α) (price : α) (q : Quote α)
    (event : EventKind) : (b.settle o price q event).lastSwapTime = b.lastSwapTime := by
  unfold settle
  split <;> rfl

theorem closeOrder_lastSwapTime (b : OrderBook α) (o : Order α) (q : Quote α) :
    (b.closeOrder o q).lastSwapTime = b.lastSwapTime := by
  unfold closeOrder
  split
  next => rfl
  next => exact settle_lastSwapTime b o _ q _

theorem settleEntry_lastSwapTime (b : OrderBook α) (o : Order α) (bar : Bar α) (time : Int) :
    (b.settleEntry o bar time).lastSwapTime = b.lastSwapTime := by
  unfold settleEntry
  split
  next => rfl
  next =>
    split
    next => rfl
    next => split <;> rfl

theorem settleExit_lastSwapTime (b : OrderBook α) (o : Order α) (bar : Bar α) (q : Quote α) :
    (b.settleExit o bar q).lastSwapTime = b.lastSwapTime := by
  unfold settleExit
  split
  next => exact settle_lastSwapTime b o _ q _
  next => rfl

theorem place_lastSwapTime {b b' : OrderBook α} {kind : OrderKind} {r : Instruction α} {q : Quote α}
    {ticket : Option Int} (h : b.place kind r q = .ok (b', ticket)) :
    b'.lastSwapTime = b.lastSwapTime := by
  unfold place at h
  dsimp only at h
  split at h
  next => cases h; rfl
  next =>
    split at h
    next => cases h
    next =>
      split at h
      next => cases h; rfl
      next => cases h; rfl

theorem act_lastSwapTime {b b' : OrderBook α} {q : Quote α} {a : Action α} (h : b.act q a = .ok b') :
    b'.lastSwapTime = b.lastSwapTime := by
  cases a with
  | place kind r =>
    obtain ⟨ticket, placed⟩ := place_of_act h
    exact place_lastSwapTime placed
  | close kind ticket =>
    obtain ⟨found, -, rfl⟩ := close_ok h
    exact foldl_lastSwapTime (fun b o => closeOrder_lastSwapTime b o q) _ b
  | update kind ticket r =>
    obtain ⟨found, -, rfl⟩ := update_ok h
    exact foldl_lastSwapTime (f := fun b o => b.updateOrder o r q) (fun _ _ => rfl) _ b

theorem actAll_lastSwapTime (b : OrderBook α) (q : Quote α) (actions : List (Action α)) :
    (b.actAll q actions).1.lastSwapTime = b.lastSwapTime := by
  induction actions generalizing b with
  | nil => rfl
  | cons a rest ih =>
    unfold actAll
    split
    next b' h => exact (ih b').trans (act_lastSwapTime h)
    next => rfl

theorem perform_lastSwapTime (b : OrderBook α) {operation : Operation α}
    (other : operation.swapCall? = none) :
    (b.perform operation).1.lastSwapTime = b.lastSwapTime := by
  cases operation with
  | applyRecords records q => exact actAll_lastSwapTime b q _
  | place kind r q => exact actAll_lastSwapTime b q _
  | close kind ticket q => exact actAll_lastSwapTime b q _
  | update kind ticket r q => exact actAll_lastSwapTime b q _
  | settleEntries q =>
    change (b.settleEntries q).lastSwapTime = _
    unfold settleEntries
    split
    next => rfl
    next bar _ => exact foldl_lastSwapTime (fun b o => settleEntry_lastSwapTime b o bar q.time) _ b
  | settleExits q =>
    change (b.settleExits q).lastSwapTime = _
    unfold settleExits
    split
    next => rfl
    next bar _ => exact foldl_lastSwapTime (fun b o => settleExit_lastSwapTime b o bar q) _ b
  | bookSwap time => cases other

end Frame

theorem withSwap_eq (b : OrderBook α) (time : Int) : b.withSwap time = charged b.account time := by
  funext o
  unfold withSwap charged swapFactor
  simp only [dayOfWeek_eq_three_iff]

/-- A call books swap if more than an hour has passed on the clock and an order is in the market. -/
def IsSwapDue (b : OrderBook α) (time : Int) : Prop :=
  b.lastSwapTime + 3600 < time ∧ ∃ o ∈ b.openOrders, o.kind.isPending = false

theorem bookSwap_of_due {b : OrderBook α} {time : Int} (due : b.IsSwapDue time) :
    b.bookSwap time =
      { b with openOrders := b.openOrders.map (charged b.account time), lastSwapTime := time } := by
  obtain ⟨late, o, ho, market⟩ := due
  have passed : ¬ time - b.lastSwapTime ≤ swapInterval := by
    unfold swapInterval
    omega
  have held : b.openOrders.any (!·.kind.isPending) = true :=
    List.any_eq_true.mpr ⟨o, ho, by rw [market]; rfl⟩
  unfold bookSwap
  rw [if_neg passed, if_pos held, withSwap_eq]

theorem bookSwap_of_not_due {b : OrderBook α} {time : Int} (h : ¬ b.IsSwapDue time) :
    b.bookSwap time = b := by
  unfold bookSwap
  split
  next => rfl
  next passed =>
    unfold swapInterval at passed
    refine if_neg fun held => h ⟨by omega, ?_⟩
    obtain ⟨o, ho, market⟩ := List.any_eq_true.mp held
    exact ⟨o, ho, by simpa using market⟩

theorem booking?_of_due {b : OrderBook α} {time : Int} (due : b.IsSwapDue time) :
    b.booking? (.bookSwap time) = some time := by
  have moved : (b.bookSwap time).lastSwapTime ≠ b.lastSwapTime := by
    rw [bookSwap_of_due due]
    have late := due.1
    dsimp only
    omega
  exact Option.filter_eq_some_iff.mpr ⟨rfl, decide_eq_true moved⟩

theorem booking?_of_not_due {b : OrderBook α} {time : Int} (h : ¬ b.IsSwapDue time) :
    b.booking? (.bookSwap time) = none := by
  have still : (b.bookSwap time).lastSwapTime = b.lastSwapTime := by rw [bookSwap_of_not_due h]
  exact Option.filter_eq_none_iff.mpr fun t ht => by
    cases ht
    simp [still]

theorem bookings_append (b : OrderBook α) (operations more : List (Operation α)) :
    b.bookings (operations ++ more) = b.bookings operations ++ (b.performAll operations).bookings more := by
  induction operations generalizing b with
  | nil => rfl
  | cons operation rest ih =>
    rw [List.cons_append, bookings, ih, bookings, List.append_assoc]
    rfl

theorem bookings_snoc (b : OrderBook α) (operations : List (Operation α)) (operation : Operation α) :
    b.bookings (operations ++ [operation]) =
      b.bookings operations ++ ((b.performAll operations).booking? operation).toList := by
  rw [bookings_append, bookings, bookings, List.append_nil]

theorem performAll_snoc (b : OrderBook α) (operations : List (Operation α))
    (operation : Operation α) :
    b.performAll (operations ++ [operation]) = ((b.performAll operations).perform operation).1 := by
  unfold performAll
  rw [List.foldl_append]
  rfl

theorem bookings_sublist (b : OrderBook α) (operations : List (Operation α)) :
    (b.bookings operations).Sublist (operations.filterMap Operation.swapCall?) := by
  induction operations generalizing b with
  | nil => exact List.Sublist.refl _
  | cons operation rest ih =>
    unfold bookings booking?
    rw [List.filterMap_cons]
    cases operation.swapCall? with
    | none => exact ih _
    | some time =>
      suffices asked : ∀ o : Option Int, (o.filter _).toList.Sublist o.toList from
        (asked (some time)).append (ih _)
      intro o
      cases o with
      | none => exact List.Sublist.refl _
      | some time =>
        rw [Option.filter_some]
        split
        next => exact List.Sublist.refl _
        next => exact List.nil_sublist _

/-- The clock of a book shows the last booking, or zero, and no booking is early. -/
structure OnClock (b : OrderBook α) (booked : List Int) : Prop where
  last : b.lastSwapTime = booked.getLast?.getD 0
  apart : booked.Pairwise fun s t => s + 3600 < t
  late : ∀ t ∈ booked, 3600 < t ∧ t ≤ b.lastSwapTime

omit [Arith α] in
theorem OnClock.of_eq {b b' : OrderBook α} {booked : List Int} (h : b.OnClock booked)
    (same : b'.lastSwapTime = b.lastSwapTime) : b'.OnClock booked :=
  ⟨same.trans h.last, h.apart, fun t ht => same ▸ h.late t ht⟩

omit [Arith α] in
theorem OnClock.lastSwapTime_nonneg {b : OrderBook α} {booked : List Int} (h : b.OnClock booked) :
    0 ≤ b.lastSwapTime := by
  rw [h.last]
  cases last : booked.getLast? with
  | none => exact Int.le_refl 0
  | some t =>
    have := (h.late t (List.mem_of_getLast? last)).1
    change 0 ≤ t
    omega

theorem OnClock.perform {b : OrderBook α} {booked : List Int} (h : b.OnClock booked)
    (operation : Operation α) :
    (b.perform operation).1.OnClock (booked ++ (b.booking? operation).toList) := by
  cases call : operation.swapCall? with
  | none =>
    have unbooked : b.booking? operation = none := by rw [booking?, call]; rfl
    rw [unbooked, Option.toList_none, List.append_nil]
    exact h.of_eq (perform_lastSwapTime b call)
  | some time =>
    obtain rfl : operation = .bookSwap time := by
      cases operation with
      | bookSwap asked => exact congrArg Operation.bookSwap (Option.some.inj call)
      | _ => cases call
    by_cases due : b.IsSwapDue time
    · rw [booking?_of_due due, Option.toList_some]
      have moved : (b.perform (.bookSwap time)).1.lastSwapTime = time :=
        congrArg OrderBook.lastSwapTime (bookSwap_of_due due)
      have late := due.1
      refine ⟨?_, ?_, ?_⟩
      · rw [moved, List.getLast?_concat]
        rfl
      · refine List.pairwise_append.mpr ⟨h.apart, List.pairwise_singleton _ _, ?_⟩
        intro s hs t ht
        have := (h.late s hs).2
        rw [List.mem_singleton.mp ht]
        omega
      · intro t ht
        rw [moved]
        rcases List.mem_append.mp ht with earlier | now
        · have := h.late t earlier
          omega
        · have := h.lastSwapTime_nonneg
          rw [List.mem_singleton.mp now]
          omega
    · rw [booking?_of_not_due due, Option.toList_none, List.append_nil]
      exact h.of_eq (congrArg OrderBook.lastSwapTime (bookSwap_of_not_due due))

theorem empty_onClock (instanceId : Int) (account : Account α) (balance : α) (orderLimit : Nat) :
    (empty instanceId account balance orderLimit).OnClock [] :=
  ⟨rfl, List.Pairwise.nil, fun _ ht => absurd ht List.not_mem_nil⟩

theorem OnClock.performAll {b : OrderBook α} (h : b.OnClock []) (operations : List (Operation α)) :
    (b.performAll operations).OnClock (b.bookings operations) := by
  induction operations using List.reverseRecOn with
  | nil => exact h
  | append_singleton operations operation ih =>
    rw [performAll_snoc, bookings_snoc]
    exact ih.perform operation

omit [Arith α] in
/-- On the clock an hour has passed if it has since the last booking, and since 1970 began. -/
theorem OnClock.passed_iff {b : OrderBook α} {booked : List Int} (h : b.OnClock booked) (time : Int) :
    b.lastSwapTime + 3600 < time ↔ (∀ last ∈ booked.getLast?, last + 3600 < time) ∧ 3600 < time := by
  rw [h.last]
  cases last : booked.getLast? with
  | none => simp
  | some t =>
    have late := (h.late t (List.mem_of_getLast? last)).1
    simp only [Option.getD_some, Option.mem_some_iff, forall_eq']
    omega

/-- Calls that do not go back in time never find the clock ahead of them, and what they measure on it fits
the range of their own times. -/
theorem OnClock.fits {b : OrderBook α} (h : b.OnClock []) (operations : List (Operation α)) {time : Int}
    (ordered : (operations.filterMap Operation.swapCall? ++ [time]).Pairwise (· ≤ ·))
    (lower : Arith.minInt64 ≤ time) (upper : time ≤ Arith.maxInt64) :
    Arith.minInt64 ≤ time - (b.performAll operations).lastSwapTime ∧
      time - (b.performAll operations).lastSwapTime ≤ Arith.maxInt64 := by
  have clock := h.performAll operations
  have since := clock.lastSwapTime_nonneg
  refine ⟨?_, by omega⟩
  rw [clock.last]
  cases last : (b.bookings operations).getLast? with
  | none => simpa using lower
  | some t =>
    have asked := (b.bookings_sublist operations).subset (List.mem_of_getLast? last)
    have le := (List.pairwise_append.mp ordered).2.2 t asked time (List.mem_singleton_self time)
    unfold Arith.minInt64
    change _ ≤ time - t
    omega

/-- A call books swap exactly if an order is in the market and more than an hour has passed since swap was
last booked in the run, and since 1970 began. A booking charges the orders in the market and does nothing
else; any other call does nothing at all. So bookings are more than an hour apart. -/
theorem performAll_swaps (instanceId : Int) (account : Account α) (balance : α) (orderLimit : Nat)
    (operations : List (Operation α)) (time : Int) :
    let start := empty instanceId account balance orderLimit
    let b := start.performAll operations
    let booked := start.bookings operations
    let calls := operations.filterMap Operation.swapCall? ++ [time]
    let due := 3600 < time ∧ (∃ o ∈ b.openOrders, o.kind.isPending = false) ∧
      ∀ last ∈ booked.getLast?, last + 3600 < time
    (due → start.bookings (operations ++ [.bookSwap time]) = booked ++ [time] ∧
      b.bookSwap time =
        { b with openOrders := b.openOrders.map (charged account time), lastSwapTime := time }) ∧
    (¬ due → start.bookings (operations ++ [.bookSwap time]) = booked ∧ b.bookSwap time = b) ∧
    booked.Pairwise (fun s t => s + 3600 < t) ∧
    (calls.Pairwise (· ≤ ·) → Arith.minInt64 ≤ time → time ≤ Arith.maxInt64 →
      Arith.minInt64 ≤ time - b.lastSwapTime ∧ time - b.lastSwapTime ≤ Arith.maxInt64) := by
  intro start b booked calls due
  have begun : start.OnClock [] := empty_onClock instanceId account balance orderLimit
  have clock : b.OnClock booked := begun.performAll operations
  have changes : Changes start b :=
    performAll_changes (empty_ascends instanceId account balance orderLimit) operations
  have terms : b.account = account := changes.sameTerms.account
  have due_iff : b.IsSwapDue time ↔ due := by
    unfold IsSwapDue
    rw [clock.passed_iff time]
    exact ⟨fun ⟨⟨apart, late⟩, held⟩ => ⟨late, held, apart⟩,
      fun ⟨late, held, apart⟩ => ⟨⟨apart, late⟩, held⟩⟩
  refine ⟨fun h => ?_, fun h => ?_, clock.apart, begun.fits operations⟩
  · have isDue := due_iff.mpr h
    refine ⟨?_, terms ▸ bookSwap_of_due isDue⟩
    rw [bookings_snoc, booking?_of_due isDue]
    rfl
  · have notDue := mt due_iff.mp h
    refine ⟨?_, bookSwap_of_not_due notDue⟩
    rw [bookings_snoc, booking?_of_not_due notDue]
    exact List.append_nil _

/-- A position and a pending order over the night to Wednesday, 2010-02-03, with a call for swap a minute
after they were placed and another one at midnight. -/
def nightOperations : List (Operation Float) :=
  let quote (time : Int) : Quote Float := ⟨time, 1.1, 1.1, 1, none⟩
  let record (lots : Float) : Instruction Float := { Instruction.blank with lots := lots }
  [ .place .buy (record 2) (quote 1265151600),
    .place .sellLimit { record 1 with entryPrice := 1.2 } (quote 1265151600),
    .bookSwap 1265151660,
    .bookSwap 1265155200 ]

def nightTerms : Account Float := { Account.standard with swapLong := 1.5 }

/-- A second before a full hour has passed since the first booking nothing is booked, and a second after it
swap counts three times. -/
theorem nightOperations_swaps :
    let start := empty 1 nightTerms 10000 3
    let b := start.performAll nightOperations
    b.bookSwap 1265155259 = b ∧
      start.bookings (nightOperations ++ [.bookSwap 1265155261]) = [1265151660, 1265155261] ∧
      b.bookSwap 1265155261 = { b with
        openOrders := b.openOrders.map (charged nightTerms 1265155261)
        lastSwapTime := 1265155261 } ∧
      (b.bookSwap 1265155261).openOrders.map (fun o => o.swap == 1.5 * 2 + 1.5 * 2 * 3) =
        [true, false] ∧
      1265155261 - b.lastSwapTime ≤ Arith.maxInt64 := by
  intro start b
  have booked : start.bookings nightOperations = [1265151660] := by decide +kernel
  have held : ∃ o ∈ b.openOrders, o.kind.isPending = false := by decide +kernel
  obtain ⟨-, early, -, -⟩ := performAll_swaps 1 nightTerms 10000 3 nightOperations 1265155259
  obtain ⟨late, -, -, fits⟩ := performAll_swaps 1 nightTerms 10000 3 nightOperations 1265155261
  have tooEarly : ¬ ∀ last ∈ (start.bookings nightOperations).getLast?, last + 3600 < 1265155259 := by
    rw [booked]
    decide
  have passed : ∀ last ∈ (start.bookings nightOperations).getLast?, last + 3600 < 1265155261 := by
    rw [booked]
    decide
  obtain ⟨bookings, charges⟩ := late ⟨by decide, held, passed⟩
  refine ⟨(early fun due => tooEarly due.2.2).2, ?_, charges, by decide +kernel, ?_⟩
  · rw [bookings]
    exact congrArg (· ++ [1265155261]) booked
  · exact (fits (by decide) (by decide) (by decide)).2

/-- On Wednesday, 1969-12-31, a position that was never charged is not charged either. -/
theorem no_swap_before_1970 :
    let start := empty 1 nightTerms 10000 1
    let operations := [.place .buy { Instruction.blank with lots := 2 } ⟨-10800, 1.1, 1.1, 1, none⟩]
    let b := start.performAll operations
    IsWednesday (-7200) ∧ start.bookings operations = [] ∧
      (∃ o ∈ b.openOrders, o.kind.isPending = false) ∧
      start.bookings (operations ++ [.bookSwap (-7200)]) = [] ∧ b.bookSwap (-7200) = b := by
  intro start operations b
  refine ⟨by decide, by decide +kernel, by decide +kernel, by decide +kernel, ?_⟩
  exact bookSwap_of_not_due fun due => absurd due.1 (by decide +kernel)

end OrderBook
end Backtest
