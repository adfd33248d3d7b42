import Backtest.Engine.Script
import Backtest.Proofs.Portfolio.Conservation

namespace Backtest

open Arith.Exact (value)

variable {α σ : Type} [Arith α]

section Exact

variable [Arith.Exact α]

def realized (events : List (TradeEvent α)) : ℝ := ((closesOf events).map fun x => value x.2).sum

theorem value_balanceAfter (balance : α) (events : List (TradeEvent α)) :
    value (balanceAfter balance (closesOf events)) = value balance + realized events := by
  unfold realized
  generalize closesOf events = closes
  induction closes generalizing balance with
  | nil => simp [balanceAfter]
  | cons x rest ih =>
    change value (balanceAfter (balance + x.2) rest) = _
    rw [ih, Arith.Exact.value_add, List.map_cons, List.sum_cons, add_assoc]

theorem realized_perm {events events' : List (TradeEvent α)} (h : events.Perm events') :
    realized events = realized events' := by
  unfold realized closesOf
  exact (((h.filter _).map _).map _).sum_eq

theorem realized_append (events more : List (TradeEvent α)) :
    realized (events ++ more) = realized events + realized more := by
  unfold realized closesOf
  rw [List.filter_append, List.map_append, List.map_append, List.sum_append]

theorem InstanceRun.realized_closes (r : InstanceRun α σ) :
    realized r.closes = realized r.book.events.toList := by
  unfold realized closesOf closes
  rw [List.filter_filter]
  simp only [Bool.and_self]

/-- The mean holding time of a book, times the number of its closed orders, is their holding time. -/
theorem OrderBook.Timed.value_held {b : OrderBook α} (h : b.Timed) :
    value (b.meanHolding * Arith.ofCount b.closedOrders.size) =
      (b.closedOrders.toList.map fun o => ((o.closeTime - o.openTime : Int) : ℝ)).sum := by
  have sum : value b.heldSeconds =
      (b.closedOrders.toList.map fun o => ((o.closeTime - o.openTime : Int) : ℝ)).sum := by
    rw [h.held, OrderBook.heldFor, Arith.value_foldl_add, Arith.Exact.value_zero, zero_add,
      List.map_map]
    exact congrArg List.sum (List.map_congr_left fun o _ => Arith.Exact.value_ofInt _)
  unfold OrderBook.meanHolding
  rw [Arith.Exact.value_mul, Arith.value_ofCount, h.count]
  split
  next hzero =>
    have empty : b.closedOrders.toList = [] := List.eq_nil_of_length_eq_zero hzero
    rw [empty, hzero]
    simp
  next hpos =>
    have nonzero : (b.closedOrders.size : ℝ) ≠ 0 := Nat.cast_ne_zero.mpr hpos
    rw [Arith.Exact.value_div, Arith.value_ofCount, div_mul_cancel₀ _ nonzero, sum]

end Exact

theorem InstanceRun.Reconciled.balance {c : RunScope α} {r : InstanceRun α σ}
    (h : r.Reconciled c) :
    r.statistics.balance = balanceAfter c.initialBalance (closesOf r.book.events.toList) := by
  rw [h.fed.balance, Statistics.addEvents_balance]
  rfl

theorem InstanceRun.Reconciled.timed {c : RunScope α} {r : InstanceRun α σ} (h : r.Reconciled c) :
    r.book.Timed :=
  h.book.timed (OrderBook.empty_timed ..)

namespace Portfolio

variable {c : RunScope α} {stop : StopPoint} {p : Portfolio α σ}

omit [Arith α] in
theorem counters_eq (p : Portfolio α σ) :
    p.counters = ⟨(p.runs.map (·.book.counters.total)).sum, (p.runs.map (·.book.counters.longs)).sum,
      (p.runs.map (·.book.counters.shorts)).sum⟩ := by
  have go : ∀ (runs : List (InstanceRun α σ)) (before : TradeCounts),
      runs.foldl (fun sum r => sum.sum r.book.counters) before =
        ⟨before.total + (runs.map (·.book.counters.total)).sum,
          before.longs + (runs.map (·.book.counters.longs)).sum,
          before.shorts + (runs.map (·.book.counters.shorts)).sum⟩ := by
    intro runs
    induction runs with
    | nil => exact fun before => rfl
    | cons r rest ih =>
      intro before
      rw [List.foldl_cons, ih]
      simp [TradeCounts.sum, Nat.add_assoc]
  unfold counters
  rw [go]
  simp [TradeCounts.zero]

omit [Arith α] in
theorem closed_eq_length (p : Portfolio α σ) :
    p.runs.foldr (fun r n => r.book.closedOrders.size + n) 0 = p.closedOrders.length := by
  unfold closedOrders
  induction p.runs with
  | nil => rfl
  | cons r rest ih =>
    rw [List.foldr_cons, ih, List.flatMap_cons, List.length_append]
    rfl

/-- In exact arithmetic the combined balance gains what the runs gain. -/
theorem Conserves.value_balance [Arith.Exact α] {fed : List (TradeEvent α)}
    {runs : List (InstanceRun α σ)} {s : Statistics α} (h : Conserves c fed runs s) :
    value s.balance = value c.initialBalance +
      (runs.map fun r => value r.statistics.balance - value c.initialBalance).sum := by
  have gains : realized (runs.flatMap InstanceRun.closes) =
      (runs.map fun r => value r.statistics.balance - value c.initialBalance).sum := by
    have reconciled := h.reconciled
    clear h
    induction runs with
    | nil => rfl
    | cons r rest ih =>
      have hr := (reconciled r List.mem_cons_self).balance
      rw [List.flatMap_cons, realized_append, r.realized_closes,
        ih fun x hx => reconciled x (List.mem_cons_of_mem _ hx), List.map_cons, List.sum_cons, hr,
        value_balanceAfter, add_sub_cancel_left]
  rw [h.same.balance, Statistics.addEvents_balance, ← gains, ← realized_perm h.perm]
  exact value_balanceAfter c.initialBalance fed

/-- In exact arithmetic the combined mean is that over the closed orders of all runs. -/
theorem value_meanHolding [Arith.Exact α] (p : Portfolio α σ) (timed : ∀ r ∈ p.runs, r.book.Timed) :
    value p.meanHolding =
      (p.closedOrders.map fun o => ((o.closeTime - o.openTime : Int) : ℝ)).sum /
        p.closedOrders.length := by
  have held : value (Arith.total (p.runs.map fun r =>
      r.book.meanHolding * Arith.ofCount r.book.closedOrders.size)) =
      (p.closedOrders.map fun o => ((o.closeTime - o.openTime : Int) : ℝ)).sum := by
    unfold closedOrders
    rw [Arith.value_total]
    generalize p.runs = runs at timed ⊢
    induction runs with
    | nil => rfl
    | cons r rest ih =>
      rw [List.map_cons, List.map_cons, List.sum_cons, List.flatMap_cons, List.map_append,
        List.sum_append, (timed r List.mem_cons_self).value_held,
        ih fun x hx => timed x (List.mem_cons_of_mem _ hx)]
  unfold meanHolding
  dsimp only
  rw [closed_eq_length]
  split
  next hzero => rw [hzero, Nat.cast_zero, div_zero, Arith.Exact.value_zero]
  next => rw [Arith.Exact.value_div, held, Arith.value_ofCount]

/-- A portfolio that runs without a fault of its own, whatever its engines do and wherever a stop is
asked for, has fed its statistics the closes of all instances, each once and in the order of their
times. Its counters are the sums of theirs, and in exact arithmetic it gains what they gain, and its
mean holding time is that of all their closed orders. The histories increase in time, as those that a
market takes in do. -/
theorem run_conserved {plans : List (InstancePlan α σ)} {host : EngineHost α σ}
    (assembled : plans.foldlM (add c) (empty c host) = .ok p)
    (increasing : ∀ s ∈ plans, s.rates.primary.Increasing) (ok : (p.run c stop).2 = none) :
    let q := (p.run c stop).1
    let report := q.report c
    (∃ fed : List (TradeEvent α), fed.Perm q.closes ∧ fed.Pairwise (·.time ≤ ·.time) ∧
      q.combined.SameTrades ((Statistics.start c.initialBalance c.statistics).addEvents fed)) ∧
    report.combined.counters =
      ⟨(report.instances.map (·.result.counters.total)).sum,
        (report.instances.map (·.result.counters.longs)).sum,
        (report.instances.map (·.result.counters.shorts)).sum⟩ ∧
    (q.closedOrders = [] → report.combined.meanHolding = 0) ∧
    ∀ _ : Arith.Exact α,
      value report.combined.finalBalance = value c.initialBalance +
        (report.instances.map fun i => value i.result.finalBalance - value c.initialBalance).sum ∧
      value report.combined.meanHolding =
        (q.closedOrders.map fun o => ((o.closeTime - o.openTime : Int) : ℝ)).sum /
          q.closedOrders.length := by
  intro q report
  have ran : p.run c stop = (q, none) := Prod.ext rfl ok
  obtain ⟨fed, conserves⟩ := run_conserves assembled increasing ran
  refine ⟨⟨fed, conserves.perm, conserves.sorted, conserves.same⟩, ?_, fun hnone => ?_,
    fun exact_arith => ⟨?_, ?_⟩⟩
  · change q.counters = _
    rw [counters_eq]
    simp only [report, Portfolio.report, List.map_map]
    rfl
  · change q.meanHolding = 0
    unfold meanHolding
    dsimp only
    rw [closed_eq_length, hnone]
    rfl
  · have balance := conserves.value_balance
    simp only [report, Portfolio.report, List.map_map]
    exact balance
  · exact q.value_meanHolding fun r hr => (conserves.reconciled r hr).timed

section Sample

def exactScope : RunScope ℚ := .start 10000 "USD" 1

def exactPlan (id first : Int) (script : Script ℚ) : InstancePlan ℚ (ScriptLog ℚ) where
  instanceId := id
  engine := script.engine
  engineConfig := ""
  settings := Vector.replicate slotCount 0
  account := .standard
  rates :=
    { symbol := "EURUSD"
      pair := none
      accountCurrency := "USD"
      primary := #[1.1, 1.1, 1.15, 1.12].zipIdx.map fun (price, n) =>
        ⟨first + n * 60, price, price, price, price, 0, 0, 0⟩
      buffers := []
      conversions := [] }

/-- A sale that the market stops on the bar on which the engine fails, two instances that trade on bars
of their own, and one that does not start. -/
def exactPlans : List (InstancePlan ℚ (ScriptLog ℚ)) :=
  [exactPlan 1 0 ⟨0, [(0, .place .sell 1 0 0.01 0), (2, .fail 3017)]⟩,
   exactPlan 2 30
    ⟨0, [(0, .marketBuy 1), (2, .closeAll .buy), (2, .marketSell 2), (3, .closeAll .sell)]⟩,
   exactPlan 3 60 ⟨0, [(1, .marketBuy 1), (2, .closeAll .buy)]⟩,
   exactPlan 4 0 ⟨3023, []⟩]

def exactPortfolio : Portfolio ℚ (ScriptLog ℚ) :=
  { empty exactScope (.empty (Script.log 0) 0) with runs := exactPlans.map (.ofPlan exactScope) }

/-- The closes of four instances, of which one fails, one is stopped and one never starts. -/
theorem exactPortfolio_conserved :
    let q := (exactPortfolio.run exactScope (some 10)).1
    let report := q.report exactScope
    report.failed = [1, 3, 4] ∧ q.closes.map (·.time) = [120, 150, 210, 180] ∧
    report.combined.finalBalance = 21000 ∧ report.combined.meanHolding = 90 ∧
    (∃ fed : List (TradeEvent ℚ), fed.Perm q.closes ∧ fed.Pairwise (·.time ≤ ·.time) ∧
      q.combined.SameTrades
        ((Statistics.start exactScope.initialBalance exactScope.statistics).addEvents fed)) ∧
    value report.combined.finalBalance = value exactScope.initialBalance +
      (report.instances.map fun i =>
        value i.result.finalBalance - value exactScope.initialBalance).sum := by
  have assembled : exactPlans.foldlM (add exactScope)
      (empty exactScope (.empty (Script.log 0) 0)) = .ok exactPortfolio := rfl
  have increasing : ∀ s ∈ exactPlans, s.rates.primary.Increasing := by
    unfold Series.Increasing
    decide +kernel
  have ok : (exactPortfolio.run exactScope (some 10)).2 = none :=
    Option.isNone_iff_eq_none.mp (by decide +kernel)
  obtain ⟨fed, -, -, exact_totals⟩ := run_conserved assembled increasing ok
  exact ⟨by decide +kernel, by decide +kernel, by decide +kernel, by decide +kernel, fed,
    (exact_totals inferInstance).1⟩

end Sample

end Portfolio
end Backtest
