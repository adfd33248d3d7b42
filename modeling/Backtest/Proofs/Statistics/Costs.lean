import Backtest.Arith.Double
import Backtest.Statistics.Result
import Backtest.Proofs.Statistics.Feed

namespace Backtest

namespace WeekSums

variable {α : Type} [Arith α]

/-- The ulcer sum and its peak after one more week's balance. -/
def ulcerStep (u : α × α) (balance : α) : α × α :=
  if balance > u.2 then (u.1, balance)
  else if u.2 > 0 then (u.1 + Arith.square (100.0 * (balance / u.2 - 1)), u.2)
  else u

theorem add_ulcer (w : WeekSums α) (fixedBase : Option α) (week : WeekBalance α) :
    ((w.add fixedBase week).ulcer, (w.add fixedBase week).peak) =
      ulcerStep (w.ulcer, w.peak) week.balance := by
  unfold add ulcerStep
  dsimp only
  split
  next => rfl
  next => split <;> rfl

theorem foldl_add_ulcer (w : WeekSums α) (fixedBase : Option α) (weeks : List (WeekBalance α)) :
    (weeks.foldl (·.add fixedBase ·) w).ulcer =
      ((weeks.map (·.balance)).foldl ulcerStep (w.ulcer, w.peak)).1 := by
  have seen : weeks.foldl (fun u week => ulcerStep u week.balance) (w.ulcer, w.peak) =
      ((weeks.foldl (·.add fixedBase ·) w).ulcer, (weeks.foldl (·.add fixedBase ·) w).peak) :=
    List.foldl_hom (fun w : WeekSums α => (w.ulcer, w.peak))
      fun w week => (w.add_ulcer fixedBase week).symm
  rw [List.foldl_map, seen]

end WeekSums

namespace Statistics

variable {α : Type}

/-- A call that adds to the statistics. -/
inductive Entry (α : Type) where
  | time (time : Int)
  | close (time : Int) (profit gross : α)

/-- A trade that cost nothing beside the move of the price. -/
def Entry.Costless : Entry α → Prop
  | .time _ => True
  | .close _ profit gross => profit = gross

/-- The same statistics with another choice of what the trade figures count. -/
def withCosts (s : Statistics α) (includeCosts : Bool) : Statistics α :=
  { s with options := { s.options with includeCosts := includeCosts } }

/-- The same account over the same time. What trade figures count may differ. -/
structure SameAccount (s t : Statistics α) : Prop where
  initialBalance : s.initialBalance = t.initialBalance
  compounding : s.options.disableCompounding = t.options.disableCompounding
  startTime : s.startTime = t.startTime
  endTime : s.endTime = t.endTime
  balance : s.balance = t.balance
  drawdown : s.drawdown = t.drawdown
  points : s.trades.toList.map point = t.trades.toList.map point

theorem withCosts_sameAccount (s : Statistics α) (includeCosts : Bool) :
    s.SameAccount (s.withCosts includeCosts) :=
  ⟨rfl, rfl, rfl, rfl, rfl, rfl, rfl⟩

theorem noteTime_withCosts (s : Statistics α) (includeCosts : Bool) (time : Int) :
    (s.withCosts includeCosts).noteTime time = (s.noteTime time).withCosts includeCosts := by
  unfold noteTime withCosts
  dsimp only
  split <;> rfl

theorem SameAccount.noteTime {s t : Statistics α} (h : s.SameAccount t) (time : Int) :
    (s.noteTime time).SameAccount (t.noteTime time) := by
  unfold Statistics.noteTime
  dsimp only
  rw [h.startTime, h.endTime]
  split
  · exact ⟨h.initialBalance, h.compounding, rfl, rfl, h.balance, by rw [h.drawdown], h.points⟩
  · exact ⟨h.initialBalance, h.compounding, rfl, rfl, h.balance, h.drawdown, h.points⟩

theorem weekEnd_balance (closed : List (Trade α)) (last : WeekBalance α) :
    (match closed.getLast? with
      | some t => (⟨t.balance, t.metricBalance⟩ : WeekBalance α)
      | none => last).balance =
      ((closed.map point).getLast?.map (·.balance)).getD last.balance := by
  rw [List.getLast?_map]
  cases closed.getLast? <;> rfl

theorem weekEnds_balances {trades trades' : List (Trade α)} {last last' : WeekBalance α}
    (same : last.balance = last'.balance) (points : trades.map point = trades'.map point) (n : Nat)
    (time : Int) :
    (weekEnds n time last trades).map (·.balance) =
      (weekEnds n time last' trades').map (·.balance) := by
  induction n generalizing time last last' trades trades' with
  | zero => rfl
  | succ n ih =>
    have inWeek (l : List (Trade α)) :
        (l.takeWhile fun t => t.time < time + week).map point =
          (l.map point).takeWhile fun p => p.time < time + week := by
      rw [List.takeWhile_map]
      rfl
    have closes : (trades.takeWhile fun t => t.time < time + week).map point =
        (trades'.takeWhile fun t => t.time < time + week).map point := by
      rw [inWeek, inWeek, points]
    unfold weekEnds
    generalize trades.takeWhile (fun t => decide (t.time < time + week)) = closed at closes ⊢
    generalize trades'.takeWhile (fun t => decide (t.time < time + week)) = closed' at closes ⊢
    have ended := weekEnd_balance closed last
    rw [closes, same, ← weekEnd_balance closed' last'] at ended
    -- the week takes equally many trades off either list
    have length : closed.length = closed'.length := by
      rw [← List.length_map point, closes, List.length_map]
    refine congrArg₂ List.cons ended (ih ended ?_ _)
    rw [List.map_drop, List.map_drop, points, length]

namespace SameAccount

variable {s t : Statistics α} (h : s.SameAccount t)
include h

theorem curve : s.curve = t.curve := by
  unfold Statistics.curve
  rw [h.startTime, h.initialBalance, h.endTime, h.balance]
  split
  next => rfl
  next start _ =>
    exact congrArg (fun points => (⟨start, t.initialBalance⟩ : CurvePoint α) :: points ++
      [⟨t.endTime, t.balance⟩]) h.points

theorem balances : s.trades.toList.map (·.balance) = t.trades.toList.map (·.balance) := by
  have mapped := congrArg (List.map CurvePoint.balance) h.points
  rwa [List.map_map, List.map_map] at mapped

theorem times : s.trades.toList.map (·.time) = t.trades.toList.map (·.time) := by
  have mapped := congrArg (List.map CurvePoint.time) h.points
  rwa [List.map_map, List.map_map] at mapped

theorem weeks : s.weeks.map (·.balance) = t.weeks.map (·.balance) := by
  unfold Statistics.weeks
  rw [h.startTime, h.endTime, h.initialBalance]
  exact weekEnds_balances rfl h.points _ _

end SameAccount

variable [Arith α]

def enter (s : Statistics α) : Entry α → Statistics α
  | .time time => s.noteTime time
  | .close time profit gross => s.addClose time profit gross

def enterAll (s : Statistics α) (entries : List (Entry α)) : Statistics α := entries.foldl enter s

theorem SameAccount.addClose {s t : Statistics α} (h : s.SameAccount t) (time : Int)
    (profit gross : α) :
    (s.addClose time profit gross).SameAccount (t.addClose time profit gross) := by
  have noted := h.noteTime time
  refine ⟨noted.initialBalance, noted.compounding, noted.startTime, noted.endTime, ?_, ?_, ?_⟩
  · exact congrArg (· + profit) noted.balance
  · unfold Statistics.addClose
    dsimp only
    rw [noted.drawdown, noted.compounding, noted.initialBalance, noted.balance]
  · unfold Statistics.addClose
    dsimp only
    rw [Array.toList_push, Array.toList_push, List.map_append, List.map_append, noted.points,
      List.map_singleton, List.map_singleton, point, point, noted.balance]

/-- No entry makes a difference to the account. -/
theorem SameAccount.enterAll {s t : Statistics α} (h : s.SameAccount t) (entries : List (Entry α)) :
    (s.enterAll entries).SameAccount (t.enterAll entries) := by
  unfold Statistics.enterAll
  induction entries generalizing s t with
  | nil => exact h
  | cons e entries ih =>
    cases e with
    | time time => exact ih (h.noteTime time)
    | close time profit gross => exact ih (h.addClose time profit gross)

theorem addClose_withCosts (s : Statistics α) (includeCosts : Bool) (time : Int) (profit : α) :
    (s.withCosts includeCosts).addClose time profit profit =
      (s.addClose time profit profit).withCosts includeCosts := by
  unfold addClose
  rw [noteTime_withCosts]
  dsimp only [withCosts]
  rw [ite_self, ite_self]

theorem enterAll_withCosts (s : Statistics α) (includeCosts : Bool) {entries : List (Entry α)}
    (costless : ∀ e ∈ entries, e.Costless) :
    (s.withCosts includeCosts).enterAll entries = (s.enterAll entries).withCosts includeCosts := by
  unfold enterAll
  induction entries generalizing s with
  | nil => rfl
  | cons e entries ih =>
    obtain ⟨free, rest⟩ := List.forall_mem_cons.mp costless
    rw [List.foldl_cons, List.foldl_cons, ← ih (s.enter e) rest]
    congr 1
    cases e with
    | time time => exact s.noteTime_withCosts includeCosts time
    | close time profit gross =>
      obtain rfl : profit = gross := free
      exact s.addClose_withCosts includeCosts time profit

namespace SameAccount

variable {s t : Statistics α} (h : s.SameAccount t)
include h

theorem straightness : s.straightness = t.straightness := by
  have size : s.trades.size = t.trades.size := by
    rw [← Array.length_toList, ← List.length_map point, h.points, List.length_map,
      Array.length_toList]
  have distances (start : Int) :
      (s.trades.toList.map fun t => (Arith.ofInt (t.time - start) : α)) =
        t.trades.toList.map fun t => Arith.ofInt (t.time - start) := by
    have mapped := congrArg (List.map fun time : Int => (Arith.ofInt (time - start) : α)) h.times
    rwa [List.map_map, List.map_map] at mapped
  unfold Statistics.straightness
  simp only [size, h.startTime, h.endTime, h.initialBalance, h.compounding, h.balances, distances]

theorem ulcerIndex : s.ulcerIndex = t.ulcerIndex := by
  have count : s.weeks.length = t.weeks.length := by
    rw [← List.length_map WeekBalance.balance, h.weeks, List.length_map]
  have sum : s.weekSums.ulcer = t.weekSums.ulcer := by
    unfold weekSums
    rw [WeekSums.foldl_add_ulcer, WeekSums.foldl_add_ulcer, h.weeks, h.initialBalance]
  unfold Statistics.ulcerIndex
  rw [count, sum]

theorem years : s.years = t.years := by
  unfold Statistics.years
  rw [h.startTime, h.endTime]

theorem growth : s.growth = t.growth := by
  unfold Statistics.growth
  rw [h.years, h.balance, h.initialBalance]

/-- The figures of the same account differ in those of the trades and in the Sharpe ratio at most. -/
theorem result (symbol : String) (counters : TradeCounts) (meanHolding : α) (barsProcessed : Nat) :
    s.result symbol counters meanHolding barsProcessed =
      { t.result symbol counters meanHolding barsProcessed with
        profitFactor := (s.result symbol counters meanHolding barsProcessed).profitFactor
        winningPercent := (s.result symbol counters meanHolding barsProcessed).winningPercent
        riskReward := (s.result symbol counters meanHolding barsProcessed).riskReward
        sharpe := (s.result symbol counters meanHolding barsProcessed).sharpe } := by
  unfold Statistics.result
  dsimp only
  rw [h.growth, h.ulcerIndex, h.straightness, h.years, h.drawdown, h.balance, h.endTime,
    h.initialBalance]

end SameAccount

/-- Whether costs are counted makes no difference to the balance curve, and of the figures to none but the
profit factor, the share of wins, the ratio of reward to risk and the Sharpe ratio. Where no trade cost
anything it makes no difference at all. -/
theorem enterAll_includeCosts (s : Statistics α) (includeCosts : Bool) (entries : List (Entry α)) :
    let one := s.enterAll entries
    let other := (s.withCosts includeCosts).enterAll entries
    one.curve = other.curve ∧
      ∀ symbol counters meanHolding barsProcessed,
        let figures := one.result symbol counters meanHolding barsProcessed
        let figures' := other.result symbol counters meanHolding barsProcessed
        figures =
            { figures' with
              profitFactor := figures.profitFactor
              winningPercent := figures.winningPercent
              riskReward := figures.riskReward
              sharpe := figures.sharpe } ∧
          ((∀ e ∈ entries, e.Costless) → figures = figures') := by
  intro one other
  have same : one.SameAccount other := (s.withCosts_sameAccount includeCosts).enterAll entries
  refine ⟨same.curve, fun symbol counters meanHolding barsProcessed => ?_⟩
  refine ⟨same.result symbol counters meanHolding barsProcessed, fun costless => ?_⟩
  have flagged : other = one.withCosts includeCosts := s.enterAll_withCosts includeCosts costless
  rw [flagged]
  rfl

def costlessTrades : List (Entry Float) := [.time 0, .close 100 90 90, .close 200 (-60) (-60)]

theorem enterAll_includeCosts_costless :
    (∀ e ∈ costlessTrades, e.Costless) ∧
      ((start 10000 ⟨false, true⟩).enterAll costlessTrades).result "EURUSD" .zero 100 2 =
        ((start 10000 ⟨false, false⟩).enterAll costlessTrades).result "EURUSD" .zero 100 2 := by
  have costless : ∀ e ∈ costlessTrades, e.Costless := by
    simp only [costlessTrades, List.forall_mem_cons, List.not_mem_nil, false_imp_iff, implies_true,
      Entry.Costless, and_self]
  obtain ⟨-, figures⟩ := enterAll_includeCosts (start 10000 ⟨false, true⟩) false costlessTrades
  exact ⟨costless, (figures "EURUSD" .zero 100 2).2 costless⟩

/-- With costs the choice does matter. -/
example :
    let entries : List (Entry Float) := [.time 0, .close 100 90 100, .close 200 (-60) (-50)]
    let figures (includeCosts : Bool) :=
      ((start 10000 ⟨false, includeCosts⟩).enterAll entries).result "EURUSD" .zero 100 2
    (figures true).profitFactor == 1.5 ∧ (figures false).profitFactor == 2 := by
  decide +kernel

end Statistics
end Backtest
