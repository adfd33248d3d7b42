import Backtest.Proofs.Arith.Exact
import Backtest.Proofs.Statistics.Costs
import Mathlib.Algebra.Order.BigOperators.Group.List
import Mathlib.Data.List.Induction
import Mathlib.Tactic.FieldSimp
import Mathlib.Tactic.Ring

namespace Backtest

open Arith (Exact)
open Arith.Exact (value)

/-- The sum of some numbers over how many they are, and zero if there are none. -/
noncomputable def arithmeticMean (xs : List ℝ) : ℝ := xs.sum / xs.length

variable {α : Type} [Arith α] [Exact α]

namespace RunningMean

/-- A running mean of some amounts. -/
structure Averages (m : RunningMean α) (xs : List ℝ) : Prop where
  count : m.count = xs.length
  mean : value m.mean = arithmeticMean xs

theorem empty_averages : (empty : RunningMean α).Averages [] := by
  refine ⟨rfl, ?_⟩
  rw [arithmeticMean, List.sum_nil, zero_div]
  exact Exact.value_zero

/-- The mean moves toward one more value by its share of the distance. -/
theorem arithmeticMean_snoc (xs : List ℝ) (x : ℝ) :
    arithmeticMean (xs ++ [x]) = arithmeticMean xs + (x - arithmeticMean xs) / (xs.length + 1) := by
  unfold arithmeticMean
  rw [List.sum_append, List.sum_singleton, List.length_append, List.length_singleton, Nat.cast_add,
    Nat.cast_one]
  have more : (xs.length : ℝ) + 1 ≠ 0 := by positivity
  cases xs with
  | nil => simp
  | cons y ys =>
    have some : ((y :: ys).length : ℝ) ≠ 0 := by
      rw [List.length_cons]
      positivity
    field_simp
    ring

theorem Averages.add {m : RunningMean α} {xs : List ℝ} (h : m.Averages xs) (x : α) :
    (m.add x).Averages (xs ++ [value x]) := by
  refine ⟨?_, ?_⟩
  · rw [List.length_append, ← h.count]
    rfl
  · unfold RunningMean.add
    rw [arithmeticMean_snoc, ← h.mean, ← h.count, Exact.value_add, Exact.value_div, Exact.value_sub,
      Arith.value_ofCount, Nat.cast_add, Nat.cast_one]

theorem Averages.perm {m : RunningMean α} {xs ys : List ℝ} (h : m.Averages xs) (same : xs.Perm ys) :
    m.Averages ys := by
  refine ⟨h.count.trans same.length_eq, ?_⟩
  rw [h.mean, arithmeticMean, arithmeticMean, same.sum_eq, same.length_eq]

theorem Averages.unique {m m' : RunningMean α} {xs : List ℝ} (h : m.Averages xs) (h' : m'.Averages xs) :
    m = m' := by
  obtain ⟨count, mean⟩ := m
  obtain ⟨count', mean'⟩ := m'
  have sameCount : count = count' := h.count.trans h'.count.symm
  have sameMean : mean = mean' := Exact.value_injective (h.mean.trans h'.mean.symm)
  rw [sameCount, sameMean]

end RunningMean

/-- The profit of a trade for the balance after it, without its sign. For a balance of zero it is zero. -/
noncomputable def Trade.size (t : Trade α) : ℝ := |value t.profit / value t.balance|

/-- The trades that won money, by the profit that counts for the figures. -/
def tradesWon (trades : List (Trade α)) : List (Trade α) := trades.filter fun t => 0 < t.metricProfit

def tradesLost (trades : List (Trade α)) : List (Trade α) := trades.filter fun t => t.metricProfit < 0

theorem tradesWon_snoc (trades : List (Trade α)) (t : Trade α) :
    tradesWon (trades ++ [t]) = tradesWon trades ++ if 0 < value t.metricProfit then [t] else [] := by
  have positive := Exact.lt_iff 0 t.metricProfit
  rw [Exact.value_zero] at positive
  unfold tradesWon
  rw [List.filter_append]
  by_cases gain : 0 < t.metricProfit
  · rw [if_pos (positive.mp gain), List.filter_cons_of_pos (by simpa using gain), List.filter_nil]
  · rw [if_neg (mt positive.mpr gain), List.filter_cons_of_neg (by simpa using gain), List.filter_nil]

theorem tradesLost_snoc (trades : List (Trade α)) (t : Trade α) :
    tradesLost (trades ++ [t]) = tradesLost trades ++ if value t.metricProfit < 0 then [t] else [] := by
  have negative := Exact.lt_iff t.metricProfit 0
  rw [Exact.value_zero] at negative
  unfold tradesLost
  rw [List.filter_append]
  by_cases loss : t.metricProfit < 0
  · rw [if_pos (negative.mp loss), List.filter_cons_of_pos (by simpa using loss), List.filter_nil]
  · rw [if_neg (mt negative.mpr loss), List.filter_cons_of_neg (by simpa using loss), List.filter_nil]

theorem sum_tradesLost_pos {trades : List (Trade α)} (some : tradesLost trades ≠ []) :
    0 < ((tradesLost trades).map fun t => |value t.metricProfit|).sum := by
  refine List.sum_pos _ (fun x hx => ?_) (mt List.map_eq_nil_iff.mp some)
  obtain ⟨t, ht, rfl⟩ := List.mem_map.mp hx
  have negative := (Exact.lt_iff t.metricProfit 0).mp (of_decide_eq_true (List.mem_filter.mp ht).2)
  rw [Exact.value_zero] at negative
  exact abs_pos.mpr negative.ne

theorem mean_size_nonneg (trades : List (Trade α)) : 0 ≤ arithmeticMean (trades.map Trade.size) := by
  refine div_nonneg (List.sum_nonneg fun x hx => ?_) (Nat.cast_nonneg _)
  obtain ⟨t, -, rfl⟩ := List.mem_map.mp hx
  exact abs_nonneg _

namespace TradeTally

theorem value_relativeSize (t : Trade α) : value (relativeSize t) = t.size := by
  unfold relativeSize Trade.size
  split
  next zero =>
    rw [(Exact.beq_iff t.balance 0).mp zero, Exact.value_zero, div_zero, abs_zero]
  next => rw [Arith.value_magnitude, Exact.value_div]

/-- A tally that holds the sums and the mean sizes of the trades won and lost among some trades. -/
structure Tallies (y : TradeTally α) (trades : List (Trade α)) : Prop where
  won : value y.won = ((tradesWon trades).map fun t => value t.metricProfit).sum
  lost : value y.lost = ((tradesLost trades).map fun t => |value t.metricProfit|).sum
  wins : y.wins.Averages ((tradesWon trades).map Trade.size)
  losses : y.losses.Averages ((tradesLost trades).map Trade.size)

theorem empty_tallies : (empty : TradeTally α).Tallies [] :=
  ⟨Exact.value_zero, Exact.value_zero, RunningMean.empty_averages, RunningMean.empty_averages⟩

namespace Tallies

variable {y : TradeTally α} {trades : List (Trade α)} {t : Trade α}

theorem even (h : y.Tallies trades) (level : value t.metricProfit = 0) : y.Tallies (trades ++ [t]) := by
  have noWin := tradesWon_snoc trades t
  have noLoss := tradesLost_snoc trades t
  rw [level, if_neg (lt_irrefl 0), List.append_nil] at noWin noLoss
  exact ⟨noWin ▸ h.won, noLoss ▸ h.lost, noWin ▸ h.wins, noLoss ▸ h.losses⟩

theorem win (h : y.Tallies trades) (gain : 0 < value t.metricProfit) :
    Tallies { y with won := y.won + t.metricProfit, wins := y.wins.add (relativeSize t) }
      (trades ++ [t]) := by
  have oneWin := tradesWon_snoc trades t
  have noLoss := tradesLost_snoc trades t
  rw [if_pos gain] at oneWin
  rw [if_neg gain.le.not_gt, List.append_nil] at noLoss
  refine ⟨?_, noLoss ▸ h.lost, ?_, noLoss ▸ h.losses⟩
  · rw [oneWin, List.map_append, List.sum_append, List.map_singleton, List.sum_singleton, ← h.won]
    exact Exact.value_add _ _
  · rw [oneWin, List.map_append, List.map_singleton, ← value_relativeSize]
    exact h.wins.add _

theorem loss (h : y.Tallies trades) (negative : value t.metricProfit < 0) :
    Tallies
      { y with
        lost := y.lost + Arith.magnitude t.metricProfit
        losses := y.losses.add (relativeSize t) }
      (trades ++ [t]) := by
  have noWin := tradesWon_snoc trades t
  have oneLoss := tradesLost_snoc trades t
  rw [if_neg negative.le.not_gt, List.append_nil] at noWin
  rw [if_pos negative] at oneLoss
  refine ⟨noWin ▸ h.won, ?_, noWin ▸ h.wins, ?_⟩
  · rw [oneLoss, List.map_append, List.sum_append, List.map_singleton, List.sum_singleton, ← h.lost,
      ← Arith.value_magnitude]
    exact Exact.value_add _ _
  · rw [oneLoss, List.map_append, List.map_singleton, ← value_relativeSize]
    exact h.losses.add _

theorem add (h : y.Tallies trades) (t : Trade α) : (y.add t).Tallies (trades ++ [t]) := by
  have positive := Exact.lt_iff 0 t.metricProfit
  have level := (Exact.beq_iff t.metricProfit 0).trans Exact.value_injective.eq_iff.symm
  rw [Exact.value_zero] at positive level
  unfold TradeTally.add
  split
  next zero => exact h.even (level.mp zero)
  next decided =>
    split
    next gain => exact h.win (positive.mp gain)
    next noGain =>
      exact h.loss (lt_of_le_of_ne (not_lt.mp (mt positive.mpr noGain)) (mt level.mpr decided))

end Tallies

theorem ofTrades_tallies (trades : List (Trade α)) : (ofTrades trades).Tallies trades := by
  induction trades using List.reverseRecOn with
  | nil => exact empty_tallies
  | append_singleton trades t ih =>
    unfold ofTrades at ih ⊢
    rw [List.foldl_append]
    exact ih.add t

namespace Tallies

variable {y y' : TradeTally α} {trades trades' : List (Trade α)}

theorem perm (h : y.Tallies trades) (same : trades.Perm trades') : y.Tallies trades' := by
  have wins := same.filter fun t => decide (0 < t.metricProfit)
  have losses := same.filter fun t => decide (t.metricProfit < 0)
  refine ⟨?_, ?_, h.wins.perm (wins.map _), h.losses.perm (losses.map _)⟩
  · rw [h.won]
    exact (wins.map _).sum_eq
  · rw [h.lost]
    exact (losses.map _).sum_eq

theorem unique (h : y.Tallies trades) (h' : y'.Tallies trades) : y = y' := by
  obtain ⟨won, lost, wins, losses⟩ := y
  obtain ⟨won', lost', wins', losses'⟩ := y'
  have sameWon : won = won' := Exact.value_injective (h.won.trans h'.won.symm)
  have sameLost : lost = lost' := Exact.value_injective (h.lost.trans h'.lost.symm)
  have sameWins : wins = wins' := h.wins.unique h'.wins
  have sameLosses : losses = losses' := h.losses.unique h'.losses
  rw [sameWon, sameLost, sameWins, sameLosses]

theorem profitFactor (h : y.Tallies trades) :
    value y.profitFactor = if (tradesLost trades).isEmpty then 0
      else ((tradesWon trades).map fun t => value t.metricProfit).sum /
        ((tradesLost trades).map fun t => |value t.metricProfit|).sum := by
  have some_lost := Exact.lt_iff 0 y.lost
  rw [Exact.value_zero, h.lost] at some_lost
  unfold TradeTally.profitFactor
  by_cases none_lost : tradesLost trades = []
  · have zero : ¬y.lost > 0 := mt some_lost.mp (by rw [none_lost]; exact lt_irrefl 0)
    rw [if_neg zero, if_pos (List.isEmpty_iff.mpr none_lost), Exact.value_zero]
  · have positive : y.lost > 0 := some_lost.mpr (sum_tradesLost_pos none_lost)
    rw [if_pos positive, if_neg (mt List.isEmpty_iff.mp none_lost), Exact.value_div, h.won, h.lost]

theorem winningPercent (h : y.Tallies trades) :
    value y.winningPercent =
      if (tradesWon trades).length + (tradesLost trades).length = 0 then 0
      else 100 * (((tradesWon trades).length : ℝ) /
        ((tradesWon trades).length + (tradesLost trades).length)) := by
  have wins := h.wins.count
  have losses := h.losses.count
  rw [List.length_map] at wins losses
  have hundred : value (100.0 : α) = 100 := by
    rw [Exact.value_ofScientific]
    norm_num
  unfold TradeTally.winningPercent
  dsimp only
  rw [wins, losses]
  split
  next => exact Exact.value_zero
  next =>
    rw [Exact.value_mul, Exact.value_div, Arith.value_ofCount, Arith.value_ofCount, hundred,
      Nat.cast_add, mul_comm]

theorem riskReward (h : y.Tallies trades) :
    value y.riskReward =
      if arithmeticMean ((tradesLost trades).map Trade.size) = 0 then 0
      else arithmeticMean ((tradesWon trades).map Trade.size) /
        arithmeticMean ((tradesLost trades).map Trade.size) := by
  have some_risk := Exact.lt_iff 0 y.losses.mean
  rw [Exact.value_zero, h.losses.mean] at some_risk
  have nonneg := mean_size_nonneg (tradesLost trades)
  unfold TradeTally.riskReward
  by_cases zero : arithmeticMean ((tradesLost trades).map Trade.size) = 0
  · have none : ¬y.losses.mean > 0 := mt some_risk.mp (by rw [zero]; exact lt_irrefl 0)
    rw [if_neg none, if_pos zero, Exact.value_zero]
  · have positive : y.losses.mean > 0 := some_risk.mpr (lt_of_le_of_ne nonneg (Ne.symm zero))
    rw [if_pos positive, if_neg zero, Exact.value_div, h.wins.mean, h.losses.mean]

end Tallies

theorem ofTrades_perm {trades trades' : List (Trade α)} (same : trades.Perm trades') :
    ofTrades trades = ofTrades trades' :=
  ((ofTrades_tallies trades).perm same).unique (ofTrades_tallies trades')

end TradeTally

namespace Statistics

/-- In exact arithmetic the figures of wins and losses are what they stand for. The profit factor is the sum
of the profits won for the sum of the profits lost, and zero without a loss. The share of wins, in percent, is
among the trades that were won or lost. The ratio of reward to risk is the mean size of the trades won for the
mean size of the trades lost, and zero if that is. None of them depends on the order of the trades. -/
theorem result_ratios (s : Statistics α) (symbol : String) (counters : TradeCounts) (meanHolding : α)
    (barsProcessed : Nat) :
    let figures := s.result symbol counters meanHolding barsProcessed
    let wins := tradesWon s.trades.toList
    let losses := tradesLost s.trades.toList
    value figures.profitFactor =
        (if losses.isEmpty then 0
          else (wins.map fun t => value t.metricProfit).sum /
            (losses.map fun t => |value t.metricProfit|).sum) ∧
      value figures.winningPercent =
        (if wins.length + losses.length = 0 then 0
          else 100 * ((wins.length : ℝ) / (wins.length + losses.length))) ∧
      value figures.riskReward =
        (if arithmeticMean (losses.map Trade.size) = 0 then 0
          else arithmeticMean (wins.map Trade.size) / arithmeticMean (losses.map Trade.size)) ∧
      ∀ s' : Statistics α, s'.trades.toList.Perm s.trades.toList →
        let figures' := s'.result symbol counters meanHolding barsProcessed
        figures'.profitFactor = figures.profitFactor ∧
          figures'.winningPercent = figures.winningPercent ∧ figures'.riskReward = figures.riskReward := by
  have tally := TradeTally.ofTrades_tallies s.trades.toList
  refine ⟨tally.profitFactor, tally.winningPercent, tally.riskReward, fun s' same => ?_⟩
  have sameTally := TradeTally.ofTrades_perm same
  exact ⟨congrArg TradeTally.profitFactor sameTally, congrArg TradeTally.winningPercent sameTally,
    congrArg TradeTally.riskReward sameTally⟩

def mixedTrades : Statistics ℚ :=
  (start 1000 .standard).enterAll
    [.time 0, .close 100 50 50, .close 200 0 0, .close 300 (-100) (-100), .close 400 25 25]

theorem mixedTrades_ratios :
    let s' := { mixedTrades with trades := mixedTrades.trades.reverse }
    let figures := mixedTrades.result "EURUSD" .zero 0 4
    let figures' := s'.result "EURUSD" .zero 0 4
    s'.trades.toList.Perm mixedTrades.trades.toList ∧
      (figures'.profitFactor = figures.profitFactor ∧
        figures'.winningPercent = figures.winningPercent ∧ figures'.riskReward = figures.riskReward) ∧
      figures.profitFactor = 3 / 4 ∧ figures.winningPercent = 200 / 3 ∧
      figures.riskReward = (50 / 1050 + 25 / 975) / 2 / (100 / 950) := by
  intro s' figures figures'
  have same : s'.trades.toList.Perm mixedTrades.trades.toList := by
    rw [Array.toList_reverse]
    exact List.reverse_perm _
  exact ⟨same, (result_ratios mixedTrades "EURUSD" .zero 0 4).2.2.2 s' same, by decide +kernel,
    by decide +kernel, by decide +kernel⟩

end Statistics
end Backtest
