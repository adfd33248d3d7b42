import Backtest.Proofs.Arith.Exact
import Backtest.Proofs.Statistics.Span
import Mathlib.Tactic.Ring

namespace Backtest

open Arith (Exact)
open Arith.Exact (value)

variable {α : Type}

/-- The balances after some trades that follow given balances. -/
def balancesAfter (last : WeekBalance α) (trades : List (Trade α)) : WeekBalance α :=
  match trades.getLast? with
  | some t => ⟨t.balance, t.metricBalance⟩
  | none => last

/-- The balances at the ends of weeks with the trades of each. -/
def endings (last : WeekBalance α) : List (List (Trade α)) → List (WeekBalance α)
  | [] => []
  | closed :: rest => balancesAfter last closed :: endings (balancesAfter last closed) rest

/-- What each week changes the metric balance by. -/
def weeklyChanges [Arith α] (last : WeekBalance α) : List (WeekBalance α) → List α
  | [] => []
  | ended :: rest => (ended.metric - last.metric) :: weeklyChanges ended rest

theorem balancesAfter_append (last : WeekBalance α) (trades more : List (Trade α)) :
    balancesAfter last (trades ++ more) = balancesAfter (balancesAfter last trades) more := by
  unfold balancesAfter
  rw [List.getLast?_append]
  cases more.getLast? <;> rfl

theorem endings_length (last : WeekBalance α) (weeks : List (List (Trade α))) :
    (endings last weeks).length = weeks.length := by
  induction weeks generalizing last with
  | nil => rfl
  | cons closed rest ih => exact congrArg (· + 1) (ih _)

theorem endings_getLast (last : WeekBalance α) (weeks : List (List (Trade α))) :
    (endings last weeks).getLast?.getD last = balancesAfter last weeks.flatten := by
  induction weeks generalizing last with
  | nil => rfl
  | cons closed rest ih =>
    rw [List.flatten_cons, balancesAfter_append, ← ih, endings, List.getLast?_cons, Option.getD_some]

theorem value_weeklyChanges [Arith α] [Exact α] (last : WeekBalance α)
    (weeks : List (WeekBalance α)) :
    ((weeklyChanges last weeks).map value).sum =
      value (weeks.getLast?.getD last).metric - value last.metric := by
  induction weeks generalizing last with
  | nil => exact (sub_self _).symm
  | cons ended rest ih =>
    unfold weeklyChanges
    rw [List.map_cons, List.sum_cons, ih, Exact.value_sub, List.getLast?_cons, Option.getD_some]
    ring

namespace Statistics

/-- The trades of the `k`-th week from `begun`. -/
def tradesIn (begun : Int) (trades : List (Trade α)) (k : Nat) : List (Trade α) :=
  trades.filter fun t => (t.time - begun) / week = k

theorem weekEnds_succ (n : Nat) (begun : Int) (last : WeekBalance α) (trades : List (Trade α)) :
    let first := trades.takeWhile fun t => t.time < begun + week
    weekEnds (n + 1) begun last trades = balancesAfter last first ::
      weekEnds n (begun + week) (balancesAfter last first)
        (trades.dropWhile fun t => t.time < begun + week) := by
  intro first
  have left : trades.drop first.length = trades.dropWhile fun t => t.time < begun + week := by
    calc trades.drop first.length
      _ = (first ++ trades.dropWhile fun t => t.time < begun + week).drop first.length := by
        rw [List.takeWhile_append_dropWhile]
      _ = _ := List.drop_left
  rw [← left]
  rfl

/-- Weeks are begun until the end is reached. -/
theorem weeksBetween_spec {begun stop : Int} (lasting : begun < stop) :
    stop ≤ begun + weeksBetween begun stop * week ∧
      begun + (weeksBetween begun stop - 1) * week < stop := by
  unfold weeksBetween week
  omega


section Sorted

variable {trades : List (Trade α)} (sorted : (trades.map (·.time)).Pairwise (· ≤ ·))
include sorted

theorem takeWhile_before (stop : Int) :
    (trades.takeWhile fun t => t.time < stop) = trades.filter (fun t => t.time < stop) ∧
      (trades.dropWhile fun t => t.time < stop) = trades.filter fun t => stop ≤ t.time := by
  induction trades with
  | nil => exact ⟨rfl, rfl⟩
  | cons t rest ih =>
    obtain ⟨later, sorted⟩ := List.pairwise_cons.mp sorted
    by_cases early : t.time < stop
    · simp [early, ih sorted]
    · have late : ∀ u ∈ rest, stop ≤ u.time := fun u hu =>
        (not_lt.mp early).trans (later u.time (List.mem_map_of_mem hu))
      have none : rest.filter (fun u => u.time < stop) = [] :=
        List.filter_eq_nil_iff.mpr fun u hu => by simpa using late u hu
      have all : rest.filter (fun u => stop ≤ u.time) = rest :=
        List.filter_eq_self.mpr fun u hu => by simpa using late u hu
      simp [early, not_lt.mp early, none, all]

theorem filter_before_append (stop : Int) :
    trades.filter (fun t => t.time < stop) ++ trades.filter (fun t => stop ≤ t.time) = trades := by
  obtain ⟨before, after⟩ := takeWhile_before sorted stop
  rw [← before, ← after, List.takeWhile_append_dropWhile]

/-- The trades of the first weeks, in their order, are those before the end of these. -/
theorem tradesIn_flatten {begun : Int} (begins : ∀ t ∈ trades, begun ≤ t.time) (n : Nat) :
    ((List.range n).map (tradesIn begun trades)).flatten =
      trades.filter fun t => t.time < begun + n * week := by
  induction n with
  | zero =>
    symm
    simpa using begins
  | succ n ih =>
    have ordered : ((trades.filter fun t => t.time < begun + (n + 1 : Nat) * week).map
        (·.time)).Pairwise (· ≤ ·) := sorted.sublist (List.filter_sublist.map _)
    rw [List.range_succ, List.map_append, List.flatten_append, ih,
      ← filter_before_append ordered (begun + n * week), List.filter_filter, List.filter_filter,
      List.map_singleton, List.flatten_singleton]
    refine congrArg₂ (· ++ ·) (List.filter_congr fun t _ => ?_) (List.filter_congr fun t _ => ?_)
    · rw [← Bool.decide_and, decide_eq_decide]
      unfold week
      omega
    · rw [← Bool.decide_and, decide_eq_decide]
      unfold week
      omega

/-- No trade is left out of all weeks but those at the very end of whole weeks. -/
theorem tradesIn_flatten_append {begun stop : Int} (lasting : begun < stop)
    (begins : ∀ t ∈ trades, begun ≤ t.time) (ends : ∀ t ∈ trades, t.time ≤ stop) :
    ((List.range (weeksBetween begun stop)).map (tradesIn begun trades)).flatten ++
      trades.filter (fun t => week ∣ stop - begun ∧ t.time = stop) = trades := by
  obtain ⟨reached, needed⟩ := weeksBetween_spec lasting
  have after : trades.filter (fun t => begun + weeksBetween begun stop * week ≤ t.time) =
      trades.filter fun t => week ∣ stop - begun ∧ t.time = stop := by
    refine List.filter_congr fun t ht => ?_
    have := ends t ht
    rw [decide_eq_decide]
    unfold week at reached needed ⊢
    omega
  rw [tradesIn_flatten sorted begins, ← after]
  exact filter_before_append sorted _

theorem weekEnds_eq {begun : Int} (begins : ∀ t ∈ trades, begun ≤ t.time) (n : Nat)
    (last : WeekBalance α) :
    weekEnds n begun last trades = endings last ((List.range n).map (tradesIn begun trades)) := by
  induction n generalizing trades begun last with
  | zero => rfl
  | succ n ih =>
    obtain ⟨before, after⟩ := takeWhile_before sorted (begun + week)
    have first : trades.takeWhile (fun t => t.time < begun + week) = tradesIn begun trades 0 := by
      rw [before]
      refine List.filter_congr fun t ht => ?_
      have := begins t ht
      rw [decide_eq_decide]
      unfold week
      omega
    have next (k : Nat) : tradesIn (begun + week) (trades.filter fun t => begun + week ≤ t.time) k =
        tradesIn begun trades (k + 1) := by
      unfold tradesIn
      rw [List.filter_filter]
      refine List.filter_congr fun t ht => ?_
      rw [← Bool.decide_and, decide_eq_decide]
      unfold week
      omega
    have later : ((trades.filter fun t => begun + week ≤ t.time).map (·.time)).Pairwise (· ≤ ·) :=
      sorted.sublist (List.filter_sublist.map _)
    have rest := ih later (fun t ht => of_decide_eq_true (List.mem_filter.mp ht).2)
      (balancesAfter last (tradesIn begun trades 0))
    rw [List.range_succ_eq_map, List.map_cons, List.map_map]
    rw [weekEnds_succ, first, after, rest, funext next]
    rfl

end Sorted

section Entering

variable [Arith α]

def Summed (s : Statistics α) : Prop :=
  balancesAfter ⟨s.initialBalance, s.initialBalance⟩ s.trades.toList = ⟨s.balance, s.metricBalance⟩

theorem Summed.enter {s : Statistics α} (h : s.Summed) (e : Entry α) : (s.enter e).Summed := by
  cases e with
  | time t =>
    have noted := s.noteTime_sameTrades t
    unfold Summed Statistics.enter
    rw [noted.initialBalance, noted.trades, noted.balance, noted.metricBalance]
    exact h
  | close t profit gross =>
    unfold Summed balancesAfter Statistics.enter addClose
    dsimp only
    rw [Array.toList_push, List.getLast?_concat]

theorem start_summed (balance : α) (options : StatisticsOptions) (entries : List (Entry α)) :
    ((start balance options).enterAll entries).Summed :=
  List.foldlRecOn (motive := Summed) entries Statistics.enter rfl fun _ h e _ => h.enter e

theorem trades_times_sublist (balance : α) (options : StatisticsOptions) (entries : List (Entry α)) :
    (((start balance options).enterAll entries).trades.toList.map (·.time)).Sublist
      (moments entries) := by
  have points := enterAll_points (start balance options) entries
  have times := congrArg (List.map CurvePoint.time) points
  rw [List.map_map, List.map_append, runningPoints_times] at times
  exact times ▸ closes_sublist entries

/-- Each close is in one week, in order, but for those at the very end of a run of whole weeks. Without such
closes the last week ends with the final balances, and in exact arithmetic the changes of the weeks add up
to what the metric balance changed by. The time that the weeks divide is within 64 bits exactly if the time
from the first entry to each other, and to 1970, is. -/
theorem enterAll_weeks (balance : α) (options : StatisticsOptions) (first : Entry α)
    (rest : List (Entry α)) (ordered : (moments (first :: rest)).Pairwise (· ≤ ·))
    (lasting : first.moment < ((start balance options).enterAll (first :: rest)).endTime) :
    let s := (start balance options).enterAll (first :: rest)
    let closed := s.trades.toList
    let inWeeks := (List.range s.weeks.length).map (tradesIn first.moment closed)
    let missed := closed.filter fun t => week ∣ s.endTime - first.moment ∧ t.time = s.endTime
    (s.endTime ≤ first.moment + s.weeks.length * week ∧
        first.moment + (s.weeks.length - 1) * week < s.endTime) ∧
      s.weeks = endings ⟨balance, balance⟩ inWeeks ∧
      inWeeks.flatten ++ missed = closed ∧
      (missed = [] → s.weeks.getLast? = some ⟨s.balance, s.metricBalance⟩ ∧
        ∀ [Exact α],
          Arith.total (weeklyChanges ⟨balance, balance⟩ s.weeks) = s.metricBalance - balance) ∧
      0 ≤ s.endTime - first.moment ∧
      (s.endTime - first.moment ≤ Arith.maxInt64 ↔
        ∀ t, t = 0 ∨ t ∈ moments (first :: rest) → t - first.moment ≤ Arith.maxInt64) := by
  intro s closed inWeeks missed
  have begun : s.startTime = some first.moment := start_startTime balance options first rest
  have initial : s.initialBalance = balance := enterAll_initialBalance _ (first :: rest)
  have times := trades_times_sublist balance options (first :: rest)
  have sorted : (closed.map (·.time)).Pairwise (· ≤ ·) := ordered.sublist times
  have begins (t : Trade α) (ht : t ∈ closed) : first.moment ≤ t.time :=
    first_le ordered (times.subset (List.mem_map_of_mem ht))
  have ends (t : Trade α) (ht : t ∈ closed) : t.time ≤ s.endTime :=
    (start_endTime (first :: rest) balance options).2 (.inr (times.subset (List.mem_map_of_mem ht)))
  have weeks_eq : s.weeks = endings ⟨balance, balance⟩
      ((List.range (weeksBetween first.moment s.endTime)).map (tradesIn first.moment closed)) := by
    rw [← weekEnds_eq sorted begins]
    unfold Statistics.weeks
    rw [begun, initial]
    rfl
  have length : s.weeks.length = weeksBetween first.moment s.endTime := by
    rw [weeks_eq, endings_length, List.length_map, List.length_range]
  have whole := tradesIn_flatten_append sorted lasting begins ends
  have spec := weeksBetween_spec lasting
  rw [← length] at whole spec weeks_eq
  refine ⟨spec, weeks_eq, whole, fun nothing => ?_, start_elapsed (first :: rest) balance options⟩
  have last : s.weeks.getLast?.getD ⟨balance, balance⟩ = ⟨s.balance, s.metricBalance⟩ := by
    have whole : inWeeks.flatten ++ missed = closed := whole
    rw [nothing, List.append_nil] at whole
    have summed : s.Summed := start_summed balance options (first :: rest)
    rw [weeks_eq, endings_getLast, whole, ← initial]
    exact summed
  refine ⟨?_, ?_⟩
  · cases ended : s.weeks.getLast? with
    | none =>
      rw [List.getLast?_eq_none_iff.mp ended] at spec
      exact absurd (spec.1.trans_eq (by simp)) (not_le.mpr lasting)
    | some final =>
      rw [ended] at last
      exact congrArg some last
  · intro _
    apply Exact.value_injective
    rw [Arith.value_total, value_weeklyChanges, last, Exact.value_sub]

end Entering

def closeBetweenWeeks : List (Entry ℚ) :=
  [.time 0, .close 302400 100 100, .close 604800 (-50) (-50), .close 1500000 20 20, .time 1512000]

theorem closeBetweenWeeks_weeks :
    let s := (start 10000 .standard).enterAll closeBetweenWeeks
    (moments closeBetweenWeeks).Pairwise (· ≤ ·) ∧ 0 < s.endTime ∧
      (s.trades.toList.filter fun t => week ∣ s.endTime - 0 ∧ t.time = s.endTime) = [] ∧
      s.weeks.getLast? = some ⟨s.balance, s.metricBalance⟩ ∧
      Arith.total (weeklyChanges ⟨10000, 10000⟩ s.weeks) = s.metricBalance - 10000 ∧
      s.weeks.map (·.balance) = [10100, 10050, 10070] := by
  intro s
  have ordered : (moments closeBetweenWeeks).Pairwise (· ≤ ·) := by decide
  have lasting : (0 : Int) < s.endTime := by decide
  obtain ⟨-, -, -, final, -⟩ :=
    enterAll_weeks 10000 .standard (.time 0) closeBetweenWeeks.tail ordered lasting
  have nothing : (s.trades.toList.filter fun t => week ∣ s.endTime - 0 ∧ t.time = s.endTime) = [] := rfl
  exact ⟨ordered, lasting, nothing, (final nothing).1, (final nothing).2, by decide +kernel⟩

def lossOnWeekEnd : List (Entry ℚ) :=
  [.time 0, .close 302400 100 100, .close 1209600 (-50) (-50)]

/-- The loss is in no week: the last one ends with other balances, and the changes add up to a gain that
the account did not make. -/
theorem lossOnWeekEnd_weeks :
    let s := (start 10000 .standard).enterAll lossOnWeekEnd
    (moments lossOnWeekEnd).Pairwise (· ≤ ·) ∧ 0 < s.endTime ∧
      s.weeks.map (·.balance) = [10100, 10100] ∧ s.balance = 10050 ∧
      Arith.total (weeklyChanges ⟨10000, 10000⟩ s.weeks) = 100 ∧ s.metricBalance - 10000 = 50 ∧
      ∀ k < s.weeks.length, (tradesIn 0 s.trades.toList k).all (·.time ≠ 1209600) := by
  decide +kernel

end Statistics
end Backtest
