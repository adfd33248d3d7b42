import Backtest.Proofs.Statistics.Costs
import Mathlib.Data.Int.Order.Basic
import Mathlib.Order.Bounds.Basic
import Mathlib.Order.MinMax

namespace Backtest
namespace Statistics

variable {α : Type}

def Entry.moment : Entry α → Int
  | .time t => t
  | .close t _ _ => t

def Entry.close? : Entry α → Option (Int × α)
  | .time _ => none
  | .close t profit _ => some (t, profit)

/-- The times at which entries are made. -/
def moments (entries : List (Entry α)) : List Int := entries.map Entry.moment

/-- The closes among entries. -/
def closesAmong (entries : List (Entry α)) : List (Int × α) := entries.filterMap Entry.close?

/-- The first time entered, and zero before there is one. -/
def firstMoment (entries : List (Entry α)) : Int := (moments entries).head?.getD 0

theorem first_le {first : Entry α} {rest : List (Entry α)}
    (ordered : (moments (first :: rest)).Pairwise (· ≤ ·)) {t : Int}
    (ht : t ∈ moments (first :: rest)) : first.moment ≤ t := by
  rcases List.mem_cons.mp ht with rfl | later
  · exact le_rfl
  · exact (List.pairwise_cons.mp ordered).1 t later

theorem firstMoment_eq_zero_or_mem (entries : List (Entry α)) :
    firstMoment entries = 0 ∨ firstMoment entries ∈ moments entries := by
  cases entries with
  | nil => exact .inl rfl
  | cons first rest => exact .inr List.mem_cons_self

theorem closes_sublist (entries : List (Entry α)) :
    ((closesAmong entries).map Prod.fst).Sublist (moments entries) := by
  induction entries with
  | nil => exact List.Sublist.refl _
  | cons e rest ih =>
    cases e with
    | time time => exact ih.cons time
    | close time profit gross => exact ih.cons_cons time

theorem noteTime_endTime (s : Statistics α) (time : Int) :
    (s.noteTime time).endTime = max s.endTime time := by
  unfold noteTime
  dsimp only
  split <;> rfl

theorem noteTime_startTime_eq (s : Statistics α) (time : Int) :
    (s.noteTime time).startTime = some (s.startTime.getD time) := by
  unfold noteTime
  dsimp only
  cases s.startTime <;> rfl

theorem isGreatest_foldl_max (least : Int) (times : List Int) :
    IsGreatest {t | t = least ∨ t ∈ times} (times.foldl max least) := by
  induction times generalizing least with
  | nil => exact ⟨.inl rfl, fun t ht => (ht.resolve_right List.not_mem_nil).le⟩
  | cons time rest ih =>
    obtain ⟨mem, upper⟩ := ih (max least time)
    rw [List.foldl_cons]
    refine ⟨?_, ?_⟩
    · rcases mem with eq | mem
      · rw [eq]
        rcases max_choice least time with first | second
        · exact .inl first
        · exact .inr (List.mem_cons.mpr (.inl second))
      · exact .inr (List.mem_cons_of_mem time mem)
    · have seed : max least time ≤ rest.foldl max (max least time) := upper (.inl rfl)
      rintro t (rfl | ht)
      · exact (le_max_left t time).trans seed
      · rcases List.mem_cons.mp ht with rfl | ht
        · exact (le_max_right least t).trans seed
        · exact upper (.inr ht)

/-- A time that is not negative makes zero needless in the running maximum. -/
theorem isGreatest_of_late {times : List Int} {latest : Int}
    (h : IsGreatest {t | t = 0 ∨ t ∈ times} latest) (late : ∃ t ∈ times, 0 ≤ t) :
    IsGreatest {t | t ∈ times} latest := by
  obtain ⟨t, mem, nonneg⟩ := late
  refine ⟨?_, fun u hu => h.2 (.inr hu)⟩
  rcases h.1 with rfl | attained
  · rwa [le_antisymm (h.2 (.inr mem)) nonneg] at mem
  · exact attained

section Entering

variable [Arith α]

theorem runningPoints_times (balance : α) (closes : List (Int × α)) :
    (runningPoints balance closes).map (·.time) = closes.map Prod.fst := by
  induction closes generalizing balance with
  | nil => rfl
  | cons close rest ih => exact congrArg (close.1 :: ·) (ih _)

variable (s : Statistics α) (entries : List (Entry α))

theorem enter_endTime (e : Entry α) : (s.enter e).endTime = max s.endTime e.moment := by
  cases e <;> exact s.noteTime_endTime _

theorem enter_startTime (e : Entry α) :
    (s.enter e).startTime = some (s.startTime.getD e.moment) := by
  cases e <;> exact s.noteTime_startTime_eq _

theorem enter_balance (e : Entry α) :
    (s.enter e).balance = balanceAfter s.balance (closesAmong [e]) := by
  cases e with
  | time time => exact (s.noteTime_sameTrades time).balance
  | close time profit gross =>
    exact congrArg (· + profit) (s.noteTime_sameTrades time).balance

theorem enter_points (e : Entry α) :
    (s.enter e).trades.toList.map point =
      s.trades.toList.map point ++ runningPoints s.balance (closesAmong [e]) := by
  cases e with
  | time time =>
    have noted : (s.enter (.time time)).trades = s.trades := (s.noteTime_sameTrades time).trades
    rw [noted]
    exact (List.append_nil _).symm
  | close time profit gross =>
    have noted := s.noteTime_sameTrades time
    simp [enter, addClose, noted.trades, noted.balance, point, runningPoints, closesAmong,
      Entry.close?]

theorem enter_initialBalance (e : Entry α) : (s.enter e).initialBalance = s.initialBalance := by
  cases e <;> exact (s.noteTime_sameTrades _).initialBalance

theorem noteTime_enter (e : Entry α) :
    (s.noteTime e.moment).enter e = s.enter e := by
  have again : (s.noteTime e.moment).noteTime e.moment = s.noteTime e.moment := by
    rw [noteTime_startTime_of_some (s.noteTime_startTime e.moment), noteTime_endTime, max_assoc,
      max_self, ← noteTime_endTime]
  cases e with
  | time t => exact again
  | close t profit gross =>
    have again : (s.noteTime t).noteTime t = s.noteTime t := again
    change (s.noteTime t).addClose t profit gross = s.addClose t profit gross
    unfold addClose
    rw [again]

theorem enterAll_endTime : (s.enterAll entries).endTime = (moments entries).foldl max s.endTime := by
  unfold enterAll moments
  induction entries generalizing s with
  | nil => rfl
  | cons e rest ih => rw [List.foldl_cons, ih, enter_endTime, List.map_cons, List.foldl_cons]

theorem start_endTime (balance : α) (options : StatisticsOptions) :
    IsGreatest {t | t = 0 ∨ t ∈ moments entries} ((start balance options).enterAll entries).endTime := by
  rw [enterAll_endTime]
  exact isGreatest_foldl_max 0 (moments entries)

/-- The time between the two ends is not negative, and within 64 bits exactly if the time from the first
entry to any other, and to 1970, is. -/
theorem start_elapsed (balance : α) (options : StatisticsOptions) :
    let elapsed := ((start balance options).enterAll entries).endTime - firstMoment entries
    0 ≤ elapsed ∧ (elapsed ≤ Arith.maxInt64 ↔
      ∀ t, t = 0 ∨ t ∈ moments entries → t - firstMoment entries ≤ Arith.maxInt64) := by
  intro elapsed
  obtain ⟨attained, upper⟩ := start_endTime entries balance options
  refine ⟨Int.sub_nonneg_of_le (upper (firstMoment_eq_zero_or_mem entries)), fun fits t ht => ?_,
    fun fits => fits _ attained⟩
  exact (Int.sub_le_sub_right (upper ht) _).trans fits

theorem enterAll_initialBalance : (s.enterAll entries).initialBalance = s.initialBalance :=
  List.foldlRecOn (motive := fun t : Statistics α => t.initialBalance = s.initialBalance) entries
    enter rfl fun t same e _ => (t.enter_initialBalance e).trans same

theorem enterAll_startTime_of_some {first : Int} (h : s.startTime = some first) :
    (s.enterAll entries).startTime = some first :=
  List.foldlRecOn (motive := fun t : Statistics α => t.startTime = some first) entries enter h
    fun t begun e _ => by rw [enter_startTime, begun]; rfl

theorem start_startTime (balance : α) (options : StatisticsOptions) (first : Entry α)
    (rest : List (Entry α)) :
    ((start balance options).enterAll (first :: rest)).startTime = some first.moment :=
  enterAll_startTime_of_some ((start balance options).enter first) rest
    (enter_startTime (start balance options) first)

theorem enterAll_balance :
    (s.enterAll entries).balance = balanceAfter s.balance (closesAmong entries) := by
  unfold enterAll
  induction entries generalizing s with
  | nil => rfl
  | cons e rest ih =>
    rw [List.foldl_cons, ih, enter_balance]
    cases e <;> rfl

theorem enterAll_points :
    (s.enterAll entries).trades.toList.map point =
      s.trades.toList.map point ++ runningPoints s.balance (closesAmong entries) := by
  unfold enterAll
  induction entries generalizing s with
  | nil => exact (List.append_nil _).symm
  | cons e rest ih =>
    rw [List.foldl_cons, ih, enter_points, enter_balance, List.append_assoc]
    cases e <;> rfl

/-- The points of the curve lie between its ends. -/
theorem points_within (ordered : (moments entries).Pairwise (· ≤ ·)) (balance : α)
    (options : StatisticsOptions) :
    ∀ p ∈ (⟨firstMoment entries, balance⟩ : CurvePoint α) :: runningPoints balance (closesAmong entries),
      firstMoment entries ≤ p.time ∧ p.time ≤ ((start balance options).enterAll entries).endTime := by
  have upper := (start_endTime entries balance options).2
  rintro p (_ | ⟨_, hp⟩)
  · exact ⟨le_rfl, upper (firstMoment_eq_zero_or_mem _)⟩
  · have time : p.time ∈ moments entries := by
      refine (closes_sublist entries).subset ?_
      rw [← runningPoints_times balance]
      exact List.mem_map_of_mem hp
    refine ⟨?_, upper (.inr time)⟩
    cases entries with
    | nil => exact absurd time List.not_mem_nil
    | cons first rest => exact first_le ordered time

end Entering

variable [Arith α]

/-- The curve spans the time entered: from the first entry, with the initial balance, over a point for each
close, to the end with the balance there, which is in time order if the entries are; and the years traded
are the time between the two ends, which is within 64 bits exactly if the time from the first entry to each
other, and to 1970, is. The end is the latest time entered as soon as one is not before 1970, and 1970 if
all are. -/
theorem enterAll_curve (balance : α) (options : StatisticsOptions) (first : Entry α)
    (rest : List (Entry α)) :
    let entries := first :: rest
    let s := (start balance options).enterAll entries
    let closes := closesAmong entries
    (s.curve = ⟨first.moment, balance⟩ :: runningPoints balance closes ++ [⟨s.endTime, s.balance⟩] ∧
      s.balance = balanceAfter balance closes) ∧
    (IsGreatest {t | t = 0 ∨ t ∈ moments entries} s.endTime ∧
      ((∃ t ∈ moments entries, 0 ≤ t) → IsGreatest {t | t ∈ moments entries} s.endTime)) ∧
    ((moments entries).Pairwise (· ≤ ·) → (s.curve.map (·.time)).Pairwise (· ≤ ·)) ∧
    (∀ symbol counters meanHolding barsProcessed,
      (s.result symbol counters meanHolding barsProcessed).years =
        Arith.ofInt (s.endTime - first.moment) / secondsPerYear) ∧
    0 ≤ s.endTime - first.moment ∧
    (s.endTime - first.moment ≤ Arith.maxInt64 ↔
      ∀ t, t = 0 ∨ t ∈ moments entries → t - first.moment ≤ Arith.maxInt64) := by
  intro entries s closes
  have greatest := start_endTime entries balance options
  have begun : s.startTime = some first.moment := start_startTime balance options first rest
  have initial : s.initialBalance = balance := enterAll_initialBalance _ entries
  have points : s.trades.toList.map point = runningPoints balance closes :=
    enterAll_points (start balance options) entries
  have curve : s.curve =
      ⟨first.moment, balance⟩ :: runningPoints balance closes ++ [⟨s.endTime, s.balance⟩] := by
    unfold Statistics.curve
    rw [begun, initial, ← points]
    rfl
  have latest (t : Int) (ht : t ∈ moments entries) : t ≤ s.endTime := greatest.2 (.inr ht)
  have elapsed : 0 ≤ s.endTime - first.moment ∧ _ := start_elapsed entries balance options
  refine ⟨⟨curve, enterAll_balance _ entries⟩, ⟨greatest, isGreatest_of_late greatest⟩, ?_, ?_, elapsed⟩
  · intro ordered
    rw [curve, List.map_append, List.map_cons, runningPoints_times]
    refine List.pairwise_append.mpr ⟨?_, List.pairwise_singleton _ _, ?_⟩
    · refine List.pairwise_cons.mpr ⟨?_, ordered.sublist (closes_sublist entries)⟩
      exact fun t ht => first_le ordered ((closes_sublist entries).subset ht)
    · intro t ht last hlast
      rw [List.mem_singleton.mp hlast]
      rcases List.mem_cons.mp ht with rfl | ht
      · exact latest first.moment List.mem_cons_self
      · exact latest t ((closes_sublist entries).subset ht)
  · intro symbol counters meanHolding barsProcessed
    change s.years = _
    unfold Statistics.years
    rw [begun, Option.getD_some, max_eq_left elapsed.1]

def closesAround1970 : List (Entry Float) :=
  [.time (-100), .close (-40) 5 5, .close 60 (-2) (-2), .time 90]

theorem closesAround1970_curve :
    (∃ t ∈ moments closesAround1970, 0 ≤ t) ∧ (moments closesAround1970).Pairwise (· ≤ ·) ∧
      let s := (start 10000 .standard).enterAll closesAround1970
      IsGreatest {t | t ∈ moments closesAround1970} s.endTime ∧
        (s.curve.map (·.time)).Pairwise (· ≤ ·) ∧
        s.curve.map (·.time) = [-100, -40, 60, 90] := by
  have late : ∃ t ∈ moments closesAround1970, 0 ≤ t := ⟨90, by decide, by decide⟩
  have ordered : (moments closesAround1970).Pairwise (· ≤ ·) := by decide
  obtain ⟨-, latest, forward, -⟩ :=
    enterAll_curve 10000 .standard (.time (-100)) closesAround1970.tail
  exact ⟨late, ordered, latest.2 late, forward ordered, rfl⟩

def earlyLoss (α : Type) [Arith α] : List (Entry α) :=
  [.time (-1000), .close (-900) (-100.0) (-100.0)]

/-- The curve goes on to 1970, and the time in between is counted as traded. -/
theorem earlyLoss_curve :
    let s := (start 10000 .standard).enterAll (earlyLoss Float)
    IsGreatest {t | t ∈ moments (earlyLoss Float)} (-900) ∧
      s.curve.map (·.time) = [-1000, -900, 0] ∧
      s.years = Arith.ofInt 1000 / secondsPerYear := by
  refine ⟨⟨by decide, ?_⟩, rfl, rfl⟩
  intro t ht
  have le : ∀ t ∈ moments (earlyLoss Float), t ≤ -900 := by decide
  exact le t ht

end Statistics
end Backtest
