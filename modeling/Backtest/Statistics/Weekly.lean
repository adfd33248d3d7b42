import Backtest.Statistics.Basic

namespace Backtest

/-- Balances at the end of a week: the account's, and the one that trade figures use. -/
structure WeekBalance (α : Type) where
  balance : α
  metric : α
deriving Repr

structure WeekSums (α : Type) where
  returns : α
  squares : α
  ulcer : α
  peak : α
  last : WeekBalance α
deriving Repr

namespace WeekSums

variable {α : Type} [Arith α]

def start (balance : α) : WeekSums α := ⟨0, 0, 0, balance, ⟨balance, balance⟩⟩

/-- Takes in the balances at the end of a week. Below the peak, the squared distance in percent counts
towards the ulcer index. -/
def add (w : WeekSums α) (fixedBase : Option α) (week : WeekBalance α) : WeekSums α :=
  let base := fixedBase.getD w.last.metric
  let change := if base == 0 then 0 else (week.metric - w.last.metric) / base
  let w := { w with
    returns := w.returns + change
    squares := w.squares + change * change
    last := week }
  if week.balance > w.peak then { w with peak := week.balance }
  else if w.peak > 0 then
    { w with ulcer := w.ulcer + Arith.square (100.0 * (week.balance / w.peak - 1)) }
  else w

end WeekSums

namespace Statistics

variable {α : Type} [Arith α]

def week : Int := 604800

def weeksBetween (start stop : Int) : Nat := ((stop - start + week - 1) / week).toNat

/-- The balances at the ends of `n` weeks from `time`. The trades of a week are those at the head of
the list that come before the week's end. -/
def weekEnds : Nat → Int → WeekBalance α → List (Trade α) → List (WeekBalance α)
  | 0, _, _, _ => []
  | n + 1, time, last, trades =>
    let inWeek := trades.takeWhile fun t => t.time < time + week
    let ended := match inWeek.getLast? with
      | some t => ⟨t.balance, t.metricBalance⟩
      | none => last
    ended :: weekEnds n (time + week) ended (trades.drop inWeek.length)

def weeks (s : Statistics α) : List (WeekBalance α) :=
  let start := s.startTime.getD s.endTime
  weekEnds (weeksBetween start s.endTime) start ⟨s.initialBalance, s.initialBalance⟩
    s.trades.toList

def weekSums (s : Statistics α) : WeekSums α :=
  let fixedBase := if s.options.disableCompounding then some s.initialBalance else none
  s.weeks.foldl (·.add fixedBase ·) (.start s.initialBalance)

/-- Root mean square of the weekly distances from the peak, one hundred at most. -/
def ulcerIndex (s : Statistics α) : α :=
  let n := s.weeks.length
  if n = 0 then 0 else Arith.smaller (Arith.sqrt (s.weekSums.ulcer / Arith.ofCount n)) 100.0

/-- The factor from weekly to yearly Sharpe ratios, about the root of 52. -/
def annualFactor : α := 7.2111103

/-- Mean weekly return for its deviation, scaled to a year; zero below two weeks. -/
def sharpe (s : Statistics α) : α :=
  let weeks := s.weeks.length
  if weeks < 2 then 0
  else
    let n : α := Arith.ofCount weeks
    let w := s.weekSums
    let variance := (n * w.squares - w.returns * w.returns) / (n * (n - 1))
    let deviation := Arith.sqrt (Arith.larger variance 0)
    if deviation > 0 then annualFactor * (w.returns / n) / deviation else 0

end Statistics
end Backtest
