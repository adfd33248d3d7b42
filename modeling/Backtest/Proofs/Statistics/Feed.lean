import Backtest.Proofs.OrderBook.Ledger

namespace Backtest
namespace Statistics

variable {α : Type}

/-- The same trades, from the same start. Times of the curve and drawdowns may differ. -/
structure SameTrades (s t : Statistics α) : Prop where
  initialBalance : s.initialBalance = t.initialBalance
  options : s.options = t.options
  balance : s.balance = t.balance
  metricBalance : s.metricBalance = t.metricBalance
  trades : s.trades = t.trades

theorem SameTrades.refl (s : Statistics α) : s.SameTrades s := ⟨rfl, rfl, rfl, rfl, rfl⟩

theorem noteTime_sameTrades (s : Statistics α) (time : Int) : (s.noteTime time).SameTrades s := by
  unfold noteTime
  dsimp only
  split <;> exact ⟨rfl, rfl, rfl, rfl, rfl⟩

theorem SameTrades.trans {s t u : Statistics α} (h : s.SameTrades t) (h' : t.SameTrades u) :
    s.SameTrades u :=
  ⟨h.initialBalance.trans h'.initialBalance, h.options.trans h'.options, h.balance.trans h'.balance,
    h.metricBalance.trans h'.metricBalance, h.trades.trans h'.trades⟩

theorem SameTrades.symm {s t : Statistics α} (h : s.SameTrades t) : t.SameTrades s :=
  ⟨h.initialBalance.symm, h.options.symm, h.balance.symm, h.metricBalance.symm, h.trades.symm⟩

/-- A curve that has not begun has no trades. -/
def Begun (s : Statistics α) : Prop := s.startTime = none → s.trades = #[]

theorem noteTime_startTime (s : Statistics α) (time : Int) : (s.noteTime time).startTime ≠ none := by
  unfold noteTime
  dsimp only
  split
  next => simp
  next h => simpa using h

theorem noteTime_startTime_of_some {s : Statistics α} (h : s.startTime ≠ none) (time : Int) :
    s.noteTime time = { s with endTime := max s.endTime time } := by
  unfold noteTime
  exact if_neg (by simpa using h)

theorem noteTime_begun (s : Statistics α) (time : Int) : (s.noteTime time).Begun :=
  fun h => absurd h (s.noteTime_startTime time)

def point (t : Trade α) : CurvePoint α := ⟨t.time, t.balance⟩

theorem Begun.curve_inner {s : Statistics α} (h : s.Begun) :
    s.curve.tail.dropLast = s.trades.toList.map point := by
  unfold curve
  cases hs : s.startTime with
  | none => simp [h hs]
  | some start => simp [point]

variable [Arith α]

theorem SameTrades.addClose {s t : Statistics α} (h : s.SameTrades t) (time : Int)
    (profit gross : α) :
    (s.addClose time profit gross).SameTrades (t.addClose time profit gross) := by
  obtain ⟨hi, ho, hb, hm, ht⟩ :=
    ((s.noteTime_sameTrades time).trans h).trans (t.noteTime_sameTrades time).symm
  unfold Statistics.addClose
  dsimp only
  refine ⟨hi, ho, ?_, ?_, ?_⟩
  all_goals simp only [ho, hb, hm, ht]

theorem SameTrades.addEvents {s t : Statistics α} (h : s.SameTrades t)
    (events : List (TradeEvent α)) : (s.addEvents events).SameTrades (t.addEvents events) := by
  unfold Statistics.addEvents
  generalize events.filter (·.event.isClose) = closes
  induction closes generalizing s t with
  | nil => exact h
  | cons e rest ih => exact ih (h.addClose e.time e.profit e.priceProfit)

theorem addEvents_append (s : Statistics α) (events more : List (TradeEvent α)) :
    s.addEvents (events ++ more) = (s.addEvents events).addEvents more := by
  simp only [addEvents, List.filter_append, List.foldl_append]

theorem Begun.addEvents {s : Statistics α} (h : s.Begun) (events : List (TradeEvent α)) :
    (s.addEvents events).Begun := by
  unfold Statistics.addEvents
  generalize events.filter (·.event.isClose) = closes
  induction closes generalizing s with
  | nil => exact h
  | cons e rest ih =>
    apply ih
    exact fun hn => absurd hn (s.noteTime_startTime e.time)

theorem addEvents_balance (s : Statistics α) (events : List (TradeEvent α)) :
    (s.addEvents events).balance = balanceAfter s.balance (closesOf events) := by
  unfold addEvents closesOf
  generalize events.filter (·.event.isClose) = closes
  induction closes generalizing s with
  | nil => rfl
  | cons e rest ih =>
    rw [List.foldl_cons, ih]
    change balanceAfter ((s.noteTime e.time).balance + e.profit) _ =
      balanceAfter (s.balance + e.profit) _
    rw [(s.noteTime_sameTrades e.time).balance]

theorem addEvents_points (s : Statistics α) (events : List (TradeEvent α)) :
    (s.addEvents events).trades.toList.map point =
      s.trades.toList.map point ++ runningPoints s.balance (closesOf events) := by
  unfold addEvents closesOf
  generalize events.filter (·.event.isClose) = closes
  induction closes generalizing s with
  | nil => simp [runningPoints]
  | cons e rest ih =>
    rw [List.foldl_cons, ih]
    have noted := s.noteTime_sameTrades e.time
    simp [addClose, noted.trades, noted.balance, point, runningPoints, TradeEvent.close]

end Statistics
end Backtest
