import Backtest.Arith.Double
import Backtest.Engine.Script
import Backtest.Portfolio.Report
import Backtest.Proofs.Instance.Emission
import Backtest.Proofs.Portfolio.Passes

namespace Backtest

/-- Figures that follow from the trades and their balances agree. Those that hang on when the record
ends may differ. -/
structure RunFigures.SameTrading {α : Type} (f g : RunFigures α) : Prop where
  symbol : f.symbol = g.symbol
  counters : f.counters = g.counters
  initialBalance : f.initialBalance = g.initialBalance
  finalBalance : f.finalBalance = g.finalBalance
  drawdownDepth : f.drawdownDepth = g.drawdownDepth
  drawdownPercent : f.drawdownPercent = g.drawdownPercent
  profitFactor : f.profitFactor = g.profitFactor
  winningPercent : f.winningPercent = g.winningPercent
  riskReward : f.riskReward = g.riskReward
  r2 : f.r2 = g.r2
  barsProcessed : f.barsProcessed = g.barsProcessed

/-- All figures agree, but for the mean holding time and the text of a failure. -/
def RunFigures.SameRecord {α : Type} (f g : RunFigures α) : Prop :=
  f = { g with meanHolding := f.meanHolding, failure := f.failure }

theorem RunFigures.SameRecord.sameTrading {α : Type} {f g : RunFigures α} (h : f.SameRecord g) :
    f.SameTrading g := by
  rw [h]
  exact ⟨rfl, rfl, rfl, rfl, rfl, rfl, rfl, rfl, rfl, rfl, rfl⟩

theorem RunFigures.SameTrading.trans {α : Type} {f g k : RunFigures α} (h : f.SameTrading g)
    (h' : g.SameTrading k) : f.SameTrading k where
  symbol := h.symbol.trans h'.symbol
  counters := h.counters.trans h'.counters
  initialBalance := h.initialBalance.trans h'.initialBalance
  finalBalance := h.finalBalance.trans h'.finalBalance
  drawdownDepth := h.drawdownDepth.trans h'.drawdownDepth
  drawdownPercent := h.drawdownPercent.trans h'.drawdownPercent
  profitFactor := h.profitFactor.trans h'.profitFactor
  winningPercent := h.winningPercent.trans h'.winningPercent
  riskReward := h.riskReward.trans h'.riskReward
  r2 := h.r2.trans h'.r2
  barsProcessed := h.barsProcessed.trans h'.barsProcessed

namespace Statistics

variable {α : Type}

/-- Noting a time decides on the ends of the curve and on when a drawdown began. -/
theorem noteTime_drawdown (s : Statistics α) (time : Int) :
    ∃ since, (s.noteTime time).drawdown = { s.drawdown with since := since } := by
  unfold noteTime
  dsimp only
  split
  next => exact ⟨time, rfl⟩
  next => exact ⟨s.drawdown.since, rfl⟩

variable [Arith α]

/-- Two trades need a start, which stays the first time noted. -/
theorem Begun.noteTime_straightness {s : Statistics α} (h : s.Begun) (time : Int) :
    (s.noteTime time).straightness = s.straightness := by
  have same := s.noteTime_sameTrades time
  by_cases begun : s.startTime = none
  · have empty : s.trades.size = 0 := by rw [h begun]; rfl
    unfold straightness
    rw [same.trades, empty]
    rfl
  · obtain ⟨start, hstart⟩ := Option.ne_none_iff_exists'.mp begun
    rw [noteTime_startTime_of_some begun]
    unfold straightness
    rw [hstart]
    rfl

theorem Begun.noteTime_result {s : Statistics α} (h : s.Begun) (time : Int) {symbol : String}
    {counters : TradeCounts} {held : α} {bars : Nat} {failure : Option String} :
    { (s.noteTime time).result symbol counters held bars with failure := failure }.SameTrading
      { s.result symbol counters held bars with failure := failure } := by
  have same := s.noteTime_sameTrades time
  obtain ⟨since, hdrawdown⟩ := s.noteTime_drawdown time
  have tally : TradeTally.ofTrades (s.noteTime time).trades.toList =
      TradeTally.ofTrades s.trades.toList := by rw [same.trades]
  exact
    { symbol := rfl
      counters := rfl
      initialBalance := same.initialBalance
      finalBalance := same.balance
      drawdownDepth := (congrArg Drawdown.depth hdrawdown :)
      drawdownPercent := (congrArg Drawdown.percent hdrawdown :)
      profitFactor := congrArg TradeTally.profitFactor tally
      winningPercent := congrArg TradeTally.winningPercent tally
      riskReward := congrArg TradeTally.riskReward tally
      r2 := h.noteTime_straightness time
      barsProcessed := rfl }

end Statistics

namespace InstanceRun

variable {α σ : Type} [Arith α]

/-- The statistics of a run take in a bar as the portfolio does: the time of the bar, and then the events
of the step. -/
theorem takeBar_statistics (c : RunScope α) (h : EngineHost α σ) (r : InstanceRun α σ) (bar : Bar α) :
    (r.takeBar c h bar).2.1.statistics =
      (r.statistics.noteTime bar.time).addEvents (r.takeBar c h bar).2.1.stepEvents := by
  have settled := settleBar_statistics r bar
  have first : (r.settleBar bar).1.book.events.toList =
      r.book.events.toList ++ (r.settleBar bar).1.stepEvents := (settleBar_emits r bar).drop.1
  have second := (consult_emits c h (r.settleBar bar).1 (r.settleBar bar).2 bar).drop.1
  obtain ⟨book, hasked⟩ := ask_run c h r bar
  have hbook : ((r.settleBar bar).1.consult c h (r.settleBar bar).2 bar).2.1.book = book :=
    congrArg InstanceRun.book hasked
  rw [hbook] at second
  rcases takeBar_cases c h r bar with ⟨f, -, heq⟩ | ⟨-, -, heq⟩
  · rw [heq, hasked]
    exact settled
  · -- the events of the bar are those of the settlement, and those of the answer after them
    have events : book.events.toList.drop r.book.events.size = (r.settleBar bar).1.stepEvents ++
        book.events.toList.drop (r.settleBar bar).1.book.events.size := by
      rw [first] at second
      conv_lhs => rw [second, List.append_assoc, ← Array.length_toList, List.drop_left]
    rw [heq, finishBar_eq, hasked]
    unfold eventsFrom
    dsimp only
    rw [settled, events, Statistics.addEvents_append]

theorem step_statistics (c : RunScope α) (h : EngineHost α σ) {r : InstanceRun α σ} {time : Int}
    (running : r.state = .running) (due : r.nextTime? = some time) (stopped : Bool) :
    let r' := (r.step c stopped h).2.1
    (stopped = false ∧ r'.statistics = (r.statistics.noteTime time).addEvents r'.stepEvents) ∨
    (stopped = true ∧ r'.state = .aborted ∧ r'.failure = some stopText ∧ r'.nextTime? = some time ∧
      r'.statistics = r.statistics ∧ r'.stepEvents = []) := by
  intro r'
  rcases step_cases c stopped h r with
    ⟨halted, -⟩ | ⟨-, hstopped, heq⟩ | ⟨-, -, hbar, -⟩ | ⟨bar, -, hstopped, hbar, heq⟩
  · exact absurd running halted
  · refine .inr ⟨hstopped, ?_⟩
    simp only [r', heq]
    exact ⟨trivial, trivial, due, trivial, trivial⟩
  · have hnone : r.nextTime? = none := congrArg (Option.map Bar.time) hbar
    rw [due] at hnone
    cases hnone
  · have htime : r.nextTime? = some bar.time := congrArg (Option.map Bar.time) hbar
    rw [due] at htime
    cases htime
    refine .inl ⟨hstopped, ?_⟩
    simp only [r', heq]
    exact takeBar_statistics c h { r with stepEvents := [] } bar

theorem step_statistics_of_done (c : RunScope α) (h : EngineHost α σ) {r : InstanceRun α σ}
    (done : r.nextTime? = none) (stopped : Bool) :
    (r.step c stopped h).2.1.statistics = r.statistics ∧ (r.step c stopped h).2.1.stepEvents = [] := by
  rcases step_cases c stopped h r with
    ⟨-, heq⟩ | ⟨-, -, heq⟩ | ⟨-, -, -, heq⟩ | ⟨bar, -, -, hbar, -⟩
  · exact heq ▸ ⟨rfl, rfl⟩
  · exact heq ▸ ⟨rfl, rfl⟩
  · exact heq ▸ ⟨rfl, rfl⟩
  · have htime : r.nextTime? = some bar.time := congrArg (Option.map Bar.time) hbar
    rw [done] at htime
    cases htime

theorem start_statistics (c : RunScope α) (h : EngineHost α σ) (r : InstanceRun α σ) :
    (r.start c h).2.1.statistics = r.statistics := by
  obtain ⟨state, failure, hrun⟩ := start_run c h r
  rw [hrun]

end InstanceRun

namespace Portfolio

variable {α σ : Type} [Arith α] {c : RunScope α} {stop : StopPoint}

/-- Statistics that stand as those of a run do, or have besides noted the bar that the run was stopped
before. -/
inductive Follows (stop : StopPoint) (s : Statistics α) (r : InstanceRun α σ) : Prop
  | level : s = r.statistics → Follows stop s r
  | ahead {time : Int} : stop ≠ none → r.state = .aborted → r.failure = some InstanceRun.stopText →
      r.nextTime? = some time → s = r.statistics.noteTime time → Follows stop s r

/-- The portfolio holds one run, and its statistics follow those of the run. -/
def FollowsOne (stop : StopPoint) (p : Portfolio α σ) : Prop :=
  ∃ r, p.runs = [r] ∧ r.statistics.Begun ∧ Follows stop p.combined r

theorem isReached_ne_none {stop : StopPoint} {n : Nat} (h : stop.isReached n = true) :
    stop ≠ none := by
  rintro rfl
  cases h

omit [Arith α] in
theorem eachRun_single {f : EngineHost α σ → Statistics α → Nat → InstanceRun α σ →
      (EngineHost α σ × Statistics α × Nat × InstanceRun α σ) × Option (Fault α)}
    {p q : Portfolio α σ} {r : InstanceRun α σ} (one : p.runs = [r])
    (passed : p.eachRun f = (q, none)) :
    ∃ r', f p.host p.combined p.stepsTaken r = ((q.host, q.combined, q.stepsTaken, r'), none) ∧
      q.runs = [r'] := by
  unfold eachRun at passed
  rw [one, eachRun.go] at passed
  split at passed
  next hf =>
    cases passed
    exact ⟨_, hf, rfl⟩
  next => cases passed

variable {p q : Portfolio α σ}

omit [Arith α] in
theorem Follows.of_running {s : Statistics α} {r : InstanceRun α σ} (h : Follows stop s r)
    (running : r.state = .running) : s = r.statistics := by
  cases h with
  | level heq => exact heq
  | ahead _ aborted =>
    rw [running] at aborted
    cases aborted

theorem start_followsOne {s : InstancePlan α σ} {host : EngineHost α σ}
    (assembled : (empty c host).add c s = .ok p) (started : p.start c = (q, none)) :
    FollowsOne stop q := by
  cases assembled
  obtain ⟨r, hstart, one⟩ := eachRun_single rfl started
  have combined : (empty c host).combined = q.combined := congrArg (fun x => x.1.2.1) hstart
  have kept := InstanceRun.start_statistics c host (.ofPlan c s)
  have hr : (InstanceRun.start c host (.ofPlan c s)).2.1 = r := congrArg (fun x => x.1.2.2.2) hstart
  rw [hr] at kept
  refine ⟨r, one, ?_, .level ?_⟩
  · rw [kept]
    exact fun _ => rfl
  · rw [← combined, kept]
    rfl

theorem FollowsOne.pass (h : FollowsOne stop p) {time : Int} (htime : p.nextTime? = some time)
    (passed : eachRun (stepAt c stop (some time))
      { p with combined := p.combined.noteTime time } = (q, none)) : FollowsOne stop q := by
  obtain ⟨r, one, begun, follows⟩ := h
  obtain ⟨x, hx, running, due⟩ := exists_of_nextTime? htime
  rw [one, List.mem_singleton] at hx
  subst hx
  have level := follows.of_running running
  obtain ⟨r', hstep, one'⟩ := eachRun_single
    (p := { p with combined := p.combined.noteTime time }) one passed
  rcases stepAt_cases hstep with ⟨-, -, hstep, combined⟩ | ⟨notDue, -⟩
  · have taken := InstanceRun.step_statistics c p.host running due (stop.isReached p.stepsTaken)
    dsimp only at hstep combined
    rw [hstep] at taken
    rw [level] at combined
    refine ⟨r', one', ?_⟩
    rcases taken with ⟨-, hstatistics⟩ | ⟨stopped, aborted, failure, due', hstatistics, idle⟩
    · rw [combined, hstatistics]
      exact ⟨(x.statistics.noteTime_begun time).addEvents r'.stepEvents, .level hstatistics.symm⟩
    · rw [hstatistics]
      refine ⟨begun, .ahead (isReached_ne_none stopped) aborted failure due' ?_⟩
      rw [combined, idle, hstatistics]
      rfl
  · exact absurd ⟨running, due⟩ notDue

theorem FollowsOne.last (h : FollowsOne stop p)
    (passed : p.eachRun (stepAt c stop none) = (q, none)) : FollowsOne stop q := by
  obtain ⟨r, one, begun, follows⟩ := h
  obtain ⟨r', hstep, one'⟩ := eachRun_single one passed
  rcases stepAt_cases hstep with ⟨running, done, hstep, combined⟩ | ⟨-, -, rfl, combined⟩
  · obtain ⟨hstatistics, idle⟩ :=
      InstanceRun.step_statistics_of_done c p.host done (stop.isReached p.stepsTaken)
    rw [hstep] at hstatistics idle
    dsimp only at hstatistics idle
    rw [idle, follows.of_running running] at combined
    refine ⟨r', one', ?_, .level ?_⟩
    · rw [hstatistics]
      exact begun
    · rw [combined, hstatistics]
      rfl
  · rw [← combined] at follows
    exact ⟨r', one', begun, follows⟩

theorem run_followsOne {s : InstancePlan α σ} {host : EngineHost α σ}
    (assembled : (empty c host).add c s = .ok p) (ran : p.run c stop = (q, none)) :
    FollowsOne stop q := by
  obtain ⟨p₁, p₂, p₃, n, started, -, lock, last, rfl⟩ := run_passes ran
  have follows₁ : FollowsOne stop p₁ := start_followsOne assembled started
  have follows₂ : FollowsOne stop p₂ := lockstep_induction
    (fun follows htime passed => follows.pass htime passed) follows₁ lock
  exact (follows₂.last last :)

theorem result_single {r : InstanceRun α σ} (one : q.runs = [r]) :
    q.result.SameRecord { r with statistics := q.combined }.result := by
  have symbols : ",".intercalate (q.runs.map (·.rates.symbol)) = r.rates.symbol := by
    rw [one]
    rfl
  have counters : q.counters = r.book.counters := by
    unfold counters
    rw [one]
    simp [TradeCounts.sum, TradeCounts.zero]
  have bars : (q.runs.map (·.barsProcessed)).foldl max 0 = r.barsProcessed := by
    rw [one]
    exact Nat.zero_max _
  unfold result
  rw [symbols, counters, bars]
  rfl

/-- A portfolio of one instance, if it runs without a fault of its own, reports the trades of that
instance and all figures that follow from them. Its curve and the other figures are those of the
instance as well, unless a stop ends the run with a bar ahead: then they are drawn from the statistics
of the instance with the time of that bar noted, though the bar is never taken. -/
theorem single_report {s : InstancePlan α σ} {host : EngineHost α σ}
    (assembled : (empty c host).add c s = .ok p) (ok : (p.run c stop).2 = none) :
    let q := (p.run c stop).1
    let report := q.report c
    ∃ r, q.runs = [r] ∧ report.instances = [r.report c] ∧
      report.combined.SameTrading r.result ∧
      report.curve.tail.dropLast = r.statistics.curve.tail.dropLast ∧
      ((report.curve = r.statistics.curve ∧ report.combined.SameRecord r.result) ∨
        ∃ time, stop ≠ none ∧ r.failure = some InstanceRun.stopText ∧ r.nextTime? = some time ∧
          report.curve = (r.statistics.noteTime time).curve ∧
          report.combined.SameRecord
            { r with statistics := r.statistics.noteTime time }.result) := by
  intro q report
  have ran : p.run c stop = (q, none) := Prod.ext rfl ok
  obtain ⟨r, one, begun, follows⟩ := run_followsOne assembled ran
  have instances : report.instances = [r.report c] := by
    simp only [report, Portfolio.report, one, List.map_cons, List.map_nil]
  have drawn : report.combined.SameRecord { r with statistics := q.combined }.result :=
    result_single one
  refine ⟨r, one, instances, ?_⟩
  cases follows with
  | level heq =>
    rw [heq] at drawn
    have curve : report.curve = r.statistics.curve := congrArg Statistics.curve heq
    exact ⟨drawn.sameTrading, by rw [curve], .inl ⟨curve, drawn⟩⟩
  | @ahead time stopped _ failure due heq =>
    rw [heq] at drawn
    have curve : report.curve = (r.statistics.noteTime time).curve := congrArg Statistics.curve heq
    have noted : { r with statistics := r.statistics.noteTime time }.result.SameTrading r.result :=
      begun.noteTime_result time
    refine ⟨drawn.sameTrading.trans noted, ?_, .inr ⟨time, stopped, failure, due, curve, drawn⟩⟩
    rw [curve, (r.statistics.noteTime_begun time).curve_inner, begun.curve_inner,
      (r.statistics.noteTime_sameTrades time).trades]

section Sample

open InstanceRun (sampleScope samplePlan)

def samplePurchase : InstancePlan Float (ScriptLog Float) :=
  samplePlan [(0, .marketBuy 1), (2, .closeAll .buy)]

def purchasePortfolio : Portfolio Float (ScriptLog Float) :=
  { empty sampleScope (.empty (Script.log 0) 0) with runs := [.ofPlan sampleScope samplePurchase] }

/-- Nobody asks the purchase to stop. -/
theorem purchase_report :
    let report := (purchasePortfolio.run sampleScope none).1.report sampleScope
    ∃ own, report.instances = [own] ∧ report.curve = own.curve ∧
      report.combined.SameRecord own.result ∧ report.curve.map (·.time) = [0, 120, 180] := by
  intro report
  have assembled : (empty sampleScope (.empty (Script.log 0) 0)).add sampleScope samplePurchase =
      .ok purchasePortfolio := rfl
  have ok : (purchasePortfolio.run sampleScope none).2 = none :=
    Option.isNone_iff_eq_none.mp (by decide +kernel)
  obtain ⟨r, -, instances, -, -, level | ⟨time, stopped, -⟩⟩ := single_report assembled ok
  · exact ⟨_, instances, level.1, level.2, by decide +kernel⟩
  · exact absurd rfl stopped

/-- Stopped with a bar ahead, the portfolio reports the time of that bar and its instance does not. So the
curves differ before the first bar, and before the last one the years do too. -/
theorem stopped_purchase_report :
    let (p, fault) := purchasePortfolio.run sampleScope (some 0)
    let early := p.report sampleScope
    let (p, fault') := purchasePortfolio.run sampleScope (some 3)
    let late := p.report sampleScope
    fault.isNone ∧ early.curve.map (·.time) = [0, 0] ∧
      early.instances.map (fun i => i.curve.map (·.time)) = [[]] ∧
    fault'.isNone ∧ late.curve.map (·.time) = [0, 120, 180] ∧
      late.instances.map (fun i => i.curve.map (·.time)) = [[0, 120, 120]] ∧
      late.instances.map (fun i => i.result.years == late.combined.years) = [false] := by
  decide +kernel

end Sample

end Portfolio
end Backtest
