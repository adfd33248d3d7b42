import Backtest.Portfolio.Report
import Backtest.Proofs.Arith.Exact
import Backtest.Proofs.Instance.Emission
import Backtest.Proofs.Portfolio.Passes

namespace Backtest

def InstanceRun.closes {α σ : Type} (r : InstanceRun α σ) : List (TradeEvent α) :=
  r.book.events.toList.filter (·.event.isClose)

namespace Portfolio

variable {α σ : Type}

def closes (p : Portfolio α σ) : List (TradeEvent α) := p.runs.flatMap InstanceRun.closes

def closedOrders (p : Portfolio α σ) : List (Order α) :=
  p.runs.flatMap fun r => r.book.closedOrders.toList

variable [Arith α] {c : RunScope α} {stop : StopPoint}

/-- Runs of increasing histories, with their closes fed to statistics in the order of their times. -/
structure Conserves (c : RunScope α) (fed : List (TradeEvent α)) (runs : List (InstanceRun α σ))
    (s : Statistics α) : Prop where
  reconciled : ∀ r ∈ runs, r.Reconciled c
  increasing : ∀ r ∈ runs, r.primary.Increasing
  perm : fed.Perm (runs.flatMap InstanceRun.closes)
  sorted : fed.Pairwise (·.time ≤ ·.time)
  same : s.SameTrades ((Statistics.start c.initialBalance c.statistics).addEvents fed)

theorem addEvents_closes (s : Statistics α) (events : List (TradeEvent α)) :
    s.addEvents (events.filter (·.event.isClose)) = s.addEvents events := by
  unfold Statistics.addEvents
  rw [List.filter_filter]
  simp only [Bool.and_self]

namespace Conserves

variable {fed : List (TradeEvent α)} {done rest : List (InstanceRun α σ)} {r r' : InstanceRun α σ}
  {s : Statistics α}

theorem noteTime {runs : List (InstanceRun α σ)} (h : Conserves c fed runs s) (time : Int) :
    Conserves c fed runs (s.noteTime time) :=
  { h with same := (s.noteTime_sameTrades time).trans h.same }

/-- One run gets on by some events of one time, which come after all that was fed. -/
theorem carry (h : Conserves c fed (done ++ r :: rest) s) (reconciled : r'.Reconciled c)
    (primary : r'.primary = r.primary) {events : List (TradeEvent α)}
    (added : r'.book.events.toList = r.book.events.toList ++ events)
    (late : ∀ e ∈ events, (∀ e' ∈ fed, e'.time ≤ e.time) ∧ ∀ e' ∈ events, e'.time = e.time) :
    Conserves c (fed ++ events.filter (·.event.isClose)) (done ++ r' :: rest)
      (s.addEvents events) where
  reconciled x hx := by
    rcases List.mem_append.mp hx with hx | hx
    · exact h.reconciled x (List.mem_append_left _ hx)
    · rcases List.mem_cons.mp hx with rfl | hx
      · exact reconciled
      · exact h.reconciled x (List.mem_append_right _ (List.mem_cons_of_mem _ hx))
  increasing x hx := by
    rcases List.mem_append.mp hx with hx | hx
    · exact h.increasing x (List.mem_append_left _ hx)
    · rcases List.mem_cons.mp hx with rfl | hx
      · rw [primary]
        exact h.increasing r (List.mem_append_right _ List.mem_cons_self)
      · exact h.increasing x (List.mem_append_right _ (List.mem_cons_of_mem _ hx))
  perm := by
    have hcloses : r'.closes = r.closes ++ events.filter (·.event.isClose) := by
      unfold InstanceRun.closes
      rw [added, List.filter_append]
    have moved := h.perm.append_right (events.filter (·.event.isClose))
    rw [List.flatMap_append, List.flatMap_cons] at moved ⊢
    rw [hcloses]
    refine moved.trans ?_
    rw [List.append_assoc, List.append_assoc, List.append_assoc]
    exact ((List.perm_append_comm).append_left r.closes).append_left _
  sorted := by
    refine List.pairwise_append.mpr ⟨h.sorted, ?_, fun e' he' e he => ?_⟩
    · refine List.pairwise_of_forall_mem_list fun e he e' he' => ?_
      have hlevel := (late e (List.mem_filter.mp he).1).2 e' (List.mem_filter.mp he').1
      omega
    · exact (late e (List.mem_filter.mp he).1).1 e' he'
  same := by
    rw [Statistics.addEvents_append, addEvents_closes]
    exact h.same.addEvents events

theorem step (h : Conserves c fed (done ++ r :: rest) s) {stopped : Bool}
    {host host' : EngineHost α σ} (stepped : r.step c stopped host = (host', r', none))
    (late : ∀ time, r.nextTime? = some time → ∀ e ∈ fed, e.time ≤ time) :
    Conserves c (fed ++ r'.stepEvents.filter (·.event.isClose)) (done ++ r' :: rest)
      (s.addEvents r'.stepEvents) := by
  have reconciled := h.reconciled r (List.mem_append_right _ List.mem_cons_self)
  have ok : (r.step c stopped host).2.2 = none := by rw [stepped]
  have reconciled' := reconciled.step ok
  have primary := InstanceRun.step_primary c stopped host r
  obtain ⟨added, times⟩ := InstanceRun.step_emits reconciled.ascends ok
  rw [stepped] at reconciled' primary added times
  refine h.carry reconciled' primary added fun e he => ⟨late e.time (times e he), fun e' he' => ?_⟩
  exact Option.some.inj ((times e' he').symm.trans (times e he))

end Conserves

/-- The next bar of a run that is running opens after a time. -/
def AheadOf (time : Int) (r : InstanceRun α σ) : Prop :=
  r.state = .running → ∀ next, r.nextTime? = some next → time < next

/-- Closes are fed, and every run that is running is ahead of them. -/
def Ordered (c : RunScope α) (p : Portfolio α σ) : Prop :=
  ∃ fed, Conserves c fed p.runs p.combined ∧ ∀ r ∈ p.runs, ∀ e ∈ fed, AheadOf e.time r

variable {p q : Portfolio α σ}

theorem start_ordered {plans : List (InstancePlan α σ)} {host : EngineHost α σ}
    (assembled : plans.foldlM (add c) (empty c host) = .ok p)
    (increasing : ∀ s ∈ plans, s.rates.primary.Increasing) (started : p.start c = (q, none)) :
    Ordered c q := by
  obtain ⟨hp, -⟩ := assembled_eq assembled
  have first : Conserves c [] p.runs p.combined := by
    rw [hp]
    refine ⟨fun r hr => ?_, fun r hr => ?_, ?_, .nil, .refl _⟩
    · obtain ⟨s, -, rfl⟩ := List.mem_map.mp hr
      exact InstanceRun.ofPlan_reconciled c s
    · obtain ⟨s, hs, rfl⟩ := List.mem_map.mp hr
      exact increasing s hs
    · have none_yet : plans.flatMap (fun s => (InstanceRun.ofPlan c s).closes) = [] :=
        List.flatMap_eq_nil_iff.mpr fun _ _ => rfl
      rw [List.flatMap_map, none_yet]
  have begun := eachRun_induction
    (motive := fun done rest _ s _ => Conserves c [] (done ++ rest) s) ?_ first started
  · rw [List.append_nil] at begun
    exact ⟨[], begun, fun _ _ e he => absurd he List.not_mem_nil⟩
  · rintro done r rest h s n h' s' n' r' before started
    have reconciled := before.reconciled r (List.mem_append_right _ List.mem_cons_self)
    have reconciled' := reconciled.start h
    have hplan := InstanceRun.start_plan c h r
    have hbook := InstanceRun.start_book c h r
    dsimp only at started
    generalize r.start c h = out at started reconciled' hplan hbook
    obtain ⟨h₁, r₁, fault⟩ := out
    cases started
    have added : r₁.book.events.toList = r.book.events.toList ++ [] := by
      rw [List.append_nil]
      exact congrArg (fun b => b.events.toList) hbook
    have carried := before.carry reconciled' (congrArg (fun p => p.rates.primary) hplan) added
      fun _ he => absurd he List.not_mem_nil
    rw [List.append_cons] at carried
    exact carried

/-- A pass at a time, between two runs: the runs it has come to are ahead of the time, no bar of the others
opens before it, and nothing that was fed is later. -/
structure Midway (c : RunScope α) (time : Int) (fed : List (TradeEvent α))
    (done rest : List (InstanceRun α σ)) (s : Statistics α) : Prop where
  conserves : Conserves c fed (done ++ rest) s
  past : ∀ e ∈ fed, e.time ≤ time
  ahead : ∀ r ∈ done, AheadOf time r
  reach : ∀ r ∈ rest, r.state = .running → ∀ next, r.nextTime? = some next → time ≤ next

section Midway

variable {time : Int} {fed : List (TradeEvent α)} {done rest : List (InstanceRun α σ)}
  {r r' : InstanceRun α σ} {s : Statistics α}

/-- A run takes its bar at the time of the pass, and its next one opens later. -/
theorem Midway.step (h : Midway c time fed done (r :: rest) s) (due : r.nextTime? = some time)
    {stopped : Bool} {host host' : EngineHost α σ} (stepped : r.step c stopped host = (host', r', none)) :
    Midway c time (fed ++ r'.stepEvents.filter (·.event.isClose)) (done ++ [r']) rest
      (s.addEvents r'.stepEvents) := by
  have mem : r ∈ done ++ r :: rest := List.mem_append_right _ List.mem_cons_self
  have carried := h.conserves.step stepped fun time' htime' e he => by
    cases due.symm.trans htime'
    exact h.past e he
  rw [List.append_cons] at carried
  have ok : (r.step c stopped host).2.2 = none := by rw [stepped]
  have times := (InstanceRun.step_emits (h.conserves.reconciled r mem).ascends ok).2
  have later : ∀ next, (r.step c stopped host).2.1.state = .running →
      (r.step c stopped host).2.1.nextTime? = some next → time < next :=
    fun next => InstanceRun.step_nextTime?_lt (h.conserves.increasing r mem) due
  rw [stepped] at times later
  refine ⟨carried, fun e he => ?_, fun x hx => ?_, fun x hx => h.reach x (List.mem_cons_of_mem _ hx)⟩
  · rcases List.mem_append.mp he with he | he
    · exact h.past e he
    · have opened := times e (List.mem_filter.mp he).1
      exact Int.le_of_eq (Option.some.inj (due.symm.trans opened)).symm
  · rcases List.mem_append.mp hx with hx | hx
    · exact h.ahead x hx
    · rw [List.mem_singleton.mp hx]
      exact fun running next hnext => later next running hnext

/-- A run that is not due is ahead of the pass, as no bar opens before its time. -/
theorem Midway.skip (h : Midway c time fed done (r :: rest) s)
    (notDue : ¬(r.state = .running ∧ r.nextTime? = some time)) :
    Midway c time fed (done ++ [r]) rest s := by
  have conserves := h.conserves
  rw [List.append_cons] at conserves
  refine ⟨conserves, h.past, fun x hx => ?_, fun x hx => h.reach x (List.mem_cons_of_mem _ hx)⟩
  rcases List.mem_append.mp hx with hx | hx
  · exact h.ahead x hx
  · rw [List.mem_singleton.mp hx]
    intro running next hnext
    have reached := h.reach r List.mem_cons_self running next hnext
    have other : time ≠ next := fun heq => notDue ⟨running, heq ▸ hnext⟩
    omega

end Midway

/-- A pass at the earliest time ahead feeds closes of that time, and leaves the runs ahead of it. -/
theorem eachRun_ordered (ordered : Ordered c p) {time : Int} (htime : p.nextTime? = some time)
    (passed : eachRun (stepAt c stop (some time))
      { p with combined := p.combined.noteTime time } = (q, none)) : Ordered c q := by
  obtain ⟨fed, conserves, ahead⟩ := ordered
  have past : ∀ e ∈ fed, e.time ≤ time := by
    intro e he
    obtain ⟨r, hr, running, hnext⟩ := exists_of_nextTime? htime
    exact Int.le_of_lt (ahead r hr e he running time hnext)
  have first : Midway c time fed [] p.runs (p.combined.noteTime time) :=
    ⟨conserves.noteTime time, past, fun _ hr => absurd hr List.not_mem_nil,
      fun r hr running next => nextTime?_le htime hr running⟩
  have after := eachRun_induction (p := { p with combined := p.combined.noteTime time })
    (motive := fun done rest _ s _ => ∃ fed, Midway c time fed done rest s) ?_ ⟨fed, first⟩ passed
  · obtain ⟨fed', midway⟩ := after
    have conserves' := midway.conserves
    rw [List.append_nil] at conserves'
    refine ⟨fed', conserves', fun r hr e he running next hnext => ?_⟩
    exact Int.lt_of_le_of_lt (midway.past e he) (midway.ahead r hr running next hnext)
  · rintro done r rest h s n h' s' n' r' ⟨fed, midway⟩ stepped
    rcases stepAt_cases stepped with ⟨-, due, hstep, rfl⟩ | ⟨notDue, rfl, rfl, rfl⟩
    · exact ⟨_, midway.step due hstep⟩
    · exact ⟨fed, midway.skip notDue⟩

theorem eachRun_last (ordered : Ordered c p) (passed : p.eachRun (stepAt c stop none) = (q, none)) :
    ∃ fed, Conserves c fed q.runs q.combined := by
  obtain ⟨fed, conserves, -⟩ := ordered
  have after := eachRun_induction
    (motive := fun done rest _ s _ => ∃ fed, Conserves c fed (done ++ rest) s)
    ?_ ⟨fed, conserves⟩ passed
  · rw [List.append_nil] at after
    exact after
  · rintro done r rest h s n h' s' n' r' ⟨fed, conserves⟩ stepped
    rcases stepAt_cases stepped with ⟨-, due, hstep, rfl⟩ | ⟨-, rfl, rfl, rfl⟩
    · -- without a bar ahead there is no time that an event could bear
      have carried := conserves.step hstep fun time htime => by
        rw [due] at htime
        cases htime
      rw [List.append_cons] at carried
      exact ⟨_, carried⟩
    · rw [List.append_cons] at conserves
      exact ⟨fed, conserves⟩

/-- A portfolio that runs without a fault of its own has fed the closes of all its runs. -/
theorem run_conserves {plans : List (InstancePlan α σ)} {host : EngineHost α σ}
    (assembled : plans.foldlM (add c) (empty c host) = .ok p)
    (increasing : ∀ s ∈ plans, s.rates.primary.Increasing) (ran : p.run c stop = (q, none)) :
    ∃ fed, Conserves c fed q.runs q.combined := by
  obtain ⟨p₁, p₂, p₃, n, started, -, lock, last, rfl⟩ := run_passes ran
  have ordered₁ := start_ordered assembled increasing started
  have ordered₂ : Ordered c p₂ := lockstep_induction
    (fun ordered htime passed => eachRun_ordered ordered htime passed) ordered₁ lock
  exact (eachRun_last ordered₂ last :)

end Portfolio
end Backtest
