import Backtest.Instance.Candidate
import Backtest.Proofs.Instance.Ledgers
import Backtest.Proofs.Instance.Progress

namespace Backtest

namespace InstanceRun

variable {α σ : Type} [Arith α] {c : RunScope α} {h : EngineHost α σ} {r : InstanceRun α σ} {f : Fault α}

theorem abort_snd_eq_some {g : Fault α} (handed : (r.abort f).2 = some g) :
    g = f ∧ f.isFatal = true := by
  unfold abort at handed
  dsimp only at handed
  split at handed
  next fatal =>
    cases handed
    exact ⟨rfl, fatal⟩
  next => cases handed

/-- An engine that fails ends its own instance; what its answer does to the book may reach further. -/
theorem consult_handedOn (ascends : r.book.Ascends) {q : Quote α} {bar : Bar α}
    (failed : (r.consult c h q bar).2.2 = some f) (fatal : f.isFatal = true) :
    f.HandedOn r.book.instanceId r.book.orderLimit := by
  unfold consult at failed
  split at failed
  next =>
    split at failed
    next g unasked =>
      cases failed
      unfold EngineHost.call at unasked
      split at unasked
      · cases unasked
        cases fatal
      · cases unasked
    next answer _ =>
      dsimp only at failed
      split at failed
      next => exact OrderBook.actAll_handedOn ascends failed
      next =>
        cases failed
        cases fatal
  next => cases failed

theorem Reconciled.step_handedOn (reconciled : r.Reconciled c) {stopped : Bool}
    (failed : (r.step c stopped h).2.2 = some f) :
    f.HandedOn r.plan.instanceId (max r.plan.settings.orderLimit 1) := by
  rcases step_cases c stopped h r with
    ⟨-, heq⟩ | ⟨-, -, heq⟩ | ⟨-, -, -, heq⟩ | ⟨bar, -, -, -, heq⟩
  · rw [heq] at failed
    cases failed
  · rw [heq] at failed
    cases failed
  · rw [heq] at failed
    cases failed
  · rw [heq] at failed
    have settled : ({ r with stepEvents := [] } : InstanceRun α σ).Reconciled c :=
      ⟨reconciled.book, reconciled.fed, reconciled.begun⟩
    have changes := (settled.settleBar bar).book
    rcases takeBar_cases c h { r with stepEvents := [] } bar with ⟨g, cause, taken⟩ | ⟨-, -, taken⟩
    · rw [taken] at failed
      obtain ⟨rfl, fatal⟩ := abort_snd_eq_some failed
      rcases cause with asked | unbalanced
      · have handed := consult_handedOn (settled.settleBar bar).ascends asked fatal
        rwa [changes.instanceId, changes.sameTerms.orderLimit] at handed
      · exact .inr (OrderBook.ledgerFault?_category unbalanced)
    · rw [taken] at failed
      cases failed

theorem start_handsOnNothing (vacant : h.isLive r.instanceId = false) : (r.start c h).2.2 = none := by
  unfold start
  split
  next => rfl
  next =>
    dsimp only
    split
    next => rfl
    next unstarted =>
      unfold EngineHost.start at unstarted
      dsimp only at unstarted
      rw [if_neg (by simp [vacant])] at unstarted
      split at unstarted
      · cases unstarted
      · cases unstarted
        rfl

theorem Reached.plan {p : InstancePlan α σ} (reach : Reached c p r) : r.plan = p := by
  induction reach with
  | fresh => rfl
  | start host _ _ ih => exact (start_plan c host _).trans ih
  | step stopped host _ _ ih => exact (step_plan c stopped host _).trans ih

theorem Reached.steps_handedOn {p : InstancePlan α σ} (reach : Reached c p r) {stop : StopPoint} {n : Nat}
    (failed : (r.steps c stop n h).2.2 = some f) :
    f.HandedOn p.instanceId (max p.settings.orderLimit 1) := by
  -- every step before the one that fails hands on nothing, so that its run is reached again
  induction n generalizing r h with
  | zero => cases failed
  | succ n ih =>
    by_cases running : r.state = .running
    · rw [steps_succ c stop n h running] at failed
      have stepped := reach.step (stop.isReached r.cursor) h
      have handed : (r.step c (stop.isReached r.cursor) h).2.2 = some f → _ :=
        reach.reconciled.step_handedOn
      rw [reach.plan] at handed
      generalize r.step c (stop.isReached r.cursor) h = out at failed stepped handed
      obtain ⟨h', r', fault⟩ := out
      cases fault with
      | some g =>
        cases failed
        exact handed rfl
      | none => exact ih (stepped rfl) failed
    · rw [steps_eq_of_halted c stop _ h running] at failed
      cases failed

theorem run_handedOn {p : InstancePlan α σ} (vacant : h.isLive p.instanceId = false) {stop : StopPoint}
    (failed : ((ofPlan c p).run c stop h).2.2 = some f) :
    f.HandedOn p.instanceId (max p.settings.orderLimit 1) := by
  have quiet : ((ofPlan c p).start c h).2.2 = none := start_handsOnNothing vacant
  have reach := Reached.fresh.start h quiet
  unfold run at failed
  dsimp only at failed
  generalize (ofPlan c p).start c h = out at failed reach quiet
  obtain ⟨h', r', fault⟩ := out
  dsimp only at quiet
  subst quiet
  exact reach.steps_handedOn failed

end InstanceRun

/-- What a candidate that has an id ends on: too many orders for its settings, or a broken invariant. -/
theorem InstancePlan.runCandidate_handedOn {α σ : Type} [Arith α] {c : RunScope α}
    {y : InstancePlan α σ} {worker : Nat} {id : Int} (own : workerId (α := α) y.instanceId worker = .ok id)
    {world : σ} {values : Assignment α} {f : Fault α}
    (failed : (y.runCandidate c worker world values).2 = .error f) :
    f.HandedOn id (max (y.candidate id values).settings.orderLimit 1) := by
  unfold runCandidate at failed
  rw [own] at failed
  dsimp only at failed
  have handed : ((InstanceRun.ofPlan c (y.candidate id values)).run c none
      (EngineHost.empty world EngineHost.standardRetries)).2.2 = some f → _ := InstanceRun.run_handedOn rfl
  generalize (InstanceRun.ofPlan c (y.candidate id values)).run c none
    (EngineHost.empty world EngineHost.standardRetries) = out at failed handed
  obtain ⟨host, r, fault⟩ := out
  cases fault with
  | none => cases failed
  | some g =>
    cases failed
    exact handed rfl

end Backtest
