import Backtest.Proofs.Instance.Twin

namespace Backtest

namespace EngineHost

variable {α σ : Type}

theorem call_live (h : EngineHost α σ) (x : Snapshot α) : (h.call x).1.live = h.live := by
  unfold call
  split <;> rfl

theorem call_isOk (h : EngineHost α σ) (x : Snapshot α) :
    (h.call x).2.isOk = h.isLive x.instanceId := by
  unfold call isLive
  split
  next hnone => simp [hnone, Except.isOk, Except.toBool]
  next hsome => simp [hsome, Except.isOk, Except.toBool]

theorem start_engine? {h : EngineHost α σ} {e : Engine α σ} {r : EngineStart}
    (started : (h.start e r).2 = none) : (h.start e r).1.engine? r.instanceId = some e := by
  revert started
  unfold start
  split
  next => exact fun started => by cases started
  next =>
    dsimp only
    split
    next => exact fun _ => List.lookup_cons_self
    next => exact fun started => by cases started

end EngineHost

namespace InstanceRun

variable {α σ : Type} [Arith α]

/-- A start decides on the state of the run, and on nothing else but its failure. -/
theorem start_run (c : RunScope α) (h : EngineHost α σ) (r : InstanceRun α σ) :
    ∃ state failure, (r.start c h).2.1 = { r with state := state, failure := failure } := by
  unfold start
  split
  next => exact ⟨r.state, r.failure, rfl⟩
  next =>
    dsimp only
    split
    all_goals exact ⟨_, _, rfl⟩

theorem start_engine? {c : RunScope α} {h : EngineHost α σ} {r : InstanceRun α σ}
    (fresh : r.state = .notStarted) (running : (r.start c h).2.1.state = .running) :
    (r.start c h).1.engine? r.instanceId = some r.plan.engine := by
  revert running
  unfold start
  rw [if_neg (not_not_intro fresh)]
  dsimp only
  generalize hrequest : EngineStart.mk .. = request
  have hid : request.instanceId = r.instanceId := by rw [← hrequest]
  have hengine := EngineHost.start_engine? (h := h) (e := r.plan.engine) (r := request)
  split
  next hstart =>
    rw [hstart, hid] at hengine
    exact fun _ => hengine rfl
  next => exact fun running => by cases running

/-- Asking changes the book, and counts the call that is made if the bar is due and the instance live. -/
theorem consult_run (c : RunScope α) (h : EngineHost α σ) (r : InstanceRun α σ) (q : Quote α)
    (bar : Bar α) :
    ∃ book, (r.consult c h q bar).2.1 =
      { r with
        engineCalls := r.engineCalls +
          if r.isDue c bar.time && h.isLive r.instanceId then 1 else 0
        book := book } := by
  have hok : (h.call (r.snapshot c q bar)).2.isOk = h.isLive r.instanceId := h.call_isOk _
  unfold consult
  rw [← hok]
  split
  next hdue =>
    rw [hdue, Bool.true_and]
    split
    next hcall =>
      rw [hcall]
      exact ⟨r.book, rfl⟩
    next hcall =>
      rw [hcall]
      dsimp only
      split <;> exact ⟨_, rfl⟩
  next hdue =>
    rw [Bool.eq_false_iff.mpr hdue]
    exact ⟨r.book, rfl⟩

theorem consult_live (c : RunScope α) (h : EngineHost α σ) (r : InstanceRun α σ) (q : Quote α)
    (bar : Bar α) : (r.consult c h q bar).1.live = h.live := by
  have hlive := h.call_live (r.snapshot c q bar)
  unfold consult
  split
  next =>
    split
    next hcall => rwa [hcall] at hlive
    next hcall =>
      rw [hcall] at hlive
      dsimp only
      split <;> exact hlive
  next => rfl

def ask (c : RunScope α) (h : EngineHost α σ) (r : InstanceRun α σ) (bar : Bar α) :
    EngineHost α σ × InstanceRun α σ × Option (Fault α) :=
  (r.settleBar bar).1.consult c h (r.settleBar bar).2 bar

theorem ask_run (c : RunScope α) (h : EngineHost α σ) (r : InstanceRun α σ) (bar : Bar α) :
    ∃ book, (r.ask c h bar).2.1 =
      { (r.settleBar bar).1 with
        engineCalls := r.engineCalls +
          if (r.settleBar bar).1.isDue c bar.time && h.isLive r.instanceId then 1 else 0
        book := book } :=
  consult_run c h (r.settleBar bar).1 (r.settleBar bar).2 bar

theorem ask_live (c : RunScope α) (h : EngineHost α σ) (r : InstanceRun α σ) (bar : Bar α) :
    (r.ask c h bar).1.live = h.live :=
  consult_live c h (r.settleBar bar).1 (r.settleBar bar).2 bar

theorem takeBar_eq (c : RunScope α) (h : EngineHost α σ) (r : InstanceRun α σ) (bar : Bar α) :
    r.takeBar c h bar =
      match r.ask c h bar with
      | (h, r, some f) => (h, r.abort f)
      | (h, r', none) =>
        match r'.book.ledgerFault? with
        | some f => (h, r'.abort f)
        | none =>
          (h, r'.finishBar r.book.events.size (r.settleBar bar).1.book.events.size, none) := rfl

/-- A bar ends on a fault once the engine was asked, or goes to its end. -/
theorem takeBar_cases (c : RunScope α) (h : EngineHost α σ) (r : InstanceRun α σ) (bar : Bar α) :
    (∃ f, ((r.ask c h bar).2.2 = some f ∨ (r.ask c h bar).2.1.book.ledgerFault? = some f) ∧
      r.takeBar c h bar = ((r.ask c h bar).1, (r.ask c h bar).2.1.abort f)) ∨
    ((r.ask c h bar).2.2 = none ∧ (r.ask c h bar).2.1.book.ledgerFault? = none ∧
      r.takeBar c h bar = ((r.ask c h bar).1, (r.ask c h bar).2.1.finishBar r.book.events.size
        (r.settleBar bar).1.book.events.size, none)) := by
  rw [takeBar_eq]
  obtain ⟨h', r', fault⟩ := r.ask c h bar
  cases fault with
  | some f => exact .inl ⟨f, .inl rfl, rfl⟩
  | none =>
    dsimp only
    cases r'.book.ledgerFault? with
    | some f => exact .inl ⟨f, .inr rfl, rfl⟩
    | none => exact .inr ⟨rfl, rfl, rfl⟩

/-- What a step does: nothing, the end of the run, or a bar. -/
theorem step_cases (c : RunScope α) (stopped : Bool) (host : EngineHost α σ) (r : InstanceRun α σ) :
    (r.state ≠ .running ∧ r.step c stopped host = (host, { r with stepEvents := [] }, none)) ∨
    (r.state = .running ∧ stopped = true ∧ r.step c stopped host =
      (host, { r with stepEvents := [], state := .aborted, failure := some stopText }, none)) ∨
    (r.state = .running ∧ stopped = false ∧ r.primary.bar? r.cursor = none ∧
      r.step c stopped host = (host, { r with stepEvents := [], state := .finished }, none)) ∨
    ∃ bar, r.state = .running ∧ stopped = false ∧ r.primary.bar? r.cursor = some bar ∧
      r.step c stopped host = takeBar c host { r with stepEvents := [] } bar := by
  by_cases hrunning : r.state = .running
  · refine .inr ?_
    cases stopped with
    | true =>
      refine .inl ⟨hrunning, rfl, ?_⟩
      unfold step isRunning
      simp [hrunning]
    | false =>
      refine .inr ?_
      cases hbar : r.primary.bar? r.cursor with
      | some bar =>
        refine .inr ⟨bar, hrunning, rfl, rfl, ?_⟩
        rw [step_eq hbar, if_pos hrunning, if_neg Bool.false_ne_true]
      | none =>
        refine .inl ⟨hrunning, rfl, rfl, ?_⟩
        have hprimary : primary { r with stepEvents := [] } = r.primary := rfl
        unfold step isRunning
        dsimp only
        rw [hprimary, hbar]
        simp only [hrunning, decide_true, Bool.not_true, Bool.false_eq_true, ↓reduceIte]
  · refine .inl ⟨hrunning, ?_⟩
    unfold step isRunning
    simp [hrunning]

end InstanceRun
end Backtest
