import Backtest.Instance.Step
import Backtest.Proofs.History.Openings
import Backtest.Proofs.Market.Twin

namespace Backtest
namespace InstanceRun

variable {α σ : Type} [Arith α]

def play (c : RunScope α) (stop : StopPoint) (n : Nat) (h : EngineHost α σ) (r : InstanceRun α σ) :
    EngineHost α σ × InstanceRun α σ × Option (Fault α) :=
  match r.start c h with
  | (h, r, some f) => (h, r, some f)
  | (h, r, none) => r.steps c stop n h

theorem step_eq {c : RunScope α} {stopped : Bool} {host : EngineHost α σ} {r : InstanceRun α σ}
    {bar : Bar α} (hb : r.primary.bar? r.cursor = some bar) :
    r.step c stopped host =
      if r.state = .running then
        if stopped then
          (host, { r with stepEvents := [], state := .aborted, failure := some stopText }, none)
        else takeBar c host { r with stepEvents := [] } bar
      else (host, { r with stepEvents := [] }, none) := by
  have hb' : primary { r with stepEvents := [] } = r.primary := rfl
  unfold step isRunning
  dsimp only
  rw [hb', hb]
  by_cases hrunning : r.state = .running
  · simp only [hrunning, decide_true, Bool.not_true, Bool.false_eq_true, ↓reduceIte]
  · simp only [hrunning, decide_false, Bool.not_false, ↓reduceIte]

theorem consult_cursor (c : RunScope α) (host : EngineHost α σ) (r : InstanceRun α σ) (q : Quote α)
    (bar : Bar α) : (r.consult c host q bar).2.1.cursor = r.cursor := by
  unfold consult
  split
  next =>
    split
    next => rfl
    next =>
      dsimp only
      split <;> rfl
  next => rfl

theorem settleBar_book (r : InstanceRun α σ) (bar : Bar α) :
    (r.settleBar bar).1.book =
      ((r.book.settleEntries (r.settleBar bar).2).settleExits (r.settleBar bar).2).bookSwap
        bar.time := rfl

theorem settleBar_stepEvents (r : InstanceRun α σ) (bar : Bar α) :
    (r.settleBar bar).1.stepEvents =
      (r.settleBar bar).1.book.events.toList.drop r.book.events.size := rfl

theorem settleBar_statistics (r : InstanceRun α σ) (bar : Bar α) :
    (r.settleBar bar).1.statistics =
      (r.statistics.noteTime bar.time).addEvents (r.settleBar bar).1.stepEvents := rfl

theorem finishBar_eq (r : InstanceRun α σ) (before settled : Nat) :
    r.finishBar before settled =
      { r with
        statistics := r.statistics.addEvents (r.eventsFrom settled)
        stepEvents := r.eventsFrom before
        barsProcessed := r.barsProcessed + 1
        cursor := r.cursor + 1
        state := if r.book.balance ≤ 0 ∨ r.cursor + 1 ≥ r.primary.size then .finished
          else r.state } := by
  unfold finishBar
  by_cases h : r.book.balance ≤ 0 ∨ r.cursor + 1 ≥ r.primary.size
  · rw [if_pos h]
    exact if_pos h
  · rw [if_neg h]
    exact if_neg h

/-- Two runs of one plan on twin rates, before the bar at their cursor. Past the last of the times `past`
one of them may have come to its end. -/
structure Twin (t : Int) (past : List Int) (r₁ r₂ : InstanceRun α σ) : Prop where
  plan : { r₁.plan with rates := r₂.plan.rates } = r₂.plan
  primary : Series.SameBars t past r₁.primary r₂.primary
  rates : r₁.rates.Twin t past r₁.cursor r₂.rates
  book : r₁.book = r₂.book
  statistics : r₁.statistics = r₂.statistics
  cursor : r₁.cursor = r₂.cursor
  barsProcessed : r₁.barsProcessed = r₂.barsProcessed
  engineCalls : r₁.engineCalls = r₂.engineCalls
  stepEvents : r₁.stepEvents = r₂.stepEvents
  failure : r₁.failure = r₂.failure
  state : r₁.cursor < past.length → r₁.state = r₂.state

/-- Two results that cannot be told apart up to the last of the times `past`. -/
structure Together (t : Int) (past : List Int)
    (x y : EngineHost α σ × InstanceRun α σ × Option (Fault α)) : Prop where
  host : x.1 = y.1
  fault : x.2.2 = y.2.2
  runs : Twin t past x.2.1 y.2.1

namespace Twin

variable {t : Int} {past : List Int} {r₁ r₂ : InstanceRun α σ}

theorem instanceId (h : Twin t past r₁ r₂) : r₁.instanceId = r₂.instanceId :=
  (congrArg InstancePlan.instanceId h.plan :)

theorem settings (h : Twin t past r₁ r₂) : r₁.plan.settings = r₂.plan.settings :=
  (congrArg InstancePlan.settings h.plan :)

theorem account (h : Twin t past r₁ r₂) : r₁.plan.account = r₂.plan.account :=
  (congrArg InstancePlan.account h.plan :)

theorem engine (h : Twin t past r₁ r₂) : r₁.plan.engine = r₂.plan.engine :=
  (congrArg InstancePlan.engine h.plan :)

theorem engineConfig (h : Twin t past r₁ r₂) : r₁.plan.engineConfig = r₂.plan.engineConfig :=
  (congrArg InstancePlan.engineConfig h.plan :)

theorem abort (h : Twin t past r₁ r₂) (f : Fault α) : Twin t past (r₁.abort f).1 (r₂.abort f).1 :=
  { h with
    failure := rfl
    state := fun _ => rfl }

theorem quote (h : Twin t past r₁ r₂) {b₁ b₂ : Bar α} (htime : b₁.time = b₂.time)
    (hopen : b₁.openPrice = b₂.openPrice) (hle : b₁.time ≤ t) (hk : r₁.cursor < past.length) :
    r₁.quote b₁ = r₂.quote b₂ := by
  have hbefore : (if r₁.cursor = 0 then none else r₁.primary.bar? (r₁.cursor - 1)) =
      if r₂.cursor = 0 then none else r₂.primary.bar? (r₂.cursor - 1) := by
    rw [← h.cursor]
    split
    next => rfl
    next => exact h.primary.closed _ (by omega)
  unfold InstanceRun.quote
  rw [hbefore, h.account, h.rates.termFactor hle, htime, hopen]

theorem snapshot (h : Twin t past r₁ r₂) (c : RunScope α) (q : Quote α) {b₁ b₂ : Bar α}
    (hopen : b₁.openPrice = b₂.openPrice) (hle : q.time ≤ t) :
    r₁.snapshot c q b₁ = r₂.snapshot c q b₂ := by
  unfold InstanceRun.snapshot
  rw [h.instanceId, h.settings, h.rates.symbol, h.rates.slices, h.rates.baseFactor hle, h.book,
    h.cursor, hopen]

theorem settleBar (h : Twin t past r₁ r₂) {b₁ b₂ : Bar α} (hk : past[r₁.cursor]? = some b₁.time)
    (htime : b₁.time = b₂.time) (hopen : b₁.openPrice = b₂.openPrice) (hle : b₁.time ≤ t) :
    (r₁.settleBar b₁).2 = (r₂.settleBar b₂).2 ∧
      Twin t past (r₁.settleBar b₁).1 (r₂.settleBar b₂).1 := by
  have hlt : r₁.cursor < past.length := (List.getElem?_eq_some_iff.mp hk).1
  have rates := h.rates.advance hk hle
  have moved : Twin t past { r₁ with rates := r₁.rates.advance b₁.time }
      { r₂ with rates := r₂.rates.advance b₂.time } := { h with rates := htime ▸ rates }
  have hq : (r₁.settleBar b₁).2 = (r₂.settleBar b₂).2 := moved.quote htime hopen hle hlt
  have book : (r₁.settleBar b₁).1.book = (r₂.settleBar b₂).1.book := by
    rw [settleBar_book, settleBar_book, hq, h.book, htime]
  have stepEvents : (r₁.settleBar b₁).1.stepEvents = (r₂.settleBar b₂).1.stepEvents := by
    rw [settleBar_stepEvents, settleBar_stepEvents, book, h.book]
  have statistics : (r₁.settleBar b₁).1.statistics = (r₂.settleBar b₂).1.statistics := by
    rw [settleBar_statistics, settleBar_statistics, stepEvents, h.statistics, htime]
  exact ⟨hq, { moved with book := book, statistics := statistics, stepEvents := stepEvents }⟩

theorem consult (h : Twin t past r₁ r₂) (c : RunScope α) (host : EngineHost α σ) {q : Quote α}
    {b₁ b₂ : Bar α} (htime : b₁.time = b₂.time) (hopen : b₁.openPrice = b₂.openPrice)
    (hle : q.time ≤ t) : Together t past (r₁.consult c host q b₁) (r₂.consult c host q b₂) := by
  have hdue : r₁.isDue c b₁.time = r₂.isDue c b₂.time := by
    unfold InstanceRun.isDue
    rw [h.rates.isWarm, htime]
  unfold InstanceRun.consult
  rw [hdue, h.snapshot c q hopen hle]
  split
  next =>
    split
    next => exact ⟨rfl, rfl, h⟩
    next answer _ =>
      dsimp only
      split
      next =>
        exact
          { host := rfl
            fault := by dsimp only; rw [h.book]
            runs :=
              { h with
                book := by dsimp only; rw [h.book]
                engineCalls := congrArg (· + 1) h.engineCalls } }
      next =>
        exact
          { host := rfl
            fault := by
              change some (Fault.callFailed r₁.instanceId r₁.cursor _) = _
              rw [h.instanceId, h.cursor]
              rfl
            runs := { h with engineCalls := congrArg (· + 1) h.engineCalls } }
  next => exact ⟨rfl, rfl, h⟩

theorem lt_size (h : Twin t past r₁ r₂) {k : Nat} (hk : k < past.length) :
    k < r₁.primary.size ∧ k < r₂.primary.size := by
  obtain ⟨-, b₁, b₂, hb₁, hb₂, -⟩ := h.primary.opening k _ (List.getElem?_eq_getElem hk)
  exact ⟨(Array.getElem?_eq_some_iff.mp hb₁).1, (Array.getElem?_eq_some_iff.mp hb₂).1⟩

theorem finishBar (h : Twin t past r₁ r₂) (hk : r₁.cursor < past.length) (before settled : Nat) :
    Twin t past (r₁.finishBar before settled) (r₂.finishBar before settled) := by
  have hstate := h.state hk
  rw [finishBar_eq, finishBar_eq]
  unfold eventsFrom
  exact
    { plan := h.plan
      primary := h.primary
      rates := h.rates.mono (Nat.le_succ _)
      book := h.book
      statistics := by dsimp only; rw [h.statistics, h.book]
      cursor := congrArg (· + 1) h.cursor
      barsProcessed := congrArg (· + 1) h.barsProcessed
      engineCalls := h.engineCalls
      stepEvents := by dsimp only; rw [h.book]
      failure := h.failure
      state := by
        intro hnext
        change r₁.cursor + 1 < past.length at hnext
        have ⟨hsize₁, hsize₂⟩ := h.lt_size hnext
        rw [h.cursor] at hsize₂
        dsimp only
        rw [hstate, h.book]
        simp only [ge_iff_le, Nat.not_le_of_gt hsize₁, Nat.not_le_of_gt hsize₂] }

theorem takeBar (h : Twin t past r₁ r₂) (c : RunScope α) (host : EngineHost α σ) {b₁ b₂ : Bar α}
    (hk : past[r₁.cursor]? = some b₁.time) (htime : b₁.time = b₂.time)
    (hopen : b₁.openPrice = b₂.openPrice) (hle : b₁.time ≤ t) :
    Together t past (r₁.takeBar c host b₁) (r₂.takeBar c host b₂) := by
  have hlt : r₁.cursor < past.length := (List.getElem?_eq_some_iff.mp hk).1
  obtain ⟨hq, settled⟩ := h.settleBar hk htime hopen hle
  have hqle : (r₁.settleBar b₁).2.time ≤ t := hle
  have asked := settled.consult c host htime hopen hqle
  have hcursor : ((r₁.settleBar b₁).1.consult c host (r₁.settleBar b₁).2 b₁).2.1.cursor =
      r₁.cursor := consult_cursor c host _ _ b₁
  have hevents := congrArg (fun b => b.events.size) h.book
  have hsettled := congrArg (fun b => b.events.size) settled.book
  unfold InstanceRun.takeBar
  dsimp only at hevents hsettled ⊢
  rw [← hq, hevents, hsettled]
  generalize (r₁.settleBar b₁).1.consult c host (r₁.settleBar b₁).2 b₁ = x at asked hcursor ⊢
  generalize (r₂.settleBar b₂).1.consult c host (r₁.settleBar b₁).2 b₂ = y at asked ⊢
  obtain ⟨host₁, r₁', fault₁⟩ := x
  obtain ⟨host₂, r₂', fault₂⟩ := y
  obtain ⟨hhost, hfault, runs⟩ := asked
  dsimp only at hhost hfault runs hcursor
  subst hhost
  subst hfault
  cases fault₁ with
  | some f => exact ⟨rfl, rfl, runs.abort f⟩
  | none =>
    dsimp only
    rw [runs.book]
    split
    next f _ => exact ⟨rfl, rfl, runs.abort f⟩
    next => exact ⟨rfl, rfl, runs.finishBar (hcursor ▸ hlt) _ _⟩

theorem step (h : Twin t past r₁ r₂) (hlt : r₁.cursor < past.length) (c : RunScope α)
    (stopped : Bool) (host : EngineHost α σ) :
    Together t past (r₁.step c stopped host) (r₂.step c stopped host) := by
  have h' : Twin t past { r₁ with stepEvents := [] } { r₂ with stepEvents := [] } :=
    { h with stepEvents := rfl }
  obtain ⟨hle, b₁, b₂, hb₁, hb₂, htime₁, htime₂, hopen⟩ :=
    h.primary.opening r₁.cursor _ (List.getElem?_eq_getElem hlt)
  have hk : past[r₁.cursor]? = some b₁.time := by rw [htime₁, List.getElem?_eq_getElem hlt]
  rw [h.cursor] at hb₂
  have hstate := h.state hlt
  rw [step_eq hb₁, step_eq hb₂]
  by_cases hrunning : r₁.state = .running
  · rw [if_pos hrunning, if_pos (hstate.symm.trans hrunning)]
    by_cases hstopped : stopped = true
    · rw [if_pos hstopped, if_pos hstopped]
      exact ⟨rfl, rfl, { h' with failure := rfl, state := fun _ => rfl }⟩
    · rw [if_neg hstopped, if_neg hstopped]
      exact h'.takeBar c host hk (htime₁.trans htime₂.symm) hopen (htime₁ ▸ hle)
  · rw [if_neg hrunning, if_neg fun h₂ => hrunning (hstate.trans h₂)]
    exact ⟨rfl, rfl, h'⟩

end Twin

theorem ofPlan_twin {t : Int} {past : List Int} (c : RunScope α) (p : InstancePlan α σ)
    {v : MarketView α} (primary : Series.SameBars t past p.rates.primary v.primary)
    (rates : p.rates.Twin t past 0 v) :
    Twin t past (ofPlan c p) (ofPlan c { p with rates := v }) where
  plan := rfl
  primary := primary
  rates := rates
  book := rfl
  statistics := rfl
  cursor := rfl
  barsProcessed := rfl
  engineCalls := rfl
  stepEvents := rfl
  failure := rfl
  state := fun _ => rfl

theorem takeBar_cursor_le (c : RunScope α) (host : EngineHost α σ) (r : InstanceRun α σ)
    (bar : Bar α) : (r.takeBar c host bar).2.1.cursor ≤ r.cursor + 1 := by
  have hcursor : ((r.settleBar bar).1.consult c host (r.settleBar bar).2 bar).2.1.cursor =
      r.cursor := consult_cursor c host _ _ bar
  unfold takeBar
  dsimp only
  generalize (r.settleBar bar).1.consult c host (r.settleBar bar).2 bar = x at hcursor ⊢
  obtain ⟨host', r', fault⟩ := x
  dsimp only at hcursor
  cases fault with
  | some f => exact hcursor ▸ Nat.le_succ _
  | none =>
    dsimp only
    split
    next => exact hcursor ▸ Nat.le_succ _
    next =>
      rw [finishBar_eq, ← hcursor]

theorem step_cursor_le (c : RunScope α) (stopped : Bool) (host : EngineHost α σ)
    (r : InstanceRun α σ) : (r.step c stopped host).2.1.cursor ≤ r.cursor + 1 := by
  unfold step
  dsimp only
  split
  next => exact Nat.le_succ _
  next =>
    split
    next => exact Nat.le_succ _
    next =>
      split
      next => exact Nat.le_succ _
      next bar _ => exact takeBar_cursor_le c host { r with stepEvents := [] } bar

/-- Steps on bars up to `t` leave the runs together. -/
theorem Twin.steps {t : Int} {past : List Int} {r₁ r₂ : InstanceRun α σ} (h : Twin t past r₁ r₂)
    (c : RunScope α) (stop : StopPoint) {n : Nat} (hn : r₁.cursor + n ≤ past.length)
    (host : EngineHost α σ) :
    Together t past (r₁.steps c stop n host) (r₂.steps c stop n host) := by
  induction n generalizing r₁ r₂ host with
  | zero => exact ⟨rfl, rfl, h⟩
  | succ n ih =>
    have hlt : r₁.cursor < past.length := by omega
    have next := h.step hlt c (stop.isReached r₁.cursor) host
    have hcursor := step_cursor_le c (stop.isReached r₁.cursor) host r₁
    have hrunning : r₁.isRunning = r₂.isRunning := by
      unfold isRunning
      rw [h.state hlt]
    unfold InstanceRun.steps
    rw [← hrunning, ← h.cursor]
    split
    next => exact ⟨rfl, rfl, h⟩
    next =>
      generalize r₁.step c (stop.isReached r₁.cursor) host = x at next hcursor ⊢
      generalize r₂.step c (stop.isReached r₁.cursor) host = y at next ⊢
      obtain ⟨host₁, r₁', fault₁⟩ := x
      obtain ⟨host₂, r₂', fault₂⟩ := y
      obtain ⟨hhost, hfault, runs⟩ := next
      dsimp only at hhost hfault runs hcursor
      subst hhost
      subst hfault
      cases fault₁ with
      | some f => exact ⟨rfl, rfl, runs⟩
      | none => exact ih runs (by omega) host₁

theorem Twin.start {t : Int} {past : List Int} {r₁ r₂ : InstanceRun α σ} (h : Twin t past r₁ r₂)
    (hlt : r₁.cursor < past.length) (c : RunScope α) (host : EngineHost α σ) :
    Together t past (r₁.start c host) (r₂.start c host) := by
  have hstate := h.state hlt
  unfold InstanceRun.start
  rw [hstate, h.engine, h.instanceId, h.settings, h.engineConfig]
  split
  next => exact ⟨rfl, rfl, h⟩
  next =>
    dsimp only
    split
    next => exact ⟨rfl, rfl, { h with state := fun _ => rfl }⟩
    next f _ => exact ⟨rfl, rfl, h.abort f⟩

theorem start_bars (c : RunScope α) (host : EngineHost α σ) (r : InstanceRun α σ) :
    (r.start c host).2.1.cursor = r.cursor ∧ (r.start c host).2.1.primary = r.primary := by
  unfold start
  split
  next => exact ⟨rfl, rfl⟩
  next =>
    dsimp only
    split <;> exact ⟨rfl, rfl⟩

theorem Twin.play {t : Int} {past : List Int} {r₁ r₂ : InstanceRun α σ} (h : Twin t past r₁ r₂)
    (c : RunScope α) (stop : StopPoint) {n : Nat} (hlt : r₁.cursor < past.length)
    (hn : r₁.cursor + n ≤ past.length) (host : EngineHost α σ) :
    Together t past (r₁.play c stop n host) (r₂.play c stop n host) := by
  have started := h.start hlt c host
  have hcursor := (start_bars c host r₁).1
  unfold InstanceRun.play
  generalize r₁.start c host = x at started hcursor ⊢
  generalize r₂.start c host = y at started ⊢
  obtain ⟨host₁, r₁', fault₁⟩ := x
  obtain ⟨host₂, r₂', fault₂⟩ := y
  obtain ⟨hhost, hfault, runs⟩ := started
  dsimp only at hhost hfault runs hcursor
  subst hhost
  subst hfault
  cases fault₁ with
  | some f => exact ⟨rfl, rfl, runs⟩
  | none => exact runs.steps c stop (by omega) host₁

end InstanceRun
end Backtest
