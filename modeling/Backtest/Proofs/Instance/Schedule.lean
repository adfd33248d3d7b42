import Backtest.Proofs.Instance.Calls
import Backtest.Proofs.Market.WarmUp

namespace Backtest

theorem Series.skipWhile_skipWhile {α : Type} {s : Series α} {early late : Int → Bool}
    (h : ∀ t, early t = true → late t = true) (i : Nat) :
    s.skipWhile late (s.skipWhile early i) = s.skipWhile late i := by
  fun_induction Series.skipWhile s early i with
  | case1 i hi hearly ih =>
    rw [ih, Series.skipWhile.eq_1 s late i, dif_pos hi, if_pos (h _ hearly)]
  | case2 => rfl
  | case3 => rfl

namespace BarBuffer

variable {α : Type} (b : BarBuffer α) {s t : Int}

theorem advance_advance_baseClosed (hst : s ≤ t) :
    ((b.advance s).advance t).baseClosed = (b.advance t).baseClosed := by
  simp only [advance_baseClosed, advance_base, advance_basePeriod]
  exact Series.skipWhile_skipWhile (fun _ => closedBy_mono hst) b.baseClosed

theorem advance_advance_closed (hst : s ≤ t) :
    ((b.advance s).advance t).closed = (b.advance t).closed := by
  simp only [advance_closed, advance_series, advance_period]
  exact Series.skipWhile_skipWhile (fun _ => closedBy_mono hst) b.closed

/-- Moving a window on to a time that it passes on the way changes nothing. -/
theorem advance_advance (hst : s ≤ t) : (b.advance s).advance t = b.advance t := by
  have baseClosed := b.advance_advance_baseClosed hst
  have closed := b.advance_advance_closed hst
  have opening : ((b.advance s).advance t).windowOpening? = (b.advance t).windowOpening? := by
    unfold windowOpening?
    simp only [baseClosed, advance_base, advance_info]
  have windowStart : ((b.advance s).advance t).windowStart = (b.advance t).windowStart := by
    rw [advance_windowStart, advance_windowStart, opening, closed, advance_series]
  have info : ((b.advance s).advance t).info = (b.advance t).info := by simp only [advance_info]
  have base : ((b.advance s).advance t).base = (b.advance t).base := by simp only [advance_base]
  have series : ((b.advance s).advance t).series = (b.advance t).series := by
    simp only [advance_series]
  generalize (b.advance s).advance t = b₁ at *
  generalize b.advance t = b₂ at *
  cases b₁
  cases b₂
  simp_all only

end BarBuffer

namespace MarketView

variable {α : Type}

theorem advance_advance (v : MarketView α) {s t : Int} (hst : s ≤ t) :
    (v.advance s).advance t = v.advance t := by
  unfold advance
  simp only [List.map_map]
  congr 1
  exact List.map_congr_left fun b _ => b.advance_advance hst

/-- The rates once the first `n` bars of the traded history have come, one after the other. -/
def after (v : MarketView α) (n : Nat) : MarketView α :=
  (v.primary.toList.take n).foldl (fun v bar => v.advance bar.time) v

theorem after_succ {v : MarketView α} {n : Nat} {bar : Bar α} (h : v.primary.bar? n = some bar) :
    v.after (n + 1) = (v.after n).advance bar.time := by
  have next : v.primary.toList.take (n + 1) = v.primary.toList.take n ++ [bar] := by
    rw [List.take_add_one, Array.getElem?_toList]
    exact congrArg (fun o => v.primary.toList.take n ++ Option.toList o) h
  unfold after
  rw [next, List.foldl_append]
  rfl

/-- Where times increase, the rates are those of the last bar's time. -/
theorem after_of_increasing {v : MarketView α} (increasing : v.primary.Increasing) {n : Nat}
    {bar : Bar α} (h : v.primary.bar? n = some bar) : v.after (n + 1) = v.advance bar.time := by
  induction n generalizing bar with
  | zero => exact after_succ h
  | succ n ih =>
    have inside : n < v.primary.size := Nat.lt_of_succ_lt (Array.getElem?_eq_some_iff.mp h).1
    have hprev : v.primary.bar? n = some v.primary[n] := Array.getElem?_eq_getElem inside
    have earlier := increasing.time_lt hprev h (Nat.lt_succ_self n)
    rw [after_succ h, ih hprev, advance_advance v (Int.le_of_lt earlier)]

end MarketView

theorem EngineHost.start_fault {α σ : Type} {h : EngineHost α σ} {e : Engine α σ} {r : EngineStart}
    {f : Fault α} (hf : (h.start e r).2 = some f) :
    f = .duplicateInstance r.instanceId ∨ ∃ code, f = .initFailed r.instanceId code := by
  unfold start at hf
  split at hf
  next => exact .inl (Option.some.inj hf).symm
  next =>
    dsimp only at hf
    split at hf
    next => cases hf
    next => exact .inr ⟨_, (Option.some.inj hf).symm⟩

namespace InstanceRun

section Due

variable {α : Type} (c : RunScope α) (v : MarketView α)

/-- Whether a bar is one for the engine: it lies in the window, and every buffer is warm by then. -/
def isDueBar (i : Nat) : Bool :=
  (v.primary.timeAt? i).any c.admitsTime && (v.after (i + 1)).isWarm

/-- The bars for the engine among the first `n`. -/
def dueBars (n : Nat) : List Nat := (List.range n).filter (isDueBar c v)

theorem dueBars_succ (n : Nat) :
    dueBars c v (n + 1) = dueBars c v n ++ if isDueBar c v n then [n] else [] := by
  unfold dueBars
  rw [List.range_succ, List.filter_append]
  cases h : isDueBar c v n with
  | true => rw [List.filter_cons_of_pos h, List.filter_nil, if_pos rfl]
  | false => rw [List.filter_cons_of_neg (by simp [h]), List.filter_nil, if_neg Bool.false_ne_true]

/-- Where times increase, a bar is one for the engine if its time lies in the window and every buffer is
warm at that time. -/
theorem isDueBar_eq (increasing : v.primary.Increasing) {i : Nat} {bar : Bar α}
    (h : v.primary.bar? i = some bar) :
    isDueBar c v i = (c.admitsTime bar.time && (v.advance bar.time).isWarm) := by
  have time : v.primary.timeAt? i = some bar.time := congrArg (Option.map Bar.time) h
  unfold isDueBar
  rw [time, MarketView.after_of_increasing increasing h]
  rfl

end Due

variable {α σ : Type} [Arith α]

/-- The faults that end a run on a bar: the engine fails, its records cannot all be applied, or the book
no longer adds up. The first two need a bar for the engine. -/
inductive Breaks (c : RunScope α) (p : InstancePlan α σ) (book : OrderBook α) (bar : Nat) :
    Fault α → Prop
  | engine {code : Int} : isDueBar c p.rates bar = true → code ≠ EngineCode.success.toInt →
      Breaks c p book bar (.callFailed p.instanceId bar code)
  | records {f : Fault α} (before : OrderBook α) (records : List (Instruction α)) (q : Quote α) :
      isDueBar c p.rates bar = true → before.applyRecords records q = (book, some f) →
      Breaks c p book bar f
  | ledger {f : Fault α} : book.ledgerFault? = some f → Breaks c p book bar f

/-- How a run has ended that has reached a number of bars. -/
inductive Ending (c : RunScope α) (stop : StopPoint) (p : InstancePlan α σ) {τ : Type}
    (r : InstanceRun α τ) : Nat → Prop
  | refused {f : Fault α} : r.state = .aborted → r.failure = some f.message →
      (f = .duplicateInstance p.instanceId ∨ ∃ code, f = .initFailed p.instanceId code) →
      r.barsProcessed = 0 → Ending c stop p r 0
  | complete : r.state = .finished → r.barsProcessed = p.rates.primary.size →
      Ending c stop p r p.rates.primary.size
  | exhausted {bar : Nat} : r.state = .finished → r.book.balance ≤ 0 → r.barsProcessed = bar + 1 →
      Ending c stop p r (bar + 1)
  | stopped {boundary : Nat} : r.state = .aborted → r.failure = some stopText →
      stop.isReached boundary = true → r.barsProcessed = boundary → Ending c stop p r boundary
  | broken {bar : Nat} {f : Fault α} : r.state = .aborted → r.failure = some f.message →
      Breaks c p r.book bar f → r.barsProcessed = bar → Ending c stop p r (bar + 1)

theorem Ending.halted {c : RunScope α} {stop : StopPoint} {p : InstancePlan α σ} {τ : Type}
    {r : InstanceRun α τ} {reached : Nat} (e : Ending c stop p r reached) :
    r.state = .finished ∨ r.state = .aborted := by
  cases e with
  | refused h => exact .inr h
  | complete h => exact .inl h
  | exhausted h => exact .inl h
  | stopped h => exact .inr h
  | broken h => exact .inr h

theorem heed_fault {r : InstanceRun α σ} {q : Quote α} {answer : EngineAnswer α} {f : Fault α}
    (h : (r.heed q answer).2 = some f) :
    (∃ code, code ≠ EngineCode.success.toInt ∧ f = .callFailed r.instanceId r.cursor code) ∨
      r.book.applyRecords answer.records q = ((r.heed q answer).1.book, some f) := by
  unfold heed at h ⊢
  dsimp only at h ⊢
  split at h
  next hs =>
    rw [if_pos hs]
    exact .inr (Prod.ext rfl h)
  next hs =>
    refine .inl ⟨answer.code, ?_, (Option.some.inj h).symm⟩
    simpa [EngineAnswer.succeeded] using hs

/-- What the engine has been shown so far: the bars for it among the first `n`, each at its time. -/
structure Shown (c : RunScope α) (p : InstancePlan α σ) (shown : List (Snapshot α)) (n : Nat) :
    Prop where
  bars : shown.map Snapshot.barIndex = dueBars c p.rates n
  times : ∀ x ∈ shown, p.rates.primary.timeAt? x.barIndex = some x.time

structure Underway (c : RunScope α) (stop : StopPoint) (p : InstancePlan α σ)
    (before : List (Snapshot α)) (h : EngineHost α (σ × CallLog α σ))
    (r : InstanceRun α (σ × CallLog α σ)) : Prop where
  plan : r.plan = p.recorded
  running : r.state = .running
  live : h.engine? r.instanceId = some p.engine.recorded
  rates : r.rates = p.rates.after r.cursor
  bounded : r.cursor ≤ p.rates.primary.size
  unstopped : ∀ i < r.cursor, stop.isReached i = false
  solvent : 0 < r.cursor → ¬ r.book.balance ≤ 0
  barsProcessed : r.barsProcessed = r.cursor
  engineCalls : r.engineCalls = (dueBars c p.rates r.cursor).length
  shown : ∃ shown, CallLog.shown h.world.2 = before ++ shown ∧ Shown c p shown r.cursor

structure Ended (c : RunScope α) (stop : StopPoint) (p : InstancePlan α σ)
    (before : List (Snapshot α)) (h : EngineHost α (σ × CallLog α σ))
    (r : InstanceRun α (σ × CallLog α σ)) (reached : Nat) : Prop where
  bounded : reached ≤ p.rates.primary.size
  unstopped : ∀ i < reached, stop.isReached i = false
  ending : Ending c stop p r reached
  engineCalls : r.engineCalls = (dueBars c p.rates reached).length
  shown : ∃ shown, CallLog.shown h.world.2 = before ++ shown ∧ Shown c p shown reached

namespace Underway

variable {c : RunScope α} {stop : StopPoint} {p : InstancePlan α σ} {before : List (Snapshot α)}
  {h : EngineHost α (σ × CallLog α σ)} {r : InstanceRun α (σ × CallLog α σ)}

theorem primary (u : Underway c stop p before h r) : r.primary = p.rates.primary :=
  congrArg (fun plan => plan.rates.primary) u.plan

theorem settled_rates (u : Underway c stop p before h r) {bar : Bar α}
    (hbar : p.rates.primary.bar? r.cursor = some bar) :
    (r.settleBar bar).1.rates = p.rates.after (r.cursor + 1) := by
  rw [MarketView.after_succ hbar, ← u.rates]
  rfl

theorem isDue_eq (u : Underway c stop p before h r) {bar : Bar α}
    (hbar : p.rates.primary.bar? r.cursor = some bar) :
    (r.settleBar bar).1.isDue c bar.time = isDueBar c p.rates r.cursor := by
  have time : p.rates.primary.timeAt? r.cursor = some bar.time := congrArg (Option.map Bar.time) hbar
  unfold isDue isDueBar
  rw [u.settled_rates hbar, time]
  rfl

theorem shows_next (u : Underway c stop p before h r) {bar : Bar α}
    (hbar : p.rates.primary.bar? r.cursor = some bar) {shown : List (Snapshot α)}
    (hs : Shown c p shown r.cursor) : Shown c p (shown ++ r.shows c bar) (r.cursor + 1) := by
  have time : p.rates.primary.timeAt? r.cursor = some bar.time := congrArg (Option.map Bar.time) hbar
  unfold shows
  rw [u.isDue_eq hbar]
  refine ⟨?_, fun x hx => ?_⟩
  · rw [List.map_append, hs.bars, dueBars_succ]
    split <;> rfl
  · rcases List.mem_append.mp hx with hx | hx
    · exact hs.times x hx
    · split at hx
      next =>
        rw [List.mem_singleton.mp hx]
        exact time
      next => cases hx

theorem ask_breaks (u : Underway c stop p before h r) {bar : Bar α}
    (hbar : p.rates.primary.bar? r.cursor = some bar) {f : Fault α}
    (hf : (r.ask c h bar).2.2 = some f) : Breaks c p (r.ask c h bar).2.1.book r.cursor f := by
  have live : h.engine? (r.settleBar bar).1.instanceId = some p.engine.recorded := u.live
  have due := u.isDue_eq hbar
  have id : (r.settleBar bar).1.instanceId = p.instanceId := congrArg InstancePlan.instanceId u.plan
  unfold ask at hf ⊢
  rw [consult_eq live] at hf ⊢
  split at hf
  next hdue =>
    rw [if_pos hdue]
    rw [hdue] at due
    rcases heed_fault hf with ⟨code, hcode, rfl⟩ | records
    · rw [id]
      exact .engine due.symm hcode
    · exact .records _ _ _ due.symm records
  next => cases hf

/-- A run that has asked about its next bar and has not yet gone on. -/
structure Asked (c : RunScope α) (stop : StopPoint) (p : InstancePlan α σ)
    (before : List (Snapshot α)) (h : EngineHost α (σ × CallLog α σ))
    (r : InstanceRun α (σ × CallLog α σ)) (bar : Nat) : Prop where
  plan : r.plan = p.recorded
  running : r.state = .running
  live : h.engine? r.instanceId = some p.engine.recorded
  rates : r.rates = p.rates.after (bar + 1)
  cursor : r.cursor = bar
  barsProcessed : r.barsProcessed = bar
  engineCalls : r.engineCalls = (dueBars c p.rates (bar + 1)).length
  shown : ∃ shown, CallLog.shown h.world.2 = before ++ shown ∧ Shown c p shown (bar + 1)

theorem ask (u : Underway c stop p before h r) {bar : Bar α}
    (hbar : p.rates.primary.bar? r.cursor = some bar) :
    Asked c stop p before (r.ask c h bar).1 (r.ask c h bar).2.1 r.cursor := by
  obtain ⟨shown, log, hs⟩ := u.shown
  have isLive : h.isLive r.instanceId = true := by
    unfold EngineHost.isLive
    rw [u.live]
    rfl
  have calls : r.engineCalls + (if isDueBar c p.rates r.cursor && true then 1 else 0) =
      (dueBars c p.rates (r.cursor + 1)).length := by
    rw [dueBars_succ, List.length_append, u.engineCalls, Bool.and_true]
    split <;> rfl
  obtain ⟨book, hrun⟩ := ask_run c h r bar
  rw [u.isDue_eq hbar, isLive, calls] at hrun
  have live : (r.ask c h bar).1.engine? r.instanceId = some p.engine.recorded := by
    rw [EngineHost.engine?, ask_live]
    exact u.live
  have log' : CallLog.shown (r.ask c h bar).1.world.2 = before ++ (shown ++ r.shows c bar) := by
    rw [ask_shown u.live, log, List.append_assoc]
  rw [hrun]
  exact ⟨u.plan, u.running, live, u.settled_rates hbar, rfl, u.barsProcessed, rfl,
    shown ++ r.shows c bar, log', u.shows_next hbar hs⟩

theorem takeBar (u : Underway c stop p before h r) (free : stop.isReached r.cursor = false)
    {bar : Bar α} (hbar : p.rates.primary.bar? r.cursor = some bar) :
    (Underway c stop p before (r.takeBar c h bar).1 (r.takeBar c h bar).2.1 ∧
      (r.takeBar c h bar).2.2 = none ∧ (r.takeBar c h bar).2.1.cursor = r.cursor + 1) ∨
    Ended c stop p before (r.takeBar c h bar).1 (r.takeBar c h bar).2.1 (r.cursor + 1) := by
  have inside : r.cursor < p.rates.primary.size := (Array.getElem?_eq_some_iff.mp hbar).1
  have unstopped : ∀ i < r.cursor + 1, stop.isReached i = false := by
    intro i hi
    rcases Nat.lt_succ_iff_lt_or_eq.mp hi with hi | rfl
    · exact u.unstopped i hi
    · exact free
  have asked := u.ask hbar
  have breaks := fun f => u.ask_breaks hbar (f := f)
  have cases := takeBar_cases c h r bar
  generalize r.ask c h bar = out at asked breaks cases
  obtain ⟨h', r', fault⟩ := out
  dsimp only at asked breaks cases
  rcases cases with ⟨f, broken, heq⟩ | ⟨-, -, heq⟩
  · have breaks : Breaks c p r'.book r.cursor f := broken.elim (breaks f) .ledger
    rw [heq]
    have ending : Ending c stop p (r'.abort f).1 (r.cursor + 1) :=
      .broken rfl rfl breaks asked.barsProcessed
    exact .inr ⟨inside, unstopped, ending, asked.engineCalls, asked.shown⟩
  · have size : r'.primary.size = p.rates.primary.size :=
      congrArg (fun plan => plan.rates.primary.size) asked.plan
    have processed : r'.barsProcessed + 1 = r.cursor + 1 := congrArg (· + 1) asked.barsProcessed
    rw [heq, finishBar_eq]
    by_cases finishes : r'.book.balance ≤ 0 ∨ r'.cursor + 1 ≥ r'.primary.size
    · refine .inr ⟨inside, unstopped, ?_, asked.engineCalls, asked.shown⟩
      rcases finishes with broke | last
      · exact .exhausted (if_pos (.inl broke)) broke processed
      · rw [asked.cursor, size] at last
        have end_ : r.cursor + 1 = p.rates.primary.size := Nat.le_antisymm inside last
        rw [end_]
        exact .complete (if_pos (.inr (by rw [asked.cursor, size]; exact last))) (processed.trans end_)
    · refine .inl ⟨?_, rfl, congrArg (· + 1) asked.cursor⟩
      exact {
        plan := asked.plan
        running := (if_neg finishes).trans asked.running
        live := asked.live
        rates := by rw [asked.rates, asked.cursor]
        bounded := by rw [asked.cursor]; exact inside
        unstopped := by rw [asked.cursor]; exact unstopped
        solvent := fun _ => (not_or.mp finishes).1
        barsProcessed := by rw [asked.cursor]; exact processed
        engineCalls := by rw [asked.engineCalls, asked.cursor]
        shown := by rw [asked.cursor]; exact asked.shown }

theorem step (u : Underway c stop p before h r) :
    (Underway c stop p before (r.step c (stop.isReached r.cursor) h).1
        (r.step c (stop.isReached r.cursor) h).2.1 ∧
      (r.step c (stop.isReached r.cursor) h).2.2 = none ∧
      (r.step c (stop.isReached r.cursor) h).2.1.cursor = r.cursor + 1) ∨
    ∃ reached ≤ r.cursor + 1, Ended c stop p before (r.step c (stop.isReached r.cursor) h).1
      (r.step c (stop.isReached r.cursor) h).2.1 reached := by
  have u' : Underway c stop p before h { r with stepEvents := [] } := { u with }
  rcases step_cases c (stop.isReached r.cursor) h r with
    ⟨halted, -⟩ | ⟨-, requested, heq⟩ | ⟨-, -, hnone, heq⟩ | ⟨bar, -, free, hbar, heq⟩
  · exact absurd u.running halted
  · rw [heq]
    have ending := Ending.stopped (c := c) (p := p) (r := { r with
      stepEvents := [], state := .aborted, failure := some stopText }) rfl rfl requested u.barsProcessed
    exact .inr ⟨r.cursor, Nat.le_succ _, u.bounded, u.unstopped, ending, u.engineCalls, u.shown⟩
  · rw [u.primary] at hnone
    have all : r.cursor = p.rates.primary.size :=
      Nat.le_antisymm u.bounded (Array.getElem?_eq_none_iff.mp hnone)
    have processed := u.barsProcessed.trans all
    rw [heq]
    refine .inr ⟨r.cursor, Nat.le_succ _, u.bounded, u.unstopped, ?_, u.engineCalls, u.shown⟩
    rw [all]
    exact .complete rfl processed
  · rw [u.primary] at hbar
    rw [heq]
    rcases u'.takeBar free hbar with under | ended
    · exact .inl under
    · exact .inr ⟨r.cursor + 1, Nat.le_refl _, ended⟩

end Underway

theorem start_cases (c : RunScope α) (h : EngineHost α σ) {r : InstanceRun α σ}
    (fresh : r.state = .notStarted) :
    (r.start c h).2 = ({ r with state := .running }, none) ∨
      ∃ f, (f = .duplicateInstance r.instanceId ∨ ∃ code, f = .initFailed r.instanceId code) ∧
        (r.start c h).2 = r.abort f := by
  unfold start
  rw [if_neg (not_not_intro fresh)]
  dsimp only
  generalize hrequest : EngineStart.mk .. = request
  have hid : request.instanceId = r.instanceId := by rw [← hrequest]
  have refused := fun f => EngineHost.start_fault (h := h) (e := r.plan.engine) (r := request) (f := f)
  rw [hid] at refused
  split
  next => exact .inl rfl
  next f hstart =>
    rw [hstart] at refused
    exact .inr ⟨f, refused f rfl, rfl⟩

section Play

variable {c : RunScope α} {stop : StopPoint} {n : Nat} {h : EngineHost α σ} {r : InstanceRun α σ}

theorem play_add (halted : (r.play c stop n h).2.1.state ≠ .running) (m : Nat) :
    r.play c stop (n + m) h = r.play c stop n h := by
  unfold play at halted ⊢
  generalize r.start c h = out at halted ⊢
  obtain ⟨h₁, r₁, fault⟩ := out
  cases fault with
  | some f => rfl
  | none =>
    dsimp only at halted ⊢
    rw [steps_add]
    generalize r₁.steps c stop n h₁ = out at halted ⊢
    obtain ⟨h₂, r₂, fault⟩ := out
    cases fault with
    | some f => rfl
    | none => exact steps_eq_of_halted c stop m h₂ halted

theorem play_succ (ok : (r.play c stop n h).2.2 = none)
    (running : (r.play c stop n h).2.1.state = .running) :
    r.play c stop (n + 1) h =
      (r.play c stop n h).2.1.step c (stop.isReached (r.play c stop n h).2.1.cursor)
        (r.play c stop n h).1 := by
  unfold play at ok running ⊢
  generalize r.start c h = out at ok running ⊢
  obtain ⟨h₁, r₁, fault⟩ := out
  cases fault with
  | some f => cases ok
  | none =>
    dsimp only at ok running ⊢
    rw [steps_add]
    generalize r₁.steps c stop n h₁ = out at ok running ⊢
    obtain ⟨h₂, r₂, fault⟩ := out
    cases fault with
    | some f => cases ok
    | none =>
      dsimp only at running ⊢
      rw [steps_succ c stop 0 h₂ running]
      generalize r₂.step c (stop.isReached r₂.cursor) h₂ = out
      obtain ⟨h₃, r₃, fault⟩ := out
      cases fault <;> rfl

end Play

section Schedule

variable {c : RunScope α} {stop : StopPoint} {p : InstancePlan α σ}
  {h : EngineHost α (σ × CallLog α σ)}

theorem start_schedule :
    let started := (ofPlan c p.recorded).start c h
    (Underway c stop p (CallLog.shown h.world.2) started.1 started.2.1 ∧ started.2.2 = none ∧
      started.2.1.cursor = 0) ∨
    Ended c stop p (CallLog.shown h.world.2) started.1 started.2.1 0 := by
  have shown : ∃ shown, CallLog.shown ((ofPlan c p.recorded).start c h).1.world.2 =
      CallLog.shown h.world.2 ++ shown ∧ Shown c p shown 0 :=
    ⟨[], by rw [start_shown, List.append_nil], rfl, fun x hx => absurd hx List.not_mem_nil⟩
  have live := start_engine? (c := c) (h := h) (r := ofPlan c p.recorded) rfl
  have cases := start_cases c h (r := ofPlan c p.recorded) rfl
  generalize (ofPlan c p.recorded).start c h = out at shown live cases ⊢
  obtain ⟨h', r', fault⟩ := out
  intro started
  rcases cases with heq | ⟨f, refused, heq⟩
  · cases heq
    refine .inl ⟨?_, rfl, rfl⟩
    exact ⟨rfl, rfl, live rfl, rfl, Nat.zero_le _, fun i hi => absurd hi (Nat.not_lt_zero i),
      fun taken => absurd taken (Nat.lt_irrefl 0), rfl, rfl, shown⟩
  · cases heq
    exact .inr ⟨Nat.zero_le _, fun i hi => absurd hi (Nat.not_lt_zero i),
      .refused rfl rfl refused rfl, rfl, shown⟩

/-- A run under way after `n` steps has taken one bar with each of them. -/
structure Going (c : RunScope α) (stop : StopPoint) (p : InstancePlan α σ)
    (h : EngineHost α (σ × CallLog α σ)) (n : Nat) : Prop where
  under : Underway c stop p (CallLog.shown h.world.2) ((ofPlan c p.recorded).play c stop n h).1
    ((ofPlan c p.recorded).play c stop n h).2.1
  fault : ((ofPlan c p.recorded).play c stop n h).2.2 = none
  cursor : ((ofPlan c p.recorded).play c stop n h).2.1.cursor = n

theorem play_schedule (n : Nat) :
    (∀ m ≤ n, Going c stop p h m) ∨
    ∃ reached, (∀ m < reached, Going c stop p h m) ∧
      Ended c stop p (CallLog.shown h.world.2) ((ofPlan c p.recorded).play c stop n h).1
        ((ofPlan c p.recorded).play c stop n h).2.1 reached := by
  induction n with
  | zero =>
    have played : (ofPlan c p.recorded).play c stop 0 h = (ofPlan c p.recorded).start c h := by
      unfold play
      generalize (ofPlan c p.recorded).start c h = out
      obtain ⟨h', r', fault⟩ := out
      cases fault <;> rfl
    rcases @start_schedule _ _ _ c stop p h with ⟨under, ok, cursor⟩ | ended
    · refine .inl fun m hm => ?_
      rw [Nat.le_zero.mp hm]
      exact ⟨played ▸ under, played ▸ ok, played ▸ cursor⟩
    · exact .inr ⟨0, fun m hm => absurd hm (Nat.not_lt_zero m), played ▸ ended⟩
  | succ n ih =>
    rcases ih with going | ⟨reached, going, ended⟩
    · have last := going n (Nat.le_refl n)
      have next := play_succ last.fault last.under.running
      have stepped := last.under.step
      rw [← next, last.cursor] at stepped
      rcases stepped with ⟨under, ok, cursor⟩ | ⟨reached, hle, ended⟩
      · refine .inl fun m hm => ?_
        rcases Nat.le_succ_iff.mp hm with hm | rfl
        · exact going m hm
        · exact ⟨under, ok, cursor⟩
      · exact .inr ⟨reached, fun m hm => going m (by omega), ended⟩
    · have halted : ((ofPlan c p.recorded).play c stop n h).2.1.state ≠ .running := by
        intro running
        rcases ended.ending.halted with finished | aborted
        · cases running.symm.trans finished
        · cases running.symm.trans aborted
      rw [play_add halted 1]
      exact .inr ⟨reached, going, ended⟩

theorem call_of_halted {r : InstanceRun α σ} (halted : r.state = .finished ∨ r.state = .aborted)
    (c : RunScope α) (stopped : Bool) (h : EngineHost α σ) :
    r.start c h = (h, r, none) ∧ r.step c stopped h = (h, { r with stepEvents := [] }, none) := by
  have fresh : r.state ≠ .notStarted := by
    rcases halted with heq | heq <;> simp [heq]
  have running : r.state ≠ .running := by
    rcases halted with heq | heq <;> simp [heq]
  refine ⟨if_pos fresh, ?_⟩
  rcases step_cases c stopped h r with ⟨-, heq⟩ | ⟨hr, -⟩ | ⟨hr, -⟩ | ⟨bar, hr, -⟩
  · exact heq
  all_goals exact absurd hr running

end Schedule

/-- The schedule of a run. It comes to an end within one step more than it has bars. Up to the end it has
reached the bars from the first one on, one with each step, and has asked its engine on those of them that
are bars for it, once on each and in their order; where times increase, these are the bars whose time lies in
the window, and by which every buffer is warm. An ended run stays as it is, and asks for nothing. -/
theorem run_schedule (c : RunScope α) (stop : StopPoint) (p : InstancePlan α σ)
    (h : EngineHost α (σ × CallLog α σ)) :
    let played := fun n => (ofPlan c p.recorded).play c stop n h
    let last := played (p.rates.primary.size + 1)
    (ofPlan c p.recorded).run c stop h = (last.1.release p.instanceId, last.2) ∧
    (∀ n, p.rates.primary.size < n → played n = last) ∧
    (∃ reached shown, reached ≤ p.rates.primary.size ∧
      CallLog.shown last.1.world.2 = CallLog.shown h.world.2 ++ shown ∧
      shown.map Snapshot.barIndex = dueBars c p.rates reached ∧
      (∀ x ∈ shown, p.rates.primary.timeAt? x.barIndex = some x.time) ∧
      last.2.1.engineCalls = shown.length ∧
      (∀ n < reached, (played n).2.1.state = .running ∧ (played n).2.1.cursor = n ∧
        stop.isReached n = false ∧ (0 < n → ¬ (played n).2.1.book.balance ≤ 0)) ∧
      Ending c stop p last.2.1 reached) ∧
    (p.rates.primary.Increasing → ∀ i bar, p.rates.primary.bar? i = some bar →
      isDueBar c p.rates i = (c.admitsTime bar.time && (p.rates.advance bar.time).isWarm)) ∧
    ∀ r : InstanceRun α (σ × CallLog α σ), r.state = .finished ∨ r.state = .aborted →
      ∀ (stopped : Bool) (host : EngineHost α (σ × CallLog α σ)),
        r.start c host = (host, r, none) ∧
        ∃ r', r.step c stopped host = (host, r', none) ∧ r'.state = r.state ∧
          r'.book = r.book ∧ r'.statistics = r.statistics ∧ r'.result = r.result := by
  intro played last
  have schedule := @play_schedule _ _ _ c stop p h (p.rates.primary.size + 1)
  obtain ⟨reached, going, ended⟩ := schedule.resolve_left fun going => by
    have beyond := going _ (Nat.le_refl _)
    have bounded := beyond.under.bounded
    rw [beyond.cursor] at bounded
    exact absurd bounded (Nat.not_succ_le_self _)
  have halted : last.2.1.state ≠ .running := by
    intro running
    rcases ended.ending.halted with finished | aborted
    · cases running.symm.trans finished
    · cases running.symm.trans aborted
  refine ⟨?_, fun n hn => ?_, ?_, fun increasing i bar => isDueBar_eq c p.rates increasing,
    fun r hr stopped host => ?_⟩
  · have plan : last.2.1.plan = p.recorded :=
      play_induction (P := fun _ r => r.plan = p.recorded) (start_plan c h _)
        (fun h r hr _ => (step_plan c _ h r).trans hr) _
    have id : last.2.1.instanceId = p.instanceId := congrArg InstancePlan.instanceId plan
    rw [run_eq_play, ← id]
    rfl
  · obtain ⟨m, rfl⟩ := Nat.exists_eq_add_of_le hn
    exact play_add halted m
  · obtain ⟨shown, log, bars, times⟩ := ended.shown
    refine ⟨reached, shown, ended.bounded, log, bars, times, ?_, fun n hn => ?_, ended.ending⟩
    · rw [ended.engineCalls, ← bars, List.length_map]
    · have g := going n hn
      refine ⟨g.under.running, g.cursor, ended.unstopped n hn, fun hpos => ?_⟩
      exact g.under.solvent (by rw [g.cursor]; exact hpos)
  · obtain ⟨started, stepped⟩ := call_of_halted hr c stopped host
    exact ⟨started, _, stepped, rfl, rfl, rfl, rfl⟩

section Sample

/-- A gain and a loss of more money than the balance can hold beside its own amount, both settled on the
second of four bars, which lies outside the window. -/
def vastTrades : InstancePlan Float (ScriptLog Float) :=
  { samplePlan [(0, .place .buy 1152921504606846976 0 0 1),
      (0, .place .sell 1152921504606846976 0 1 0)] with
    settings := SlotVector.put (Vector.replicate slotCount 0) Slot.orderLimit 2
    account := { Account.standard with contractSize := 1, minLot := 1 }
    rates := ⟨"EURUSD", none, "USD",
      #[sampleBar 0 1 1, sampleBar 60 2 2, sampleBar 120 2 2, sampleBar 180 2 2], [], []⟩ }

def narrowScope : RunScope Float := { sampleScope with toTime := some 60 }

def playVastTrades : EngineHost Float (ScriptLog Float × CallLog Float (ScriptLog Float)) ×
    InstanceRun Float (ScriptLog Float × CallLog Float (ScriptLog Float)) × Option (Fault Float) :=
  (ofPlan narrowScope vastTrades.recorded).play narrowScope none
    (vastTrades.rates.primary.size + 1) (.empty (Script.log 0, []) 0)

/-- A run that nothing stops, on a bar without a call and with money left, ends because its book does not
add up. -/
theorem vastTrades_break :
    playVastTrades.2.1.state = .aborted ∧ playVastTrades.2.1.barsProcessed = 1 ∧
      vastTrades.rates.primary.size = 4 ∧ 0 < playVastTrades.2.1.book.balance ∧
      (CallLog.shown playVastTrades.1.world.2).map Snapshot.barIndex = [0] ∧
      playVastTrades.2.1.book.ledgerFault?.isSome = true := by
  decide +kernel

theorem vastTrades_schedule :
    (ofPlan narrowScope vastTrades.recorded).play narrowScope none 100
        (.empty (Script.log 0, []) 0) = playVastTrades ∧
      dueBars narrowScope vastTrades.rates 4 = [0] ∧
      ∃ reached, Ending narrowScope none vastTrades playVastTrades.2.1 reached := by
  have schedule := run_schedule narrowScope none vastTrades (.empty (Script.log 0, []) 0)
  dsimp only at schedule
  obtain ⟨-, stays, ⟨reached, shown, -, -, -, -, -, -, ending⟩, -⟩ := schedule
  have due : dueBars narrowScope vastTrades.rates 4 = [0] := by decide +kernel
  have later : vastTrades.rates.primary.size < 100 := by decide +kernel
  unfold playVastTrades
  exact ⟨stays 100 later, due, reached, ending⟩

end Sample

end InstanceRun
end Backtest
