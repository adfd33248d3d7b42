import Backtest.Proofs.Instance.Calls
import Backtest.Proofs.OrderBook.Emission

namespace Backtest

section Closes

variable {α : Type}

theorem closesOf_append (events more : List (TradeEvent α)) :
    closesOf (events ++ more) = closesOf events ++ closesOf more := by
  unfold closesOf
  rw [List.filter_append, List.map_append]

theorem closesOf_eq_nil {events : List (TradeEvent α)} (h : ∀ e ∈ events, e.event.isClose = false) :
    closesOf events = [] := by
  unfold closesOf
  rw [List.filter_eq_nil_iff.mpr fun e he => by simp [h e he], List.map_nil]

end Closes

namespace InstanceRun

variable {α σ : Type} [Arith α]

/-- A snapshot of an account that had money before its bar, as a history of events explains it: the
earlier events leave a balance above zero, and what else the snapshot's balance counts was settled on the
bar itself. -/
def Explains (c : RunScope α) (events : List (TradeEvent α)) (x : Snapshot α) : Prop :=
  ∃ earlier settled later, events = earlier ++ settled ++ later ∧
    ¬ balanceAfter c.initialBalance (closesOf earlier) ≤ 0 ∧
    x.account.balance = balanceAfter c.initialBalance (closesOf (earlier ++ settled)) ∧
    (∀ e ∈ settled, e.time = x.time ∧ e.event.isSettlement = true) ∧
    (x.account.balance ≤ 0 → ∃ e ∈ settled, e.event = .stopLoss ∨ e.event = .takeProfit)

theorem Explains.mono {c : RunScope α} {events more : List (TradeEvent α)} {x : Snapshot α}
    (h : Explains c events x) (hle : events <+: more) : Explains c more x := by
  obtain ⟨earlier, settled, later, heq, solvent, balance, kinds, exhausted⟩ := h
  obtain ⟨rest, rfl⟩ := hle
  refine ⟨earlier, settled, later ++ rest, ?_, solvent, balance, kinds, exhausted⟩
  rw [heq, List.append_assoc]

theorem balance_of_changes {c : RunScope α} {p : InstancePlan α σ} {b : OrderBook α}
    (changes : OrderBook.Changes (emptyBook c p) b) :
    b.balance = balanceAfter c.initialBalance (closesOf b.events.toList) := by
  have booked := changes.booked (OrderBook.empty_booked ..)
  have initial : b.initialBalance = c.initialBalance := changes.sameTerms.initialBalance
  rw [booked.closes, booked.balance, initial]

theorem ask_changes {c : RunScope α} {h : EngineHost α σ} {r : InstanceRun α σ}
    (ascends : r.book.Ascends) (bar : Bar α) :
    OrderBook.Changes r.book (r.settleBar bar).1.book ∧
      OrderBook.Changes (r.settleBar bar).1.book (r.ask c h bar).2.1.book := by
  have settled := r.settleBar_changes ascends bar
  obtain ⟨calls, book, hrun, changes, -⟩ :=
    consult_spec c h (settled.ascends ascends) (r.settleBar bar).2 bar
  refine ⟨settled, ?_⟩
  unfold ask
  rw [hrun]
  exact changes

theorem takeBar_changes {c : RunScope α} {h : EngineHost α σ} {r : InstanceRun α σ}
    (ascends : r.book.Ascends) (bar : Bar α) :
    OrderBook.Changes r.book (r.takeBar c h bar).2.1.book := by
  obtain ⟨settled, answered⟩ := ask_changes (c := c) (h := h) ascends bar
  rw [takeBar_book]
  exact settled.trans answered

/-- What a bar shows is explained by the events up to the call, if there was money before the bar. -/
theorem shows_explained {c : RunScope α} {r : InstanceRun α σ}
    (changes : OrderBook.Changes (emptyBook c r.plan) r.book) (solvent : ¬ r.book.balance ≤ 0)
    (bar : Bar α) {x : Snapshot α} (hx : x ∈ r.shows c bar) :
    Explains c (r.settleBar bar).1.book.events.toList x := by
  have ascends := changes.ascends (OrderBook.empty_ascends ..)
  have after := changes.trans (r.settleBar_changes ascends bar)
  obtain ⟨settled, events, kinds⟩ : OrderBook.Adds (OrderBook.SettledAt bar.time) r.book
      (r.settleBar bar).1.book := by
    rw [settleBar_book]
    exact OrderBook.settlement_adds r.book (r.settleBar bar).2
  have time : x.time = bar.time := by
    unfold shows at hx
    split at hx
    next =>
      rw [List.mem_singleton.mp hx]
      rfl
    next => cases hx
  have balance : x.account.balance = (r.settleBar bar).1.book.balance := by
    unfold shows at hx
    split at hx
    next =>
      rw [List.mem_singleton.mp hx]
      rfl
    next => cases hx
  have before := balance_of_changes changes
  rw [balance_of_changes after, events] at balance
  refine ⟨r.book.events.toList, settled, [], by rw [events, List.append_nil], before ▸ solvent,
    balance, fun e he => time ▸ kinds e he, fun exhausted => ?_⟩
  -- without a close the balance would be what it was before the bar
  by_contra none_closes
  have open_ : closesOf settled = [] := by
    apply closesOf_eq_nil
    intro e he
    have kind := (kinds e he).2
    have exits := not_exists.mp none_closes e
    cases hk : e.event with
    | stopLoss => exact absurd ⟨he, .inl hk⟩ exits
    | takeProfit => exact absurd ⟨he, .inr hk⟩ exits
    | closed =>
      rw [hk] at kind
      cases kind
    | opened | filled | modified | cancelled => rfl
  rw [balance, closesOf_append, open_, List.append_nil, ← before] at exhausted
  exact solvent exhausted

/-- A run whose calls so far are explained by its events, and which has money if it goes on. -/
structure Solvent (c : RunScope α) (p : InstancePlan α σ) (before : List (Snapshot α))
    (h : EngineHost α (σ × CallLog α σ)) (r : InstanceRun α (σ × CallLog α σ)) : Prop where
  plan : r.plan = p.recorded
  changes : OrderBook.Changes (emptyBook c p.recorded) r.book
  live : r.state = .running → h.engine? r.instanceId = some p.engine.recorded
  solvent : r.state = .running → ¬ r.book.balance ≤ 0
  shown : ∃ shown, CallLog.shown h.world.2 = before ++ shown ∧
    ∀ x ∈ shown, Explains c r.book.events.toList x

namespace Solvent

variable {c : RunScope α} {p : InstancePlan α σ} {before : List (Snapshot α)}
  {h : EngineHost α (σ × CallLog α σ)} {r : InstanceRun α (σ × CallLog α σ)}

theorem start (funded : ¬ c.initialBalance ≤ 0) (h : EngineHost α (σ × CallLog α σ)) :
    Solvent c p (CallLog.shown h.world.2) ((ofPlan c p.recorded).start c h).1
      ((ofPlan c p.recorded).start c h).2.1 := by
  obtain ⟨state, failure, hrun⟩ := start_run c h (ofPlan c p.recorded)
  have live := start_engine? (c := c) (h := h) (r := ofPlan c p.recorded) rfl
  have shown := start_shown c h p
  rw [hrun] at live ⊢
  exact ⟨rfl, .refl, live, fun _ => funded, [], by rw [shown, List.append_nil],
    fun x hx => absurd hx List.not_mem_nil⟩

theorem takeBar (s : Solvent c p before h r) (running : r.state = .running) (bar : Bar α) :
    Solvent c p before (r.takeBar c h bar).1 (r.takeBar c h bar).2.1 := by
  have changes : OrderBook.Changes (emptyBook c r.plan) r.book := s.plan ▸ s.changes
  have ascends := changes.ascends (OrderBook.empty_ascends ..)
  obtain ⟨settled, answered⟩ := ask_changes (c := c) (h := h) ascends bar
  have live := s.live running
  obtain ⟨shown, log, explained⟩ := s.shown
  refine ⟨(takeBar_plan c h r bar).trans s.plan, ?_, ?_, ?_, shown ++ r.shows c bar, ?_, ?_⟩
  · rw [takeBar_book]
    exact (s.changes.trans settled).trans answered
  · intro _
    rw [takeBar_engine?]
    exact live
  · intro goes_on
    rcases takeBar_cases c h r bar with ⟨f, -, heq⟩ | ⟨-, -, heq⟩
    · rw [heq] at goes_on
      cases goes_on
    · rw [heq, finishBar_eq] at goes_on ⊢
      dsimp only at goes_on ⊢
      split at goes_on
      next => cases goes_on
      next left => exact (not_or.mp left).1
  · rw [takeBar_host, ask_shown live, log, List.append_assoc]
  · intro x hx
    rw [takeBar_book]
    rcases List.mem_append.mp hx with hx | hx
    · exact (explained x hx).mono (OrderBook.Changes.events_prefix (settled.trans answered))
    · exact (shows_explained changes (s.solvent running) bar hx).mono answered.events_prefix

theorem step (s : Solvent c p before h r) (stopped : Bool) :
    Solvent c p before (r.step c stopped h).1 (r.step c stopped h).2.1 := by
  have s' : Solvent c p before h { r with stepEvents := [] } :=
    ⟨s.plan, s.changes, s.live, s.solvent, s.shown⟩
  rcases step_cases c stopped h r with
    ⟨-, heq⟩ | ⟨-, -, heq⟩ | ⟨-, -, -, heq⟩ | ⟨bar, running, -, -, heq⟩
  · rw [heq]
    exact s'
  · rw [heq]
    exact { s with live := nofun, solvent := nofun }
  · rw [heq]
    exact { s with live := nofun, solvent := nofun }
  · rw [heq]
    exact s'.takeBar running bar

end Solvent

/-- A run that starts with money goes on only with money, and its engine is asked about an account without
any only on the bar on which a stop or a target has used the account up. -/
theorem play_solvent {c : RunScope α} (funded : ¬ c.initialBalance ≤ 0) (p : InstancePlan α σ)
    (stop : StopPoint) (h : EngineHost α (σ × CallLog α σ)) (n : Nat) :
    let played := (ofPlan c p.recorded).play c stop n h
    (played.2.1.state = .running → ¬ played.2.1.book.balance ≤ 0) ∧
      ∃ shown, CallLog.shown played.1.world.2 = CallLog.shown h.world.2 ++ shown ∧
        ∀ x ∈ shown, Explains c played.2.1.book.events.toList x := by
  intro played
  have s : Solvent c p (CallLog.shown h.world.2) played.1 played.2.1 :=
    play_induction (P := Solvent c p (CallLog.shown h.world.2)) (Solvent.start funded h)
      (fun _ _ s _ => s.step _) n
  exact ⟨s.solvent, s.shown⟩

section Sample

/-- A sale that is too large for the account, and whose stop is passed by the jump of the prices. -/
def oversizedSale : InstancePlan Float (ScriptLog Float) :=
  samplePlan [(0, .place .sell 20 0 0.01 0)]

def playOversizedSale : EngineHost Float (ScriptLog Float × CallLog Float (ScriptLog Float)) ×
    InstanceRun Float (ScriptLog Float × CallLog Float (ScriptLog Float)) × Option (Fault Float) :=
  (ofPlan sampleScope oversizedSale.recorded).play sampleScope none 5 (.empty (Script.log 0, []) 0)

theorem oversizedSale_solvent :
    ¬ sampleScope.initialBalance ≤ 0 ∧
      ∃ shown, CallLog.shown playOversizedSale.1.world.2 = shown ∧ shown.length = 3 ∧
        ∀ x ∈ shown, Explains sampleScope playOversizedSale.2.1.book.events.toList x := by
  have funded : ¬ sampleScope.initialBalance ≤ 0 := by decide +kernel
  obtain ⟨-, shown, log, explained⟩ :=
    play_solvent funded oversizedSale none (.empty (Script.log 0, []) 0) 5
  refine ⟨funded, shown, log, ?_, explained⟩
  have three : (CallLog.shown playOversizedSale.1.world.2).length = 3 := by decide +kernel
  rwa [show CallLog.shown playOversizedSale.1.world.2 = shown from log] at three

/-- The stop uses the account up, and yet the engine is asked about the bar. -/
theorem exhausted_account_shown :
    0 < sampleScope.initialBalance ∧
      (CallLog.shown playOversizedSale.1.world.2).map
          (fun x => (x.barIndex, decide (x.account.balance ≤ 0))) =
        [(0, false), (1, false), (2, true)] := by
  decide +kernel

end Sample

end InstanceRun
end Backtest
