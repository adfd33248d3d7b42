import Backtest.Instance.Step
import Backtest.Arith.Double
import Backtest.Engine.Script
import Backtest.Proofs.OrderBook.Faults
import Backtest.Proofs.Statistics.Feed

namespace Backtest

namespace InstanceRun

variable {α σ : Type} [Arith α]

/-- The book of a run before its first bar. -/
def emptyBook (c : RunScope α) (p : InstancePlan α σ) : OrderBook α :=
  .empty p.instanceId p.account c.initialBalance p.settings.orderLimit

/-- The book has come about by changes from an empty one, and the statistics were fed all its events. -/
structure Reconciled (c : RunScope α) (r : InstanceRun α σ) : Prop where
  book : OrderBook.Changes (emptyBook c r.plan) r.book
  fed : r.statistics.SameTrades
    ((Statistics.start c.initialBalance c.statistics).addEvents r.book.events.toList)
  begun : r.statistics.Begun

theorem Reconciled.ascends {c : RunScope α} {r : InstanceRun α σ} (h : r.Reconciled c) :
    r.book.Ascends :=
  h.book.ascends (OrderBook.empty_ascends ..)

theorem ofPlan_reconciled (c : RunScope α) (p : InstancePlan α σ) :
    (ofPlan c p).Reconciled c :=
  ⟨.refl, .refl _, fun _ => rfl⟩

theorem Reconciled.feed {c : RunScope α} {r : InstanceRun α σ} (h : r.Reconciled c)
    {book : OrderBook α} (changes : OrderBook.Changes r.book book) {s : Statistics α}
    (same : s.SameTrades r.statistics) (begun : s.Begun) {r' : InstanceRun α σ}
    (hp : r'.plan = r.plan) (hb : r'.book = book)
    (hs : r'.statistics = s.addEvents (book.events.toList.drop r.book.events.size)) :
    r'.Reconciled c := by
  obtain ⟨more, hmore⟩ := changes.events_prefix
  have news : book.events.toList.drop r.book.events.size = more := by
    rw [← hmore, ← Array.length_toList]
    exact List.drop_left
  rw [news] at hs
  refine ⟨?_, ?_, ?_⟩
  · rw [hp, hb]
    exact h.book.trans changes
  · rw [hs, hb, ← hmore, Statistics.addEvents_append]
    exact (same.trans h.fed).addEvents more
  · rw [hs]
    exact begun.addEvents more

/-- The market changes the book of a bar before the engine is asked. -/
theorem settleBar_changes (r : InstanceRun α σ) (h : r.book.Ascends) (bar : Bar α) :
    OrderBook.Changes r.book (r.settleBar bar).1.book := by
  have entries := OrderBook.settleEntries_changes h (r.settleBar bar).2
  have exits := OrderBook.settleExits_changes (entries.ascends h) (r.settleBar bar).2
  exact (entries.trans exits).trans (OrderBook.bookSwap_changes _ bar.time)

theorem Reconciled.settleBar {c : RunScope α} {r : InstanceRun α σ} (h : r.Reconciled c)
    (bar : Bar α) : (r.settleBar bar).1.Reconciled c :=
  h.feed (r.settleBar_changes h.ascends bar) (r.statistics.noteTime_sameTrades bar.time)
    (r.statistics.noteTime_begun bar.time) rfl rfl rfl

/-- What asking the engine can do to a run: it counts the call and changes the book. A fault that leaves
the book changed is fatal. -/
theorem consult_spec (c : RunScope α) (h : EngineHost α σ) {r : InstanceRun α σ}
    (ha : r.book.Ascends) (q : Quote α) (bar : Bar α) :
    ∃ calls book, (r.consult c h q bar).2.1 = { r with engineCalls := calls, book := book } ∧
      OrderBook.Changes r.book book ∧
      ∀ f, (r.consult c h q bar).2.2 = some f → f.isFatal = true ∨ book = r.book := by
  unfold consult
  split
  next =>
    split
    next => exact ⟨r.engineCalls, r.book, rfl, .refl, fun _ _ => .inr rfl⟩
    next h' answer _ =>
      dsimp only
      split
      next =>
        refine ⟨r.engineCalls + 1, (r.book.applyRecords answer.records q).1, rfl,
          OrderBook.applyRecords_changes ha answer.records q, ?_⟩
        exact fun f hf => .inl ((OrderBook.actAll_handedOn ha hf).isFatal)
      next => exact ⟨r.engineCalls + 1, r.book, rfl, .refl, fun _ _ => .inr rfl⟩
  next => exact ⟨r.engineCalls, r.book, rfl, .refl, fun _ _ => .inr rfl⟩

theorem abort_snd_eq_none {r : InstanceRun α σ} {f : Fault α} (h : (r.abort f).2 = none) :
    f.isFatal = false := by
  unfold abort at h
  dsimp only at h
  split at h
  next => cases h
  next hf => simpa using hf

theorem Reconciled.abort {c : RunScope α} {r : InstanceRun α σ} (h : r.Reconciled c) (f : Fault α) :
    (r.abort f).1.Reconciled c :=
  ⟨h.book, h.fed, h.begun⟩

/-- The end of a bar feeds what the engine's answer added to the settled book. -/
theorem Reconciled.finishBar {c : RunScope α} {r : InstanceRun α σ} (h : r.Reconciled c)
    {book : OrderBook α} (changes : OrderBook.Changes r.book book) (calls before : Nat) :
    (finishBar { r with engineCalls := calls, book := book } before
      r.book.events.size).Reconciled c := by
  unfold InstanceRun.finishBar
  dsimp only
  split
  all_goals exact h.feed changes (.refl r.statistics) h.begun rfl rfl rfl

theorem Reconciled.takeBar {c : RunScope α} {r : InstanceRun α σ} (h : r.Reconciled c)
    {host : EngineHost α σ} {bar : Bar α} (ok : (r.takeBar c host bar).2.2 = none) :
    (r.takeBar c host bar).2.1.Reconciled c := by
  have settled := h.settleBar bar
  obtain ⟨calls, book, hr, changes, hfault⟩ :=
    consult_spec c host settled.ascends (r.settleBar bar).2 bar
  revert ok
  unfold InstanceRun.takeBar
  dsimp only
  generalize (r.settleBar bar).1.consult c host (r.settleBar bar).2 bar = out at hr hfault ⊢
  obtain ⟨host', r', fault⟩ := out
  dsimp only at hr hfault
  subst hr
  cases fault with
  | some f =>
    intro ok
    have kept : book = (r.settleBar bar).1.book := by
      rcases hfault f rfl with fatal | kept
      · exact absurd (abort_snd_eq_none ok) (by simp [fatal])
      · exact kept
    subst kept
    exact ⟨settled.book, settled.fed, settled.begun⟩
  | none =>
    dsimp only
    split
    next f hf =>
      intro ok
      exact absurd (abort_snd_eq_none ok) (by simp [Fault.isFatal_of_invariant (OrderBook.ledgerFault?_category hf)])
    next =>
      intro _
      exact settled.finishBar changes calls _

theorem Reconciled.step {c : RunScope α} {r : InstanceRun α σ} (h : r.Reconciled c) {stopped : Bool}
    {host : EngineHost α σ} (ok : (r.step c stopped host).2.2 = none) :
    (r.step c stopped host).2.1.Reconciled c := by
  have h' : ({ r with stepEvents := [] } : InstanceRun α σ).Reconciled c := ⟨h.book, h.fed, h.begun⟩
  revert ok
  unfold InstanceRun.step
  dsimp only
  split
  next => exact fun _ => h'
  next =>
    split
    next => exact fun _ => ⟨h.book, h.fed, h.begun⟩
    next =>
      split
      next => exact fun _ => ⟨h.book, h.fed, h.begun⟩
      next bar _ => exact fun ok => h'.takeBar ok

theorem Reconciled.start {c : RunScope α} {r : InstanceRun α σ} (h : r.Reconciled c)
    (host : EngineHost α σ) : (r.start c host).2.1.Reconciled c := by
  unfold InstanceRun.start
  split
  next => exact h
  next =>
    dsimp only
    split
    next => exact ⟨h.book, h.fed, h.begun⟩
    next => exact h.abort _

/-- The runs that calls of start and step lead to, as long as none of them hands on a fault. At each call
the host may have been changed in any way. -/
inductive Reached (c : RunScope α) (p : InstancePlan α σ) : InstanceRun α σ → Prop
  | fresh : Reached c p (ofPlan c p)
  | start {r : InstanceRun α σ} (host : EngineHost α σ) : Reached c p r →
      (r.start c host).2.2 = none → Reached c p (r.start c host).2.1
  | step {r : InstanceRun α σ} (stopped : Bool) (host : EngineHost α σ) : Reached c p r →
      (r.step c stopped host).2.2 = none → Reached c p (r.step c stopped host).2.1

theorem Reached.reconciled {c : RunScope α} {p : InstancePlan α σ} {r : InstanceRun α σ}
    (reach : Reached c p r) : r.Reconciled c := by
  induction reach with
  | fresh => exact ofPlan_reconciled c p
  | start host _ _ ih => exact ih.start host
  | step stopped host _ ok ih => exact ih.step ok

theorem Reached.steps {c : RunScope α} {p : InstancePlan α σ} {r : InstanceRun α σ}
    (reach : Reached c p r) {stop : StopPoint} {n : Nat} {host : EngineHost α σ}
    (ok : (r.steps c stop n host).2.2 = none) : Reached c p (r.steps c stop n host).2.1 := by
  induction n generalizing r host with
  | zero => exact reach
  | succ n ih =>
    revert ok
    unfold InstanceRun.steps
    split
    next => exact fun _ => reach
    next =>
      have stepped := reach.step (stop.isReached r.cursor) host
      generalize r.step c (stop.isReached r.cursor) host = out at stepped
      obtain ⟨host', r', fault⟩ := out
      cases fault with
      | some f => exact fun ok => by cases ok
      | none => exact fun ok => ih (stepped rfl) ok

/-- As long as no call hands on a fault, the balances of the book, of the statistics and of the trade list
are one number, and the statistics hold each close of the book once and in order. -/
theorem Reached.ledgers_agree {c : RunScope α} {p : InstancePlan α σ} {r : InstanceRun α σ}
    (reach : Reached c p r) (symbol : String) :
    let closed := r.book.closedOrders.toList
    let rows := TradeRow.ofOrders symbol c.initialBalance closed
    r.statistics.balance = r.book.balance ∧
    (rows.getLast?.map TradeRow.balance).getD c.initialBalance = r.book.balance ∧
    r.statistics.trades =
      ((Statistics.start c.initialBalance c.statistics).addEvents r.book.events.toList).trades ∧
    r.statistics.curve.tail.dropLast =
      List.zipWith (fun o row => ⟨o.closeTime, row.balance⟩) closed rows ∧
    r.result.finalBalance = r.book.balance := by
  intro closed rows
  have h := reach.reconciled
  have booked := h.book.booked (OrderBook.empty_booked ..)
  have initial : r.book.initialBalance = c.initialBalance := h.book.sameTerms.initialBalance
  have balance : r.book.balance = balanceAfter c.initialBalance (closed.map Order.close) :=
    initial ▸ booked.balance
  have counted : r.statistics.balance = r.book.balance := by
    rw [h.fed.balance, Statistics.addEvents_balance, booked.closes, balance]
    rfl
  refine ⟨counted, ?_, h.fed.trades, ?_, counted⟩
  · rw [TradeRow.ofOrders_last, balance]
  · rw [h.begun.curve_inner, h.fed.trades, Statistics.addEvents_points, booked.closes,
      TradeRow.ofOrders_points]
    rfl

section Sample

def sampleScope : RunScope Float := .start 10000 "USD" 1

def samplePrices : Series Float :=
  #[1.1, 1.1, 1.15, 1.15].zipIdx.map fun (price, n) => ⟨n * 60, price, price, price, price, 0, 0, 0⟩

def samplePlan (actions : List (Nat × ScriptEntry Float)) : InstancePlan Float (ScriptLog Float) where
  instanceId := 1
  engine := (Script.mk 0 actions).engine
  engineConfig := ""
  settings := Vector.replicate slotCount 0
  account := .standard
  rates := ⟨"EURUSD", none, "USD", samplePrices, [], []⟩

def sampleRun (p : InstancePlan Float (ScriptLog Float)) :
    EngineHost Float (ScriptLog Float) × InstanceRun Float (ScriptLog Float) × Option (Fault Float) :=
  let (host, r, _) := (ofPlan sampleScope p).start sampleScope (.empty (Script.log 0) 0)
  r.steps sampleScope none 3 host

/-- A sale whose stop is passed by the jump, on the bar on which the engine fails. -/
def failingSale : InstancePlan Float (ScriptLog Float) :=
  samplePlan [(0, .place .sell 1 0 0.01 0), (2, .fail 3017)]

/-- A purchase that is closed together with an order that is not there. -/
def misnamedClose : InstancePlan Float (ScriptLog Float) :=
  samplePlan [(0, .marketBuy 1), (2, .closeAll .buy), (2, .close .sell 42)]

theorem failingSale_ledgers_agree :
    let r := (sampleRun failingSale).2.1
    Reached sampleScope failingSale r ∧ r.state = .aborted ∧ r.book.closedOrders.size = 1 ∧
      r.book.balance ≠ 10000 ∧ r.result.finalBalance = r.book.balance := by
  have started := Reached.fresh.start (c := sampleScope) (p := failingSale)
    (.empty (Script.log 0) 0) (Option.isNone_iff_eq_none.mp (by decide +kernel))
  have reach : Reached sampleScope failingSale (sampleRun failingSale).2.1 :=
    started.steps (Option.isNone_iff_eq_none.mp (by decide +kernel))
  have agree := reach.ledgers_agree "EURUSD"
  exact ⟨reach, by decide +kernel, by decide +kernel, by decide +kernel, agree.2.2.2.2⟩

/-- A call after one that handed on a fault finds the close in the book and not in the statistics. -/
theorem ledgers_differ_after_fault :
    let (host, r, fault) := sampleRun misnamedClose
    let (_, called, fault') := r.step sampleScope false host
    fault.isSome ∧ fault'.isNone ∧ called.state = .aborted ∧
      called.statistics.balance = 10000 ∧ called.book.balance ≠ 10000 := by
  decide +kernel

end Sample

end InstanceRun
end Backtest
