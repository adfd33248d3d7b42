import Backtest.Proofs.Engine.AverageCross
import Backtest.Proofs.Instance.Exhaustion

namespace Backtest

open AverageCross (Started closes?)

/-- A plan for the strategy on two averages, with settings that it takes, a result that can be laid out, and
lots that can be dealt. -/
structure InstancePlan.Crosses {σ : Type} (p : InstancePlan Float σ) (cross : AverageCross Float) :
    Prop where
  engine : ∃ (part : σ → Started) (put : σ → Started → σ),
    p.engine = AverageCross.engine.focus part put
  accepted : AverageCross.ofSettings? p.settings = some cross
  sized : AverageCross.Sized p.settings
  lotted : 0 < roundLots cross.lots p.account.minLot
  increasing : p.rates.primary.Increasing

namespace InstanceRun

variable {σ : Type} {c : RunScope Float} {p : InstancePlan Float σ} {cross : AverageCross Float}
  {h : EngineHost Float (σ × CallLog Float σ)} {r : InstanceRun Float (σ × CallLog Float σ)}

/-- A book that is bare once the engine was asked is bare on the bars that follow. -/
theorem takeBar_bare {τ : Type} {h : EngineHost Float τ} {r : InstanceRun Float τ} {s : Series Float}
    (increasing : s.Increasing) {bar : Bar Float} (hbar : s.bar? r.cursor = some bar)
    (bare : (r.ask c h bar).2.1.book.Bare bar.time) (i : Nat) (later : Bar Float)
    (hi : (r.takeBar c h bar).2.1.cursor ≤ i) (hlater : s.bar? i = some later) :
    (r.takeBar c h bar).2.1.book.Bare later.time := by
  rw [takeBar_book]
  apply bare.mono
  rcases Nat.eq_or_lt_of_le ((le_takeBar_cursor c h r bar).trans hi) with rfl | past
  · rw [hbar] at hlater
    cases hlater
    exact Int.le_refl _
  · exact Int.le_of_lt (increasing.time_lt hbar hlater past)

/-- A run whose book is bare on every bar that is left. -/
structure Crossing (c : RunScope Float) (p : InstancePlan Float σ)
    (h : EngineHost Float (σ × CallLog Float σ)) (r : InstanceRun Float (σ × CallLog Float σ)) :
    Prop where
  plan : r.plan = p.recorded
  changes : OrderBook.Changes (emptyBook c p.recorded) r.book
  live : r.state = .running → h.engine? r.instanceId = some p.engine.recorded
  bare : ∀ i bar, r.cursor ≤ i → p.rates.primary.bar? i = some bar → r.book.Bare bar.time

/-- What a book holds after an answer, by what it held before. -/
def turned (p : InstancePlan Float σ) (cross : AverageCross Float) (x : Snapshot Float)
    (held : List OrderKind) : List OrderKind :=
  match (closes? x).bind cross.side? with
  | some side => if p.settings.orderLimit = 1 ∧ held = [side.mirror] then [] else [side]
  | none => held

theorem applyRecords_answer (plan : p.Crosses cross) {b : OrderBook Float} {q : Quote Float}
    (bare : b.Bare q.time) (terms : OrderBook.SameTerms (emptyBook c p) b) {x : Snapshot Float}
    (settings : x.settings = p.settings) (orders : x.orders = b.openOrders) (world : σ)
    (succeeded : (p.engine.call world x).2.succeeded = true) :
    let after := (b.applyRecords (p.engine.call world x).2.records q).1
    after.Bare q.time ∧ after.kinds = turned p cross x b.kinds := by
  obtain ⟨part, put, engine⟩ := plan.engine
  rw [engine] at succeeded ⊢
  obtain ⟨cross', closes, accepted, hcloses, records⟩ := AverageCross.call_records succeeded
  rw [settings, plan.accepted] at accepted
  cases accepted
  have limit : 0 < b.orderLimit := by
    rw [terms.orderLimit]
    exact Nat.lt_of_lt_of_le Nat.zero_lt_one (Nat.le_max_right _ 1)
  have lotted : ¬ roundLots cross.lots b.account.minLot ≤ 0 := by
    rw [terms.account]
    exact Binary64.not_le_of_lt plan.lotted
  have hroom := SlotVector.one_le_orderLimit p.settings
  rw [records, settings, orders]
  unfold turned
  rw [hcloses]
  exact AverageCross.applyRecords_signals bare hroom limit lotted closes

namespace Crossing

theorem start (c : RunScope Float) (p : InstancePlan Float σ)
    (h : EngineHost Float (σ × CallLog Float σ)) :
    Crossing c p ((ofPlan c p.recorded).start c h).1 ((ofPlan c p.recorded).start c h).2.1 := by
  obtain ⟨state, failure, hrun⟩ := start_run c h (ofPlan c p.recorded)
  have live := start_engine? (c := c) (h := h) (r := ofPlan c p.recorded) rfl
  rw [hrun] at live ⊢
  exact ⟨rfl, .refl, live, fun _ _ _ _ => .of_nil rfl _⟩

theorem primary (s : Crossing c p h r) : r.primary = p.rates.primary :=
  congrArg (fun plan => plan.rates.primary) s.plan

theorem ask (s : Crossing c p h r) (plan : p.Crosses cross) (running : r.state = .running)
    {bar : Bar Float} (hbar : p.rates.primary.bar? r.cursor = some bar) :
    (r.ask c h bar).2.1.book.Bare bar.time ∧
      ∀ x, r.shows c bar = [x] → (p.engine.call h.world.1 x).2.succeeded = true →
        (r.ask c h bar).2.1.book.kinds = turned p cross x r.book.kinds := by
  have ascends := s.changes.ascends (OrderBook.empty_ascends ..)
  have changes : OrderBook.Changes (emptyBook c p.recorded) (r.settleBar bar).1.book :=
    s.changes.trans (r.settleBar_changes ascends bar)
  have terms : OrderBook.SameTerms (emptyBook c p) (r.settleBar bar).1.book := changes.sameTerms
  obtain ⟨bare, kinds⟩ : (r.settleBar bar).1.book.Bare bar.time ∧
      (r.settleBar bar).1.book.kinds = r.book.kinds :=
    (s.bare r.cursor bar (Nat.le_refl _) hbar).settled bar.time
  have live : h.engine? (r.settleBar bar).1.instanceId = some p.engine.recorded := s.live running
  have settings : ((r.settleBar bar).1.snapshot c (r.settleBar bar).2 bar).settings = p.settings :=
    congrArg InstancePlan.settings s.plan
  unfold InstanceRun.ask shows
  rw [consult_eq live]
  split
  next =>
    have answered := applyRecords_answer (q := (r.settleBar bar).2) plan bare terms settings rfl
      h.world.1
    have book := heed_book (r.settleBar bar).1 (r.settleBar bar).2
      (p.engine.call h.world.1 ((r.settleBar bar).1.snapshot c (r.settleBar bar).2 bar)).2
    rw [kinds] at answered
    generalize (r.settleBar bar).1.snapshot c (r.settleBar bar).2 bar = x at answered book ⊢
    change ((r.settleBar bar).1.heed _ (p.engine.call h.world.1 x).2).1.book.Bare bar.time ∧
      ∀ x', [x] = [x'] → _ → ((r.settleBar bar).1.heed _ (p.engine.call h.world.1 x).2).1.book.kinds = _
    rw [book]
    cases succeeded : (p.engine.call h.world.1 x).2.succeeded with
    | true =>
      rw [if_pos rfl]
      obtain ⟨bare', kinds'⟩ := answered succeeded
      refine ⟨bare', fun x' heq _ => ?_⟩
      cases heq
      exact kinds'
    | false =>
      rw [if_neg Bool.false_ne_true]
      refine ⟨bare, fun x' heq succeeded' => ?_⟩
      cases heq
      rw [succeeded] at succeeded'
      cases succeeded'
  next => exact ⟨bare, fun x heq => nomatch heq⟩

theorem takeBar (s : Crossing c p h r) (plan : p.Crosses cross) (running : r.state = .running)
    {bar : Bar Float} (hbar : p.rates.primary.bar? r.cursor = some bar) :
    Crossing c p (r.takeBar c h bar).1 (r.takeBar c h bar).2.1 := by
  have ascends := s.changes.ascends (OrderBook.empty_ascends ..)
  obtain ⟨bare, -⟩ := s.ask plan running hbar
  refine ⟨(takeBar_plan c h r bar).trans s.plan, s.changes.trans (takeBar_changes ascends bar),
    fun _ => ?_, takeBar_bare plan.increasing hbar bare⟩
  rw [takeBar_engine?]
  exact s.live running

theorem step (s : Crossing c p h r) (plan : p.Crosses cross) (stopped : Bool) :
    Crossing c p (r.step c stopped h).1 (r.step c stopped h).2.1 := by
  have s' : Crossing c p h { r with stepEvents := [] } := { s with }
  rcases step_cases c stopped h r with
    ⟨-, heq⟩ | ⟨-, -, heq⟩ | ⟨-, -, -, heq⟩ | ⟨bar, running, -, hbar, heq⟩
  · rw [heq]
    exact s'
  · rw [heq]
    exact { s with live := nofun }
  · rw [heq]
    exact { s with live := nofun }
  · rw [heq]
    rw [s.primary] at hbar
    exact s'.takeBar plan running hbar

end Crossing

/-- On every bar of a run on which the strategy answers, the book ends up with one order, on the side that
the averages point to. It ends up with none if the other side was held and a result has room for one record
only: the turn is cut off after the close. -/
theorem play_turned (plan : p.Crosses cross) (c : RunScope Float) (stop : StopPoint)
    (h : EngineHost Float (σ × CallLog Float σ)) (n : Nat) (stopped : Bool) :
    let played := (ofPlan c p.recorded).play c stop n h
    let next := played.2.1.step c stopped played.1
    let shown := CallLog.shown next.1.world.2
    ∀ x closes side, (CallLog.shown played.1.world.2).length < shown.length →
      shown.getLast? = some x → (p.engine.call played.1.world.1 x).2.succeeded = true →
      closes? x = some closes → cross.side? closes = some side →
      next.2.1.book.kinds =
        if p.settings.orderLimit = 1 ∧ played.2.1.book.kinds = [side.mirror] then [] else [side] := by
  intro played next shown x closes side asked last succeeded hcloses points
  have s : Crossing c p played.1 played.2.1 :=
    play_induction (P := Crossing c p) (Crossing.start c p h) (fun _ _ s _ => s.step plan _) n
  have s' : Crossing c p played.1 { played.2.1 with stepEvents := [] } := { s with }
  have expected : turned p cross x played.2.1.book.kinds =
      if p.settings.orderLimit = 1 ∧ played.2.1.book.kinds = [side.mirror] then [] else [side] := by
    unfold turned
    rw [hcloses, Option.bind_some, points]
  rw [← expected]
  unfold shown at asked last
  unfold next at asked last ⊢
  rcases step_cases c stopped played.1 played.2.1 with
    ⟨-, heq⟩ | ⟨-, -, heq⟩ | ⟨-, -, -, heq⟩ | ⟨bar, running, -, hbar, heq⟩
  · rw [heq] at asked
    exact absurd asked (Nat.lt_irrefl _)
  · rw [heq] at asked
    exact absurd asked (Nat.lt_irrefl _)
  · rw [heq] at asked
    exact absurd asked (Nat.lt_irrefl _)
  · rw [s.primary] at hbar
    obtain ⟨-, kinds⟩ := s'.ask plan running hbar
    rw [heq, takeBar_host, ask_shown (s'.live running)] at asked last
    rw [heq, takeBar_book]
    refine kinds x ?_ succeeded
    rcases shows_cases c { played.2.1 with stepEvents := [] } bar with quiet | ⟨y, shows⟩
    · rw [quiet, List.append_nil] at asked
      exact absurd asked (Nat.lt_irrefl _)
    · rw [shows, List.getLast?_concat] at last
      rw [shows, Option.some.inj last]

section Sample

def crossPrices : Series Float :=
  #[sampleBar 0 1.1 1.1, sampleBar 60 1.2 1.2, sampleBar 120 1.1 1.1, sampleBar 180 1.1 1.1,
    sampleBar 240 1.1 1.1]

/-- The strategy on averages of one bar and of two, with a number of orders that may be open. -/
def crossPlan (orderLimit : Float) : InstancePlan Float Started where
  instanceId := 1
  engine := AverageCross.engine.focus id fun _ ids => ids
  engineConfig := ""
  settings := (((SlotVector.putAt (Vector.replicate slotCount 0) 0 1).putAt 1 2).put Slot.orderLimit
    orderLimit).put Slot.instanceId 1
  account := .standard
  rates := ⟨"EURUSD", none, "USD", crossPrices,
    [.ofSeries ⟨0, 1, 1, 2, 2, "EURUSD", 5, 0.00001⟩ crossPrices crossPrices], []⟩

def shortCross : AverageCross Float := ⟨1, 2, 0.1⟩

theorem crossPlan_crosses {orderLimit : Float} (h : orderLimit = 1 ∨ orderLimit = 2) :
    (crossPlan orderLimit).Crosses shortCross := by
  refine ⟨⟨id, fun _ ids => ids, rfl⟩, ?_, ?_, ?_, ?_⟩
  · rcases h with rfl | rfl <;> decide +kernel
  · rcases h with rfl | rfl <;> decide +kernel
  · change 0 < roundLots (0.1 : Float) 0.01
    decide +kernel
  · change crossPrices.toList.Pairwise fun a b => a.time < b.time
    decide +kernel

def playCross (orderLimit : Float) (n : Nat) :
    EngineHost Float (Started × CallLog Float Started) ×
      InstanceRun Float (Started × CallLog Float Started) × Option (Fault Float) :=
  (ofPlan sampleScope (crossPlan orderLimit).recorded).play sampleScope none n (.empty ([], []) 0)

def stepCross (orderLimit : Float) (n : Nat) :
    EngineHost Float (Started × CallLog Float Started) ×
      InstanceRun Float (Started × CallLog Float Started) × Option (Fault Float) :=
  (playCross orderLimit n).2.1.step sampleScope false (playCross orderLimit n).1

/-- The bar that the step shows, if it shows one: its time, the side that the averages point to, and
whether the strategy answers it. -/
def crossShown (orderLimit : Float) (n : Nat) : Option (Int × Option OrderKind × Bool) :=
  let before := (playCross orderLimit n).1
  let shown := CallLog.shown (stepCross orderLimit n).1.world.2
  if (CallLog.shown before.world.2).length < shown.length then
    shown.getLast?.map fun x =>
      (x.time, (closes? x).bind shortCross.side?,
        ((crossPlan orderLimit).engine.call before.world.1 x).2.succeeded)
  else none

/-- With one order allowed, which is what instances are given by default, the averages turn down while the
book holds a purchase, and the book ends up empty. -/
theorem reversal_cut_off :
    (crossPlan 1).Crosses shortCross ∧ (crossPlan 1).settings.orderLimit = 1 ∧
      (playCross 1 3).2.1.book.kinds = [.buy] ∧ crossShown 1 3 = some (180, some .sell, true) ∧
      (stepCross 1 3).2.1.book.kinds = [] :=
  ⟨crossPlan_crosses (.inl rfl), by decide +kernel⟩

theorem reversal_turned :
    (crossPlan 2).Crosses shortCross ∧ (playCross 2 3).2.1.book.kinds = [.buy] ∧
      crossShown 2 3 = some (180, some .sell, true) ∧ (stepCross 2 3).2.1.book.kinds = [.sell] := by
  have plan : (crossPlan 2).Crosses shortCross := crossPlan_crosses (.inr rfl)
  have held : (playCross 2 3).2.1.book.kinds = [.buy] := by decide +kernel
  have seen : crossShown 2 3 = some (180, some .sell, true) := by decide +kernel
  refine ⟨plan, held, seen, ?_⟩
  unfold crossShown at seen
  dsimp only at seen
  split at seen
  next asked =>
    obtain ⟨x, last, hx⟩ := Option.map_eq_some_iff.mp seen
    obtain ⟨-, points, succeeded⟩ := by simpa using hx
    obtain ⟨closes, hcloses, side⟩ := Option.bind_eq_some_iff.mp points
    have turned := play_turned plan sampleScope none (.empty ([], []) 0) 3 false x closes .sell asked last
      succeeded hcloses side
    have room : ¬ ((crossPlan 2).settings.orderLimit = 1 ∧ (playCross 2 3).2.1.book.kinds = [.buy]) := by
      decide +kernel
    exact turned.trans (if_neg room)
  next => cases seen

end Sample

end InstanceRun
end Backtest
