import Backtest.Proofs.Instance.Crossing
import Backtest.Proofs.Instance.Faults

namespace Backtest

open AverageCross (Started)

/-- A plan for the strategy on two averages over any history, with any settings for which a result can be laid
out. -/
structure InstancePlan.OnAverages {σ : Type} (p : InstancePlan Float σ) : Prop where
  engine : ∃ (part : σ → Started) (put : σ → Started → σ),
    p.engine = AverageCross.engine.focus part put
  sized : AverageCross.Sized p.settings
  increasing : p.rates.primary.Increasing

namespace InstanceRun

theorem start_duplicate {α σ : Type} [Arith α] {c : RunScope α} {h : EngineHost α σ}
    {r : InstanceRun α σ} {f : Fault α} (fresh : r.state = .notStarted)
    (failed : (r.start c h).2.2 = some f) :
    f = .duplicateInstance r.instanceId ∧ h.isLive r.instanceId = true := by
  cases live : h.isLive r.instanceId with
  | true =>
    rw [start_of_live fresh live] at failed
    exact ⟨(Option.some.inj failed).symm, rfl⟩
  | false =>
    rw [start_handsOnNothing live] at failed
    cases failed

variable {σ : Type} {c : RunScope Float} {p : InstancePlan Float σ} {h : EngineHost Float σ}
  {r : InstanceRun Float σ}

theorem answer_takesSingly (plan : p.OnAverages) {b : OrderBook Float} {q : Quote Float}
    (bare : b.Bare q.time) (terms : OrderBook.SameTerms (emptyBook c p) b) {x : Snapshot Float}
    (orders : x.orders = b.openOrders) (world : σ)
    (succeeded : (p.engine.call world x).2.succeeded = true) :
    b.TakesSingly q ((p.engine.call world x).2.records.flatMap Instruction.actions) := by
  obtain ⟨part, put, engine⟩ := plan.engine
  rw [engine] at succeeded ⊢
  obtain ⟨cross, closes, -, -, records⟩ := AverageCross.call_records succeeded
  have limit : 0 < b.orderLimit := by
    rw [terms.orderLimit]
    exact Nat.lt_of_lt_of_le Nat.zero_lt_one (Nat.le_max_right _ 1)
  rw [records, orders]
  exact cross.signals_takesSingly _ bare limit closes

/-- A run that holds one order at most, and a bare book on every bar that is left. -/
structure Single (c : RunScope Float) (p : InstancePlan Float σ) (h : EngineHost Float σ)
    (r : InstanceRun Float σ) : Prop where
  plan : r.plan = p
  changes : OrderBook.Changes (emptyBook c p) r.book
  live : r.state = .running → h.engine? r.instanceId = some p.engine
  bare : ∀ i bar, r.cursor ≤ i → p.rates.primary.bar? i = some bar → r.book.Bare bar.time
  single : r.book.openOrders.length ≤ 1

namespace Single

theorem start (c : RunScope Float) (p : InstancePlan Float σ) (h : EngineHost Float σ) :
    Single c p ((ofPlan c p).start c h).1 ((ofPlan c p).start c h).2.1 := by
  obtain ⟨state, failure, hrun⟩ := start_run c h (ofPlan c p)
  have live := start_engine? (c := c) (h := h) (r := ofPlan c p) rfl
  rw [hrun] at live ⊢
  exact ⟨rfl, .refl, live, fun _ _ _ _ => .of_nil rfl _, Nat.zero_le 1⟩

theorem primary (s : Single c p h r) : r.primary = p.rates.primary :=
  congrArg (fun plan => plan.rates.primary) s.plan

theorem settleBar (s : Single c p h r) {bar : Bar Float}
    (hbar : p.rates.primary.bar? r.cursor = some bar) : (r.settleBar bar).1.book.Bare bar.time :=
  ((s.bare r.cursor bar (Nat.le_refl _) hbar).settled bar.time).1

theorem answer (s : Single c p h r) (plan : p.OnAverages) {bar : Bar Float}
    (hbar : p.rates.primary.bar? r.cursor = some bar) (world : σ)
    (succeeded : (p.engine.call world
      ((r.settleBar bar).1.snapshot c (r.settleBar bar).2 bar)).2.succeeded = true) :
    (r.settleBar bar).1.book.TakesSingly (r.settleBar bar).2
      ((p.engine.call world
        ((r.settleBar bar).1.snapshot c (r.settleBar bar).2 bar)).2.records.flatMap
          Instruction.actions) := by
  have ascends := s.changes.ascends (OrderBook.empty_ascends ..)
  have changes : OrderBook.Changes (emptyBook c p) (r.settleBar bar).1.book :=
    s.changes.trans (r.settleBar_changes ascends bar)
  have bare : (r.settleBar bar).1.book.Bare (r.settleBar bar).2.time := s.settleBar hbar
  exact answer_takesSingly plan bare changes.sameTerms rfl world succeeded

theorem ask (s : Single c p h r) (plan : p.OnAverages) (running : r.state = .running)
    {bar : Bar Float} (hbar : p.rates.primary.bar? r.cursor = some bar) :
    (r.ask c h bar).2.1.book.Bare bar.time ∧
      ∀ f, (r.ask c h bar).2.2 = some f → f.isFatal = false := by
  have live : h.engine? (r.settleBar bar).1.instanceId = some p.engine := s.live running
  have bare := s.settleBar hbar
  have answered := s.answer plan hbar h.world
  unfold InstanceRun.ask
  rw [consult_eq live]
  split
  next =>
    unfold heed
    dsimp only
    split
    next succeeded =>
      -- all that a successful answer asks for goes through, so that nothing is left to fail
      obtain ⟨ok, bare'⟩ := (answered succeeded).result
      refine ⟨bare', fun f hf => ?_⟩
      cases ok.symm.trans hf
    next =>
      refine ⟨bare, fun f hf => ?_⟩
      cases hf
      rfl
  next => exact ⟨bare, nofun⟩

theorem takeBar (s : Single c p h r) (plan : p.OnAverages) (running : r.state = .running)
    {bar : Bar Float} (hbar : p.rates.primary.bar? r.cursor = some bar) :
    Single c p (r.takeBar c h bar).1 (r.takeBar c h bar).2.1 := by
  have ascends := s.changes.ascends (OrderBook.empty_ascends ..)
  obtain ⟨bare, -⟩ := s.ask plan running hbar
  refine ⟨(takeBar_plan c h r bar).trans s.plan, s.changes.trans (takeBar_changes ascends bar),
    fun _ => ?_, takeBar_bare plan.increasing hbar bare, ?_⟩
  · rw [takeBar_engine?]
    exact s.live running
  · rw [takeBar_book]
    exact bare.single

/-- What a bar hands on is the fault of the ledger. -/
theorem takeBar_fault (s : Single c p h r) (plan : p.OnAverages) (running : r.state = .running)
    {bar : Bar Float} (hbar : p.rates.primary.bar? r.cursor = some bar) {f : Fault Float}
    (failed : (r.takeBar c h bar).2.2 = some f) :
    (r.takeBar c h bar).2.1.book.ledgerFault? = some f := by
  obtain ⟨-, mild⟩ := s.ask plan running hbar
  rcases takeBar_cases c h r bar with ⟨g, cause, heq⟩ | ⟨-, -, heq⟩
  · rw [heq] at failed ⊢
    obtain ⟨rfl, fatal⟩ := abort_snd_eq_some failed
    rcases cause with asked | unbalanced
    · rw [mild f asked] at fatal
      cases fatal
    · exact unbalanced
  · rw [heq] at failed
    cases failed

theorem step (s : Single c p h r) (plan : p.OnAverages) (stopped : Bool) :
    Single c p (r.step c stopped h).1 (r.step c stopped h).2.1 ∧
      ∀ f, (r.step c stopped h).2.2 = some f →
        (r.step c stopped h).2.1.book.ledgerFault? = some f := by
  have s' : Single c p h { r with stepEvents := [] } := { s with }
  rcases step_cases c stopped h r with
    ⟨-, heq⟩ | ⟨-, -, heq⟩ | ⟨-, -, -, heq⟩ | ⟨bar, running, -, hbar, heq⟩
  · rw [heq]
    exact ⟨s', nofun⟩
  · rw [heq]
    exact ⟨{ s with live := nofun }, nofun⟩
  · rw [heq]
    exact ⟨{ s with live := nofun }, nofun⟩
  · rw [heq]
    rw [s.primary] at hbar
    exact ⟨s'.takeBar plan running hbar, fun f => s'.takeBar_fault plan running hbar⟩

end Single

theorem play_single (plan : p.OnAverages) (c : RunScope Float) (stop : StopPoint)
    (h : EngineHost Float σ) (n : Nat) :
    Single c p ((ofPlan c p).play c stop n h).1 ((ofPlan c p).play c stop n h).2.1 ∧
      ∀ f, ((ofPlan c p).play c stop n h).2.2 = some f →
        f = .duplicateInstance p.instanceId ∧ h.isLive p.instanceId = true ∨
          ((ofPlan c p).play c stop n h).2.1.book.ledgerFault? = some f := by
  refine play_ends (P := Single c p)
    (Q := fun r f => f = .duplicateInstance p.instanceId ∧ h.isLive p.instanceId = true ∨
      r.book.ledgerFault? = some f)
    (Single.start c p h) (fun f refused => .inl (start_duplicate rfl refused)) (fun h r s _ => ?_) n
  obtain ⟨next, broken⟩ := s.step plan (stop.isReached r.cursor)
  exact ⟨next, fun f hf => .inr (broken f hf)⟩

/-- A run of the strategy on two averages hands on no fault but that its instance is live already or that
its ledger does not add up. At any time its book holds one order at most: after any number of steps, once the
market has settled a bar, and after every action of an answer to it. None of these actions fails, and every
close among them finds the order that is open. -/
theorem run_single (plan : p.OnAverages) (c : RunScope Float) (stop : StopPoint)
    (h : EngineHost Float σ) :
    (∀ f, ((ofPlan c p).run c stop h).2.2 = some f →
      f = .duplicateInstance p.instanceId ∧ h.isLive p.instanceId = true ∨
        ((ofPlan c p).run c stop h).2.1.book.ledgerFault? = some f) ∧
    ∀ n,
      let played := (ofPlan c p).play c stop n h
      played.2.1.book.openOrders.length ≤ 1 ∧
        ∀ bar, played.2.1.state = .running → played.2.1.primary.bar? played.2.1.cursor = some bar →
          let settled := (played.2.1.settleBar bar).1
          let q := (played.2.1.settleBar bar).2
          settled.book.openOrders.length ≤ 1 ∧
            ∀ answer, (played.1.call (settled.snapshot c q bar)).2 = .ok answer →
              answer.succeeded = true →
              (settled.book.applyRecords answer.records q).2 = none ∧
                ∀ done next, answer.records.flatMap Instruction.actions = done ++ next →
                  let reached := settled.book.actAll q done
                  reached.2 = none ∧ reached.1.openOrders.length ≤ 1 ∧
                    ∀ kind ticket rest, next = .close kind ticket :: rest →
                      ∃ o, reached.1.openOrders = [o] ∧
                        reached.1.addressedBy kind ticket = .ok [o] := by
  have single := play_single plan c stop h
  refine ⟨fun f failed => ?_, fun n => ?_⟩
  · rw [run_eq_play] at failed ⊢
    exact (single _).2 f failed
  · intro played
    have s : Single c p played.1 played.2.1 := (single n).1
    refine ⟨s.single, fun bar running hbar => ?_⟩
    rw [s.primary] at hbar
    refine ⟨(s.settleBar hbar).single, fun answer called succeeded => ?_⟩
    have live : played.1.engine? ((played.2.1.settleBar bar).1.snapshot c
        (played.2.1.settleBar bar).2 bar).instanceId = some p.engine := s.live running
    rw [EngineHost.call_eq live] at called
    obtain rfl := Except.ok.inj called
    have takes := s.answer plan hbar played.1.world succeeded
    refine ⟨takes.result.1, fun done next parts => ?_⟩
    obtain ⟨ok, bare, finds⟩ := takes done next parts
    exact ⟨ok, bare.single, finds⟩

section Sample

def risingPrices : Series Float :=
  #[sampleBar 0 1 1, sampleBar 60 1 2, sampleBar 120 1 1, sampleBar 180 2 2, sampleBar 240 3 3,
    sampleBar 300 3 3]

/-- The strategy on averages of one bar and of two, with more lots than the balance can count in. -/
def vastCross : InstancePlan Float Started :=
  { crossPlan 2 with
    settings := (crossPlan 2).settings.putAt 2 1152921504606846976
    account := { Account.standard with contractSize := 1, minLot := 1 }
    rates := ⟨"EURUSD", none, "USD", risingPrices,
      [.ofSeries ⟨0, 1, 1, 2, 2, "EURUSD", 5, 0.00001⟩ risingPrices risingPrices], []⟩ }

theorem vastCross_onAverages : vastCross.OnAverages := by
  refine ⟨⟨id, fun _ ids => ids, rfl⟩, by decide +kernel, ?_⟩
  change risingPrices.toList.Pairwise fun a b => a.time < b.time
  decide +kernel

def runVastCross : EngineHost Float Started × InstanceRun Float Started × Option (Fault Float) :=
  (ofPlan sampleScope vastCross).run sampleScope none (.empty [] 0)

/-- A gain and the same loss leave another balance than before, and the run ends on a fatal fault. So does
one whose instance is live already. And there are settings for which no result can be laid out. -/
theorem vastCross_fatal :
    vastCross.OnAverages ∧ runVastCross.2.2.map Fault.category = some .invariant ∧
      runVastCross.2.2.map Fault.isFatal = some true ∧
      runVastCross.2.1.book.closedOrders.toList.map (·.kind) = [.buy, .sell] ∧
      ((ofPlan sampleScope vastCross).run sampleScope none
        ⟨[1], [(1, vastCross.engine)], 0⟩).2.2.map Fault.isFatal = some true ∧
      ¬ AverageCross.Sized (crossPlan 1152921504606846976).settings :=
  ⟨vastCross_onAverages, by decide +kernel⟩

def playVastCross : EngineHost Float Started × InstanceRun Float Started × Option (Fault Float) :=
  (ofPlan sampleScope vastCross).play sampleScope none 4 (.empty [] 0)

theorem vastCross_single :
    vastCross.OnAverages ∧ runVastCross.2.1.book.ledgerFault?.isSome = true ∧
      playVastCross.2.1.book.openOrders.length ≤ 1 ∧
      ∃ (bar : Bar Float) (answer : EngineAnswer Float),
        playVastCross.2.1.primary.bar? playVastCross.2.1.cursor = some bar ∧
          answer.records.length = 2 ∧
          ((playVastCross.2.1.settleBar bar).1.book.applyRecords answer.records
            (playVastCross.2.1.settleBar bar).2).2 = none := by
  obtain ⟨faults, singly⟩ := run_single vastCross_onAverages sampleScope none (.empty [] 0)
  obtain ⟨one, answers⟩ := singly 4
  refine ⟨vastCross_onAverages, ?_, one, ?_⟩
  · have broken : runVastCross.2.2.isSome = true := by decide +kernel
    obtain ⟨f, hf⟩ := Option.isSome_iff_exists.mp broken
    rcases faults f hf with ⟨-, live⟩ | unbalanced
    · cases live
    · exact Option.isSome_of_eq_some unbalanced
  · have running : playVastCross.2.1.state = .running := by decide +kernel
    have asked : (playVastCross.2.1.primary.bar? playVastCross.2.1.cursor).any (fun bar =>
        (playVastCross.1.call ((playVastCross.2.1.settleBar bar).1.snapshot sampleScope
          (playVastCross.2.1.settleBar bar).2 bar)).2.toOption.any fun answer =>
            answer.succeeded && answer.records.length == 2) = true := by
      decide +kernel
    obtain ⟨bar, hbar, fits⟩ := (Option.any_eq_true ..).mp asked
    obtain ⟨answer, called⟩ := ok_of_toOption (Option.isSome_of_any fits)
    rw [called] at fits
    obtain ⟨succeeded, two⟩ := Bool.and_eq_true_iff.mp fits
    obtain ⟨-, applied⟩ := answers bar running hbar
    obtain ⟨none_fails, -⟩ := applied answer called succeeded
    exact ⟨bar, answer, hbar, eq_of_beq two, none_fails⟩

end Sample

end InstanceRun
end Backtest
