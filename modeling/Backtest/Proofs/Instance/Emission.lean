import Backtest.Proofs.Instance.Ledgers
import Backtest.Proofs.Instance.Progress
import Backtest.Proofs.OrderBook.Emission

namespace Backtest

namespace InstanceRun

open OrderBook (Emits)

variable {α σ : Type} [Arith α] {c : RunScope α} {h : EngineHost α σ} {r : InstanceRun α σ}

theorem consult_emits (c : RunScope α) (h : EngineHost α σ) (r : InstanceRun α σ) (q : Quote α)
    (bar : Bar α) : Emits q.time r.book (r.consult c h q bar).2.1.book := by
  unfold consult
  split
  next =>
    split
    next => exact .refl q.time r.book
    next h' answer _ =>
      dsimp only
      split
      next => exact OrderBook.applyRecords_emits r.book answer.records q
      next => exact .refl q.time r.book
  next => exact .refl q.time r.book

theorem settleBar_emits (r : InstanceRun α σ) (bar : Bar α) :
    Emits bar.time r.book (r.settleBar bar).1.book := by
  rw [settleBar_book]
  exact OrderBook.settlement_emits r.book (r.settleBar bar).2

theorem ask_emits (c : RunScope α) (h : EngineHost α σ) (r : InstanceRun α σ) (bar : Bar α) :
    Emits bar.time r.book (r.ask c h bar).2.1.book :=
  (settleBar_emits r bar).trans (consult_emits c h (r.settleBar bar).1 (r.settleBar bar).2 bar)

/-- A bar that ends without a fault for others has emitted its step events, no more and no less. -/
theorem takeBar_emits (ascends : r.book.Ascends) {bar : Bar α}
    (ok : (r.takeBar c h bar).2.2 = none) :
    (r.takeBar c h bar).2.1.book.events.toList =
        r.book.events.toList ++ (r.takeBar c h bar).2.1.stepEvents ∧
      ∀ e ∈ (r.takeBar c h bar).2.1.stepEvents, e.time = bar.time := by
  rcases takeBar_cases c h r bar with ⟨f, hfault, heq⟩ | ⟨-, -, heq⟩
  · -- a fault that stays with the run comes from an answer that has not touched the settled book
    have settled := (r.settleBar_changes ascends bar).ascends ascends
    obtain ⟨calls, book, hrun, -, hbook⟩ :=
      consult_spec c h settled (r.settleBar bar).2 bar
    rw [heq] at ok ⊢
    have mild := abort_snd_eq_none ok
    have kept : book = (r.settleBar bar).1.book := by
      rcases hfault with hfault | hfault
      · refine (hbook f hfault).resolve_left ?_
        rw [mild]
        exact Bool.false_ne_true
      · rw [Fault.isFatal_of_invariant (OrderBook.ledgerFault?_category hfault)] at mild
        cases mild
    have hasked : (r.ask c h bar).2.1 =
        { (r.settleBar bar).1 with engineCalls := calls, book := book } := hrun
    rw [hasked, kept]
    exact (settleBar_emits r bar).drop
  · have emits := (ask_emits c h r bar).drop
    rw [heq, finishBar_eq]
    exact emits

/-- A step without a fault for others has emitted its step events, all at the time of the next bar. -/
theorem step_emits (ascends : r.book.Ascends) {stopped : Bool} (ok : (r.step c stopped h).2.2 = none) :
    (r.step c stopped h).2.1.book.events.toList =
        r.book.events.toList ++ (r.step c stopped h).2.1.stepEvents ∧
      ∀ e ∈ (r.step c stopped h).2.1.stepEvents, r.nextTime? = some e.time := by
  rcases step_cases c stopped h r with
    ⟨-, heq⟩ | ⟨-, -, heq⟩ | ⟨-, -, -, heq⟩ | ⟨bar, -, -, hbar, heq⟩
  · rw [heq]
    exact ⟨(List.append_nil _).symm, fun e he => absurd he List.not_mem_nil⟩
  · rw [heq]
    exact ⟨(List.append_nil _).symm, fun e he => absurd he List.not_mem_nil⟩
  · rw [heq]
    exact ⟨(List.append_nil _).symm, fun e he => absurd he List.not_mem_nil⟩
  · have htime : r.nextTime? = some bar.time := congrArg (Option.map Bar.time) hbar
    rw [heq] at ok ⊢
    obtain ⟨events, times⟩ := takeBar_emits (r := { r with stepEvents := [] }) ascends ok
    refine ⟨events, fun e he => ?_⟩
    rw [htime, times e he]

theorem start_book (c : RunScope α) (h : EngineHost α σ) (r : InstanceRun α σ) :
    (r.start c h).2.1.book = r.book := by
  obtain ⟨state, failure, hrun⟩ := start_run c h r
  rw [hrun]

end InstanceRun
end Backtest
