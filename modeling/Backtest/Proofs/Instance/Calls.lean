import Backtest.Proofs.Instance.Hosting
import Backtest.Proofs.Instance.LookAhead
import Backtest.Proofs.Instance.Progress

namespace Backtest

def EngineCall.shown? {α : Type} : EngineCall α → Option (Snapshot α)
  | .bar x => some x
  | _ => none

namespace CallLog

variable {α σ : Type}

def shown (log : CallLog α σ) : List (Snapshot α) := log.filterMap (·.2.shown?)

theorem shown_append (log more : CallLog α σ) : shown (log ++ more) = shown log ++ shown more :=
  List.filterMap_append

theorem shown_starts (e : Engine α σ) (r : EngineStart) (codes : List Int) :
    shown (starts e r codes) = [] := by
  induction codes with
  | nil => rfl
  | cons code codes ih => exact ih

end CallLog

namespace EngineHost

variable {α σ : Type}

theorem start_shown (h : EngineHost α (σ × CallLog α σ)) (e : Engine α σ) (r : EngineStart) :
    CallLog.shown (h.start e.recorded r).1.world.2 = CallLog.shown h.world.2 := by
  cases hlive : h.isLive r.instanceId with
  | true => rw [start_of_live hlive]
  | false =>
    obtain ⟨waits, last, -, -, hlog, -⟩ := start_recorded e hlive
    rw [hlog, CallLog.shown_append, CallLog.shown_starts, List.append_nil]

theorem call_eq {h : EngineHost α σ} {x : Snapshot α} {e : Engine α σ}
    (live : h.engine? x.instanceId = some e) :
    h.call x = ({ h with world := (e.call h.world x).1 }, .ok (e.call h.world x).2) := by
  unfold call
  rw [live]

end EngineHost

namespace InstanceRun

variable {α σ : Type} [Arith α]

/-- A run with its engine's answer: the call is counted, and the records of a successful answer are
applied. -/
def heed (r : InstanceRun α σ) (q : Quote α) (answer : EngineAnswer α) :
    InstanceRun α σ × Option (Fault α) :=
  let r := { r with engineCalls := r.engineCalls + 1 }
  if answer.succeeded then
    ({ r with book := (r.book.applyRecords answer.records q).1 },
      (r.book.applyRecords answer.records q).2)
  else (r, some (.callFailed r.instanceId r.cursor answer.code))

theorem heed_book (r : InstanceRun α σ) (q : Quote α) (answer : EngineAnswer α) :
    (r.heed q answer).1.book =
      if answer.succeeded then (r.book.applyRecords answer.records q).1 else r.book := by
  unfold heed
  dsimp only
  split <;> rfl

theorem consult_eq {c : RunScope α} {h : EngineHost α σ} {r : InstanceRun α σ} {e : Engine α σ}
    (live : h.engine? r.instanceId = some e) (q : Quote α) (bar : Bar α) :
    r.consult c h q bar =
      if r.isDue c bar.time then
        ({ h with world := (e.call h.world (r.snapshot c q bar)).1 },
          r.heed q (e.call h.world (r.snapshot c q bar)).2)
      else (h, r, none) := by
  have live' : h.engine? (r.snapshot c q bar).instanceId = some e := live
  unfold consult heed
  rw [EngineHost.call_eq live']
  split
  next =>
    dsimp only
    split <;> rfl
  next => rfl

/-- What a bar shows to the engine: the market and the account once the bar has settled the orders. -/
def shows (c : RunScope α) (r : InstanceRun α σ) (bar : Bar α) : List (Snapshot α) :=
  if (r.settleBar bar).1.isDue c bar.time then
    [(r.settleBar bar).1.snapshot c (r.settleBar bar).2 bar]
  else []

theorem shows_cases (c : RunScope α) (r : InstanceRun α σ) (bar : Bar α) :
    r.shows c bar = [] ∨ ∃ x, r.shows c bar = [x] := by
  unfold shows
  split
  next => exact .inr ⟨_, rfl⟩
  next => exact .inl rfl

theorem ask_shown {c : RunScope α} {h : EngineHost α (σ × CallLog α σ)}
    {r : InstanceRun α (σ × CallLog α σ)} {e : Engine α σ}
    (live : h.engine? r.instanceId = some e.recorded) (bar : Bar α) :
    CallLog.shown (r.ask c h bar).1.world.2 = CallLog.shown h.world.2 ++ r.shows c bar := by
  have live' : h.engine? (r.settleBar bar).1.instanceId = some e.recorded := live
  unfold ask shows
  rw [consult_eq live']
  split
  next => exact CallLog.shown_append _ _
  next => exact (List.append_nil _).symm

theorem takeBar_host (c : RunScope α) (h : EngineHost α σ) (r : InstanceRun α σ) (bar : Bar α) :
    (r.takeBar c h bar).1 = (r.ask c h bar).1 := by
  rcases takeBar_cases c h r bar with ⟨f, -, heq⟩ | ⟨-, -, heq⟩
  all_goals rw [heq]

theorem takeBar_book (c : RunScope α) (h : EngineHost α σ) (r : InstanceRun α σ) (bar : Bar α) :
    (r.takeBar c h bar).2.1.book = (r.ask c h bar).2.1.book := by
  rcases takeBar_cases c h r bar with ⟨f, -, heq⟩ | ⟨-, -, heq⟩
  · rw [heq]
    rfl
  · rw [heq, finishBar_eq]

theorem takeBar_engine? (c : RunScope α) (h : EngineHost α σ) (r : InstanceRun α σ) (bar : Bar α) :
    (r.takeBar c h bar).1.engine? (r.takeBar c h bar).2.1.instanceId = h.engine? r.instanceId := by
  have id : (r.takeBar c h bar).2.1.instanceId = r.instanceId :=
    congrArg InstancePlan.instanceId (takeBar_plan c h r bar)
  rw [id, takeBar_host, EngineHost.engine?, ask_live]
  rfl

theorem start_shown (c : RunScope α) (h : EngineHost α (σ × CallLog α σ))
    (p : InstancePlan α σ) :
    CallLog.shown ((ofPlan c p.recorded).start c h).1.world.2 = CallLog.shown h.world.2 := by
  rcases start_host c h (ofPlan c p.recorded) with heq | ⟨request, -, heq⟩
  · rw [heq]
  · rw [heq]
    exact h.start_shown p.engine request

/-- What a start of a run has brought about, and every step of it preserves, holds after any of its
steps; and what holds of the fault of a start or of a step holds of the fault that it ends on. -/
theorem play_ends {P : EngineHost α σ → InstanceRun α σ → Prop} {Q : InstanceRun α σ → Fault α → Prop}
    {c : RunScope α} {stop : StopPoint} {h : EngineHost α σ} {r : InstanceRun α σ}
    (started : P (r.start c h).1 (r.start c h).2.1)
    (refused : ∀ f, (r.start c h).2.2 = some f → Q (r.start c h).2.1 f)
    (stepped : ∀ h r, P h r → r.state = .running →
      P (r.step c (stop.isReached r.cursor) h).1 (r.step c (stop.isReached r.cursor) h).2.1 ∧
        ∀ f, (r.step c (stop.isReached r.cursor) h).2.2 = some f →
          Q (r.step c (stop.isReached r.cursor) h).2.1 f)
    (n : Nat) :
    P (r.play c stop n h).1 (r.play c stop n h).2.1 ∧
      ∀ f, (r.play c stop n h).2.2 = some f → Q (r.play c stop n h).2.1 f := by
  have steps (h : EngineHost α σ) (r : InstanceRun α σ) (hP : P h r) :
      P (r.steps c stop n h).1 (r.steps c stop n h).2.1 ∧
        ∀ f, (r.steps c stop n h).2.2 = some f → Q (r.steps c stop n h).2.1 f := by
    induction n generalizing h r with
    | zero => exact ⟨hP, nofun⟩
    | succ n ih =>
      by_cases running : r.state = .running
      · have next := stepped h r hP running
        rw [steps_succ c stop n h running]
        generalize r.step c (stop.isReached r.cursor) h = out at next ⊢
        obtain ⟨h', r', fault⟩ := out
        cases fault with
        | some f => exact next
        | none => exact ih h' r' next.1
      · rw [steps_eq_of_halted c stop _ h running]
        exact ⟨hP, nofun⟩
  unfold play
  generalize r.start c h = out at started refused ⊢
  obtain ⟨h', r', fault⟩ := out
  cases fault with
  | some f => exact ⟨started, refused⟩
  | none => exact steps h' r' started

theorem play_induction {P : EngineHost α σ → InstanceRun α σ → Prop} {c : RunScope α}
    {stop : StopPoint} {h : EngineHost α σ} {r : InstanceRun α σ}
    (started : P (r.start c h).1 (r.start c h).2.1)
    (stepped : ∀ h r, P h r → r.state = .running →
      P (r.step c (stop.isReached r.cursor) h).1 (r.step c (stop.isReached r.cursor) h).2.1)
    (n : Nat) : P (r.play c stop n h).1 (r.play c stop n h).2.1 := by
  have both := play_ends (P := P) (Q := fun _ _ => True) started (fun _ _ => trivial)
    (fun h r hP running => ⟨stepped h r hP running, fun _ _ => trivial⟩) n
  exact both.1

end InstanceRun
end Backtest
